import Mathlib.Data.List.Forall2
import CommandConsole.Proofs.Token.Substitution
import CommandConsole.Proofs.ValueParser.Yields

/-! What a property stands for is read as if it stood there in quotes. -/
namespace CommandConsole

/-- A token with every property replaced by what it stands for, in quotes. -/
def Token.quoted : Token → Token := Token.withProperties fun _ value => .literal value

theorem Token.scalar?_quoted (t : Token) : t.quoted.scalar? = t.scalar? := by
  cases t <;> rfl

/-- A value that is there, and that is not made of others. -/
structure Value.IsPiece (v : Value) : Prop where
  isNil : v.isNil = false
  list : v.list? = none
  map : v.map? = none

/-- A value has the shape of a token: one piece for one piece of text, as many items as there are
items, and as many entries as there are pairs. Only a bare word can be nil. -/
inductive Value.ShapedLike : Value → Token → Prop where
  | piece {v : Value} {t : Token} (piece : v.IsPiece) (text : t.isScalar = true) : ShapedLike v t
  | nil {s : String} (word : ValueParser.isNilWord s = true) : ShapedLike .nil (.plain s)
  | list {items : List Value} {tokens : List Token} (each : List.Forall₂ ShapedLike items tokens) :
      ShapedLike (.list items) (.collection tokens)
  | map {entries : List (Value × Value)} {pairs : List (Token × Token)}
      (keys : List.Forall₂ ShapedLike (entries.map Prod.fst) (pairs.map Prod.fst))
      (values : List.Forall₂ ShapedLike (entries.map Prod.snd) (pairs.map Prod.snd)) :
      ShapedLike (.map entries) (.dictionary pairs)

namespace ValueType

/-- Whether the values of a type are single pieces. -/
def isScalar : ValueType → Bool
  | .bool | .int | .float | .text | .enum _ => true
  | .custom _ | .optional _ | .list _ | .map _ _ => false

theorem isPiece_of_accepts {t : ValueType} {v : Value} (scalar : t.isScalar = true)
    (h : t.accepts v = true) : v.IsPiece := by
  cases t <;> cases scalar <;> cases v <;> first | exact ⟨rfl, rfl, rfl⟩ | cases h

end ValueType

namespace ValueParser

variable {p key value : ValueParser} {t : ValueType} {expected : String}
  {read : Identity → String → Except Refusal Value} {place : Identity} {index : Nat}

theorem Yields.makes_piece (h : p.Yields t) (scalar : t.isScalar = true) :
    p.Makes Value.IsPiece := by
  intro place token v hparse
  exact ValueType.isPiece_of_accepts scalar (h place token v hparse).accepted

/-- The parsers that are put together from those for single pieces of text. -/
inductive Assembled : ValueParser → Prop where
  | scalar {expected : String} {read : Identity → String → Except Refusal Value}
      (pieces : (scalar expected read).Makes Value.IsPiece) : Assembled (scalar expected read)
  | optional {p : ValueParser} (inner : Assembled p) : Assembled (optional p)
  | list {p : ValueParser} (element : Assembled p) : Assembled (list p)
  | map {p q : ValueParser} (key : Assembled p) (value : Assembled q) : Assembled (map p q)

/-- A parser makes the same of what stands for a property as of the same text in quotes. -/
def Blind (p : ValueParser) : Prop :=
  ∀ place token v, p.parse place token = .ok v ↔ p.parse place token.quoted = .ok v

theorem scalar_blind (expected : String) (read : Identity → String → Except Refusal Value) :
    (scalar expected read).Blind := by
  intro place token v
  rw [scalar_eq_ok, scalar_eq_ok, Token.scalar?_quoted]

/-- A property is not a bare word, and in quotes it is none either. -/
theorem Blind.optional (h : p.Blind) : (optional p).Blind := by
  intro place token v
  cases token with
  | plain s => exact Iff.rfl
  | _ => exact h place _ v

theorem Blind.parseItems (h : p.Blind) (place : Identity) (index : Nat) (tokens : List Token)
    (vs : List Value) : parseItems p place index tokens = .ok vs ↔
      parseItems p place index (tokens.map Token.quoted) = .ok vs := by
  induction tokens generalizing index vs with
  | nil => exact Iff.rfl
  | cons token rest ih =>
    rw [List.map_cons, parseItems_cons_eq_ok, parseItems_cons_eq_ok]
    constructor
    · rintro ⟨v, others, hv, hothers, rfl⟩
      exact ⟨v, others, (h _ _ _).mp hv, (ih _ _).mp hothers, rfl⟩
    · rintro ⟨v, others, hv, hothers, rfl⟩
      exact ⟨v, others, (h _ _ _).mpr hv, (ih _ _).mpr hothers, rfl⟩

theorem Blind.parsePairs (hk : key.Blind) (hu : value.Blind) (place : Identity) (index : Nat)
    (done : List (Value × Value)) (pairs : List (Token × Token)) (entries : List (Value × Value)) :
    parsePairs key value place index done pairs = .ok entries ↔
      parsePairs key value place index done (pairs.map (Prod.map Token.quoted Token.quoted)) =
        .ok entries := by
  induction pairs generalizing index done with
  | nil => exact Iff.rfl
  | cons pair rest ih =>
    obtain ⟨k, u⟩ := pair
    rw [List.map_cons, Prod.map_apply, parsePairs_cons_eq_ok, parsePairs_cons_eq_ok]
    constructor
    · rintro ⟨kv, uv, hkv, huv, hfresh, hrest⟩
      exact ⟨kv, uv, (hk _ _ _).mp hkv, (hu _ _ _).mp huv, hfresh, (ih _ _).mp hrest⟩
    · rintro ⟨kv, uv, hkv, huv, hfresh, hrest⟩
      exact ⟨kv, uv, (hk _ _ _).mpr hkv, (hu _ _ _).mpr huv, hfresh, (ih _ _).mpr hrest⟩

theorem Blind.list (h : p.Blind) : (list p).Blind := by
  intro place token v
  cases token with
  | collection tokens =>
    rw [Token.quoted, Token.withProperties_collection, list_eq_ok, list_eq_ok]
    exact exists_congr fun items => and_congr_left' (h.parseItems place 0 tokens items)
  | _ => constructor <;> intro h <;> cases h

theorem Blind.map (hk : key.Blind) (hu : value.Blind) : (map key value).Blind := by
  intro place token v
  cases token with
  | dictionary pairs =>
    rw [Token.quoted, Token.withProperties_dictionary, map_eq_ok, map_eq_ok]
    exact exists_congr fun entries => and_congr_left' (hk.parsePairs hu place 0 [] pairs entries)
  | _ => constructor <;> intro h <;> cases h

theorem Assembled.blind (h : Assembled p) : p.Blind := by
  induction h with
  | scalar => exact scalar_blind _ _
  | optional inner ih => exact ih.optional
  | list element ih => exact ih.list
  | map key value ihk ihu => exact ihk.map ihu

/-- The values that a parser makes have the shape of their tokens. -/
def Shapes (p : ValueParser) : Prop :=
  ∀ place token v, p.parse place token = .ok v → v.ShapedLike token

theorem scalar_shapes (pieces : (scalar expected read).Makes Value.IsPiece) :
    (scalar expected read).Shapes := by
  intro place token v h
  obtain ⟨s, hs, -⟩ := scalar_eq_ok.mp h
  exact .piece (pieces place token v h) (by rw [Token.isScalar, hs, Option.isSome_some])

theorem Shapes.optional (h : p.Shapes) : (optional p).Shapes := by
  intro place token v hparse
  simp only [ValueParser.optional] at hparse
  split at hparse
  · split at hparse
    · rename_i hword
      injection hparse with hparse
      exact hparse ▸ .nil hword
    · exact h _ _ _ hparse
  · exact h _ _ _ hparse

theorem Shapes.list (h : p.Shapes) : (list p).Shapes := by
  intro place token v hparse
  obtain ⟨tokens, items, rfl, reads, rfl⟩ := list_parses_iff.mp hparse
  have each : List.Forall₂ (fun v (x : Token × Nat) => v.ShapedLike x.1) items tokens.zipIdx :=
    .flip (reads.imp fun _ _ hv => h _ _ _ hv)
  rw [← List.forall₂_map_right_iff, List.zipIdx_map_fst] at each
  exact .list each

theorem Shapes.map (hk : key.Shapes) (hu : value.Shapes) : (map key value).Shapes := by
  intro place token v hparse
  obtain ⟨pairs, entries, rfl, reads, -, rfl⟩ := map_parses_iff.mp hparse
  have each : List.Forall₂ (fun (e : Value × Value) (x : (Token × Token) × Nat) =>
      e.1.ShapedLike x.1.1 ∧ e.2.ShapedLike x.1.2) entries pairs.zipIdx :=
    .flip (reads.imp fun _ _ he => ⟨hk _ _ _ he.1, hu _ _ _ he.2⟩)
  have hpairs : pairs.zipIdx.map Prod.fst = pairs := List.zipIdx_map_fst 0 pairs
  rw [← hpairs]
  refine .map ?_ ?_
  · rw [List.map_map, List.forall₂_map_left_iff, List.forall₂_map_right_iff]
    exact each.imp fun _ _ h => h.1
  · rw [List.map_map, List.forall₂_map_left_iff, List.forall₂_map_right_iff]
    exact each.imp fun _ _ h => h.2

theorem Assembled.shapes (h : Assembled p) : p.Shapes := by
  induction h with
  | scalar pieces => exact scalar_shapes pieces
  | optional inner ih => exact ih.optional
  | list element ih => exact ih.list
  | map key value ihk ihu => exact ihk.map ihu

end ValueParser

namespace ParserRegistry

open ValueParser

variable {t : ValueType} {p : ValueParser}

/-- A basic or custom type has a parser only if one is registered under its name. -/
theorem find?_of_resolve {r : ParserRegistry} (brings : t.bringsParser = false)
    (h : r.resolve t = .ok p) : r.find? t.display = some p := by
  cases t <;> cases brings <;>
  · simp only [resolve] at h
    split at h
    · rename_i hfound
      injection h with h
      exact h ▸ hfound
    · cases h

theorem assembled_of_find? {key : String} (h : builtin.find? key = some p) : Assembled p := by
  have hin : p ∈ builtin.parsers.map Prod.snd := List.mem_map_of_mem (Table.mem_of_find? h)
  have hlist : builtin.parsers.map Prod.snd = [.bool, .int, .float, .text] := rfl
  rw [hlist] at hin
  simp only [List.mem_cons, List.not_mem_nil, or_false] at hin
  obtain rfl | rfl | rfl | rfl := hin
  · exact .scalar (bool_yields.makes_piece rfl)
  · exact .scalar (int_yields.makes_piece rfl)
  · exact .scalar (float_yields.makes_piece rfl)
  · exact .scalar (text_yields.makes_piece rfl)

theorem assembled_of_resolve (h : builtin.resolve t = .ok p) : Assembled p := by
  induction t generalizing p with
  | bool | int | float | text | custom => exact assembled_of_find? (find?_of_resolve rfl h)
  | enum e =>
    cases hfound : builtin.find? (ValueType.enum e).display with
    | some q =>
      rw [resolve_of_find? hfound] at h
      injection h with h
      exact h ▸ assembled_of_find? hfound
    | none =>
      rw [resolve_enum hfound] at h
      injection h with h
      exact h ▸ .scalar ((variant_yields e).makes_piece rfl)
  | optional t ih =>
    rw [resolve_builtin_optional] at h
    obtain ⟨inner, hinner, rfl⟩ := exists_of_map_eq_ok h
    exact .optional (ih hinner)
  | list t ih =>
    rw [resolve_builtin_list] at h
    obtain ⟨element, helement, rfl⟩ := exists_of_map_eq_ok h
    exact .list (ih helement)
  | map k u ihk ihu =>
    rw [resolve_builtin_map] at h
    split at h
    · cases h
    rename_i key hkey
    obtain ⟨value, hvalue, rfl⟩ := exists_of_map_eq_ok h
    exact .map (ihk hkey) (ihu hvalue)

/-- A type that is resolved among the basic parsers takes what properties stand for like text in
quotes, at any depth, and makes the same value of it. This value has the shape of its token, so that
what a property stands for is one piece wherever it is: not nil, no list and no map, and one item of
the list that it is in. -/
theorem properties_parse_as_quoted (resolved : builtin.resolve t = .ok p) (place : Identity) :
    (∀ token v, p.parse place token = .ok v ↔ p.parse place token.quoted = .ok v) ∧
      (∀ token v, p.parse place token = .ok v → v.ShapedLike token) ∧
      ∀ name text v, p.parse place (.property name text) = .ok v → v.IsPiece := by
  have hp := assembled_of_resolve resolved
  refine ⟨hp.blind place, hp.shapes place, ?_⟩
  intro name text v hparse
  cases hp.shapes place _ v hparse with
  | piece piece text => exact piece

/-- A nil word, a list and two items stay texts where they come from properties, also as a key. -/
theorem properties_in_map_parse_as_quoted : ∃ p token v,
    builtin.resolve (.map .text (.list (.optional .text))) = .ok p ∧
      token = .dictionary [(.property "k" "1,2", .collection [.property "x" "null", .plain "null",
        .property "y" "[a,b]"])] ∧
      v = .map [(.text "1,2", .list [.text "null", .nil, .text "[a,b]"])] ∧
      p.parse [] token = .ok v ∧ p.parse [] token.quoted = .ok v ∧ v.ShapedLike token := by
  let token : Token := .dictionary [(.property "k" "1,2", .collection
    [.property "x" "null", .plain "null", .property "y" "[a,b]"])]
  let v : Value := .map [(.text "1,2", .list [.text "null", .nil, .text "[a,b]"])]
  have resolved : builtin.resolve (.map .text (.list (.optional .text))) =
      .ok (.map .text (.list (.optional .text))) := by
    rfl
  have parsed : (ValueParser.map .text (.list (.optional .text))).parse [] token = .ok v := by
    rfl
  obtain ⟨same, shaped, -⟩ := properties_parse_as_quoted resolved []
  exact ⟨_, token, v, resolved, rfl, rfl, parsed, (same token v).mp parsed, shaped token v parsed⟩

end ParserRegistry
end CommandConsole
