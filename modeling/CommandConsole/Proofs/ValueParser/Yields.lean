import CommandConsole.Proofs.Value.Typing
import CommandConsole.ValueParser.Registry
import Mathlib.Data.List.Forall2

/-! The parsers that a registry resolves for a type make values of that type, and nothing else. -/
namespace CommandConsole

namespace ValueType

/-- A type and all types that it is put together from. -/
def parts : ValueType → List ValueType
  | .optional t => .optional t :: t.parts
  | .list t => .list t :: t.parts
  | .map k v => .map k v :: (k.parts ++ v.parts)
  | t => [t]

/-- Whether there is a parser for a type without one being registered for it, given parsers of its
parts. -/
def bringsParser : ValueType → Bool
  | .enum _ => true
  | .optional _ => true
  | .list _ => true
  | .map _ _ => true
  | _ => false

theorem mem_parts (t : ValueType) : t ∈ t.parts := by
  cases t <;> simp [parts]

end ValueType

namespace ParserRegistry

/-- The names of the four basic types stand for the parsers of this library. -/
structure Standard (r : ParserRegistry) : Prop where
  bool : r.find? "bool" = some .bool
  int : r.find? "int" = some .int
  float : r.find? "float" = some .float
  text : r.find? "string" = some .text

/-- Nothing is registered in place of the parser that a part of a type brings. -/
def Unshadowed (r : ParserRegistry) (t : ValueType) : Prop :=
  ∀ s ∈ t.parts, s.bringsParser = true → r.find? s.display = none

variable {r : ParserRegistry} {t k u : ValueType}

theorem standard_builtin : builtin.Standard := by
  constructor <;> rfl

/-- The names of the basic types have no bracket in them. -/
theorem find?_builtin_eq_none {key : String} (h : '<' ∈ key.toList) : builtin.find? key = none := by
  have hnames : ∀ name ∈ builtin.parsers.map Prod.fst, '<' ∉ name.toList := by decide
  rw [ParserRegistry.find?, Table.find?_eq_none_iff]
  exact fun hin => hnames key hin h

theorem Unshadowed.find?_eq_none (h : r.Unshadowed t) (ht : t.bringsParser = true) :
    r.find? t.display = none :=
  h t t.mem_parts ht

theorem Unshadowed.optional (h : r.Unshadowed (.optional t)) : r.Unshadowed t :=
  fun s hs => h s (List.mem_cons_of_mem _ hs)

theorem Unshadowed.list (h : r.Unshadowed (.list t)) : r.Unshadowed t :=
  fun s hs => h s (List.mem_cons_of_mem _ hs)

theorem Unshadowed.map (h : r.Unshadowed (.map k u)) : r.Unshadowed k ∧ r.Unshadowed u :=
  ⟨fun s hs => h s (List.mem_cons_of_mem _ (List.mem_append_left _ hs)),
    fun s hs => h s (List.mem_cons_of_mem _ (List.mem_append_right _ hs))⟩

end ParserRegistry

namespace ValueParser

theorem exists_of_map_eq_ok {ε α β : Type} {f : α → β} {x : Except ε α} {b : β}
    (h : x.map f = .ok b) : ∃ a, x = .ok a ∧ f a = b := by
  cases x with
  | error e => cases h
  | ok a =>
    injection h with h
    exact ⟨a, rfl, h⟩

/-- Every value that a parser makes has a property. -/
def Makes (p : ValueParser) (P : Value → Prop) : Prop :=
  ∀ place token v, p.parse place token = .ok v → P v

/-- What a parser makes of tokens one by one, each at a place of its own. -/
def ReadsItems (p : ValueParser) (place : Identity) (index : Nat) (tokens : List Token)
    (items : List Value) : Prop :=
  List.Forall₂ (fun x v => p.parse (place ++ [x.2]) x.1 = .ok v) (tokens.zipIdx index) items

/-- What two parsers make of the keys and values of pairs, each at a place of its own. -/
def ReadsPairs (key value : ValueParser) (place : Identity) (index : Nat)
    (pairs : List (Token × Token)) (entries : List (Value × Value)) : Prop :=
  List.Forall₂ (fun x e => key.parse (place ++ [x.2, 0]) x.1.1 = .ok e.1 ∧
    value.parse (place ++ [x.2, 1]) x.1.2 = .ok e.2) (pairs.zipIdx index) entries

/-- Every value that a parser makes belongs to a type. -/
def Yields (p : ValueParser) (t : ValueType) : Prop :=
  ∀ place token v, p.parse place token = .ok v → t.Holds v

variable {p key value : ValueParser} {t k u : ValueType} {expected : String}
  {read : Identity → String → Except Refusal Value} {P Q : Value → Prop} {place : Identity}
  {index : Nat}

theorem scalar_eq_ok {token : Token} {v : Value} :
    (scalar expected read).parse place token = .ok v ↔
      ∃ s, token.scalar? = some s ∧ read place s = .ok v := by
  simp only [scalar]
  split
  · simp_all
  · simp_all

theorem parseItems_cons_eq_ok {token : Token} {rest : List Token} {vs : List Value} :
    parseItems p place index (token :: rest) = .ok vs ↔
      ∃ v others, p.parse (place ++ [index]) token = .ok v ∧
        parseItems p place (index + 1) rest = .ok others ∧ vs = v :: others := by
  simp only [parseItems]
  cases p.parse (place ++ [index]) token with
  | error reason => simp
  | ok v =>
    cases parseItems p place (index + 1) rest with
    | error reason => simp
    | ok others => simp [eq_comm]

theorem parsePairs_cons_eq_ok {k u : Token} {rest : List (Token × Token)}
    {done entries : List (Value × Value)} :
    parsePairs key value place index done ((k, u) :: rest) = .ok entries ↔
      ∃ kv uv, key.parse (place ++ [index, 0]) k = .ok kv ∧
        value.parse (place ++ [index, 1]) u = .ok uv ∧ done.any (kv == ·.1) = false ∧
        parsePairs key value place (index + 1) (done ++ [(kv, uv)]) rest = .ok entries := by
  simp only [parsePairs]
  cases key.parse (place ++ [index, 0]) k with
  | error reason => simp
  | ok kv =>
    cases value.parse (place ++ [index, 1]) u with
    | error reason => simp
    | ok uv =>
      dsimp only
      split
      · rename_i hany
        constructor
        · intro h
          cases h
        · rintro ⟨_, _, ⟨⟩, ⟨⟩, hfresh, -⟩
          rw [hany] at hfresh
          cases hfresh
      · rename_i hany
        constructor
        · intro h
          exact ⟨kv, uv, rfl, rfl, Bool.not_eq_true _ ▸ hany, h⟩
        · rintro ⟨_, _, ⟨⟩, ⟨⟩, -, h⟩
          exact h

theorem list_eq_ok {tokens : List Token} {v : Value} :
    (list p).parse place (.collection tokens) = .ok v ↔
      ∃ items, parseItems p place 0 tokens = .ok items ∧ v = .list items := by
  simp only [list]
  cases ValueParser.parseItems p place 0 tokens with
  | error reason => simp [Except.map]
  | ok items => simp [Except.map, eq_comm]

theorem map_eq_ok {pairs : List (Token × Token)} {v : Value} :
    (map key value).parse place (.dictionary pairs) = .ok v ↔
      ∃ entries, parsePairs key value place 0 [] pairs = .ok entries ∧ v = .map entries := by
  simp only [map]
  cases ValueParser.parsePairs key value place 0 [] pairs with
  | error reason => simp [Except.map]
  | ok entries => simp [Except.map, eq_comm]

section Reads

variable {x y token : Token} {rest tokens : List Token} {pairs others : List (Token × Token)}
  {v : Value} {items : List Value} {done entries : List (Value × Value)}

theorem readsItems_cons_iff : p.ReadsItems place index (token :: rest) items ↔
    ∃ v more, p.parse (place ++ [index]) token = .ok v ∧
      p.ReadsItems place (index + 1) rest more ∧ items = v :: more := by
  rw [ReadsItems, List.zipIdx_cons, List.forall₂_cons_left_iff]
  rfl

theorem readsPairs_cons_iff : key.ReadsPairs value place index ((x, y) :: others) entries ↔
    ∃ e more, (key.parse (place ++ [index, 0]) x = .ok e.1 ∧
      value.parse (place ++ [index, 1]) y = .ok e.2) ∧
      key.ReadsPairs value place (index + 1) others more ∧ entries = e :: more := by
  rw [ReadsPairs, List.zipIdx_cons, List.forall₂_cons_left_iff]
  rfl

theorem parseItems_eq_ok_iff :
    parseItems p place index tokens = .ok items ↔ p.ReadsItems place index tokens items := by
  induction tokens generalizing index items with
  | nil => simp [parseItems, ReadsItems, eq_comm]
  | cons token rest ih =>
    rw [parseItems_cons_eq_ok, readsItems_cons_iff]
    simp only [ih]

theorem parsePairs_eq_ok_iff (hdone : Table.Distinct done) :
    parsePairs key value place index done pairs = .ok entries ↔
      ∃ added, key.ReadsPairs value place index pairs added ∧
        Table.Distinct (done ++ added) ∧ entries = done ++ added := by
  induction pairs generalizing index done entries with
  | nil => simp [parsePairs, ReadsPairs, hdone, eq_comm]
  | cons pair others ih =>
    obtain ⟨x, y⟩ := pair
    rw [parsePairs_cons_eq_ok]
    simp only [readsPairs_cons_iff]
    constructor
    · rintro ⟨kv, uv, hk, hu, hfresh, hrest⟩
      have hnew : Table.Distinct (done ++ [(kv, uv)]) := Table.distinct_concat.mpr ⟨hdone, hfresh⟩
      obtain ⟨added, hreads, hdistinct, rfl⟩ := (ih hnew).mp hrest
      rw [List.append_assoc] at hdistinct ⊢
      exact ⟨_, ⟨(kv, uv), added, ⟨hk, hu⟩, hreads, rfl⟩, hdistinct, rfl⟩
    · rintro ⟨_, ⟨⟨kv, uv⟩, added, ⟨hk, hu⟩, hreads, rfl⟩, hdistinct, rfl⟩
      have hcons : done ++ (kv, uv) :: added = done ++ [(kv, uv)] ++ added := List.append_cons ..
      rw [hcons] at hdistinct ⊢
      have hnew := (List.pairwise_append.mp hdistinct).1
      exact ⟨kv, uv, hk, hu, (Table.distinct_concat.mp hnew).2,
        (ih hnew).mpr ⟨added, hreads, hdistinct, rfl⟩⟩

theorem list_parses_iff : (list p).parse place token = .ok v ↔
    ∃ tokens items, token = .collection tokens ∧ p.ReadsItems place 0 tokens items ∧
      v = .list items := by
  constructor
  · intro h
    cases token with
    | collection tokens =>
      obtain ⟨items, hitems, rfl⟩ := list_eq_ok.mp h
      exact ⟨tokens, items, rfl, parseItems_eq_ok_iff.mp hitems, rfl⟩
    | _ => cases h
  · rintro ⟨tokens, items, rfl, hreads, rfl⟩
    exact list_eq_ok.mpr ⟨items, parseItems_eq_ok_iff.mpr hreads, rfl⟩

theorem map_parses_iff : (map key value).parse place token = .ok v ↔
    ∃ pairs entries, token = .dictionary pairs ∧ key.ReadsPairs value place 0 pairs entries ∧
      Table.Distinct entries ∧ v = .map entries := by
  constructor
  · intro h
    cases token with
    | dictionary pairs =>
      obtain ⟨entries, hentries, rfl⟩ := map_eq_ok.mp h
      obtain ⟨added, hreads, hdistinct, rfl⟩ := (parsePairs_eq_ok_iff .nil).mp hentries
      exact ⟨pairs, entries, rfl, hreads, hdistinct, rfl⟩
    | _ => cases h
  · rintro ⟨pairs, entries, rfl, hreads, hdistinct, rfl⟩
    exact map_eq_ok.mpr
      ⟨entries, (parsePairs_eq_ok_iff .nil).mpr ⟨entries, hreads, hdistinct, rfl⟩, rfl⟩

theorem Makes.of_readsItems (h : p.Makes P) (reads : p.ReadsItems place index tokens items) :
    ∀ v ∈ items, P v := by
  have each : List.Forall₂ (fun v (x : Token × Nat) => P v ∧ p.parse (place ++ [x.2]) x.1 = .ok v)
      items (tokens.zipIdx index) := .flip (reads.imp fun _ _ hv => ⟨h _ _ _ hv, hv⟩)
  exact ((List.forall₂_and_left _ _).mp each).1

theorem Makes.of_readsPairs (hk : key.Makes P) (hu : value.Makes Q)
    (reads : key.ReadsPairs value place index pairs entries) : ∀ e ∈ entries, P e.1 ∧ Q e.2 := by
  have each : List.Forall₂ (fun (e : Value × Value) (_ : (Token × Token) × Nat) =>
      (P e.1 ∧ Q e.2) ∧ True) entries (pairs.zipIdx index) :=
    .flip (reads.imp fun _ _ he => ⟨⟨hk _ _ _ he.1, hu _ _ _ he.2⟩, trivial⟩)
  exact ((List.forall₂_and_left _ _).mp each).1

end Reads

theorem scalar_makes (h : ∀ place s v, read place s = .ok v → P v) :
    (scalar expected read).Makes P := by
  intro place token v hparse
  obtain ⟨s, -, hread⟩ := scalar_eq_ok.mp hparse
  exact h place s v hread

theorem Makes.optional (h : p.Makes P) (hnil : P .nil) : (optional p).Makes P := by
  intro place token v hparse
  simp only [ValueParser.optional] at hparse
  split at hparse
  · split at hparse
    · injection hparse with hparse
      exact hparse ▸ hnil
    · exact h _ _ _ hparse
  · exact h _ _ _ hparse

theorem Makes.list (h : p.Makes P) :
    (list p).Makes fun v => ∃ items, v = .list items ∧ ∀ w ∈ items, P w := by
  intro place token v hparse
  obtain ⟨tokens, items, rfl, reads, rfl⟩ := list_parses_iff.mp hparse
  exact ⟨items, rfl, h.of_readsItems reads⟩

/-- A key that equals one of those before it is refused, so the keys of a map differ. -/
theorem Makes.map (hk : key.Makes P) (hu : value.Makes Q) :
    (map key value).Makes fun v => ∃ entries, v = .map entries ∧ Table.Distinct entries ∧
      ∀ e ∈ entries, P e.1 ∧ Q e.2 := by
  intro place token v hparse
  obtain ⟨pairs, entries, rfl, reads, distinct, rfl⟩ := map_parses_iff.mp hparse
  exact ⟨entries, rfl, distinct, hk.of_readsPairs hu reads⟩

theorem yields_custom (p : ValueParser) (name : String) : p.Yields (.custom name) :=
  fun _ _ v _ => ValueType.holds_custom name v

theorem bool_yields : bool.Yields .bool := by
  apply scalar_makes
  intro place s v h
  dsimp only at h
  split at h
  · injection h with h
    exact h ▸ ⟨rfl, rfl⟩
  split at h
  · injection h with h
    exact h ▸ ⟨rfl, rfl⟩
  · cases h

theorem int_yields : int.Yields .int := by
  apply scalar_makes
  intro place s v h
  split at h
  · injection h with h
    exact h ▸ ⟨rfl, rfl⟩
  · cases h

theorem float_yields : float.Yields .float := by
  apply scalar_makes
  intro place s v h
  split at h
  · split at h
    · injection h with h
      exact h ▸ ⟨rfl, rfl⟩
    · cases h
  · cases h

theorem text_yields : text.Yields .text := by
  apply scalar_makes
  intro place s v h
  injection h with h
  exact h ▸ ⟨rfl, rfl⟩

theorem variant_yields (e : EnumType) : (variant e).Yields (.enum e) := by
  apply scalar_makes
  intro place s v h
  split at h
  · injection h with h
    exact h ▸ ⟨beq_self_eq_true e.name, rfl⟩
  · cases h

theorem Yields.optional (h : p.Yields t) : (optional p).Yields (.optional t) := by
  apply Makes.optional _ t.holds_nil
  intro place token v hparse
  exact (h place token v hparse).optional

theorem Yields.list (h : p.Yields t) : (list p).Yields (.list t) := by
  intro place token v hparse
  obtain ⟨items, rfl, hitems⟩ := Makes.list h place token v hparse
  exact .list hitems

theorem Yields.map (hk : key.Yields k) (hu : value.Yields u) :
    (map key value).Yields (.map k u) := by
  intro place token v hparse
  obtain ⟨entries, rfl, hdistinct, hentries⟩ := Makes.map hk hu place token v hparse
  exact .map hdistinct hentries

end ValueParser

namespace ParserRegistry

open ValueParser

variable {r : ParserRegistry} {t k u : ValueType} {p : ValueParser}

theorem resolve_of_find? (h : r.find? t.display = some p) : r.resolve t = .ok p := by
  cases t <;> simp only [resolve, h]

theorem resolve_optional (h : r.find? (ValueType.optional t).display = none) :
    r.resolve (.optional t) = (r.resolve t).map .optional := by
  simp only [resolve, h]

theorem resolve_list (h : r.find? (ValueType.list t).display = none) :
    r.resolve (.list t) = (r.resolve t).map .list := by
  simp only [resolve, h]

theorem resolve_map (h : r.find? (ValueType.map k u).display = none) :
    r.resolve (.map k u) =
      match r.resolve k with
      | .error e => .error e
      | .ok p => (r.resolve u).map (.map p) := by
  cases hk : r.resolve k with
  | error e => simp only [resolve, h, hk]
  | ok p => simp only [resolve, h, hk]

theorem resolve_enum {e : EnumType} (h : r.find? (ValueType.enum e).display = none) :
    r.resolve (.enum e) = .ok (.variant e) := by
  simp only [resolve, h]

theorem resolve_builtin_optional (t : ValueType) :
    builtin.resolve (.optional t) = (builtin.resolve t).map .optional :=
  resolve_optional (find?_builtin_eq_none (by simp [ValueType.display]))

theorem resolve_builtin_list (t : ValueType) :
    builtin.resolve (.list t) = (builtin.resolve t).map .list :=
  resolve_list (find?_builtin_eq_none (by simp [ValueType.display]))

theorem resolve_builtin_map (k u : ValueType) :
    builtin.resolve (.map k u) =
      match builtin.resolve k with
      | .error e => .error e
      | .ok p => (builtin.resolve u).map (.map p) :=
  resolve_map (find?_builtin_eq_none (by simp [ValueType.display]))

theorem resolve_yields (hr : r.Standard) (hu : r.Unshadowed t) (h : r.resolve t = .ok p) :
    p.Yields t := by
  induction t generalizing p with
  | bool =>
    rw [resolve_of_find? hr.bool] at h
    injection h with h
    exact h ▸ bool_yields
  | int =>
    rw [resolve_of_find? hr.int] at h
    injection h with h
    exact h ▸ int_yields
  | float =>
    rw [resolve_of_find? hr.float] at h
    injection h with h
    exact h ▸ float_yields
  | text =>
    rw [resolve_of_find? hr.text] at h
    injection h with h
    exact h ▸ text_yields
  | custom name => exact p.yields_custom name
  | enum e =>
    rw [resolve_enum (hu.find?_eq_none rfl)] at h
    injection h with h
    exact h ▸ variant_yields e
  | optional t ih =>
    rw [resolve_optional (hu.find?_eq_none rfl)] at h
    obtain ⟨inner, hinner, rfl⟩ := exists_of_map_eq_ok h
    exact (ih hu.optional hinner).optional
  | list t ih =>
    rw [resolve_list (hu.find?_eq_none rfl)] at h
    obtain ⟨element, helement, rfl⟩ := exists_of_map_eq_ok h
    exact (ih hu.list helement).list
  | map k u ihk ihu =>
    rw [resolve_map (hu.find?_eq_none rfl)] at h
    split at h
    · cases h
    rename_i key hkey
    obtain ⟨value, hvalue, rfl⟩ := exists_of_map_eq_ok h
    exact (ihk hu.map.1 hkey).map (ihu hu.map.2 hvalue)

end ParserRegistry
end CommandConsole
