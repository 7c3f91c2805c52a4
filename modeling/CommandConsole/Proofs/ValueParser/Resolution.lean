import CommandConsole.Proofs.ValueParser.Yields
import Mathlib.Data.List.Induction

/-! Which types a registry resolves, which type is the one to blame if it does not, and how far a
registration reaches. -/
namespace CommandConsole

namespace ValueType

/-- A basic or custom type within another type, with the types that it stands in, the whole type
first. -/
structure Leaf where
  type : ValueType
  above : List ValueType

def Leaf.within (t : ValueType) (l : Leaf) : Leaf := { l with above := t :: l.above }

/-- The basic and custom types that a type is put together from, from left to right. -/
def leaves : ValueType → List Leaf
  | .enum _ => []
  | .optional t => t.leaves.map (Leaf.within (.optional t))
  | .list t => t.leaves.map (Leaf.within (.list t))
  | .map k u => (k.leaves ++ u.leaves).map (Leaf.within (.map k u))
  | t => [⟨t, []⟩]

end ValueType

namespace ParserRegistry

open ValueType

/-- Whether a parser is registered for exactly this type. -/
def knows (r : ParserRegistry) (t : ValueType) : Bool := (r.find? t.display).isSome

/-- Whether a parser is registered for a leaf, or for a type that it stands in. -/
def serves (r : ParserRegistry) (l : Leaf) : Bool := r.knows l.type || l.above.any r.knows

/-- Registers parsers one after the other. -/
def registerAll (r : ParserRegistry) (registrations : List (String × ValueParser)) :
    ParserRegistry :=
  registrations.foldl (fun r e => r.register e.1 e.2) r

variable {r r' : ParserRegistry} {t k u e : ValueType} {l : Leaf} {p q : ValueParser}

theorem serves_within : r.serves (l.within t) = (r.knows t || r.serves l) := by
  simp only [serves, Leaf.within, List.any_cons]
  rw [← Bool.or_assoc, Bool.or_comm (r.knows l.type), Bool.or_assoc]

theorem find?_map_within (h : r.knows t = false) (leaves : List Leaf) :
    (leaves.map (Leaf.within t)).find? (!r.serves ·) =
      (leaves.find? (!r.serves ·)).map (Leaf.within t) := by
  have hsame : (fun l => !r.serves l) ∘ Leaf.within t = fun l => !r.serves l := by
    funext l
    simp [serves_within, h]
  rw [List.find?_map, hsame]

/-- A parser for a type is one for all that it is put together from. -/
theorem serves_of_knows (h : r.knows t = true) : ∀ l ∈ t.leaves, r.serves l = true := by
  intro l hl
  cases t with
  | bool | int | float | text | custom =>
    simp only [leaves, List.mem_singleton] at hl
    simp [hl, serves, h]
  | enum => cases hl
  | optional | list | map =>
    obtain ⟨inner, -, rfl⟩ := List.mem_map.mp hl
    rw [serves_within, h, Bool.true_or]

theorem find?_of_unknown (h : r.knows t = false) : r.find? t.display = none := by
  rwa [knows, Option.isSome_eq_false_iff, Option.isNone_iff_eq_none] at h

theorem resolve_of_unknown (brings : t.bringsParser = false) (h : r.knows t = false) :
    r.resolve t = .error t := by
  have hfind := find?_of_unknown h
  cases t with
  | bool | int | float | text | custom => simp only [resolve, hfind]
  | enum | optional | list | map => cases brings

theorem map_eq_error_iff {ε α β : Type} {f : α → β} {x : Except ε α} {e : ε} :
    x.map f = .error e ↔ x = .error e := by
  cases x <;> simp [Except.map]

/-- What is to blame for a type: its first leaf that is not served. -/
def unserved? (r : ParserRegistry) (t : ValueType) : Option Leaf := t.leaves.find? (!r.serves ·)

theorem unserved?_of_knows (h : r.knows t = true) : r.unserved? t = none :=
  List.find?_eq_none.mpr fun l hl => by simp [serves_of_knows h l hl]

theorem unserved?_optional (h : r.knows (.optional t) = false) :
    r.unserved? (.optional t) = (r.unserved? t).map (Leaf.within (.optional t)) :=
  find?_map_within h t.leaves

theorem unserved?_list (h : r.knows (.list t) = false) :
    r.unserved? (.list t) = (r.unserved? t).map (Leaf.within (.list t)) :=
  find?_map_within h t.leaves

theorem unserved?_map (h : r.knows (.map k u) = false) : r.unserved? (.map k u) =
    ((r.unserved? k).or (r.unserved? u)).map (Leaf.within (.map k u)) := by
  rw [unserved?, leaves, find?_map_within h, List.find?_append]
  rfl

theorem resolve_eq_error_iff_of_knows (h : r.knows t = true) :
    r.resolve t = .error e ↔ (r.unserved? t).map Leaf.type = some e := by
  obtain ⟨p, hp⟩ := Option.isSome_iff_exists.mp h
  simp [resolve_of_find? hp, unserved?_of_knows h]

/-- A type is resolved unless one of its leaves is not served. -/
theorem resolve_eq_error_iff :
    r.resolve t = .error e ↔ (r.unserved? t).map Leaf.type = some e := by
  induction t generalizing e with
  | bool | int | float | text | custom =>
    cases h : r.knows _ with
    | true => exact resolve_eq_error_iff_of_knows h
    | false =>
      rw [resolve_of_unknown rfl h]
      simp [unserved?, leaves, serves, h]
  | enum v =>
    cases h : r.knows (.enum v) with
    | true => exact resolve_eq_error_iff_of_knows h
    | false => simp [resolve_enum (find?_of_unknown h), unserved?, leaves]
  | optional t ih =>
    cases h : r.knows (.optional t) with
    | true => exact resolve_eq_error_iff_of_knows h
    | false =>
      rw [resolve_optional (find?_of_unknown h), map_eq_error_iff, ih, unserved?_optional h,
        Option.map_map]
      rfl
  | list t ih =>
    cases h : r.knows (.list t) with
    | true => exact resolve_eq_error_iff_of_knows h
    | false =>
      rw [resolve_list (find?_of_unknown h), map_eq_error_iff, ih, unserved?_list h,
        Option.map_map]
      rfl
  | map k u ihk ihu =>
    cases h : r.knows (.map k u) with
    | true => exact resolve_eq_error_iff_of_knows h
    | false =>
      have hwithin : Leaf.type ∘ Leaf.within (.map k u) = Leaf.type := rfl
      rw [resolve_map (find?_of_unknown h), unserved?_map h, Option.map_map, hwithin]
      cases hk : r.unserved? k with
      | some l =>
        have herror : r.resolve k = .error l.type := ihk.mpr (by rw [hk, Option.map_some])
        simp [herror]
      | none =>
        have hok : ∀ e, r.resolve k ≠ .error e := fun e he => by simpa [hk] using ihk.mp he
        cases hkey : r.resolve k with
        | error e => exact (hok e hkey).elim
        | ok p => rw [Option.none_or, map_eq_error_iff, ihu]

/-- The parser of a type depends on what is registered for its parts alone. -/
theorem resolve_congr (h : ∀ s ∈ t.parts, r.find? s.display = r'.find? s.display) :
    r.resolve t = r'.resolve t := by
  have hwhole := h t t.mem_parts
  induction t with
  | bool | int | float | text | custom | enum => simp only [resolve, hwhole]
  | optional t ih | list t ih =>
    have hinner : ∀ s ∈ t.parts, r.find? s.display = r'.find? s.display :=
      fun s hs => h s (List.mem_cons_of_mem _ hs)
    simp only [resolve, hwhole, ih hinner (hinner t t.mem_parts)]
  | map k u ihk ihu =>
    have hkey : ∀ s ∈ k.parts, r.find? s.display = r'.find? s.display :=
      fun s hs => h s (List.mem_cons_of_mem _ (List.mem_append_left _ hs))
    have hvalue : ∀ s ∈ u.parts, r.find? s.display = r'.find? s.display :=
      fun s hs => h s (List.mem_cons_of_mem _ (List.mem_append_right _ hs))
    simp only [resolve, hwhole, ihk hkey (hkey k k.mem_parts), ihu hvalue (hvalue u u.mem_parts)]

/-- What parsers are made of: those that are registered, and combinations of them where nothing is
registered for the type itself. -/
inductive Composes (r : ParserRegistry) : ValueType → ValueParser → Prop where
  | registered {t : ValueType} {p : ValueParser} (found : r.find? t.display = some p) :
      Composes r t p
  | enum {e : EnumType} (vacant : r.knows (.enum e) = false) : Composes r (.enum e) (.variant e)
  | optional {t : ValueType} {p : ValueParser} (vacant : r.knows (.optional t) = false)
      (inner : Composes r t p) : Composes r (.optional t) (.optional p)
  | list {t : ValueType} {p : ValueParser} (vacant : r.knows (.list t) = false)
      (element : Composes r t p) : Composes r (.list t) (.list p)
  | map {k u : ValueType} {p q : ValueParser} (vacant : r.knows (.map k u) = false)
      (key : Composes r k p) (value : Composes r u q) : Composes r (.map k u) (.map p q)

theorem composes_of_find? (found : r.find? t.display = some p) (h : r.resolve t = .ok q) :
    r.Composes t q := by
  rw [resolve_of_find? found] at h
  injection h with h
  exact .registered (h ▸ found)

theorem composes_of_resolve (h : r.resolve t = .ok p) : r.Composes t p := by
  induction t generalizing p with
  | bool | int | float | text | custom =>
    cases hfind : r.find? (ValueType.display _) with
    | some q => exact composes_of_find? hfind h
    | none => simp [resolve, hfind] at h
  | enum e =>
    cases hfind : r.find? (ValueType.enum e).display with
    | some q => exact composes_of_find? hfind h
    | none =>
      rw [resolve_enum hfind] at h
      injection h with h
      exact h ▸ .enum (by simp [knows, hfind])
  | optional t ih =>
    cases hfind : r.find? (ValueType.optional t).display with
    | some q => exact composes_of_find? hfind h
    | none =>
      rw [resolve_optional hfind] at h
      obtain ⟨inner, hinner, rfl⟩ := ValueParser.exists_of_map_eq_ok h
      exact .optional (by simp [knows, hfind]) (ih hinner)
  | list t ih =>
    cases hfind : r.find? (ValueType.list t).display with
    | some q => exact composes_of_find? hfind h
    | none =>
      rw [resolve_list hfind] at h
      obtain ⟨element, helement, rfl⟩ := ValueParser.exists_of_map_eq_ok h
      exact .list (by simp [knows, hfind]) (ih helement)
  | map k u ihk ihu =>
    cases hfind : r.find? (ValueType.map k u).display with
    | some q => exact composes_of_find? hfind h
    | none =>
      rw [resolve_map hfind] at h
      split at h
      · cases h
      rename_i key hkey
      obtain ⟨value, hvalue, rfl⟩ := ValueParser.exists_of_map_eq_ok h
      exact .map (by simp [knows, hfind]) (ihk hkey) (ihu hvalue)

theorem Composes.resolve_eq (h : r.Composes t p) : r.resolve t = .ok p := by
  induction h with
  | registered found => exact resolve_of_find? found
  | enum vacant => exact resolve_enum (find?_of_unknown vacant)
  | optional vacant inner ih => rw [resolve_optional (find?_of_unknown vacant), ih, Except.map]
  | list vacant element ih => rw [resolve_list (find?_of_unknown vacant), ih, Except.map]
  | map vacant key value ihk ihu =>
    rw [resolve_map (find?_of_unknown vacant), ihk, ihu]
    rfl

/-- Parsers that expect what their keys say make up parsers that expect what their types say. -/
theorem Composes.expected (h : r.Composes t p)
    (honest : ∀ key p, r.find? key = some p → p.expected = key) : p.expected = t.display := by
  induction h with
  | registered found => exact honest _ _ found
  | enum => rfl
  | optional vacant inner ih => rw [ValueParser.optional, ih, display]
  | list vacant element ih => rw [ValueParser.list, ih, display]
  | map vacant key value ihk ihu => rw [ValueParser.map, ihk, ihu, display]

@[simp] theorem registerAll_append (r : ParserRegistry) (l m : List (String × ValueParser)) :
    r.registerAll (l ++ m) = (r.registerAll l).registerAll m :=
  List.foldl_append

theorem find?_register (r : ParserRegistry) (key : String) (p : ValueParser) (key' : String) :
    (r.register key p).find? key' = if key' == key then some p else r.find? key' :=
  Table.find?_insert r.parsers key key' p

/-- Of the parsers registered under a key the last counts. -/
theorem find?_registerAll (r : ParserRegistry) (registrations : List (String × ValueParser))
    (key : String) : (r.registerAll registrations).find? key =
      ((registrations.filter (key == ·.1)).getLast?.map Prod.snd).or (r.find? key) := by
  induction registrations using List.reverseRecOn with
  | nil => rfl
  | append_singleton earlier e ih =>
    have hlast : r.registerAll (earlier ++ [e]) = (r.registerAll earlier).register e.1 e.2 :=
      registerAll_append r earlier [e]
    rw [hlast, find?_register, ih, List.filter_append]
    cases h : key == e.1 <;> simp [h]

/-- Registrations under one key have to keep their order, those under different keys do not. -/
theorem registerAll_reorder {l m : List (String × ValueParser)}
    (h : ∀ key, l.filter (key == ·.1) = m.filter (key == ·.1)) (r : ParserRegistry)
    (t : ValueType) : (r.registerAll l).resolved t = (r.registerAll m).resolved t := by
  have hresolve : (r.registerAll l).resolve t = (r.registerAll m).resolve t :=
    resolve_congr fun s _ => by rw [find?_registerAll, find?_registerAll, h]
  rw [resolved, resolved, hresolve]

/-- A registration under a key that no part of a type has may as well be left out. -/
theorem registerAll_leave_out {key : String} (h : ∀ s ∈ t.parts, s.display ≠ key)
    (r : ParserRegistry) (before after : List (String × ValueParser)) (p : ValueParser) :
    (r.registerAll (before ++ (key, p) :: after)).resolved t =
      (r.registerAll (before ++ after)).resolved t := by
  have hresolve : (r.registerAll (before ++ (key, p) :: after)).resolve t =
      (r.registerAll (before ++ after)).resolve t := by
    refine resolve_congr fun s hs => ?_
    have hother : (s.display == key) = false := beq_eq_false_iff_ne.mpr (h s hs)
    rw [find?_registerAll, find?_registerAll, List.filter_append, List.filter_append,
      List.filter_cons_of_neg (by simp [hother])]
  rw [resolved, resolved, hresolve]

/-- A parser stands for all types that are displayed as its key, until another is registered under
this key. -/
theorem resolved_registerAll {key : String} (h : t.display = key)
    {after : List (String × ValueParser)} (last : ∀ e ∈ after, e.1 ≠ key) (r : ParserRegistry)
    (before : List (String × ValueParser)) (p : ValueParser) :
    (r.registerAll (before ++ (key, p) :: after)).resolved t = .ok ⟨p, t.isOptional⟩ := by
  have hnone : after.filter (key == ·.1) = [] := by
    refine List.filter_eq_nil_iff.mpr fun e he => ?_
    simp [(last e he).symm]
  have hfind : (r.registerAll (before ++ (key, p) :: after)).find? t.display = some p := by
    rw [h, find?_registerAll, List.filter_append, List.filter_cons_of_pos (by simp), hnone]
    simp
  rw [resolved, resolve_of_find? hfind]
  rfl

/-- A type is resolved exactly if a parser is registered for each basic or custom type in it, or for
a type that this one stands in; of those for which there is none the leftmost is named. Only an
optional type is nullable, and a parser expects what its type says if those that are registered do
so. A registration makes all types displayed as its key resolve to its parser, and changes nothing
about a type no part of which is displayed as its key, whatever else is registered before or after
it; registrations under different keys may change places. -/
theorem resolution_is_compositional (r : ParserRegistry) (t : ValueType) :
    ((∃ q, r.resolved t = .ok q) ↔ ∀ l ∈ t.leaves, r.serves l = true) ∧
    (∀ e, r.resolved t = .error e ↔ ∃ before l after, t.leaves = before ++ l :: after ∧
      (∀ b ∈ before, r.serves b = true) ∧ r.serves l = false ∧ l.type = e ∧
        unsupported e = "no parser registered for type `" ++ l.type.display ++ "`") ∧
    (∀ q, r.resolved t = .ok q → (q.nullable = true ↔ ∃ u, t = .optional u)) ∧
    ((∀ key p, r.find? key = some p → p.expected = key) →
      ∀ q, r.resolved t = .ok q → q.parser.expected = t.display) ∧
    (∀ key p before after, t.display = key → (∀ e ∈ after, e.1 ≠ key) →
      (r.registerAll (before ++ (key, p) :: after)).resolved t = .ok ⟨p, t.isOptional⟩) ∧
    (∀ key p before after, (∀ s ∈ t.parts, s.display ≠ key) →
      (r.registerAll (before ++ (key, p) :: after)).resolved t =
        (r.registerAll (before ++ after)).resolved t) ∧
    ∀ registrations reordered : List (String × ValueParser),
      (∀ key, registrations.filter (key == ·.1) = reordered.filter (key == ·.1)) →
      (r.registerAll registrations).resolved t = (r.registerAll reordered).resolved t := by
  have herror : ∀ e, r.resolved t = .error e ↔ (r.unserved? t).map Leaf.type = some e :=
    fun e => map_eq_error_iff.trans resolve_eq_error_iff
  refine ⟨?_, fun e => ?_, fun q hq => ?_, fun honest q hq => ?_, ?_, ?_, ?_⟩
  · have hserved : (∀ l ∈ t.leaves, r.serves l = true) ↔ r.unserved? t = none := by
      simp [unserved?]
    rw [hserved]
    cases hresolved : r.resolved t with
    | error e =>
      obtain ⟨l, hl, -⟩ := Option.map_eq_some_iff.mp ((herror e).mp hresolved)
      simp [hl]
    | ok q =>
      have hnone : r.unserved? t = none := by
        cases hfirst : r.unserved? t with
        | none => rfl
        | some l =>
          have herr := (herror l.type).mpr (by rw [hfirst, Option.map_some])
          rw [hresolved] at herr
          cases herr
      simp [hnone]
  · rw [herror, Option.map_eq_some_iff, unserved?]
    simp only [List.find?_eq_some_iff_append, Bool.not_eq_true', Bool.not_not]
    constructor
    · rintro ⟨l, ⟨hl, before, after, hleaves, hbefore⟩, rfl⟩
      exact ⟨before, l, after, hleaves, hbefore, hl, rfl, rfl⟩
    · rintro ⟨before, l, after, hleaves, hbefore, hl, rfl, -⟩
      exact ⟨l, ⟨hl, before, after, hleaves, hbefore⟩, rfl⟩
  · obtain ⟨p, -, rfl⟩ := ValueParser.exists_of_map_eq_ok hq
    cases t <;> simp [isOptional]
  · obtain ⟨p, hp, rfl⟩ := ValueParser.exists_of_map_eq_ok hq
    exact (composes_of_resolve hp).expected honest
  · exact fun key p before after h last => resolved_registerAll h last r before p
  · exact fun key p before after h => registerAll_leave_out h r before after p
  · exact fun registrations reordered h => registerAll_reorder h r t

/-- A parser for a list stands for the lists alone, and spares the custom type in it a parser. -/
example : (builtin.register "list<point>" .text).resolved
    (.map (.list (.custom "point")) (.custom "point")) = .error (.custom "point") := by
  rfl

end ParserRegistry
end CommandConsole
