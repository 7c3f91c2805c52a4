import CommandConsole.Proofs.Bindings.Typed
import CommandConsole.Proofs.Number.Nearest
import CommandConsole.Proofs.Value.Sayable
import Mathlib.Data.List.Forall2

/-! What becomes of a value when its type coerces it: integers where the type says float are made
into floats, and all else stays as it is, unless keys of a map become equal. -/
namespace CommandConsole

namespace ValueType

/-- The second value has the structure of the first, and differs from it only by having the nearest
float wherever an integer stands that should be one by the type. -/
def Widened : ValueType → Value → Value → Prop
  | .float, .int n, w => ∃ x : Binary64, w = .float x ∧ x.Nearest n.toInt
  | .optional t, v, w => if v.isNil then w = v else t.Widened v w
  | .list t, .list items, w => ∃ items', w = .list items' ∧ List.Forall₂ t.Widened items items'
  | .map k u, .map entries, w => ∃ entries', w = .map entries' ∧
      List.Forall₂ (fun e e' => k.Widened e.1 e'.1 ∧ u.Widened e.2 e'.2) entries entries'
  | _, v, w => w = v

/-- The entries of a map under its coerced keys, before any of them merge. Where a type says map and
there is none, or the other way round, there are no entries. -/
def coercedEntries : ValueType × Value → List (Value × Value)
  | (.map k _, .map entries) => entries.map fun e => (k.coerce e.1, e.2)
  | _ => []

/-- The keys of a map are still different when they are coerced. -/
def KeysApart (x : ValueType × Value) : Prop := Table.Distinct (coercedEntries x)

instance : DecidablePred KeysApart := fun x =>
  inferInstanceAs (Decidable (Table.Distinct (coercedEntries x)))

/-- Whether there can be floats in the values of a type because it says so. -/
def mentionsFloat : ValueType → Bool
  | .float => true
  | .optional t => t.mentionsFloat
  | .list t => t.mentionsFloat
  | .map k u => k.mentionsFloat || u.mentionsFloat
  | _ => false

/-- The keys of a map differ, and its type does not ask for floats in them. -/
def KeysExact : ValueType × Value → Prop
  | (.map k _, .map entries) => k.mentionsFloat = false ∧ Table.Distinct entries
  | _ => True

variable {t k u : ValueType} {v : Value} {items : List Value} {entries : List (Value × Value)}

theorem natAbs_toInt_lt (n : Int64) : n.toInt.natAbs < 2 ^ 64 := by
  have hlow := n.le_toInt
  have hhigh := n.toInt_lt
  omega

theorem widened_float (n : Int64) : Widened .float (.int n) (coerce .float (.int n)) :=
  ⟨_, rfl, Binary64.nearest_ofInt (natAbs_toInt_lt n)⟩

theorem widened_optional_iff {w : Value} :
    (optional t).Widened v w ↔ if v.isNil then w = v else t.Widened v w := by
  rw [Widened]

theorem mem_places_optional {x : ValueType × Value} :
    x ∈ (optional t).places v ↔ x = (optional t, v) ∨ v.isNil = false ∧ x ∈ t.places v := by
  cases hv : v.isNil <;> simp [places, hv]

theorem keysApart_map_iff : KeysApart (.map k u, .map entries) ↔
    Table.Distinct (entries.map fun e => (k.coerce e.1, u.coerce e.2)) := by
  simp [KeysApart, coercedEntries, Table.Distinct, List.pairwise_map]

theorem coerce_map (h : KeysApart (.map k u, .map entries)) : (map k u).coerce (.map entries) =
    .map (entries.map fun e => (k.coerce e.1, u.coerce e.2)) := by
  rw [coerce, Value.ofPairs, Table.ofPairs_of_distinct (keysApart_map_iff.mp h)]

theorem widened_list_iff :
    (list t).Widened (.list items) ((list t).coerce (.list items)) ↔
      ∀ v ∈ items, t.Widened v (t.coerce v) := by
  simp [Widened, coerce, List.forall₂_map_right_iff, List.forall₂_same]

/-- A map keeps its structure if no keys merge, and if keys and values keep theirs. Where keys merge,
it has fewer entries. -/
theorem widened_map_iff :
    (map k u).Widened (.map entries) ((map k u).coerce (.map entries)) ↔
      KeysApart (.map k u, .map entries) ∧
        ∀ e ∈ entries, k.Widened e.1 (k.coerce e.1) ∧ u.Widened e.2 (u.coerce e.2) := by
  have heach : KeysApart (.map k u, .map entries) →
      ((map k u).Widened (.map entries) ((map k u).coerce (.map entries)) ↔
        ∀ e ∈ entries, k.Widened e.1 (k.coerce e.1) ∧ u.Widened e.2 (u.coerce e.2)) := by
    intro hapart
    rw [coerce_map hapart]
    simp [Widened, List.forall₂_map_right_iff, List.forall₂_same]
  refine ⟨fun h => ?_, fun h => (heach h.1).mpr h.2⟩
  have hapart : KeysApart (.map k u, .map entries) := by
    obtain ⟨entries', hentries', hall⟩ := h
    rw [coerce, Value.ofPairs] at hentries'
    injection hentries' with hentries'
    rw [keysApart_map_iff, ← Table.length_ofPairs_eq_iff, hentries', List.length_map]
    exact hall.length_eq.symm
  exact ⟨hapart, (heach hapart).mp h⟩

theorem mem_places_list {x : ValueType × Value} : x ∈ (list t).places (.list items) ↔
    x = (list t, .list items) ∨ ∃ w ∈ items, x ∈ t.places w := by
  simp [places]

theorem mem_places_map {x : ValueType × Value} : x ∈ (map k u).places (.map entries) ↔
    x = (map k u, .map entries) ∨ ∃ e ∈ entries, x ∈ k.places e.1 ∨ x ∈ u.places e.2 := by
  simp [places]

/-- Coercion keeps the structure of a value exactly if nowhere in it keys of a map merge. -/
theorem widened_coerce_iff (t : ValueType) (v : Value) :
    t.Widened v (t.coerce v) ↔ ∀ x ∈ t.places v, KeysApart x := by
  induction t generalizing v with
  | float =>
    cases v with
    | int n => exact iff_of_true (widened_float n) (by simp [places, KeysApart, coercedEntries])
    | _ => simp [Widened, coerce, places, KeysApart, coercedEntries]
  | optional t ih =>
    rw [widened_optional_iff, coerce_optional]
    simp only [mem_places_optional]
    cases v.isNil with
    | true => simp [KeysApart, coercedEntries]
    | false => simpa [KeysApart, coercedEntries] using ih v
  | list t ih =>
    cases v with
    | list items =>
      rw [widened_list_iff]
      simp only [ih]
      constructor
      · intro h x hx
        rcases mem_places_list.mp hx with rfl | ⟨w, hw, hx⟩
        · exact Table.distinct_nil
        · exact h w hw x hx
      · exact fun h w hw x hx => h x (mem_places_list.mpr (.inr ⟨w, hw, hx⟩))
    | _ => simp [Widened, coerce, places, KeysApart, coercedEntries]
  | map k u ihk ihu =>
    cases v with
    | map entries =>
      rw [widened_map_iff]
      simp only [ihk, ihu]
      constructor
      · rintro ⟨hapart, h⟩ x hx
        rcases mem_places_map.mp hx with rfl | ⟨e, he, hx | hx⟩
        · exact hapart
        · exact (h e he).1 x hx
        · exact (h e he).2 x hx
      · intro h
        refine ⟨h _ List.mem_cons_self, fun e he => ⟨fun x hx => ?_, fun x hx => ?_⟩⟩
        · exact h x (mem_places_map.mpr (.inr ⟨e, he, .inl hx⟩))
        · exact h x (mem_places_map.mpr (.inr ⟨e, he, .inr hx⟩))
    | _ => simp [Widened, coerce, places, KeysApart, coercedEntries]
  | _ => simp [Widened, coerce, places, KeysApart, coercedEntries]

/-- A type that does not mention floats leaves its values as they are. -/
theorem coerce_of_floatless (h : t.mentionsFloat = false)
    (hexact : ∀ x ∈ t.places v, KeysExact x) : t.coerce v = v := by
  induction t generalizing v with
  | float => cases h
  | optional t ih =>
    rw [coerce_optional]
    cases hv : v.isNil with
    | true => rfl
    | false => exact ih h fun x hx => hexact x (mem_places_optional.mpr (.inr ⟨hv, hx⟩))
  | list t ih =>
    cases v with
    | list items =>
      have hsame : items.map t.coerce = items := by
        refine (List.map_congr_left fun v hv => ?_).trans items.map_id
        exact ih h fun x hx => hexact x (mem_places_list.mpr (.inr ⟨v, hv, hx⟩))
      rw [coerce, hsame]
    | _ => simp [coerce]
  | map k u ihk ihu =>
    cases v with
    | map entries =>
      obtain ⟨hk, hu⟩ : k.mentionsFloat = false ∧ u.mentionsFloat = false := by
        simpa [mentionsFloat] using h
      have hsame : entries.map (fun e => (k.coerce e.1, u.coerce e.2)) = entries := by
        refine (List.map_congr_left fun e he => ?_).trans entries.map_id
        rw [ihk hk fun x hx => hexact x (mem_places_map.mpr (.inr ⟨e, he, .inl hx⟩)),
          ihu hu fun x hx => hexact x (mem_places_map.mpr (.inr ⟨e, he, .inr hx⟩)), id]
      obtain ⟨-, hdistinct⟩ : KeysExact (.map k u, .map entries) := hexact _ List.mem_cons_self
      rw [coerce, hsame, Value.ofPairs, Table.ofPairs_of_distinct hdistinct]
    | _ => simp [coerce]
  | _ => simp [coerce]

/-- Keys that are not made into floats do not merge. -/
theorem keysApart_of_exact (hexact : ∀ x ∈ t.places v, KeysExact x) :
    ∀ x ∈ t.places v, KeysApart x := by
  induction t generalizing v with
  | optional t ih =>
    intro x hx
    rcases mem_places_optional.mp hx with rfl | ⟨hv, hx⟩
    · exact Table.distinct_nil
    · exact ih (fun y hy => hexact y (mem_places_optional.mpr (.inr ⟨hv, hy⟩))) x hx
  | list t ih =>
    cases v with
    | list items =>
      intro x hx
      rcases mem_places_list.mp hx with rfl | ⟨w, hw, hx⟩
      · exact Table.distinct_nil
      · exact ih (fun y hy => hexact y (mem_places_list.mpr (.inr ⟨w, hw, hy⟩))) x hx
    | _ => simp [places, KeysApart, coercedEntries]
  | map k u ihk ihu =>
    cases v with
    | map entries =>
      intro x hx
      have hkeys : ∀ e ∈ entries, ∀ y ∈ k.places e.1, KeysExact y :=
        fun e he y hy => hexact y (mem_places_map.mpr (.inr ⟨e, he, .inl hy⟩))
      rcases mem_places_map.mp hx with rfl | ⟨e, he, hx | hx⟩
      · obtain ⟨hk, hdistinct⟩ : KeysExact (.map k u, .map entries) := hexact _ List.mem_cons_self
        have hsame : entries.map (fun e => (k.coerce e.1, e.2)) = entries := by
          refine (List.map_congr_left fun e he => ?_).trans entries.map_id
          rw [coerce_of_floatless hk (hkeys e he), id]
        rwa [KeysApart, coercedEntries, hsame]
      · exact ihk (hkeys e he) x hx
      · exact ihu (fun y hy => hexact y (mem_places_map.mpr (.inr ⟨e, he, .inr hy⟩))) x hx
    | _ => simp [places, KeysApart, coercedEntries]
  | _ => simp [places, KeysApart, coercedEntries]

end ValueType

/-- A default that is declared and passes the check is accepted by the type, and is coerced. -/
theorem Declaration.default_of_check {d : Declaration} {r : ParserRegistry} {p : Parameter}
    {v : Value} (h : d.check r = .ok p) (hv : d.default = some v) :
    p.type.accepts v = true ∧ p.default = some (p.type.coerce v) := by
  have hdefault := (d.check_settles h).default
  simp only [resolveDefault, hv] at hdefault
  split at hdefault
  · rename_i w heq _
    injection heq with heq
    subst heq
    split at hdefault
    · rename_i haccepts
      injection hdefault with hdefault
      exact ⟨haccepts, hdefault.symm⟩
    · cases hdefault
  · rename_i heq _
    cases heq
  · cases hdefault
  · rename_i heq _
    cases heq

namespace ValueType

/-- A value keeps its structure when its type coerces it, with the nearest floats for integers where
the type says float, exactly if nowhere in it keys of a map become equal by that. They never do where
the type asks for no floats in keys. The coerced value is what becomes of a declared default, which
the type accepts. -/
theorem coercion_loses_only_merged_keys (t : ValueType) (v : Value) :
    (t.Widened v (t.coerce v) ↔ ∀ x ∈ t.places v, KeysApart x) ∧
    ((∀ x ∈ t.places v, KeysExact x) → t.Widened v (t.coerce v)) ∧
    ∀ (d : Declaration) (r : ParserRegistry) (p : Parameter), d.check r = .ok p → p.type = t →
      d.default = some v → t.accepts v = true ∧ p.default = some (t.coerce v) := by
  refine ⟨widened_coerce_iff t v, fun hexact => ?_, ?_⟩
  · exact (widened_coerce_iff t v).mpr (keysApart_of_exact hexact)
  rintro d r p hcheck rfl hv
  exact Declaration.default_of_check hcheck hv

/-- `[r:map<float, option<float>>=...]` -/
def rates (entries : List (Value × Value)) : Declaration where
  name := "r"
  type := some (.map .float (.optional .float))
  isOptional := true
  default := some (.map entries)

theorem check_rates {entries : List (Value × Value)}
    (h : (map .float (.optional .float)).accepts (.map entries) = true) :
    ∃ p, (rates entries).check .builtin = .ok p ∧ p.type = .map .float (.optional .float) := by
  have hname : Text.trim "r" = "r" := by decide
  have hblank : Text.isBlank 'r' = false := by decide
  obtain ⟨parser, hparser⟩ :
      ∃ parser, ParserRegistry.builtin.resolved (.map .float (.optional .float)) = .ok parser :=
    ⟨_, rfl⟩
  simp [rates, Declaration.check, hname, hblank, Declaration.checkParts, Declaration.resolveParser,
    hparser, Declaration.remainderProblem?, Declaration.resolveDefault, h]

/-- Where the keys stay apart, a default in which integers stand for floats is kept. So are floats
under texts. -/
theorem rates_keep_structure :
    let t : ValueType := .map .float (.optional .float)
    let entries : List (Value × Value) := [(.int 1, .nil), (.float (.ofRatio false 5 2), .int 3)]
    let named : Value := .map [(.text "a", .int 1)]
    (∀ x ∈ t.places (.map entries), KeysApart x) ∧
      (∃ p, (rates entries).check .builtin = .ok p ∧ p.type = t ∧
        p.default = some (t.coerce (.map entries)) ∧
        t.Widened (.map entries) (t.coerce (.map entries))) ∧
      (∀ x ∈ (map .text .float).places named, KeysExact x) ∧
      (map .text .float).Widened named ((map .text .float).coerce named) := by
  intro t entries named
  have haccepts : t.accepts (.map entries) = true := rfl
  have hapart : ∀ x ∈ t.places (.map entries), KeysApart x := by decide +kernel
  have hexact : ∀ x ∈ (map .text .float).places named, KeysExact x := by
    simp [named, places, KeysExact, mentionsFloat, Table.Distinct]
  obtain ⟨p, hp, htype⟩ := check_rates haccepts
  obtain ⟨hkept, -, hdefault⟩ := coercion_loses_only_merged_keys t (.map entries)
  obtain ⟨-, hnamed, -⟩ := coercion_loses_only_merged_keys (map .text .float) named
  exact ⟨hapart, ⟨p, hp, htype, (hdefault _ _ p hp htype rfl).2, hkept.mpr hapart⟩, hexact,
    hnamed hexact⟩

/-- A map may have an integer and the float of that value as keys. As a default under a type of
floats it is accepted, and loses the first of the two entries. -/
theorem keys_merge_when_coerced :
    let one : Value := .float (.ofInt 1)
    let entries : List (Value × Value) := [(.int 1, .nil), (one, .int 3)]
    let t : ValueType := .map .float (.optional .float)
    Table.Distinct entries ∧ t.accepts (.map entries) = true ∧
      t.coerce (.map entries) = .map [(one, .float (.ofInt 3))] ∧
      ¬ t.Widened (.map entries) (t.coerce (.map entries)) ∧
      ∃ p, (rates entries).check .builtin = .ok p ∧
        p.default = some (.map [(one, .float (.ofInt 3))]) := by
  intro one entries t
  have haccepts : t.accepts (.map entries) = true := rfl
  obtain ⟨p, hp, htype⟩ := check_rates haccepts
  have hcoerced : t.coerce (.map entries) = .map [(one, .float (.ofInt 3))] := rfl
  refine ⟨by decide +kernel, haccepts, hcoerced, ?_, p, hp, ?_⟩
  · rw [widened_coerce_iff]
    decide +kernel
  · rw [(Declaration.default_of_check hp rfl).2, htype, hcoerced]

end ValueType
end CommandConsole
