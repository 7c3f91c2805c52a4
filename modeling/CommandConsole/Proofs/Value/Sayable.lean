import CommandConsole.Proofs.Value.Typing
import CommandConsole.ValueParser.Builtin

/-! Values that can be said on a command line: truth values, integers and plain texts, and what is
put together of them. -/
namespace CommandConsole

open ValueParser (isNilWord)

/-- Text that stands for itself wherever it is written: there is some, and in it neither white space
nor a character of the notation. -/
def Text.Plain (s : String) : Prop :=
  s ≠ "" ∧ ∀ c ∈ s.toList, isBlank c = false ∧ c ∉ ['"', '[', ']', '{', '}', ',', ':']

instance : DecidablePred Text.Plain := fun s =>
  @instDecidableAnd _ _ inferInstance (List.decidableBAll _ s.toList)

namespace ValueType

/-- Whether a type is put together of truth values, integers and texts. -/
def isSimple : ValueType → Bool
  | .bool => true
  | .int => true
  | .text => true
  | .optional t => t.isSimple
  | .list t => t.isSimple
  | .map k u => k.isSimple && u.isSimple
  | _ => false

/-- The places in a value that have a type: itself, its items, keys and entries, and theirs. A value
of an optional type has its place twice, also as a value of the inner type. -/
def places : ValueType → Value → List (ValueType × Value)
  | .optional t, v => (.optional t, v) :: if v.isNil then [] else t.places v
  | .list t, .list items => (.list t, .list items) :: items.flatMap t.places
  | .map k u, .map entries =>
    (.map k u, .map entries) :: entries.flatMap fun e => k.places e.1 ++ u.places e.2
  | t, v => [(t, v)]

/-- What a place must not hold if its value is to be read back as it is displayed: text that is not
plain, text that stands for nil where there can be nil, and keys that are equal. -/
def Legible : ValueType × Value → Prop
  | (.text, .text s) => Text.Plain s
  | (.optional _, .text s) => isNilWord s = false
  | (.map _ _, .map entries) => Table.Distinct entries
  | _ => True

instance : DecidablePred Legible := fun x => by
  unfold Legible
  split <;> infer_instance

/-- The values of a type that are read back as they are displayed. -/
inductive Sayable : ValueType → Value → Prop where
  | bool (b : Bool) : Sayable .bool (.bool b)
  | int (n : Int64) : Sayable .int (.int n)
  | text {s : String} (plain : Text.Plain s) : Sayable .text (.text s)
  | nil (t : ValueType) : Sayable (.optional t) .nil
  | optional {t : ValueType} {v : Value} (inner : Sayable t v) (present : v.isNil = false)
      (spared : ∀ s, v = .text s → isNilWord s = false) : Sayable (.optional t) v
  | list {t : ValueType} {items : List Value} (each : ∀ v ∈ items, Sayable t v) :
      Sayable (.list t) (.list items)
  | map {k u : ValueType} {entries : List (Value × Value)} (keys : ∀ e ∈ entries, Sayable k e.1)
      (values : ∀ e ∈ entries, Sayable u e.2) (distinct : Table.Distinct entries) :
      Sayable (.map k u) (.map entries)

variable {t : ValueType} {v : Value} {entries : List (Value × Value)}

theorem sayable_of_legible (simple : t.isSimple = true) (accepted : t.accepts v = true)
    (legible : ∀ x ∈ t.places v, Legible x) : Sayable t v := by
  induction t generalizing v with
  | bool =>
    cases v with
    | bool b => exact .bool b
    | _ => cases accepted
  | int =>
    cases v with
    | int n => exact .int n
    | _ => cases accepted
  | text =>
    cases v with
    | text s => exact .text (legible _ List.mem_cons_self)
    | _ => cases accepted
  | float => cases simple
  | custom name => cases simple
  | enum e => cases simple
  | optional t ih =>
    rw [accepts_optional, Bool.or_eq_true] at accepted
    rw [places] at legible
    cases hnil : v.isNil with
    | true =>
      cases v with
      | nil => exact .nil t
      | _ => cases hnil
    | false =>
      rw [hnil] at accepted legible
      refine .optional (ih simple (accepted.resolve_left Bool.false_ne_true) ?_) hnil ?_
      · exact fun x hx => legible x (List.mem_cons_of_mem _ hx)
      · rintro s rfl
        exact legible _ List.mem_cons_self
  | list t ih =>
    cases v with
    | list items =>
      rw [accepts, List.all_eq_true] at accepted
      rw [places] at legible
      refine .list fun v hv => ih simple (accepted v hv) ?_
      intro x hx
      exact legible x (List.mem_cons_of_mem _ (List.mem_flatMap_of_mem hv hx))
    | _ => cases accepted
  | map k u ihk ihu =>
    cases v with
    | map entries =>
      rw [accepts_map_iff] at accepted
      rw [places] at legible
      rw [isSimple, Bool.and_eq_true] at simple
      have inside : ∀ e ∈ entries, ∀ x ∈ k.places e.1 ++ u.places e.2, Legible x :=
        fun e he x hx => legible x (List.mem_cons_of_mem _ (List.mem_flatMap_of_mem he hx))
      refine .map ?_ ?_ (legible _ List.mem_cons_self)
      · exact fun e he => ihk simple.1 (accepted e he).1
          fun x hx => inside e he x (List.mem_append_left _ hx)
      · exact fun e he => ihu simple.2 (accepted e he).2
          fun x hx => inside e he x (List.mem_append_right _ hx)
    | _ => cases accepted

end ValueType

namespace Value

variable {t : ValueType} {v : Value} {items : List Value} {entries others : List (Value × Value)}

theorem sameItems_self (h : ∀ v ∈ items, v.same v = true) : sameItems items items = true := by
  induction items with
  | nil => rfl
  | cons x r ih =>
    rw [sameItems, h x List.mem_cons_self, Bool.true_and]
    exact ih fun v hv => h v (List.mem_cons_of_mem _ hv)

theorem entriesWithin_of_find? (h : ∀ e ∈ entries,
      others.find? (fun x => e.1.same x.1) = some e ∧ e.2.same e.2 = true) :
    entriesWithin entries others = true := by
  induction entries with
  | nil => rfl
  | cons e r ih =>
    obtain ⟨k, v⟩ := e
    obtain ⟨hfind, hv⟩ := h (k, v) List.mem_cons_self
    simp only at hfind hv
    simp only [entriesWithin, hfind, hv, Bool.true_and]
    exact ih fun e he => h e (List.mem_cons_of_mem _ he)

/-- A value equals itself, unless a map in it has some key twice. -/
theorem same_self_of_sayable (h : t.Sayable v) : v.same v = true := by
  induction h with
  | bool b => exact beq_self_eq_true b
  | int n => exact beq_self_eq_true n
  | text => exact beq_self_eq_true _
  | nil => rfl
  | optional inner present spared ih => exact ih
  | list each ih => exact sameItems_self ih
  | @map k u entries keys values distinct ihk ihu =>
    rw [Value.same, beq_self_eq_true, Bool.true_and]
    apply entriesWithin_of_find?
    intro e he
    refine ⟨?_, ihu e he⟩
    obtain ⟨before, after, rfl⟩ := List.append_of_mem he
    refine List.find?_eq_some_iff_append.mpr ⟨ihk e he, before, after, rfl, ?_⟩
    intro x hx
    have hne : e.1.same x.1 = false :=
      (List.pairwise_append.mp distinct).2.2 x hx e List.mem_cons_self
    simp [hne]

end Value
end CommandConsole
