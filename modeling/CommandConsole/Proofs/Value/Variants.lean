import CommandConsole.Proofs.Value.Typing

/-! The variants that stand in a value where its type declares an enumeration. -/
namespace CommandConsole

/-- A variant of an enumeration, under its own ordinal. -/
def EnumType.Has (e : EnumType) (x : EnumValue) : Prop :=
  x.typeName = e.name ∧ ∃ h : x.ordinal < e.variants.length, e.variants[x.ordinal] = x.variant

instance (e : EnumType) (x : EnumValue) : Decidable (e.Has x) :=
  inferInstanceAs (Decidable (_ ∧ _))

namespace ValueType

/-- Every variant that stands where a type declares an enumeration has a property with regard to
that enumeration. -/
def EachVariant (P : EnumType → EnumValue → Prop) : ValueType → Value → Prop
  | .enum e, .variant x => P e x
  | .optional t, v => t.EachVariant P v
  | .list t, .list items => ∀ v ∈ items, t.EachVariant P v
  | .map k u, .map entries => ∀ e ∈ entries, k.EachVariant P e.1 ∧ u.EachVariant P e.2
  | _, _ => True

variable {P Q : EnumType → EnumValue → Prop} {t : ValueType} {v : Value}

theorem eachVariant_nil (t : ValueType) : t.EachVariant P .nil := by
  induction t with
  | optional t ih => exact ih
  | _ => trivial

theorem EachVariant.mono (hpq : ∀ e x, P e x → Q e x) (h : t.EachVariant P v) :
    t.EachVariant Q v := by
  induction t generalizing v with
  | enum e =>
    cases v with
    | variant x => exact hpq e x h
    | _ => trivial
  | optional t ih => exact ih h
  | list t ih =>
    cases v with
    | list items => exact fun v hv => ih (h v hv)
    | _ => trivial
  | map k u ihk ihu =>
    cases v with
    | map entries => exact fun e he => ⟨ihk (h e he).1, ihu (h e he).2⟩
    | _ => trivial
  | _ => cases v <;> trivial

/-- What a type accepts has variants of the enumerations that it declares, to go by their names. -/
theorem eachVariant_of_accepts (h : t.accepts v = true) :
    t.EachVariant (fun e x => x.typeName = e.name) v := by
  induction t generalizing v with
  | enum e =>
    cases v with
    | variant x => exact beq_iff_eq.mp h
    | _ => trivial
  | optional t ih =>
    rw [accepts_optional, Bool.or_eq_true] at h
    rcases h with hnil | h
    · cases v with
      | nil => exact t.eachVariant_nil
      | _ => cases hnil
    · exact ih h
  | list t ih =>
    cases v with
    | list items =>
      rw [accepts, List.all_eq_true] at h
      exact fun v hv => ih (h v hv)
    | _ => trivial
  | map k u ihk ihu =>
    cases v with
    | map entries =>
      rw [accepts_map_iff] at h
      exact fun e he => ⟨ihk (h e he).1, ihu (h e he).2⟩
    | _ => trivial
  | _ => cases v <;> trivial

/-- Coercion makes no variants, though the keys of a map may merge. -/
theorem EachVariant.coerce (h : t.EachVariant P v) : t.EachVariant P (t.coerce v) := by
  induction t generalizing v with
  | optional t ih =>
    rw [coerce_optional]
    split
    · exact h
    · exact ih h
  | list t ih =>
    cases v with
    | list items =>
      rw [ValueType.coerce]
      intro v hv
      obtain ⟨w, hw, rfl⟩ := List.mem_map.mp hv
      exact ih (h w hw)
    | _ => trivial
  | map k u ihk ihu =>
    cases v with
    | map entries =>
      rw [ValueType.coerce, Value.ofPairs]
      intro e he
      obtain ⟨hkey, hvalue⟩ :=
        (Table.ofPairs_spec (entries.map fun e => (k.coerce e.1, u.coerce e.2))).2 e he
      rw [List.map_map] at hkey hvalue
      obtain ⟨a, ha, hkey⟩ := List.mem_map.mp hkey
      obtain ⟨b, hb, hvalue⟩ := List.mem_map.mp hvalue
      rw [← hkey, ← hvalue]
      exact ⟨ihk (h a ha).1, ihu (h b hb).2⟩
    | _ => trivial
  | enum e => exact h
  | _ => cases v <;> trivial

end ValueType
end CommandConsole
