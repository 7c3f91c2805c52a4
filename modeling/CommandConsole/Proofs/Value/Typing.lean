import CommandConsole.Proofs.Value.Maps
import CommandConsole.ValueType

/-! Values that belong to a type as they are: accepted by it, and left alone when it coerces. -/
namespace CommandConsole.ValueType

/-- A value that has the form of a type, with a float wherever the type says so. -/
structure Holds (t : ValueType) (v : Value) : Prop where
  accepted : t.accepts v = true
  coerced : t.coerce v = v

variable {t k u : ValueType} {v : Value} {items : List Value} {entries : List (Value × Value)}

theorem accepts_optional (t : ValueType) (v : Value) :
    (optional t).accepts v = (v.isNil || t.accepts v) := by
  cases v <;> simp [accepts, Value.isNil]

theorem coerce_optional (t : ValueType) (v : Value) :
    (optional t).coerce v = if v.isNil then v else t.coerce v := by
  rw [coerce]

theorem accepts_map_iff : (map k u).accepts (.map entries) = true ↔
    ∀ e ∈ entries, k.accepts e.1 = true ∧ u.accepts e.2 = true := by
  simp [accepts]

theorem holds_nil (t : ValueType) : (optional t).Holds .nil := by
  refine ⟨?_, ?_⟩
  · rw [accepts_optional]
    rfl
  · rw [coerce_optional]
    rfl

theorem holds_custom (name : String) (v : Value) : (custom name).Holds v := by
  refine ⟨?_, ?_⟩
  · cases v <;> rfl
  · cases v <;> rfl

theorem Holds.optional (h : t.Holds v) : (optional t).Holds v := by
  refine ⟨?_, ?_⟩
  · rw [accepts_optional, h.accepted, Bool.or_true]
  · rw [coerce_optional, h.coerced, ite_self]

theorem Holds.list (h : ∀ v ∈ items, t.Holds v) : (list t).Holds (.list items) := by
  refine ⟨?_, ?_⟩
  · rw [accepts, List.all_eq_true]
    exact fun v hv => (h v hv).accepted
  · have hsame : items.map t.coerce = items := by
      refine (List.map_congr_left ?_).trans items.map_id
      exact fun v hv => (h v hv).coerced
    rw [coerce, hsame]

/-- The keys of a map may not merge when they are coerced. -/
theorem Holds.map (hd : Table.Distinct entries)
    (h : ∀ e ∈ entries, k.Holds e.1 ∧ u.Holds e.2) : (map k u).Holds (.map entries) := by
  refine ⟨?_, ?_⟩
  · rw [accepts_map_iff]
    exact fun e he => ⟨(h e he).1.accepted, (h e he).2.accepted⟩
  · have hsame : entries.map (fun e => (k.coerce e.1, u.coerce e.2)) = entries := by
      refine (List.map_congr_left ?_).trans entries.map_id
      intro e he
      rw [(h e he).1.coerced, (h e he).2.coerced, id]
    rw [coerce, hsame, Value.ofPairs, Table.ofPairs_of_distinct hd]

/-- What a type accepts it coerces into a value that it holds. -/
theorem holds_coerce (h : t.accepts v = true) : t.Holds (t.coerce v) := by
  induction t generalizing v with
  | bool =>
    cases v with
    | bool b => exact ⟨rfl, rfl⟩
    | _ => cases h
  | int =>
    cases v with
    | int n => exact ⟨rfl, rfl⟩
    | _ => cases h
  | float =>
    cases v with
    | int n => exact ⟨rfl, rfl⟩
    | float x => exact ⟨rfl, rfl⟩
    | _ => cases h
  | text =>
    cases v with
    | text s => exact ⟨rfl, rfl⟩
    | _ => cases h
  | custom name => exact holds_custom name _
  | enum e =>
    cases v with
    | variant x => exact ⟨h, rfl⟩
    | _ => cases h
  | optional t ih =>
    rw [accepts_optional, Bool.or_eq_true] at h
    rw [coerce_optional]
    cases hnil : v.isNil with
    | true =>
      cases v with
      | nil => exact holds_nil t
      | _ => cases hnil
    | false =>
      rw [hnil] at h
      exact (ih (h.resolve_left Bool.false_ne_true)).optional
  | list t ih =>
    cases v with
    | list items =>
      rw [accepts, List.all_eq_true] at h
      rw [coerce]
      apply Holds.list
      intro v hv
      obtain ⟨w, hw, rfl⟩ := List.mem_map.mp hv
      exact ih (h w hw)
    | _ => cases h
  | map k u ihk ihu =>
    cases v with
    | map entries =>
      rw [accepts_map_iff] at h
      rw [coerce, Value.ofPairs]
      obtain ⟨hdistinct, hmem⟩ :=
        Table.ofPairs_spec (entries.map fun e => (k.coerce e.1, u.coerce e.2))
      apply Holds.map hdistinct
      intro e he
      obtain ⟨hkey, hvalue⟩ := hmem e he
      rw [List.map_map] at hkey hvalue
      obtain ⟨a, ha, hkey⟩ := List.mem_map.mp hkey
      obtain ⟨b, hb, hvalue⟩ := List.mem_map.mp hvalue
      rw [← hkey, ← hvalue]
      exact ⟨ihk (h a ha).1, ihu (h b hb).2⟩
    | _ => cases h

end CommandConsole.ValueType
