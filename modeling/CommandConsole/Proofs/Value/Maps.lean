import CommandConsole.Value.Equality
import Mathlib.Data.List.Induction

/-! Maps of values, whose keys differ. -/
namespace CommandConsole

namespace Table

variable {κ ν : Type} [BEq κ] {t : Table κ ν} {q : κ}

/-- No key equals an earlier one. The comparison of keys need not be lawful. -/
def Distinct (t : Table κ ν) : Prop := t.Pairwise fun a b => (b.1 == a.1) = false

instance : Decidable t.Distinct := inferInstanceAs (Decidable (List.Pairwise _ _))

@[simp] theorem distinct_nil : Distinct ([] : Table κ ν) := .nil

theorem distinct_concat {e : κ × ν} :
    Distinct (t ++ [e]) ↔ t.Distinct ∧ t.any (e.1 == ·.1) = false := by
  simp [Distinct, List.pairwise_append]

/-- A key that equals none comes last. -/
theorem insert_of_fresh (h : ∀ e ∈ t, (q == e.1) = false) (w : ν) :
    t.insert q w = t ++ [(q, w)] := by
  induction t with
  | nil => rfl
  | cons e r ih =>
    obtain ⟨k, v⟩ := e
    have hk := h (k, v) List.mem_cons_self
    simp only at hk
    simp [insert, hk, ih fun e he => h e (List.mem_cons_of_mem _ he)]

/-- An entry keeps its key, and has its own value or the one that is put in. -/
theorem of_mem_insert {w : ν} {e : κ × ν} (h : e ∈ t.insert q w) :
    (e.1 = q ∨ e.1 ∈ t.map Prod.fst) ∧ (e.2 = w ∨ e.2 ∈ t.map Prod.snd) := by
  induction t with
  | nil =>
    rw [insert, List.mem_singleton] at h
    simp [h]
  | cons x r ih =>
    obtain ⟨k, v⟩ := x
    simp only [insert] at h
    split at h
    · rcases List.mem_cons.mp h with rfl | h
      · simp
      · exact ⟨.inr (List.mem_cons_of_mem _ (List.mem_map_of_mem h)),
          .inr (List.mem_cons_of_mem _ (List.mem_map_of_mem h))⟩
    · rcases List.mem_cons.mp h with rfl | h
      · simp
      · obtain ⟨hkey, hvalue⟩ := ih h
        exact ⟨hkey.imp_right (List.mem_cons_of_mem _), hvalue.imp_right (List.mem_cons_of_mem _)⟩

theorem Distinct.insert (h : t.Distinct) (q : κ) (w : ν) : (t.insert q w).Distinct := by
  induction t with
  | nil => exact List.pairwise_singleton _ _
  | cons x r ih =>
    obtain ⟨k, v⟩ := x
    obtain ⟨hk, hr⟩ := List.pairwise_cons.mp h
    simp only [Table.insert]
    split
    · exact List.pairwise_cons.mpr ⟨hk, hr⟩
    · rename_i hq
      refine List.pairwise_cons.mpr ⟨?_, ih hr⟩
      intro e he
      rcases (of_mem_insert he).1 with hkey | hkey
      · simpa [hkey] using hq
      · obtain ⟨b, hb, hbk⟩ := List.mem_map.mp hkey
        rw [← hbk]
        exact hk b hb

/-- Pairs whose keys differ make up a table as they are. -/
theorem ofPairs_of_distinct {pairs : List (κ × ν)} (h : Distinct pairs) :
    ofPairs pairs = pairs := by
  suffices hfold : ∀ t : Table κ ν, (t ++ pairs).Pairwise (fun a b => (b.1 == a.1) = false) →
      pairs.foldl (fun t e => Table.insert t e.1 e.2) t = t ++ pairs from hfold [] h
  clear h
  induction pairs with
  | nil =>
    intro t _
    rw [List.append_nil]
    rfl
  | cons e rest ih =>
    intro t ht
    have hfresh : ∀ b ∈ t, (e.1 == b.1) = false :=
      fun b hb => (List.pairwise_append.mp ht).2.2 b hb e List.mem_cons_self
    rw [List.append_cons] at ht
    rw [List.foldl_cons, insert_of_fresh hfresh, ih _ ht, List.append_assoc, List.singleton_append]

/-- A table of pairs has distinct keys. Each of them is that of a pair, and so is each value. -/
theorem ofPairs_spec (pairs : List (κ × ν)) :
    Distinct (ofPairs pairs) ∧ ∀ e ∈ ofPairs pairs,
      e.1 ∈ pairs.map Prod.fst ∧ e.2 ∈ pairs.map Prod.snd := by
  suffices hfold : ∀ t : Table κ ν, t.Distinct →
      let t' := pairs.foldl (fun t e => Table.insert t e.1 e.2) t
      Distinct t' ∧ ∀ e ∈ t', (e.1 ∈ t.map Prod.fst ∨ e.1 ∈ pairs.map Prod.fst) ∧
        (e.2 ∈ t.map Prod.snd ∨ e.2 ∈ pairs.map Prod.snd) by
    obtain ⟨hdistinct, hmem⟩ := hfold [] .nil
    refine ⟨hdistinct, fun e he => ?_⟩
    simpa using hmem e he
  induction pairs with
  | nil =>
    intro t ht
    exact ⟨ht, fun e he => ⟨.inl (List.mem_map_of_mem he), .inl (List.mem_map_of_mem he)⟩⟩
  | cons x rest ih =>
    intro t ht
    obtain ⟨hdistinct, hmem⟩ := ih (Table.insert t x.1 x.2) (ht.insert x.1 x.2)
    refine ⟨hdistinct, fun e he => ?_⟩
    obtain ⟨hkey, hvalue⟩ := hmem e he
    rw [List.map_cons, List.mem_cons, List.map_cons, List.mem_cons]
    constructor
    · rcases hkey with hkey | hkey
      · obtain ⟨b, hb, hbk⟩ := List.mem_map.mp hkey
        rw [← hbk]
        rcases (of_mem_insert hb).1 with hnew | hold
        · exact .inr (.inl hnew)
        · exact .inl hold
      · exact .inr (.inr hkey)
    · rcases hvalue with hvalue | hvalue
      · obtain ⟨b, hb, hbv⟩ := List.mem_map.mp hvalue
        rw [← hbv]
        rcases (of_mem_insert hb).2 with hnew | hold
        · exact .inr (.inl hnew)
        · exact .inl hold
      · exact .inr (.inr hvalue)

theorem length_insert_le (t : Table κ ν) (q : κ) (w : ν) :
    (t.insert q w).length ≤ t.length + 1 := by
  induction t with
  | nil => exact Nat.le_refl 1
  | cons x r ih =>
    simp only [insert]
    split
    · exact Nat.le_succ _
    · exact Nat.succ_le_succ ih

/-- A table grows only by a key that is not yet in it. -/
theorem fresh_of_length_insert {w : ν} (h : (t.insert q w).length = t.length + 1) :
    ∀ e ∈ t, (q == e.1) = false := by
  induction t with
  | nil => simp
  | cons x r ih =>
    simp only [insert] at h
    split at h
    · simp at h
    · rename_i hq
      intro e he
      rcases List.mem_cons.mp he with rfl | he
      · exact Bool.not_eq_true _ ▸ hq
      · exact ih (Nat.succ.inj h) e he

theorem ofPairs_concat (pairs : List (κ × ν)) (e : κ × ν) :
    ofPairs (pairs ++ [e]) = (ofPairs pairs).insert e.1 e.2 := by
  rw [ofPairs, List.foldl_append]
  rfl

theorem length_ofPairs_le (pairs : List (κ × ν)) : (ofPairs pairs).length ≤ pairs.length := by
  induction pairs using List.reverseRecOn with
  | nil => exact Nat.le_refl 0
  | append_singleton rest e ih =>
    rw [ofPairs_concat, List.length_append]
    exact Nat.le_trans (length_insert_le _ _ _) (Nat.succ_le_succ ih)

/-- A table of pairs has as many entries as there are pairs only if their keys differ. -/
theorem length_ofPairs_eq_iff {pairs : List (κ × ν)} :
    (ofPairs pairs).length = pairs.length ↔ Distinct pairs := by
  refine ⟨fun h => ?_, fun h => by rw [ofPairs_of_distinct h]⟩
  induction pairs using List.reverseRecOn with
  | nil => exact .nil
  | append_singleton rest e ih =>
    rw [ofPairs_concat, List.length_append, List.length_singleton] at h
    have hle := length_ofPairs_le rest
    have hgrown := length_insert_le (ofPairs rest) e.1 e.2
    have hrest : Distinct rest := ih (by omega)
    rw [ofPairs_of_distinct hrest] at h
    refine List.pairwise_append.mpr ⟨hrest, List.pairwise_singleton _ _, fun b hb c hc => ?_⟩
    rw [List.mem_singleton.mp hc]
    exact fresh_of_length_insert h b hb

end Table
end CommandConsole
