/-! Tables that remember the order in which their keys first came. -/
namespace CommandConsole

/-- Keys and what they stand for, oldest first. Operations keep the keys distinct. -/
abbrev Table (κ ν : Type) := List (κ × ν)

namespace Table

variable {κ ν : Type} [BEq κ]

def find? : Table κ ν → κ → Option ν
  | [], _ => none
  | (k, v) :: r, q => if q == k then some v else find? r q

def contains (t : Table κ ν) (q : κ) : Bool := (t.find? q).isSome

/-- A known key keeps its place and gets the new value; a new one comes last. -/
def insert : Table κ ν → κ → ν → Table κ ν
  | [], q, w => [(q, w)]
  | (k, v) :: r, q, w => if q == k then (k, w) :: r else (k, v) :: insert r q w

def erase : Table κ ν → κ → Table κ ν
  | [], _ => []
  | (k, v) :: r, q => if q == k then r else (k, v) :: erase r q

/-- Later pairs win, but keep the place of the first. -/
def ofPairs (pairs : List (κ × ν)) : Table κ ν :=
  pairs.foldl (fun t e => insert t e.1 e.2) []

def keys (t : Table κ ν) : List κ := t.map Prod.fst

theorem erase_sublist (t : Table κ ν) (k : κ) : (t.erase k).Sublist t := by
  induction t with
  | nil => exact .slnil
  | cons e r ih =>
    obtain ⟨a, b⟩ := e
    by_cases ha : k == a
    · simp [erase, ha]
    · simpa [erase, ha] using ih

theorem erase_of_find?_eq_none {t : Table κ ν} {k : κ} (h : t.find? k = none) : t.erase k = t := by
  induction t with
  | nil => rfl
  | cons e r ih =>
    obtain ⟨a, b⟩ := e
    by_cases ha : k == a <;> simp_all [erase, find?]

section Lawful

variable [LawfulBEq κ]

theorem find?_insert (t : Table κ ν) (k q : κ) (w : ν) :
    (t.insert k w).find? q = if q == k then some w else t.find? q := by
  induction t with
  | nil => simp [insert, find?]
  | cons e r ih =>
    obtain ⟨a, b⟩ := e
    by_cases h : k == a <;> by_cases hq : q == k <;> by_cases ha : q == a <;>
      simp_all [insert, find?]

theorem find?_eq_none_iff (t : Table κ ν) (q : κ) : t.find? q = none ↔ q ∉ t.map Prod.fst := by
  induction t with
  | nil => simp [find?]
  | cons e r ih =>
    obtain ⟨a, b⟩ := e
    by_cases h : q == a <;> simp_all [find?]

theorem insert_of_notMem {t : Table κ ν} {k : κ} (h : k ∉ t.map Prod.fst) (w : ν) :
    t.insert k w = t ++ [(k, w)] := by
  induction t with
  | nil => rfl
  | cons e r ih =>
    obtain ⟨a, b⟩ := e
    rw [List.map_cons, List.mem_cons, not_or] at h
    simp [insert, h.1, ih h.2]

theorem length_insert_of_find? {t : Table κ ν} {k : κ} {v : ν} (h : t.find? k = some v) (w : ν) :
    (t.insert k w).length = t.length := by
  induction t with
  | nil => simp [find?] at h
  | cons e r ih =>
    obtain ⟨a, b⟩ := e
    by_cases ha : k == a <;> simp_all [insert, find?]

theorem length_erase_of_find? {t : Table κ ν} {k : κ} {v : ν} (h : t.find? k = some v) :
    (t.erase k).length + 1 = t.length := by
  induction t with
  | nil => simp [find?] at h
  | cons e r ih =>
    obtain ⟨a, b⟩ := e
    by_cases ha : k == a <;> simp_all [erase, find?]

theorem keys_insert (t : Table κ ν) (k : κ) (w : ν) :
    (t.insert k w).map Prod.fst =
      if k ∈ t.map Prod.fst then t.map Prod.fst else t.map Prod.fst ++ [k] := by
  induction t with
  | nil => simp [insert]
  | cons e r ih =>
    obtain ⟨a, b⟩ := e
    by_cases h : k == a
    · simp_all [insert]
    · by_cases hm : k ∈ r.map Prod.fst <;> simp_all [insert]

theorem keys_erase (t : Table κ ν) (k : κ) :
    (t.erase k).map Prod.fst = (t.map Prod.fst).erase k := by
  induction t with
  | nil => rfl
  | cons e r ih =>
    obtain ⟨a, b⟩ := e
    rw [List.map_cons, List.erase_cons, ← ih, erase, BEq.comm]
    split <;> rfl

theorem nodup_insert {t : Table κ ν} (h : (t.map Prod.fst).Nodup) (k : κ) (w : ν) :
    ((t.insert k w).map Prod.fst).Nodup := by
  rw [keys_insert]
  split
  · exact h
  · rename_i hk
    exact List.nodup_append.mpr ⟨h, by simp, fun a ha b hb => by
      rw [List.mem_singleton] at hb; subst hb; intro hab; exact hk (hab ▸ ha)⟩

theorem mem_of_find? {t : Table κ ν} {q : κ} {v : ν} (h : t.find? q = some v) : (q, v) ∈ t := by
  induction t with
  | nil => simp [find?] at h
  | cons e r ih =>
    obtain ⟨a, b⟩ := e
    by_cases hq : q == a <;> simp_all [find?]

theorem find?_of_mem {t : Table κ ν} (hn : (t.map Prod.fst).Nodup) {q : κ} {v : ν}
    (h : (q, v) ∈ t) : t.find? q = some v := by
  induction t with
  | nil => cases h
  | cons e r ih =>
    obtain ⟨a, b⟩ := e
    rw [List.map_cons, List.nodup_cons] at hn
    rcases List.mem_cons.mp h with heq | hin
    · injection heq with hq hv
      simp [find?, hq, hv]
    · have hne : q ≠ a := by
        rintro rfl
        exact hn.1 (List.mem_map.mpr ⟨_, hin, rfl⟩)
      simp [find?, hne, ih hn.2 hin]

theorem mem_insert {t : Table κ ν} {k : κ} {w : ν} {x : κ × ν} (h : x ∈ t.insert k w) :
    x = (k, w) ∨ x ∈ t := by
  induction t with
  | nil => simpa [insert] using h
  | cons e r ih =>
    obtain ⟨a, b⟩ := e
    by_cases ha : k == a
    · simp only [insert, ha, if_true, List.mem_cons] at h
      have hk := eq_of_beq ha
      rcases h with rfl | h
      · exact Or.inl (by rw [hk])
      · exact Or.inr (List.mem_cons_of_mem _ h)
    · simp only [insert, ha] at h
      rcases List.mem_cons.mp h with h | h
      · simp [h]
      · rcases ih h with h | h <;> simp [h]

theorem eq_of_mem_insert {t : Table κ ν} (hn : (t.map Prod.fst).Nodup) {k : κ} {v w : ν}
    (h : (k, v) ∈ t.insert k w) : v = w := by
  have hv := find?_of_mem (nodup_insert hn k w) h
  rw [find?_insert, if_pos (beq_self_eq_true k)] at hv
  injection hv with hv
  exact hv.symm

theorem find?_erase {t : Table κ ν} (hn : (t.map Prod.fst).Nodup) (k q : κ) :
    (t.erase k).find? q = if q == k then none else t.find? q := by
  induction t with
  | nil => simp [erase, find?]
  | cons e r ih =>
    obtain ⟨a, b⟩ := e
    rw [List.map_cons, List.nodup_cons] at hn
    by_cases ha : k == a
    · have hr := (find?_eq_none_iff r a).mpr hn.1
      by_cases hq : q == k <;> simp_all [erase, find?]
    · by_cases hq : q == k <;> by_cases hqa : q == a <;> simp_all [erase, find?]

theorem erase_eq_filter {t : Table κ ν} (hn : (t.map Prod.fst).Nodup) (k : κ) :
    t.erase k = t.filter (k != ·.1) := by
  induction t with
  | nil => rfl
  | cons e r ih =>
    obtain ⟨a, b⟩ := e
    rw [List.map_cons, List.nodup_cons] at hn
    by_cases ha : k = a
    · have hr : ∀ x ∈ r, (k != x.1) = true := by
        intro x hx
        rw [bne_iff_ne, ha]
        rintro rfl
        exact hn.1 (List.mem_map.mpr ⟨x, hx, rfl⟩)
      simp [erase, ha, List.filter_eq_self.mpr (ha ▸ hr)]
    · simp [erase, ha, ih hn.2]

theorem insert_eq_map {t : Table κ ν} (hn : (t.map Prod.fst).Nodup) {k : κ} {v : ν}
    (hf : t.find? k = some v) (w : ν) :
    t.insert k w = t.map fun b => (b.1, if k == b.1 then w else b.2) := by
  induction t with
  | nil => simp [find?] at hf
  | cons e r ih =>
    obtain ⟨a, b⟩ := e
    rw [List.map_cons, List.nodup_cons] at hn
    by_cases ha : k = a
    · have hr : r.map (fun b => (b.1, if k == b.1 then w else b.2)) = r := by
        refine (List.map_congr_left (g := id) ?_).trans r.map_id
        intro x hx
        have hne : k ≠ x.1 := by
          rw [ha]
          rintro rfl
          exact hn.1 (List.mem_map.mpr ⟨x, hx, rfl⟩)
        simp [hne]
      rw [List.map_cons, hr]
      simp [insert, ha]
    · have hr : find? r k = some v := by simpa [find?, ha] using hf
      simp [insert, ha, ih hn.2 hr]

theorem find?_perm {t u : Table κ ν} (hn : (t.map Prod.fst).Nodup) (hp : u.Perm t) (q : κ) :
    u.find? q = t.find? q := by
  have hu : (u.map Prod.fst).Nodup := (hp.map Prod.fst).nodup_iff.mpr hn
  cases hf : t.find? q with
  | some v => exact find?_of_mem hu (hp.mem_iff.mpr (mem_of_find? hf))
  | none =>
    rw [find?_eq_none_iff] at hf ⊢
    exact fun hin => hf ((hp.map Prod.fst).mem_iff.mp hin)

/-- A key that is taken out and put back comes last. -/
theorem insert_erase {t : Table κ ν} (hn : (t.map Prod.fst).Nodup) (k : κ) (w : ν) :
    (t.erase k).insert k w = t.erase k ++ [(k, w)] := by
  apply insert_of_notMem
  rw [← find?_eq_none_iff, find?_erase hn]
  simp

end Lawful
end Table
end CommandConsole
