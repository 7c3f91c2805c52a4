import CommandConsole.Bindings.Bind
import CommandConsole.Proofs.Signature.Choice

/-! Storage that is rented, filled and given back. -/
namespace CommandConsole

/-- The pools that a host can come to have: new ones, and those from which storage was taken or to
which it came back. -/
inductive Pool.Used : Pool → Prop where
  | fresh (capacity : Nat) : Used (.ofCapacity capacity)
  | rent {p : Pool} (h : Used p) : Used p.rent.2
  | giveBack {p : Pool} (h : Used p) (b : Bindings) : Used (p.giveBack b)

namespace Pool

variable {p : Pool}

theorem free_rent_subset (p : Pool) : p.rent.2.free ⊆ p.free := by
  intro b hb
  simp only [rent] at hb
  split at hb
  · rename_i h
    simp [h] at hb
  · rename_i h
    rw [h]
    exact List.mem_cons_of_mem _ hb

theorem Used.free_entries (h : p.Used) : ∀ b ∈ p.free, b.entries = [] := by
  induction h with
  | fresh capacity => simp [ofCapacity]
  | rent _ ih =>
    intro b hb
    exact ih b (free_rent_subset _ hb)
  | giveBack _ b ih =>
    intro a ha
    simp only [Pool.giveBack] at ha
    split at ha
    · rcases List.mem_cons.mp ha with rfl | ha
      · rfl
      · exact ih a ha
    · exact ih a ha

/-- Storage is handed out empty. -/
theorem Used.rent_entries (h : p.Used) : p.rent.1.entries = [] := by
  simp only [Pool.rent]
  split
  · rfl
  · rename_i b r hfree
    exact h.free_entries b (by rw [hfree]; exact List.mem_cons_self)

theorem Used.rent_eq_empty (h : p.Used) : p.rent.1 = .empty :=
  congrArg Bindings.mk h.rent_entries

theorem Used.foldl_giveBack {α : Type} {f : α → Bindings} {xs : List α} (h : p.Used) :
    (xs.foldl (fun q x => q.giveBack (f x)) p).Used := by
  induction xs generalizing p with
  | nil => exact h
  | cons x rest ih => exact ih (h.giveBack (f x))

/-- A pool of some capacity of which `n` pieces of storage are out. It keeps no more than it has room
for. -/
structure Lending (capacity n : Nat) (p : Pool) : Prop where
  room : p.capacity = capacity
  out : p.outstanding = n
  kept : p.available ≤ capacity

namespace Lending

variable {capacity n : Nat}

theorem fresh (capacity : Nat) : Lending capacity 0 (.ofCapacity capacity) :=
  ⟨rfl, rfl, Nat.zero_le _⟩

theorem rent (h : Lending capacity n p) : Lending capacity (n + 1) p.rent.2 := by
  have hle := h.kept
  simp only [Pool.available] at hle
  simp only [Pool.rent]
  split
  · exact ⟨h.room, by rw [h.out], h.kept⟩
  · rename_i b r hfree
    rw [hfree, List.length_cons] at hle
    exact ⟨h.room, by rw [h.out], Nat.le_of_succ_le hle⟩

theorem giveBack (h : Lending capacity (n + 1) p) (b : Bindings) :
    Lending capacity n (p.giveBack b) := by
  refine ⟨h.room, by simp [Pool.giveBack, h.out], ?_⟩
  have hle := h.kept
  simp only [Pool.available, Pool.giveBack] at hle ⊢
  split
  · rename_i hroom
    rw [h.room] at hroom
    exact hroom
  · exact hle

theorem foldl_giveBack {α : Type} (f : α → Bindings) (xs : List α)
    (h : Lending capacity (n + xs.length) p) :
    Lending capacity n (xs.foldl (fun q x => q.giveBack (f x)) p) := by
  induction xs generalizing p with
  | nil => exact h
  | cons x rest ih => exact ih (h.giveBack (f x))

end Lending

/-- What a pool has become when `k` more pieces of its storage are out. -/
def Lends (p : Pool) (k : Nat) (q : Pool) : Prop :=
  ∀ ⦃capacity n : Nat⦄, p.Lending capacity n → q.Lending capacity (n + k)

theorem lends_zero (p : Pool) : p.Lends 0 p := fun _ _ h => h

theorem lends_rent (p : Pool) : p.Lends 1 p.rent.2 := fun _ _ h => h.rent

theorem lends_rent_giveBack (p : Pool) (b : Bindings) : p.Lends 0 (p.rent.2.giveBack b) :=
  fun _ _ h => h.rent.giveBack b

end Pool

namespace BindRequest

variable {q : BindRequest} {s : Signature} {overloads : List Signature}

theorem bindTo_of_trouble {e : ScanError} (h : q.standingTrouble s = some e) (pool : Pool) :
    q.bindTo s pool = (.error (.scan e), pool) := by
  simp only [bindTo, h]

theorem bindTo_of_clear (h : q.standingTrouble s = none) (pool : Pool) :
    q.bindTo s pool =
      match q.fill s.parameters q.words pool.rent.1 with
      | .ok b => (.ok b, pool.rent.2)
      | .error e => (.error e, pool.rent.2.giveBack pool.rent.1) := by
  cases hfill : q.fill s.parameters q.words pool.rent.1 with
  | error e => simp only [bindTo, h, hfill]
  | ok b => simp only [bindTo, h, hfill]

theorem bind_of_unselected (h : Signature.select? overloads q.words.length = none) (pool : Pool) :
    q.bind overloads pool =
      (.error
        ⟨match q.trouble with
          | some e => .scan e
          | none => .noOverload q.words.length (Signature.usageLines overloads q.command),
          some q.context⟩, pool) := by
  cases htrouble : q.trouble with
  | none => simp only [bind, h, htrouble]
  | some e => simp only [bind, h, htrouble]

theorem bind_of_selected {i : Nat} (h : Signature.select? overloads q.words.length = some i)
    (hs : overloads[i]? = some s) (pool : Pool) :
    q.bind overloads pool =
      match q.bindTo s pool with
      | (.ok b, pool) => (.ok ⟨i, b⟩, pool)
      | (.error e, pool) =>
        (.error ⟨e, some { q.context with notes := ["usage: " ++ s.usage q.command] }⟩, pool) := by
  rcases hto : q.bindTo s pool with ⟨e | b, left⟩
  · simp only [bind, h, Option.bind_some, hs, hto]
  · simp only [bind, h, Option.bind_some, hs, hto]

theorem bindTo_lends (q : BindRequest) (s : Signature) (pool : Pool) :
    pool.Lends (if (q.bindTo s pool).1.isOk then 1 else 0) (q.bindTo s pool).2 := by
  cases ht : q.standingTrouble s with
  | some trouble =>
    rw [bindTo_of_trouble ht]
    exact pool.lends_zero
  | none =>
    rw [bindTo_of_clear ht]
    split
    · exact pool.lends_rent
    · exact pool.lends_rent_giveBack pool.rent.1

/-- Storage stays out for the bindings that are made, and none does if a line fails to bind. -/
theorem bind_lends (q : BindRequest) (overloads : List Signature) (pool : Pool) :
    pool.Lends (if (q.bind overloads pool).1.isOk then 1 else 0) (q.bind overloads pool).2 := by
  cases h : Signature.select? overloads q.words.length with
  | none =>
    rw [bind_of_unselected h]
    exact pool.lends_zero
  | some i =>
    obtain ⟨s, hs, _⟩ := Signature.accepts_of_select? h
    have hto := q.bindTo_lends s pool
    rw [bind_of_selected h hs]
    generalize q.bindTo s pool = bound at hto
    obtain ⟨kind | b, left⟩ := bound
    · exact hto
    · exact hto

/-! Storage comes empty from any pool that a host can come to have, so that lines bind alike
whatever the pool. -/

variable {p p' : Pool}

theorem bindTo_used (q : BindRequest) (s : Signature) (h : p.Used) : (q.bindTo s p).2.Used := by
  cases ht : q.standingTrouble s with
  | some trouble =>
    rw [bindTo_of_trouble ht]
    exact h
  | none =>
    rw [bindTo_of_clear ht]
    split
    · exact h.rent
    · exact h.rent.giveBack p.rent.1

theorem bindTo_fst_eq (q : BindRequest) (s : Signature) (h : p.Used) (h' : p'.Used) :
    (q.bindTo s p').1 = (q.bindTo s p).1 := by
  cases ht : q.standingTrouble s with
  | some trouble => rw [bindTo_of_trouble ht, bindTo_of_trouble ht]
  | none =>
    rw [bindTo_of_clear ht, bindTo_of_clear ht, h.rent_eq_empty, h'.rent_eq_empty]
    split <;> rfl

theorem bind_used (q : BindRequest) (overloads : List Signature) (h : p.Used) :
    (q.bind overloads p).2.Used := by
  cases hselect : Signature.select? overloads q.words.length with
  | none =>
    rw [bind_of_unselected hselect]
    exact h
  | some i =>
    obtain ⟨s, hs, -⟩ := Signature.accepts_of_select? hselect
    have hto := q.bindTo_used s h
    rw [bind_of_selected hselect hs]
    split <;> rename_i hbound <;> simpa only [hbound] using hto

/-- What a line is bound to does not depend on the pool. -/
theorem bind_fst_eq (q : BindRequest) (overloads : List Signature) (h : p.Used) (h' : p'.Used) :
    (q.bind overloads p').1 = (q.bind overloads p).1 := by
  cases hselect : Signature.select? overloads q.words.length with
  | none => rw [bind_of_unselected hselect, bind_of_unselected hselect]
  | some i =>
    obtain ⟨s, hs, -⟩ := Signature.accepts_of_select? hselect
    have hto := q.bindTo_fst_eq s h h'
    rw [bind_of_selected hselect hs, bind_of_selected hselect hs]
    generalize q.bindTo s p = bound at hto ⊢
    generalize q.bindTo s p' = bound' at hto ⊢
    obtain ⟨result, left⟩ := bound
    obtain ⟨result', left'⟩ := bound'
    simp only at hto
    subst hto
    cases result' <;> rfl

end BindRequest
end CommandConsole
