import CommandConsole.Bindings.Holdings
import CommandConsole.Proofs.Bindings.Storage
import Mathlib.Data.List.Perm.Basic

/-! Bindings that several names hold: their storage goes back to the pool once, with the last name
that lets go. -/
namespace CommandConsole.Holdings

variable {h : Holdings} {name other : String} {x : Holding} {capacity k : Nat}

/-- What can be done with held bindings. -/
inductive Move where
  | rent (name : String)
  | detach (name : String)
  | share (name other : String)
  | release (name : String)
  | insert (holder name : String) (value : Value) (type : ValueType)

def move (h : Holdings) : Move → Holdings
  | .rent name => h.rent name
  | .detach name => h.detach name
  | .share name other => h.share name other
  | .release name => h.release name
  | .insert holder name value type => ((h.insert holder name value type).map (·.2)).getD h

def after (h : Holdings) (moves : List Move) : Holdings := moves.foldl move h

/-- All names that hold something. -/
def names (held : List Holding) : List String := held.flatMap (·.holders)

/-- No name holds two things, nothing is held by no name, and the pool is short of what is held of
it, and of `k` more pieces. -/
structure Kept (capacity k : Nat) (h : Holdings) : Prop where
  distinct : (names h.held).Nodup
  holders : ∀ x ∈ h.held, x.holders ≠ []
  used : h.pool.Used
  lending : h.pool.Lending capacity (h.held.countP (·.pooled) + k)

theorem mem_names {held : List Holding} (hx : x ∈ held) (hn : name ∈ x.holders) :
    name ∈ names held :=
  List.mem_flatMap.mpr ⟨x, hx, hn⟩

theorem nodup_names_cons {held : List Holding} (h : (names (x :: held)).Nodup) :
    x.holders.Nodup ∧ (names held).Nodup ∧ ∀ n ∈ x.holders, n ∉ names held := by
  rw [names, List.flatMap_cons, List.nodup_append] at h
  exact ⟨h.1, h.2.1, fun n hn hin => h.2.2 n hn n hin rfl⟩

/-- Only one thing is held by a name. -/
theorem filter_holders {held : List Holding} (distinct : (names held).Nodup)
    (hx : held.find? (·.holders.contains name) = some x) :
    held.filter (·.holders.contains name) = [x] := by
  induction held with
  | nil => cases hx
  | cons y rest ih =>
    obtain ⟨-, hrest, apart⟩ := nodup_names_cons distinct
    by_cases hy : name ∈ y.holders
    · obtain rfl : y = x := by simpa [hy] using hx
      have hnone : rest.filter (·.holders.contains name) = [] := by
        rw [List.filter_eq_nil_iff]
        intro z hz hn
        exact apart name hy (mem_names hz (by simpa using hn))
      rw [List.filter_cons_of_pos (by simpa using hy), hnone]
    · rw [List.filter_cons_of_neg (by simpa using hy)]
      exact ih hrest (by simpa [hy] using hx)

/-- What a name holds, and all else. -/
theorem perm_others (distinct : (names h.held).Nodup) (hx : h.find? name = some x) :
    h.held.Perm (x :: h.held.filter fun y => !y.holders.contains name) := by
  have hsplit := (List.filter_append_perm (·.holders.contains name) h.held).symm
  rwa [filter_holders distinct hx] at hsplit

theorem names_perm {held held' : List Holding} (h : held.Perm held') :
    (names held).Perm (names held') :=
  h.flatMap_right _

/-- What a name lets go of goes back to the pool if no other name holds it. -/
theorem pool_release (hx : h.find? name = some x) :
    (h.release name).pool =
      if (∀ n ∈ x.holders, n = name) ∧ x.pooled = true then h.pool.giveBack x.bindings
      else h.pool := by
  have hempty : x.holders.filter (· != name) = [] ↔ ∀ n ∈ x.holders, n = name := by
    simp [List.filter_eq_nil_iff]
  simp only [release, hx]
  cases hrest : x.holders.filter (· != name) with
  | nil =>
    have hall := eq_true (hempty.mp hrest)
    simp only [hall, true_and]
  | cons n rest =>
    have hothers : ¬ ∀ n ∈ x.holders, n = name := by
      rw [← hempty, hrest]
      exact List.cons_ne_nil n rest
    simp [hothers]

theorem Kept.of_perm {held : List Holding} (hk : Kept capacity k h) (hp : h.held.Perm held) :
    Kept capacity k { h with held } where
  distinct := (names_perm hp).nodup_iff.mp hk.distinct
  holders y hy := hk.holders y (hp.mem_iff.mpr hy)
  used := hk.used
  lending := by
    have hlending := hk.lending
    rwa [hp.countP_eq] at hlending

theorem Kept.release (hk : Kept capacity k h) (name : String) :
    Kept capacity k (h.release name) := by
  cases hx : h.find? name with
  | none => simpa only [Holdings.release, hx] using hk
  | some x =>
    obtain ⟨hdistinct, hholders, hused, hlending⟩ := hk.of_perm (perm_others hk.distinct hx)
    obtain ⟨hown, hothers, apart⟩ := nodup_names_cons hdistinct
    simp only [Holdings.release, hx]
    generalize (h.held.filter fun y => !y.holders.contains name) = others at *
    rw [List.countP_cons] at hlending
    cases hrest : x.holders.filter (· != name) with
    | nil =>
      refine ⟨hothers, fun y hy => hholders y (List.mem_cons_of_mem x hy), ?_, ?_⟩
      · dsimp only
        split
        · exact hused.giveBack x.bindings
        · exact hused
      · dsimp only
        split
        · rename_i hpooled
          rw [if_pos hpooled, Nat.add_right_comm] at hlending
          exact hlending.giveBack x.bindings
        · rename_i hpooled
          rwa [if_neg hpooled, Nat.add_zero] at hlending
    | cons n rest =>
      have hsub : (n :: rest).Sublist x.holders := hrest ▸ List.filter_sublist
      refine ⟨?_, ?_, hused, ?_⟩
      · rw [names, List.flatMap_cons]
        refine List.nodup_append.mpr ⟨hown.sublist hsub, hothers, ?_⟩
        rintro a ha b hb rfl
        exact apart a (hsub.subset ha) hb
      · intro y hy
        rcases List.mem_cons.mp hy with rfl | hy
        · exact List.cons_ne_nil n rest
        · exact hholders y (List.mem_cons_of_mem x hy)
      · rw [List.countP_cons]
        exact hlending

/-- A name that has let go holds nothing. -/
theorem notMem_names_release (h : Holdings) (name : String) :
    name ∉ names (h.release name).held := by
  have hothers : name ∉ names (h.held.filter fun y => !y.holders.contains name) := by
    intro hin
    obtain ⟨y, hy, hn⟩ := List.mem_flatMap.mp hin
    simp [hn] at hy
  cases hx : h.find? name with
  | none =>
    simp only [Holdings.release, hx]
    intro hin
    obtain ⟨y, hy, hn⟩ := List.mem_flatMap.mp hin
    have := List.find?_eq_none.mp hx y hy
    simp [hn] at this
  | some x =>
    simp only [Holdings.release, hx]
    cases hrest : x.holders.filter (· != name) with
    | nil => exact hothers
    | cons n rest =>
      have hne : name ∉ n :: rest := by
        rw [← hrest]
        simp
      rw [names, List.flatMap_cons, List.mem_append, not_or]
      exact ⟨hne, hothers⟩

/-- Something new is held by a name that holds nothing. -/
theorem Kept.hold (hk : Kept capacity k h) {b : Bindings} {pooled : Bool}
    (hfree : name ∉ names h.held) {held : List Holding} (hheld : held = ⟨b, pooled, [name]⟩ :: h.held)
    {j : Nat} (hj : k = (if pooled = true then 1 else 0) + j) : Kept capacity j { h with held } := by
  subst hheld hj
  refine ⟨?_, ?_, hk.used, ?_⟩
  · rw [names, List.flatMap_cons]
    exact List.nodup_cons.mpr ⟨hfree, hk.distinct⟩
  · intro y hy
    rcases List.mem_cons.mp hy with rfl | hy
    · exact List.cons_ne_nil name []
    · exact hk.holders y hy
  · rw [List.countP_cons, Nat.add_assoc]
    exact hk.lending

theorem Kept.rent (hk : Kept capacity k h) (name : String) : Kept capacity k (h.rent name) := by
  have hrented : Kept capacity (k + 1) { h with pool := h.pool.rent.2 } :=
    ⟨hk.distinct, hk.holders, hk.used.rent, hk.lending.rent⟩
  exact (hrented.release name).hold (notMem_names_release _ name) rfl (Nat.add_comm k 1)

theorem Kept.detach (hk : Kept capacity k h) (name : String) : Kept capacity k (h.detach name) :=
  (hk.release name).hold (notMem_names_release _ name) rfl (Nat.zero_add k).symm

/-- What a name holds may be changed otherwise than in its holders. -/
theorem Kept.map (hk : Kept capacity k h) {f : Holding → Holding}
    (hf : ∀ x, (f x).holders = x.holders ∧ (f x).pooled = x.pooled) :
    Kept capacity k { h with held := h.held.map f } := by
  have hnames : names (h.held.map f) = names h.held := by
    simp [names, List.flatMap_map, hf]
  refine ⟨hnames ▸ hk.distinct, ?_, hk.used, ?_⟩
  · intro y hy
    obtain ⟨x, hx, rfl⟩ := List.mem_map.mp hy
    rw [(hf x).1]
    exact hk.holders x hx
  · have hcount : (h.held.map f).countP (·.pooled) = h.held.countP (·.pooled) := by
      rw [List.countP_map]
      exact List.countP_congr fun x _ => by simp [hf]
    rw [hcount]
    exact hk.lending

theorem Kept.insert (hk : Kept capacity k h) (holder name : String) (value : Value)
    (type : ValueType) : Kept capacity k (h.move (.insert holder name value type)) := by
  simp only [move, Holdings.insert]
  split
  · split
    · refine hk.map fun x => ?_
      split <;> exact ⟨rfl, rfl⟩
    · exact hk
  · exact hk

/-- Another name joins those that hold something. -/
def join (name other : String) (x : Holding) : Holding :=
  if x.holders.contains name then { x with holders := other :: x.holders } else x

theorem mem_names_join {held : List Holding} {n : String}
    (h : n ∈ names (held.map (join name other))) : n = other ∨ n ∈ names held := by
  obtain ⟨y, hy, hn⟩ := List.mem_flatMap.mp h
  obtain ⟨x, hx, rfl⟩ := List.mem_map.mp hy
  simp only [join] at hn
  split at hn
  · exact (List.mem_cons.mp hn).imp_right (mem_names hx)
  · exact .inr (mem_names hx hn)

theorem nodup_names_join {held : List Holding} (distinct : (names held).Nodup)
    (hfree : other ∉ names held) : (names (held.map (join name other))).Nodup := by
  induction held with
  | nil => exact .nil
  | cons y rest ih =>
    obtain ⟨hown, hrest, apart⟩ := nodup_names_cons distinct
    rw [names, List.flatMap_cons, List.mem_append, not_or] at hfree
    rw [names, List.map_cons, List.flatMap_cons]
    by_cases hy : name ∈ y.holders
    · -- nobody else holds anything under the name, so that nothing else is joined
      have hkept : rest.map (join name other) = rest := by
        refine (List.map_congr_left fun z hz => ?_).trans (List.map_id rest)
        have hz : name ∉ z.holders := fun hn => apart name hy (mem_names hz hn)
        simp [join, hz]
      have hjoined : (join name other y).holders = other :: y.holders := by simp [join, hy]
      rw [hkept, hjoined]
      refine List.nodup_append.mpr ⟨List.nodup_cons.mpr ⟨hfree.1, hown⟩, hrest, ?_⟩
      rintro a ha b hb rfl
      rcases List.mem_cons.mp ha with rfl | ha
      · exact hfree.2 hb
      · exact apart a ha hb
    · have hsame : (join name other y).holders = y.holders := by simp [join, hy]
      rw [hsame]
      refine List.nodup_append.mpr ⟨hown, ih hrest hfree.2, ?_⟩
      rintro a ha b hb rfl
      rcases mem_names_join hb with rfl | hb
      · exact hfree.1 ha
      · exact apart a ha hb

theorem Kept.share (hk : Kept capacity k h) (name other : String) :
    Kept capacity k (h.share name other) := by
  simp only [Holdings.share]
  split
  · exact hk
  · have hreleased := hk.release other
    have hfree := notMem_names_release h other
    generalize h.release other = r at hreleased hfree
    refine ⟨nodup_names_join hreleased.distinct hfree, ?_, hreleased.used, ?_⟩
    · intro y hy
      obtain ⟨x, hx, rfl⟩ := List.mem_map.mp hy
      split
      · exact List.cons_ne_nil other x.holders
      · exact hreleased.holders x hx
    · dsimp only
      have hcount : (r.held.map (join name other)).countP (·.pooled) =
          r.held.countP (·.pooled) := by
        rw [List.countP_map]
        apply List.countP_congr
        intro x _
        simp only [Function.comp, join]
        split <;> rfl
      exact hcount ▸ hreleased.lending

theorem Kept.move (hk : Kept capacity k h) (m : Move) : Kept capacity k (h.move m) := by
  cases m with
  | rent name => exact hk.rent name
  | detach name => exact hk.detach name
  | share name other => exact hk.share name other
  | release name => exact hk.release name
  | insert holder name value type => exact hk.insert holder name value type

theorem kept_after (capacity : Nat) (moves : List Move) :
    Kept capacity 0 ((ofPool (.ofCapacity capacity)).after moves) := by
  have hkept : Kept capacity 0 (ofPool (.ofCapacity capacity)) :=
    ⟨.nil, nofun, .fresh capacity, .fresh capacity⟩
  generalize ofPool (.ofCapacity capacity) = h at hkept ⊢
  induction moves generalizing h with
  | nil => exact hkept
  | cons m rest ih => exact ih _ (hkept.move m)

/-- Whatever is done with held bindings, no name holds two things, the pool is short of just those
pieces of its storage that somebody holds, and what it has is empty. A name that lets go gives the
storage back if it is the last that holds it, and else leaves the pool as it is. -/
theorem storage_returns_with_last_holder (capacity : Nat) (moves : List Move) :
    let h := (ofPool (.ofCapacity capacity)).after moves
    (names h.held).Nodup ∧ (∀ x ∈ h.held, x.holders ≠ []) ∧
    h.pool.outstanding = h.held.countP (·.pooled) ∧ h.pool.available ≤ capacity ∧
    (∀ b ∈ h.pool.free, b.entries = []) ∧
    ∀ name x, h.find? name = some x → (h.release name).pool =
      if (∀ n ∈ x.holders, n = name) ∧ x.pooled = true then h.pool.giveBack x.bindings
      else h.pool := by
  intro h
  have hkept := kept_after capacity moves
  exact ⟨hkept.distinct, hkept.holders, hkept.lending.out, hkept.lending.kept,
    hkept.used.free_entries, fun name x => pool_release⟩

/-- Just these names hold something of the pool's. -/
structure HeldBy (h : Holdings) (x : Holding) (order : List String) : Prop where
  distinct : order.Nodup
  nonempty : order ≠ []
  each : ∀ n ∈ order, h.find? n = some x
  all : x.holders.Perm order
  pooled : x.pooled = true

/-- One of several names lets go: the others hold what is left, and the pool stays as it is. -/
theorem HeldBy.release {order : List String} (hx : h.HeldBy x (name :: order))
    (nonempty : order ≠ []) : ∃ holders, (h.release name).pool = h.pool ∧
      (h.release name).HeldBy { x with holders } order := by
  obtain ⟨hfresh, hdistinct⟩ := List.nodup_cons.mp hx.distinct
  have hleft : (x.holders.filter (· != name)).Perm order := by
    have hfiltered := hx.all.filter (· != name)
    have hall : order.filter (· != name) = order := by
      rw [List.filter_eq_self]
      intro n hn
      simpa using fun he : n = name => hfresh (he ▸ hn)
    rwa [List.filter_cons_of_neg (by simp), hall] at hfiltered
  cases hholders : x.holders.filter (· != name) with
  | nil =>
    rw [hholders] at hleft
    exact absurd hleft.symm.eq_nil nonempty
  | cons n rest =>
    have hreleased : h.release name = { h with held :=
        { x with holders := n :: rest } :: h.held.filter (!·.holders.contains name) } := by
      simp only [Holdings.release, hx.each name List.mem_cons_self, hholders]
    rw [hholders] at hleft
    refine ⟨n :: rest, by rw [hreleased], hdistinct, nonempty, ?_, hleft, hx.pooled⟩
    intro m hm
    rw [hreleased, find?, List.find?_cons_of_pos]
    simpa using hleft.mem_iff.mpr hm

/-- All that hold the same let go of it one after another, in any order: its storage goes back once,
at the end. -/
theorem HeldBy.pool_releaseAll {order : List String} (hx : h.HeldBy x order) :
    (order.foldl Holdings.release h).pool = h.pool.giveBack x.bindings := by
  induction order generalizing h x with
  | nil => exact absurd rfl hx.nonempty
  | cons n rest ih =>
    rw [List.foldl_cons]
    cases rest with
    | nil =>
      rw [List.foldl_nil, pool_release (hx.each n List.mem_cons_self), if_pos]
      exact ⟨fun m hm => List.mem_singleton.mp (hx.all.mem_iff.mp hm), hx.pooled⟩
    | cons m rest =>
      obtain ⟨holders, hpool, hleft⟩ := hx.release (List.cons_ne_nil m rest)
      rw [ih hleft, hpool]

end CommandConsole.Holdings
