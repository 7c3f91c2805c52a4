import CommandConsole.Table

/-! What happens to conversations, and the order in which they are to make room. -/
namespace CommandConsole

/-- What can happen to the conversation of a key. -/
inductive Happening where
  /-- It asks for a line, and none was open under its key. -/
  | opened (key : String)
  /-- It asks for a line in place of the one that was open under its key. -/
  | replaced (key : String)
  /-- A reply to it has trouble in its delimiters. -/
  | misread (key : String)
  /-- Its callback takes a reply, or its host ends it. -/
  | left (key : String)
  /-- It makes room for another. -/
  | abandoned (key : String)
  deriving DecidableEq

namespace Happening

/-- Whether the conversation of a key comes to stand behind all others. -/
def places (key : String) (h : Happening) : Bool := h = .opened key ∨ h = .misread key

/-- Whether the conversation of a key has been given a new answer to wait on. -/
def asks (key : String) (h : Happening) : Bool := h = .opened key ∨ h = .replaced key

def abandoned? : Happening → Option String
  | .abandoned key => some key
  | _ => none

/-- The keys of open conversations after some happenings, the latest of these first. The first key is
the first to make room. -/
def openKeys : List Happening → List String
  | [] => []
  | .opened key :: past | .misread key :: past => (openKeys past).erase key ++ [key]
  | .replaced _ :: past => openKeys past
  | .left key :: past | .abandoned key :: past => (openKeys past).erase key

/-- For how many happenings the conversation of a key has kept its place. -/
def sincePlaced (past : List Happening) (key : String) : Nat := past.findIdx (places key)

/-- For how many happenings the conversation of a key has waited on its present answer. -/
def sinceAsked (past : List Happening) (key : String) : Nat := past.findIdx (asks key)

/-- Histories in which one conversation is opened for each key at a time, nothing happens to one
that is not open, and the first in place is the one to make room. -/
inductive Lawful : List Happening → Prop where
  | nil : Lawful []
  | opened {past : List Happening} {key : String} (h : Lawful past) (free : key ∉ openKeys past) :
      Lawful (.opened key :: past)
  | replaced {past : List Happening} {key : String} (h : Lawful past)
      (waiting : key ∈ openKeys past) : Lawful (.replaced key :: past)
  | misread {past : List Happening} {key : String} (h : Lawful past)
      (waiting : key ∈ openKeys past) : Lawful (.misread key :: past)
  | left {past : List Happening} {key : String} (h : Lawful past) (waiting : key ∈ openKeys past) :
      Lawful (.left key :: past)
  | abandoned {past : List Happening} {key : String} (h : Lawful past)
      (first : (openKeys past).head? = some key) : Lawful (.abandoned key :: past)

variable {past : List Happening} {key other : String}

theorem Lawful.tail {h : Happening} (hl : Lawful (h :: past)) : Lawful past := by
  cases hl <;> assumption

theorem Lawful.of_append {later before : List Happening} (h : Lawful (later ++ before)) :
    Lawful before := by
  induction later with
  | nil => exact h
  | cons x later ih => exact ih h.tail

theorem sincePlaced_cons (h : Happening) (past : List Happening) (key : String) :
    sincePlaced (h :: past) key = if places key h then 0 else sincePlaced past key + 1 := by
  rw [sincePlaced, List.findIdx_cons]
  cases places key h <;> rfl

theorem sinceAsked_cons (h : Happening) (past : List Happening) (key : String) :
    sinceAsked (h :: past) key = if asks key h then 0 else sinceAsked past key + 1 := by
  rw [sinceAsked, List.findIdx_cons]
  cases asks key h <;> rfl

/-- A key with another that is placed before it. -/
def Before (past : List Happening) (key other : String) : Prop :=
  sincePlaced past other < sincePlaced past key

/-- A happening that places neither of two keys leaves them in order. -/
theorem Before.cons {h : Happening} (hb : Before past key other) (hk : places key h = false)
    (ho : places other h = false) : Before (h :: past) key other := by
  simp only [Before, sincePlaced_cons, hk, ho]
  simpa [Before] using hb

theorem nodup_of_before {keys : List String} (h : keys.Pairwise (Before past)) : keys.Nodup := by
  refine h.imp ?_
  rintro a _ hab rfl
  exact Nat.lt_irrefl _ hab

/-- The key that is placed last comes behind the others. -/
theorem before_append_placed {h : Happening} {keys : List String} (hs : keys.Pairwise (Before past))
    (hp : ∀ k, places k h = decide (k = key)) :
    (keys.erase key ++ [key]).Pairwise (Before (h :: past)) := by
  have hne : ∀ a ∈ keys.erase key, places a h = false := by
    intro a ha
    rw [hp, decide_eq_false_iff_not]
    rintro rfl
    exact (nodup_of_before hs).not_mem_erase ha
  rw [List.pairwise_append]
  refine ⟨?_, List.pairwise_singleton _ _, ?_⟩
  · exact (hs.sublist List.erase_sublist).imp_of_mem fun ha hb hab => hab.cons (hne _ ha) (hne _ hb)
  · intro a ha b hb
    rw [List.mem_singleton] at hb
    subst hb
    simp [Before, sincePlaced_cons, hne a ha, hp]

/-- Open conversations stand in the order in which they came to their places. -/
theorem openKeys_before (past : List Happening) : (openKeys past).Pairwise (Before past) := by
  induction past with
  | nil => exact .nil
  | cons h past ih =>
    cases h with
    | opened key => exact before_append_placed ih (by simp [places, eq_comm])
    | misread key => exact before_append_placed ih (by simp [places, eq_comm])
    | replaced key => exact ih.imp fun hab => hab.cons (by simp [places]) (by simp [places])
    | left key =>
      exact (ih.sublist List.erase_sublist).imp fun hab =>
        hab.cons (by simp [places]) (by simp [places])
    | abandoned key =>
      exact (ih.sublist List.erase_sublist).imp fun hab =>
        hab.cons (by simp [places]) (by simp [places])

theorem Lawful.mem_openKeys {h : Happening} (hl : Lawful (h :: past))
    (hk : key ∈ openKeys (h :: past)) : h = .opened key ∨ key ∈ openKeys past := by
  cases hl with
  | @opened _ k _ free =>
    rcases List.mem_append.mp hk with hk | hk
    · exact Or.inr (List.mem_of_mem_erase hk)
    · exact Or.inl (by rw [List.mem_singleton.mp hk])
  | misread _ waiting =>
    rcases List.mem_append.mp hk with hk | hk
    · exact Or.inr (List.mem_of_mem_erase hk)
    · exact Or.inr (List.mem_singleton.mp hk ▸ waiting)
  | replaced _ waiting => exact Or.inr hk
  | left _ waiting => exact Or.inr (List.mem_of_mem_erase hk)
  | abandoned _ first => exact Or.inr (List.mem_of_mem_erase hk)

/-- Whatever is open has asked for a line at some time. -/
theorem Lawful.asked (hl : Lawful past) (hk : key ∈ openKeys past) :
    sinceAsked past key < past.length := by
  induction past with
  | nil => cases hk
  | cons h past ih =>
    rw [sinceAsked_cons, List.length_cons]
    rcases hl.mem_openKeys hk with rfl | hk
    · simp [asks]
    · have hlt := ih hl.tail hk
      split <;> omega

theorem findIdx_le_findIdx {α : Type} {p q : α → Bool} {l : List α}
    (h : ∀ x ∈ l.take (l.findIdx p), q x = true → p x = true) : l.findIdx p ≤ l.findIdx q := by
  rcases Nat.lt_or_ge (l.findIdx q) (l.findIdx p) with hlt | hge
  · have hlen : l.findIdx q < l.length := Nat.lt_of_lt_of_le hlt List.findIdx_le_length
    have hmem : l[l.findIdx q] ∈ l.take (l.findIdx p) := by
      rw [List.mem_take_iff_getElem]
      exact ⟨l.findIdx q, by omega, rfl⟩
    have hp := h _ hmem (List.findIdx_getElem)
    rw [List.not_of_lt_findIdx hlt] at hp
    cases hp
  · exact hge

/-- A conversation that has not been replaced since it came to its place has not waited for less
long. -/
theorem sincePlaced_le_sinceAsked
    (h : .replaced key ∉ past.take (sincePlaced past key)) :
    sincePlaced past key ≤ sinceAsked past key := by
  apply findIdx_le_findIdx
  intro x hx hasks
  rcases (by simpa [asks] using hasks : x = .opened key ∨ x = .replaced key) with rfl | rfl
  · simp [places]
  · exact absurd hx h

/-- A conversation that has had no reply refused since it asked for one has kept its place as
long. -/
theorem sinceAsked_le_sincePlaced
    (h : .misread key ∉ past.take (sinceAsked past key)) :
    sinceAsked past key ≤ sincePlaced past key := by
  apply findIdx_le_findIdx
  intro x hx hplaces
  rcases (by simpa [places] using hplaces : x = .opened key ∨ x = .misread key) with rfl | rfl
  · simp [asks]
  · exact absurd hx h

/-- The first in place has kept its place the longest. -/
theorem placed_before_of_head (first : (openKeys past).head? = some key) (ho : other ∈ openKeys past)
    (hne : other ≠ key) : Before past key other := by
  have hsorted := openKeys_before past
  generalize openKeys past = keys at first ho hsorted
  cases keys with
  | nil => cases first
  | cons k rest =>
    simp only [List.head?_cons, Option.some.injEq] at first
    subst first
    exact List.rel_of_pairwise_cons hsorted ((List.mem_cons.mp ho).resolve_left hne)

end Happening
end CommandConsole
