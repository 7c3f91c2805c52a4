import CommandConsole.Proofs.Signature.Build
import CommandConsole.Proofs.Signature.Choice
import Mathlib.Data.List.Perm.Basic
import Mathlib.Order.Monotone.Basic

/-! The order in which overloads are preferred: what requires more parameters comes first, and of
equals what was declared first, whatever else is declared that does not accept. -/
namespace CommandConsole.Signature

/-- How many parameters must be given. -/
def needed (s : Signature) : Nat := (s.parameters.filter (!·.isOptional)).length

/-- One word at least for each parameter that must be given, and no more words than parameters,
unless there is a remainder. -/
def Takes (s : Signature) (provided : Nat) : Prop :=
  s.needed ≤ provided ∧
    ((∃ p ∈ s.parameters, p.isRemainder = true) ∨ provided ≤ s.parameters.length)

instance (s : Signature) (provided : Nat) : Decidable (s.Takes provided) :=
  inferInstanceAs (Decidable (_ ∧ _))

/-- The order of preference. -/
def Candidate.Before (a b : Candidate) : Prop :=
  b.specificity < a.specificity ∨ b.specificity = a.specificity ∧ a.index < b.index

/-- Some overloads are left out, none of which accepts so many words. The others are kept in their
order, and `place` tells where each of them was. -/
structure Thinned (provided : Nat) (overloads kept : List Signature) (place : Nat → Nat) :
    Prop where
  ordered : StrictMono place
  stays : ∀ i s, kept[i]? = some s → overloads[place i]? = some s
  accepting : ∀ j s, overloads[j]? = some s → s.accepts provided = true →
    ∃ i, kept[i]? = some s ∧ place i = j

variable {s : Signature} {overloads kept : List Signature} {provided : Nat} {place : Nat → Nat}
  {a b : Candidate} {i : Nat}

theorem Built.required_eq (h : s.Built) : s.required = s.needed := by
  obtain ⟨d, r, h⟩ := h
  simp only [Draft.build] at h
  split at h
  · cases h
  · have hempty : Signature.empty = ofParameters [] := rfl
    rw [hempty, addAll_eq_ok_iff (by simp)] at h
    obtain ⟨ps, -, -, -, rfl⟩ := h
    rfl

theorem Built.accepts_iff (h : s.Built) : s.accepts provided = true ↔ s.Takes provided := by
  rw [accepts, Bool.and_eq_true, Bool.or_eq_true, decide_eq_true_eq, decide_eq_true_eq, Takes,
    ← h.wellFormed.hasRemainder_iff, h.wellFormed.counted, h.required_eq]

namespace Candidate

theorem Before.asymm (h : a.Before b) : ¬ b.Before a := by
  simp only [Before] at h ⊢
  omega

theorem Before.ne (h : a.Before b) : a ≠ b := by
  rintro rfl
  exact h.asymm h

/-- How candidates are compared when they are sorted. -/
def fitsAsWell (a b : Candidate) : Bool := b.specificity ≤ a.specificity

theorem fitsAsWell_trans (a b c : Candidate) (hab : a.fitsAsWell b = true)
    (hbc : b.fitsAsWell c = true) : a.fitsAsWell c = true := by
  simp only [fitsAsWell, decide_eq_true_eq] at hab hbc ⊢
  omega

theorem fitsAsWell_total (a b : Candidate) : (a.fitsAsWell b || b.fitsAsWell a) = true := by
  simp only [fitsAsWell, Bool.or_eq_true, decide_eq_true_eq]
  omega

/-- The sort is stable: those of one rank stay as they were. -/
theorem filter_mergeSort (candidates : List Candidate) (rank : Nat) :
    (candidates.mergeSort fitsAsWell).filter (·.specificity == rank) =
      candidates.filter (·.specificity == rank) := by
  have hequal : (candidates.filter (·.specificity == rank)).Pairwise
      fun a b => a.fitsAsWell b = true := by
    refine List.pairwise_of_forall_mem_list fun a ha b hb => ?_
    have harank : a.specificity = rank := by simpa using (List.mem_filter.mp ha).2
    have hbrank : b.specificity = rank := by simpa using (List.mem_filter.mp hb).2
    simp [fitsAsWell, harank, hbrank]
  have hsub := List.sublist_mergeSort fitsAsWell_trans fitsAsWell_total hequal List.filter_sublist
  have hperm := List.mergeSort_perm candidates fitsAsWell
  have hlen := (hperm.filter (·.specificity == rank)).length_eq
  have hkept := (hsub.filter (·.specificity == rank)).eq_of_length (by simp [hlen])
  rw [← hkept, List.filter_filter]
  simp

end Candidate

/-- The overloads that accept, as they are declared. -/
def accepting (overloads : List Signature) (provided : Nat) : List Candidate :=
  (overloads.zipIdx.filter fun (s, _) => s.accepts provided).map fun (s, i) => ⟨i, s.required⟩

theorem feasible_eq (overloads : List Signature) (provided : Nat) :
    feasible overloads provided = (accepting overloads provided).mergeSort Candidate.fitsAsWell :=
  rfl

theorem pairwise_accepting (overloads : List Signature) (provided : Nat) :
    (accepting overloads provided).Pairwise fun a b => a.index < b.index := by
  have hplaces : overloads.zipIdx.Pairwise fun x y => x.2 < y.2 := by
    rw [← List.pairwise_map, List.zipIdx_map_snd]
    exact List.pairwise_lt_range'
  exact List.pairwise_map.mpr (hplaces.filter _)

theorem pairwise_feasible (overloads : List Signature) (provided : Nat) :
    (feasible overloads provided).Pairwise Candidate.Before := by
  rw [feasible_eq, List.pairwise_iff_forall_sublist]
  intro a b hab
  have hrank : b.specificity ≤ a.specificity :=
    of_decide_eq_true (List.pairwise_iff_forall_sublist.mp (List.pairwise_mergeSort
      Candidate.fitsAsWell_trans Candidate.fitsAsWell_total (accepting overloads provided)) hab)
  rcases Nat.lt_or_eq_of_le hrank with hlt | heq
  · exact .inl hlt
  · have hequals := hab.filter (·.specificity == a.specificity)
    rw [Candidate.filter_mergeSort] at hequals
    have hdeclared : [a, b].Sublist (accepting overloads provided) := by
      simpa [heq] using hequals.trans List.filter_sublist
    exact .inr ⟨heq, List.pairwise_iff_forall_sublist.mp (pairwise_accepting _ _) hdeclared⟩

/-- Candidates in the order of preference are determined by which they are. -/
theorem eq_of_pairwise {l m : List Candidate} (hl : l.Pairwise Candidate.Before)
    (hm : m.Pairwise Candidate.Before) (h : ∀ a, a ∈ l ↔ a ∈ m) : l = m := by
  refine List.Perm.eq_of_pairwise (fun a b _ _ hab hba => (hab.asymm hba).elim) hl hm ?_
  exact (List.perm_ext_iff_of_nodup (hl.imp Candidate.Before.ne) (hm.imp Candidate.Before.ne)).mpr h

/-- What is chosen is preferred to all others that accept. -/
theorem select?_eq_some_iff : select? overloads provided = some i ↔
    ∃ a ∈ feasible overloads provided, a.index = i ∧
      ∀ b ∈ feasible overloads provided, b ≠ a → a.Before b := by
  have hpairs := pairwise_feasible overloads provided
  rw [select?, Option.map_eq_some_iff]
  generalize feasible overloads provided = candidates at hpairs ⊢
  cases candidates with
  | nil => simp
  | cons first rest =>
    have hfirst := (List.pairwise_cons.mp hpairs).1
    constructor
    · rintro ⟨a, ⟨⟩, rfl⟩
      refine ⟨first, List.mem_cons_self, rfl, fun b hb hne => ?_⟩
      exact hfirst b ((List.mem_cons.mp hb).resolve_left hne)
    · rintro ⟨a, ha, rfl, hbest⟩
      rcases List.mem_cons.mp ha with rfl | ha
      · exact ⟨a, rfl, rfl⟩
      · have hbefore := hfirst a ha
        exact (hbefore.asymm (hbest first List.mem_cons_self hbefore.ne)).elim

/-- What does not accept has no part in the choice. -/
theorem Thinned.feasible_eq (h : Thinned provided overloads kept place) :
    feasible overloads provided =
      (feasible kept provided).map fun a => ⟨place a.index, a.specificity⟩ := by
  apply eq_of_pairwise (pairwise_feasible _ _)
  · refine List.pairwise_map.mpr ((pairwise_feasible kept provided).imp fun {a b} hab => ?_)
    exact hab.imp_right fun ⟨heq, hlt⟩ => ⟨heq, h.ordered hlt⟩
  · intro a
    rw [List.mem_map, mem_feasible_iff]
    constructor
    · rintro ⟨s, hs, haccepts, hrank⟩
      obtain ⟨i, hi, hplace⟩ := h.accepting _ s hs haccepts
      refine ⟨⟨i, a.specificity⟩, mem_feasible_iff.mpr ⟨s, hi, haccepts, hrank⟩, ?_⟩
      rw [hplace]
    · rintro ⟨b, hb, rfl⟩
      obtain ⟨s, hs, haccepts, hrank⟩ := mem_feasible_iff.mp hb
      exact ⟨s, h.stays _ s hs, haccepts, hrank⟩

theorem Thinned.select?_eq (h : Thinned provided overloads kept place) :
    select? overloads provided = (select? kept provided).map place := by
  rw [select?, h.feasible_eq, select?, List.head?_map, Option.map_map, Option.map_map]
  rfl

/-- Overloads that do not accept may be declared at any place, or left out. -/
theorem thinned_insert (before idle after : List Signature)
    (h : ∀ s ∈ idle, s.accepts provided = false) :
    Thinned provided (before ++ (idle ++ after)) (before ++ after)
      fun i => if i < before.length then i else i + idle.length := by
  refine ⟨fun i j hij => ?_, fun i s hs => ?_, fun j s hs haccepts => ?_⟩
  · show (if i < _ then i else _) < if j < _ then j else _
    split <;> split <;> omega
  · split
    · rename_i hi
      rw [List.getElem?_append_left hi] at hs ⊢
      exact hs
    · rename_i hi
      rw [List.getElem?_append_right (by omega)] at hs ⊢
      rw [List.getElem?_append_right (by omega), ← hs]
      congr 1
      omega
  · by_cases hj : j < before.length
    · rw [List.getElem?_append_left hj] at hs
      exact ⟨j, by rw [List.getElem?_append_left hj, hs], by simp [hj]⟩
    rw [List.getElem?_append_right (by omega)] at hs
    by_cases hidle : j - before.length < idle.length
    · rw [List.getElem?_append_left hidle] at hs
      rw [h s (List.mem_of_getElem? hs)] at haccepts
      cases haccepts
    · rw [List.getElem?_append_right (by omega)] at hs
      refine ⟨j - idle.length, ?_, ?_⟩
      · rw [List.getElem?_append_right (by omega), ← hs]
        congr 1
        omega
      · rw [if_neg (by omega)]
        omega

theorem mem_feasible_of_built (built : ∀ s ∈ overloads, s.Built) :
    a ∈ feasible overloads provided ↔
      ∃ s, overloads[a.index]? = some s ∧ s.Takes provided ∧ a.specificity = s.needed := by
  rw [mem_feasible_iff]
  refine exists_congr fun s => and_congr_right fun hs => ?_
  have hbuilt := built s (List.mem_of_getElem? hs)
  rw [hbuilt.accepts_iff, hbuilt.required_eq, eq_comm]

/-- An overload is listed once. -/
theorem eq_of_index_eq (ha : a ∈ feasible overloads provided)
    (hb : b ∈ feasible overloads provided) (h : a.index = b.index) : a = b := by
  obtain ⟨i, m⟩ := a
  obtain ⟨j, n⟩ := b
  obtain rfl : i = j := h
  obtain ⟨s, hs, -, rfl⟩ := mem_feasible_iff.mp ha
  obtain ⟨t, ht, -, rfl⟩ := mem_feasible_iff.mp hb
  rw [Option.some.inj (hs.symm.trans ht)]

/-- An overload takes a number of words if it has a parameter for each of them, or a remainder, and
a word for each parameter that must be given. Of those that take the words the one is chosen that
has the most parameters which must be given, and of equals the one declared first; none is chosen
only if none takes the words. All of them are listed in this order, each once. Overloads that do not
take the words may be added or left out anywhere: but for the places, the list and the choice stay
the same. -/
theorem choice_is_best_fit (overloads : List Signature) (provided : Nat)
    (built : ∀ s ∈ overloads, s.Built) :
    (∀ i, select? overloads provided = some i ↔
      ∃ s, overloads[i]? = some s ∧ s.Takes provided ∧
        ∀ j t, overloads[j]? = some t → t.Takes provided → j ≠ i →
          t.needed < s.needed ∨ t.needed = s.needed ∧ i < j) ∧
    (select? overloads provided = none ↔ ∀ s ∈ overloads, ¬ s.Takes provided) ∧
    (∀ a, a ∈ feasible overloads provided ↔
      ∃ s, overloads[a.index]? = some s ∧ s.Takes provided ∧ a.specificity = s.needed) ∧
    (feasible overloads provided).Pairwise Candidate.Before ∧
    ((feasible overloads provided).map (·.index)).Nodup ∧
    ∀ kept place, Thinned provided overloads kept place →
      feasible overloads provided =
        (feasible kept provided).map (fun a => ⟨place a.index, a.specificity⟩) ∧
      select? overloads provided = (select? kept provided).map place := by
  have hmem : ∀ a, a ∈ feasible overloads provided ↔
      ∃ s, overloads[a.index]? = some s ∧ s.Takes provided ∧ a.specificity = s.needed :=
    fun a => mem_feasible_of_built built
  have hpairs := pairwise_feasible overloads provided
  refine ⟨fun i => ?_, ?_, hmem, hpairs, ?_, fun kept place h => ⟨h.feasible_eq, h.select?_eq⟩⟩
  · rw [select?_eq_some_iff]
    constructor
    · rintro ⟨a, ha, rfl, hbest⟩
      obtain ⟨s, hs, htakes, hrank⟩ := (hmem a).mp ha
      refine ⟨s, hs, htakes, fun j t ht htakes hne => ?_⟩
      have hbefore := hbest ⟨j, t.needed⟩ ((hmem _).mpr ⟨t, ht, htakes, rfl⟩)
        fun heq => hne (congrArg Candidate.index heq)
      rwa [Candidate.Before, hrank] at hbefore
    · rintro ⟨s, hs, htakes, hbest⟩
      have ha : ⟨i, s.needed⟩ ∈ feasible overloads provided := (hmem _).mpr ⟨s, hs, htakes, rfl⟩
      refine ⟨_, ha, rfl, fun b hb hne => ?_⟩
      obtain ⟨t, ht, htakes, hrank⟩ := (hmem b).mp hb
      rw [Candidate.Before, hrank]
      exact hbest b.index t ht htakes fun heq => hne (eq_of_index_eq hb ha heq)
  · rw [Option.eq_none_iff_forall_ne_some]
    have hexists : (∃ i, select? overloads provided = some i) ↔
      ∃ s ∈ overloads, s.accepts provided = true := exists_select?_iff
    constructor
    · intro hnone s hs htakes
      obtain ⟨i, hi⟩ := hexists.mpr ⟨s, hs, (built s hs).accepts_iff.mpr htakes⟩
      exact hnone i hi
    · intro hnone i hi
      obtain ⟨s, hs, haccepts⟩ := hexists.mp ⟨i, hi⟩
      exact hnone s hs ((built s hs).accepts_iff.mp haccepts)
  · exact List.Nodup.map_on (fun a ha b hb => eq_of_index_eq ha hb)
      (hpairs.imp Candidate.Before.ne)

/-- `give <text...>`, `give <item:string>`, `give <item:string> [count:int=1]` and
`give <who:string> <text...>` -/
def give : List Signature :=
  [Draft.empty.remainder "text", Draft.empty.argument "item" .text,
    (Draft.empty.argument "item" .text).optional "count" .int (.int 1),
    (Draft.empty.argument "who" .text).remainder "text"].filterMap
      fun d => (d.build .builtin).toOption

theorem built_of_mem_filterMap {drafts : List Draft} {r : ParserRegistry}
    (h : s ∈ drafts.filterMap fun d => (d.build r).toOption) : s.Built := by
  obtain ⟨d, -, hd⟩ := List.mem_filterMap.mp h
  refine ⟨d, r, ?_⟩
  cases hbuild : d.build r with
  | error e => simp [hbuild, Except.toOption] at hd
  | ok t =>
    rw [hbuild] at hd
    exact congrArg _ (Option.some.inj hd)

/-- Two words go to the overload with two parameters that must be given, one word to the first that
has one. The overload for a single item has no part in the former. -/
theorem give_takes_words : (∀ s ∈ give, s.Built) ∧ give.map (·.needed) = [1, 1, 1, 2] ∧
    select? give 2 = some 3 ∧ select? give 1 = some 0 ∧ select? give 0 = none ∧
    select? (give.eraseIdx 1) 2 = some 2 := by
  have built : ∀ s ∈ give, s.Built := fun s => built_of_mem_filterMap
  have chosen : ∀ provided i s, give[i]? = some s → s.Takes provided →
      (∀ x ∈ give.zipIdx, x.1.Takes provided → x.2 ≠ i →
        x.1.needed < s.needed ∨ x.1.needed = s.needed ∧ i < x.2) →
      select? give provided = some i := by
    intro provided i s hs htakes hbest
    refine ((choice_is_best_fit give provided built).1 i).mpr ⟨s, hs, htakes, fun j t ht => ?_⟩
    exact hbest (t, j) (List.mk_mem_zipIdx_iff_getElem?.mpr ht)
  have two : select? give 2 = some 3 := chosen 2 3 _ rfl (by decide) (by decide)
  refine ⟨built, rfl, two, chosen 1 0 _ rfl (by decide) (by decide), ?_, ?_⟩
  · refine (choice_is_best_fit give 0 built).2.1.mpr ?_
    decide
  · have thinned : Thinned 2 give (give.eraseIdx 1) fun i => if i < 1 then i else i + 1 :=
      thinned_insert (give.take 1) ((give.drop 1).take 1) (give.drop 2) (by decide)
    obtain ⟨-, -, -, -, -, hthinned⟩ := choice_is_best_fit give 2 built
    have hplace := (hthinned _ _ thinned).2
    rw [two] at hplace
    obtain ⟨i, hi, hthree⟩ := Option.map_eq_some_iff.mp hplace.symm
    have htwo : i = 2 := by
      split at hthree <;> omega
    exact htwo ▸ hi

end CommandConsole.Signature
