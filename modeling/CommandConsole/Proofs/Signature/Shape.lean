import CommandConsole.Signature

/-! What the parameters of a signature are like, once its draft is checked. -/
namespace CommandConsole

/-- A remainder cannot be left out, and the key is the name in lower case. -/
structure Parameter.Checked (p : Parameter) : Prop where
  keyed : p.key = Text.lowercase p.name
  remainder : p.isRemainder = true → p.default = none

namespace Declaration

variable {d : Declaration} {type : ValueType} {name : String} {r : ParserRegistry} {p : Parameter}

theorem resolveDefault_of_required {v : Option Value} (h : d.resolveDefault type = .ok v)
    (hr : d.isOptional = false) : v = none := by
  simp only [resolveDefault, hr] at h
  cases hd : d.default with
  | none =>
    simp only [hd] at h
    injection h with h
    exact h.symm
  | some w =>
    simp only [hd] at h
    cases h

theorem checkParts_checked (h : d.checkParts name type r = .ok p) : p.Checked := by
  simp only [checkParts] at h
  split at h
  · cases h
  split at h
  · cases h
  rename_i hproblem
  split at h
  · cases h
  rename_i default hdefault
  injection h with h
  subst h
  refine ⟨rfl, ?_⟩
  intro hremainder
  apply resolveDefault_of_required hdefault
  simp only [remainderProblem?] at hproblem
  split at hproblem
  · cases hproblem
  split at hproblem
  · cases hproblem
  rename_i hoptional
  cases ho : d.isOptional with
  | false => rfl
  | true => exact absurd ⟨hremainder, ho⟩ hoptional

/-- A declaration that passes its check has a name and a type. -/
theorem checkParts_of_check (h : d.check r = .ok p) :
    ∃ name type, d.checkParts name type r = .ok p := by
  simp only [check] at h
  split at h
  · cases h
  split at h
  · cases h
  split at h
  · cases h
  split at h
  · cases h
  · rename_i hparts
    injection h with h
    subst h
    exact ⟨_, _, hparts⟩

theorem check_checked (h : d.check r = .ok p) : p.Checked := by
  obtain ⟨name, type, hparts⟩ := checkParts_of_check h
  exact checkParts_checked hparts

end Declaration

namespace Signature

/-- Names differ in lower case, what may be left out comes last, and so does a remainder. -/
structure WellFormed (s : Signature) : Prop where
  checked : ∀ p ∈ s.parameters, p.Checked
  distinct : (s.parameters.map (·.key)).Nodup
  counted : s.parameters.length = s.required + s.optional
  ordered : ∀ i p, s.parameters[i]? = some p → (p.default = none ↔ i < s.required)
  remainderLast : ∀ i p, s.parameters[i]? = some p → p.isRemainder = true →
    i + 1 = s.parameters.length
  hasRemainder_iff : s.hasRemainder = true ↔ ∃ p ∈ s.parameters, p.isRemainder = true

variable {s s' : Signature} {p : Parameter} {isLast : Bool} {r : ParserRegistry} {provided : Nat}

theorem getElem?_concat {α : Type} {l : List α} {a b : α} {i : Nat}
    (h : (l ++ [a])[i]? = some b) :
    (i < l.length ∧ l[i]? = some b) ∨ (i = l.length ∧ b = a) := by
  rw [List.getElem?_append] at h
  split at h
  · rename_i hi
    exact .inl ⟨hi, h⟩
  · rename_i hi
    have hlt := (List.getElem?_eq_some_iff.mp h).1
    rw [List.length_singleton] at hlt
    have hzero : i - l.length = 0 := by omega
    rw [hzero] at h
    injection h with h
    exact .inr ⟨by omega, h.symm⟩

theorem wellFormed_empty : WellFormed .empty := by
  constructor <;> simp [empty]

theorem find?_eq_none (h : ¬ (s.find? p.name).isSome = true) (hp : p.Checked) :
    p.key ∉ s.parameters.map (·.key) := by
  intro hin
  obtain ⟨q, hq, hkey⟩ := List.mem_map.mp hin
  apply h
  rw [find?, List.find?_isSome]
  exact ⟨q, hq, by simp [hkey, hp.keyed]⟩

/-- A checked parameter is added where it fits. -/
theorem add_wellFormed (h : s.WellFormed) (hp : p.Checked) (hs : s.hasRemainder = false)
    (hadd : s.add p isLast = .ok s') :
    s'.WellFormed ∧ (isLast = false → s'.hasRemainder = false) := by
  have hnone : ∀ q ∈ s.parameters, ¬ q.isRemainder = true := by
    intro q hq hqr
    rw [h.hasRemainder_iff.mpr ⟨q, hq, hqr⟩] at hs
    cases hs
  simp only [add] at hadd
  split at hadd
  · cases hadd
  rename_i hfresh
  split at hadd
  · cases hadd
  rename_i hlast
  split at hadd
  · cases hadd
  rename_i hplace
  injection hadd with hadd
  subst hadd
  have hkey := find?_eq_none hfresh hp
  have hcount := h.counted
  refine ⟨⟨?_, ?_, ?_, ?_, ?_, ?_⟩, ?_⟩
  · intro q hq
    rcases List.mem_append.mp hq with hq | hq
    · exact h.checked q hq
    · rw [List.mem_singleton] at hq
      exact hq ▸ hp
  · rw [List.map_append, List.nodup_append]
    refine ⟨h.distinct, by simp, ?_⟩
    intro a ha b hb hab
    rw [List.map_singleton, List.mem_singleton] at hb
    subst hb hab
    exact hkey ha
  · simp only [List.length_append, List.length_singleton]
    cases hd : p.isOptional
    · simp only [Bool.false_eq_true, if_false]
      omega
    · simp only [if_true]
      omega
  · intro i q hq
    cases hd : p.default with
    | none =>
      have hrequired : s.optional = 0 := by
        simp only [Parameter.isOptional, hd] at hplace
        simpa using hplace
      simp only [Parameter.isOptional, hd, Option.isSome_none, Bool.false_eq_true, if_false]
      rcases getElem?_concat hq with ⟨hi, hq⟩ | ⟨rfl, rfl⟩
      · rw [h.ordered i q hq]
        omega
      · simp only [hd, true_iff]
        omega
    | some v =>
      simp only [Parameter.isOptional, hd, Option.isSome_some, if_true]
      rcases getElem?_concat hq with ⟨hi, hq⟩ | ⟨rfl, rfl⟩
      · exact h.ordered i q hq
      · simp only [hd, reduceCtorEq, false_iff]
        omega
  · intro i q hq hqr
    rcases getElem?_concat hq with ⟨hi, hq⟩ | ⟨rfl, rfl⟩
    · exact absurd hqr (hnone q (List.mem_of_getElem? hq))
    · simp
  · simp only [hs, Bool.false_or]
    constructor
    · intro hpr
      exact ⟨p, by simp, hpr⟩
    · rintro ⟨q, hq, hqr⟩
      rcases List.mem_append.mp hq with hq | hq
      · exact absurd hqr (hnone q hq)
      · rw [List.mem_singleton] at hq
        exact hq ▸ hqr
  · rintro rfl
    simpa [hs] using hlast

/-- Only the last declaration can be a remainder, so none has been seen while others follow. -/
theorem addAll_wellFormed (ds : List Declaration) (h : s.WellFormed)
    (hs : ds ≠ [] → s.hasRemainder = false) (hadd : addAll r s ds = .ok s') : s'.WellFormed := by
  induction ds generalizing s with
  | nil =>
    injection hadd with hadd
    exact hadd ▸ h
  | cons d rest ih =>
    simp only [addAll] at hadd
    split at hadd
    · cases hadd
    rename_i p hcheck
    split at hadd
    · cases hadd
    rename_i next hnext
    obtain ⟨hwell, hremainder⟩ :=
      add_wellFormed h (Declaration.check_checked hcheck) (hs (List.cons_ne_nil d rest)) hnext
    apply ih hwell _ hadd
    intro hrest
    exact hremainder (by simpa using hrest)

/-- The signatures that come of drafts. -/
def Built (s : Signature) : Prop := ∃ d r, Draft.build d r = .ok s

theorem Built.wellFormed (h : s.Built) : s.WellFormed := by
  obtain ⟨d, r, h⟩ := h
  simp only [Draft.build] at h
  split at h
  · cases h
  · exact addAll_wellFormed d.declarations wellFormed_empty (fun _ => rfl) h

theorem WellFormed.lowercase_names (h : s.WellFormed) :
    (s.parameters.map fun p => Text.lowercase p.name) = s.parameters.map (·.key) :=
  List.map_congr_left fun p hp => (h.checked p hp).keyed.symm

/-- Whatever the words do not reach has a default. -/
theorem WellFormed.default_of_accepts (h : s.WellFormed) (ha : s.accepts provided = true)
    {i : Nat} (hp : s.parameters[i]? = some p) (hi : provided ≤ i) : ∃ v, p.default = some v := by
  apply Option.ne_none_iff_exists'.mp
  intro hnone
  have hlt := (h.ordered i p hp).mp hnone
  simp only [accepts, Bool.and_eq_true, decide_eq_true_eq] at ha
  omega

/-- Every word has a parameter, or comes after the first word of a remainder. -/
theorem WellFormed.parameter_of_accepts (h : s.WellFormed) (ha : s.accepts provided = true)
    {i : Nat} (hi : i < provided) :
    (∃ p, s.parameters[i]? = some p ∧ p.isRemainder = false) ∨
      ∃ n p, s.parameters[n]? = some p ∧ p.isRemainder = true ∧ n ≤ i := by
  simp only [accepts, Bool.and_eq_true, decide_eq_true_eq, Bool.or_eq_true] at ha
  have hcount := h.counted
  cases hp : s.parameters[i]? with
  | some p =>
    cases hr : p.isRemainder with
    | false => exact .inl ⟨p, rfl, hr⟩
    | true => exact .inr ⟨i, p, hp, hr, Nat.le_refl i⟩
  | none =>
    rw [List.getElem?_eq_none_iff] at hp
    right
    have hremainder : s.hasRemainder = true := by
      rcases ha.2 with hr | hle
      · exact hr
      · omega
    obtain ⟨p, hin, hr⟩ := h.hasRemainder_iff.mp hremainder
    obtain ⟨n, hn⟩ := List.mem_iff_getElem?.mp hin
    have hlast := h.remainderLast n p hn hr
    exact ⟨n, p, hn, hr, by omega⟩

end Signature
end CommandConsole
