import Mathlib.Data.List.Forall2
import Mathlib.Data.List.Induction
import Mathlib.Data.List.Nodup
import CommandConsole.Proofs.Signature.Drafts
import CommandConsole.Proofs.Signature.Shape

/-! Which drafts make a signature: those of valid declarations that stand in order. The signature
lists them as they were declared, what may be left out last. -/
namespace CommandConsole

/-- What decides where a parameter may stand: its key, and whether it takes the rest of the line or
may be left out. -/
structure Station where
  key : String
  isRemainder : Bool
  isOptional : Bool

/-- The second of two parameters may stand behind the first. -/
structure Station.Admits (a b : Station) : Prop where
  distinct : a.key ≠ b.key
  ends : a.isRemainder = false
  ordered : a.isOptional = true → b.isOptional = true

def Parameter.station (p : Parameter) : Station := ⟨p.key, p.isRemainder, p.isOptional⟩

namespace Declaration

def station (d : Declaration) : Station :=
  ⟨Text.lowercase (Text.trim d.name), d.isRemainder, d.isOptional⟩

variable {d : Declaration} {r : ParserRegistry} {p : Parameter} {type : ValueType}
  {name : String}

theorem isSome_of_resolveDefault {v : Option Value} (h : d.resolveDefault type = .ok v) :
    v.isSome = d.isOptional := by
  simp only [resolveDefault] at h
  split at h
  · rename_i hoptional
    split at h
    · injection h with h
      rw [← h, hoptional]
      rfl
    · cases h
  · rename_i hoptional
    split at h
    · injection h with h
      rw [← h, hoptional]
      rfl
    · cases h
  · cases h
  · rename_i hoptional
    injection h with h
    rw [← h, hoptional]
    rfl

theorem station_of_checkParts (h : d.checkParts name type r = .ok p) :
    p.station = ⟨Text.lowercase name, d.isRemainder, d.isOptional⟩ := by
  simp only [checkParts] at h
  split at h
  · cases h
  split at h
  · cases h
  split at h
  · cases h
  rename_i default hdefault
  injection h with h
  subst h
  rw [← isSome_of_resolveDefault hdefault]
  rfl

/-- A declaration that passes its check stands where the parameter made of it does. -/
theorem station_of_check (h : d.check r = .ok p) : p.station = d.station := by
  simp only [check] at h
  split at h
  · cases h
  split at h
  · cases h
  split at h
  · cases h
  split at h
  · cases h
  · rename_i hparts
    injection h with h
    subst h
    exact station_of_checkParts hparts

end Declaration

namespace Signature

/-- The signature of parameters that are in order. -/
def ofParameters (ps : List Parameter) : Signature where
  parameters := ps
  required := (ps.filter (!·.isOptional)).length
  optional := (ps.filter (·.isOptional)).length
  hasRemainder := ps.any (·.isRemainder)

variable {s : Signature} {p : Parameter} {ps qs : List Parameter} {d : Declaration}
  {ds : List Declaration} {r : ParserRegistry} {isLast : Bool}

theorem find?_eq_none_iff (hp : p.Checked) :
    (ofParameters ps).find? p.name = none ↔ ∀ q ∈ ps, q.key ≠ p.key := by
  rw [find?, List.find?_eq_none, ← hp.keyed]
  simp [ofParameters]

/-- A checked parameter finds a place behind those that admit it. -/
theorem add_eq_ok_iff (hp : p.Checked) : (ofParameters qs).add p isLast = .ok s ↔
    (∀ q ∈ qs, q.key ≠ p.key) ∧ (p.isRemainder = true → isLast = true) ∧
      (∀ q ∈ qs, q.isOptional = true → p.isOptional = true) ∧ s = ofParameters (qs ++ [p]) := by
  have hfresh : ((ofParameters qs).find? p.name).isSome = true ↔ ¬ ∀ q ∈ qs, q.key ≠ p.key := by
    rw [← find?_eq_none_iff hp, Option.isSome_iff_ne_none]
  have hlast : (p.isRemainder && !isLast) = true ↔ ¬ (p.isRemainder = true → isLast = true) := by
    simp
  have hplace : (!p.isOptional && decide (0 < (ofParameters qs).optional)) = true ↔
      ¬ ∀ q ∈ qs, q.isOptional = true → p.isOptional = true := by
    cases hd : p.isOptional <;> simp [ofParameters, List.length_pos_iff_exists_mem]
  have hnext : ({
      parameters := (ofParameters qs).parameters ++ [p]
      required := if p.isOptional then (ofParameters qs).required
        else (ofParameters qs).required + 1
      optional := if p.isOptional then (ofParameters qs).optional + 1
        else (ofParameters qs).optional
      hasRemainder := (ofParameters qs).hasRemainder || p.isRemainder } : Signature) =
      ofParameters (qs ++ [p]) := by
    cases hd : p.isOptional <;> simp [ofParameters, List.filter_append, hd]
  rw [add, hnext]
  split
  · rename_i h
    exact iff_of_false (by simp) fun hall => hfresh.mp h hall.1
  · rename_i hunique
    split
    · rename_i h
      exact iff_of_false (by simp) fun hall => hlast.mp h hall.2.1
    · rename_i hends
      split
      · rename_i h
        exact iff_of_false (by simp) fun hall => hplace.mp h hall.2.2.1
      · rename_i hordered
        rw [hfresh, not_not] at hunique
        rw [hlast, not_not] at hends
        rw [hplace, not_not] at hordered
        constructor
        · intro h
          injection h with h
          exact ⟨hunique, hends, hordered, h.symm⟩
        · rintro ⟨-, -, -, rfl⟩
          rfl

/-- Declarations are added one by one behind the parameters that there are, which admit all of
them. -/
theorem addAll_eq_ok_iff (hqs : ds ≠ [] → ∀ q ∈ qs, q.isRemainder = false) :
    addAll r (ofParameters qs) ds = .ok s ↔ ∃ ps, List.Forall₂ (fun d p => d.check r = .ok p) ds ps ∧
      (∀ q ∈ qs, ∀ p ∈ ps, q.station.Admits p.station) ∧
      ps.Pairwise (fun p p' => p.station.Admits p'.station) ∧ s = ofParameters (qs ++ ps) := by
  induction ds generalizing qs with
  | nil =>
    constructor
    · intro h
      injection h with h
      exact ⟨[], .nil, by simp, .nil, by rw [← h, List.append_nil]⟩
    · rintro ⟨ps, hps, -, -, rfl⟩
      cases hps
      rw [List.append_nil, addAll]
  | cons d rest ih =>
    have hends : ∀ q ∈ qs, q.isRemainder = false := hqs (List.cons_ne_nil d rest)
    constructor
    · intro h
      simp only [addAll] at h
      split at h
      · cases h
      rename_i p hcheck
      split at h
      · cases h
      rename_i next hadd
      obtain ⟨hkey, hlast, hordered, rfl⟩ :=
        (add_eq_ok_iff (Declaration.check_checked hcheck)).mp hadd
      have hnext : rest ≠ [] → ∀ q ∈ qs ++ [p], q.isRemainder = false := by
        intro hrest q hq
        rcases List.mem_append.mp hq with hq | hq
        · exact hends q hq
        · rw [List.mem_singleton] at hq
          subst hq
          cases hr : q.isRemainder with
          | false => rfl
          | true => exact absurd (hlast hr) (by simpa using hrest)
      obtain ⟨ps, hps, hagree, hpairs, rfl⟩ := (ih hnext).mp h
      have hp : ∀ q ∈ qs, q.station.Admits p.station := fun q hq =>
        ⟨hkey q hq, hends q hq, hordered q hq⟩
      refine ⟨p :: ps, .cons hcheck hps, ?_, ?_, by simp⟩
      · intro q hq p' hp'
        rcases List.mem_cons.mp hp' with rfl | hp'
        · exact hp q hq
        · exact hagree q (List.mem_append_left [p] hq) p' hp'
      · exact List.pairwise_cons.mpr ⟨hagree p (by simp), hpairs⟩
    · rintro ⟨ps, hps, hagree, hpairs, rfl⟩
      cases hps with
      | @cons _ p _ ps hcheck hps =>
        obtain ⟨hp, hpairs⟩ := List.pairwise_cons.mp hpairs
        have hnext : rest ≠ [] → ∀ q ∈ qs ++ [p], q.isRemainder = false := by
          intro hrest q hq
          rcases List.mem_append.mp hq with hq | hq
          · exact hends q hq
          · rw [List.mem_singleton] at hq
            subst hq
            cases hps with
            | nil => exact absurd rfl hrest
            | cons _ _ => exact (hp _ List.mem_cons_self).ends
        have hadd : (ofParameters qs).add p rest.isEmpty = .ok (ofParameters (qs ++ [p])) := by
          refine (add_eq_ok_iff (Declaration.check_checked hcheck)).mpr ⟨?_, ?_, ?_, rfl⟩
          · exact fun q hq => (hagree q hq p List.mem_cons_self).distinct
          · intro hr
            cases hps with
            | nil => rfl
            | cons _ _ =>
              have hnot := (hp _ List.mem_cons_self).ends
              rw [Parameter.station, hr] at hnot
              cases hnot
          · exact fun q hq => (hagree q hq p List.mem_cons_self).ordered
        simp only [addAll, hcheck, hadd]
        refine (ih hnext).mpr ⟨ps, hps, ?_, hpairs, by simp⟩
        intro q hq p' hp'
        rcases List.mem_append.mp hq with hq | hq
        · exact hagree q hq p' (List.mem_cons_of_mem p hp')
        · rw [List.mem_singleton] at hq
          exact hq ▸ hp p' hp'

section Order

variable {α : Type} {l : List α} {P : α → Bool}

/-- All but the last satisfy a property exactly if whatever has another behind it does. -/
theorem pairwise_iff_forall_dropLast (Q : α → Prop) :
    l.Pairwise (fun a _ => Q a) ↔ ∀ a ∈ l.dropLast, Q a := by
  induction l with
  | nil => simp
  | cons a l ih =>
    cases l with
    | nil => simp
    | cons b l =>
      have hhead : (∀ c ∈ b :: l, Q a) ↔ Q a :=
        ⟨fun h => h b List.mem_cons_self, fun h _ _ => h⟩
      rw [List.pairwise_cons, ih, hhead, List.dropLast_cons_cons, List.forall_mem_cons]

/-- Where a property is never lost, those that have it come last. -/
theorem eq_filter_append_of_pairwise (h : l.Pairwise fun a b => P a = true → P b = true) :
    l = l.filter (!P ·) ++ l.filter P := by
  induction l with
  | nil => rfl
  | cons a l ih =>
    obtain ⟨hfirst, hrest⟩ := List.pairwise_cons.mp h
    cases ha : P a with
    | false => simpa [ha] using ih hrest
    | true =>
      have hall : ∀ b ∈ l, P b = true := fun b hb => hfirst b hb ha
      have hnone : l.filter (!P ·) = [] := by simpa using hall
      simp [ha, hnone, List.filter_eq_self.mpr hall]

end Order

/-- Stations are in order if their keys differ, only the last takes the rest of the line, and none
that may be left out comes before one that may not. -/
theorem pairwise_station_iff : ds.Pairwise (fun d d' => d.station.Admits d'.station) ↔
    (ds.map fun d => Text.lowercase (Text.trim d.name)).Nodup ∧
      (∀ d ∈ ds.dropLast, d.isRemainder = false) ∧
      ds.Pairwise fun d d' => d.isOptional = true → d'.isOptional = true := by
  have hadmits : ∀ d d' : Declaration, d.station.Admits d'.station ↔
      Text.lowercase (Text.trim d.name) ≠ Text.lowercase (Text.trim d'.name) ∧
        d.isRemainder = false ∧ (d.isOptional = true → d'.isOptional = true) :=
    fun d d' => ⟨fun h => ⟨h.distinct, h.ends, h.ordered⟩, fun h => ⟨h.1, h.2.1, h.2.2⟩⟩
  simp only [hadmits, List.pairwise_and_iff]
  rw [pairwise_iff_forall_dropLast fun d : Declaration => d.isRemainder = false, List.Nodup,
    List.pairwise_map]

theorem pairwise_of_checks (h : List.Forall₂ (fun d p => d.check r = .ok p) ds ps) :
    ps.Pairwise (fun p p' => p.station.Admits p'.station) ↔
      ds.Pairwise fun d d' => d.station.Admits d'.station := by
  have hstations : ps.map Parameter.station = ds.map Declaration.station := by
    induction h with
    | nil => rfl
    | cons hcheck _ ih => rw [List.map_cons, List.map_cons, ih, Declaration.station_of_check hcheck]
  have hps : ps.Pairwise (fun p p' => p.station.Admits p'.station) ↔
      (ps.map Parameter.station).Pairwise Station.Admits := List.pairwise_map.symm
  rw [hps, hstations, List.pairwise_map]

theorem exists_checks_iff : (∃ ps, List.Forall₂ (fun d p => d.check r = .ok p) ds ps) ↔
    ∀ d ∈ ds, ∃ p, d.check r = .ok p := by
  induction ds with
  | nil => simp
  | cons d ds ih =>
    rw [List.forall_mem_cons, ← ih]
    constructor
    · rintro ⟨ps, h⟩
      cases h with
      | cons hcheck hrest => exact ⟨⟨_, hcheck⟩, _, hrest⟩
    · rintro ⟨⟨p, hcheck⟩, ps, hrest⟩
      exact ⟨p :: ps, .cons hcheck hrest⟩

/-- Calls make a signature exactly if their declarations are valid and stand in order. -/
theorem build_eq_ok_iff {calls : List Draft.Call} :
    (Draft.after calls).build r = .ok s ↔ Draft.Call.WellPlaced calls ∧
      ∃ ps, List.Forall₂ (fun d p => d.check r = .ok p) (Draft.Call.declared calls) ps ∧
        ps.Pairwise (fun p p' => p.station.Admits p'.station) ∧ s = ofParameters ps := by
  by_cases hplaced : Draft.Call.WellPlaced calls
  · have hempty : Signature.empty = ofParameters [] := rfl
    rw [Draft.after_of_wellPlaced hplaced, Draft.build, hempty, addAll_eq_ok_iff (by simp)]
    simp [hplaced]
  · obtain ⟨modifier, hmisplaced⟩ := Draft.misplaced_of_not_wellPlaced hplaced
    rw [Draft.build, hmisplaced]
    simp [hplaced]

/-- Only the last of parameters that are in order can be a remainder. -/
theorem hasRemainder_ofParameters_iff
    (h : ps.Pairwise fun p p' => p.station.Admits p'.station) :
    (ofParameters ps).hasRemainder = true ↔ ∃ p ∈ ps.getLast?, p.isRemainder = true := by
  cases ps using List.reverseRecOn with
  | nil => simp [ofParameters]
  | append_singleton earlier p =>
    have hearlier : ∀ q ∈ earlier, q.isRemainder = false := fun q hq =>
      ((List.pairwise_append.mp h).2.2 q hq p (List.mem_singleton_self p)).ends
    have hnone : earlier.any (·.isRemainder) = false := by simpa using hearlier
    simp [ofParameters, hnone]

/-- Nothing may be left out before a remainder. -/
theorem optional_eq_zero_of_remainder (h : ps.Pairwise fun p p' => p.station.Admits p'.station)
    (checked : ∀ p ∈ ps, p.Checked) (hr : (ofParameters ps).hasRemainder = true) :
    (ofParameters ps).optional = 0 := by
  obtain ⟨p, hp, hremainder⟩ := (hasRemainder_ofParameters_iff h).mp hr
  obtain ⟨earlier, rfl⟩ := List.getLast?_eq_some_iff.mp hp
  have hneeded : p.isOptional = false := by
    rw [Parameter.isOptional, (checked p (by simp)).remainder hremainder]
    rfl
  have hearlier : ∀ q ∈ earlier, q.isOptional = false := by
    intro q hq
    cases ho : q.isOptional with
    | false => rfl
    | true =>
      have hlate := ((List.pairwise_append.mp h).2.2 q hq p (List.mem_singleton_self p)).ordered ho
      rw [Parameter.station, hneeded] at hlate
      cases hlate
  simpa [ofParameters, hneeded] using hearlier

theorem find?_eq_some_iff (distinct : (s.parameters.map (·.key)).Nodup) {name : String} :
    s.find? name = some p ↔ p ∈ s.parameters ∧ p.key = Text.lowercase name := by
  constructor
  · intro h
    exact ⟨List.mem_of_find?_eq_some h, by simpa using List.find?_some h⟩
  · rintro ⟨hp, hkey⟩
    obtain ⟨q, hq⟩ : ∃ q, s.find? name = some q := by
      rw [← Option.isSome_iff_exists, find?, List.find?_isSome]
      exact ⟨p, hp, by simp [hkey]⟩
    have hqkey : q.key = Text.lowercase name := by simpa using List.find?_some hq
    rw [hq, List.inj_on_of_nodup_map distinct (List.mem_of_find?_eq_some hq) hp
      (hqkey.trans hkey.symm)]

/-- The calls that write a draft make a signature exactly if no modifier comes before the first
declaration, every declaration is valid by itself, no two names are the same in lower case, only
the last declaration is a remainder, and none that is required follows one that may be left out. The
signature lists what was declared in order: first what is required, any remainder last, and then
what may be left out. -/
theorem build_iff_well_formed (calls : List Draft.Call) (r : ParserRegistry) :
    ((∃ s, (Draft.after calls).build r = .ok s) ↔
      (∀ before c after, calls = before ++ c :: after → c.isModifier = true →
        ∃ b ∈ before, b.isModifier = false) ∧
      (∀ d ∈ Draft.Call.declared calls, ∃ p, d.check r = .ok p) ∧
      ((Draft.Call.declared calls).map fun d => Text.lowercase (Text.trim d.name)).Nodup ∧
      (∀ d ∈ (Draft.Call.declared calls).dropLast, d.isRemainder = false) ∧
      (Draft.Call.declared calls).Pairwise fun d d' => d.isOptional = true → d'.isOptional = true) ∧
    ∀ s, (Draft.after calls).build r = .ok s →
      List.Forall₂ (fun d p => d.check r = .ok p) (Draft.Call.declared calls) s.parameters ∧
      s.parameters = s.parameters.filter (!·.isOptional) ++ s.parameters.filter (·.isOptional) ∧
      (∀ p ∈ s.parameters, p.isRemainder = true → p.isOptional = false) ∧
      s.required = (s.parameters.filter (!·.isOptional)).length ∧
      s.optional = (s.parameters.filter (·.isOptional)).length ∧
      (s.hasRemainder = true ↔ ∃ p ∈ s.parameters.getLast?, p.isRemainder = true) ∧
      (s.hasRemainder = true → s.optional = 0) ∧
      ∀ name p, s.find? name = some p ↔ p ∈ s.parameters ∧ p.key = Text.lowercase name := by
  refine ⟨?_, ?_⟩
  · rw [← exists_checks_iff, ← pairwise_station_iff]
    constructor
    · rintro ⟨s, h⟩
      obtain ⟨hplaced, ps, hps, hpairs, -⟩ := build_eq_ok_iff.mp h
      exact ⟨hplaced, ⟨ps, hps⟩, (pairwise_of_checks hps).mp hpairs⟩
    · rintro ⟨hplaced, ⟨ps, hps⟩, hpairs⟩
      exact ⟨_, build_eq_ok_iff.mpr ⟨hplaced, ps, hps, (pairwise_of_checks hps).mpr hpairs, rfl⟩⟩
  · intro s h
    have hbuilt : s.Built := ⟨_, r, h⟩
    have checked := hbuilt.wellFormed.checked
    have distinct := hbuilt.wellFormed.distinct
    obtain ⟨-, ps, hps, hpairs, rfl⟩ := build_eq_ok_iff.mp h
    refine ⟨hps, ?_, ?_, rfl, rfl, hasRemainder_ofParameters_iff hpairs,
      optional_eq_zero_of_remainder hpairs checked, fun name p => find?_eq_some_iff distinct⟩
    · exact eq_filter_append_of_pairwise (hpairs.imp fun h => h.ordered)
    · intro p hp hr
      rw [Parameter.isOptional, (checked p hp).remainder hr]
      rfl

end Signature
end CommandConsole
