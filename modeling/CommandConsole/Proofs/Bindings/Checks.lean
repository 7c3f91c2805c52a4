import CommandConsole.Proofs.Bindings.Storage

/-! The conditions that are asked about the values of a line while it is bound, with all that they
are shown. -/
namespace CommandConsole

/-- A condition that is asked about a value. -/
structure Check where
  constraint : Constraint
  value : Value
  circumstance : Circumstance

/-- What the condition answers. -/
def Check.verdict (x : Check) : Option Refusal := x.constraint.check x.value x.circumstance

namespace Constraint

variable {v : Value} {c : Circumstance}

/-- The conditions that are asked about a value: those up to the first that refuses it. -/
def asked (v : Value) (c : Circumstance) : List Constraint → List Constraint
  | [] => []
  | x :: rest => if (x.check v c).isSome then [x] else x :: asked v c rest

/-- Those that are not asked do not matter. -/
theorem firstRefusal_map {f : Constraint → Constraint} {xs : List Constraint}
    (h : ∀ x ∈ asked v c xs, (f x).check v c = x.check v c) :
    firstRefusal (xs.map f) v c = firstRefusal xs v c := by
  induction xs with
  | nil => rfl
  | cons x rest ih =>
    simp only [asked] at h
    cases hx : x.check v c with
    | some reason =>
      simp only [hx, Option.isSome_some, if_true, List.mem_singleton, forall_eq] at h
      simp only [firstRefusal, List.map_cons, List.findSome?_cons, h, hx]
    | none =>
      simp only [hx, Option.isSome_none, Bool.false_eq_true, if_false, List.mem_cons,
        forall_eq_or_imp] at h
      simp only [firstRefusal, List.map_cons, List.findSome?_cons, h.1, hx]
      exact ih h.2

end Constraint

/-- A parameter with its conditions replaced. -/
def Parameter.amend (p : Parameter) (f : Constraint → Constraint) : Parameter :=
  { p with constraints := p.constraints.map f }

namespace Signature

variable {f : Constraint → Constraint}

/-- A signature with the conditions of its parameters replaced. -/
def amend (s : Signature) (f : Constraint → Constraint) : Signature :=
  { s with parameters := s.parameters.map (·.amend f) }

theorem usage_amend (s : Signature) (f : Constraint → Constraint) (command : String) :
    (s.amend f).usage command = s.usage command := by
  simp only [usage, amend, List.map_map]
  rfl

theorem usageLines_amend (overloads : List Signature) (command : String) :
    usageLines (overloads.map (·.amend f)) command = usageLines overloads command := by
  simp only [usageLines, List.map_map, Function.comp_def, usage_amend]

/-- Conditions have no part in the choice of an overload. -/
theorem select?_amend (overloads : List Signature) (provided : Nat) :
    select? (overloads.map (·.amend f)) provided = select? overloads provided := by
  simp only [select?, feasible, List.zipIdx_map, List.filter_map, List.map_map]
  rfl

end Signature

namespace BindRequest

variable {q : BindRequest} {p : Parameter} {ps : List Parameter} {w : Word} {ws : List Word}
  {f : Constraint → Constraint} {s : Signature} {overloads : List Signature}

/-- What is asked about the word of a parameter. -/
def wordChecks (q : BindRequest) (p : Parameter) (w : Word) : List Check :=
  match q.read p w with
  | .error _ => []
  | .ok (v, _) =>
    let c : Circumstance := ⟨q.invoker, p.name, q.line⟩
    (Constraint.asked v c p.constraints).map (⟨·, v, c⟩)

/-- What is asked while parameters are bound to words one by one. -/
def fillChecks (q : BindRequest) : List Parameter → List Word → List Check
  | p :: ps, w :: ws =>
    q.wordChecks p w ++ if (q.valueOf p w).isOk then q.fillChecks ps ws else []
  | _, _ => []

/-- What is asked while a line is bound to the overload that fits it. -/
def checks (q : BindRequest) (overloads : List Signature) : List Check :=
  match (Signature.select? overloads q.words.length).bind (overloads[·]?) with
  | none => []
  | some s =>
    match q.standingTrouble s with
    | some _ => []
    | none => q.fillChecks s.parameters q.words

theorem valueOf_amend
    (h : ∀ x ∈ q.wordChecks p w, (f x.constraint).check x.value x.circumstance = x.verdict) :
    q.valueOf (p.amend f) w = q.valueOf p w := by
  have hread : q.read (p.amend f) w = q.read p w := rfl
  simp only [valueOf, hread]
  cases hr : q.read p w with
  | error e => rfl
  | ok known =>
    obtain ⟨v, raw⟩ := known
    simp only [wordChecks, hr, List.mem_map, forall_exists_index, and_imp,
      forall_apply_eq_imp_iff₂, Check.verdict] at h
    simp only [Parameter.amend, Constraint.firstRefusal_map h]
    rfl

theorem fill_amend
    (h : ∀ x ∈ q.fillChecks ps ws, (f x.constraint).check x.value x.circumstance = x.verdict)
    (b : Bindings) : q.fill (ps.map (·.amend f)) ws b = q.fill ps ws b := by
  induction ps generalizing ws b with
  | nil => rfl
  | cons p ps ih =>
    cases ws with
    | nil =>
      have hrest : ∀ b, q.fill (ps.map (·.amend f)) [] b = q.fill ps [] b := by
        intro b
        refine ih ?_ b
        cases ps <;> exact fun x hx => nomatch hx
      simp only [List.map_cons, fill, Parameter.amend] at hrest ⊢
      split <;> simp only [hrest]
    | cons w ws =>
      simp only [fillChecks, List.mem_append] at h
      have hvalue := valueOf_amend fun x hx => h x (.inl hx)
      simp only [List.map_cons, fill, hvalue]
      cases hv : q.valueOf p w with
      | error e => rfl
      | ok v =>
        simp only [hv, Except.isOk, Except.toBool, if_true] at h
        exact ih (fun x hx => h x (.inr hx)) _

theorem standingTrouble_amend (q : BindRequest) (s : Signature) (f : Constraint → Constraint) :
    q.standingTrouble (s.amend f) = q.standingTrouble s := by
  simp only [standingTrouble, remainderCovers, Signature.amend, List.length_map]

/-- Nothing is asked but what is told here: conditions that answer these questions alike bind the
same values, and refuse the same lines for the same reasons. -/
theorem bind_amend
    (h : ∀ x ∈ q.checks overloads, (f x.constraint).check x.value x.circumstance = x.verdict)
    (pool : Pool) : q.bind (overloads.map (·.amend f)) pool = q.bind overloads pool := by
  cases hselect : Signature.select? overloads q.words.length with
  | none =>
    have hamended := (Signature.select?_amend (f := f) overloads _).trans hselect
    rw [bind_of_unselected hselect, bind_of_unselected hamended, Signature.usageLines_amend]
  | some i =>
    obtain ⟨s, hs, -⟩ := Signature.accepts_of_select? hselect
    have hamended := (Signature.select?_amend (f := f) overloads _).trans hselect
    have hget : (overloads.map (·.amend f))[i]? = some (s.amend f) := by
      rw [List.getElem?_map, hs, Option.map_some]
    have hto : q.bindTo (s.amend f) pool = q.bindTo s pool := by
      cases ht : q.standingTrouble s with
      | some e =>
        rw [bindTo_of_trouble ht, bindTo_of_trouble ((q.standingTrouble_amend s f).trans ht)]
      | none =>
        simp only [checks, hselect, Option.bind_some, hs, ht] at h
        rw [bindTo_of_clear ht, bindTo_of_clear ((q.standingTrouble_amend s f).trans ht)]
        simp only [Signature.amend, fill_amend h]
    rw [bind_of_selected hselect hs, bind_of_selected hamended hget, hto, Signature.usage_amend]

end BindRequest
end CommandConsole
