import CommandConsole.Signature

/-! Drafts of signatures as they are written call by call. -/
namespace CommandConsole.Signature

namespace Draft

/-- A call by which a draft is written. -/
inductive Call where
  | argument (name : String) (type : ValueType)
  | optional (name : String) (type : ValueType) (default : Value)
  | remainder (name : String)
  | declare (d : Declaration)
  | described (text : String)
  | constrained (c : Constraint)
  | parsedBy (parser : ValueParser)

namespace Call

/-- What a call declares, if it is no modifier. -/
def declaration? : Call → Option Declaration
  | .argument name type => some { name, type := some type }
  | .optional name type default =>
    some { name, type := some type, isOptional := true, default := some default }
  | .remainder name => some { name, type := some .text, isRemainder := true }
  | .declare d => some d
  | .described _ | .constrained _ | .parsedBy _ => none

def isModifier (c : Call) : Bool := c.declaration?.isNone

/-- What a modifier makes of a declaration. -/
def change (d : Declaration) : Call → Declaration
  | .described text => { d with description := some text }
  | .constrained c => { d with constraints := d.constraints ++ [c] }
  | .parsedBy parser => { d with parser := some parser }
  | .argument _ _ | .optional _ _ _ | .remainder _ | .declare _ => d

/-- The declarations of some calls, each as it is changed by the modifiers right behind it. -/
def declared : List Call → List Declaration
  | [] => []
  | c :: rest =>
    match c.declaration? with
    | some d => (rest.takeWhile isModifier).foldl change d :: declared rest
    | none => declared rest

/-- No modifier comes before there is anything to modify. -/
def WellPlaced (calls : List Call) : Prop :=
  ∀ before c after, calls = before ++ c :: after → c.isModifier = true →
    ∃ b ∈ before, b.isModifier = false

end Call

def apply (d : Draft) : Call → Draft
  | .argument name type => d.argument name type
  | .optional name type default => d.optional name type default
  | .remainder name => d.remainder name
  | .declare p => d.declare p
  | .described text => d.described text
  | .constrained c => d.constrained c
  | .parsedBy parser => d.parsedBy parser

/-- The draft that some calls have written. -/
def after (calls : List Call) : Draft := calls.foldl apply .empty

variable {calls : List Call} {c : Call} {d : Draft} {p : Declaration}

theorem apply_of_declaration (h : c.declaration? = some p) (d : Draft) :
    d.apply c = d.declare p := by
  cases c with
  | argument | optional | remainder | declare =>
    injection h with h
    subst h
    rfl
  | described | constrained | parsedBy => cases h

theorem apply_of_modifier (h : c.declaration? = none) (d : Draft) :
    ∃ modifier, d.apply c = d.modify modifier fun p => c.change p := by
  cases c with
  | argument | optional | remainder | declare => cases h
  | described | constrained | parsedBy => exact ⟨_, rfl⟩

/-- Modifiers change the last declaration until there is a new one. -/
theorem foldl_apply (calls : List Call) (earlier : List Declaration) (last : Declaration) :
    calls.foldl apply ⟨earlier ++ [last], none⟩ =
      ⟨earlier ++ (calls.takeWhile Call.isModifier).foldl Call.change last :: Call.declared calls,
        none⟩ := by
  induction calls generalizing earlier last with
  | nil => rfl
  | cons c rest ih =>
    cases hc : c.declaration? with
    | some p =>
      have hstop : (c :: rest).takeWhile Call.isModifier = [] := by simp [Call.isModifier, hc]
      rw [List.foldl_cons, apply_of_declaration hc, declare, ih, hstop, Call.declared, hc]
      simp
    | none =>
      obtain ⟨modifier, happly⟩ := apply_of_modifier hc ⟨earlier ++ [last], none⟩
      have hmodify : modify ⟨earlier ++ [last], none⟩ modifier (fun p => c.change p) =
          ⟨earlier ++ [c.change last], none⟩ := by simp [modify]
      have hgo : (c :: rest).takeWhile Call.isModifier = c :: rest.takeWhile Call.isModifier := by
        simp [Call.isModifier, hc]
      rw [List.foldl_cons, happly, hmodify, ih, hgo, Call.declared, hc, List.foldl_cons]

/-- A modifier that comes first was the first that had nothing to modify, and stays so. -/
theorem misplaced_foldl_apply {modifier : String} (h : d.misplaced = some modifier)
    (calls : List Call) : (calls.foldl apply d).misplaced = some modifier := by
  induction calls generalizing d with
  | nil => exact h
  | cons c rest ih =>
    apply ih
    cases hc : c.declaration? with
    | some p =>
      rw [apply_of_declaration hc]
      exact h
    | none =>
      obtain ⟨other, happly⟩ := apply_of_modifier hc d
      rw [happly, modify]
      split
      · exact h
      · simp [h]

theorem Call.wellPlaced_iff : Call.WellPlaced calls ↔ ∀ c ∈ calls.head?, c.isModifier = false := by
  constructor
  · intro h c hc
    cases hm : c.isModifier with
    | false => rfl
    | true =>
      obtain ⟨rest, rfl⟩ := List.head?_eq_some_iff.mp hc
      obtain ⟨b, hb, -⟩ := h [] c rest rfl hm
      cases hb
  · intro h before c after hcalls hm
    cases before with
    | nil =>
      rw [h c (by simp [hcalls])] at hm
      cases hm
    | cons b before => exact ⟨b, List.mem_cons_self, h b (by simp [hcalls])⟩

theorem after_of_wellPlaced (h : Call.WellPlaced calls) :
    after calls = ⟨Call.declared calls, none⟩ := by
  cases calls with
  | nil => rfl
  | cons c rest =>
    have hfirst := Call.wellPlaced_iff.mp h c rfl
    cases hc : c.declaration? with
    | none => simp [Call.isModifier, hc] at hfirst
    | some p =>
      rw [after, List.foldl_cons, apply_of_declaration hc, Call.declared, hc]
      exact foldl_apply rest [] p

theorem misplaced_of_not_wellPlaced (h : ¬ Call.WellPlaced calls) :
    ∃ modifier, (after calls).misplaced = some modifier := by
  cases calls with
  | nil => exact absurd (Call.wellPlaced_iff.mpr (by simp)) h
  | cons c rest =>
    have hfirst : c.declaration? = none := by
      cases hc : c.declaration? with
      | none => rfl
      | some p =>
        refine absurd (Call.wellPlaced_iff.mpr ?_) h
        simp [Call.isModifier, hc]
    obtain ⟨modifier, happly⟩ := apply_of_modifier hfirst .empty
    refine ⟨modifier, misplaced_foldl_apply ?_ rest⟩
    rw [happly]
    rfl

end Draft
end CommandConsole.Signature
