import CommandConsole.Proofs.Engine.Begun
import CommandConsole.Proofs.Engine.Storage
import CommandConsole.Proofs.Line.Trouble

/-! Lines that come to nothing: they leave no trace, and whoever may not use a command learns nothing
by trying. -/
namespace CommandConsole.Engine

variable {κ : Type} {e e' : Engine κ} {line line' : String} {invoker invoker' : Invoker}
  {command command' : Command κ} {permission : String}

/-- Why a line that no conversation takes comes to nothing. -/
inductive Rejected (e : Engine κ) (line : String) (invoker : Invoker) : Prop where
  | blank (blank : Text.Blank line.toList)
  | malformed {name : Word} {words : List Word} {trouble : ScanError}
      (cut : Line.cut line = ⟨name :: words, some trouble⟩)
      (inside : trouble.position < name.stop)
  | unknown {name : Word} {words : List Word} (cut : (Line.cut line).words = name :: words)
      (unknown : e.commands.find? name.text = none)
  | denied {name : Word} {words : List Word} {command : Command κ} {permission : String}
      (cut : (Line.cut line).words = name :: words)
      (named : e.commands.find? name.text = some command)
      (needed : command.permission = some permission)
      (lacking : invoker.hasPermission permission = false)
  | unbound {name : Word} {words : List Word} {command : Command κ} {problem : Error}
      (cut : (Line.cut line).words = name :: words)
      (named : e.commands.find? name.text = some command)
      (unbound : (BindRequest.bind ⟨command.name, line, words, invoker, (Line.cut line).problem⟩
        command.overloads e.pool).1 = .error problem)

/-- A line whose first word, well-formed by itself, names a command that the invoker may not use. -/
structure Denied (e : Engine κ) (line : String) (invoker : Invoker) (command : Command κ)
    (permission : String) : Prop where
  free : e.conversations.find? invoker.conversationKey = none
  named : ∃ name words, (Line.cut line).words = name :: words ∧
    (Line.cut name.text).problem = none ∧ e.commands.find? name.text = some command
  needed : command.permission = some permission
  lacking : invoker.hasPermission permission = false

theorem Denied.rejected (h : Denied e line invoker command permission) :
    Rejected e line invoker := by
  obtain ⟨name, words, cut, -, named⟩ := h.named
  exact .denied cut named h.needed h.lacking

/-- A line that is to be bound is rejected only for its arguments. -/
theorem Rejected.unbound_of_request? {q : BindRequest} (h : Rejected e line invoker)
    (hq : e.request? line invoker = some (command, q)) :
    ∃ problem, (q.bind command.overloads e.pool).1 = .error problem := by
  obtain ⟨name, words, hwords, hproblem, hfound, hpermission, rfl⟩ := request?_eq_some_iff.mp hq
  cases h with
  | blank blank =>
    rw [Line.words_cut_of_blank blank] at hwords
    cases hwords
  | malformed cut inside =>
    rw [cut] at hwords hproblem
    obtain ⟨rfl, rfl⟩ := List.cons.inj hwords
    have houtside := Option.filter_eq_none_iff.mp hproblem _ rfl
    exact absurd (decide_eq_true inside) houtside
  | unknown cut unknown =>
    obtain ⟨rfl, rfl⟩ := List.cons.inj (cut.symm.trans hwords)
    rw [unknown] at hfound
    cases hfound
  | denied cut named needed lacking =>
    obtain ⟨rfl, rfl⟩ := List.cons.inj (cut.symm.trans hwords)
    obtain rfl := Option.some.inj (named.symm.trans hfound)
    have hallowed := Option.filter_eq_none_iff.mp hpermission _ needed
    rw [lacking] at hallowed
    exact absurd rfl hallowed
  | unbound cut named unbound =>
    obtain ⟨rfl, rfl⟩ := List.cons.inj (cut.symm.trans hwords)
    obtain rfl := Option.some.inj (named.symm.trans hfound)
    exact ⟨_, unbound⟩

/-- Only for one of these reasons does a line come to nothing. -/
theorem rejected_iff (free : e.conversations.find? invoker.conversationKey = none) :
    Rejected e line invoker ↔ e.begun? line invoker = none := by
  rw [begun?_eq_none_iff free]
  constructor
  · intro h command q hq
    exact h.unbound_of_request? hq
  · intro h
    cases hwords : (Line.cut line).words with
    | nil => exact .blank (Line.blank_of_words_cut hwords)
    | cons name words =>
      cases hproblem : (Line.cut line).problem.filter (·.position < name.stop) with
      | some trouble =>
        obtain ⟨htrouble, hinside⟩ := Option.filter_eq_some_iff.mp hproblem
        have hcut : Line.cut line = ⟨name :: words, some trouble⟩ := by
          rw [← hwords, ← htrouble]
        exact .malformed hcut (of_decide_eq_true hinside)
      | none =>
        cases hnamed : e.commands.find? name.text with
        | none => exact .unknown hwords hnamed
        | some command =>
          cases hpermission : command.permission.filter (!invoker.hasPermission ·) with
          | some permission =>
            obtain ⟨hneeded, hlacking⟩ := Option.filter_eq_some_iff.mp hpermission
            exact .denied hwords hnamed hneeded (by simpa using hlacking)
          | none =>
            obtain ⟨problem, hbound⟩ := h command _
              (request?_eq_some_iff.mpr ⟨name, words, hwords, hproblem, hnamed, hpermission, rfl⟩)
            exact .unbound hwords hnamed hbound

/-- No handler is shown a line that begins no run. -/
theorem shown_of_not_begun (free : e.conversations.find? invoker.conversationKey = none)
    (h : e.begun? line invoker = none) (meanwhile : List (Catalogue.Change κ)) :
    ∀ s ∈ e.shown (.execute line invoker meanwhile), ∃ x, s = .check x := by
  rw [begun?_eq_none_iff free] at h
  intro s hs
  simp only [shown, free] at hs
  split at hs
  · rename_i command q hq
    obtain ⟨problem, hbound⟩ := h command q hq
    simp only [shownByInvoke, hbound, List.append_nil] at hs
    obtain ⟨x, -, rfl⟩ := List.mem_map.mp hs
    exact ⟨x, rfl⟩
  · cases hs

/-- A denied line is not bound. -/
theorem Denied.request?_eq_none (h : Denied e line invoker command permission) :
    e.request? line invoker = none := by
  cases hq : e.request? line invoker with
  | none => rfl
  | some x =>
    obtain ⟨found, q⟩ := x
    obtain ⟨name, words, hwords, -, hfound, hpermission, rfl⟩ := request?_eq_some_iff.mp hq
    obtain ⟨word, others, cut, -, named⟩ := h.named
    obtain ⟨rfl, rfl⟩ := List.cons.inj (cut.symm.trans hwords)
    obtain rfl := Option.some.inj (named.symm.trans hfound)
    have hallowed := Option.filter_eq_none_iff.mp hpermission _ h.needed
    rw [h.lacking] at hallowed
    exact absurd rfl hallowed

/-- What a denied line is answered with is a matter of the command alone. -/
theorem Denied.use_eq (h : Denied e line invoker command permission)
    (meanwhile : List (Catalogue.Change κ)) (code : Code κ) :
    let denial : Error := { kind := .permissionDenied command.name permission }
    e.use ⟨.execute line invoker meanwhile, code⟩ =
      ⟨e, .execute line invoker meanwhile, .dispatch (.completed denial.response), e⟩ := by
  obtain ⟨name, words, cut, clear, named⟩ := h.named
  have hproblem := Line.trouble_after_head cut clear
  have hpermission : command.permission.filter (!invoker.hasPermission ·) = some permission := by
    rw [h.needed, Option.filter_some, h.lacking]
    rfl
  simp only [use, perform, execute, h.free, dispatch, admission, cut, hproblem, named, hpermission]
  rfl

/-- In an engine that any life has brought about, a line that no conversation takes and that is
blank, in trouble within its first word, for an unknown command, for a command that the invoker may
not use, or without a binding fails and leaves everything as it was, but for storage that is taken
and given back. No handler is called: the whole effect of the line, with all that is reported and
said, is the same whatever handlers do. If the invoker may not use the command, then the line is not
bound at all, and the answer is the one that any such invoker of any such command gets, whatever else
the line says, whatever properties there are and whatever the overloads of the command. -/
theorem rejected_lines_leave_no_trace (config : Config) (us : List (Use κ)) (line : String)
    (invoker : Invoker) (meanwhile : List (Catalogue.Change κ)) (code : Code κ)
    (free : ((ofConfig config).after us).conversations.find? invoker.conversationKey = none)
    (rejected : Rejected ((ofConfig config).after us) line invoker) :
    let e := (ofConfig config).after us
    let m := e.use ⟨.execute line invoker meanwhile, code⟩
    (∃ response pool, m.answer = .dispatch (.completed response) ∧ response.kind = .fail ∧
      m.after = { e with pool } ∧ pool.outstanding = e.pool.outstanding) ∧
    (∀ s ∈ e.shown (.execute line invoker meanwhile), ∃ x, s = .check x) ∧
    (∀ other : Code κ, @perform κ other e (.execute line invoker meanwhile) =
      @perform κ code e (.execute line invoker meanwhile)) ∧
    ∀ command permission, Denied e line invoker command permission →
      m.after = e ∧ e.request? line invoker = none ∧
      e.shown (.execute line invoker meanwhile) = [] ∧
      ∀ (e' : Engine κ) (line' : String) (invoker' : Invoker) (command' : Command κ)
        (meanwhile' : List (Catalogue.Change κ)) (other : Code κ),
        Denied e' line' invoker' command' permission → command'.name = command.name →
        (e'.use ⟨.execute line' invoker' meanwhile', other⟩).answer = m.answer := by
  intro e m
  have hnone : e.begun? line invoker = none := (rejected_iff free).mp rejected
  have hshown := shown_of_not_begun free hnone meanwhile
  refine ⟨?_, hshown, ?_, ?_⟩
  · let := code
    obtain ⟨response, pool, hvalue, hfail, hlends⟩ := value_execute_of_not_begun free hnone meanwhile
    have hlent : e.pool.Lending e.config.argumentPoolCapacity e.pool.outstanding := by
      have h := lends_after config us
      exact h.out ▸ h
    refine ⟨response, pool, ?_, hfail, ?_, (hlends hlent).out⟩
    · exact congrArg (fun x => Answer.dispatch x.1) hvalue
    · exact congrArg Prod.snd hvalue
  · intro other
    refine perform_eq_of_alike fun s hs => ?_
    obtain ⟨x, rfl⟩ := hshown s hs
    trivial
  · intro command permission hdenied
    have hrequest := hdenied.request?_eq_none
    have huse : m = _ := hdenied.use_eq meanwhile code
    refine ⟨by rw [huse], hrequest, ?_, ?_⟩
    · simp only [shown, hdenied.free, hrequest]
    · intro e' line' invoker' command' meanwhile' other hdenied' hname
      rw [hdenied'.use_eq meanwhile' other, huse, hname]

/-- A handler that does nothing. -/
@[reducible]
def idling : Code Unit where
  body _ := .done ()
  resume _ := .done none
  launch _ _ := ⟨[], .ok ()⟩
  work _ _ _ := none

/-- A bracket that is never closed goes unnoticed behind a command that is not for everyone. -/
theorem denied_before_delimiters :
    let e : Engine Unit := (ofConfig {}).after
      [⟨.registerCommand { name := "Guard", execution := .sync (), permission := some "op" }, idling⟩]
    let ada : Invoker := ⟨"ada", some [], [], none⟩
    let m := e.use ⟨.execute "guard [x" ada, idling⟩
    e.conversations.find? ada.conversationKey = none ∧ Rejected e "guard [x" ada ∧ m.after = e ∧
      ∃ response pool, m.answer = .dispatch (.completed response) ∧ response.kind = .fail ∧
        m.after = { e with pool } ∧ pool.outstanding = e.pool.outstanding := by
  intro e ada m
  have hnamed : (e.commands.find? "guard").bind (·.permission) = some "op" := by decide +kernel
  obtain ⟨command, hnamed, hneeded⟩ := Option.bind_eq_some_iff.mp hnamed
  have hdenied : Denied e "guard [x" ada command "op" :=
    ⟨rfl, ⟨⟨"guard", 0⟩, [⟨"[x", 6⟩], by decide +kernel, by decide +kernel, hnamed⟩, hneeded, rfl⟩
  obtain ⟨heffect, -, -, hdenials⟩ := rejected_lines_leave_no_trace {} _ "guard [x" ada [] idling
    hdenied.free hdenied.rejected
  exact ⟨hdenied.free, hdenied.rejected, (hdenials command "op" hdenied).1, heffect⟩

end CommandConsole.Engine
