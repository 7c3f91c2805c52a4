import CommandConsole.Cli.LogFilter
import CommandConsole.Cli.Program
import CommandConsole.Proofs.Console.Service
import CommandConsole.Proofs.Engine.Stepping

/-! Runs of the console program: the lines of its scripts and of its session, one after another. -/
namespace CommandConsole.Cli.Program

/-- What a host can do with a program: give it a file or a line of the input, or let time pass. -/
inductive Deed where
  | file (content : Except String String)
  | input (line : Option String)
  | advance

/-- What a program comes to by a deed, with its reports. -/
def perform (p : Program) : Deed → Reported Program
  | .file content => p.giveFile content
  | .input line => p.giveInput line
  | .advance => p.advance

/-- What a program comes to by some deeds, with its reports. -/
def course (p : Program) : List Deed → Reported Program
  | [] => pure p
  | d :: ds => do
    let p ← p.perform d
    p.course ds

/-- The command lines of the script that a deed brings. -/
def Deed.script : Deed → List String
  | .file (.ok text) => scriptLines text
  | _ => []

/-- The command lines that a deed brings, if the program is to read a script. -/
def opened (p : Program) (d : Deed) : List String :=
  match p.stage with
  | .opening .. => d.script
  | _ => []

/-- The command lines of all the scripts that are read in the course of some deeds. -/
def scripted (p : Program) : List Deed → List String
  | [] => []
  | d :: ds => p.opened d ++ (p.perform d).value.scripted ds

/-- The console of a program that is not over. -/
def console? (p : Program) : Option (Console Handler) :=
  match p.stage with
  | .opening c .. => some c
  | .waiting c .. => some c
  | .session s _ => some s.console
  | .over _ => none

open Console (ServesLines Proceeds Shows Showing showing_of_fits showing_bind showing_showAll)

/-- How far a program is with the lines of its scripts, and then of its session if it is to have
one. Once it is over all that it was given are answered. -/
def Serving (c : Console Handler) (batch : Bool) (lines : List String) (rs : List Response)
    (p : Program) : Prop :=
  match p.stage with
  | .opening d _ _ => p.batch = batch ∧ c.ServesLines lines rs none d
  | .waiting d id responses todo _ =>
    p.batch = batch ∧ responses = [] ∧
      ∃ begun, lines = begun ++ todo ∧ c.ServesLines begun rs (some id) d
  | .session s _ => batch = false ∧ Session.Serving c lines rs s
  | .over _ => ∃ typed d, (batch = true → typed = []) ∧ c.ServesLines (lines ++ typed) rs none d

variable {α : Type} {c d : Console Handler} {batch : Bool} {lines : List String}
  {rs : List Response} {p : Program} {x : Reported Program}

theorem Serving.of_over (h : Serving c batch lines rs p) (hover : p.console? = none) :
    ∃ typed d, (batch = true → typed = []) ∧ c.ServesLines (lines ++ typed) rs none d := by
  obtain ⟨b, log, _ | _ | _ | code⟩ := p
  · cases hover
  · cases hover
  · cases hover
  · exact h

theorem opened_of_script {d : Deed} (h : d.script = []) : p.opened d = [] := by
  unfold opened
  split
  · exact h
  · rfl

/-- Responses are seen from outside, whatever is logged. -/
theorem showAll_seen (log : Log) (rs : List Response) :
    (Console.showAll rs).notes.filterMap log.seen = (Console.showAll rs).notes := by
  induction rs with
  | nil => rfl
  | cons r rs ih =>
    have hone : (Console.showResponse r).notes.filterMap log.seen =
        (Console.showResponse r).notes := by
      simp only [Console.showResponse]
      split
      · rfl
      · split <;> rfl
    rw [Console.showAll, Reported.notes_bind, List.filterMap_append, hone, ih]

theorem showing_seen (h : Showing (Serving c batch lines) rs x) (log : Log) :
    Showing (Serving c batch lines) rs (seen log x) := by
  obtain ⟨more, hshows, hserving⟩ := h
  refine ⟨more, ?_, hserving⟩
  have hseen := List.Sublist.filterMap log.seen hshows
  rwa [showAll_seen] at hseen

theorem serving_next (serves : c.ServesLines lines rs none d) (hbatch : p.batch = batch)
    (rest : List String) : Serving c batch lines rs (p.next d rest).value := by
  cases rest with
  | cons path rest => exact ⟨hbatch, serves⟩
  | nil =>
    simp only [next]
    split
    · exact ⟨[], d, fun _ => rfl, by rwa [List.append_nil]⟩
    · rename_i hsession
      refine ⟨?_, Session.serving_start serves⟩
      rw [← hbatch]
      exact Bool.eq_false_iff.mpr hsession

/-- The lines of a script are taken one after another, up to one that is suspended. -/
theorem showing_runLines (free : c.Free) (serves : c.ServesLines lines rs none d)
    (hbatch : p.batch = batch) (rest todo : List String) :
    Showing (Serving c batch (lines ++ todo)) rs (p.runLines rest d todo) := by
  induction todo generalizing lines rs d with
  | nil =>
    rw [List.append_nil]
    exact showing_of_fits (serving_next serves hbatch rest)
  | cons line todo ih =>
    have hproceeds := Console.proceeds_handle serves free line
    refine showing_bind _ (showing_bind _ ?_)
    generalize (d.handle line).value = x at hproceeds
    cases hproceeds with
    | answered serves =>
      have hmore := ih serves
      rw [List.append_assoc] at hmore
      exact showing_showAll hmore
    | waiting serves => exact showing_of_fits ⟨hbatch, rfl, _, by simp, serves⟩

theorem showing_resume {x : Reported (Session Handler)}
    (h : Showing (Session.Serving c lines) rs x) (p : Program) :
    Showing (Serving c false lines) rs (x >>= p.resume) := by
  refine h.bind fun rs' hserving => ?_
  have hserves := hserving.serves
  simp only [resume]
  split
  · rename_i e hstage
    rw [hstage] at hserves
    exact showing_bind _ (showing_of_fits ⟨_, _, nofun, hserves⟩)
  · rename_i hstage
    rw [hstage] at hserves
    exact showing_of_fits ⟨_, _, nofun, hserves⟩
  · exact showing_of_fits ⟨rfl, hserving⟩

theorem showing_giveFile (free : c.Free) (serving : Serving c batch lines rs p)
    (content : Except String String) :
    Showing (Serving c batch (lines ++ p.opened (.file content))) rs (p.giveFile content) := by
  obtain ⟨b, log, stage⟩ := p
  cases stage with
  | opening d path rest =>
    obtain ⟨hbatch, serves⟩ := serving
    cases content with
    | ok text =>
      exact showing_seen (showing_runLines free serves hbatch rest (scriptLines text)) log
    | error problem =>
      have hfailed : Serving c batch lines rs (exit 1) :=
        ⟨[], d, fun _ => rfl, by rwa [List.append_nil]⟩
      rw [opened_of_script rfl, List.append_nil]
      exact showing_seen (showing_bind _ (showing_of_fits hfailed)) log
  | _ =>
    refine showing_seen (showing_of_fits ?_) log
    rwa [opened, List.append_nil]

theorem showing_giveInput (free : c.Free) (serving : Serving c batch lines rs p)
    (line : Option String) : Showing (Serving c batch lines) rs (p.giveInput line) := by
  obtain ⟨b, log, stage⟩ := p
  refine showing_seen ?_ log
  cases stage with
  | session s unfinished =>
    obtain ⟨rfl, hsession⟩ := serving
    cases line with
    | none => exact showing_resume (hsession.read free .endOfInput) _
    | some line =>
      dsimp only
      split
      · exact showing_of_fits ⟨rfl, hsession⟩
      · rename_i text _
        exact showing_resume (hsession.read free (.line text)) _
  | _ => exact showing_of_fits serving

theorem showing_advance (free : c.Free) (serving : Serving c batch lines rs p) :
    Showing (Serving c batch lines) rs p.advance := by
  obtain ⟨b, log, stage⟩ := p
  refine showing_seen ?_ log
  cases stage with
  | waiting d id responses todo rest =>
    obtain ⟨hbatch, rfl, begun, rfl, serves⟩ := serving
    have hproceeds := Console.proceeds_advance serves free
    refine showing_bind _ ?_
    generalize (d.advance id []).value = x at hproceeds
    cases hproceeds with
    | answered serves => exact showing_showAll (showing_runLines free serves hbatch rest todo)
    | waiting serves => exact showing_of_fits ⟨hbatch, rfl, begun, rfl, serves⟩
  | session s unfinished =>
    obtain ⟨rfl, hsession⟩ := serving
    exact showing_resume (hsession.advance free) _
  | _ => exact showing_of_fits serving

theorem Serving.perform (serving : Serving c batch lines rs p) (free : c.Free) (d : Deed) :
    Showing (Serving c batch (lines ++ p.opened d)) rs (p.perform d) := by
  cases d with
  | file content => exact showing_giveFile free serving content
  | input line =>
    rw [opened_of_script rfl, List.append_nil]
    exact showing_giveInput free serving line
  | advance =>
    rw [opened_of_script rfl, List.append_nil]
    exact showing_advance free serving

/-- Whatever a host does, a program serves its lines one after another. -/
theorem Serving.course (serving : Serving c batch lines rs p) (free : c.Free) (ds : List Deed) :
    Showing (Serving c batch (lines ++ p.scripted ds)) rs (p.course ds) := by
  induction ds generalizing lines rs p with
  | nil =>
    apply showing_of_fits
    rwa [scripted, List.append_nil]
  | cons d ds ih =>
    refine (serving.perform free d).bind fun rs' hnext => ?_
    have hrest := ih hnext
    rwa [List.append_assoc] at hrest

/-- An engine with further commands has no other runs in flight. -/
theorem registerAll_idle {e e' : Engine Handler} (reached : e.Reached) (idle : e.inFlight = 0)
    (ds : List (CommandDeclaration Handler)) (h : (registerAll e ds).value = .ok e') :
    e'.Reached ∧ e'.inFlight = 0 := by
  induction ds generalizing e with
  | nil =>
    simp only [registerAll, Reported.value_pure, Except.ok.injEq] at h
    exact h ▸ ⟨reached, idle⟩
  | cons d ds ih =>
    simp only [registerAll, Reported.value_bind] at h
    have hreached := reached.register d
    have hidle := Engine.inFlight_register e d
    generalize (e.register d).value = x at h hreached hidle
    obtain ⟨_ | command, e₁⟩ := x
    · simp only [Reported.value_pure, reduceCtorEq] at h
    · exact ih hreached (hidle.trans idle) h

theorem engine_idle {config : Config} {e : Engine Handler} (h : (engine config).value = .ok e) :
    e.Reached ∧ e.inFlight = 0 := by
  simp only [engine, Reported.value_bind] at h
  refine registerAll_idle ?_ ?_ commands h
  · exact ⟨config, [⟨.registerParser "duration" durationParser, inferInstance⟩], rfl⟩
  · rfl

theorem value_seen (log : Log) (r : Reported α) : (seen log r).value = r.value := rfl

theorem next_cases (h : (p.next d rest).value.console? = some c) :
    d = c ∧ (p.next d rest).value.batch = p.batch := by
  cases rest with
  | cons path rest => exact ⟨Option.some.inj h, rfl⟩
  | nil =>
    simp only [next] at h ⊢
    split at h
    · cases h
    · rename_i hsession
      rw [if_neg hsession]
      rw [Reported.value_bind, Session.start_value] at h
      exact ⟨Option.some.inj h, rfl⟩

theorem serving_begin {o : Options} {log : Log} (h : (begin o log).value.console? = some c) :
    c.Free ∧ Serving c (begin o log).value.batch [] [] (begin o log).value := by
  simp only [begin, value_seen, Reported.value_bind] at h ⊢
  cases hengine : (engine (if o.development then .development else {})).value with
  | error e =>
    rw [hengine] at h
    cases h
  | ok e =>
    obtain ⟨hreached, hidle⟩ := engine_idle hengine
    simp only [hengine] at h ⊢
    obtain ⟨rfl, hbatch⟩ := next_cases h
    exact ⟨⟨hreached, hidle⟩, serving_next ⟨⟨[], rfl, .start⟩, fun _ => hidle⟩ hbatch.symm _⟩

theorem start_cases (logging : Logging) (arguments : List String) :
    (start logging arguments).value.console? = none ∨
      ∃ o log, start logging arguments = begin o log := by
  unfold start
  split
  · exact .inl rfl
  · split
    · exact .inl rfl
    · split
      · exact .inl rfl
      · split
        · exact .inl rfl
        · exact .inr ⟨_, _, rfl⟩

/-- A program begins with no run in flight and nothing served, if it does not end at once. -/
theorem serving_start {logging : Logging} {arguments : List String}
    (h : (start logging arguments).value.console? = some c) :
    c.Free ∧ Serving c (start logging arguments).value.batch [] []
      (start logging arguments).value := by
  rcases start_cases logging arguments with hover | ⟨o, log, hbegin⟩
  · rw [hover] at h
    cases h
  · rw [hbegin] at h ⊢
    exact serving_begin h

/-- A console answers each line once. Take one whose engine has no run in flight. Whatever handlers
do while a line is dispatched and in each round of waiting for it, and whatever else happens to the
engine in between, the line is answered by just one response, that of its own dispatch or of the
completion of its own run, and no run is in flight then; or its run is in flight still, no other is,
and there is no response yet. So of any sequence of lines each is dispatched while no run is in
flight, and the results are the responses to the lines, in their order. The lines of a session go
the same way, whatever its host does, and so do those of the program's scripts and then of its
session, whatever is logged besides; the responses are shown. -/
theorem lines_answered_one_by_one :
    (∀ (κ : Type) (c : Console κ), c.Free →
      (∀ h : Console.Handling κ, c.Outcome h (c.handleLine h)) ∧
      (∀ hs : List (Console.Handling κ),
        (∀ i h, hs[i]? = some h → i ≤ (c.handleLines hs).1.length →
          let d := (c.handleLines (hs.take i)).2
          d.engine.inFlight = 0 ∧
            ((∃ r, (c.handleLines hs).1[i]? = some [r] ∧ d.Answers h r) ∨
              (c.handleLines hs).1.length = i ∧
                ∃ id e, d.handleLine h = (.waiting id [], e) ∧ d.WaitsFor h id e)) ∧
        ((c.handleLines hs).1.length = hs.length → (c.handleLines hs).2.engine.inFlight = 0)) ∧
      ∀ acts, Showing (Session.Serving c []) [] ((Session.start c).value.course acts)) ∧
    ∀ (logging : Logging) (arguments : List String) (c : Console Handler),
      let p := (start logging arguments).value
      p.console? = some c →
        c.Free ∧ ∀ ds, Showing (Serving c p.batch (p.scripted ds)) [] (p.course ds) := by
  refine ⟨?_, ?_⟩
  · intro κ c free
    refine ⟨Console.handleLine_outcome free, ?_, ?_⟩
    · intro hs
      refine ⟨fun i h hline comes => Console.handleLines_line free hline comes, ?_⟩
      intro hall
      exact (Console.free_of_handleLines free hall).idle
    · intro acts
      have hstart : c.ServesLines [] [] none c := ⟨⟨[], rfl, .start⟩, fun _ => free.idle⟩
      exact (Session.serving_start hstart).course free acts
  · intro logging arguments c p hc
    obtain ⟨free, hstart⟩ := serving_start hc
    exact ⟨free, fun ds => hstart.course free ds⟩

/-- A line behind one that counts down is taken once the count is over, by a console and by the
program in a script. -/
theorem next_line_behind_countdown :
    (let c : Console Nat :=
        { engine := (Engine.ofConfig {}).after
            [⟨.registerCommand { name := "count", execution := .stepped 2 }, Engine.countingDown⟩]
          invoker := .named "ada" }
      let hs : List (Console.Handling Nat) :=
        [⟨"count", Engine.countingDown, [⟨[], Engine.countingDown⟩, ⟨[], Engine.countingDown⟩]⟩,
          ⟨"cuont", Engine.countingDown, []⟩]
      let d := (c.handleLines (hs.take 1)).2
      c.Free ∧
        (c.handleLines hs).1 =
          [[.fail "command `count` failed: panicked: over"], [.fail "unknown command: cuont"]] ∧
        d.engine.inFlight = 0 ∧
          d.Answers ⟨"cuont", Engine.countingDown, []⟩ (.fail "unknown command: cuont")) ∧
    let p := (start .byDirectives ["-b", "setup"]).value
    let ds : List Deed :=
      [.file (.ok "countdown 2\n# note\n greet ada \n"), .advance, .advance, .advance]
    let x := p.course ds
    x.value.want = .exit 0 ∧
      ∃ c rs d, p.console? = some c ∧ Shows x.notes rs ∧
        c.ServesLines ["countdown 2", "greet ada"] rs none d := by
  refine ⟨?_, ?_⟩
  · intro c hs d
    have free : c.Free := ⟨⟨{}, _, rfl⟩, by decide +kernel⟩
    have hresults : (c.handleLines hs).1 =
        [[.fail "command `count` failed: panicked: over"], [.fail "unknown command: cuont"]] := by
      decide +kernel
    obtain ⟨hidle, hanswer⟩ :=
      ((lines_answered_one_by_one.1 Nat c free).2.1 hs).1 1 _ rfl (by simp [hresults])
    refine ⟨free, hresults, hidle, ?_⟩
    rcases hanswer with ⟨r, hr, answers⟩ | ⟨hlength, -⟩
    · rw [hresults] at hr
      cases hr
      exact answers
    · simp [hresults] at hlength
  · intro p ds x
    have hconsole : p.console?.isSome = true := by decide +kernel
    have hover : x.value.console?.isNone = true := by decide +kernel
    have hbatch : p.batch = true := by decide +kernel
    have hlines : p.scripted ds = ["countdown 2", "greet ada"] := by decide +kernel
    obtain ⟨c, hc⟩ := Option.isSome_iff_exists.mp hconsole
    obtain ⟨rs, hshows, hserving⟩ := (lines_answered_one_by_one.2 _ _ c hc).2 ds
    obtain ⟨typed, d, htyped, serves⟩ := hserving.of_over (Option.isNone_iff_eq_none.mp hover)
    rw [htyped hbatch, List.append_nil, hlines] at serves
    exact ⟨by decide +kernel, c, rs, d, hc, hshows, serves⟩

end CommandConsole.Cli.Program
