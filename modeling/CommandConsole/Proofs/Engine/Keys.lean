import CommandConsole.Proofs.Bindings.Blame
import CommandConsole.Proofs.Catalogue.Spelling
import CommandConsole.Proofs.Engine.Commands
import CommandConsole.Proofs.Engine.Rejection
import CommandConsole.Proofs.Line.Beginnings

/-! The keys of registered commands, typed at an engine: which of them reach their command. -/
namespace CommandConsole.Engine

variable {κ : Type} {e : Engine κ} {command : Command κ} {invoker : Invoker} {line key : String}

/-- Binds the words of a line to the parameters of a command and runs it. -/
def invoke [Code κ] (e : Engine κ) (command : Command κ) (line : String) (words : List Word)
    (invoker : Invoker) (trouble : Option ScanError) (meanwhile : List (Catalogue.Change κ)) :
    Reported (Dispatch × Engine κ) := do
  let (admission, e) ← e.prepare command line words invoker trouble
  e.proceed meanwhile admission

/-- A line is dispatched to a command under a key, its first word: the words behind are for the
overloads of the command to bind, and an error that they meet lies behind the key. -/
def Reaches [Code κ] (e : Engine κ) (line : String) (invoker : Invoker) (command : Command κ)
    (key : String) : Prop :=
  ∃ words trouble, Line.cut line = ⟨⟨key, 0⟩ :: words, trouble⟩ ∧
    e.request? line invoker = some (command, ⟨command.name, line, words, invoker, trouble⟩) ∧
    (∀ meanwhile, e.execute line invoker meanwhile =
      e.invoke command line words invoker trouble meanwhile) ∧
    ∀ error, ((BindRequest.mk command.name line words invoker trouble).bind command.overloads
        e.pool).1 = .error error →
      (∀ meanwhile, (e.execute line invoker meanwhile).value.1 = .completed error.response) ∧
      BindRequest.Behind (Text.width key.toList) error.kind

/-- A line whose first word is found in the catalogue is dispatched under this word. -/
theorem reaches_of_request? [Code κ] {words : List Word} {trouble : Option ScanError}
    (free : e.conversations.find? invoker.conversationKey = none)
    (hcut : Line.cut line = ⟨⟨key, 0⟩ :: words, trouble⟩)
    (hrequest : e.request? line invoker =
      some (command, ⟨command.name, line, words, invoker, trouble⟩)) :
    e.Reaches line invoker command key := by
  have hexecute : ∀ meanwhile, e.execute line invoker meanwhile =
      e.invoke command line words invoker trouble meanwhile := by
    intro meanwhile
    simp only [execute, free, dispatch, invoke, (admission_of_request? hrequest).1]
  refine ⟨words, trouble, hcut, hrequest, hexecute, ?_⟩
  intro error hbound
  refine ⟨?_, BindRequest.bind_behind ?_ ?_ hbound⟩
  · intro meanwhile
    obtain ⟨result, pool, hresult⟩ : ∃ result pool, (BindRequest.mk command.name line words invoker
        trouble).bind command.overloads e.pool = (result, pool) := ⟨_, _, rfl⟩
    rw [hresult] at hbound
    simp only at hbound
    subst hbound
    simp only [hexecute, invoke, Reported.value_bind, prepare_of_error hresult]
    rfl
  · intro t ht
    obtain ⟨name, others, hwords, hclear, -⟩ := request?_eq_some_iff.mp hrequest
    rw [hcut] at hwords hclear
    obtain ⟨rfl, rfl⟩ := List.cons.inj hwords
    have houtside := Option.filter_eq_none_iff.mp hclear t ht
    simpa [Word.stop] using houtside
  · intro w hw
    have apart := Line.cut_apart line
    rw [hcut, List.pairwise_cons] at apart
    simpa [Word.stop] using apart.1 w hw

/-- In an engine that any life has brought about, every key of a registered command reaches it, in
whatever line it comes first, if the key is one word by itself whose delimiters are in order; a key
that is not does not even do so alone. The name of a command is always one word, so that only its
delimiters can be amiss, but an alias may have white space in it. -/
theorem keys_reach_their_commands [Code κ] (config : Config) (us : List (Use κ))
    (registered : ((ofConfig config).after us).commands.Registered command)
    (hasKey : command.HasKey key)
    (free : ((ofConfig config).after us).conversations.find? invoker.conversationKey = none)
    (allowed : ∀ permission, command.permission = some permission →
      invoker.hasPermission permission = true) :
    let e := (ofConfig config).after us
    (Line.OneWord key ↔ ∀ tail, Line.Apart tail → e.Reaches (key ++ tail) invoker command key) ∧
      (key = command.name → (Line.cut key).words = [⟨key, 0⟩]) := by
  intro e
  obtain ⟨changes, hcommands⟩ := commands_after config us
  have hspelled : command.Spelled := by
    rw [hcommands] at registered
    exact Catalogue.spelled_changed changes command registered
  have hfound : e.commands.find? key = some command := by
    rw [hcommands] at registered ⊢
    exact Catalogue.find?_of_hasKey registered hasKey
  have hpermission : command.permission.filter (!invoker.hasPermission ·) = none := by
    rw [Option.filter_eq_none_iff]
    intro permission hneeded
    rw [allowed permission hneeded]
    decide
  refine ⟨⟨?_, ?_⟩, ?_⟩
  · intro hword tail apart
    obtain ⟨⟨words, hwords⟩, hclear⟩ := hword.cut_append apart
    have hrequest :=
      request?_eq_some_iff.mpr ⟨_, words, hwords, hclear, hfound, hpermission, rfl⟩
    exact reaches_of_request? free (by rw [← hwords]) hrequest
  · intro hreaches
    obtain ⟨words, trouble, hcut, hrequest, -⟩ := hreaches "" nofun
    rw [String.append_empty] at hcut hrequest
    have hwords : (Line.cut key).words = ⟨key, 0⟩ :: words := congrArg Line.Pieces.words hcut
    obtain ⟨name, others, hwords', hclear, -⟩ := request?_eq_some_iff.mp hrequest
    obtain ⟨rfl, rfl⟩ := List.cons.inj (hwords'.symm.trans hwords)
    exact Line.oneWord_of_head hwords hclear
  · rintro rfl
    exact Line.words_cut_of_unbroken hspelled.unbroken hspelled.nonempty

/-- An engine at which some commands have been registered. -/
def knowing (ds : List (CommandDeclaration Unit)) : Engine Unit :=
  (ofConfig {}).after (ds.map fun d => ⟨.registerCommand d, idling⟩)

theorem registered_of_knowing {ds : List (CommandDeclaration Unit)} {command : Command Unit}
    {name : String} (h : (knowing ds).commands.find? name = some command) :
    (knowing ds).commands.Registered command :=
  Catalogue.registered_of_find? (sound_after {} _).pools.keyed h

/-- An alias may even have a space in it, if this stands between brackets. -/
theorem bracketed_alias_reaches :
    let e := knowing
      [{ name := "Paint", aliases := ["[Big Red]"], permission := some "op",
         execution := .sync () }]
    let ada : Invoker := ⟨"ada", some ["op"], [], none⟩
    letI := idling
    ∃ command, e.commands.Registered command ∧ command.HasKey "[big red]" ∧
      e.conversations.find? ada.conversationKey = none ∧
      (∀ permission, command.permission = some permission →
        ada.hasPermission permission = true) ∧
      e.Reaches ("[big red]" ++ " now ]") ada command "[big red]" := by
  intro e ada
  have hshape : (e.commands.find? "paint").map (fun c => (c.aliases, c.permission)) =
      some (["[big red]"], some "op") := by
    decide +kernel
  obtain ⟨command, hfound, hshape⟩ := Option.map_eq_some_iff.mp hshape
  obtain ⟨haliases, hpermission⟩ := Prod.mk.inj hshape
  have registered : e.commands.Registered command := registered_of_knowing hfound
  have hasKey : command.HasKey "[big red]" := by
    refine .inr ?_
    rw [haliases]
    exact List.mem_singleton_self _
  have allowed : ∀ permission, command.permission = some permission →
      ada.hasPermission permission = true := by
    rintro permission hneeded
    obtain rfl := Option.some.inj (hpermission.symm.trans hneeded)
    decide
  have hword : Line.OneWord "[big red]" := by
    rw [Line.OneWord]
    decide +kernel
  have apart : Line.Apart " now ]" := by
    intro c hc
    obtain rfl : ' ' = c := Option.some.inj hc
    rfl
  let := idling
  exact ⟨command, registered, hasKey, rfl, allowed,
    (keys_reach_their_commands {} _ registered hasKey rfl allowed).1.mp hword " now ]" apart⟩

/-- An alias with a space in it and a name with a bracket too many: both are registered, and neither
can be typed. -/
theorem registered_keys_cannot_be_typed :
    let e := knowing [{ name := "paint", aliases := ["big red"], execution := .sync () },
      { name := "a]", execution := .sync () }]
    let ada : Invoker := ⟨"ada", some [], [], none⟩
    letI := idling
    e.conversations.find? ada.conversationKey = none ∧
    (∃ command, e.commands.Registered command ∧ command.HasKey "big red" ∧
      command.permission = none ∧ (e.execute "big red" ada).value.1 =
        .completed { kind := .unknownCommand "big" : Error }.response) ∧
    ∃ command, e.commands.Registered command ∧ command.HasKey "a]" ∧
      command.permission = none ∧ (e.execute "a]" ada).value.1 =
        .completed { kind := .scan ⟨.unexpected ']', "]", 1⟩ : Error }.response := by
  intro e ada
  have hpaint : (e.commands.find? "paint").map (fun c => (c.aliases, c.permission)) =
      some (["big red"], none) := by
    decide +kernel
  have hbracket : (e.commands.find? "a]").map (fun c => (c.name, c.permission)) =
      some ("a]", none) := by
    decide +kernel
  obtain ⟨paint, hfound, hpaint⟩ := Option.map_eq_some_iff.mp hpaint
  obtain ⟨bracket, hfound', hbracket⟩ := Option.map_eq_some_iff.mp hbracket
  obtain ⟨haliases, hpaintFree⟩ := Prod.mk.inj hpaint
  obtain ⟨hname, hbracketFree⟩ := Prod.mk.inj hbracket
  refine ⟨rfl, ⟨paint, registered_of_knowing hfound, .inr ?_, hpaintFree, ?_⟩, bracket,
    registered_of_knowing hfound', .inl hname.symm, hbracketFree, ?_⟩
  · rw [haliases]
    exact List.mem_singleton_self _
  · decide +kernel
  · decide +kernel

end CommandConsole.Engine
