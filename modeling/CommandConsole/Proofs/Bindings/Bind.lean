import CommandConsole.Proofs.Bindings.Binding

/-! When a line is bound to an overload, to what, and what it is told otherwise. -/
namespace CommandConsole.BindRequest

open Text

/-- The overload that a line is bound to, or fails to be bound to. -/
def Selects (q : BindRequest) (overloads : List Signature) (i : Nat) (s : Signature) : Prop :=
  Signature.select? overloads q.words.length = some i ∧ overloads[i]? = some s

/-- No trouble with delimiters stands against a signature: there is none, or the remainder begins
no later. -/
def Clear (q : BindRequest) (s : Signature) : Prop :=
  ∀ e, q.trouble = some e → ∃ (i : Nat) (p : Parameter) (w : Word), s.parameters[i]? = some p ∧
    p.isRemainder = true ∧ q.words[i]? = some w ∧ w.start ≤ e.position

/-- A word has gone into an entry: its own, or that of a remainder, in whose text it stands, up to
white space at its end. -/
def Consumes (q : BindRequest) (s : Signature) (es : Table String Binding) (i : Nat) (w : Word) :
    Prop :=
  (∃ p v, s.parameters[i]? = some p ∧ p.isRemainder = false ∧
    es[i]? = some (lowercase p.name, ⟨v, p.type⟩) ∧ q.Accepts p w v) ∨
  ∃ (n : Nat) (p : Parameter) (first : Word) (text : String) (before after : List Char),
    n ≤ i ∧ s.parameters[n]? = some p ∧ p.isRemainder = true ∧ q.words[n]? = some first ∧
      es[n]? = some (lowercase p.name, ⟨.text text, p.type⟩) ∧
      text.toList = before ++ trimRight w.text.toList ++ after ∧
      first.start + width before = w.start

variable {q : BindRequest} {s : Signature} {overloads : List Signature} {pool : Pool} {w first : Word}
  {text : String} {es : Table String Binding}

/-- The text of a line from a word on holds every later word, up to white space at the end. -/
theorem Runs.contains (h : q.Runs first text) (hw : Line.Stands q.line.toList w)
    (hle : first.start ≤ w.start) :
    ∃ before after, text.toList = before ++ trimRight w.text.toList ++ after ∧
      first.start + width before = w.start := by
  obtain ⟨before, rest, hline, hstart, rfl⟩ := h
  obtain ⟨past, after, hpast, hwstart, c, hc, hblank⟩ := hw
  rw [hline, List.append_assoc] at hpast
  obtain ⟨x, hx, hrest⟩ := append_eq_append_of_width hpast (by omega)
  obtain ⟨u, hu⟩ := exists_trimRight_append w.text.toList after
  have hne : trimRight (w.text.toList ++ after) ≠ [] := by
    intro hnil
    have hall := trimRight_eq_nil.mp hnil c
      (List.mem_append_left after (List.mem_of_mem_head? hc))
    rw [hblank] at hall
    cases hall
  refine ⟨x, u, ?_, ?_⟩
  · rw [trimEnd, String.toList_ofList, String.toList_ofList, hrest,
      trimRight_append_of_ne_nil x hne, hu, List.append_assoc]
  · rw [← hstart, ← hwstart, hx, width_append]

/-- If a signature accepts the words, its remainder has one to begin with. -/
theorem exists_first_of_remainder (h : s.WellFormed) (ha : s.accepts q.words.length = true)
    {n : Nat} {p : Parameter} (hp : s.parameters[n]? = some p) (hr : p.isRemainder = true) :
    ∃ first, q.words[n]? = some first := by
  cases hw : q.words[n]? with
  | some first => exact ⟨first, rfl⟩
  | none =>
    obtain ⟨v, hv⟩ := h.default_of_accepts ha hp (List.getElem?_eq_none_iff.mp hw)
    rw [(h.checked p (List.mem_of_getElem? hp)).remainder hr] at hv
    cases hv

theorem remainderCovers_iff (h : s.WellFormed) (position : Nat) :
    q.remainderCovers s position = true ↔
      ∃ (i : Nat) (p : Parameter) (w : Word), s.parameters[i]? = some p ∧ p.isRemainder = true ∧
        q.words[i]? = some w ∧ w.start ≤ position := by
  simp only [remainderCovers, Bool.and_eq_true, h.hasRemainder_iff]
  constructor
  · rintro ⟨⟨p, hp, hr⟩, hcovers⟩
    obtain ⟨i, hi⟩ := List.mem_iff_getElem?.mp hp
    have hlast := h.remainderLast i p hi hr
    have hindex : s.parameters.length - 1 = i := by omega
    rw [hindex] at hcovers
    cases hw : q.words[i]? with
    | none =>
      rw [hw] at hcovers
      cases hcovers
    | some w =>
      rw [hw] at hcovers
      exact ⟨i, p, w, hi, hr, hw, by simpa using hcovers⟩
  · rintro ⟨i, p, w, hp, hr, hw, hle⟩
    have hlast := h.remainderLast i p hp hr
    have hindex : s.parameters.length - 1 = i := by omega
    refine ⟨⟨p, List.mem_of_getElem? hp, hr⟩, ?_⟩
    rw [hindex, hw]
    simpa using hle

theorem standingTrouble_eq_none_iff (h : s.WellFormed) : q.standingTrouble s = none ↔ q.Clear s := by
  simp only [standingTrouble, Option.filter_eq_none_iff, Clear]
  constructor
  · intro hnone e he
    apply (remainderCovers_iff h e.position).mp
    simpa using hnone e he
  · intro hclear e he
    have := (remainderCovers_iff h e.position).mpr (hclear e he)
    simp [this]

/-- Trouble that stands is the trouble of the line. -/
theorem trouble_of_not_clear (h : s.WellFormed) (hc : ¬ q.Clear s) :
    ∃ e, q.trouble = some e ∧ q.standingTrouble s = some e := by
  cases ht : q.standingTrouble s with
  | none => exact absurd ((standingTrouble_eq_none_iff h).mp ht) hc
  | some e => exact ⟨e, (Option.filter_eq_some_iff.mp ht).1, rfl⟩

theorem Fills.consumes (fills : q.Fills s.parameters q.words es) (h : s.WellFormed)
    (ha : s.accepts q.words.length = true) (located : ∀ w ∈ q.words, Line.Stands q.line.toList w)
    (apart : q.words.Pairwise fun v w => v.stop ≤ w.start) {i : Nat} (hw : q.words[i]? = some w) :
    q.Consumes s es i w := by
  obtain ⟨hi, hget⟩ := List.getElem?_eq_some_iff.mp hw
  rcases h.parameter_of_accepts ha hi with ⟨p, hp, hfixed⟩ | ⟨n, p, hp, hr, hn⟩
  · obtain ⟨v, hes, gives⟩ := fills.each i p hp
    rw [hw] at gives
    exact .inl ⟨p, v, hp, hfixed, hes, gives⟩
  · obtain ⟨first, hfirst⟩ := exists_first_of_remainder h ha hp hr
    obtain ⟨v, hes, gives⟩ := fills.each n p hp
    rw [hfirst] at gives
    obtain ⟨hlt, hgetFirst⟩ := List.getElem?_eq_some_iff.mp hfirst
    have hle : first.start ≤ w.start := by
      rcases Nat.lt_or_eq_of_le hn with hlt' | rfl
      · have hstop := List.pairwise_iff_getElem.mp apart n i hlt hi hlt'
        rw [hgetFirst, hget, Word.stop] at hstop
        omega
      · rw [hfirst] at hw
        injection hw with hw
        exact Nat.le_of_eq (congrArg Word.start hw)
    cases gives with
    | word fixed scanned parsed passes =>
      rw [hr] at fixed
      cases fixed
    | remainder takes runs passes =>
      obtain ⟨before, after, htext, hstart⟩ :=
        runs.contains (located w (List.mem_of_getElem? hw)) hle
      exact .inr ⟨n, p, first, _, before, after, hn, hp, hr, hfirst, hes, htext, hstart⟩

/-- What becomes of a line once an overload is chosen. -/
inductive Fate (q : BindRequest) (s : Signature) : Except ErrorKind Bindings → Prop where
  | bound {es : Table String Binding} (clear : q.Clear s)
      (fills : q.Fills s.parameters q.words es) : Fate q s (.ok ⟨es⟩)
  | refused {e : ErrorKind} (clear : q.Clear s) (fails : q.Fails s.parameters q.words e) :
      Fate q s (.error e)
  | troubled {e : ScanError} (stands : ¬ q.Clear s) (trouble : q.trouble = some e) :
      Fate q s (.error (.scan e))

theorem bindTo_fate (h : s.WellFormed) (ha : s.accepts q.words.length = true)
    (located : ∀ w ∈ q.words, Line.Stands q.line.toList w) (used : pool.Used) :
    q.Fate s (q.bindTo s pool).1 := by
  by_cases clear : q.Clear s
  · rw [bindTo_of_clear ((standingTrouble_eq_none_iff h).mpr clear)]
    have hempty := used.rent_entries
    have hfill := fill_outcome (q := q) pool.rent.1 located
      (fun i p hp hi => h.default_of_accepts ha hp hi)
      (by rw [hempty, h.lowercase_names]; exact h.distinct)
    rw [hempty] at hfill
    rcases hfill with ⟨es, hfill, fills⟩ | ⟨e, hfill, fails⟩
    · rw [hfill]
      exact .bound clear fills
    · rw [hfill]
      exact .refused clear fails
  · obtain ⟨e, htrouble, hstanding⟩ := trouble_of_not_clear h clear
    rw [bindTo_of_trouble hstanding]
    exact .troubled clear htrouble

theorem Fills.keys (fills : q.Fills s.parameters q.words es) :
    es.map Prod.fst = s.parameters.map fun p => lowercase p.name := by
  apply List.ext_getElem?
  intro i
  rw [List.getElem?_map, List.getElem?_map]
  cases hp : s.parameters[i]? with
  | none =>
    rw [List.getElem?_eq_none_iff] at hp
    rw [List.getElem?_eq_none_iff.mpr (by rw [fills.length]; exact hp)]
    rfl
  | some p =>
    obtain ⟨v, hes, -⟩ := fills.each i p hp
    rw [hes]
    rfl

theorem Fails.ne_internal {ps : List Parameter} {ws : List Word} {e : ErrorKind}
    (fails : q.Fails ps ws e) (message : String) : e ≠ .internal message := by
  obtain ⟨i, p, w, -, -, refuses, -⟩ := fails
  rintro rfl
  cases refuses

/-- What is known of the request that a line makes once its first word is taken off. -/
theorem request_of_cut {line : String} {name : Word} {words : List Word}
    {trouble : Option ScanError} (h : Line.cut line = ⟨name :: words, trouble⟩) :
    (∀ w ∈ words, Line.Stands line.toList w) ∧ words.Pairwise fun v w => v.stop ≤ w.start := by
  have hwords : (Line.cut line).words = name :: words := congrArg Line.Pieces.words h
  refine ⟨?_, ?_⟩
  · intro w hw
    exact Line.stands_of_mem_cut (by rw [hwords]; exact List.mem_cons_of_mem name hw)
  · have apart := Line.cut_apart line
    rw [hwords] at apart
    exact (List.pairwise_cons.mp apart).2

theorem Selects.unique {i j : Nat} {t : Signature} (h : q.Selects overloads i s)
    (h' : q.Selects overloads j t) : i = j ∧ s = t := by
  obtain ⟨hi, hs⟩ := h
  obtain ⟨hj, ht⟩ := h'
  rw [hi] at hj
  injection hj with hj
  subst hj
  rw [hs] at ht
  injection ht with ht
  exact ⟨rfl, ht⟩

/-- What is wrong with a line that no overload accepts: its delimiters, or else the number of its
words. -/
def misfit (q : BindRequest) (overloads : List Signature) : ErrorKind :=
  match q.trouble with
  | some e => .scan e
  | none => .noOverload q.words.length (Signature.usageLines overloads q.command)

/-- What a line is answered with: no overload accepts the number of its words, or one is chosen and
decides. -/
inductive Outcome (q : BindRequest) (overloads : List Signature) : Except Error Bound → Prop where
  | unselected (unfit : Signature.select? overloads q.words.length = none) :
      Outcome q overloads (.error ⟨q.misfit overloads, some q.context⟩)
  | bound {i : Nat} {s : Signature} {b : Bindings} (selects : q.Selects overloads i s)
      (well : s.WellFormed) (accepts : s.accepts q.words.length = true)
      (fate : q.Fate s (.ok b)) : Outcome q overloads (.ok ⟨i, b⟩)
  | failed {i : Nat} {s : Signature} {e : ErrorKind} (selects : q.Selects overloads i s)
      (fate : q.Fate s (.error e)) :
      Outcome q overloads
        (.error ⟨e, some { q.context with notes := ["usage: " ++ s.usage q.command] }⟩)

theorem bind_outcome (built : ∀ s ∈ overloads, s.Built)
    (located : ∀ w ∈ q.words, Line.Stands q.line.toList w) (used : pool.Used) :
    q.Outcome overloads (q.bind overloads pool).1 := by
  cases h : Signature.select? overloads q.words.length with
  | none =>
    rw [bind_of_unselected h]
    exact .unselected h
  | some i =>
    obtain ⟨s, hs, ha⟩ := Signature.accepts_of_select? h
    have well := (built s (List.mem_of_getElem? hs)).wellFormed
    have fate := bindTo_fate well ha located used
    rw [bind_of_selected h hs]
    generalize q.bindTo s pool = bound at fate
    obtain ⟨e | b, left⟩ := bound
    · exact .failed ⟨h, hs⟩ fate
    · exact .bound ⟨h, hs⟩ well ha fate

variable {result : Except Error Bound}

theorem Outcome.ok_iff (h : q.Outcome overloads result) :
    (∃ b, result = .ok b) ↔ (∃ s ∈ overloads, s.accepts q.words.length = true) ∧
      ∀ i s, q.Selects overloads i s → q.Clear s ∧
        ∀ (j : Nat) (p : Parameter) (w : Word), s.parameters[j]? = some p →
          q.words[j]? = some w → ∃ v, q.Accepts p w v := by
  cases h with
  | unselected unfit =>
    constructor
    · rintro ⟨b, hb⟩
      cases hb
    · rintro ⟨hexists, -⟩
      obtain ⟨i, hi⟩ := Signature.exists_select?_iff.mpr hexists
      rw [unfit] at hi
      cases hi
  | @bound i s b selects well accepts fate =>
    refine ⟨fun _ => ⟨⟨s, List.mem_of_getElem? selects.2, accepts⟩, ?_⟩, fun _ => ⟨_, rfl⟩⟩
    intro j t ht
    obtain ⟨rfl, rfl⟩ := selects.unique ht
    cases fate with
    | bound clear fills =>
      refine ⟨clear, ?_⟩
      intro k p w hp hw
      obtain ⟨v, -, gives⟩ := fills.each k p hp
      rw [hw] at gives
      exact ⟨v, gives⟩
  | @failed i s e selects fate =>
    constructor
    · rintro ⟨b, hb⟩
      cases hb
    · rintro ⟨-, hall⟩
      obtain ⟨clear, accepts⟩ := hall i s selects
      cases fate with
      | refused clear fails =>
        obtain ⟨j, p, w, hp, hw, refuses, -⟩ := fails
        obtain ⟨v, hv⟩ := accepts j p w hp hw
        exact absurd refuses hv.not_refuses
      | troubled stands htrouble => exact absurd clear stands

theorem Outcome.of_ok {b : Bound} (h : q.Outcome overloads (.ok b))
    (located : ∀ w ∈ q.words, Line.Stands q.line.toList w)
    (apart : q.words.Pairwise fun v w => v.stop ≤ w.start) :
    ∃ s, q.Selects overloads b.overload s ∧ q.Fills s.parameters q.words b.arguments.entries ∧
      (b.arguments.entries.map Prod.fst).Nodup ∧
      ∀ (i : Nat) (w : Word), q.words[i]? = some w → q.Consumes s b.arguments.entries i w := by
  cases h with
  | @bound i s b selects well accepts fate =>
    cases fate with
    | bound clear fills =>
      refine ⟨s, selects, fills, ?_, fun j w hw => fills.consumes well accepts located apart hw⟩
      rw [fills.keys, well.lowercase_names]
      exact well.distinct

theorem Outcome.of_error {e : Error} (h : q.Outcome overloads (.error e)) :
    (∀ message, e.kind ≠ .internal message) ∧
      ((Signature.select? overloads q.words.length = none ∧
          e = ⟨q.misfit overloads, some q.context⟩) ∨
        ∃ i s, q.Selects overloads i s ∧
          e.context = some { q.context with notes := ["usage: " ++ s.usage q.command] } ∧
          ((¬ q.Clear s ∧ ∃ t, q.trouble = some t ∧ e.kind = .scan t) ∨
            q.Clear s ∧ q.Fails s.parameters q.words e.kind)) := by
  cases h with
  | unselected unfit =>
    refine ⟨?_, .inl ⟨unfit, rfl⟩⟩
    intro message
    simp only [misfit]
    cases q.trouble <;> simp
  | @failed i s e selects fate =>
    cases fate with
    | refused clear fails =>
      exact ⟨fails.ne_internal, .inr ⟨i, s, selects, rfl, .inr ⟨clear, fails⟩⟩⟩
    | @troubled t stands htrouble =>
      refine ⟨?_, .inr ⟨i, s, selects, rfl, .inl ⟨stands, t, htrouble, rfl⟩⟩⟩
      intro message hinternal
      cases hinternal

/-- A line is bound exactly if some overload accepts the number of its words and the one that is
chosen finds no trouble before its remainder and nothing to refuse. It is then bound by one entry
for each parameter, into which all its words go. Otherwise the trouble of the line stands, or no
overload fits, or the first word that is refused says why. -/
theorem bind_meets_specification {overloads : List Signature} {pool : Pool} {line : String}
    {name : Word} {words : List Word} {trouble : Option ScanError}
    (built : ∀ s ∈ overloads, s.Built) (used : pool.Used)
    (hcut : Line.cut line = ⟨name :: words, trouble⟩) (command : String) (invoker : Invoker) :
    let q : BindRequest := ⟨command, line, words, invoker, trouble⟩
    let result := (q.bind overloads pool).1
    ((∃ b, result = .ok b) ↔ (∃ s ∈ overloads, s.accepts words.length = true) ∧
      ∀ i s, q.Selects overloads i s → q.Clear s ∧
        ∀ (j : Nat) (p : Parameter) (w : Word), s.parameters[j]? = some p → words[j]? = some w →
          ∃ v, q.Accepts p w v) ∧
    (∀ b, result = .ok b → ∃ s, q.Selects overloads b.overload s ∧
      q.Fills s.parameters words b.arguments.entries ∧
      (b.arguments.entries.map Prod.fst).Nodup ∧
      ∀ (i : Nat) (w : Word), words[i]? = some w → q.Consumes s b.arguments.entries i w) ∧
    (∀ e, result = .error e → (∀ message, e.kind ≠ .internal message) ∧
      ((Signature.select? overloads words.length = none ∧
          e = ⟨q.misfit overloads, some q.context⟩) ∨
        ∃ i s, q.Selects overloads i s ∧
          e.context = some { q.context with notes := ["usage: " ++ s.usage command] } ∧
          ((¬ q.Clear s ∧ ∃ t, trouble = some t ∧ e.kind = .scan t) ∨
            q.Clear s ∧ q.Fails s.parameters words e.kind))) := by
  intro q result
  obtain ⟨located, apart⟩ := request_of_cut hcut
  have outcome : q.Outcome overloads result := bind_outcome built located used
  refine ⟨outcome.ok_iff, ?_, ?_⟩
  · intro b hb
    rw [hb] at outcome
    exact outcome.of_ok located apart
  · intro e he
    rw [he] at outcome
    exact outcome.of_error

/-- `tell <target:string> <message...>` -/
def tell : Signature :=
  match ((Signature.Draft.empty.argument "target" .text).remainder "message").build .builtin with
  | .ok s => s
  | .error _ => .empty

theorem built_tell : tell.Built :=
  ⟨(Signature.Draft.empty.argument "target" .text).remainder "message", .builtin, rfl⟩

/-- Whoever is told something may be told it with a bracket open. -/
theorem bind_open_bracket :
    let trouble : ScanError := .here (.unterminated "[") "[x".toList 13
    let q : BindRequest :=
      ⟨"tell", "tell bob  hi [x", [⟨"bob", 5⟩, ⟨"hi", 10⟩, ⟨"[x", 13⟩], .named "op", some trouble⟩
    Line.cut "tell bob  hi [x" = ⟨⟨"tell", 0⟩ :: q.words, some trouble⟩ ∧
      ∃ b, (q.bind [tell] (.ofCapacity 4)).1 = .ok b := by
  intro trouble q
  have hcut : Line.cut "tell bob  hi [x" = ⟨⟨"tell", 0⟩ :: q.words, some trouble⟩ := by decide
  have built : ∀ s ∈ [tell], s.Built := by
    intro s hs
    rw [List.mem_singleton] at hs
    exact hs ▸ built_tell
  refine ⟨hcut, ?_⟩
  apply (bind_meets_specification built (.fresh 4) hcut "tell" (.named "op")).1.mpr
  refine ⟨⟨tell, List.mem_singleton_self tell, rfl⟩, ?_⟩
  rintro i s ⟨-, hs⟩
  obtain rfl : s = tell := List.mem_singleton.mp (List.mem_of_getElem? hs)
  refine ⟨?_, ?_⟩
  · intro e he
    injection he with he
    subst he
    exact ⟨1, _, ⟨"hi", 10⟩, rfl, rfl, rfl, by decide⟩
  · intro j p w hp hw
    match j with
    | 0 =>
      injection hp with hp
      injection hw with hw
      subst hp hw
      have scanned : Token.scan "bob" 5 q.invoker.property = .ok (.plain "bob") := rfl
      refine ⟨.text "bob", .word rfl scanned rfl ?_⟩
      intro c hc
      cases hc
    | 1 =>
      injection hp with hp
      injection hw with hw
      subst hp hw
      have runs : q.Runs ⟨"hi", 10⟩ _ :=
        ⟨"tell bob  ".toList, "hi [x".toList, by decide, by decide, rfl⟩
      refine ⟨_, .remainder rfl runs ?_⟩
      intro c hc
      cases hc
    | j + 2 => cases hp
end CommandConsole.BindRequest
