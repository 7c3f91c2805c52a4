import CommandConsole.Proofs.Bindings.Storage
import CommandConsole.Proofs.Line.Words
import CommandConsole.Proofs.Signature.Shape

/-! What the words of a line give the parameters of an overload, and which of them is at fault if
they give nothing. -/
namespace CommandConsole.BindRequest

open Text

/-- Every constraint of a parameter lets a value pass. -/
def Passes (q : BindRequest) (p : Parameter) (v : Value) : Prop :=
  ∀ c ∈ p.constraints, c.check v ⟨q.invoker, p.name, q.line⟩ = none

/-- Some constraint of a parameter refuses a value, and those before it let it pass. -/
def Stops (q : BindRequest) (p : Parameter) (v : Value) (reason : Refusal) : Prop :=
  ∃ earlier c later, p.constraints = earlier ++ c :: later ∧
    c.check v ⟨q.invoker, p.name, q.line⟩ = some reason ∧
    ∀ d ∈ earlier, d.check v ⟨q.invoker, p.name, q.line⟩ = none

/-- The text of a line from a word on, without the white space at its end. -/
def Runs (q : BindRequest) (w : Word) (text : String) : Prop :=
  ∃ before rest, q.line.toList = before ++ rest ∧ width before = w.start ∧
    text = trimEnd (String.ofList rest)

/-- The value that a word gives a parameter. -/
inductive Accepts (q : BindRequest) (p : Parameter) (w : Word) : Value → Prop where
  | word {token : Token} {v : Value} (fixed : p.isRemainder = false)
      (scanned : Token.scan w.text w.start q.invoker.property = .ok token)
      (parsed : p.parser.parser.parse [w.start] token = .ok v) (passes : q.Passes p v) :
      Accepts q p w v
  | remainder {text : String} (takes : p.isRemainder = true) (runs : q.Runs w text)
      (passes : q.Passes p (.text text)) : Accepts q p w (.text text)

/-- What is wrong with a word as the argument of a parameter: the first thing that goes wrong when
it is scanned, parsed and checked. -/
inductive Refuses (q : BindRequest) (p : Parameter) (w : Word) : ErrorKind → Prop where
  | unscanned {e : ScanError} (fixed : p.isRemainder = false)
      (scanned : Token.scan w.text w.start q.invoker.property = .error e) :
      Refuses q p w (.scan e)
  | unparsed {token : Token} {reason : Refusal} (fixed : p.isRemainder = false)
      (scanned : Token.scan w.text w.start q.invoker.property = .ok token)
      (parsed : p.parser.parser.parse [w.start] token = .error reason) :
      Refuses q p w (.bind p.name p.expected w.text reason)
  | unchecked {token : Token} {v : Value} {reason : Refusal} (fixed : p.isRemainder = false)
      (scanned : Token.scan w.text w.start q.invoker.property = .ok token)
      (parsed : p.parser.parser.parse [w.start] token = .ok v) (stops : q.Stops p v reason) :
      Refuses q p w (.bind p.name p.expected w.text reason)
  | remainder {text : String} {reason : Refusal} (takes : p.isRemainder = true)
      (runs : q.Runs w text) (stops : q.Stops p (.text text) reason) :
      Refuses q p w (.bind p.name p.expected text reason)

/-- What a parameter is bound to: what the word in its place gives, or its default as it is. -/
def Gives (q : BindRequest) (p : Parameter) : Option Word → Value → Prop
  | some w, v => q.Accepts p w v
  | none, v => p.default = some v

/-- One entry for each parameter, in order, under its name in lower case and of its type. -/
structure Fills (q : BindRequest) (ps : List Parameter) (ws : List Word)
    (es : Table String Binding) : Prop where
  length : es.length = ps.length
  each : ∀ (i : Nat) (p : Parameter), ps[i]? = some p →
    ∃ v, es[i]? = some (lowercase p.name, ⟨v, p.type⟩) ∧ q.Gives p ws[i]? v

/-- The error is that of the first word that is refused. -/
def Fails (q : BindRequest) (ps : List Parameter) (ws : List Word) (e : ErrorKind) : Prop :=
  ∃ (i : Nat) (p : Parameter) (w : Word), ps[i]? = some p ∧ ws[i]? = some w ∧ q.Refuses p w e ∧
    ∀ j < i, ∀ p' w', ps[j]? = some p' → ws[j]? = some w' → ∃ v, q.Accepts p' w' v

variable {q : BindRequest} {p : Parameter} {ps : List Parameter} {w : Word} {ws : List Word}
  {v : Value} {e : ErrorKind} {es : Table String Binding} {text : String} {reason : Refusal}

theorem firstRefusal_eq_none_iff :
    Constraint.firstRefusal p.constraints v ⟨q.invoker, p.name, q.line⟩ = none ↔ q.Passes p v := by
  simp only [Constraint.firstRefusal, List.findSome?_eq_none_iff, Passes]

theorem firstRefusal_eq_some_iff :
    Constraint.firstRefusal p.constraints v ⟨q.invoker, p.name, q.line⟩ = some reason ↔
      q.Stops p v reason := by
  simp only [Constraint.firstRefusal, List.findSome?_eq_some_iff, Stops]

theorem Runs.remainderFrom (h : q.Runs w text) : q.remainderFrom w = text := by
  obtain ⟨before, rest, hline, hstart, rfl⟩ := h
  simp only [BindRequest.remainderFrom, hline, ← hstart, dropBytes?_append]

theorem Accepts.valueOf (h : q.Accepts p w v) : q.valueOf p w = .ok v := by
  cases h with
  | word fixed scanned parsed passes =>
    simp only [BindRequest.valueOf, read, fixed, scanned, parsed, Bool.false_eq_true, if_false,
      firstRefusal_eq_none_iff.mpr passes]
  | remainder takes runs passes =>
    simp only [BindRequest.valueOf, read, takes, if_true, runs.remainderFrom,
      firstRefusal_eq_none_iff.mpr passes]

theorem Refuses.valueOf (h : q.Refuses p w e) : q.valueOf p w = .error e := by
  cases h with
  | unscanned fixed scanned =>
    simp only [BindRequest.valueOf, read, fixed, scanned, Bool.false_eq_true, if_false]
  | unparsed fixed scanned parsed =>
    simp only [BindRequest.valueOf, read, fixed, scanned, parsed, Bool.false_eq_true, if_false]
  | unchecked fixed scanned parsed stops =>
    simp only [BindRequest.valueOf, read, fixed, scanned, parsed, Bool.false_eq_true, if_false,
      firstRefusal_eq_some_iff.mpr stops]
  | remainder takes runs stops =>
    simp only [BindRequest.valueOf, read, takes, if_true, runs.remainderFrom,
      firstRefusal_eq_some_iff.mpr stops]

theorem Accepts.not_refuses (h : q.Accepts p w v) : ¬ q.Refuses p w e := by
  intro hrefuses
  have heq := h.valueOf.symm.trans hrefuses.valueOf
  cases heq

/-- A value that has been read is accepted or stopped by a constraint. -/
theorem passes_or_stops (q : BindRequest) (p : Parameter) (v : Value) :
    q.Passes p v ∨ ∃ reason, q.Stops p v reason := by
  cases h : Constraint.firstRefusal p.constraints v ⟨q.invoker, p.name, q.line⟩ with
  | none => exact .inl (firstRefusal_eq_none_iff.mp h)
  | some reason => exact .inr ⟨reason, firstRefusal_eq_some_iff.mp h⟩

/-- A word of the line is accepted or refused. -/
theorem accepts_or_refuses (p : Parameter) (hw : Line.Stands q.line.toList w) :
    (∃ v, q.Accepts p w v) ∨ ∃ e, q.Refuses p w e := by
  cases hr : p.isRemainder with
  | true =>
    obtain ⟨before, after, hline, hstart, -⟩ := hw
    rw [List.append_assoc] at hline
    have runs : q.Runs w _ := ⟨before, _, hline, hstart, rfl⟩
    rcases q.passes_or_stops p (.text (trimEnd (String.ofList (w.text.toList ++ after)))) with
      passes | ⟨reason, stops⟩
    · exact .inl ⟨_, .remainder hr runs passes⟩
    · exact .inr ⟨_, .remainder hr runs stops⟩
  | false =>
    cases hscan : Token.scan w.text w.start q.invoker.property with
    | error e => exact .inr ⟨_, .unscanned hr hscan⟩
    | ok token =>
      cases hparse : p.parser.parser.parse [w.start] token with
      | error reason => exact .inr ⟨_, .unparsed hr hscan hparse⟩
      | ok v =>
        rcases q.passes_or_stops p v with passes | ⟨reason, stops⟩
        · exact .inl ⟨v, .word hr hscan hparse passes⟩
        · exact .inr ⟨_, .unchecked hr hscan hparse stops⟩

theorem Fills.nil (q : BindRequest) (ws : List Word) : q.Fills [] ws [] := by
  refine ⟨rfl, ?_⟩
  intro i p h
  cases h

theorem Fills.cons (hgives : q.Gives p ws[0]? v) (h : q.Fills ps ws.tail es) :
    q.Fills (p :: ps) ws ((lowercase p.name, ⟨v, p.type⟩) :: es) := by
  refine ⟨congrArg (· + 1) h.length, ?_⟩
  intro i p' hp
  cases i with
  | zero =>
    injection hp with hp
    subst hp
    exact ⟨v, rfl, hgives⟩
  | succ i =>
    obtain ⟨v', hes, hgives'⟩ := h.each i p' hp
    refine ⟨v', hes, ?_⟩
    rw [List.getElem?_tail] at hgives'
    exact hgives'

theorem Fails.head (h : q.Refuses p w e) : q.Fails (p :: ps) (w :: ws) e := by
  refine ⟨0, p, w, rfl, rfl, h, ?_⟩
  intro j hj
  omega

theorem Fails.cons (hgives : q.Accepts p w v) (h : q.Fails ps ws e) :
    q.Fails (p :: ps) (w :: ws) e := by
  obtain ⟨i, p', w', hp, hw, hrefuses, hearlier⟩ := h
  refine ⟨i + 1, p', w', hp, hw, hrefuses, ?_⟩
  intro j hj p'' w'' hp'' hw''
  cases j with
  | zero =>
    injection hp'' with hp''
    injection hw'' with hw''
    subst hp'' hw''
    exact ⟨v, hgives⟩
  | succ j => exact hearlier j (by omega) p'' w'' hp'' hw''

/-- Entries are made one behind the other, since the names differ. -/
theorem entries_insert {b : Bindings}
    (distinct : (b.entries.map Prod.fst ++ (p :: ps).map fun p => lowercase p.name).Nodup)
    (v : Value) :
    (b.insert p.name v p.type).entries = b.entries ++ [(lowercase p.name, ⟨v, p.type⟩)] ∧
      ((b.insert p.name v p.type).entries.map Prod.fst ++
        ps.map fun p => lowercase p.name).Nodup := by
  have hnew : lowercase p.name ∉ b.entries.map Prod.fst := by
    intro hin
    exact (List.nodup_append.mp distinct).2.2 _ hin _ (by simp) rfl
  have hinsert := Table.insert_of_notMem hnew (⟨v, p.type⟩ : Binding)
  refine ⟨hinsert, ?_⟩
  simp only [Bindings.insert, hinsert, List.map_append, List.map_singleton, List.append_assoc]
  exact distinct

/-- Where the words have run out, the defaults stand. -/
theorem fill_defaults (q : BindRequest) (b : Bindings)
    (defaults : ∀ p ∈ ps, ∃ v, p.default = some v)
    (distinct : (b.entries.map Prod.fst ++ ps.map fun p => lowercase p.name).Nodup) :
    ∃ es, q.fill ps [] b = .ok ⟨b.entries ++ es⟩ ∧ q.Fills ps [] es := by
  induction ps generalizing b with
  | nil => exact ⟨[], by rw [List.append_nil]; rfl, .nil q []⟩
  | cons p ps ih =>
    obtain ⟨v, hv⟩ := defaults p List.mem_cons_self
    obtain ⟨hentries, hrest⟩ := entries_insert distinct v
    obtain ⟨es, hfill, fills⟩ :=
      ih (b.insert p.name v p.type) (fun p' hp' => defaults p' (List.mem_cons_of_mem p hp')) hrest
    refine ⟨_, ?_, .cons (v := v) hv fills⟩
    simp only [fill, hv, hfill, hentries, List.append_assoc, List.singleton_append]

/-- Parameters are bound one by one, until a word is refused. -/
theorem fill_outcome (b : Bindings) (located : ∀ w ∈ ws, Line.Stands q.line.toList w)
    (defaults : ∀ (i : Nat) (p : Parameter), ps[i]? = some p → ws.length ≤ i →
      ∃ v, p.default = some v)
    (distinct : (b.entries.map Prod.fst ++ ps.map fun p => lowercase p.name).Nodup) :
    (∃ es, q.fill ps ws b = .ok ⟨b.entries ++ es⟩ ∧ q.Fills ps ws es) ∨
      ∃ e, q.fill ps ws b = .error e ∧ q.Fails ps ws e := by
  induction ws generalizing ps b with
  | nil =>
    left
    apply fill_defaults q b _ distinct
    intro p hp
    obtain ⟨i, hi⟩ := List.mem_iff_getElem?.mp hp
    exact defaults i p hi (Nat.zero_le i)
  | cons w ws ih =>
    cases ps with
    | nil => exact .inl ⟨[], by rw [List.append_nil]; rfl, .nil q _⟩
    | cons p ps =>
      rcases accepts_or_refuses p (located w List.mem_cons_self) with
        ⟨v, accepts⟩ | ⟨e, refuses⟩
      · obtain ⟨hentries, hrest⟩ := entries_insert distinct v
        have htail := ih (b.insert p.name v p.type)
          (fun u hu => located u (List.mem_cons_of_mem w hu))
          (fun i p' hp' hi => defaults (i + 1) p' hp' (Nat.succ_le_succ hi)) hrest
        rcases htail with ⟨es, hfill, fills⟩ | ⟨e, hfill, fails⟩
        · have fills' : q.Fills (p :: ps) (w :: ws) _ := .cons (v := v) accepts fills
          refine .inl ⟨_, ?_, fills'⟩
          simp only [fill, accepts.valueOf, hfill, hentries, List.append_assoc,
            List.singleton_append]
        · refine .inr ⟨e, ?_, fails.cons accepts⟩
          simp only [fill, accepts.valueOf, hfill]
      · refine .inr ⟨e, ?_, .head refuses⟩
        simp only [fill, refuses.valueOf]

end CommandConsole.BindRequest
