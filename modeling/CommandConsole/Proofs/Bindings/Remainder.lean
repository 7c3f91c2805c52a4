import CommandConsole.Proofs.Bindings.Bind
import CommandConsole.Proofs.Line.Trouble
import CommandConsole.Proofs.Token.Position

/-! A remainder takes the rest of its line verbatim: only what stands before it can be malformed. -/
namespace CommandConsole

open Text

/-- A condition that does not look at the line as a whole. -/
def Constraint.LineBlind (c : Constraint) : Prop :=
  ∀ v invoker argument line line',
    c.check v ⟨invoker, argument, line⟩ = c.check v ⟨invoker, argument, line'⟩

namespace Signature

variable {s : Signature} {fixed : List Parameter} {p : Parameter}

/-- A signature with a remainder at its end takes any number of words that reach it. -/
theorem WellFormed.accepts_of_remainder (h : s.WellFormed) (shape : s.parameters = fixed ++ [p])
    (takes : p.isRemainder = true) {provided : Nat} (hlt : fixed.length < provided) :
    s.accepts provided = true := by
  have hp : s.parameters[fixed.length]? = some p := by simp [shape]
  have hin : p ∈ s.parameters := List.mem_of_getElem? hp
  have hremainder := h.hasRemainder_iff.mpr ⟨p, hin, takes⟩
  have hrequired := (h.ordered _ p hp).mp ((h.checked p hin).remainder takes)
  have hcount := h.counted
  rw [shape, List.length_append, List.length_singleton] at hcount
  simp only [accepts, hremainder, Bool.true_or, Bool.and_true, decide_eq_true_eq]
  omega

/-- What stands before a remainder is none. -/
theorem WellFormed.isRemainder_of_fixed (h : s.WellFormed) (shape : s.parameters = fixed ++ [p])
    {i : Nat} {r : Parameter} (hr : fixed[i]? = some r) : r.isRemainder = false := by
  have hi := (List.getElem?_eq_some_iff.mp hr).1
  have hs : s.parameters[i]? = some r := by rw [shape, List.getElem?_append_left hi, hr]
  cases htakes : r.isRemainder with
  | false => rfl
  | true =>
    have hlast := h.remainderLast i r hs htakes
    rw [shape, List.length_append, List.length_singleton] at hlast
    omega

end Signature

namespace BindRequest

variable {q : BindRequest} {s : Signature} {fixed : List Parameter} {p : Parameter} {pool : Pool}
  {first w : Word} {e : ErrorKind} {t : ScanError}

/-- Before a remainder, trouble stands exactly if it lies before the first word of the remainder. -/
theorem clear_iff_of_remainder (h : s.WellFormed) (shape : s.parameters = fixed ++ [p])
    (takes : p.isRemainder = true) (hfirst : q.words[fixed.length]? = some first) :
    q.Clear s ↔ ∀ e, q.trouble = some e → first.start ≤ e.position := by
  have hp : s.parameters[fixed.length]? = some p := by simp [shape]
  constructor
  · intro clear e he
    obtain ⟨i, r, w, hr, hremainder, hw, hle⟩ := clear e he
    have hlast := h.remainderLast i r hr hremainder
    rw [shape, List.length_append, List.length_singleton] at hlast
    obtain rfl : i = fixed.length := by omega
    rw [hfirst] at hw
    injection hw with hw
    exact hw ▸ hle
  · intro hall e he
    exact ⟨fixed.length, p, first, hp, takes, hfirst, hall e he⟩

section OtherLine

variable {other : String} (blind : ∀ c ∈ p.constraints, c.LineBlind)

include blind in
theorem firstRefusal_other (v : Value) (invoker : Invoker) (line : String) :
    Constraint.firstRefusal p.constraints v ⟨invoker, p.name, other⟩ =
      Constraint.firstRefusal p.constraints v ⟨invoker, p.name, line⟩ := by
  simp only [Constraint.firstRefusal]
  generalize p.constraints = cs at blind
  induction cs with
  | nil => rfl
  | cons c cs ih =>
    rw [List.findSome?_cons, List.findSome?_cons, blind c List.mem_cons_self v invoker p.name other
      line, ih fun d hd => blind d (List.mem_cons_of_mem c hd)]

include blind in
/-- What a word gives a parameter, or is refused for, does not hang on the rest of the line. -/
theorem accepts_other (hfixed : p.isRemainder = false) {v : Value} (h : q.Accepts p w v) :
    { q with line := other }.Accepts p w v := by
  cases h with
  | word fixed scanned parsed passes =>
    refine .word fixed scanned parsed ?_
    rw [← firstRefusal_eq_none_iff] at passes ⊢
    rw [← passes]
    exact firstRefusal_other blind v q.invoker q.line
  | remainder takes runs passes =>
    rw [hfixed] at takes
    cases takes

include blind in
theorem refuses_other (hfixed : p.isRemainder = false) (h : q.Refuses p w e) :
    { q with line := other }.Refuses p w e := by
  cases h with
  | unscanned fixed scanned => exact .unscanned fixed scanned
  | unparsed fixed scanned parsed => exact .unparsed fixed scanned parsed
  | @unchecked token v reason fixed scanned parsed stops =>
    refine .unchecked fixed scanned parsed ?_
    rw [← firstRefusal_eq_some_iff] at stops ⊢
    rw [← stops]
    exact firstRefusal_other blind v q.invoker q.line
  | remainder takes runs stops =>
    rw [hfixed] at takes
    cases takes

end OtherLine

/-- Whether fixed parameters can be bound, and if not why, does not hang on the rest of the line. -/
theorem Fails.other {words : List Word} (h : q.Fails fixed words e) (other : String)
    (hfixed : ∀ r ∈ fixed, r.isRemainder = false)
    (blind : ∀ r ∈ fixed, ∀ c ∈ r.constraints, c.LineBlind) :
    { q with line := other }.Fails fixed words e := by
  obtain ⟨i, r, w, hr, hw, refuses, hearlier⟩ := h
  have hin := List.mem_of_getElem? hr
  refine ⟨i, r, w, hr, hw, refuses_other (blind r hin) (hfixed r hin) refuses, ?_⟩
  intro j hj r' w' hr' hw'
  have hin' := List.mem_of_getElem? hr'
  obtain ⟨v, hv⟩ := hearlier j hj r' w' hr' hw'
  exact ⟨v, accepts_other (blind r' hin') (hfixed r' hin') hv⟩

/-- Once nothing before a remainder is in trouble, only a fixed word or the constraints of the
remainder can be at fault. -/
theorem Fails.of_remainder (h : q.Fails s.parameters q.words e)
    (shape : s.parameters = fixed ++ [p]) (hfirst : q.words[fixed.length]? = some first)
    {text : String} (runs : q.Runs first text) (takes : p.isRemainder = true) :
    q.Fails fixed (q.words.take fixed.length) e ∨
      ∃ reason, q.Stops p (.text text) reason ∧ e = .bind p.name p.expected text reason := by
  obtain ⟨i, r, w, hr, hw, refuses, hearlier⟩ := h
  rw [shape] at hr hearlier
  rcases Signature.getElem?_concat hr with ⟨hi, hr⟩ | ⟨rfl, rfl⟩
  · left
    refine ⟨i, r, w, hr, by rw [List.getElem?_take_of_lt hi, hw], refuses, ?_⟩
    intro j hj r' w' hr' hw'
    rw [List.getElem?_take_of_lt (by omega)] at hw'
    exact hearlier j hj r' w' (by rw [List.getElem?_append_left (by omega), hr']) hw'
  · right
    rw [hfirst] at hw
    injection hw with hw
    subst hw
    have same := fun t (ht : q.Runs first t) => ht.remainderFrom.symm.trans runs.remainderFrom
    cases refuses with
    | unscanned fixed _ =>
      rw [takes] at fixed
      cases fixed
    | unparsed fixed _ _ =>
      rw [takes] at fixed
      cases fixed
    | unchecked fixed _ _ _ =>
      rw [takes] at fixed
      cases fixed
    | @remainder t reason _ runs' stops =>
      obtain rfl := same t runs'
      exact ⟨reason, stops, rfl⟩

/-- What a remainder is bound to is found under its name. -/
theorem Fills.value?_remainder {es : Table String Binding} {text : String}
    (fills : q.Fills s.parameters q.words es) (well : s.WellFormed)
    (shape : s.parameters = fixed ++ [p]) (takes : p.isRemainder = true)
    (hfirst : q.words[fixed.length]? = some first) (runs : q.Runs first text) :
    (⟨es⟩ : Bindings).value? p.name = some (.text text) := by
  have hp : s.parameters[fixed.length]? = some p := by simp [shape]
  obtain ⟨v, hes, gives⟩ := fills.each _ p hp
  rw [hfirst] at gives
  have hnodup : (es.map Prod.fst).Nodup := by
    rw [fills.keys, well.lowercase_names]
    exact well.distinct
  have hfound := Table.find?_of_mem hnodup (List.mem_of_getElem? hes)
  cases gives with
  | word fixed _ _ _ =>
    rw [takes] at fixed
    cases fixed
  | remainder _ runs' _ =>
    obtain rfl := runs'.remainderFrom.symm.trans runs.remainderFrom
    simp only [Bindings.value?, Bindings.binding?, hfound, Option.map_some]

/-- A scan error of a fixed word lies within the word, before the remainder begins. -/
theorem position_lt_of_fails (h : q.Fails fixed (q.words.take fixed.length) (.scan t))
    (spaced : q.words.Pairwise fun v w => v.stop < w.start)
    (hfirst : q.words[fixed.length]? = some first) : t.position < first.start := by
  obtain ⟨i, r, w, hr, hw, refuses, -⟩ := h
  have hi := (List.getElem?_eq_some_iff.mp hr).1
  rw [List.getElem?_take_of_lt hi] at hw
  obtain ⟨hiw, hgetw⟩ := List.getElem?_eq_some_iff.mp hw
  obtain ⟨hif, hgetf⟩ := List.getElem?_eq_some_iff.mp hfirst
  have hstop := List.pairwise_iff_getElem.mp spaced i fixed.length hiw hif hi
  rw [hgetw, hgetf, Word.stop] at hstop
  cases refuses with
  | unscanned _ scanned =>
    have hle := Token.position_le_of_error scanned
    omega

end BindRequest

namespace Line

/-- The first two words of a line that begins with `echo`. -/
theorem exists_cut_echo {t : String} (h : ¬ Blank t.toList) :
    ∃ text later problem, cut ("echo " ++ t) =
      ⟨⟨"echo", 0⟩ :: ⟨text, 5 + width (t.toList.takeWhile isBlank)⟩ :: later, problem⟩ := by
  cases hrest : t.toList.dropWhile isBlank with
  | nil => exact absurd (List.dropWhile_eq_nil_iff.mp hrest) h
  | cons c rest =>
    obtain ⟨ht, hc⟩ := eq_append_of_dropWhile hrest
    let begun : Cut := ⟨[⟨"echo", 0⟩], none, none, [], none⟩
    have hrun : Cut.initial.run 0 ("echo " ++ t).toList = begun.run 5 t.toList := by
      rw [String.toList_append]
      rfl
    obtain ⟨later, text, hwords⟩ := exists_word_of_blank (s := begun) rfl rfl rfl
      (blank_takeWhile t.toList) hc 5 rest
    rw [← ht] at hwords
    refine ⟨text, later.reverse, begun.run 5 t.toList |>.problem, ?_⟩
    rw [cut, hrun, hwords]
    simp [begun]

end Line

namespace BindRequest

open Line

/-- A line, of which `name` is the first word, reaches the remainder that a signature ends in:
`first` is the word that the remainder begins with, and `text` is what it takes. -/
structure ReachesRemainder (q : BindRequest) (name : Word) (s : Signature) (fixed : List Parameter)
    (p : Parameter) (first : Word) (text : String) : Prop where
  built : s.Built
  shape : s.parameters = fixed ++ [p]
  takes : p.isRemainder = true
  cut : Line.cut q.line = ⟨name :: q.words, q.trouble⟩
  reached : q.words[fixed.length]? = some first
  runs : q.Runs first text

namespace ReachesRemainder

variable {q : BindRequest} {name first : Word} {s : Signature} {fixed : List Parameter}
  {p : Parameter} {pool : Pool} {text : String} {e : ErrorKind}

theorem words_eq (h : q.ReachesRemainder name s fixed p first text) :
    (Line.cut q.line).words =
      (name :: q.words.take fixed.length) ++ first :: q.words.drop (fixed.length + 1) := by
  obtain ⟨hlt, hget⟩ := List.getElem?_eq_some_iff.mp h.reached
  rw [h.cut, List.cons_append, ← hget, List.getElem_cons_drop, List.take_append_drop]

theorem spaced (h : q.ReachesRemainder name s fixed p first text) :
    q.words.Pairwise fun v w => v.stop < w.start := by
  have hspaced := cut_spaced q.line
  rw [h.cut] at hspaced
  exact (List.pairwise_cons.mp hspaced).2

/-- No trouble stands against the signature exactly if the words before the remainder are in
order. -/
theorem clear_iff (h : q.ReachesRemainder name s fixed p first text) :
    q.Clear s ↔ ¬ ∃ w ∈ name :: q.words.take fixed.length, (Line.cut w.text).problem ≠ none := by
  have hbefore := trouble_before_iff h.words_eq
  rw [h.cut] at hbefore
  rw [clear_iff_of_remainder h.built.wellFormed h.shape h.takes h.reached, ← hbefore]
  constructor
  · rintro hall ⟨e, he, hlt⟩
    have := hall e he
    omega
  · intro hnone e he
    by_contra hlt
    exact hnone ⟨e, he, by omega⟩

/-- What becomes of the line, the signature being the only overload. -/
theorem fate (h : q.ReachesRemainder name s fixed p first text) (used : pool.Used) :
    (∃ b, (q.bind [s] pool).1 = .ok ⟨0, b⟩ ∧ q.Fate s (.ok b)) ∨
      ∃ e context, (q.bind [s] pool).1 = .error ⟨e, context⟩ ∧ q.Fate s (.error e) := by
  have hlt := (List.getElem?_eq_some_iff.mp h.reached).1
  have accepts := h.built.wellFormed.accepts_of_remainder h.shape h.takes hlt
  have own : ∀ {i t}, q.Selects [s] i t → i = 0 ∧ t = s := by
    rintro i t ⟨-, ht⟩
    obtain ⟨hi, hget⟩ := List.getElem?_eq_some_iff.mp ht
    obtain rfl : i = 0 := by simpa using hi
    exact ⟨rfl, hget.symm⟩
  have built : ∀ t ∈ [s], t.Built := fun t ht => List.mem_singleton.mp ht ▸ h.built
  have outcome := bind_outcome built (request_of_cut h.cut).1 used
  generalize (q.bind [s] pool).1 = result at outcome
  cases outcome with
  | unselected unfit =>
    obtain ⟨i, hi⟩ := Signature.exists_select?_iff.mpr ⟨s, List.mem_singleton_self s, accepts⟩
    rw [unfit] at hi
    cases hi
  | bound selects well accepts fate =>
    obtain ⟨rfl, rfl⟩ := own selects
    exact .inl ⟨_, rfl, fate⟩
  | failed selects fate =>
    obtain ⟨rfl, rfl⟩ := own selects
    exact .inr ⟨_, _, rfl, fate⟩

/-- A scan error of a fixed word lies within that word, and trouble that no longer stands does
not. -/
theorem ne_trouble_of_fails (h : q.ReachesRemainder name s fixed p first text) {t : ScanError}
    (clear : q.Clear s) (fails : q.Fails fixed (q.words.take fixed.length) (.scan t)) :
    q.trouble ≠ some t := by
  intro ht
  have hlt := position_lt_of_fails fails h.spaced h.reached
  have hle := (clear_iff_of_remainder h.built.wellFormed h.shape h.takes h.reached).mp clear t ht
  omega

/-- The trouble of the line is what it is refused for exactly if it stands. -/
theorem refused_for_trouble_iff (h : q.ReachesRemainder name s fixed p first text)
    (used : pool.Used) :
    (∃ e t, (q.bind [s] pool).1 = .error e ∧ q.trouble = some t ∧ e.kind = .scan t) ↔
      ¬ q.Clear s := by
  rcases h.fate used with ⟨b, hb, fate⟩ | ⟨kind, context, herr, fate⟩
  · rw [hb]
    cases fate with
    | bound clear _ =>
      refine ⟨?_, fun stands => absurd clear stands⟩
      rintro ⟨e, t, he, -⟩
      cases he
  · rw [herr]
    cases fate with
    | @troubled t stands htrouble =>
      exact ⟨fun _ => stands, fun _ => ⟨_, t, rfl, htrouble, rfl⟩⟩
    | refused clear fails =>
      refine ⟨?_, fun stands => absurd clear stands⟩
      rintro ⟨e, t, he, ht, hkind⟩
      injection he with he
      subst he
      obtain rfl : kind = .scan t := hkind
      rcases fails.of_remainder h.shape h.reached h.runs h.takes with fails | ⟨reason, -, hbind⟩
      · exact absurd ht (h.ne_trouble_of_fails clear fails)
      · cases hbind

/-- Any other refusal is for a fixed word or by the constraints of the remainder. -/
theorem refused_for (h : q.ReachesRemainder name s fixed p first text) (used : pool.Used)
    (clear : q.Clear s) {e : Error} (he : (q.bind [s] pool).1 = .error e) :
    q.Fails fixed (q.words.take fixed.length) e.kind ∨
      ∃ reason, q.Stops p (.text text) reason ∧ e.kind = .bind p.name p.expected text reason := by
  rcases h.fate used with ⟨b, hb, -⟩ | ⟨kind, context, herr, fate⟩
  · rw [hb] at he
    cases he
  · rw [herr] at he
    injection he with he
    subst he
    cases fate with
    | troubled stands _ => exact absurd clear stands
    | refused _ fails => exact fails.of_remainder h.shape h.reached h.runs h.takes

/-- If the fixed words are accepted and the constraints of the remainder let its text pass, the
line is bound. -/
theorem bound (h : q.ReachesRemainder name s fixed p first text) (used : pool.Used)
    (clear : q.Clear s)
    (accepted : ∀ (i : Nat) (r : Parameter) (w : Word), fixed[i]? = some r →
      q.words[i]? = some w → ∃ v, q.Accepts r w v)
    (passes : q.Passes p (.text text)) :
    ∃ b, (q.bind [s] pool).1 = .ok b ∧ b.arguments.value? p.name = some (.text text) := by
  rcases h.fate used with ⟨b, hb, fate⟩ | ⟨kind, context, herr, -⟩
  · cases fate with
    | bound _ fills =>
      exact ⟨_, hb, fills.value?_remainder h.built.wellFormed h.shape h.takes h.reached h.runs⟩
  · rcases h.refused_for used clear herr with fails | ⟨reason, stops, -⟩
    · obtain ⟨i, r, w, hr, hw, refuses, -⟩ := fails
      have hi := (List.getElem?_eq_some_iff.mp hr).1
      rw [List.getElem?_take_of_lt hi] at hw
      obtain ⟨v, hv⟩ := accepted i r w hr hw
      exact absurd refuses hv.not_refuses
    · rw [← firstRefusal_eq_none_iff] at passes
      rw [← firstRefusal_eq_some_iff, passes] at stops
      cases stops

end ReachesRemainder

variable {s : Signature} {fixed : List Parameter} {p : Parameter} {pool : Pool}

/-- What is left of a line from its second word on, if it begins with `echo`, is what follows
without the white space around it. -/
theorem runs_echo {q : BindRequest} {t text : String} (hline : q.line = "echo " ++ t) :
    q.Runs ⟨text, 5 + width (t.toList.takeWhile isBlank)⟩ (trim t) := by
  refine ⟨"echo ".toList ++ t.toList.takeWhile isBlank, t.toList.dropWhile isBlank, ?_, ?_, ?_⟩
  · rw [hline, String.toList_append, List.append_assoc, List.takeWhile_append_dropWhile]
  · rw [width_append]
    rfl
  · rw [trim, trimEnd, String.toList_ofList, trimLeft]

/-- For an overload that ends in a remainder and a line that reaches it: the line is refused for its
delimiters exactly if its first word or one of the fixed words is in trouble by itself. Otherwise it
is only refused for a fixed word, or by the constraints of the remainder; and if neither happens the
remainder is bound to the line from its first word on, up to white space at the end. So `echo` is
bound to whatever stands behind it. Constraints of fixed parameters may look at the line as a whole;
if they do not, the rest of the line has no say in whether, or why, the fixed words are refused. -/
theorem remainder_taken_verbatim (built : s.Built) (shape : s.parameters = fixed ++ [p])
    (takes : p.isRemainder = true) (used : pool.Used) (command : String) (invoker : Invoker) :
    (∀ (line : String) (name : Word) (words : List Word) (trouble : Option ScanError),
      Line.cut line = ⟨name :: words, trouble⟩ → fixed.length < words.length →
      let q : BindRequest := ⟨command, line, words, invoker, trouble⟩
      let result := (q.bind [s] pool).1
      let malformed :=
        ∃ w ∈ name :: words.take fixed.length, (Line.cut w.text).problem ≠ none
      ((∃ e t, result = .error e ∧ trouble = some t ∧ e.kind = .scan t) ↔ malformed) ∧
      (¬ malformed → ∃ first before rest, words[fixed.length]? = some first ∧
        line.toList = before ++ rest ∧ width before = first.start ∧
        let text := trimEnd (String.ofList rest)
        (∀ e, result = .error e →
          q.Fails fixed (words.take fixed.length) e.kind ∨
          ∃ reason, q.Stops p (.text text) reason ∧
            e.kind = .bind p.name p.expected text reason) ∧
        ((∀ (i : Nat) (r : Parameter) (w : Word), fixed[i]? = some r → words[i]? = some w →
            ∃ v, q.Accepts r w v) → q.Passes p (.text text) →
          ∃ b, result = .ok b ∧ b.arguments.value? p.name = some (.text text))) ∧
      (∀ other e, (∀ r ∈ fixed, ∀ c ∈ r.constraints, c.LineBlind) →
        (q.Fails fixed (words.take fixed.length) e ↔
          { q with line := other }.Fails fixed (words.take fixed.length) e))) ∧
    (fixed = [] → ∀ t : String, ¬ Blank t.toList → ∃ words trouble,
      Line.cut ("echo " ++ t) = ⟨⟨"echo", 0⟩ :: words, trouble⟩ ∧
      let q : BindRequest := ⟨command, "echo " ++ t, words, invoker, trouble⟩
      q.Passes p (.text (trim t)) → ∃ b, (q.bind [s] pool).1 = .ok b ∧
        b.arguments.value? p.name = some (.text (trim t))) := by
  refine ⟨?_, ?_⟩
  · intro line name words trouble hcut hlt q result malformed
    have hreached := List.getElem?_eq_getElem hlt
    obtain ⟨before, after, hline, hstart, -⟩ :=
      (request_of_cut hcut).1 _ (List.getElem_mem hlt)
    rw [List.append_assoc] at hline
    have reaches : q.ReachesRemainder name s fixed p words[fixed.length] _ :=
      ⟨built, shape, takes, hcut, hreached, before, _, hline, hstart, rfl⟩
    refine ⟨?_, ?_, ?_⟩
    · rw [reaches.refused_for_trouble_iff used, reaches.clear_iff, not_not]
    · intro hfine
      have clear := reaches.clear_iff.mpr hfine
      exact ⟨_, before, _, hreached, hline, hstart, fun e he => reaches.refused_for used clear he,
        reaches.bound used clear⟩
    · intro other e blind
      have hfixed : ∀ r ∈ fixed, r.isRemainder = false := by
        intro r hr
        obtain ⟨i, hi⟩ := List.mem_iff_getElem?.mp hr
        exact built.wellFormed.isRemainder_of_fixed shape hi
      exact ⟨fun fails => fails.other other hfixed blind, fun fails => fails.other line hfixed blind⟩
  · rintro rfl t ht
    obtain ⟨text, later, trouble, hcut⟩ := exists_cut_echo ht
    refine ⟨_, trouble, hcut, ?_⟩
    intro q passes
    have reaches : q.ReachesRemainder ⟨"echo", 0⟩ s [] p _ (trim t) :=
      ⟨built, shape, takes, hcut, rfl, runs_echo rfl⟩
    have clear : q.Clear s := by
      rw [reaches.clear_iff]
      rintro ⟨w, hw, hproblem⟩
      obtain rfl : w = ⟨"echo", 0⟩ := by simpa using hw
      exact hproblem (by decide)
    exact reaches.bound used clear (fun i r w hr => by simp at hr) passes

/-- `echo <text...>` -/
def echo : Signature :=
  match (Signature.Draft.empty.remainder "text").build .builtin with
  | .ok s => s
  | .error _ => .empty

theorem built_echo : echo.Built := ⟨Signature.Draft.empty.remainder "text", .builtin, rfl⟩

/-- A smile in the remainder, and a bracket that is never closed, do no harm. Behind the name of whom
it is for, a bracket does. -/
theorem tell_takes_stray_delimiters :
    let q : BindRequest :=
      ⟨"tell", "tell \"b ]\"  :] hi [x ", [⟨"\"b ]\"", 5⟩, ⟨":]", 12⟩, ⟨"hi", 15⟩, ⟨"[x ", 18⟩],
        .named "op", some (.here (.unexpected ']') "] hi [x ".toList 13)⟩
    let torn : BindRequest :=
      ⟨"tell", "tell b] hi", [⟨"b]", 5⟩, ⟨"hi", 8⟩], .named "op",
        some (.here (.unexpected ']') "] hi".toList 6)⟩
    (Line.cut q.line = ⟨⟨"tell", 0⟩ :: q.words, q.trouble⟩ ∧
      (∃ b, (q.bind [tell] (.ofCapacity 4)).1 = .ok b ∧
        b.arguments.value? "message" = some (.text ":] hi [x")) ∧
      ∀ other e, q.Fails (tell.parameters.take 1) (q.words.take 1) e ↔
        { q with line := other }.Fails (tell.parameters.take 1) (q.words.take 1) e) ∧
    (Line.cut torn.line = ⟨⟨"tell", 0⟩ :: torn.words, torn.trouble⟩ ∧
      ∃ e t, (torn.bind [tell] (.ofCapacity 4)).1 = .error e ∧ torn.trouble = some t ∧
        e.kind = .scan t) ∧
    ∃ words trouble, Line.cut "echo  :] [x " = ⟨⟨"echo", 0⟩ :: words, trouble⟩ ∧
      ∃ b, (BindRequest.bind ⟨"echo", "echo  :] [x ", words, .named "op", trouble⟩ [echo]
        (.ofCapacity 4)).1 = .ok b ∧ b.arguments.value? "text" = some (.text ":] [x") := by
  intro q torn
  have shape : tell.parameters = [_] ++ [_] := rfl
  obtain ⟨law, -⟩ :=
    remainder_taken_verbatim built_tell shape rfl (.fresh 4) "tell" (.named "op")
  have hcut : Line.cut q.line = ⟨⟨"tell", 0⟩ :: q.words, q.trouble⟩ := by decide
  have htorn : Line.cut torn.line = ⟨⟨"tell", 0⟩ :: torn.words, torn.trouble⟩ := by decide
  obtain ⟨-, hfine, hother⟩ := law _ _ _ _ hcut (by decide)
  refine ⟨⟨hcut, ?_, ?_⟩, ⟨htorn, ?_⟩, ?_⟩
  · obtain ⟨first, before, rest, hfirst, hline, hstart, -, hbound⟩ := hfine (by decide)
    obtain rfl : (⟨":]", 12⟩ : Word) = first := Option.some.inj hfirst
    have runs : q.Runs ⟨":]", 12⟩ _ := ⟨before, rest, hline, hstart, rfl⟩
    have htext : q.remainderFrom ⟨":]", 12⟩ = ":] hi [x" := by decide
    rw [← runs.remainderFrom, htext] at hbound
    apply hbound
    · intro i r w hr hw
      match i with
      | 0 =>
        injection hr with hr
        injection hw with hw
        subst hr hw
        have scanned : Token.scan "\"b ]\"" 5 q.invoker.property = .ok (.literal "b ]") := rfl
        refine ⟨.text "b ]", .word rfl scanned rfl ?_⟩
        intro c hc
        cases hc
      | i + 1 => cases hr
    · intro c hc
      cases hc
  · intro other e
    refine hother other e ?_
    intro r hr c hc
    obtain rfl := List.mem_singleton.mp hr
    cases hc
  · obtain ⟨hmalformed, -⟩ := law _ _ _ _ htorn (by decide)
    exact hmalformed.mpr ⟨⟨"b]", 5⟩, by decide, by decide⟩
  · have echoed : echo.parameters = [] ++ [_] := rfl
    obtain ⟨words, trouble, hwords, hbound⟩ :=
      (remainder_taken_verbatim built_echo echoed rfl (.fresh 4) "echo" (.named "op")).2 rfl
        " :] [x " (fun blank => absurd (blank ':' (by decide)) (by decide))
    have htext : trim " :] [x " = ":] [x" := by decide
    rw [htext] at hbound
    refine ⟨words, trouble, hwords, hbound ?_⟩
    intro c hc
    cases hc

/-- A condition on the line as a whole. -/
def noShouting : Constraint :=
  .custom fun _ c => if '!' ∈ c.line.toList then some (.other "no shouting") else none

/-- `tell <target:string> <message...>`, where nobody may be shouted at. -/
def tellCalmly : Signature :=
  match (((Signature.Draft.empty.argument "target" .text).constrained noShouting).remainder
    "message").build .builtin with
  | .ok s => s
  | .error _ => .empty

/-- A constraint on a fixed parameter is shown the whole line: here one character of the remainder,
which has no constraints of its own, decides whether the line is bound. -/
theorem remainder_decides_for_fixed :
    let calm : BindRequest :=
      ⟨"tell", "tell bob hi", [⟨"bob", 5⟩, ⟨"hi", 9⟩], .named "op", none⟩
    let loud : BindRequest :=
      ⟨"tell", "tell bob hi!", [⟨"bob", 5⟩, ⟨"hi!", 9⟩], .named "op", none⟩
    tellCalmly.Built ∧
    (∃ target message, tellCalmly.parameters = [target] ++ [message] ∧
      message.isRemainder = true ∧ message.constraints = []) ∧
    Line.cut calm.line = ⟨⟨"tell", 0⟩ :: calm.words, calm.trouble⟩ ∧
    Line.cut loud.line = ⟨⟨"tell", 0⟩ :: loud.words, loud.trouble⟩ ∧
    (∃ b, (calm.bind [tellCalmly] (.ofCapacity 4)).1 = .ok b) ∧
    ∃ e, (loud.bind [tellCalmly] (.ofCapacity 4)).1 = .error e ∧
      e.kind = .bind "target" "string" "bob" (.other "no shouting") := by
  intro calm loud
  have built : tellCalmly.Built :=
    ⟨((Signature.Draft.empty.argument "target" .text).constrained noShouting).remainder "message",
      .builtin, rfl⟩
  have hcalm : (calm.bind [tellCalmly] (.ofCapacity 4)).1.isOk = true := by decide +kernel
  have hloud : (match (loud.bind [tellCalmly] (.ofCapacity 4)).1 with
      | .ok _ => none
      | .error e => some e.kind) =
        some (.bind "target" "string" "bob" (.other "no shouting")) := by
    decide +kernel
  refine ⟨built, ⟨_, _, rfl, rfl, rfl⟩, by decide, by decide, ?_, ?_⟩
  · cases hbound : (calm.bind [tellCalmly] (.ofCapacity 4)).1 with
    | ok b => exact ⟨b, rfl⟩
    | error e =>
      rw [hbound] at hcalm
      cases hcalm
  · cases hbound : (loud.bind [tellCalmly] (.ofCapacity 4)).1 with
    | ok b =>
      rw [hbound] at hloud
      cases hloud
    | error e =>
      rw [hbound] at hloud
      exact ⟨e, rfl, Option.some.inj hloud⟩

end BindRequest
end CommandConsole
