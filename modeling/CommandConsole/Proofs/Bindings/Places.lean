import CommandConsole.Proofs.Bindings.Bind
import CommandConsole.Proofs.Bindings.Blame
import CommandConsole.Proofs.Line.Places
import CommandConsole.Proofs.Token.Offset

/-! Where in a line the errors of its scanning point: at the text that they show, or at the end of
the word in which something is missing. -/
namespace CommandConsole

open Text

variable {properties : PropertySource} {line : List Char} {w : Word} {e : ScanError}

/-- An error met in a word of a line shows the word from some place on, or lies at its end. -/
theorem Token.shows_or_ends (stands : Line.Stands line w)
    (h : scan w.text w.start properties = .error e) :
    e.Shows line ∨ e.fragment = "end of input" ∧ e.position = w.stop := by
  obtain ⟨u, problem, ⟨taken, htext, hposition⟩, rfl⟩ := exists_place_of_error h
  obtain ⟨before, after, hline, hstart, -⟩ := stands
  change w.text.toList = taken ++ u.rest at htext
  change u.position = w.start + width taken at hposition
  have hplace : u.position = width (before ++ taken) := by
    rw [hposition, width_append, hstart]
  by_cases hrest : u.rest = []
  · refine .inr ⟨if_pos hrest, ?_⟩
    change u.position = w.stop
    rw [hposition, Word.stop, htext, hrest, List.append_nil]
  · left
    have hwhole : line = before ++ taken ++ u.rest ++ after := by
      rw [hline, htext, ← List.append_assoc]
    rw [hwhole, Cursor.error, hplace]
    exact Line.shows_here (before ++ taken) after problem hrest

namespace BindRequest

/-- Errors that concern the delimiters of a line, met when it is cut or when it is bound to any
overloads, lie at a character of the line or at its end, and show the text that stands there. Only
where a word ends too early there is nothing to show. A text further on in a line is scanned as it
is by itself, with its errors so much further on. -/
theorem scan_errors_point_at_text (line : String) :
    (∀ e, (Line.cut line).problem = some e →
      IsPlace line.toList e.position ∧ e.position ≤ width line.toList ∧ e.Shows line.toList) ∧
    (∀ (name : Word) (words : List Word) (trouble : Option ScanError) (command : String)
      (invoker : Invoker) (overloads : List Signature) (pool : Pool) (err : Error) (e : ScanError),
      Line.cut line = ⟨name :: words, trouble⟩ →
      (bind ⟨command, line, words, invoker, trouble⟩ overloads pool).1 = .error err →
      err.kind = .scan e →
      IsPlace line.toList e.position ∧ e.position ≤ width line.toList ∧
      (e.Shows line.toList ∨ e.fragment = "end of input" ∧ ∃ w ∈ words,
        Token.scan w.text w.start invoker.property = .error e ∧ e.position = w.stop)) ∧
    ∀ (source : String) (offset : Nat) (properties : PropertySource),
      Token.scan source offset properties =
        (Token.scan source 0 properties).mapError (ScanError.shift offset) := by
  refine ⟨?_, ?_, Token.scan_offset⟩
  · intro e he
    have shows := Line.shows_of_problem he
    exact ⟨shows.place, shows.place.le_width, shows⟩
  · intro name words trouble command invoker overloads pool err e hcut hbind hkind
    have blames := bind_blames hbind
    rw [hkind] at blames
    rcases blames.scanned with htrouble | ⟨w, hw, hscan⟩
    · have shows : e.Shows line.toList :=
        Line.shows_of_problem ((congrArg Line.Pieces.problem hcut).trans htrouble)
      exact ⟨shows.place, shows.place.le_width, .inl shows⟩
    · have stands := (request_of_cut hcut).1 w hw
      rcases Token.shows_or_ends stands hscan with shows | ⟨hend, hstop⟩
      · exact ⟨shows.place, shows.place.le_width, .inl shows⟩
      · have place : IsPlace line.toList e.position := hstop ▸ stands.place
        exact ⟨place, place.le_width, .inr ⟨hend, w, hw, hscan, hstop⟩⟩

/-- A property whose name is a quote hides from the cut what the scanner is to read: its word ends in
the midst of a dictionary. -/
theorem dictionary_ends_with_word :
    let text := "\x7bk:$\x7b\"\x7d,a:\"\x7d\x7d\x7b\",b:$\x7b\"\x7d,c:"
    let line := "tell " ++ text ++ " hi"
    let words : List Word := [⟨text, 5⟩, ⟨"hi", 31⟩]
    let invoker := { Invoker.named "op" with properties := [("\"", "quote")] }
    let e : ScanError := ⟨.expectedValue, "end of input", 30⟩
    Line.cut line = ⟨⟨"tell", 0⟩ :: words, none⟩ ∧
      ∃ err, (bind ⟨"tell", line, words, invoker, none⟩ [tell] (.ofCapacity 4)).1 = .error err ∧
        err.kind = .scan e ∧ (e.Shows line.toList ∨ e.fragment = "end of input" ∧ ∃ w ∈ words,
          Token.scan w.text w.start invoker.property = .error e ∧ e.position = w.stop) := by
  intro text line words invoker e
  have hcut : Line.cut line = ⟨⟨"tell", 0⟩ :: words, none⟩ := by decide +kernel
  let bound := (bind ⟨"tell", line, words, invoker, none⟩ [tell] (.ofCapacity 4)).1
  have hkind : (bound.mapError (·.kind)).map (fun _ => ()) = .error (.scan e) := by decide +kernel
  cases hbind : bound with
  | error err =>
    rw [hbind] at hkind
    injection hkind with hkind
    obtain ⟨-, hpoints, -⟩ := scan_errors_point_at_text line
    exact ⟨hcut, err, hbind, hkind, (hpoints _ _ _ _ _ _ _ _ _ hcut hbind hkind).2.2⟩
  | ok b =>
    rw [hbind] at hkind
    cases hkind

end BindRequest
end CommandConsole
