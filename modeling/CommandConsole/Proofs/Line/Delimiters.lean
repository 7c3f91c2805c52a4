import CommandConsole.Proofs.Line.Words

/-! The delimiters of a text, and which words of a line are to blame for trouble with them. -/
namespace CommandConsole.Line

open Text

/-- How the delimiters of a text stand at its end: whether a quote is open, which brackets and
braces are (innermost first), and whether some closer has fitted no opener. -/
structure Delimiters where
  quoted : Bool
  openers : List Char
  stray : Bool
  deriving DecidableEq

namespace Delimiters

/-- Nothing is open and no closer was stray. -/
def settled : Delimiters := ⟨false, [], false⟩

def close (d : Delimiters) (opener : Char) : Delimiters :=
  match d.openers with
  | o :: r => if o = opener then { d with openers := r } else { d with stray := true }
  | [] => { d with stray := true }

/-- Takes a character outside quotes. -/
def take (d : Delimiters) (c : Char) : Delimiters :=
  match c with
  | '"' => { d with quoted := true }
  | '[' | '{' => { d with openers := c :: d.openers }
  | ']' => d.close '['
  | '}' => d.close '{'
  | _ => d

def step (d : Delimiters) (c : Char) : Delimiters :=
  if d.quoted then (if c = '"' then { d with quoted := false } else d) else d.take c

/-- The delimiters once a text has been passed. -/
def reads (d : Delimiters) (s : List Char) : Delimiters := s.foldl step d

/-- Nothing is open. -/
def Closed (d : Delimiters) : Prop := d.quoted = false ∧ d.openers = []

/-- The same delimiters after a stray closer, if there was one. -/
def spoil (d : Delimiters) (b : Bool) : Delimiters := { d with stray := b || d.stray }

variable {d : Delimiters} {s t : List Char} {b : Bool} {c : Char}

theorem reads_append (d : Delimiters) (s t : List Char) : d.reads (s ++ t) = (d.reads s).reads t :=
  List.foldl_append

theorem reads_concat (d : Delimiters) (s : List Char) (c : Char) :
    d.reads (s ++ [c]) = (d.reads s).step c :=
  reads_append d s [c]

theorem eq_spoil_of_closed (h : d.Closed) : d = settled.spoil d.stray := by
  obtain ⟨quoted, openers, stray⟩ := d
  obtain ⟨rfl, rfl⟩ := h
  simp [settled, spoil]

theorem closed_spoil_iff : (d.spoil b).Closed ↔ d.Closed := Iff.rfl

theorem spoil_spoil (d : Delimiters) (a b : Bool) : (d.spoil a).spoil b = d.spoil (b || a) := by
  simp [spoil, Bool.or_assoc]

theorem close_spoil (d : Delimiters) (b : Bool) (opener : Char) :
    (d.spoil b).close opener = (d.close opener).spoil b := by
  simp only [close, spoil]
  split
  · split <;> simp
  · simp

theorem take_spoil (d : Delimiters) (b : Bool) (c : Char) :
    (d.spoil b).take c = (d.take c).spoil b := by
  simp only [take]
  split
  · rfl
  · rfl
  · rfl
  · exact close_spoil d b '['
  · exact close_spoil d b '{'
  · rfl

/-- A stray closer earlier on has no bearing on what comes later. -/
theorem step_spoil (d : Delimiters) (b : Bool) (c : Char) :
    (d.spoil b).step c = (d.step c).spoil b := by
  have hquoted : (d.spoil b).quoted = d.quoted := rfl
  simp only [step, hquoted]
  split
  · split <;> rfl
  · exact take_spoil d b c

theorem reads_spoil (d : Delimiters) (b : Bool) (s : List Char) :
    (d.spoil b).reads s = (d.reads s).spoil b := by
  induction s generalizing d with
  | nil => rfl
  | cons c s ih =>
    simp only [reads, List.foldl_cons] at ih ⊢
    rw [step_spoil, ih]

theorem step_of_isBlank (d : Delimiters) (h : isBlank c = true) : d.step c = d := by
  have hc : c ≠ '"' ∧ c ≠ '[' ∧ c ≠ '{' ∧ c ≠ ']' ∧ c ≠ '}' := by
    refine ⟨?_, ?_, ?_, ?_, ?_⟩ <;> rintro rfl <;> revert h <;> decide
  obtain ⟨hquote, hrest⟩ := hc
  simp only [step]
  split
  · rfl
  · simp only [take]
    split <;> simp_all

theorem reads_blank (d : Delimiters) (h : Blank s) : d.reads s = d := by
  induction s with
  | nil => rfl
  | cons c s ih =>
    rw [reads, List.foldl_cons, step_of_isBlank d (h c List.mem_cons_self)]
    exact ih fun a ha => h a (List.mem_cons_of_mem c ha)

theorem stray_close (h : d.stray = true) (opener : Char) : (d.close opener).stray = true := by
  simp only [close]
  split
  · split <;> simp [h]
  · rfl

theorem stray_step (h : d.stray = true) (c : Char) : (d.step c).stray = true := by
  simp only [step]
  split
  · split <;> exact h
  · simp only [take]
    split
    · exact h
    · exact h
    · exact h
    · exact stray_close h '['
    · exact stray_close h '{'
    · exact h

/-- What has gone wrong stays wrong. -/
theorem stray_reads (h : d.stray = true) (s : List Char) : (d.reads s).stray = true := by
  induction s generalizing d with
  | nil => exact h
  | cons c s ih => exact ih (stray_step h c)

theorem stray_of_prefix (hs : s <+: t) (h : (d.reads s).stray = true) :
    (d.reads t).stray = true := by
  obtain ⟨u, rfl⟩ := hs
  rw [reads_append]
  exact stray_reads h u

end Delimiters

open Delimiters

/-- The delimiters of a cut in progress. -/
def Cut.delimiters (s : Cut) : Delimiters :=
  ⟨s.quote.isSome, s.openers.map (·.delimiter), s.stray.isSome⟩

variable {s : Cut} {past rest a line : List Char} {ws : List Word} {w v : Word} {c : Char}
  {e : ScanError}

@[simp] theorem delimiters_keep (s : Cut) (c : Char) (position : Nat) :
    (s.keep c position).delimiters = s.delimiters := by
  simp only [Cut.keep]
  split <;> rfl

@[simp] theorem delimiters_endWord (s : Cut) : s.endWord.delimiters = s.delimiters := by
  simp only [Cut.endWord]
  split <;> rfl

theorem delimiters_close (s : Cut) (opener c : Char) (rest : List Char) (position : Nat) :
    (s.close opener c rest position).delimiters = s.delimiters.close opener := by
  simp only [Cut.close, Cut.delimiters, Delimiters.close]
  cases ho : s.openers with
  | nil => cases s.stray <;> simp
  | cons o r =>
    simp only [List.map_cons]
    split
    · rfl
    · cases s.stray <;> simp

theorem delimiters_step (s : Cut) (c : Char) (rest : List Char) (position : Nat) :
    (s.step c rest position).delimiters = s.delimiters.step c := by
  have hkeep := delimiters_keep s c position
  have hquoted : s.delimiters.quoted = s.quote.isSome := rfl
  simp only [Cut.step, Delimiters.step, hquoted]
  split
  · split
    · rw [← hkeep]
      rfl
    · exact hkeep
  · rename_i hq
    split
    · rename_i hb
      have hblank := step_of_isBlank s.delimiters hb.1
      rw [Delimiters.step, hquoted, if_neg hq] at hblank
      rw [delimiters_endWord, hblank]
    · rw [← hkeep]
      simp only [Delimiters.take]
      split
      · rfl
      · rfl
      · rfl
      · exact delimiters_close _ '[' _ rest position
      · exact delimiters_close _ '{' _ rest position
      · simp_all

theorem delimiters_run (s : Cut) (position : Nat) (rest : List Char) :
    (s.run position rest).delimiters = s.delimiters.reads rest := by
  induction rest generalizing s position with
  | nil => rfl
  | cons c rest ih =>
    rw [Cut.run, ih, delimiters_step]
    rfl

theorem problem_eq_none_iff : s.problem = none ↔ s.delimiters = settled := by
  simp only [Cut.problem, Cut.delimiters, settled]
  cases s.stray with
  | some e => simp
  | none =>
    cases s.quote with
    | some q => simp
    | none =>
      cases ho : s.openers.getLast? with
      | none => simp [List.getLast?_eq_none_iff.mp ho]
      | some o =>
        have hne : s.openers ≠ [] := by
          rintro hnil
          simp [hnil] at ho
        simp [hne]

/-- The delimiters of a word by itself. -/
def ownDelimiters (w : Word) : Delimiters := settled.reads w.text.toList

theorem problem_cut_eq_none_iff (line : String) :
    (cut line).problem = none ↔ settled.reads line.toList = settled := by
  rw [cut, problem_eq_none_iff, delimiters_run]
  rfl

theorem problem_ne_none_iff_of_closed (h : (ownDelimiters w).Closed) :
    (cut w.text).problem ≠ none ↔ (ownDelimiters w).stray = true := by
  rw [Ne, problem_cut_eq_none_iff, ← ownDelimiters, eq_spoil_of_closed h]
  cases (ownDelimiters w).stray <;> simp [spoil, settled]

end CommandConsole.Line
