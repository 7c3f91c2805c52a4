import CommandConsole.Proofs.Line.Nested
import CommandConsole.Proofs.Line.Places

/-! The texts that nested texts begin with: those without a stray closer. The first closer that is
stray is the one that is recorded. -/
namespace CommandConsole.Line

open Text Delimiters

/-- Some nested text begins so. -/
def Continues (s : List Char) : Prop := ∃ t, Nested (s ++ t)

namespace Delimiters

variable {d : Delimiters} {s : List Char}

/-- All that is ever open besides quotes are brackets and braces. -/
theorem openers_step (h : ∀ o ∈ d.openers, o ∈ ['[', '{']) (c : Char) :
    ∀ o ∈ (d.step c).openers, o ∈ ['[', '{'] := by
  have hclose : ∀ o, ∀ p ∈ (d.close o).openers, p ∈ ['[', '{'] := by
    intro o p hp
    simp only [close] at hp
    split at hp
    · rename_i q r hopeners
      split at hp
      · exact h p (hopeners ▸ List.mem_cons_of_mem q hp)
      · exact h p hp
    · exact h p hp
  simp only [Delimiters.step, take]
  split
  · split
    · exact h
    · exact h
  · split
    · exact h
    · exact List.forall_mem_cons.mpr ⟨by simp, h⟩
    · exact List.forall_mem_cons.mpr ⟨by simp, h⟩
    · exact hclose '['
    · exact hclose '{'
    · exact h

theorem openers_reads (s : List Char) : ∀ o ∈ (settled.reads s).openers, o ∈ ['[', '{'] := by
  induction s using List.reverseRecOn with
  | nil => exact fun o ho => nomatch ho
  | append_singleton s c ih =>
    rw [reads_concat]
    exact openers_step ih c

/-- A text that closes whatever is open. -/
def completion (d : Delimiters) : List Char :=
  (if d.quoted then ['"'] else []) ++ d.openers.map fun o => if o = '[' then ']' else '}'

theorem reads_completion (hs : d.stray = false) (ho : ∀ o ∈ d.openers, o ∈ ['[', '{']) :
    d.reads d.completion = settled := by
  obtain ⟨quoted, openers, stray⟩ := d
  obtain rfl : stray = false := hs
  have hopeners : (⟨false, openers, false⟩ : Delimiters).reads
      (openers.map fun o => if o = '[' then ']' else '}') = settled := by
    induction openers with
    | nil => rfl
    | cons o r ih =>
      have hstep : (⟨false, o :: r, false⟩ : Delimiters).step (if o = '[' then ']' else '}') =
          ⟨false, r, false⟩ := by
        have hcases := ho o List.mem_cons_self
        simp only [List.mem_cons, List.not_mem_nil, or_false] at hcases
        rcases hcases with rfl | rfl
        · rfl
        · rfl
      rw [List.map_cons, reads, List.foldl_cons, hstep]
      exact ih fun p hp => ho p (List.mem_cons_of_mem o hp)
  cases quoted with
  | false => exact hopeners
  | true => exact hopeners

/-- A text without stray closers has none in its beginnings. -/
theorem clear_of_begins {s t : List Char} (hs : s <+: t) (h : (d.reads t).stray = false) :
    (d.reads s).stray = false := by
  by_contra hnot
  have hall := stray_of_prefix hs (by simpa using hnot)
  rw [hall] at h
  cases h

end Delimiters

variable {a b before rest : List Char} {e : ScanError}

/-- A text begins some nested text as long as no closer in it is stray. -/
theorem continues_iff : Continues a ↔ (settled.reads a).stray = false := by
  constructor
  · rintro ⟨t, nested⟩
    have hall := reads_eq_settled_iff.mpr nested
    exact clear_of_begins (List.prefix_append a t) (by rw [hall]; rfl)
  · intro h
    refine ⟨(settled.reads a).completion, ?_⟩
    rw [← reads_eq_settled_iff, reads_append]
    exact reads_completion h (openers_reads a)

theorem not_continues_iff : ¬ Continues a ↔ (settled.reads a).stray = true := by
  rw [continues_iff, Bool.not_eq_false]

theorem Continues.of_prefix (h : Continues b) (hab : a <+: b) : Continues a := by
  obtain ⟨u, rfl⟩ := hab
  obtain ⟨t, nested⟩ := h
  exact ⟨u ++ t, by rwa [← List.append_assoc]⟩

/-- The recorded stray closer ends the shortest beginning of the line that begins no nested text. -/
theorem stray_is_first {line : String}
    (h : (Cut.initial.run 0 line.toList).stray = some e) :
    ∃ before c rest, line.toList = before ++ c :: rest ∧ ¬ Continues (before ++ [c]) ∧
      (∀ b, b <+: line.toList → ¬ Continues b → before ++ [c] <+: b) ∧
      e = ⟨.unexpected c, String.ofList (c :: rest), width before⟩ := by
  have traces : Traces (Cut.initial.run 0 line.toList) line.toList :=
    traces_initial.run line.toList
  obtain ⟨before, c, rest, hline, -, rfl⟩ := (placed_cut line).stray e h
  have hsize := c.utf8Size_pos
  have hbegins : before ++ [c] <+: line.toList := ⟨rest, by simp [hline]⟩
  refine ⟨before, c, rest, hline, ?_, ?_, by simp [ScanError.here]⟩
  · rw [not_continues_iff, traces.stray _ h _ hbegins]
    change width before < width (before ++ [c])
    rw [width_append, width]
    omega
  · intro b hb hnot
    rw [not_continues_iff, traces.stray _ h b hb] at hnot
    rcases List.prefix_or_prefix_of_prefix hb hbegins with hshort | hlong
    · rcases List.prefix_concat_iff.mp hshort with rfl | hbefore
      · exact List.prefix_rfl
      · have hle := width_le_of_prefix hbefore
        exact absurd hnot (Nat.not_lt.mpr hle)
    · exact hlong

end CommandConsole.Line
