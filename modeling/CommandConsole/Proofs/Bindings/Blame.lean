import CommandConsole.Proofs.Bindings.Storage
import CommandConsole.Proofs.Token.Position

/-! Where in a line the error lies that keeps it from being bound. -/
namespace CommandConsole.BindRequest

/-- An error that does not concern the name of a command and, if it lies at a place of the line, lies
at `n` or behind it. -/
structure Behind (n : Nat) (e : ErrorKind) : Prop where
  named : ∀ name, e ≠ .unknownCommand name
  position : ∀ s, e = .scan s → n ≤ s.position

variable {q : BindRequest} {p : Parameter} {ps : List Parameter} {w : Word} {ws : List Word}
  {n : Nat} {e : ErrorKind} {b : Bindings}

theorem behind_scan {s : ScanError} (h : n ≤ s.position) : Behind n (.scan s) := by
  refine ⟨fun _ => nofun, ?_⟩
  intro t ht
  injection ht with ht
  exact ht ▸ h

/-- A word is refused for what its scanning met, or for what it says. -/
theorem valueOf_eq_error (h : q.valueOf p w = .error e) :
    (∃ t, e = .scan t ∧ Token.scan w.text w.start q.invoker.property = .error t) ∨
      ∃ expected text reason, e = .bind p.name expected text reason := by
  simp only [valueOf] at h
  split at h
  · rename_i hread
    injection h with h
    subst h
    simp only [read] at hread
    split at hread
    · cases hread
    split at hread
    · rename_i t hscan
      injection hread with hread
      exact .inl ⟨t, hread.symm, hscan⟩
    split at hread
    · injection hread with hread
      exact .inr ⟨_, _, _, hread.symm⟩
    · cases hread
  split at h
  · injection h with h
    exact .inr ⟨_, _, _, h.symm⟩
  · cases h

theorem valueOf_behind (hw : n ≤ w.start) (h : q.valueOf p w = .error e) : Behind n e := by
  rcases valueOf_eq_error h with ⟨t, rfl, hscan⟩ | ⟨_, _, _, rfl⟩
  · obtain ⟨u, problem, ⟨taken, -, hposition⟩, rfl⟩ := Token.exists_place_of_error hscan
    have hle : n ≤ u.position := hposition ▸ Nat.le_add_right_of_le hw
    exact behind_scan hle
  · exact ⟨fun _ => nofun, fun _ => nofun⟩

/-- What is to blame for an error: the delimiters of the line, one of its words, their number, or a
parameter that is left without a value. -/
inductive Blames (q : BindRequest) : ErrorKind → Prop where
  | trouble {t : ScanError} (h : q.trouble = some t) : Blames q (.scan t)
  | word {p : Parameter} {w : Word} {e : ErrorKind} (hw : w ∈ q.words)
      (refused : q.valueOf p w = .error e) : Blames q e
  | misfit (provided : Nat) (usage : String) : Blames q (.noOverload provided usage)
  | unbound (message : String) : Blames q (.internal message)

theorem exists_refused_of_fill (h : q.fill ps ws b = .error e) :
    (∃ p, ∃ w ∈ ws, q.valueOf p w = .error e) ∨ ∃ message, e = .internal message := by
  induction ps generalizing ws b with
  | nil => cases h
  | cons p ps ih =>
    cases ws with
    | nil =>
      simp only [fill] at h
      split at h
      · injection h with h
        exact .inr ⟨_, h.symm⟩
      · exact ih h
    | cons w ws =>
      simp only [fill] at h
      split at h
      · rename_i hvalue
        injection h with h
        exact .inl ⟨p, w, List.mem_cons_self, h ▸ hvalue⟩
      · refine (ih h).imp_left ?_
        rintro ⟨p, v, hv, hvalue⟩
        exact ⟨p, v, List.mem_cons_of_mem _ hv, hvalue⟩

theorem bindTo_blames {s : Signature} {pool : Pool} (h : (q.bindTo s pool).1 = .error e) :
    q.Blames e := by
  cases hstanding : q.standingTrouble s with
  | some t =>
    rw [bindTo_of_trouble hstanding] at h
    injection h with h
    exact h ▸ .trouble (Option.filter_eq_some_iff.mp hstanding).1
  | none =>
    rw [bindTo_of_clear hstanding] at h
    split at h
    · cases h
    · rename_i hfill
      injection h with h
      subst h
      rcases exists_refused_of_fill hfill with ⟨p, w, hw, hvalue⟩ | ⟨message, rfl⟩
      · exact .word hw hvalue
      · exact .unbound message

theorem bind_blames {overloads : List Signature} {pool : Pool} {err : Error}
    (h : (q.bind overloads pool).1 = .error err) : q.Blames err.kind := by
  cases hselect : Signature.select? overloads q.words.length with
  | none =>
    rw [bind_of_unselected hselect] at h
    injection h with h
    subst h
    cases ht : q.trouble with
    | none => exact .misfit _ _
    | some t => exact .trouble ht
  | some i =>
    obtain ⟨s, hs, -⟩ := Signature.accepts_of_select? hselect
    have hto : ∀ kind, (q.bindTo s pool).1 = .error kind → q.Blames kind :=
      fun kind => bindTo_blames
    rw [bind_of_selected hselect hs] at h
    generalize q.bindTo s pool = bound at h hto
    obtain ⟨kind | b, left⟩ := bound
    · injection h with h
      exact h ▸ hto kind rfl
    · cases h

/-- A line whose words and whose trouble all begin behind some place is not refused for anything
before it. -/
theorem bind_behind {overloads : List Signature} {pool : Pool} {err : Error}
    (htrouble : ∀ t, q.trouble = some t → n ≤ t.position) (hwords : ∀ w ∈ q.words, n ≤ w.start)
    (h : (q.bind overloads pool).1 = .error err) : Behind n err.kind := by
  have blames := bind_blames h
  generalize err.kind = kind at blames
  cases blames with
  | trouble ht => exact behind_scan (htrouble _ ht)
  | word hw refused => exact valueOf_behind (hwords _ hw) refused
  | misfit provided usage => exact ⟨fun _ => nofun, fun _ => nofun⟩
  | unbound message => exact ⟨fun _ => nofun, fun _ => nofun⟩

/-- What a line is told of its delimiters is its own trouble, or what was met when one of its words
was scanned. -/
theorem Blames.scanned {t : ScanError} (h : q.Blames (.scan t)) :
    q.trouble = some t ∨ ∃ w ∈ q.words, Token.scan w.text w.start q.invoker.property = .error t := by
  cases h with
  | trouble ht => exact .inl ht
  | word hw refused =>
    rcases valueOf_eq_error refused with ⟨s, hs, hscan⟩ | ⟨_, _, _, hs⟩
    · injection hs with hs
      exact .inr ⟨_, hw, hs ▸ hscan⟩
    · cases hs

end CommandConsole.BindRequest
