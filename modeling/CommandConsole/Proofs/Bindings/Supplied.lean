import CommandConsole.Proofs.Bindings.Storage

/-! Where the values of bindings come from: a word of the line, or the default of the parameter. -/
namespace CommandConsole.BindRequest

/-- A value that a word gives a parameter, or with which it does without one. -/
def Supplies (q : BindRequest) (p : Parameter) (v : Value) : Prop :=
  (∃ w ∈ q.words, q.valueOf p w = .ok v) ∨ p.default = some v

/-- Every entry is that of a parameter, of its type, and was supplied for it. -/
def Supplied (q : BindRequest) (ps : List Parameter) (es : Table String Binding) : Prop :=
  ∀ x ∈ es, ∃ p ∈ ps, x.1 = Text.lowercase p.name ∧ x.2.type = p.type ∧ q.Supplies p x.2.value

variable {q : BindRequest} {p : Parameter} {ps all : List Parameter} {w : Word}
  {ws : List Word} {v : Value} {b b' : Bindings} {s : Signature} {overloads : List Signature} {pool : Pool}

/-- A word gives a remainder a text, and any other parameter what its parser makes. -/
theorem text_or_parsed_of_valueOf (h : q.valueOf p w = .ok v) :
    (p.isRemainder = true ∧ ∃ text, v = .text text) ∨
      ∃ place token, p.parser.parser.parse place token = .ok v := by
  simp only [valueOf] at h
  split at h
  · cases h
  rename_i made raw hread
  split at h
  · cases h
  injection h with h
  subst h
  simp only [read] at hread
  split at hread
  · rename_i hremainder
    injection hread with hread
    injection hread with hread
    exact .inl ⟨hremainder, _, hread.symm⟩
  · split at hread
    · cases hread
    split at hread
    · cases hread
    rename_i hparse
    injection hread with hread
    injection hread with hread
    exact .inr ⟨_, _, hread ▸ hparse⟩

theorem Supplied.insert (h : q.Supplied all b.entries) (hp : p ∈ all) (hv : q.Supplies p v) :
    q.Supplied all (b.insert p.name v p.type).entries := by
  intro x hx
  rcases Table.mem_insert hx with rfl | hx
  · exact ⟨p, hp, rfl, rfl, hv⟩
  · exact h x hx

theorem Supplied.fill (hps : ∀ p ∈ ps, p ∈ all) (hws : ∀ w ∈ ws, w ∈ q.words)
    (hb : q.Supplied all b.entries) (h : q.fill ps ws b = .ok b') : q.Supplied all b'.entries := by
  induction ps generalizing ws b with
  | nil =>
    injection h with h
    exact h ▸ hb
  | cons p ps ih =>
    have hp : p ∈ all := hps p List.mem_cons_self
    have hrest : ∀ p ∈ ps, p ∈ all := fun p hp => hps p (List.mem_cons_of_mem _ hp)
    cases ws with
    | nil =>
      simp only [BindRequest.fill] at h
      split at h
      · cases h
      rename_i v hv
      exact ih hrest hws (hb.insert hp (.inr hv)) h
    | cons w ws =>
      simp only [BindRequest.fill] at h
      split at h
      · cases h
      rename_i v hv
      have hsupplies : q.Supplies p v := .inl ⟨w, hws w List.mem_cons_self, hv⟩
      exact ih hrest (fun w hw => hws w (List.mem_cons_of_mem _ hw)) (hb.insert hp hsupplies) h

/-- Storage is rented empty: nothing but the entries of the parameters comes to stand in it. -/
theorem bindTo_supplied (used : pool.Used) (h : (q.bindTo s pool).1 = .ok b) :
    q.Supplied s.parameters b.entries := by
  cases ht : q.standingTrouble s with
  | some e =>
    rw [bindTo_of_trouble ht] at h
    cases h
  | none =>
    rw [bindTo_of_clear ht] at h
    split at h
    · rename_i made hfill
      injection h with h
      subst h
      refine Supplied.fill (fun _ hp => hp) (fun _ hw => hw) ?_ hfill
      rw [used.rent_entries]
      intro x hx
      cases hx
    · cases h

theorem bind_supplied {b : Bound} (used : pool.Used) (h : (q.bind overloads pool).1 = .ok b) :
    ∃ s, overloads[b.overload]? = some s ∧ q.Supplied s.parameters b.arguments.entries := by
  cases hselect : Signature.select? overloads q.words.length with
  | none =>
    rw [bind_of_unselected hselect] at h
    cases h
  | some i =>
    obtain ⟨s, hget, -⟩ := Signature.accepts_of_select? hselect
    have hto := fun made => bindTo_supplied (q := q) (s := s) (b := made) used
    rw [bind_of_selected hselect hget] at h
    generalize q.bindTo s pool = bound at h hto
    obtain ⟨e | made, left⟩ := bound
    · cases h
    · injection h with h
      subst h
      exact ⟨s, hget, hto made rfl⟩

end CommandConsole.BindRequest
