import CommandConsole.Engine
import CommandConsole.Proofs.Catalogue
import CommandConsole.Proofs.Running

/-! The pools of idle runners beside a catalogue that may change behind them. -/
namespace CommandConsole

variable {κ : Type} {outs : List (Command κ)} {capacity : Nat} {commands : Catalogue κ}
  {runners : Table String (List (PooledRunner κ))} {o : Command κ} {name : String}
  {idle : List (PooledRunner κ)}

/-- The registrations that matter: those in the catalogue, those whose runners are out of the pools,
and those for which runners are kept. -/
inductive Known (outs : List (Command κ)) (commands : Catalogue κ)
    (runners : Table String (List (PooledRunner κ))) (o : Command κ) : Prop where
  | registered (h : commands.Registered o)
  | out (h : o ∈ outs)
  | pooled {b : String × List (PooledRunner κ)} {p : PooledRunner κ} (hb : b ∈ runners)
      (hp : p ∈ b.2) (made : p.origin = o)

/-- The runners kept under one name: not too many, idle, and made for one registration. -/
structure Stock (capacity : Nat) (name : String) (idle : List (PooledRunner κ)) : Prop where
  fits : idle.length ≤ capacity
  named : ∀ p ∈ idle, p.origin.name = name
  uniform : ∀ p ∈ idle, ∀ q ∈ idle, p.origin = q.origin
  rested : ∀ p ∈ idle, p.runner.Resting
  made : ∀ p ∈ idle, p.runner.execution = p.origin.execution

/-- Pools beside a catalogue. As long as a registration whose runner is out is in the catalogue, the
pool of its name has no runners of any other. -/
structure Pooled (outs : List (Command κ)) (capacity : Nat) (commands : Catalogue κ)
    (runners : Table String (List (PooledRunner κ))) : Prop where
  keyed : commands.Keyed
  nodup : (runners.map Prod.fst).Nodup
  stocked : ∀ b ∈ runners, Stock capacity b.1 b.2
  numbered : ∀ o, Known outs commands runners o → o.registration < commands.registrations
  distinct : ∀ o o', Known outs commands runners o → Known outs commands runners o' →
    o.registration = o'.registration → o = o'
  undisturbed : ∀ o ∈ outs, commands.Registered o →
    ∀ b ∈ runners, b.1 = o.name → ∀ p ∈ b.2, p.origin = o

theorem Stock.sublist (h : Stock capacity name idle) {less : List (PooledRunner κ)}
    (hl : less.Sublist idle) : Stock capacity name less where
  fits := Nat.le_trans hl.length_le h.fits
  named p hp := h.named p (hl.subset hp)
  uniform p hp q hq := h.uniform p (hl.subset hp) q (hl.subset hq)
  rested p hp := h.rested p (hl.subset hp)
  made p hp := h.made p (hl.subset hp)

theorem Stock.origin_of_giveBack {runner : Runner κ} (own : ∀ p ∈ idle, p.origin = o)
    {p : PooledRunner κ} (hp : p ∈ if idle.length < capacity then ⟨o, runner⟩ :: idle else idle) :
    p.origin = o := by
  split at hp
  · rcases List.mem_cons.mp hp with rfl | hp
    · rfl
    · exact own p hp
  · exact own p hp

/-- An idle runner comes back to others of its own registration, if there is room. -/
theorem Stock.giveBack (h : Stock capacity o.name idle) (own : ∀ p ∈ idle, p.origin = o)
    {runner : Runner κ} (rested : runner.Resting) (made : runner.execution = o.execution) :
    Stock capacity o.name
      (if idle.length < capacity then ⟨o, runner⟩ :: idle else idle) := by
  split
  · rename_i hroom
    have horigin : ∀ p ∈ ⟨o, runner⟩ :: idle, p.origin = o := by simpa using own
    refine ⟨hroom, ?_, ?_, ?_, ?_⟩
    · intro p hp
      rw [horigin p hp]
    · intro p hp q hq
      rw [horigin p hp, horigin q hq]
    · simpa [rested] using h.rested
    · simpa [made] using h.made
  · exact h

theorem Stock.nil : Stock capacity name ([] : List (PooledRunner κ)) := by
  constructor <;> simp

namespace Pooled

theorem empty : Pooled ([] : List (Command κ)) capacity .empty [] := by
  have hnone : ∀ o : Command κ, ¬ Known [] .empty [] o := by
    rintro o (h | h | ⟨hb, -, -⟩)
    · cases h
    · cases h
    · cases hb
  refine ⟨Catalogue.keyed_empty, .nil, ?_, fun o ho => absurd ho (hnone o),
    fun o _ ho => absurd ho (hnone o), ?_⟩
  · exact fun b hb => nomatch hb
  · exact fun o ho => nomatch ho

/-- What is kept under a name, if anything. -/
theorem stock_getD (h : Pooled outs capacity commands runners) (name : String) :
    Stock capacity name ((runners.find? name).getD []) ∧
      ∀ p ∈ (runners.find? name).getD [], ∃ b ∈ runners, b.1 = name ∧ p ∈ b.2 := by
  cases hf : runners.find? name with
  | none => exact ⟨.nil, by simp⟩
  | some idle =>
    have hmem := Table.mem_of_find? hf
    exact ⟨h.stocked _ hmem, fun p hp => ⟨_, hmem, rfl, hp⟩⟩

/-- The pool of one name may be replaced by runners of known registrations that disturb nobody. -/
theorem restock (h : Pooled outs capacity commands runners) (stock : Stock capacity name idle)
    (known : ∀ p ∈ idle, Known outs commands runners p.origin)
    (undisturbed : ∀ o ∈ outs, commands.Registered o → name = o.name → ∀ p ∈ idle, p.origin = o) :
    Pooled outs capacity commands (runners.insert name idle) := by
  have hknown : ∀ o, Known outs commands (runners.insert name idle) o →
      Known outs commands runners o := by
    intro o ho
    cases ho with
    | registered h => exact .registered h
    | out h => exact .out h
    | pooled hb hp made =>
      rcases Table.mem_insert hb with rfl | hb
      · exact made ▸ known _ hp
      · exact .pooled hb hp made
  constructor
  · exact h.keyed
  · exact Table.nodup_insert h.nodup name idle
  · intro b hb
    rcases Table.mem_insert hb with rfl | hb
    · exact stock
    · exact h.stocked b hb
  · exact fun o ho => h.numbered o (hknown o ho)
  · exact fun o o' ho ho' => h.distinct o o' (hknown o ho) (hknown o' ho')
  · intro o ho hr b hb hn
    rcases Table.mem_insert hb with rfl | hb
    · exact undisturbed o ho hr hn
    · exact h.undisturbed o ho hr b hb hn

/-- A runner goes out for a registration of the catalogue once the pool of its name has runners of
no other. -/
theorem lend (h : Pooled outs capacity commands runners) (registered : commands.Registered o)
    (own : ∀ b ∈ runners, b.1 = o.name → ∀ p ∈ b.2, p.origin = o) :
    Pooled (o :: outs) capacity commands runners := by
  have hknown : ∀ x, Known (o :: outs) commands runners x → Known outs commands runners x := by
    intro x hx
    cases hx with
    | registered h => exact .registered h
    | out h =>
      rcases List.mem_cons.mp h with rfl | h
      · exact .registered registered
      · exact .out h
    | pooled hb hp made => exact .pooled hb hp made
  refine ⟨h.keyed, h.nodup, h.stocked, fun x hx => h.numbered x (hknown x hx),
    fun x y hx hy => h.distinct x y (hknown x hx) (hknown y hy), ?_⟩
  intro x hx hr
  rcases List.mem_cons.mp hx with rfl | hx
  · exact own
  · exact h.undisturbed x hx hr

/-- Fewer runners out, and fewer pools, and fewer commands do no harm. -/
theorem shrink (h : Pooled outs capacity commands runners) {outs' : List (Command κ)}
    {commands' : Catalogue κ} {runners' : Table String (List (PooledRunner κ))}
    (fewer : ∀ o ∈ outs', o ∈ outs) (keyed : commands'.Keyed)
    (kept : ∀ o, commands'.Registered o → commands.Registered o)
    (same : commands'.registrations = commands.registrations) (sub : runners'.Sublist runners) :
    Pooled outs' capacity commands' runners' := by
  have hknown : ∀ o, Known outs' commands' runners' o → Known outs commands runners o := by
    intro o ho
    cases ho with
    | registered h => exact .registered (kept o h)
    | out h => exact .out (fewer o h)
    | pooled hb hp made => exact .pooled (sub.subset hb) hp made
  refine ⟨keyed, h.nodup.sublist (sub.map _), fun b hb => h.stocked b (sub.subset hb), ?_,
    fun x y hx hy => h.distinct x y (hknown x hx) (hknown y hy), ?_⟩
  · intro o ho
    rw [same]
    exact h.numbered o (hknown o ho)
  · exact fun o ho hr b hb => h.undisturbed o (fewer o ho) (kept o hr) b (sub.subset hb)

theorem of_subset (h : Pooled outs capacity commands runners) {outs' : List (Command κ)}
    (fewer : ∀ o ∈ outs', o ∈ outs) : Pooled outs' capacity commands runners :=
  h.shrink fewer h.keyed (fun _ ho => ho) rfl (.refl _)

/-- A new registration has a number of its own, so that nothing kept or out is taken for it. -/
theorem put (h : Pooled outs capacity commands runners) {new : Command κ}
    (fresh : new.registration = commands.registrations) :
    Pooled outs capacity (commands.put new) runners := by
  have hknown : ∀ o, Known outs (commands.put new) runners o →
      o = new ∨ Known outs commands runners o := by
    intro o ho
    cases ho with
    | registered hr => exact hr.of_put.imp_right .registered
    | out h => exact .inr (.out h)
    | pooled hb hp made => exact .inr (.pooled hb hp made)
  refine ⟨h.keyed.put new, h.nodup, h.stocked, ?_, ?_, ?_⟩
  · intro o ho
    rw [Catalogue.registrations_put]
    rcases hknown o ho with rfl | ho
    · omega
    · exact Nat.lt_succ_of_lt (h.numbered o ho)
  · intro x y hx hy hxy
    rcases hknown x hx with rfl | hx' <;> rcases hknown y hy with rfl | hy'
    · rfl
    · have := h.numbered y hy'
      omega
    · have := h.numbered x hx'
      omega
    · exact h.distinct x y hx' hy' hxy
  · intro o ho hr
    rcases hr.of_put with rfl | hr
    · have := h.numbered o (.out ho)
      omega
    · exact h.undisturbed o ho hr

/-- A change to the catalogue behind the pools leaves them in order. -/
theorem change (h : Pooled outs capacity commands runners) (x : Catalogue.Change κ) :
    Pooled outs capacity (commands.change x).value runners := by
  cases x with
  | register d parsers =>
    simp only [Catalogue.change, Reported.value_bind]
    rcases commands.register_cases d parsers with ⟨err, hr⟩ | ⟨new, hr, fresh⟩
    · rw [hr]
      exact h
    · rw [hr]
      exact h.put fresh
  | unregister name =>
    simp only [Catalogue.change, Reported.value_pure]
    rcases commands.unregister_cases name with hu | ⟨old, hu⟩
    · rw [hu]
      exact h
    · rw [hu]
      exact h.shrink (fun _ ho => ho) (h.keyed.remove old) (fun _ => .of_remove) rfl (.refl _)

theorem changeAll (h : Pooled outs capacity commands runners) (changes : List (Catalogue.Change κ)) :
    Pooled outs capacity (commands.changeAll changes).value runners := by
  induction changes generalizing commands with
  | nil => exact h
  | cons x rest ih => exact ih (h.change x)

end Pooled

end CommandConsole
