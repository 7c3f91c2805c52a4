import CommandConsole.Engine
import CommandConsole.Proofs.Catalogue

/-! Which command a name stands for, whatever a catalogue has been through. -/
namespace CommandConsole

variable {κ : Type}

namespace Table

variable {ν : Type} {t : Table String ν}

theorem nodup_foldl_erase (hn : (t.map Prod.fst).Nodup) (keys : List String) :
    ((keys.foldl (fun t k => Table.erase t k) t).map Prod.fst).Nodup := by
  induction keys generalizing t with
  | nil => exact hn
  | cons k rest ih => exact ih (hn.sublist ((erase_sublist t k).map _))

theorem find?_foldl_erase (hn : (t.map Prod.fst).Nodup) (keys : List String) (q : String) :
    Table.find? (keys.foldl (fun t k => Table.erase t k) t) q =
      if q ∈ keys then none else t.find? q := by
  induction keys generalizing t with
  | nil => simp
  | cons k rest ih =>
    rw [List.foldl_cons, ih (hn.sublist ((erase_sublist t k).map _)), find?_erase hn]
    by_cases hq : q = k <;> simp [hq]

theorem nodup_foldl_insert (hn : (t.map Prod.fst).Nodup) (keys : List String) (w : ν) :
    ((keys.foldl (fun t k => Table.insert t k w) t).map Prod.fst).Nodup := by
  induction keys generalizing t with
  | nil => exact hn
  | cons k rest ih => exact ih (nodup_insert hn k w)

theorem find?_foldl_insert (t : Table String ν) (keys : List String) (w : ν) (q : String) :
    Table.find? (keys.foldl (fun t k => Table.insert t k w) t) q =
      if q ∈ keys then some w else t.find? q := by
  induction keys generalizing t with
  | nil => simp
  | cons k rest ih =>
    rw [List.foldl_cons, ih, find?_insert]
    by_cases hq : q = k <;> simp [hq]

end Table

/-- A command is called by its name or by one of its aliases, in any case. -/
def Command.AnswersTo (o : Command κ) (name : String) : Prop :=
  Text.lowercase name = o.name ∨ Text.lowercase name ∈ o.aliases

namespace Catalogue

/-- No name stands for two commands: aliases are those of the commands, and none is a name. -/
structure Unambiguous (c : Catalogue κ) : Prop where
  keyed : c.Keyed
  distinct : (c.aliases.map Prod.fst).Nodup
  unnamed : ∀ a name, c.aliases.find? a = some name → c.commands.find? a = none
  owned : ∀ a name, c.aliases.find? a = some name ↔
    ∃ o, c.Registered o ∧ o.name = name ∧ a ∈ o.aliases

/-- A command that can be added beside all others than the one of its own name. -/
structure Fits (c : Catalogue κ) (new : Command κ) : Prop where
  unnamed : ∀ a ∈ new.aliases, c.commands.find? a = none
  owned : ∀ a ∈ new.aliases, ∀ owner, c.aliases.find? a = some owner → owner = new.name
  unaliased : c.aliases.find? new.name = none
  apart : new.name ∉ new.aliases

variable {c c' : Catalogue κ} {o new old : Command κ} {name : String}

theorem Keyed.registered_iff (h : c.Keyed) :
    c.Registered o ↔ c.commands.find? o.name = some o :=
  ⟨Table.find?_of_mem h.nodup, Table.mem_of_find?⟩

/-- What stands under a key is a command of that name. -/
theorem Keyed.find?_commands (h : c.Keyed) (hf : c.commands.find? name = some o) :
    c.Registered o ∧ o.name = name := by
  have hmem := Table.mem_of_find? hf
  have hname := h.named _ hmem
  refine ⟨?_, hname⟩
  rw [Registered, hname]
  exact hmem

theorem unambiguous_empty : (empty : Catalogue κ).Unambiguous := by
  refine ⟨keyed_empty, .nil, ?_, ?_⟩
  · intro a name h
    cases h
  · intro a name
    constructor
    · intro h
      cases h
    · rintro ⟨o, ho, -⟩
      cases ho

namespace Unambiguous

theorem find?_alias (h : c.Unambiguous) (ho : c.Registered o) {a : String} (ha : a ∈ o.aliases) :
    c.aliases.find? a = some o.name :=
  (h.owned a o.name).mpr ⟨o, ho, rfl, ha⟩

/-- A look-up finds the command that is called so. -/
theorem find?_eq_some_iff (h : c.Unambiguous) :
    c.find? name = some o ↔ c.Registered o ∧ o.AnswersTo name := by
  simp only [find?, Command.AnswersTo]
  generalize Text.lowercase name = key
  cases ha : c.aliases.find? key with
  | none =>
    rw [Option.getD_none]
    constructor
    · intro hf
      obtain ⟨ho, hname⟩ := h.keyed.find?_commands hf
      exact ⟨ho, .inl hname.symm⟩
    · rintro ⟨ho, rfl | hin⟩
      · exact h.keyed.registered_iff.mp ho
      · rw [h.find?_alias ho hin] at ha
        cases ha
  | some owner =>
    rw [Option.getD_some]
    obtain ⟨p, hp, hpname, hin⟩ := (h.owned key owner).mp ha
    constructor
    · intro hf
      obtain ⟨ho, hname⟩ := h.keyed.find?_commands hf
      have heq := h.keyed.eq_of_name ho hp (hname.trans hpname.symm)
      exact ⟨ho, .inr (heq ▸ hin)⟩
    · rintro ⟨ho, rfl | hin'⟩
      · have hnone := h.unnamed _ _ ha
        rw [h.keyed.registered_iff.mp ho] at hnone
        cases hnone
      · have hown := h.find?_alias ho hin'
        rw [ha] at hown
        injection hown with hown
        rw [hown]
        exact h.keyed.registered_iff.mp ho

theorem eq_of_answersTo (h : c.Unambiguous) {o' : Command κ} (ho : c.Registered o)
    (ho' : c.Registered o') (ha : o.AnswersTo name) (ha' : o'.AnswersTo name) : o = o' := by
  have hf := h.find?_eq_some_iff.mpr ⟨ho, ha⟩
  rw [h.find?_eq_some_iff.mpr ⟨ho', ha'⟩] at hf
  injection hf with hf
  exact hf.symm

/-- A name is looked up alike in two catalogues that agree on the commands called so. -/
theorem find?_congr (h : c.Unambiguous) (h' : c'.Unambiguous)
    (same : ∀ o, o.AnswersTo name → (c'.Registered o ↔ c.Registered o)) :
    c'.find? name = c.find? name := by
  apply Option.ext
  intro o
  rw [h'.find?_eq_some_iff, h.find?_eq_some_iff]
  exact and_congr_left (same o)

theorem find?_eq_none (h : c.Unambiguous) (nobody : ∀ o, c.Registered o → ¬ o.AnswersTo name) :
    c.find? name = none := by
  apply Option.eq_none_iff_forall_ne_some.mpr
  intro o hf
  obtain ⟨ho, ha⟩ := h.find?_eq_some_iff.mp hf
  exact nobody o ho ha

end Unambiguous

/-! Removing -/

theorem registered_remove_iff (h : c.Keyed) :
    (c.remove old).Registered o ↔ c.Registered o ∧ o.name ≠ old.name := by
  rw [(h.remove old).registered_iff, h.registered_iff, remove, Table.find?_erase h.nodup]
  by_cases hn : o.name = old.name <;> simp [hn]

theorem find?_aliases_remove (h : c.Unambiguous) (a : String) :
    (c.remove old).aliases.find? a = if a ∈ old.aliases then none else c.aliases.find? a :=
  Table.find?_foldl_erase h.distinct old.aliases a

theorem Unambiguous.remove (h : c.Unambiguous) (hold : c.Registered old) :
    (c.remove old).Unambiguous := by
  refine ⟨h.keyed.remove old, Table.nodup_foldl_erase h.distinct old.aliases, ?_, ?_⟩
  · intro a owner ha
    rw [find?_aliases_remove h] at ha
    split at ha
    · cases ha
    · have hnone := h.unnamed a owner ha
      rw [Catalogue.remove, Table.find?_erase h.keyed.nodup, hnone, ite_self]
  · intro a owner
    rw [find?_aliases_remove h]
    split
    · rename_i hin
      constructor
      · intro hf
        cases hf
      · rintro ⟨o, ho, rfl, ha⟩
        obtain ⟨ho, hne⟩ := (registered_remove_iff h.keyed).mp ho
        have hown := h.find?_alias ho ha
        rw [h.find?_alias hold hin] at hown
        injection hown with hown
        exact absurd hown.symm hne
    · rename_i hnot
      rw [h.owned]
      constructor
      · rintro ⟨o, ho, hname, ha⟩
        refine ⟨o, (registered_remove_iff h.keyed).mpr ⟨ho, ?_⟩, hname, ha⟩
        intro heq
        exact hnot (h.keyed.eq_of_name ho hold heq ▸ ha)
      · rintro ⟨o, ho, hname, ha⟩
        exact ⟨o, ((registered_remove_iff h.keyed).mp ho).1, hname, ha⟩

/-- Removing a command takes away no other. -/
theorem registered_remove_iff_ne (h : c.Unambiguous) (hold : c.Registered old) :
    (c.remove old).Registered o ↔ c.Registered o ∧ o ≠ old := by
  rw [registered_remove_iff h.keyed]
  refine and_congr_right fun ho => not_congr ⟨h.keyed.eq_of_name ho hold, ?_⟩
  exact fun heq => congrArg Command.name heq

theorem find?_remove_of_not_answersTo (h : c.Unambiguous) (hold : c.Registered old)
    (hnot : ¬ old.AnswersTo name) : (c.remove old).find? name = c.find? name := by
  apply h.find?_congr (h.remove hold)
  intro o ha
  rw [registered_remove_iff_ne h hold]
  refine ⟨And.left, fun ho => ⟨ho, ?_⟩⟩
  rintro rfl
  exact hnot ha

theorem find?_remove_eq_none (h : c.Unambiguous) (hold : c.Registered old)
    (ha : old.AnswersTo name) : (c.remove old).find? name = none := by
  apply (h.remove hold).find?_eq_none
  intro o ho ha'
  obtain ⟨ho, hne⟩ := (registered_remove_iff_ne h hold).mp ho
  exact hne (h.eq_of_answersTo ho hold ha' ha)

/-! Adding -/

/-- Adding a command puts it beside all others than the one of its name. -/
theorem Unambiguous.put_cases (h : c.Unambiguous) (new : Command κ) :
    ∃ kept : Catalogue κ, kept.Unambiguous ∧
      (∀ o, kept.Registered o ↔ c.Registered o ∧ o.name ≠ new.name) ∧
      c.put new = {
        commands := kept.commands.insert new.name new
        aliases := new.aliases.foldl (fun t a => t.insert a new.name) kept.aliases
        registrations := c.registrations + 1 } := by
  simp only [put]
  cases hf : c.commands.find? new.name with
  | none =>
    refine ⟨c, h, ?_, rfl⟩
    intro o
    refine ⟨fun ho => ⟨ho, ?_⟩, And.left⟩
    intro hname
    rw [h.keyed.registered_iff, hname, hf] at ho
    cases ho
  | some old =>
    obtain ⟨hold, hname⟩ := h.keyed.find?_commands hf
    refine ⟨c.remove old, h.remove hold, ?_, rfl⟩
    intro o
    rw [← hname]
    exact registered_remove_iff h.keyed

theorem registered_put_iff (h : c.Unambiguous) (new : Command κ) :
    (c.put new).Registered o ↔ o = new ∨ c.Registered o ∧ o.name ≠ new.name := by
  obtain ⟨kept, hkept, hreg, hput⟩ := h.put_cases new
  rw [(h.keyed.put new).registered_iff, hput, Table.find?_insert, ← hreg,
    hkept.keyed.registered_iff]
  by_cases hname : o.name = new.name
  · rw [if_pos (by simp [hname])]
    constructor
    · intro heq
      injection heq with heq
      exact .inl heq.symm
    · rintro (rfl | hf)
      · rfl
      · exact absurd hname ((hreg o).mp (hkept.keyed.registered_iff.mpr hf)).2
  · have hne : o ≠ new := by
      rintro rfl
      exact hname rfl
    simp [hname, hne]

/-- What is left of the catalogue knows nothing of the names that are added. -/
theorem Fits.vacant (h : c.Unambiguous) (hf : c.Fits new) {kept : Catalogue κ}
    (hkept : kept.Unambiguous)
    (hreg : ∀ o, kept.Registered o ↔ c.Registered o ∧ o.name ≠ new.name) :
    (∀ a ∈ new.aliases, kept.aliases.find? a = none) ∧ kept.aliases.find? new.name = none ∧
      ∀ a ∈ new.aliases, kept.commands.find? a = none := by
  refine ⟨?_, ?_, ?_⟩
  · intro a ha
    apply Option.eq_none_iff_forall_ne_some.mpr
    intro owner hfind
    obtain ⟨o, ho, -, hin⟩ := (hkept.owned a owner).mp hfind
    obtain ⟨ho, hne⟩ := (hreg o).mp ho
    exact hne (hf.owned a ha o.name (h.find?_alias ho hin))
  · apply Option.eq_none_iff_forall_ne_some.mpr
    intro owner hfind
    obtain ⟨o, ho, -, hin⟩ := (hkept.owned new.name owner).mp hfind
    have hown := h.find?_alias ((hreg o).mp ho).1 hin
    rw [hf.unaliased] at hown
    cases hown
  · intro a ha
    apply Option.eq_none_iff_forall_ne_some.mpr
    intro o hfind
    obtain ⟨ho, rfl⟩ := hkept.keyed.find?_commands hfind
    have hnone := hf.unnamed o.name ha
    rw [h.keyed.registered_iff.mp ((hreg o).mp ho).1] at hnone
    cases hnone

theorem Unambiguous.put (h : c.Unambiguous) (hf : c.Fits new) : (c.put new).Unambiguous := by
  obtain ⟨kept, hkept, hreg, hput⟩ := h.put_cases new
  obtain ⟨hvacant, hunaliased, hunnamed⟩ := hf.vacant h hkept hreg
  have haliases : ∀ a, (c.put new).aliases.find? a =
      if a ∈ new.aliases then some new.name else kept.aliases.find? a := by
    intro a
    rw [hput]
    exact Table.find?_foldl_insert kept.aliases new.aliases new.name a
  refine ⟨h.keyed.put new, ?_, ?_, ?_⟩
  · rw [hput]
    exact Table.nodup_foldl_insert hkept.distinct new.aliases new.name
  · intro a owner ha
    rw [haliases] at ha
    rw [hput, Table.find?_insert]
    split at ha
    · rename_i hin
      have hne : a ≠ new.name := by
        rintro rfl
        exact hf.apart hin
      simp [hne, hunnamed a hin]
    · have hne : a ≠ new.name := by
        rintro rfl
        rw [hunaliased] at ha
        cases ha
      simp [hne, hkept.unnamed a owner ha]
  · intro a owner
    rw [haliases]
    split
    · rename_i hin
      constructor
      · intro hsome
        injection hsome with hsome
        exact ⟨new, (registered_put_iff h new).mpr (.inl rfl), hsome, hin⟩
      · rintro ⟨o, ho, rfl, ha⟩
        rcases (registered_put_iff h new).mp ho with rfl | ho
        · rfl
        · have hown := hkept.find?_alias ((hreg o).mpr ho) ha
          rw [hvacant a hin] at hown
          cases hown
    · rename_i hnot
      rw [hkept.owned]
      constructor
      · rintro ⟨o, ho, hname, ha⟩
        exact ⟨o, (registered_put_iff h new).mpr (.inr ((hreg o).mp ho)), hname, ha⟩
      · rintro ⟨o, ho, hname, ha⟩
        rcases (registered_put_iff h new).mp ho with rfl | ho
        · exact absurd ha hnot
        · exact ⟨o, (hreg o).mpr ho, hname, ha⟩

/-- A command that is added changes only what it is called itself, and what the command was called
whose place it takes. -/
theorem find?_put_of_not_answersTo (h : c.Unambiguous) (hf : c.Fits new)
    (hnew : ¬ new.AnswersTo name)
    (hold : ∀ old, c.Registered old → old.name = new.name → ¬ old.AnswersTo name) :
    (c.put new).find? name = c.find? name := by
  apply h.find?_congr (h.put hf)
  intro o ha
  rw [registered_put_iff h]
  constructor
  · rintro (rfl | ⟨ho, -⟩)
    · exact absurd ha hnew
    · exact ho
  · intro ho
    exact .inr ⟨ho, fun hname => hold o ho hname ha⟩

theorem find?_put_eq_none (h : c.Unambiguous) (hf : c.Fits new) (hold : c.Registered old)
    (hname : old.name = new.name) (ha : old.AnswersTo name) (hnew : ¬ new.AnswersTo name) :
    (c.put new).find? name = none := by
  apply (h.put hf).find?_eq_none
  intro o ho ha'
  rcases (registered_put_iff h new).mp ho with rfl | ⟨ho, hne⟩
  · exact hnew ha'
  · rw [h.eq_of_answersTo ho hold ha' ha] at hne
    exact hne hname

/-! Changes -/

/-- What is registered has been found to fit. -/
theorem fits_of_register {d : CommandDeclaration κ} {parsers : ParserRegistry}
    (h : (c.register d parsers).value = .ok (new, c')) : c' = c.put new ∧ c.Fits new := by
  obtain ⟨hput, made⟩ := register_makes h
  have hfree := made.free
  have hunaliased := made.unaliased
  simp only [isTaken, Table.contains, Bool.or_eq_false_iff, Option.isSome_eq_false_iff,
    Option.isNone_iff_eq_none] at hfree hunaliased
  refine ⟨hput, fun a ha => (hfree a ha).1, ?_, hunaliased, ?_⟩
  · intro a ha owner howner
    have hown := (hfree a ha).2
    rw [howner] at hown
    simpa using hown
  · rw [made.aliases]
    simp [aliasesOf]

theorem unregister_eq_some (h : c.Keyed) (hu : (c.unregister name).1 = some old) :
    (c.unregister name).2 = c.remove old ∧ c.Registered old ∧ old.name = Text.lowercase name := by
  simp only [unregister] at hu ⊢
  split at hu
  · rename_i found hf
    injection hu with hu
    subst hu
    exact ⟨rfl, h.find?_commands hf⟩
  · cases hu

theorem unregister_eq_none (hu : (c.unregister name).1 = none) : (c.unregister name).2 = c := by
  simp only [unregister] at hu ⊢
  split at hu
  · cases hu
  · rfl

theorem value_change_register (c : Catalogue κ) (d : CommandDeclaration κ)
    (parsers : ParserRegistry) :
    (c.change (.register d parsers)).value =
      match (c.register d parsers).value with
      | .ok (_, changed) => changed
      | .error _ => c := by
  simp only [change, Reported.value_bind]
  split <;> simp_all

theorem Unambiguous.change (h : c.Unambiguous) (x : Change κ) : (c.change x).value.Unambiguous := by
  cases x with
  | register d parsers =>
    rw [value_change_register]
    split
    · rename_i new changed hr
      obtain ⟨rfl, hf⟩ := fits_of_register hr
      exact h.put hf
    · exact h
  | unregister name =>
    simp only [Catalogue.change, Reported.value_pure]
    cases hu : (c.unregister name).1 with
    | some old =>
      obtain ⟨hremove, hold, -⟩ := unregister_eq_some h.keyed hu
      rw [hremove]
      exact h.remove hold
    | none =>
      rw [unregister_eq_none hu]
      exact h

/-- The catalogue after some changes. -/
def changed (c : Catalogue κ) (changes : List (Change κ)) : Catalogue κ := (c.changeAll changes).value

theorem changed_append (c : Catalogue κ) (xs ys : List (Change κ)) :
    c.changed (xs ++ ys) = (c.changed xs).changed ys := by
  induction xs generalizing c with
  | nil => rfl
  | cons x rest ih => exact ih (c.change x).value

/-- What holds of the empty catalogue and is kept by every change holds after any. -/
theorem changed_keeps {P : Catalogue κ → Prop} (keeps : ∀ c x, P c → P (c.change x).value)
    (h : P c) (changes : List (Change κ)) : P (c.changed changes) := by
  induction changes generalizing c with
  | nil => exact h
  | cons x rest ih => exact ih (keeps c x h)

theorem unambiguous_changed (changes : List (Change κ)) :
    ((empty : Catalogue κ).changed changes).Unambiguous :=
  changed_keeps (fun _ x h => h.change x) unambiguous_empty changes

/-- A registration that is refused leaves the engine as it was. -/
theorem registerCommand_of_error {e : Engine κ} {d : CommandDeclaration κ} {err : Error}
    (h : (e.registerCommand d).value.1 = .error err) : (e.registerCommand d).value.2 = e := by
  simp only [Engine.registerCommand, Reported.value_bind] at h ⊢
  split
  · rfl
  · rename_i hok
    rw [hok] at h
    cases h

/-- Whatever a catalogue has been through, a name stands for the one registered command that is
called so, and an alias for the command that lists it. A registration adds its command in place of
the one of its name, and a removal takes one away; either changes what a name stands for only if one
of these commands is called so. A registration that is refused changes nothing. -/
theorem names_stay_unambiguous (changes : List (Change κ)) :
    let c := (empty : Catalogue κ).changed changes
    (∀ name o, c.find? name = some o ↔ c.Registered o ∧ o.AnswersTo name) ∧
    (∀ name o o', c.Registered o → o.AnswersTo name → c.Registered o' → o'.AnswersTo name →
      o = o') ∧
    (∀ a owner, (a, owner) ∈ c.aliases →
      a ∉ c.commands.keys ∧ ∃ o, c.Registered o ∧ o.name = owner ∧ a ∈ o.aliases) ∧
    (∀ d parsers new after, (c.register d parsers).value = .ok (new, after) →
      (∀ o, after.Registered o ↔ o = new ∨ c.Registered o ∧ o.name ≠ new.name) ∧
      (∀ name, ¬ new.AnswersTo name →
        (∀ old, c.Registered old → old.name = new.name → ¬ old.AnswersTo name) →
        after.find? name = c.find? name) ∧
      ∀ name old, c.Registered old → old.name = new.name → old.AnswersTo name →
        ¬ new.AnswersTo name → after.find? name = none) ∧
    (∀ (e : Engine κ) d err, e.commands = c → (e.registerCommand d).value.1 = .error err →
      let after := (e.registerCommand d).value.2.commands
      after.find? = c.find? ∧ after.names = c.names ∧ after.describe = c.describe) ∧
    ∀ name, let after := (c.unregister name).2
      match (c.unregister name).1 with
      | none => after = c ∧ ∀ o, c.Registered o → o.name ≠ Text.lowercase name
      | some old => c.Registered old ∧ old.name = Text.lowercase name ∧
        (∀ o, after.Registered o ↔ c.Registered o ∧ o ≠ old) ∧
        (∀ other, ¬ old.AnswersTo other → after.find? other = c.find? other) ∧
        ∀ other, old.AnswersTo other → after.find? other = none := by
  intro c
  have h : c.Unambiguous := unambiguous_changed changes
  refine ⟨fun name o => h.find?_eq_some_iff, ?_, ?_, ?_, ?_, ?_⟩
  · intro name o o' ho ha ho' ha'
    exact h.eq_of_answersTo ho ho' ha ha'
  · intro a owner hin
    have hf := Table.find?_of_mem h.distinct hin
    refine ⟨?_, (h.owned a owner).mp hf⟩
    rw [Table.keys, ← Table.find?_eq_none_iff]
    exact h.unnamed a owner hf
  · intro d parsers new after hr
    obtain ⟨rfl, hf⟩ := fits_of_register hr
    refine ⟨fun o => registered_put_iff h new, ?_, ?_⟩
    · exact fun name hnew hold => find?_put_of_not_answersTo h hf hnew hold
    · exact fun name old hold hname ha hnew => find?_put_eq_none h hf hold hname ha hnew
  · intro e d err hc hr
    simp only [registerCommand_of_error hr, hc, and_self]
  · intro name after
    cases hu : (c.unregister name).1 with
    | none =>
      refine ⟨unregister_eq_none hu, ?_⟩
      intro o ho hname
      simp only [unregister, ← hname, h.keyed.registered_iff.mp ho] at hu
      cases hu
    | some old =>
      obtain ⟨hremove, hold, hname⟩ := unregister_eq_some h.keyed hu
      simp only [after, hremove]
      refine ⟨hold, hname, fun o => registered_remove_iff_ne h hold, ?_, ?_⟩
      · exact fun other hnot => find?_remove_of_not_answersTo h hold hnot
      · exact fun other hother => find?_remove_eq_none h hold hother

end Catalogue
end CommandConsole
