import CommandConsole.Catalogue

/-! What registering and removing commands can do to a catalogue. -/
namespace CommandConsole.Catalogue

variable {κ : Type} {c : Catalogue κ} {o new : Command κ}

/-- Every command stands under its own name, and no name stands for two. -/
structure Keyed (c : Catalogue κ) : Prop where
  nodup : (c.commands.map Prod.fst).Nodup
  named : ∀ b ∈ c.commands, b.2.name = b.1

/-- The very registration is in the catalogue. -/
def Registered (c : Catalogue κ) (o : Command κ) : Prop := (o.name, o) ∈ c.commands

theorem keyed_empty : (empty : Catalogue κ).Keyed := ⟨.nil, by simp [empty]⟩

theorem registered_of_find? (h : c.Keyed) {name : String} (hf : c.find? name = some o) :
    c.Registered o := by
  have hmem := Table.mem_of_find? hf
  have hname := h.named _ hmem
  rw [Registered, hname]
  exact hmem

theorem Keyed.eq_of_name (h : c.Keyed) {o' : Command κ} (ho : c.Registered o)
    (ho' : c.Registered o') (hn : o.name = o'.name) : o = o' := by
  have hf := Table.find?_of_mem h.nodup ho
  rw [hn, Table.find?_of_mem h.nodup ho'] at hf
  injection hf with hf
  exact hf.symm

theorem Keyed.remove (h : c.Keyed) (old : Command κ) : (c.remove old).Keyed :=
  have hsub := Table.erase_sublist c.commands old.name
  ⟨h.nodup.sublist (hsub.map _), fun b hb => h.named b (hsub.subset hb)⟩

theorem Registered.of_remove {old : Command κ} (h : (c.remove old).Registered o) :
    c.Registered o :=
  (Table.erase_sublist c.commands old.name).subset h

/-- Adding a command inserts it into a table from which at most commands have gone. -/
theorem put_commands (c : Catalogue κ) (new : Command κ) :
    ∃ t : Table String (Command κ), t.Sublist c.commands ∧
      (c.put new).commands = t.insert new.name new := by
  simp only [put]
  split
  · rename_i old hold
    exact ⟨_, Table.erase_sublist c.commands old.name, rfl⟩
  · exact ⟨_, .refl _, rfl⟩

theorem Keyed.put (h : c.Keyed) (new : Command κ) : (c.put new).Keyed := by
  obtain ⟨t, hsub, hput⟩ := c.put_commands new
  constructor
  · rw [hput]
    exact Table.nodup_insert (h.nodup.sublist (hsub.map _)) _ _
  · intro b hb
    rw [hput] at hb
    rcases Table.mem_insert hb with rfl | hb
    · rfl
    · exact h.named b (hsub.subset hb)

theorem Registered.of_put (h : (c.put new).Registered o) : o = new ∨ c.Registered o := by
  obtain ⟨t, hsub, hput⟩ := c.put_commands new
  rw [Registered, hput] at h
  rcases Table.mem_insert h with h | h
  · exact .inl (congrArg Prod.snd h)
  · exact .inr (hsub.subset h)

@[simp] theorem registrations_put (c : Catalogue κ) (new : Command κ) :
    (c.put new).registrations = c.registrations + 1 := by
  simp only [put]
  split <;> rfl

/-- A command that a registration makes of a declaration. -/
structure Makes (c : Catalogue κ) (d : CommandDeclaration κ) (new : Command κ) : Prop where
  name : new.name = canonical d.name
  aliases : new.aliases = aliasesOf new.name d.aliases
  registration : new.registration = c.registrations
  nonempty : new.name ≠ ""
  unbroken : new.name.toList.any Text.isBlank = false
  free : ∀ a ∈ new.aliases, c.isTaken new.name a = false
  unaliased : c.aliases.contains new.name = false

/-- A registration adds what it makes. -/
theorem register_makes {c' : Catalogue κ} {d : CommandDeclaration κ} {parsers : ParserRegistry}
    (h : (c.register d parsers).value = .ok (new, c')) : c' = c.put new ∧ c.Makes d new := by
  simp only [register] at h
  split at h
  · cases h
  rename_i hname
  obtain ⟨nonempty, unbroken⟩ := not_or.mp hname
  split at h
  · cases h
  rename_i command hbuild
  injection h with h
  injection h with hcommand hput
  subst hcommand
  refine ⟨hput.symm, ?_⟩
  simp only [build] at hbuild
  split at hbuild
  · cases hbuild
  split at hbuild
  · cases hbuild
  rename_i hfree
  split at hbuild
  · cases hbuild
  rename_i unaliased
  injection hbuild with hbuild
  subst hbuild
  rw [Bool.not_eq_true] at unbroken unaliased
  refine ⟨rfl, rfl, rfl, nonempty, unbroken, ?_, unaliased⟩
  intro a ha
  exact Bool.not_eq_true _ ▸ List.find?_eq_none.mp hfree a ha

/-- A registration fails, or adds a command under the next number. -/
theorem register_cases (c : Catalogue κ) (d : CommandDeclaration κ) (parsers : ParserRegistry) :
    (∃ err, (c.register d parsers).value = .error err) ∨
      ∃ new, (c.register d parsers).value = .ok (new, c.put new) ∧
        new.registration = c.registrations := by
  cases h : (c.register d parsers).value with
  | error err => exact .inl ⟨err, rfl⟩
  | ok added =>
    obtain ⟨new, c'⟩ := added
    obtain ⟨rfl, made⟩ := register_makes h
    exact .inr ⟨new, rfl, made.registration⟩

theorem unregister_cases (c : Catalogue κ) (name : String) :
    (c.unregister name).2 = c ∨ ∃ old, (c.unregister name).2 = c.remove old := by
  simp only [unregister]
  split
  · exact .inr ⟨_, rfl⟩
  · exact .inl rfl

end CommandConsole.Catalogue
