import CommandConsole.Proofs.Catalogue.Names
import CommandConsole.Proofs.Text.Lowercase

/-! How the keys of registered commands are spelled. -/
namespace CommandConsole

variable {κ : Type} {o new : Command κ} {key : String}

/-- The name of a command is one of its keys, and so are its aliases. -/
def Command.HasKey (o : Command κ) (key : String) : Prop := key = o.name ∨ key ∈ o.aliases

/-- The keys of a command are in lower case, and its name is not empty and has no white space in
it. -/
structure Command.Spelled (o : Command κ) : Prop where
  lowercase : ∀ key, o.HasKey key → Text.lowercase key = key
  nonempty : o.name ≠ ""
  unbroken : ∀ c ∈ o.name.toList, Text.isBlank c = false

theorem Command.Spelled.answersTo (h : o.Spelled) (hk : o.HasKey key) : o.AnswersTo key := by
  rw [AnswersTo, h.lowercase key hk]
  exact hk

namespace Catalogue

variable {c c' : Catalogue κ}

theorem lowercase_canonical (name : String) : Text.lowercase (canonical name) = canonical name :=
  Text.lowercase_lowercase _

theorem spelled_of_register {d : CommandDeclaration κ} {parsers : ParserRegistry}
    (h : (c.register d parsers).value = .ok (new, c')) : new.Spelled := by
  obtain ⟨-, made⟩ := register_makes h
  refine ⟨?_, made.nonempty, ?_⟩
  · rintro key (rfl | hkey)
    · rw [made.name, lowercase_canonical]
    · rw [made.aliases, aliasesOf, List.mem_filter] at hkey
      obtain ⟨a, -, rfl⟩ := List.mem_map.mp hkey.1
      exact lowercase_canonical a
  · intro c hc
    exact Bool.not_eq_true _ ▸ List.any_eq_false.mp made.unbroken c hc

/-- What registers commands takes care of how they are spelled. -/
theorem spelled_change (h : ∀ o, c.Registered o → o.Spelled) (x : Change κ) :
    ∀ o, (c.change x).value.Registered o → o.Spelled := by
  intro o ho
  cases x with
  | register d parsers =>
    rw [value_change_register] at ho
    split at ho
    · rename_i new changed hr
      obtain ⟨rfl, -⟩ := fits_of_register hr
      rcases ho.of_put with rfl | ho
      · exact spelled_of_register hr
      · exact h o ho
    · exact h o ho
  | unregister name =>
    simp only [change, Reported.value_pure] at ho
    rcases c.unregister_cases name with hu | ⟨old, hu⟩
    · exact h o (hu ▸ ho)
    · rw [hu] at ho
      exact h o ho.of_remove

theorem spelled_changed (changes : List (Change κ)) :
    ∀ o, ((empty : Catalogue κ).changed changes).Registered o → o.Spelled := by
  apply changed_keeps (P := fun c => ∀ o, c.Registered o → o.Spelled)
  · exact fun _ x h => spelled_change h x
  · intro o ho
    cases ho

/-- Whatever a catalogue has been through, its commands are found under all their keys. -/
theorem find?_of_hasKey {changes : List (Change κ)}
    (ho : ((empty : Catalogue κ).changed changes).Registered o) (hk : o.HasKey key) :
    ((empty : Catalogue κ).changed changes).find? key = some o :=
  (unambiguous_changed changes).find?_eq_some_iff.mpr
    ⟨ho, (spelled_changed changes o ho).answersTo hk⟩

end Catalogue
end CommandConsole
