import CommandConsole.Proofs.Bindings.Storage
import CommandConsole.Proofs.Value.Written

/-! Values that are displayed behind the name of a command are bound as they were. -/
namespace CommandConsole

open ValueType

variable {t : ValueType} {v : Value} {p : ValueParser} {pool : Pool}

namespace Signature

/-- `<x:type>` -/
def single (t : ValueType) (p : ValueParser) : Signature where
  parameters := [⟨"x", "x", t, none, false, none, [], ⟨p, t.isOptional⟩⟩]
  required := 1
  optional := 0
  hasRemainder := false

theorem build_single (hp : ParserRegistry.builtin.resolve t = .ok p) :
    (Draft.empty.argument "x" t).build .builtin = .ok (single t p) := by
  have hname : Text.trim "x" = "x" := by decide
  have hkey : Text.lowercase "x" = "x" := by decide +kernel
  have hblank : Text.isBlank 'x' = false := by decide
  have hresolved : ParserRegistry.builtin.resolved t = .ok ⟨p, t.isOptional⟩ := by
    rw [ParserRegistry.resolved, hp]
    rfl
  have hcheck : Declaration.check { name := "x", type := some t } .builtin =
      .ok ⟨"x", "x", t, none, false, none, [], ⟨p, t.isOptional⟩⟩ := by
    simp [Declaration.check, hname, hblank, Declaration.checkParts, Declaration.resolveParser,
      hresolved, Declaration.remainderProblem?, Declaration.resolveDefault, hkey]
  simp [Draft.build, Draft.argument, Draft.declare, Draft.empty, addAll, hcheck, Signature.empty,
    add, find?, Parameter.isOptional, single]

theorem select?_single : select? [single t p] 1 = some 0 := by
  simp [select?, feasible, accepts, single]

end Signature

namespace BindRequest

theorem bind_single {q : BindRequest} {w : Word} {token : Token}
    (hwords : q.words = [w]) (htrouble : q.trouble = none)
    (hscan : Token.scan w.text w.start q.invoker.property = .ok token)
    (hparse : p.parse [w.start] token = .ok v) (used : pool.Used) :
    (q.bind [Signature.single t p] pool).1 = .ok ⟨0, ⟨[("x", ⟨v, t⟩)]⟩⟩ := by
  have hkey : Text.lowercase "x" = "x" := by decide +kernel
  have hclear : q.standingTrouble (Signature.single t p) = none := by
    rw [standingTrouble, htrouble]
    rfl
  have hvalue : q.valueOf ⟨"x", "x", t, none, false, none, [], ⟨p, t.isOptional⟩⟩ w = .ok v := by
    simp [valueOf, read, hscan, hparse, Constraint.firstRefusal]
  have hfill : q.fill (Signature.single t p).parameters q.words pool.rent.1 =
      .ok ⟨[("x", ⟨v, t⟩)]⟩ := by
    rw [hwords]
    simp only [Signature.single, fill, hvalue, Bindings.insert, used.rent_entries, hkey]
    rfl
  have hselect : Signature.select? [Signature.single t p] q.words.length = some 0 := by
    rw [hwords]
    exact Signature.select?_single
  rw [bind_of_selected hselect rfl, bindTo_of_clear hclear, hfill]

/-- Let a type be put together of truth values, integers and texts, and a value belong to it whose
texts are plain, none of them an optional text that stands for nil, and whose keys differ. Then the
name of a command with the display of the value behind it is a line of two words, which is bound to
the very value. -/
theorem displayed_value_is_bound (simple : t.isSimple = true) (accepted : t.accepts v = true)
    (legible : ∀ x ∈ t.places v, Legible x) (used : pool.Used) (invoker : Invoker) :
    ∃ s, (Signature.Draft.empty.argument "x" t).build .builtin = .ok s ∧
      let line := "cmd " ++ v.display
      let words : List Word := [⟨v.display, 4⟩]
      Line.cut line = ⟨⟨"cmd", 0⟩ :: words, none⟩ ∧
        (bind ⟨"cmd", line, words, invoker, none⟩ [s] pool).1 = .ok ⟨0, ⟨[("x", ⟨v, t⟩)]⟩⟩ := by
  have sayable := sayable_of_legible simple accepted legible
  obtain ⟨p, hp⟩ := Value.resolves_of_isSimple simple
  refine ⟨Signature.single t p, Signature.build_single hp, ?_, ?_⟩
  · have hname : Line.Solid "cmd".toList := Value.solid_plain (by decide)
    have hcut := Line.cut_pair hname (Value.solid_display sayable) (by decide)
      (Value.display_ne_empty simple sayable)
    have hspace : "cmd" ++ " " = "cmd " := by decide
    have hwidth : Text.width "cmd".toList + 1 = 4 := by decide
    rw [hspace, hwidth] at hcut
    exact hcut
  · have written : Token.Written invoker.property [] v.display.toList v.token :=
      Value.written_display simple sayable (List.nil_subset _)
    exact bind_single rfl rfl (Token.scan_of_padded written.padded 4)
      (Value.parse_token sayable hp [4]) used

/-- Lists as keys, a map within a map, the least integer, and nil both as a text and as itself. -/
theorem bind_nested_maps :
    let t : ValueType := .map (.list .text) (.optional (.map .text .int))
    let v : Value := .map
      [(.list [.text "$", .text "b"], .map [(.text "nil", .int Int64.minValue)]), (.list [], .nil)]
    v.display = "\x7b[$,b]:\x7bnil:-9223372036854775808\x7d,[]:nil\x7d" ∧
      (t.isSimple = true ∧ t.accepts v = true ∧ ∀ x ∈ t.places v, Legible x) ∧
      ∃ s, (Signature.Draft.empty.argument "x" t).build .builtin = .ok s ∧
        Line.cut ("cmd " ++ v.display) = ⟨[⟨"cmd", 0⟩, ⟨v.display, 4⟩], none⟩ ∧
        (bind ⟨"cmd", "cmd " ++ v.display, [⟨v.display, 4⟩], .named "op", none⟩ [s] .standard).1 =
          .ok ⟨0, ⟨[("x", ⟨v, t⟩)]⟩⟩ := by
  intro t v
  have simple : t.isSimple = true := rfl
  have accepted : t.accepts v = true := by decide +kernel
  have legible : ∀ x ∈ t.places v, Legible x := by decide +kernel
  exact ⟨by decide +kernel, ⟨simple, accepted, legible⟩,
    displayed_value_is_bound simple accepted legible (.fresh 64) (.named "op")⟩

end BindRequest
end CommandConsole
