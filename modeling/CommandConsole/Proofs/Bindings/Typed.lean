import CommandConsole.Proofs.Bindings.Supplied
import CommandConsole.Proofs.Signature.Shape
import CommandConsole.Proofs.ValueParser.Yields

/-! Whatever an argument is bound to belongs to its declared type: what its parser makes, what a
remainder takes, and the default. -/
namespace CommandConsole

/-- What is made for a parameter belongs to its type, wherever it comes from. -/
structure Parameter.Typed (p : Parameter) : Prop where
  parsed : p.parser.parser.Yields p.type
  default : ∀ v, p.default = some v → p.type.Holds v
  remainder : p.isRemainder = true → p.type = .text

/-- A parameter whose parser was resolved for its type, by a registry in which the basic types and
the parts of the type have the parsers that they come with. -/
def Parameter.Resolved (p : Parameter) : Prop :=
  ∃ (d : Declaration) (r : ParserRegistry), d.check r = .ok p ∧ d.parser = none ∧ r.Standard ∧
    r.Unshadowed p.type

namespace Declaration

variable {d : Declaration} {type : ValueType} {name : String} {r : ParserRegistry} {p : Parameter}
  {v : Value}

/-- A default is nil, for a type that may do without, or is the declared one, coerced. -/
theorem resolveDefault_cases (h : d.resolveDefault type = .ok (some v)) :
    (type.isOptional = true ∧ v = .nil) ∨
      ∃ w, d.default = some w ∧ type.accepts w = true ∧ v = type.coerce w := by
  simp only [resolveDefault] at h
  split at h
  · rename_i w hw _
    split at h
    · rename_i haccepts
      injection h with h
      injection h with h
      exact .inr ⟨w, hw, haccepts, h.symm⟩
    · cases h
  · split at h
    · rename_i hoptional
      injection h with h
      injection h with h
      exact .inl ⟨hoptional, h.symm⟩
    · cases h
  · cases h
  · cases h

theorem resolveDefault_holds (h : d.resolveDefault type = .ok (some v)) : type.Holds v := by
  rcases resolveDefault_cases h with ⟨hoptional, rfl⟩ | ⟨w, -, haccepts, rfl⟩
  · cases type with
    | optional t => exact t.holds_nil
    | _ => cases hoptional
  · exact ValueType.holds_coerce haccepts

/-- The parts of a checked parameter that its values depend on. -/
structure Settles (d : Declaration) (r : ParserRegistry) (p : Parameter) : Prop where
  parser : d.resolveParser p.type r = .ok p.parser
  default : d.resolveDefault p.type = .ok p.default
  remainder : p.isRemainder = true → p.type = .text

theorem checkParts_settles (h : d.checkParts name type r = .ok p) : d.Settles r p := by
  simp only [checkParts] at h
  split at h
  · cases h
  rename_i parser hparser
  split at h
  · cases h
  rename_i hproblem
  split at h
  · cases h
  rename_i default hdefault
  injection h with h
  subst h
  refine ⟨hparser, hdefault, ?_⟩
  intro hremainder
  simp only [remainderProblem?] at hproblem
  split at hproblem
  · cases hproblem
  rename_i htype
  exact Decidable.not_not.mp fun hne => htype ⟨hremainder, hne⟩

theorem check_settles (h : d.check r = .ok p) : d.Settles r p := by
  obtain ⟨name, type, hparts⟩ := checkParts_of_check h
  exact checkParts_settles hparts

theorem Settles.default_holds (h : d.Settles r p) (hv : p.default = some v) : p.type.Holds v := by
  have hdefault := h.default
  rw [hv] at hdefault
  exact resolveDefault_holds hdefault

theorem Settles.parser_yields (h : d.Settles r p) (hd : d.parser = none) (hr : r.Standard)
    (hu : r.Unshadowed p.type) : p.parser.parser.Yields p.type := by
  have hparser := h.parser
  simp only [resolveParser, hd] at hparser
  split at hparser
  · rename_i resolved hresolved
    injection hparser with hparser
    obtain ⟨made, hmade, rfl⟩ := ValueParser.exists_of_map_eq_ok hresolved
    exact hparser ▸ ParserRegistry.resolve_yields hr hu hmade
  · cases hparser

end Declaration

theorem Parameter.Resolved.typed {p : Parameter} (h : p.Resolved) : p.Typed := by
  obtain ⟨d, r, hcheck, hd, hr, hu⟩ := h
  have settles := d.check_settles hcheck
  exact ⟨settles.parser_yields hd hr hu, fun v hv => settles.default_holds hv, settles.remainder⟩

namespace BindRequest

/-- Every entry is that of a parameter, of its type, and has a value of that type. -/
def WellTyped (ps : List Parameter) (es : Table String Binding) : Prop :=
  ∀ x ∈ es, x.2.type.Holds x.2.value ∧
    ∃ p ∈ ps, x.1 = Text.lowercase p.name ∧ x.2.type = p.type

variable {q : BindRequest} {p : Parameter} {ps : List Parameter} {w : Word} {v : Value}
  {overloads : List Signature} {pool : Pool}

theorem valueOf_holds (hp : p.Typed) (h : q.valueOf p w = .ok v) : p.type.Holds v := by
  rcases text_or_parsed_of_valueOf h with ⟨hremainder, text, rfl⟩ | ⟨place, token, hparse⟩
  · rw [hp.remainder hremainder]
    exact ⟨rfl, rfl⟩
  · exact hp.parsed place token v hparse

theorem Supplied.wellTyped {es : Table String Binding} (hps : ∀ p ∈ ps, p.Typed)
    (h : q.Supplied ps es) : WellTyped ps es := by
  intro x hx
  obtain ⟨p, hp, hname, htype, hsupplies⟩ := h x hx
  refine ⟨?_, p, hp, hname, htype⟩
  rw [htype]
  rcases hsupplies with ⟨w, -, hv⟩ | hv
  · exact valueOf_holds (hps p hp) hv
  · exact (hps p hp).default _ hv

theorem bind_wellTyped {b : Bound} (hs : ∀ s ∈ overloads, ∀ p ∈ s.parameters, p.Typed)
    (used : pool.Used) (h : (q.bind overloads pool).1 = .ok b) :
    ∃ s, overloads[b.overload]? = some s ∧ WellTyped s.parameters b.arguments.entries := by
  obtain ⟨s, hget, hsupplied⟩ := bind_supplied used h
  exact ⟨s, hget, hsupplied.wellTyped (hs s (List.mem_of_getElem? hget))⟩

/-- What a resolved parser makes belongs to the type it was resolved for, and so does the default of
a declaration that passes its check. So every entry of a line that is bound belongs to the type with
which its parameter was declared. -/
theorem bound_values_belong_to_their_types :
    (∀ (r : ParserRegistry) (t : ValueType) (p : ValueParser), r.Standard → r.Unshadowed t →
      r.resolve t = .ok p → ∀ place token v, p.parse place token = .ok v → t.Holds v) ∧
    (∀ (d : Declaration) (r : ParserRegistry) (p : Parameter), d.check r = .ok p →
      ∀ v, p.default = some v → p.type.Holds v) ∧
    ∀ (q : BindRequest) (overloads : List Signature) (pool : Pool) (b : Bound), pool.Used →
      (∀ s ∈ overloads, ∀ p ∈ s.parameters, p.Resolved) → (q.bind overloads pool).1 = .ok b →
      ∃ s, overloads[b.overload]? = some s ∧ ∀ x ∈ b.arguments.entries,
        x.2.type.Holds x.2.value ∧
        ∃ p ∈ s.parameters, x.1 = Text.lowercase p.name ∧ x.2.type = p.type := by
  refine ⟨?_, ?_, ?_⟩
  · intro r t p hr hu hresolve
    exact ParserRegistry.resolve_yields hr hu hresolve
  · intro d r p hcheck v hv
    exact (d.check_settles hcheck).default_holds hv
  · intro q overloads pool b used hs hbind
    exact bind_wellTyped (fun s hin p hp => (hs s hin p hp).typed) used hbind

/-- `mix [ratios:list<option<float>>=[1,nil]]` -/
def mix : Signature :=
  let type : ValueType := .list (.optional .float)
  match (Signature.Draft.empty.optional "ratios" type (.list [.int 1, .nil])).build .builtin with
  | .ok s => s
  | .error _ => .empty

/-- What the parameter of `mix` is declared as. -/
def ratios : Declaration :=
  { name := "ratios", type := some (.list (.optional .float)), isOptional := true,
    default := some (.list [.int 1, .nil]) }

theorem check_ratios :
    ratios.check .builtin = .ok (mix.parameters.get ⟨0, by decide⟩) := by rfl

/-- Floats may be given as integers, in a token, as a default and in a line. -/
theorem bind_default_of_floats :
    let type : ValueType := .list (.optional .float)
    let left : BindRequest := ⟨"mix", "mix", [], .named "op", none⟩
    let given : BindRequest :=
      { left with line := "mix [2,nil]", words := (Line.cut "mix [2,nil]").words.tail }
    (∃ p v, ParserRegistry.builtin.resolve type = .ok p ∧
      p.parse [] (.collection [.plain "2", .plain "nil"]) = .ok v ∧ type.Holds v) ∧
    (∃ p v, ratios.check .builtin = .ok p ∧ p.default = some v ∧ p.type.Holds v) ∧
    (∀ s ∈ [mix], ∀ p ∈ s.parameters, p.Resolved) ∧
    ∀ q ∈ [left, given], ∃ b, (q.bind [mix] (.ofCapacity 4)).1 = .ok b ∧ b.arguments.size = 1 ∧
      ∀ x ∈ b.arguments.entries, x.2.type.Holds x.2.value := by
  intro type left given
  obtain ⟨parsed, defaults, bound⟩ := bound_values_belong_to_their_types
  have unshadowed : ParserRegistry.builtin.Unshadowed type := by
    have hparts : type.parts = [.list (.optional .float), .optional .float, .float] := rfl
    intro t ht
    rw [hparts] at ht
    simp only [List.mem_cons, List.not_mem_nil, or_false] at ht
    rcases ht with rfl | rfl | rfl
    · exact fun _ => rfl
    · exact fun _ => rfl
    · intro h
      cases h
  have resolved : ∀ s ∈ [mix], ∀ p ∈ s.parameters, p.Resolved := by
    intro s hs p hp
    rw [List.mem_singleton] at hs
    subst hs
    have hone : mix.parameters = [mix.parameters.get ⟨0, by decide⟩] := by rfl
    rw [hone, List.mem_singleton] at hp
    subst hp
    exact ⟨ratios, .builtin, check_ratios, rfl, ParserRegistry.standard_builtin, unshadowed⟩
  refine ⟨?_, ?_, resolved, ?_⟩
  · exact ⟨_, _, rfl, rfl, parsed .builtin type (.list (.optional .float))
      ParserRegistry.standard_builtin unshadowed rfl [] (.collection [.plain "2", .plain "nil"])
      (.list [.float (.ofInt 2), .nil]) rfl⟩
  · have hdefault : (mix.parameters.get ⟨0, by decide⟩).default =
        some (.list [.float (.ofInt 1), .nil]) := by rfl
    exact ⟨_, _, check_ratios, hdefault, defaults ratios .builtin _ check_ratios _ hdefault⟩
  · intro q hq
    have hsize : (q.bind [mix] (.ofCapacity 4)).1.toOption.map (·.arguments.size) = some 1 := by
      simp only [List.mem_cons, List.not_mem_nil, or_false] at hq
      rcases hq with rfl | rfl <;> decide +kernel
    cases hbind : (q.bind [mix] (.ofCapacity 4)).1 with
    | error e =>
      rw [hbind] at hsize
      cases hsize
    | ok b =>
      rw [hbind] at hsize
      injection hsize with hsize
      obtain ⟨s, -, hentries⟩ := bound q [mix] (.ofCapacity 4) b (.fresh 4) resolved hbind
      exact ⟨b, rfl, hsize, fun x hx => (hentries x hx).1⟩

end BindRequest
end CommandConsole
