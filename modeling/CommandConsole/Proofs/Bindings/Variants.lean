import CommandConsole.Catalogue
import CommandConsole.Proofs.Bindings.Typed
import CommandConsole.Proofs.Value.Variants

/-! Arguments of an enumeration: what the parsers make of a word is a declared variant, at any depth.
A default is only asked for the enumeration's name. -/
namespace CommandConsole

namespace ValueParser

/-- A word stands for an ordinal that there is. -/
theorem ordinal?_lt {e : EnumType} {word : String} {n : Nat} (h : ordinal? e word = some n) :
    n < e.variants.length := by
  rw [ordinal?] at h
  cases hposition : e.position? word with
  | some m =>
    rw [hposition] at h
    injection h with h
    exact h ▸ (List.findIdx?_eq_some_iff_getElem.mp hposition).1
  | none =>
    rw [hposition] at h
    simpa using (Option.filter_eq_some_iff.mp h).2

theorem variant_makes (e : EnumType) :
    (variant e).Makes ((ValueType.enum e).EachVariant EnumType.Has) := by
  apply scalar_makes
  intro place s v h
  split at h
  · rename_i n hn
    injection h with h
    subst h
    have hlt := ordinal?_lt hn
    refine ⟨rfl, hlt, ?_⟩
    rw [List.getD_eq_getElem?_getD, List.getElem?_eq_getElem hlt, Option.getD_some]
  · cases h

end ValueParser

namespace ParserRegistry

open ValueParser

variable {r : ParserRegistry} {t : ValueType} {p : ValueParser}

/-- In the registry of the basic types only the name of one of them shadows an enumeration. -/
theorem unshadowed_builtin (h : ∀ e, .enum e ∈ t.parts → builtin.find? e.name = none) :
    builtin.Unshadowed t := by
  intro s hs hbrings
  cases s with
  | enum e => exact h e hs
  | optional t => exact find?_builtin_eq_none (by simp [ValueType.display])
  | list t => exact find?_builtin_eq_none (by simp [ValueType.display])
  | map k u => exact find?_builtin_eq_none (by simp [ValueType.display])
  | _ => cases hbrings

/-- Parsers that a type brings make variants of its enumerations, and no others. -/
theorem resolve_makes (hu : r.Unshadowed t) (h : r.resolve t = .ok p) :
    p.Makes (t.EachVariant EnumType.Has) := by
  induction t generalizing p with
  | enum e =>
    rw [resolve_enum (hu.find?_eq_none rfl)] at h
    injection h with h
    exact h ▸ variant_makes e
  | optional t ih =>
    rw [resolve_optional (hu.find?_eq_none rfl)] at h
    obtain ⟨inner, hinner, rfl⟩ := exists_of_map_eq_ok h
    exact (ih hu.optional hinner).optional t.eachVariant_nil
  | list t ih =>
    rw [resolve_list (hu.find?_eq_none rfl)] at h
    obtain ⟨element, helement, rfl⟩ := exists_of_map_eq_ok h
    intro place token v hparse
    obtain ⟨items, rfl, hitems⟩ := (ih hu.list helement).list place token v hparse
    exact hitems
  | map k u ihk ihu =>
    rw [resolve_map (hu.find?_eq_none rfl)] at h
    split at h
    · cases h
    rename_i key hkey
    obtain ⟨value, hvalue, rfl⟩ := exists_of_map_eq_ok h
    intro place token v hparse
    obtain ⟨entries, rfl, -, hentries⟩ :=
      (ihk hu.map.1 hkey).map (ihu hu.map.2 hvalue) place token v hparse
    exact hentries
  | _ =>
    intro place token v _
    cases v <;> trivial

end ParserRegistry

namespace Declaration

variable {d : Declaration} {r : ParserRegistry} {p : Parameter}

/-- A declaration that leaves parsing to this library, and whose enumerations do not take the names
of basic types. -/
structure Plain (d : Declaration) : Prop where
  unparsed : d.parser = none
  unshadowed : ∀ t, d.type = some t → ∀ e, .enum e ∈ t.parts →
    ParserRegistry.builtin.find? e.name = none

/-- A checked parameter has the name and the type that were declared. -/
theorem declared_of_check (h : d.check r = .ok p) :
    p.name = Text.trim d.name ∧ d.type = some p.type := by
  simp only [check] at h
  split at h
  · cases h
  split at h
  · cases h
  split at h
  · cases h
  rename_i type htype
  split at h
  · cases h
  rename_i hparts
  injection h with h
  subst h
  simp only [checkParts] at hparts
  split at hparts
  · cases hparts
  split at hparts
  · cases hparts
  split at hparts
  · cases hparts
  · injection hparts with hparts
    subst hparts
    exact ⟨rfl, htype⟩

/-- The parser of a plain declaration makes declared variants. -/
theorem Plain.parser_makes (h : d.Plain) (hcheck : d.check .builtin = .ok p) :
    p.parser.parser.Makes (p.type.EachVariant EnumType.Has) := by
  have hparser := (d.check_settles hcheck).parser
  have hunshadowed :=
    ParserRegistry.unshadowed_builtin (h.unshadowed p.type (declared_of_check hcheck).2)
  simp only [resolveParser, h.unparsed] at hparser
  split at hparser
  · rename_i resolved hresolved
    injection hparser with hparser
    obtain ⟨made, hmade, rfl⟩ := ValueParser.exists_of_map_eq_ok hresolved
    exact hparser ▸ ParserRegistry.resolve_makes hunshadowed hmade
  · cases hparser

end Declaration

namespace Signature

variable {s s' : Signature} {r : ParserRegistry} {p : Parameter} {ds : List Declaration}

/-- The parameters of a signature are those of the declarations from which it is made. -/
theorem declared_of_addAll (h : addAll r s ds = .ok s') (hp : p ∈ s'.parameters) :
    p ∈ s.parameters ∨ ∃ d ∈ ds, d.check r = .ok p := by
  induction ds generalizing s with
  | nil =>
    injection h with h
    exact .inl (h ▸ hp)
  | cons d rest ih =>
    simp only [addAll] at h
    split at h
    · cases h
    rename_i q hcheck
    split at h
    · cases h
    rename_i next hnext
    rcases ih h with hin | ⟨d', hd', hcheck'⟩
    · simp only [add] at hnext
      split at hnext
      · cases hnext
      split at hnext
      · cases hnext
      split at hnext
      · cases hnext
      injection hnext with hnext
      subst hnext
      rcases List.mem_append.mp hin with hin | hin
      · exact .inl hin
      · rw [List.mem_singleton] at hin
        exact .inr ⟨d, List.mem_cons_self, hin ▸ hcheck⟩
    · exact .inr ⟨d', List.mem_cons_of_mem d hd', hcheck'⟩

theorem declared_of_build {draft : Draft} (h : draft.build r = .ok s) (hp : p ∈ s.parameters) :
    ∃ d ∈ draft.declarations, d.check r = .ok p := by
  simp only [Draft.build] at h
  split at h
  · cases h
  · rcases declared_of_addAll h hp with hin | hd
    · cases hin
    · exact hd

end Signature

namespace Catalogue

variable {r : ParserRegistry} {drafts : List Signature.Draft} {overloads : List Signature}
  {index i : Nat} {s : Signature}

theorem build_of_buildAll (h : buildAll r index drafts = .ok overloads)
    (hs : overloads[i]? = some s) : ∃ draft, drafts[i]? = some draft ∧ draft.build r = .ok s := by
  induction drafts generalizing index overloads i with
  | nil =>
    injection h with h
    subst h
    cases hs
  | cons draft rest ih =>
    simp only [buildAll] at h
    split at h
    · cases h
    rename_i first hfirst
    split at h
    · cases h
    rename_i others hothers
    injection h with h
    subst h
    cases i with
    | zero =>
      injection hs with hs
      exact ⟨draft, rfl, hs ▸ hfirst⟩
    | succ i => exact ih hothers hs

end Catalogue

namespace BindRequest

variable {q : BindRequest} {p : Parameter} {w : Word} {v : Value} {d : Declaration}

/-- Whatever a word gives a parameter is declared. -/
theorem valueOf_eachVariant (plain : d.Plain) (hcheck : d.check .builtin = .ok p)
    (h : q.valueOf p w = .ok v) : p.type.EachVariant EnumType.Has v := by
  rcases text_or_parsed_of_valueOf h with ⟨hremainder, text, rfl⟩ | ⟨place, token, hparse⟩
  · rw [(d.check_settles hcheck).remainder hremainder]
    trivial
  · exact plain.parser_makes hcheck place token v hparse

/-- What is supplied for a plain declaration is declared, unless it is the default and the default
was not. -/
theorem Supplies.eachVariant (plain : d.Plain) (hcheck : d.check .builtin = .ok p)
    (h : q.Supplies p v) :
    p.type.EachVariant EnumType.Has v ∨
      ∃ w, d.default = some w ∧ v = p.type.coerce w ∧ ¬ p.type.EachVariant EnumType.Has w := by
  rcases h with ⟨w, -, hv⟩ | hv
  · exact .inl (valueOf_eachVariant plain hcheck hv)
  · have hdefault := (d.check_settles hcheck).default
    rw [hv] at hdefault
    rcases Declaration.resolveDefault_cases hdefault with ⟨-, rfl⟩ | ⟨w, hw, -, rfl⟩
    · exact .inl p.type.eachVariant_nil
    · by_cases hdeclared : p.type.EachVariant EnumType.Has w
      · exact .inl hdeclared.coerce
      · exact .inr ⟨w, hw, rfl, hdeclared⟩

theorem Supplies.sameName (plain : d.Plain) (hcheck : d.check .builtin = .ok p)
    (h : q.Supplies p v) : p.type.EachVariant (fun e x => x.typeName = e.name) v := by
  rcases h with ⟨w, -, hv⟩ | hv
  · exact (valueOf_eachVariant plain hcheck hv).mono fun e x hx => hx.1
  · exact ValueType.eachVariant_of_accepts ((d.check_settles hcheck).default_holds hv).accepted

/-- Let overloads be built with the parsers of this library. Then wherever a bound argument has a
variant in the place of an enumeration, it bears the name of the enumeration. What a word gives is a
declared variant under its own ordinal, at any depth. So is every other value, save the default of a
declaration whose default was itself undeclared. -/
theorem bound_variants_are_declared {drafts : List Signature.Draft} {overloads : List Signature}
    {pool : Pool} {b : Bound}
    (built : Catalogue.buildAll .builtin 0 drafts = .ok overloads)
    (plain : ∀ draft ∈ drafts, ∀ d ∈ draft.declarations, d.Plain) (used : pool.Used)
    (bound : (q.bind overloads pool).1 = .ok b) :
    ∃ draft, drafts[b.overload]? = some draft ∧ ∀ x ∈ b.arguments.entries,
      ∃ d ∈ draft.declarations, ∃ p, d.check .builtin = .ok p ∧
        x.1 = Text.lowercase (Text.trim d.name) ∧ d.type = some x.2.type ∧
        x.2.type.EachVariant (fun e y => y.typeName = e.name) x.2.value ∧
        (∀ w ∈ q.words, q.valueOf p w = .ok x.2.value →
          x.2.type.EachVariant EnumType.Has x.2.value) ∧
        (x.2.type.EachVariant EnumType.Has x.2.value ∨
          ∃ v, d.default = some v ∧ x.2.value = x.2.type.coerce v ∧
            ¬ x.2.type.EachVariant EnumType.Has v) := by
  obtain ⟨s, hget, hsupplied⟩ := bind_supplied used bound
  obtain ⟨draft, hdraft, hbuild⟩ := Catalogue.build_of_buildAll built hget
  refine ⟨draft, hdraft, ?_⟩
  intro x hx
  obtain ⟨p, hp, hname, htype, hsupplies⟩ := hsupplied x hx
  obtain ⟨d, hd, hcheck⟩ := Signature.declared_of_build hbuild hp
  obtain ⟨hpname, hptype⟩ := Declaration.declared_of_check hcheck
  have hplain := plain draft (List.mem_of_getElem? hdraft) d hd
  rw [htype]
  refine ⟨d, hd, p, hcheck, hpname ▸ hname, hptype, hsupplies.sameName hplain hcheck, ?_,
    hsupplies.eachVariant hplain hcheck⟩
  intro w _ hw
  exact valueOf_eachVariant hplain hcheck hw

/-- What is seen of a line that is bound to overloads which come of drafts. -/
theorem exists_bound_of_run {α : Type} (q : BindRequest) (drafts : List Signature.Draft) (pool : Pool)
    (f : Bound → α) {a : α} (h : ((Catalogue.buildAll .builtin 0 drafts).toOption.bind fun overloads =>
      (q.bind overloads pool).1.toOption.map f) = some a) :
    ∃ overloads, Catalogue.buildAll .builtin 0 drafts = .ok overloads ∧
      ∃ b, (q.bind overloads pool).1 = .ok b ∧ f b = a := by
  cases hbuilt : Catalogue.buildAll .builtin 0 drafts with
  | error e =>
    rw [hbuilt] at h
    cases h
  | ok overloads =>
    rw [hbuilt] at h
    refine ⟨overloads, rfl, ?_⟩
    cases hbound : (q.bind overloads pool).1 with
    | error e =>
      simp [Except.toOption, hbound] at h
    | ok b =>
      refine ⟨b, rfl, ?_⟩
      simpa [Except.toOption, hbound] using h

/-- `paint <shades:list<shade>> [finish:option<finish>=gloss]` -/
def paint : Signature.Draft :=
  (Signature.Draft.empty.argument "shades" (.list (.enum ⟨"shade", ["Red", "Blue"]⟩))).optional
    "finish" (.optional (.enum ⟨"finish", ["matt", "gloss"]⟩)) (.variant ⟨"finish", "gloss", 1⟩)

theorem paint_plain : ∀ d ∈ paint.declarations, d.Plain := by
  intro d hd
  have hdeclared : d = ⟨"shades", some (.list (.enum ⟨"shade", ["Red", "Blue"]⟩)), false, none,
        false, none, [], none⟩ ∨
      d = ⟨"finish", some (.optional (.enum ⟨"finish", ["matt", "gloss"]⟩)), true,
        some (.variant ⟨"finish", "gloss", 1⟩), false, none, [], none⟩ := by
    simpa [paint, Signature.Draft.argument, Signature.Draft.optional, Signature.Draft.declare,
      Signature.Draft.empty] using hd
  rcases hdeclared with rfl | rfl
  · refine ⟨rfl, ?_⟩
    rintro t ⟨⟩ e he
    obtain rfl : e = ⟨"shade", ["Red", "Blue"]⟩ := by simpa [ValueType.parts] using he
    rfl
  · refine ⟨rfl, ?_⟩
    rintro t ⟨⟩ e he
    obtain rfl : e = ⟨"finish", ["matt", "gloss"]⟩ := by simpa [ValueType.parts] using he
    rfl

/-- Variants by name in the other case and by ordinal, and a default that is declared. -/
theorem bind_list_of_variants :
    let q : BindRequest := ⟨"paint", "paint [blue,0]", [⟨"[blue,0]", 6⟩], .named "op", none⟩
    (∀ draft ∈ [paint], ∀ d ∈ draft.declarations, d.Plain) ∧
    ∃ overloads, Catalogue.buildAll .builtin 0 [paint] = .ok overloads ∧
      ∃ b, (q.bind overloads (.ofCapacity 4)).1 = .ok b ∧
        (b.arguments.entries.map fun x => x.2.value.inspect) =
          ["[shade::Blue, shade::Red]", "finish::gloss"] ∧
        ∃ draft, [paint][b.overload]? = some draft ∧ ∀ x ∈ b.arguments.entries,
          ∃ d ∈ draft.declarations, d.type = some x.2.type ∧
            x.2.type.EachVariant (fun e y => y.typeName = e.name) x.2.value := by
  intro q
  have plain : ∀ draft ∈ [paint], ∀ d ∈ draft.declarations, d.Plain := by
    intro draft hdraft
    rw [List.mem_singleton.mp hdraft]
    exact paint_plain
  obtain ⟨overloads, built, b, bound, hshown⟩ :=
    exists_bound_of_run q [paint] (.ofCapacity 4)
      (fun b => b.arguments.entries.map fun x => x.2.value.inspect)
      (a := ["[shade::Blue, shade::Red]", "finish::gloss"]) (by decide +kernel)
  obtain ⟨draft, hdraft, hentries⟩ := bound_variants_are_declared built plain (.fresh 4) bound
  refine ⟨plain, overloads, built, b, bound, hshown, draft, hdraft, ?_⟩
  intro x hx
  obtain ⟨d, hd, p, -, -, htype, hname, -⟩ := hentries x hx
  exact ⟨d, hd, htype, hname⟩

/-- `cmd [mode:mode=Purple]` -/
def tinted : Signature.Draft :=
  Signature.Draft.empty.optional "mode" (.enum ⟨"mode", ["Survival", "Creative"]⟩)
    (.variant ⟨"mode", "Purple", 9⟩)

/-- A default that is neither of two declared variants passes the check and is bound. -/
theorem undeclared_default_is_bound :
    (∀ d ∈ tinted.declarations, d.Plain) ∧
    ∃ overloads, Catalogue.buildAll .builtin 0 [tinted] = .ok overloads ∧
      ∃ b, (bind ⟨"cmd", "cmd", [], .named "ada", none⟩ overloads .standard).1 = .ok b ∧
        (b.arguments.entries.map fun x => (x.1, x.2.type, x.2.value.variant?)) =
          [("mode", .enum ⟨"mode", ["Survival", "Creative"]⟩, some ⟨"mode", "Purple", 9⟩)] ∧
        ¬ EnumType.Has ⟨"mode", ["Survival", "Creative"]⟩ ⟨"mode", "Purple", 9⟩ := by
  refine ⟨?_, ?_⟩
  · intro d hd
    obtain rfl : d = ⟨"mode", some (.enum ⟨"mode", ["Survival", "Creative"]⟩), true,
        some (.variant ⟨"mode", "Purple", 9⟩), false, none, [], none⟩ := by
      simpa [tinted, Signature.Draft.optional, Signature.Draft.declare, Signature.Draft.empty]
        using hd
    refine ⟨rfl, ?_⟩
    rintro t ⟨⟩ e he
    obtain rfl : e = ⟨"mode", ["Survival", "Creative"]⟩ := by simpa [ValueType.parts] using he
    rfl
  · obtain ⟨overloads, built, b, bound, hentries⟩ :=
      exists_bound_of_run ⟨"cmd", "cmd", [], .named "ada", none⟩ [tinted] .standard
        (fun b => b.arguments.entries.map fun x => (x.1, x.2.type, x.2.value.variant?))
        (a := [("mode", .enum ⟨"mode", ["Survival", "Creative"]⟩, some ⟨"mode", "Purple", 9⟩)])
        (by decide +kernel)
    exact ⟨overloads, built, b, bound, hentries, by decide⟩

end BindRequest
end CommandConsole
