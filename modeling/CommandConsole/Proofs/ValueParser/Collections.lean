import CommandConsole.Proofs.Value.Hashing
import CommandConsole.Proofs.ValueParser.Resolution

/-! Lists and maps are parsed part by part: nothing is lost, merged or reordered, and a refusal says
which part comes first of those that are to blame. -/
namespace CommandConsole

namespace ValueParser

/-- Why a pair is refused after the entries before it: first its key is looked at, then its value,
then whether the key is there already. -/
inductive RefusesPair (key value : ValueParser) (place : Identity) (index : Nat)
    (earlier : List (Value × Value)) (k u : Token) : Refusal → Prop where
  | key {reason : Refusal} (refused : key.parse (place ++ [index, 0]) k = .error reason) :
      RefusesPair key value place index earlier k u (.key k.display reason)
  | value {kv : Value} {reason : Refusal} (readKey : key.parse (place ++ [index, 0]) k = .ok kv)
      (refused : value.parse (place ++ [index, 1]) u = .error reason) :
      RefusesPair key value place index earlier k u (.valueOf k.display reason)
  | duplicate {kv uv : Value} (readKey : key.parse (place ++ [index, 0]) k = .ok kv)
      (readValue : value.parse (place ++ [index, 1]) u = .ok uv)
      (found : earlier.any (kv == ·.1) = true) :
      RefusesPair key value place index earlier k u (.duplicateKey k.display)

variable {p key value : ValueParser} {place : Identity} {index : Nat} {k u token : Token}
  {tokens rest : List Token} {pairs others : List (Token × Token)} {done : List (Value × Value)}
  {e : Refusal}

theorem parseItems_cons_eq_error : parseItems p place index (token :: rest) = .error e ↔
    (∃ reason, p.parse (place ++ [index]) token = .error reason ∧
      e = .item index token.display reason) ∨
    ∃ v, p.parse (place ++ [index]) token = .ok v ∧
      parseItems p place (index + 1) rest = .error e := by
  simp only [parseItems]
  cases p.parse (place ++ [index]) token with
  | error reason => simp [eq_comm]
  | ok v => cases parseItems p place (index + 1) rest <;> simp

theorem parsePairs_cons_eq_error :
    parsePairs key value place index done ((k, u) :: others) = .error e ↔
      RefusesPair key value place index done k u e ∨
      ∃ kv uv, key.parse (place ++ [index, 0]) k = .ok kv ∧
        value.parse (place ++ [index, 1]) u = .ok uv ∧ done.any (kv == ·.1) = false ∧
        parsePairs key value place (index + 1) (done ++ [(kv, uv)]) others = .error e := by
  constructor
  · intro h
    cases hk : key.parse (place ++ [index, 0]) k with
    | error reason =>
      simp only [parsePairs, hk] at h
      injection h with h
      exact .inl (h ▸ .key hk)
    | ok kv =>
      cases hu : value.parse (place ++ [index, 1]) u with
      | error reason =>
        simp only [parsePairs, hk, hu] at h
        injection h with h
        exact .inl (h ▸ .value hk hu)
      | ok uv =>
        cases hany : done.any (kv == ·.1) with
        | true =>
          simp only [parsePairs, hk, hu, hany, if_true] at h
          injection h with h
          exact .inl (h ▸ .duplicate hk hu hany)
        | false =>
          simp only [parsePairs, hk, hu, hany, Bool.false_eq_true, if_false] at h
          exact .inr ⟨kv, uv, rfl, rfl, hany, h⟩
  · rintro (h | ⟨kv, uv, hk, hu, hany, h⟩)
    · cases h with
      | key hk => simp only [parsePairs, hk]
      | value hk hu => simp only [parsePairs, hk, hu]
      | duplicate hk hu hany => simp only [parsePairs, hk, hu, hany, if_true]
    · simpa only [parsePairs, hk, hu, hany, Bool.false_eq_true, if_false] using h

theorem add_length_cons {α : Type} (index : Nat) (a : α) (l : List α) :
    index + (a :: l).length = index + 1 + l.length := by
  rw [List.length_cons, Nat.add_comm l.length, Nat.add_assoc]

/-- An item is to blame if it is the first that is refused. -/
theorem parseItems_eq_error_iff : parseItems p place index tokens = .error e ↔
    ∃ before bad after items reason, tokens = before ++ bad :: after ∧
      p.ReadsItems place index before items ∧
      p.parse (place ++ [index + before.length]) bad = .error reason ∧
      e = .item (index + before.length) bad.display reason := by
  induction tokens generalizing index e with
  | nil => simp [parseItems]
  | cons token rest ih =>
    rw [parseItems_cons_eq_error]
    constructor
    · rintro (⟨reason, hbad, rfl⟩ | ⟨v, hv, hrest⟩)
      · exact ⟨[], token, rest, [], reason, rfl, .nil, hbad, rfl⟩
      · obtain ⟨before, bad, after, items, reason, rfl, hreads, hbad, rfl⟩ := ih.mp hrest
        rw [← add_length_cons index token before] at hbad ⊢
        exact ⟨token :: before, bad, after, v :: items, reason, rfl,
          readsItems_cons_iff.mpr ⟨v, items, hv, hreads, rfl⟩, hbad, rfl⟩
    · rintro ⟨before, bad, after, items, reason, htokens, hreads, hbad, rfl⟩
      cases before with
      | nil =>
        obtain ⟨rfl, rfl⟩ := List.cons.inj htokens
        exact .inl ⟨reason, hbad, rfl⟩
      | cons first before =>
        obtain ⟨rfl, rfl⟩ := List.cons.inj htokens
        obtain ⟨v, more, hv, hmore, rfl⟩ := readsItems_cons_iff.mp hreads
        rw [add_length_cons] at hbad ⊢
        exact .inr ⟨v, hv, ih.mpr ⟨before, bad, after, more, reason, rfl, hmore, hbad, rfl⟩⟩

/-- A pair is to blame if it is the first that is refused after what the others make. -/
theorem parsePairs_eq_error_iff (hdone : Table.Distinct done) :
    parsePairs key value place index done pairs = .error e ↔
      ∃ before k u after added, pairs = before ++ (k, u) :: after ∧
        key.ReadsPairs value place index before added ∧ Table.Distinct (done ++ added) ∧
        RefusesPair key value place (index + before.length) (done ++ added) k u e := by
  -- A pair meets those before it only as the entries that are done.
  induction pairs generalizing index done with
  | nil => simp [parsePairs]
  | cons pair others ih =>
    obtain ⟨k, u⟩ := pair
    rw [parsePairs_cons_eq_error]
    constructor
    · rintro (hbad | ⟨kv, uv, hk, hu, hfresh, hrest⟩)
      · refine ⟨[], k, u, others, [], rfl, .nil, ?_, ?_⟩
        · rwa [List.append_nil]
        · rwa [List.append_nil]
      · have hnew : Table.Distinct (done ++ [(kv, uv)]) := Table.distinct_concat.mpr ⟨hdone, hfresh⟩
        obtain ⟨before, k', u', after, added, rfl, hreads, hdistinct, hbad⟩ := (ih hnew).mp hrest
        refine ⟨(k, u) :: before, k', u', after, (kv, uv) :: added, rfl,
          readsPairs_cons_iff.mpr ⟨_, _, ⟨hk, hu⟩, hreads, rfl⟩, ?_, ?_⟩
        · rwa [List.append_cons]
        · rwa [List.append_cons done, add_length_cons]
    · rintro ⟨before, k', u', after, added, hpairs, hreads, hdistinct, hbad⟩
      cases before with
      | nil =>
        obtain ⟨⟨⟩, rfl⟩ := List.cons.inj hpairs
        cases hreads
        rw [List.append_nil] at hbad
        exact .inl hbad
      | cons first before =>
        obtain ⟨rfl, rfl⟩ := List.cons.inj hpairs
        obtain ⟨⟨kv, uv⟩, more, ⟨hk, hu⟩, hmore, rfl⟩ := readsPairs_cons_iff.mp hreads
        rw [List.append_cons] at hdistinct
        rw [List.append_cons done, add_length_cons] at hbad
        have hnew := (List.pairwise_append.mp hdistinct).1
        exact .inr ⟨kv, uv, hk, hu, (Table.distinct_concat.mp hnew).2,
          (ih hnew).mpr ⟨before, k', u', after, more, rfl, hmore, hdistinct, hbad⟩⟩

theorem list_refuses_iff : (list p).parse place token = .error e ↔
    ((∀ tokens, token ≠ .collection tokens) ∧ e = .notCollection token.kind) ∨
    ∃ before bad after items reason, token = .collection (before ++ bad :: after) ∧
      p.ReadsItems place 0 before items ∧
      p.parse (place ++ [before.length]) bad = .error reason ∧
      e = .item before.length bad.display reason := by
  cases token with
  | collection tokens =>
    simp only [list, ParserRegistry.map_eq_error_iff, parseItems_eq_error_iff]
    simp
  | _ => simp [list, eq_comm]

theorem map_refuses_iff : (map key value).parse place token = .error e ↔
    ((∀ pairs, token ≠ .dictionary pairs) ∧ e = .notDictionary token.kind) ∨
    ∃ before k u after entries, token = .dictionary (before ++ (k, u) :: after) ∧
      key.ReadsPairs value place 0 before entries ∧ Table.Distinct entries ∧
      RefusesPair key value place before.length entries k u e := by
  cases token with
  | dictionary pairs =>
    simp only [map, ParserRegistry.map_eq_error_iff, parsePairs_eq_error_iff .nil]
    simp
  | _ => simp [map, eq_comm]

theorem optional_refuses_iff : (optional p).parse place token = .error e ↔
    (∀ s, token = .plain s → isNilWord s = false) ∧ p.parse place token = .error e := by
  cases token with
  | plain s => cases h : isNilWord s <;> simp [optional, h]
  | _ => simp [optional]

end ValueParser

namespace ParserRegistry

open ValueParser

/-- The pairs at the beginning of a dictionary are taken, each by itself and all together. -/
structure TakesPairs (r : ParserRegistry) (k u : ValueType) (place : Identity)
    (pairs : List (Token × Token)) (p q : ValueParser) (entries : List (Value × Value)) : Prop where
  vacant : r.knows (.map k u) = false
  keys : r.resolve k = .ok p
  values : r.resolve u = .ok q
  reads : p.ReadsPairs q place 0 pairs entries
  distinct : Table.Distinct entries

/-- Why a token is refused for a type, down to the part that is to blame: it is the first one, since
all before it are taken. -/
inductive Refuses (r : ParserRegistry) : ValueType → Identity → Token → Refusal → Prop where
  | registered {t : ValueType} {p : ValueParser} {place : Identity} {token : Token} {e : Refusal}
      (found : r.find? t.display = some p) (refused : p.parse place token = .error e) :
      Refuses r t place token e
  | enum {d : EnumType} {place : Identity} {token : Token} {e : Refusal}
      (vacant : r.knows (.enum d) = false) (refused : (variant d).parse place token = .error e) :
      Refuses r (.enum d) place token e
  | optional {t : ValueType} {place : Identity} {token : Token} {e : Refusal}
      (vacant : r.knows (.optional t) = false)
      (notNil : ∀ s, token = .plain s → isNilWord s = false) (inner : Refuses r t place token e) :
      Refuses r (.optional t) place token e
  | notCollection {t : ValueType} {place : Identity} {token : Token}
      (vacant : r.knows (.list t) = false) (other : ∀ tokens, token ≠ .collection tokens) :
      Refuses r (.list t) place token (.notCollection token.kind)
  | item {t : ValueType} {p : ValueParser} {place : Identity} {before after : List Token}
      {bad : Token} {items : List Value} {reason : Refusal} (vacant : r.knows (.list t) = false)
      (element : r.resolve t = .ok p) (reads : p.ReadsItems place 0 before items)
      (refused : Refuses r t (place ++ [before.length]) bad reason) :
      Refuses r (.list t) place (.collection (before ++ bad :: after))
        (.item before.length bad.display reason)
  | notDictionary {k u : ValueType} {place : Identity} {token : Token}
      (vacant : r.knows (.map k u) = false) (other : ∀ pairs, token ≠ .dictionary pairs) :
      Refuses r (.map k u) place token (.notDictionary token.kind)
  | key {k u : ValueType} {p q : ValueParser} {place : Identity}
      {before after : List (Token × Token)} {x y : Token} {entries : List (Value × Value)}
      {reason : Refusal} (taken : r.TakesPairs k u place before p q entries)
      (refused : Refuses r k (place ++ [before.length, 0]) x reason) :
      Refuses r (.map k u) place (.dictionary (before ++ (x, y) :: after)) (.key x.display reason)
  | value {k u : ValueType} {p q : ValueParser} {place : Identity}
      {before after : List (Token × Token)} {x y : Token} {entries : List (Value × Value)}
      {kv : Value} {reason : Refusal} (taken : r.TakesPairs k u place before p q entries)
      (readKey : p.parse (place ++ [before.length, 0]) x = .ok kv)
      (refused : Refuses r u (place ++ [before.length, 1]) y reason) :
      Refuses r (.map k u) place (.dictionary (before ++ (x, y) :: after))
        (.valueOf x.display reason)
  | duplicate {k u : ValueType} {p q : ValueParser} {place : Identity}
      {before after : List (Token × Token)} {x y : Token} {entries : List (Value × Value)}
      {kv uv : Value} (taken : r.TakesPairs k u place before p q entries)
      (readKey : p.parse (place ++ [before.length, 0]) x = .ok kv)
      (readValue : q.parse (place ++ [before.length, 1]) y = .ok uv)
      (found : entries.any (kv == ·.1) = true) :
      Refuses r (.map k u) place (.dictionary (before ++ (x, y) :: after))
        (.duplicateKey x.display)

variable {r : ParserRegistry} {t k u : ValueType} {p q : ValueParser} {place : Identity}
  {token : Token} {e : Refusal} {entries : List (Value × Value)}

theorem list_of_resolve (vacant : r.knows (.list t) = false) (h : r.resolve (.list t) = .ok p) :
    ∃ q, r.resolve t = .ok q ∧ p = .list q := by
  rw [resolve_list (find?_of_unknown vacant)] at h
  obtain ⟨q, hq, rfl⟩ := exists_of_map_eq_ok h
  exact ⟨q, hq, rfl⟩

theorem map_of_resolve (vacant : r.knows (.map k u) = false)
    (h : r.resolve (.map k u) = .ok p) :
    ∃ key value, r.resolve k = .ok key ∧ r.resolve u = .ok value ∧ p = .map key value := by
  rw [resolve_map (find?_of_unknown vacant)] at h
  split at h
  · cases h
  rename_i key hkey
  obtain ⟨value, hvalue, rfl⟩ := exists_of_map_eq_ok h
  exact ⟨key, value, hkey, hvalue, rfl⟩

theorem refuses_of_parse (h : r.Composes t p) (hparse : p.parse place token = .error e) :
    r.Refuses t place token e := by
  induction h generalizing place token e with
  | registered found => exact .registered found hparse
  | enum vacant => exact .enum vacant hparse
  | optional vacant inner ih =>
    obtain ⟨notNil, hinner⟩ := optional_refuses_iff.mp hparse
    exact .optional vacant notNil (ih hinner)
  | list vacant element ih =>
    obtain ⟨other, rfl⟩ | ⟨before, bad, after, items, reason, rfl, reads, hbad, rfl⟩ :=
      list_refuses_iff.mp hparse
    · exact .notCollection vacant other
    · exact .item vacant element.resolve_eq reads (ih hbad)
  | map vacant key value ihk ihu =>
    obtain ⟨other, rfl⟩ | ⟨before, x, y, after, entries, rfl, reads, distinct, hbad⟩ :=
      map_refuses_iff.mp hparse
    · exact .notDictionary vacant other
    have taken := TakesPairs.mk vacant key.resolve_eq value.resolve_eq reads distinct
    cases hbad with
    | key refused => exact .key taken (ihk refused)
    | value readKey refused => exact .value taken readKey (ihu refused)
    | duplicate readKey readValue found => exact .duplicate taken readKey readValue found

theorem TakesPairs.resolve_eq {pairs : List (Token × Token)}
    (h : r.TakesPairs k u place pairs p q entries) : r.resolve (.map k u) = .ok (.map p q) := by
  rw [resolve_map (find?_of_unknown h.vacant), h.keys, h.values]
  rfl

theorem Refuses.parse_eq (h : r.Refuses t place token e) (hp : r.resolve t = .ok p) :
    p.parse place token = .error e := by
  induction h generalizing p with
  | registered found refused =>
    rw [resolve_of_find? found] at hp
    injection hp with hp
    exact hp ▸ refused
  | enum vacant refused =>
    rw [resolve_enum (find?_of_unknown vacant)] at hp
    injection hp with hp
    exact hp ▸ refused
  | optional vacant notNil inner ih =>
    rw [resolve_optional (find?_of_unknown vacant)] at hp
    obtain ⟨q, hq, rfl⟩ := exists_of_map_eq_ok hp
    exact optional_refuses_iff.mpr ⟨notNil, ih hq⟩
  | notCollection vacant other =>
    obtain ⟨q, -, rfl⟩ := list_of_resolve vacant hp
    exact list_refuses_iff.mpr (.inl ⟨other, rfl⟩)
  | item vacant element reads refused ih =>
    obtain ⟨q, hq, rfl⟩ := list_of_resolve vacant hp
    obtain rfl := Except.ok.inj (element.symm.trans hq)
    exact list_refuses_iff.mpr (.inr ⟨_, _, _, _, _, rfl, reads, ih hq, rfl⟩)
  | notDictionary vacant other =>
    obtain ⟨key, value, -, -, rfl⟩ := map_of_resolve vacant hp
    exact map_refuses_iff.mpr (.inl ⟨other, rfl⟩)
  | key taken refused ih =>
    obtain rfl := Except.ok.inj (taken.resolve_eq.symm.trans hp)
    exact map_refuses_iff.mpr
      (.inr ⟨_, _, _, _, _, rfl, taken.reads, taken.distinct, .key (ih taken.keys)⟩)
  | value taken readKey refused ih =>
    obtain rfl := Except.ok.inj (taken.resolve_eq.symm.trans hp)
    exact map_refuses_iff.mpr
      (.inr ⟨_, _, _, _, _, rfl, taken.reads, taken.distinct, .value readKey (ih taken.values)⟩)
  | duplicate taken readKey readValue found =>
    obtain rfl := Except.ok.inj (taken.resolve_eq.symm.trans hp)
    exact map_refuses_iff.mpr
      (.inr ⟨_, _, _, _, _, rfl, taken.reads, taken.distinct, .duplicate readKey readValue found⟩)

/-- No registered parser makes a map that has a key twice. -/
def KeepsKeysApart (r : ParserRegistry) : Prop :=
  ∀ key p, r.find? key = some p → p.Makes Value.KeysDiffer

/-- The values of a type that has neither lists nor maps hold no maps. -/
theorem keysDiffer_of_yields (h : p.Yields t) (lists : ∀ items, t.accepts (.list items) = false)
    (maps : ∀ entries, t.accepts (.map entries) = false) : p.Makes Value.KeysDiffer := by
  intro place token v hparse
  have accepted := (h place token v hparse).accepted
  cases v with
  | list items =>
    rw [lists items] at accepted
    cases accepted
  | map entries =>
    rw [maps entries] at accepted
    cases accepted
  | _ => exact .piece rfl rfl

theorem keepsKeysApart_builtin : builtin.KeepsKeysApart := by
  intro key p found
  have hin : (key, p) ∈ [("bool", bool), ("int", int), ("float", float), ("string", text)] :=
    Table.mem_of_find? found
  simp only [List.mem_cons, Prod.mk.injEq, List.not_mem_nil, or_false] at hin
  rcases hin with ⟨-, rfl⟩ | ⟨-, rfl⟩ | ⟨-, rfl⟩ | ⟨-, rfl⟩
  · exact keysDiffer_of_yields bool_yields (fun _ => rfl) fun _ => rfl
  · exact keysDiffer_of_yields int_yields (fun _ => rfl) fun _ => rfl
  · exact keysDiffer_of_yields float_yields (fun _ => rfl) fun _ => rfl
  · exact keysDiffer_of_yields text_yields (fun _ => rfl) fun _ => rfl

/-- Nor does any parser that is put together from them. -/
theorem Composes.keeps_keys_apart (h : r.Composes t p) (hr : r.KeepsKeysApart) :
    p.Makes Value.KeysDiffer := by
  induction h with
  | registered found => exact hr _ _ found
  | enum vacant => exact keysDiffer_of_yields (variant_yields _) (fun _ => rfl) fun _ => rfl
  | optional vacant inner ih => exact ih.optional (.piece rfl rfl)
  | list vacant element ih =>
    intro place token v hparse
    obtain ⟨items, rfl, hitems⟩ := ih.list place token v hparse
    exact .list hitems
  | map vacant key value ihk ihu =>
    intro place token v hparse
    obtain ⟨entries, rfl, distinct, hentries⟩ := ihk.map ihu place token v hparse
    exact .map distinct (fun e he => (hentries e he).1) fun e he => (hentries e he).2

/-- Each key of a map has the value that stands beside it. -/
theorem find?_of_keysDiffer (h : (Value.map entries).KeysDiffer) :
    ∀ e ∈ entries, Table.find? entries e.1 = some e.2 := by
  intro e he
  have hkey : e.1.KeysDiffer := (Value.keysDiffer_map_iff.mp h).2.1 e he
  have hself : e.1 == e.1 := (Value.beq_iff_alike hkey hkey).mpr (.refl e.1)
  rw [Table.find?_eq_map, (Value.find?_eq_some_iff h hkey).mpr ⟨he, hself⟩, Option.map_some]

/-- The parser of a list takes a collection each item of which is taken, and makes as many items in
the same order. That of a map takes a dictionary if it takes each key and each value, and the keys
make values that differ; there is one entry for each pair, in the same order, and under each key the
value that belongs to it is found. All else is refused for the first part that is to blame, within
which it is the first part again: of a pair the key, then the value, then the key's being there
already. -/
theorem collections_parse_part_by_part (r : ParserRegistry) (place : Identity) (token : Token) :
    (∀ t p, r.knows (.list t) = false → r.resolve (.list t) = .ok p →
      ∃ q, r.resolve t = .ok q ∧ ∀ v, p.parse place token = .ok v ↔
        ∃ tokens items, token = .collection tokens ∧ q.ReadsItems place 0 tokens items ∧
          v = .list items) ∧
    (∀ k u p, r.knows (.map k u) = false → r.resolve (.map k u) = .ok p →
      ∃ key value, r.resolve k = .ok key ∧ r.resolve u = .ok value ∧
        (∀ v, p.parse place token = .ok v ↔ ∃ pairs entries, token = .dictionary pairs ∧
          key.ReadsPairs value place 0 pairs entries ∧ Table.Distinct entries ∧
            v = .map entries) ∧
        (r.KeepsKeysApart → ∀ entries, p.parse place token = .ok (.map entries) →
          ∀ e ∈ entries, Table.find? entries e.1 = some e.2)) ∧
    ∀ t p e, r.resolve t = .ok p →
      (p.parse place token = .error e ↔ r.Refuses t place token e) := by
  refine ⟨fun t p vacant h => ?_, fun k u p vacant h => ?_, fun t p e h => ?_⟩
  · obtain ⟨q, hq, rfl⟩ := list_of_resolve vacant h
    exact ⟨q, hq, fun v => list_parses_iff⟩
  · obtain ⟨key, value, hk, hu, rfl⟩ := map_of_resolve vacant h
    refine ⟨key, value, hk, hu, fun v => map_parses_iff, fun hr entries hparse => ?_⟩
    exact find?_of_keysDiffer ((composes_of_resolve h).keeps_keys_apart hr _ _ _ hparse)
  · exact ⟨refuses_of_parse (composes_of_resolve h), fun hrefuses => hrefuses.parse_eq h⟩

/-- Keys that differ as text may be equal as numbers, but an item that comes before is to blame
first. -/
theorem builtin_parses_lists_by_number :
    let slots := ValueType.map .int (.list .int)
    let slot := fun key items => (Token.plain key, Token.collection (items.map .plain))
    let entries := [(Value.int 1, Value.list [.int 2]), (Value.int 2, Value.list [])]
    (∃ p, builtin.resolve slots = .ok p ∧
      p.parse [] (.dictionary [slot "1" ["2"], slot "2" []]) = .ok (.map entries) ∧
      ∀ e ∈ entries, Table.find? entries e.1 = some e.2) ∧
    builtin.Refuses slots [] (.dictionary [slot "1" ["2"], slot "01" []]) (.duplicateKey "01") ∧
    builtin.Refuses slots [] (.dictionary [slot "1" ["2", "x"], slot "01" []])
      (.valueOf "1" (.item 1 "x" .notInteger)) := by
  intro slots slot entries
  have hp : builtin.resolve slots = .ok (.map .int (.list .int)) := rfl
  have hparse : (ValueParser.map .int (.list .int)).parse []
      (.dictionary [slot "1" ["2"], slot "2" []]) = .ok (.map entries) := rfl
  have law := collections_parse_part_by_part builtin []
  refine ⟨?_, ((law _).2.2 slots _ _ hp).mp rfl, ((law _).2.2 slots _ _ hp).mp rfl⟩
  obtain ⟨key, value, -, -, -, hfinds⟩ := (law _).2.1 .int (.list .int) _ rfl hp
  exact ⟨_, hp, hparse, hfinds keepsKeysApart_builtin entries hparse⟩

end ParserRegistry
end CommandConsole
