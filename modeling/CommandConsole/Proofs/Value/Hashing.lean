import CommandConsole.Proofs.Value.Equality
import Mathlib.Data.List.Find

/-! Equal values are hashed alike, so that a table kept by hashes finds each key under every value
that equals it. -/
namespace CommandConsole

theorem Table.find?_eq_map {κ ν : Type} [BEq κ] (t : Table κ ν) (q : κ) :
    t.find? q = (List.find? (fun e => q == e.1) t).map Prod.snd := by
  induction t with
  | nil => rfl
  | cons e r ih =>
    rw [Table.find?, List.find?_cons, ih]
    cases q == e.1 <;> rfl

namespace Value

variable {digest : List Atom → UInt64} {size : Nat → List Atom} {v w k : Value} {a b : List Value}
  {entries l m : List (Value × Value)} {e : Value × Value}

theorem feedItems_congr
    (each : List.Forall₂ (fun v w => v.feed digest size = w.feed digest size) a b) :
    feedItems digest size a = feedItems digest size b := by
  induction each with
  | nil => rfl
  | cons h _ ih => rw [feedItems, feedItems, h, ih]

theorem feedEntries_congr
    (each : List.Forall₂ (fun e e' => e.1.feed digest size = e'.1.feed digest size ∧
      e.2.feed digest size = e'.2.feed digest size) l m) :
    feedEntries digest size l = feedEntries digest size m := by
  induction each with
  | nil => rfl
  | cons h _ ih => rw [feedEntries, feedEntries, h.1, h.2, ih]

/-- A sum of digests does not depend on their order. -/
theorem feedEntries_perm (order : l.Perm m) :
    feedEntries digest size l = feedEntries digest size m := by
  induction order with
  | nil => rfl
  | cons e _ ih => rw [feedEntries, feedEntries, ih]
  | swap e e' rest =>
    simp only [feedEntries]
    rw [← UInt64.add_assoc, ← UInt64.add_assoc, UInt64.add_comm (digest _) (digest _)]
  | trans _ _ ih ih' => exact ih.trans ih'

theorem Alike.feed_eq (h : v.Alike w) : v.feed digest size = w.feed digest size := by
  induction v using induct generalizing w with
  | list items ih =>
    obtain ⟨b, rfl, each⟩ := alike_list_iff.mp h
    have hitems : feedItems digest size items = feedItems digest size b :=
      feedItems_congr (forall₂_imp_of_mem (fun v hv w _ => ih v hv) each)
    rw [feed, feed, each.length_eq, hitems]
  | map entries keys values =>
    obtain ⟨m, rfl, l', each, order⟩ := alike_map_iff.mp h
    have hentries : feedEntries digest size entries = feedEntries digest size l' :=
      feedEntries_congr (forall₂_imp_of_mem
        (fun e he e' _ hee => ⟨keys e he hee.1, values e he hee.2⟩) each)
    rw [feed, feed, each.length_eq, order.length_eq, hentries, feedEntries_perm order]
  | foreign f =>
    cases h with
    | foreign identity => rw [feed, feed, identity]
  | _ =>
    cases h
    rfl

theorem beq_iff_alike (hv : v.KeysDiffer) (hw : w.KeysDiffer) : v == w ↔ v.Alike w :=
  same_iff_alike hv hw

/-- Equality of values whose maps have no key twice. -/
theorem beq_equivalence : Equivalence fun v w : {v : Value // v.KeysDiffer} => v.1 == w.1 where
  refl v := (beq_iff_alike v.2 v.2).mpr (.refl v.1)
  symm {v w} h := (beq_iff_alike w.2 v.2).mpr ((beq_iff_alike v.2 w.2).mp h).symm
  trans {v w x} h h' := (beq_iff_alike v.2 x.2).mpr
    (((beq_iff_alike v.2 w.2).mp h).trans ((beq_iff_alike w.2 x.2).mp h'))

/-- Entries with equal keys and equal values. -/
def EqualEntries (e e' : Value × Value) : Prop := e.1 == e'.1 ∧ e.2 == e'.2

theorem list_beq_iff : Value.list a == .list b ↔ List.Forall₂ (fun v w => v == w) a b :=
  sameItems_iff

/-- Equal maps have equal entries, and their order does not count. -/
theorem map_beq_iff (hl : (Value.map l).KeysDiffer) (hm : (Value.map m).KeysDiffer) :
    Value.map l == .map m ↔ Matched EqualEntries l m := by
  have hmatched : (Value.map l).Alike (.map m) ↔ Matched AlikeEntries l m := by
    simp [alike_map_iff]
  obtain ⟨-, keys, values⟩ := keysDiffer_map_iff.mp hl
  obtain ⟨-, keys', values'⟩ := keysDiffer_map_iff.mp hm
  rw [beq_iff_alike hl hm, hmatched]
  refine matched_congr fun e he e' he' => and_congr ?_ ?_
  · exact (beq_iff_alike (keys e he) (keys' e' he')).symm
  · exact (beq_iff_alike (values e he) (values' e' he')).symm

theorem feed_eq_of_beq (hv : v.KeysDiffer) (hw : w.KeysDiffer) (h : v == w) :
    v.feed digest size = w.feed digest size :=
  ((beq_iff_alike hv hw).mp h).feed_eq

/-- A search by hashes misses nothing that a search by equality finds. -/
theorem find?_by_hash {α : Type} {hash : Value → UInt64}
    (respects : ∀ v w, v.KeysDiffer → w.KeysDiffer → v == w → hash v = hash w) {key : α → Value}
    {others : List α} (keys : ∀ x ∈ others, (key x).KeysDiffer) (hk : k.KeysDiffer) :
    others.find? (fun x => hash (key x) == hash k && k == key x) =
      others.find? fun x => k == key x := by
  refine List.find?_congr fun x hx => ?_
  cases hkey : k == key x with
  | false => rw [Bool.and_false]
  | true => rw [Bool.and_true, respects k (key x) hk (keys x hx) hkey, beq_self_eq_true]

theorem findHashed?_eq {others : List (Nat × Value)} (keys : ∀ x ∈ others, x.2.KeysDiffer)
    (hv : v.KeysDiffer) : v.findHashed? others = (others.find? fun x => v == x.2).map Prod.fst := by
  have respects : ∀ v w : Value, v.KeysDiffer → w.KeysDiffer → v == w → v.mixed = w.mixed :=
    fun v w hv hw h => congrArg mix (feed_eq_of_beq hv hw h)
  rw [findHashed?, find?_by_hash respects keys hv]

/-- In a map one entry at most is under an equal key. -/
theorem find?_eq_some_iff (hmap : (Value.map entries).KeysDiffer) (hk : k.KeysDiffer) :
    (entries.find? fun x => k == x.1) = some e ↔ e ∈ entries ∧ k == e.1 := by
  obtain ⟨distinct, keys, -⟩ := keysDiffer_map_iff.mp hmap
  constructor
  · intro h
    exact ⟨List.mem_of_find?_eq_some h, (List.find?_eq_some_iff_append.mp h).1⟩
  · rintro ⟨he, hkey⟩
    cases hfind : entries.find? fun x => k == x.1 with
    | none => exact (List.find?_eq_none.mp hfind e he hkey).elim
    | some x =>
      have hx := List.mem_of_find?_eq_some hfind
      have hxkey : k == x.1 := (List.find?_eq_some_iff_append.mp hfind).1
      have halike : x.1.Alike e.1 := ((beq_iff_alike hk (keys x hx)).mp hxkey).symm.trans
        ((beq_iff_alike hk (keys e he)).mp hkey)
      rw [eq_of_alike_keys (fun _ _ => same_iff_alike) distinct keys hx he halike]

/-- What a table that is kept by hashes has under a key: of the entries with its hash, the one whose
key equals it. -/
def lookUp? (hash : Value → UInt64) (entries : List (Value × Value)) (k : Value) :
    Option (Value × Value) :=
  entries.find? fun e => hash e.1 == hash k && k == e.1

/-- Equality of values is an equivalence for all values whose maps have no key twice. It is true of
those that differ in nothing but the order of entries, at any depth: lists are equal item by item,
and maps if they have equal entries in some order. Equal values feed the same to every hasher,
however entries are digested and lists begin. So what is found by hashes under a key is the one
entry whose key equals it, and equal keys find the same. -/
theorem hashing_respects_equality (digest : List Atom → UInt64) (size : Nat → List Atom)
    (hash : List Atom → UInt64) :
    (Equivalence fun v w : {v : Value // v.KeysDiffer} => v.1 == w.1) ∧
    (∀ v w : Value, v.KeysDiffer → w.KeysDiffer → (v == w ↔ v.Alike w)) ∧
    (∀ a b, Value.list a == .list b ↔ List.Forall₂ (fun v w => v == w) a b) ∧
    (∀ l m, (Value.map l).KeysDiffer → (Value.map m).KeysDiffer →
      (Value.map l == .map m ↔ Matched EqualEntries l m)) ∧
    (∀ v w : Value, v.KeysDiffer → w.KeysDiffer → v == w →
      v.feed digest size = w.feed digest size) ∧
    ∀ entries k, (Value.map entries).KeysDiffer → k.KeysDiffer →
      let found := lookUp? (fun v => hash (v.feed digest size)) entries
      (∀ e, found k = some e ↔ e ∈ entries ∧ k == e.1) ∧
      Table.find? entries k = (found k).map Prod.snd ∧
      entries.any (k == ·.1) = (found k).isSome ∧
      ∀ k', k'.KeysDiffer → k == k' → found k = found k' := by
  refine ⟨beq_equivalence, fun v w => beq_iff_alike, fun a b => list_beq_iff,
    fun l m => map_beq_iff, fun v w => feed_eq_of_beq, ?_⟩
  intro entries k hmap hk found
  have keys := (keysDiffer_map_iff.mp hmap).2.1
  have hfound : ∀ {k}, k.KeysDiffer → found k = entries.find? fun e => k == e.1 :=
    fun hk => find?_by_hash (fun v w hv hw h => congrArg hash (feed_eq_of_beq hv hw h)) keys hk
  refine ⟨fun e => ?_, ?_, ?_, fun k' hk' h => ?_⟩
  · rw [hfound hk, find?_eq_some_iff hmap hk]
  · rw [hfound hk, Table.find?_eq_map]
  · rw [hfound hk, Bool.eq_iff_iff, List.find?_isSome, List.any_eq_true]
  · rw [hfound hk, hfound hk']
    refine List.find?_congr fun e he => Bool.eq_iff_iff.mpr ?_
    have halike := (beq_iff_alike hk hk').mp h
    rw [beq_iff_alike hk (keys e he), beq_iff_alike hk' (keys e he)]
    exact ⟨halike.symm.trans, halike.trans⟩

/-- A map that is a key is found under one with its entries in another order. -/
example :
    let nan : Value := .float ⟨0x7FF8000000000000⟩
    let digest : List Atom → UInt64 := fun atoms => atoms.length.toUInt64
    (lookUp? (fun v => digest (v.feed digest fun _ => []))
      [(.map [(.int 1, .nil), (nan, .list [])], .bool true)]
      (.map [(nan, .list []), (.int 1, .nil)])).isSome = true := by
  decide

end Value
end CommandConsole
