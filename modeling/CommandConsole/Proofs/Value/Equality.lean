import CommandConsole.Proofs.Value.Alike
import Mathlib.Data.List.Pairwise

/-! Equality of values: it is an equivalence that disregards the order of entries and nothing else,
and equal values have equal hashes. -/
namespace CommandConsole.Value

/-- Nowhere in a value does a map have two equal keys. -/
inductive KeysDiffer : Value → Prop where
  | piece {v : Value} (list : v.list? = none) (map : v.map? = none) : KeysDiffer v
  | list {items : List Value} (each : ∀ v ∈ items, KeysDiffer v) : KeysDiffer (.list items)
  | map {entries : List (Value × Value)} (distinct : Table.Distinct entries)
      (keys : ∀ e ∈ entries, KeysDiffer e.1) (values : ∀ e ∈ entries, KeysDiffer e.2) :
      KeysDiffer (.map entries)

variable {v w x : Value} {a b : List Value} {l m : List (Value × Value)} {e e' : Value × Value}

theorem keysDiffer_list_iff : (Value.list a).KeysDiffer ↔ ∀ v ∈ a, v.KeysDiffer := by
  constructor
  · intro h
    cases h with
    | piece list => cases list
    | list each => exact each
  · exact .list

theorem keysDiffer_map_iff : (Value.map l).KeysDiffer ↔
    Table.Distinct l ∧ (∀ e ∈ l, e.1.KeysDiffer) ∧ ∀ e ∈ l, e.2.KeysDiffer := by
  constructor
  · intro h
    cases h with
    | piece _ map => cases map
    | map distinct keys values => exact ⟨distinct, keys, values⟩
  · rintro ⟨distinct, keys, values⟩
    exact .map distinct keys values

theorem sameItems_iff : sameItems a b = true ↔ List.Forall₂ (fun v w => v.same w = true) a b := by
  induction a generalizing b with
  | nil => cases b <;> simp [sameItems]
  | cons v a ih => cases b <;> simp [sameItems, ih]

theorem entriesWithin_iff : entriesWithin l m = true ↔
    ∀ e ∈ l, ∃ e', m.find? (fun x => e.1.same x.1) = some e' ∧ e.2.same e'.2 = true := by
  induction l with
  | nil => simp [entriesWithin]
  | cons e l ih =>
    obtain ⟨k, v⟩ := e
    rw [entriesWithin, Bool.and_eq_true, ih, List.forall_mem_cons]
    refine and_congr_left' ?_
    cases m.find? (fun x => k.same x.1) <;> simp

theorem same_piece_iff (list : v.list? = none) (map : v.map? = none) :
    v.same w = true ↔ v.Alike w := by
  constructor
  · intro h
    -- Values of different kinds are never equal.
    cases v <;> cases w <;> simp_all only [same, list?, map?, beq_iff_eq, reduceCtorEq]
    case foreign.foreign => exact .foreign h
    all_goals constructor
  · intro h
    cases h <;> simp_all [same, list?, map?]

section Parts

/-! Lists and maps of values for which it is known already what equality means. -/

variable {P : Value → Prop} (agree : ∀ v w, P v → P w → (v.same w = true ↔ v.Alike w))

include agree

/-- Keys that differ are not alike. -/
theorem not_alike_of_distinct (h : Table.Distinct l) (keys : ∀ e ∈ l, P e.1) :
    l.Pairwise fun e e' => ¬ e.1.Alike e'.1 := by
  refine List.Pairwise.imp_of_mem (fun {e e'} he he' hne halike => ?_) h
  have hsame := (agree e'.1 e.1 (keys e' he') (keys e he)).mpr halike.symm
  exact Bool.false_ne_true (hne.symm.trans hsame)

/-- A key stands for one entry. -/
theorem eq_of_alike_keys (h : Table.Distinct l) (keys : ∀ e ∈ l, P e.1) (he : e ∈ l)
    (he' : e' ∈ l) (halike : e.1.Alike e'.1) : e = e' := by
  have apart := not_alike_of_distinct agree h keys
  have hpairs : l.Pairwise fun x y => x.1.Alike y.1 → x = y :=
    apart.imp fun hne hxy => (hne hxy).elim
  have hflip : l.Pairwise (flip fun x y => x.1.Alike y.1 → x = y) :=
    apart.imp fun hne hyx => (hne hyx.symm).elim
  exact hpairs.forall_of_forall_of_flip (fun _ _ _ => rfl) hflip he he' halike

/-- A map that lies within another of the same length has its entries. Different keys of the first
cannot have the same key of the second as their equal. -/
theorem matched_of_within (hl : Table.Distinct l) (keys : ∀ e ∈ l, P e.1)
    (values : ∀ e ∈ l, P e.2) (keys' : ∀ e ∈ m, P e.1) (values' : ∀ e ∈ m, P e.2)
    (hlen : l.length = m.length) (h : entriesWithin l m = true) : Matched AlikeEntries l m := by
  refine matched_of_partners (fun e he => ?_) ?_ hlen
  · obtain ⟨e', hfind, hvalue⟩ := entriesWithin_iff.mp h e he
    have he' := List.mem_of_find?_eq_some hfind
    have hkey := List.find?_some hfind
    exact ⟨e', he', (agree _ _ (keys e he) (keys' e' he')).mp hkey,
      (agree _ _ (values e he) (values' e' he')).mp hvalue⟩
  · refine (not_alike_of_distinct agree hl keys).imp fun hne e hxe hye => hne ?_
    exact hxe.1.trans hye.1.symm

/-- The entry under an equal key is the one that matches. -/
theorem within_of_matched (hm : Table.Distinct m) (keys : ∀ e ∈ l, P e.1)
    (values : ∀ e ∈ l, P e.2) (keys' : ∀ e ∈ m, P e.1) (values' : ∀ e ∈ m, P e.2)
    (h : Matched AlikeEntries l m) : entriesWithin l m = true := by
  obtain ⟨l', each, order⟩ := h
  refine entriesWithin_iff.mpr fun e he => ?_
  obtain ⟨e', he', hkey, hvalue⟩ := exists_of_mem_left each he
  have hin : e' ∈ m := order.mem_iff.mp he'
  have hsame := (agree _ _ (keys e he) (keys' e' hin)).mpr hkey
  cases hfind : m.find? (fun x => e.1.same x.1) with
  | none => exact (List.find?_eq_none.mp hfind e' hin hsame).elim
  | some x =>
    have hx := List.mem_of_find?_eq_some hfind
    have hxsame : e.1.same x.1 = true := (List.find?_eq_some_iff_append.mp hfind).1
    have hxkey := (agree _ _ (keys e he) (keys' x hx)).mp hxsame
    obtain rfl := eq_of_alike_keys agree hm keys' hx hin (hxkey.symm.trans hkey)
    exact ⟨x, rfl, (agree _ _ (values e he) (values' x hx)).mpr hvalue⟩

theorem same_map_iff (hl : Table.Distinct l) (hm : Table.Distinct m) (keys : ∀ e ∈ l, P e.1)
    (values : ∀ e ∈ l, P e.2) (keys' : ∀ e ∈ m, P e.1) (values' : ∀ e ∈ m, P e.2) :
    (Value.map l).same (.map m) = true ↔ (Value.map l).Alike (.map m) := by
  rw [same, Bool.and_eq_true, beq_iff_eq]
  constructor
  · rintro ⟨hlen, hwithin⟩
    have matched := matched_of_within agree hl keys values keys' values' hlen hwithin
    exact alike_map_iff.mpr ⟨m, rfl, matched⟩
  · intro h
    obtain ⟨_, ⟨⟩, matched⟩ := alike_map_iff.mp h
    obtain ⟨l', each, order⟩ := matched
    exact ⟨each.length_eq.trans order.length_eq,
      within_of_matched agree hm keys values keys' values' ⟨l', each, order⟩⟩

theorem same_list_iff (ha : ∀ v ∈ a, P v) (hb : ∀ v ∈ b, P v) :
    (Value.list a).same (.list b) = true ↔ (Value.list a).Alike (.list b) := by
  have hitems : (Value.list a).Alike (.list b) ↔ List.Forall₂ Alike a b := by
    simp [alike_list_iff]
  rw [same, sameItems_iff, hitems]
  exact forall₂_congr_of_mem fun v hv w hw => agree v w (ha v hv) (hb w hw)

end Parts

/-- Equality disregards the order of entries and nothing else. The induction is on a bound of both
sizes, as keys of one map are compared with each other. -/
theorem same_iff_alike (hv : v.KeysDiffer) (hw : w.KeysDiffer) :
    v.same w = true ↔ v.Alike w := by
  obtain ⟨bound, hvsize, hwsize⟩ : ∃ bound, sizeOf v < bound ∧ sizeOf w < bound :=
    ⟨sizeOf v + sizeOf w + 1, by omega, by omega⟩
  induction bound generalizing v w with
  | zero => omega
  | succ bound ih =>
    let P : Value → Prop := fun u => u.KeysDiffer ∧ sizeOf u < bound
    have agree : ∀ v w, P v → P w → (v.same w = true ↔ v.Alike w) :=
      fun v w hv hw => ih hv.1 hw.1 hv.2 hw.2
    have small : ∀ {part whole : Value}, sizeOf part < sizeOf whole → sizeOf whole < bound + 1 →
        sizeOf part < bound :=
      fun hpart hwhole => Nat.lt_of_lt_of_le hpart (Nat.le_of_lt_succ hwhole)
    cases v with
    | list a =>
      cases w with
      | list b =>
        have items := keysDiffer_list_iff.mp hv
        have items' := keysDiffer_list_iff.mp hw
        exact same_list_iff agree (fun v hin => ⟨items v hin, small (sizeOf_item hin) hvsize⟩)
          fun v hin => ⟨items' v hin, small (sizeOf_item hin) hwsize⟩
      | _ => exact iff_of_false (by simp [same]) nofun
    | map l =>
      cases w with
      | map m =>
        obtain ⟨hl, keys, values⟩ := keysDiffer_map_iff.mp hv
        obtain ⟨hm, keys', values'⟩ := keysDiffer_map_iff.mp hw
        exact same_map_iff agree hl hm (fun e he => ⟨keys e he, small (sizeOf_key he) hvsize⟩)
          (fun e he => ⟨values e he, small (sizeOf_value he) hvsize⟩)
          (fun e he => ⟨keys' e he, small (sizeOf_key he) hwsize⟩)
          (fun e he => ⟨values' e he, small (sizeOf_value he) hwsize⟩)
      | _ => exact iff_of_false (by simp [same]) nofun
    | _ => exact same_piece_iff rfl rfl

end CommandConsole.Value
