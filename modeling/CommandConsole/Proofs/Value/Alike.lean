import CommandConsole.Proofs.Value.Maps
import Mathlib.Data.List.Forall2
import Mathlib.Data.List.Perm.Basic

/-! Values that are the same but for the order of the entries in their maps. -/
namespace CommandConsole.Value

/-- The same value, where the entries of a map may come in any order at any depth. -/
inductive Alike : Value → Value → Prop where
  | nil : Alike .nil .nil
  | bool (b : Bool) : Alike (.bool b) (.bool b)
  | int (n : Int64) : Alike (.int n) (.int n)
  | float (x : Binary64) : Alike (.float x) (.float x)
  | text (s : String) : Alike (.text s) (.text s)
  | variant (e : EnumValue) : Alike (.variant e) (.variant e)
  | list {a b : List Value} (each : List.Forall₂ Alike a b) : Alike (.list a) (.list b)
  | map {a a' b : List (Value × Value)}
      (keys : List.Forall₂ Alike (a.map Prod.fst) (a'.map Prod.fst))
      (values : List.Forall₂ Alike (a.map Prod.snd) (a'.map Prod.snd)) (order : a'.Perm b) :
      Alike (.map a) (.map b)
  | foreign {f g : Foreign} (identity : f.identity = g.identity) : Alike (.foreign f) (.foreign g)

section Matched

variable {α : Type} {R S : α → α → Prop} {l m n : List α}

theorem forall₂_imp_of_mem (h : ∀ a ∈ l, ∀ b ∈ m, R a b → S a b) (each : List.Forall₂ R l m) :
    List.Forall₂ S l m := by
  obtain ⟨hlen, hpairs⟩ := List.forall₂_iff_zip.mp each
  refine List.forall₂_iff_zip.mpr ⟨hlen, fun {a b} hin => ?_⟩
  obtain ⟨ha, hb⟩ := List.of_mem_zip hin
  exact h a ha b hb (hpairs hin)

theorem forall₂_congr_of_mem (h : ∀ a ∈ l, ∀ b ∈ m, (R a b ↔ S a b)) :
    List.Forall₂ R l m ↔ List.Forall₂ S l m :=
  ⟨forall₂_imp_of_mem fun a ha b hb => (h a ha b hb).mp,
    forall₂_imp_of_mem fun a ha b hb => (h a ha b hb).mpr⟩

theorem forall₂_symm (h : ∀ a ∈ l, ∀ b, R a b → R b a) (each : List.Forall₂ R l m) :
    List.Forall₂ R m l :=
  .flip (forall₂_imp_of_mem (fun a ha b _ => h a ha b) each)

theorem forall₂_trans (h : ∀ a ∈ l, ∀ b c, R a b → R b c → R a c) (each : List.Forall₂ R l m)
    (each' : List.Forall₂ R m n) : List.Forall₂ R l n := by
  induction each generalizing n with
  | nil => exact each'
  | cons hab rest ih =>
    cases each' with
    | cons hbc rest' =>
      exact .cons (h _ List.mem_cons_self _ _ hab hbc)
        (ih (fun a ha => h a (List.mem_cons_of_mem _ ha)) rest')

/-- The second list has the elements of the first in some order, up to a relation. -/
def Matched (R : α → α → Prop) (l m : List α) : Prop := ∃ l', List.Forall₂ R l l' ∧ l'.Perm m

theorem matched_congr (h : ∀ a ∈ l, ∀ b ∈ m, (R a b ↔ S a b)) : Matched R l m ↔ Matched S l m := by
  refine exists_congr fun l' => and_congr_left fun order => forall₂_congr_of_mem fun a ha b hb => ?_
  exact h a ha b (order.mem_iff.mp hb)

theorem Matched.refl (h : ∀ a ∈ l, R a a) : Matched R l l :=
  ⟨l, List.forall₂_same.mpr h, .refl l⟩

theorem Matched.symm (h : ∀ a ∈ l, ∀ b, R a b → R b a) (matched : Matched R l m) :
    Matched R m l := by
  obtain ⟨l', each, order⟩ := matched
  obtain ⟨m', each', order'⟩ := List.perm_comp_forall₂ order.symm (forall₂_symm h each)
  exact ⟨m', each', order'⟩

theorem Matched.trans (h : ∀ a ∈ l, ∀ b c, R a b → R b c → R a c) (matched : Matched R l m)
    (matched' : Matched R m n) : Matched R l n := by
  obtain ⟨l', each, order⟩ := matched
  obtain ⟨m', each', order'⟩ := matched'
  obtain ⟨n', each'', order''⟩ := List.perm_comp_forall₂ order each'
  exact ⟨n', forall₂_trans h each each'', order''.trans order'⟩

theorem exists_of_mem_left (each : List.Forall₂ R l m) {a : α} (ha : a ∈ l) : ∃ b ∈ m, R a b := by
  induction each with
  | nil => cases ha
  | @cons a' b l m hab _ ih =>
    rcases List.mem_cons.mp ha with rfl | ha
    · exact ⟨b, List.mem_cons_self, hab⟩
    · obtain ⟨c, hc, hac⟩ := ih ha
      exact ⟨c, List.mem_cons_of_mem b hc, hac⟩

theorem exists_of_mem_right (each : List.Forall₂ R l m) {b : α} (hb : b ∈ m) : ∃ a ∈ l, R a b :=
  exists_of_mem_left (R := flip R) each.flip hb

/-- Elements that have partners, and never the same, have different partners all together. -/
theorem exists_partners (partner : ∀ a ∈ l, ∃ b ∈ m, R a b)
    (apart : l.Pairwise fun a a' => ∀ b, R a b → ¬ R a' b) :
    ∃ l', List.Forall₂ R l l' ∧ l' ⊆ m ∧ l'.Nodup := by
  induction l with
  | nil => exact ⟨[], .nil, List.nil_subset m, .nil⟩
  | cons a l ih =>
    obtain ⟨hfirst, hrest⟩ := List.pairwise_cons.mp apart
    obtain ⟨b, hb, hab⟩ := partner a List.mem_cons_self
    obtain ⟨l', each, hsub, hnodup⟩ := ih (fun c hc => partner c (List.mem_cons_of_mem a hc)) hrest
    refine ⟨b :: l', .cons hab each, List.cons_subset.mpr ⟨hb, hsub⟩, ?_⟩
    refine List.nodup_cons.mpr ⟨fun hin => ?_, hnodup⟩
    obtain ⟨c, hc, hcb⟩ := exists_of_mem_right each hin
    exact hfirst c hc b hab hcb

/-- As many partners as there are elements are all of them. -/
theorem matched_of_partners (partner : ∀ a ∈ l, ∃ b ∈ m, R a b)
    (apart : l.Pairwise fun a a' => ∀ b, R a b → ¬ R a' b) (hlen : l.length = m.length) :
    Matched R l m := by
  obtain ⟨l', each, hsub, hnodup⟩ := exists_partners partner apart
  have hle : m.length ≤ l'.length := Nat.le_of_eq (hlen.symm.trans each.length_eq)
  exact ⟨l', each, (List.subperm_of_subset hnodup hsub).perm_of_length_le hle⟩

end Matched

variable {v w x : Value} {items a b : List Value} {entries l m n : List (Value × Value)}
  {e : Value × Value}

theorem sizeOf_item (h : v ∈ items) : sizeOf v < sizeOf (Value.list items) := by
  have := List.sizeOf_lt_of_mem h
  simp only [Value.list.sizeOf_spec]
  omega

theorem sizeOf_key (h : e ∈ entries) : sizeOf e.1 < sizeOf (Value.map entries) := by
  have := List.sizeOf_lt_of_mem h
  obtain ⟨k, v⟩ := e
  simp only [Prod.mk.sizeOf_spec, Value.map.sizeOf_spec] at this ⊢
  omega

theorem sizeOf_value (h : e ∈ entries) : sizeOf e.2 < sizeOf (Value.map entries) := by
  have := List.sizeOf_lt_of_mem h
  obtain ⟨k, v⟩ := e
  simp only [Prod.mk.sizeOf_spec, Value.map.sizeOf_spec] at this ⊢
  omega

/-- Induction on a value whose items, keys and values have the property already. -/
theorem induct {P : Value → Prop} (nil : P .nil) (bool : ∀ b, P (.bool b)) (int : ∀ n, P (.int n))
    (float : ∀ x, P (.float x)) (text : ∀ s, P (.text s)) (variant : ∀ e, P (.variant e))
    (list : ∀ items, (∀ v ∈ items, P v) → P (.list items))
    (map : ∀ entries, (∀ e ∈ entries, P e.1) → (∀ e ∈ entries, P e.2) → P (.map entries))
    (foreign : ∀ f, P (.foreign f)) (v : Value) : P v := by
  induction hsize : sizeOf v using Nat.strongRecOn generalizing v with
  | ind size ih =>
    subst hsize
    cases v with
    | nil => exact nil
    | bool b => exact bool b
    | int n => exact int n
    | float x => exact float x
    | text s => exact text s
    | variant e => exact variant e
    | list items => exact list items fun v hv => ih _ (sizeOf_item hv) v rfl
    | map entries =>
      exact map entries (fun e he => ih _ (sizeOf_key he) e.1 rfl)
        fun e he => ih _ (sizeOf_value he) e.2 rfl
    | foreign f => exact foreign f

/-- Entries whose keys are alike, and their values. -/
def AlikeEntries (e e' : Value × Value) : Prop := e.1.Alike e'.1 ∧ e.2.Alike e'.2

theorem forall₂_entries_iff : List.Forall₂ AlikeEntries l m ↔
    List.Forall₂ Alike (l.map Prod.fst) (m.map Prod.fst) ∧
      List.Forall₂ Alike (l.map Prod.snd) (m.map Prod.snd) := by
  induction l generalizing m with
  | nil => cases m <;> simp
  | cons e l ih => cases m <;> simp [AlikeEntries, ih, and_and_and_comm]

theorem alike_list_iff : (Value.list a).Alike w ↔ ∃ b, w = .list b ∧ List.Forall₂ Alike a b := by
  constructor
  · intro h
    cases h with
    | list each => exact ⟨_, rfl, each⟩
  · rintro ⟨b, rfl, each⟩
    exact .list each

theorem alike_map_iff :
    (Value.map l).Alike w ↔ ∃ m, w = .map m ∧ Matched AlikeEntries l m := by
  constructor
  · intro h
    cases h with
    | map keys values order =>
      exact ⟨_, rfl, _, forall₂_entries_iff.mpr ⟨keys, values⟩, order⟩
  · rintro ⟨m, rfl, l', each, order⟩
    obtain ⟨keys, values⟩ := forall₂_entries_iff.mp each
    exact .map keys values order

theorem Alike.refl (v : Value) : v.Alike v := by
  induction v using induct with
  | nil => exact .nil
  | bool b => exact .bool b
  | int n => exact .int n
  | float x => exact .float x
  | text s => exact .text s
  | variant e => exact .variant e
  | list items ih => exact .list (List.forall₂_same.mpr ih)
  | map entries keys values =>
    exact alike_map_iff.mpr ⟨entries, rfl, .refl fun e he => ⟨keys e he, values e he⟩⟩
  | foreign f => exact .foreign rfl

theorem Alike.symm (h : v.Alike w) : w.Alike v := by
  induction v using induct generalizing w with
  | list items ih =>
    obtain ⟨b, rfl, each⟩ := alike_list_iff.mp h
    exact .list (forall₂_symm (fun v hv w => ih v hv) each)
  | map entries keys values =>
    obtain ⟨m, rfl, matched⟩ := alike_map_iff.mp h
    refine alike_map_iff.mpr ⟨entries, rfl, matched.symm fun e he e' hee => ?_⟩
    exact ⟨keys e he hee.1, values e he hee.2⟩
  | foreign f =>
    cases h with
    | foreign identity => exact .foreign identity.symm
  | _ =>
    cases h
    exact .refl _

theorem Alike.trans (h : v.Alike w) (h' : w.Alike x) : v.Alike x := by
  induction v using induct generalizing w x with
  | list items ih =>
    obtain ⟨b, rfl, each⟩ := alike_list_iff.mp h
    obtain ⟨c, rfl, each'⟩ := alike_list_iff.mp h'
    exact .list (forall₂_trans (fun v hv w x => ih v hv) each each')
  | map entries keys values =>
    obtain ⟨m, rfl, matched⟩ := alike_map_iff.mp h
    obtain ⟨n, rfl, matched'⟩ := alike_map_iff.mp h'
    refine alike_map_iff.mpr ⟨n, rfl, matched.trans (fun e he e' e'' hee hee' => ?_) matched'⟩
    exact ⟨keys e he hee.1 hee'.1, values e he hee.2 hee'.2⟩
  | foreign f =>
    cases h with
    | foreign identity =>
      cases h' with
      | foreign identity' => exact .foreign (identity.trans identity')
  | _ =>
    cases h
    exact h'

end CommandConsole.Value
