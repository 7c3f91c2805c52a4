import CommandConsole.Token.Scan

/-! What the values of properties decide about a token, and what they do not. -/
namespace CommandConsole

open Text

mutual

/-- A token with another token in place of every property in it. -/
def Token.withProperties (f : String → String → Token) : Token → Token
  | .plain s => .plain s
  | .literal s => .literal s
  | .collection items => .collection (tokensWithProperties f items)
  | .dictionary pairs => .dictionary (pairsWithProperties f pairs)
  | .property name value => f name value

def tokensWithProperties (f : String → String → Token) : List Token → List Token
  | [] => []
  | t :: r => t.withProperties f :: tokensWithProperties f r

def pairsWithProperties (f : String → String → Token) :
    List (Token × Token) → List (Token × Token)
  | [] => []
  | (k, v) :: r => (k.withProperties f, v.withProperties f) :: pairsWithProperties f r

end

/-- The error is that a key occurs twice in a dictionary. -/
def ScanError.RepeatsKey (e : ScanError) : Prop := ∃ key, e.problem = .duplicateKey key

/-- The names that two sources know are the same. -/
def PropertySource.Alike (P Q : PropertySource) : Prop := ∀ name, (P name).isSome = (Q name).isSome

namespace Token

section Replacing

variable (f : String → String → Token)

theorem withProperties_collection (items : List Token) :
    (collection items).withProperties f = .collection (items.map (withProperties f)) := by
  rw [withProperties]
  congr 1
  induction items with
  | nil => rfl
  | cons t r ih => rw [tokensWithProperties, ih, List.map_cons]

theorem withProperties_dictionary (pairs : List (Token × Token)) :
    (dictionary pairs).withProperties f =
      .dictionary (pairs.map (Prod.map (withProperties f) (withProperties f))) := by
  rw [withProperties]
  congr 1
  induction pairs with
  | nil => rfl
  | cons e r ih =>
    obtain ⟨k, v⟩ := e
    rw [pairsWithProperties, ih, List.map_cons, Prod.map_apply]

end Replacing

/-- The structure of a token: all of it but the values of its properties. -/
def blanked : Token → Token := withProperties fun name _ => .property name ""

theorem kind_blanked (t : Token) : t.blanked.kind = t.kind := by
  cases t <;> rfl

theorem blanked_collection_congr {items others : List Token}
    (h : items.map blanked = others.map blanked) :
    (collection items.reverse).blanked = (collection others.reverse).blanked := by
  rw [blanked, withProperties_collection, withProperties_collection, List.map_reverse,
    List.map_reverse]
  rw [blanked] at h
  rw [h]

theorem blanked_dictionary_congr {pairs others : List (Token × Token)}
    (h : pairs.map (Prod.map blanked blanked) = others.map (Prod.map blanked blanked)) :
    (dictionary pairs.reverse).blanked = (dictionary others.reverse).blanked := by
  rw [blanked, withProperties_dictionary, withProperties_dictionary, List.map_reverse,
    List.map_reverse]
  rw [blanked] at h
  rw [h]

/-- Two scans of one text fail alike, or stop at one place with the same structure read, unless one
of them has come upon a repeated key. -/
inductive Agree : Except ScanError (Token × Cursor) → Except ScanError (Token × Cursor) → Prop where
  | failed (e : ScanError) : Agree (.error e) (.error e)
  | read {t u : Token} (s : Cursor) (same : t.blanked = u.blanked) :
      Agree (.ok (t, s)) (.ok (u, s))
  | firstRepeats {e : ScanError} {y : Except ScanError (Token × Cursor)} (repeats : e.RepeatsKey) :
      Agree (.error e) y
  | secondRepeats {x : Except ScanError (Token × Cursor)} {e : ScanError}
      (repeats : e.RepeatsKey) : Agree x (.error e)

variable {P Q : PropertySource} {fuel : Nat}

theorem Agree.refl (x : Except ScanError (Token × Cursor)) : Agree x x := by
  cases x with
  | error e => exact .failed e
  | ok read => exact .read read.2 rfl

theorem scanProperty_agree (alike : P.Alike Q) (s : Cursor) :
    Agree (scanProperty P s) (scanProperty Q s) := by
  simp only [scanProperty]
  split
  · exact .failed _
  · split
    · exact .failed _
    · have hname := alike (trim (String.ofList (s.next.next.rest.takeWhile (· != '}'))))
      generalize P _ = p at hname ⊢
      generalize Q _ = q at hname ⊢
      match p, q, hname with
      | none, none, _ => exact .failed _
      | some _, some _, _ => exact .read _ rfl

/-- A token is read with the same structure. -/
def TokenAgree (P Q : PropertySource) (fuel : Nat) : Prop :=
  ∀ stops s, Agree (scanToken P stops fuel s) (scanToken Q stops fuel s)

/-- The items read before have the same structure. -/
def ItemsAgree (P Q : PropertySource) (fuel : Nat) : Prop :=
  ∀ start items others s, items.map blanked = others.map blanked →
    Agree (scanItems P start items fuel s) (scanItems Q start others fuel s)

def PairsAgree (P Q : PropertySource) (fuel : Nat) : Prop :=
  ∀ start pairs others s,
    pairs.map (Prod.map blanked blanked) = others.map (Prod.map blanked blanked) →
    Agree (scanPairs P start pairs fuel s) (scanPairs Q start others fuel s)

theorem tokenAgree_succ (alike : P.Alike Q) (hitems : ItemsAgree P Q fuel)
    (hpairs : PairsAgree P Q fuel) : TokenAgree P Q (fuel + 1) := by
  intro stops s
  simp only [scanToken]
  split
  · exact .failed _
  · exact .refl _
  · split
    · exact .refl _
    · exact hitems _ _ _ _ rfl
  · split
    · exact .refl _
    · exact hpairs _ _ _ _ rfl
  · exact scanProperty_agree alike _
  · split
    · exact .failed _
    · exact .refl _

theorem itemsAgree_succ (htoken : TokenAgree P Q fuel) (hitems : ItemsAgree P Q fuel) :
    ItemsAgree P Q (fuel + 1) := by
  intro start items others s hsame
  have hitem := htoken [',', ']'] s.skipBlanks
  simp only [scanItems]
  split
  · exact .failed _
  generalize scanToken P [',', ']'] fuel s.skipBlanks = x at hitem ⊢
  generalize scanToken Q [',', ']'] fuel s.skipBlanks = y at hitem ⊢
  cases hitem with
  | failed e => exact .failed e
  | firstRepeats repeats => exact .firstRepeats repeats
  | secondRepeats repeats => exact .secondRepeats repeats
  | @read t u s same =>
    have hcons : (t :: items).map blanked = (u :: others).map blanked := by
      rw [List.map_cons, List.map_cons, same, hsame]
    simp only
    split
    · exact .failed _
    · split
      · exact hitems _ _ _ _ hcons
      · split
        · exact .read _ (blanked_collection_congr hcons)
        · exact .failed _

theorem pairsAgree_succ (htoken : TokenAgree P Q fuel) (hpairs : PairsAgree P Q fuel) :
    PairsAgree P Q (fuel + 1) := by
  intro start pairs others s hsame
  have hkey := htoken [':', ',', '}'] s.skipBlanks
  simp only [scanPairs]
  split
  · exact .failed _
  generalize scanToken P [':', ',', '}'] fuel s.skipBlanks = x at hkey ⊢
  generalize scanToken Q [':', ',', '}'] fuel s.skipBlanks = y at hkey ⊢
  cases hkey with
  | failed e => exact .failed e
  | firstRepeats repeats => exact .firstRepeats repeats
  | secondRepeats repeats => exact .secondRepeats repeats
  | @read k l t sameKey =>
    simp only
    split
    · exact .failed _
    · -- The one place where the scanner looks at the value of a property.
      by_cases hfirst : pairs.any (·.1.keyText == k.keyText) = true
      · rw [if_pos hfirst]
        exact .firstRepeats ⟨_, rfl⟩
      by_cases hsecond : others.any (·.1.keyText == l.keyText) = true
      · rw [if_pos hsecond]
        exact .secondRepeats ⟨_, rfl⟩
      rw [if_neg hfirst, if_neg hsecond]
      have hvalue := htoken [',', '}'] t.skipBlanks.next
      generalize scanToken P [',', '}'] fuel t.skipBlanks.next = x at hvalue ⊢
      generalize scanToken Q [',', '}'] fuel t.skipBlanks.next = y at hvalue ⊢
      cases hvalue with
      | failed e => exact .failed e
      | firstRepeats repeats => exact .firstRepeats repeats
      | secondRepeats repeats => exact .secondRepeats repeats
      | @read v w t sameValue =>
        have hcons : ((k, v) :: pairs).map (Prod.map blanked blanked) =
            ((l, w) :: others).map (Prod.map blanked blanked) := by
          rw [List.map_cons, List.map_cons, Prod.map_apply, Prod.map_apply, sameKey, sameValue,
            hsame]
        simp only
        split
        · exact .failed _
        · split
          · exact hpairs _ _ _ _ hcons
          · split
            · exact .read _ (blanked_dictionary_congr hcons)
            · exact .failed _
    · exact .failed _

theorem scan_agree (alike : P.Alike Q) (fuel : Nat) :
    TokenAgree P Q fuel ∧ ItemsAgree P Q fuel ∧ PairsAgree P Q fuel := by
  induction fuel with
  | zero =>
    refine ⟨?_, ?_, ?_⟩
    · intro stops s
      exact .failed _
    · intro start items others s hsame
      exact .failed _
    · intro start pairs others s hsame
      exact .failed _
  | succ fuel ih =>
    obtain ⟨htoken, hitems, hpairs⟩ := ih
    exact ⟨tokenAgree_succ alike hitems hpairs, itemsAgree_succ htoken hitems,
      pairsAgree_succ htoken hpairs⟩

/-- Under two sources that know the same names, one text fails in the same way, or is read with the
same structure: what a property stands for adds nothing but the value of that property. The only
exception is a key that repeats another one, since keys are compared by what they stand for. -/
theorem property_values_add_no_structure (source : String) (offset : Nat) (alike : P.Alike Q)
    (hP : ∀ e, scan source offset P = .error e → ¬ e.RepeatsKey)
    (hQ : ∀ e, scan source offset Q = .error e → ¬ e.RepeatsKey) :
    (∃ e, scan source offset P = .error e ∧ scan source offset Q = .error e) ∨
      ∃ t u, scan source offset P = .ok t ∧ scan source offset Q = .ok u ∧
        t.blanked = u.blanked := by
  have htoken := (scan_agree alike (2 * source.toList.length + 2)).1 [] ⟨source.toList, offset⟩
  simp only [scan] at hP hQ ⊢
  generalize scanToken P _ _ _ = x at htoken hP ⊢
  generalize scanToken Q _ _ _ = y at htoken hQ ⊢
  cases htoken with
  | failed e => exact .inl ⟨e, rfl, rfl⟩
  | firstRepeats repeats => exact absurd repeats (hP _ rfl)
  | secondRepeats repeats => exact absurd repeats (hQ _ rfl)
  | @read t u s same =>
    have hkind : t.kind = u.kind := by
      rw [← kind_blanked t, same, kind_blanked u]
    simp only [hkind]
    split
    · exact .inr ⟨t, u, rfl, rfl, same⟩
    · exact .inl ⟨_, rfl, rfl⟩

/-- A value that looks like the end of a list and the start of another stays one piece of text, also
as a key. -/
theorem brackets_in_value_add_no_structure :
    ∃ (P Q : PropertySource) (t u : Token), P "x" = some "null" ∧ Q "x" = some "a],[b:" ∧
      scan " [ \x7b${x} : [a, ${ x }]\x7d, b ] " 3 P = .ok t ∧
      scan " [ \x7b${x} : [a, ${ x }]\x7d, b ] " 3 Q = .ok u ∧ t.blanked = u.blanked := by
  let source (value : String) : PropertySource :=
    fun name => if name = "x" then some value else none
  have scanned (value : String) :
      scan " [ \x7b${x} : [a, ${ x }]\x7d, b ] " 3 (source value) = .ok (.collection [.dictionary
        [(.property "x" value, .collection [.plain "a", .property "x" value])], .plain "b"]) := by
    rfl
  have unrepeated (value : String) (e : ScanError)
      (h : scan " [ \x7b${x} : [a, ${ x }]\x7d, b ] " 3 (source value) = .error e) :
      ¬ e.RepeatsKey := by
    rw [scanned] at h
    cases h
  have alike : (source "null").Alike (source "a],[b:") := by
    intro name
    simp only [source]
    split <;> rfl
  obtain ⟨e, he, -⟩ | ⟨t, u, ht, hu, same⟩ := property_values_add_no_structure _ 3 alike
    (unrepeated "null") (unrepeated "a],[b:")
  · rw [scanned] at he
    cases he
  · exact ⟨source "null", source "a],[b:", t, u, rfl, rfl, ht, hu, same⟩

end Token
end CommandConsole
