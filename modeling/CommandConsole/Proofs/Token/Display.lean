import CommandConsole.Proofs.Token.Scan

/-! Tokens as they are displayed: a displayed token is read as itself. -/
namespace CommandConsole.Token

open Text

variable {properties : PropertySource} {stops body : List Char} {t : Token}

theorem displayTokens_eq_map (tokens : List Token) : displayTokens tokens = tokens.map display := by
  induction tokens with
  | nil => rfl
  | cons t r ih => rw [displayTokens, ih, List.map_cons]

theorem displayPairs_eq_map (pairs : List (Token × Token)) :
    displayPairs pairs = pairs.map fun e => e.1.display ++ ":" ++ e.2.display := by
  induction pairs with
  | nil => rfl
  | cons e r ih =>
    obtain ⟨k, v⟩ := e
    rw [displayPairs, ih, List.map_cons]

theorem toList_display_literal (s : String) :
    (Token.literal s).display.toList = '"' :: (s.toList ++ ['"']) := by
  rw [display, String.toList_append, String.toList_append]
  rfl

theorem toList_display_property (name value : String) :
    (Token.property name value).display.toList = '$' :: '{' :: (name.toList ++ ['}']) := by
  rw [display, String.toList_append, String.toList_append]
  rfl

theorem toList_commas {α : Type} (text : α → String) (xs : List α) :
    (",".intercalate (xs.map text)).toList = [','].intercalate (xs.map fun x => (text x).toList) := by
  rw [String.toList_intercalate, List.map_map]
  rfl

theorem toList_colon (key value : String) :
    (key ++ ":" ++ value).toList = key.toList ++ ':' :: value.toList := by
  rw [String.toList_append, String.toList_append, List.append_assoc]
  rfl

theorem toList_display_collection (items : List Token) : (Token.collection items).display.toList =
    '[' :: ([','].intercalate (items.map fun t => t.display.toList) ++ [']']) := by
  rw [display, String.toList_append, String.toList_append, displayTokens_eq_map, toList_commas]
  rfl

theorem toList_display_dictionary (pairs : List (Token × Token)) :
    (Token.dictionary pairs).display.toList = '{' :: ([','].intercalate
      (pairs.map fun e => e.1.display.toList ++ ':' :: e.2.display.toList) ++ ['}']) := by
  rw [display, String.toList_append, String.toList_append, displayPairs_eq_map, toList_commas]
  simp only [toList_colon]
  rfl

section Parts

variable {α : Type} {xs : List α}

/-- Written tokens with commas between them are written items. -/
theorem writtenItems_intercalate {text : α → List Char} {token : α → Token} (hne : xs ≠ [])
    (h : ∀ x ∈ xs, Written properties [',', ']'] (text x) (token x)) :
    WrittenItems properties ([','].intercalate (xs.map text)) (xs.map token) := by
  induction xs with
  | nil => exact absurd rfl hne
  | cons x rest ih =>
    have hx := (h x List.mem_cons_self).padded
    cases rest with
    | nil =>
      rw [List.map_singleton, List.map_singleton, List.intercalate_singleton]
      exact .last hx
    | cons y rest =>
      have hrest := ih (List.cons_ne_nil y rest) fun x hx => h x (List.mem_cons_of_mem _ hx)
      rw [List.map_cons, List.map_cons, List.intercalate_cons_cons, List.append_assoc]
      exact .more hx hrest

/-- Written keys with their written values, and commas between the pairs, are written pairs. -/
theorem writtenPairs_intercalate {keyText valueText : α → List Char} {key value : α → Token}
    (hne : xs ≠ [])
    (h : ∀ x ∈ xs, Written properties [':', ',', '}'] (keyText x) (key x) ∧
      Written properties [',', '}'] (valueText x) (value x)) :
    WrittenPairs properties ([','].intercalate (xs.map fun x => keyText x ++ ':' :: valueText x))
      (xs.map fun x => (key x, value x)) := by
  induction xs with
  | nil => exact absurd rfl hne
  | cons x rest ih =>
    obtain ⟨hkey, hvalue⟩ := h x List.mem_cons_self
    cases rest with
    | nil =>
      rw [List.map_singleton, List.map_singleton, List.intercalate_singleton]
      exact .last hkey.padded hvalue.padded
    | cons y rest =>
      have hrest := ih (List.cons_ne_nil y rest) fun x hx => h x (List.mem_cons_of_mem _ hx)
      rw [List.map_cons, List.map_cons, List.intercalate_cons_cons, List.append_assoc,
        List.append_assoc]
      exact .more hkey.padded hvalue.padded hrest

end Parts

/-- The name of a property is written as it is. -/
theorem written_property {name value : String} (closed : '}' ∉ name.toList)
    (trimmed : trim name = name) (nonempty : name ≠ "") (known : properties name = some value) :
    Written properties stops (Token.property name value).display.toList (.property name value) := by
  rw [toList_display_property]
  exact .property closed (by rw [String.ofList_toList, trimmed]) nonempty known

mutual

/-- However a token is written, its display is another way to write it. -/
theorem Written.display : ∀ {stops body : List Char} {t : Token},
    Written properties stops body t → Written properties stops t.display.toList t
  | _, body, _, .plain bare => by
    rw [Token.display, String.toList_ofList]
    exact .plain bare
  | _, _, _, .literal closed => by
    rw [toList_display_literal, String.toList_ofList]
    exact .literal closed
  | _, _, _, .property closed trimmed nonempty known => by
    subst trimmed
    refine written_property ?_ (trim_trim _) nonempty known
    intro hin
    have hbody := mem_of_mem_trim hin
    rw [String.toList_ofList] at hbody
    exact closed hbody
  | _, _, _, .emptyCollection inside => .emptyCollection blank_nil
  | _, _, _, .collection inside => by
    obtain ⟨hne, hitems⟩ := inside.display
    have hwritten := writtenItems_intercalate hne hitems
    rw [List.map_id'] at hwritten
    rw [toList_display_collection]
    exact .collection hwritten
  | _, _, _, .emptyDictionary inside => .emptyDictionary blank_nil
  | _, _, _, .dictionary inside distinct => by
    obtain ⟨hne, hpairs⟩ := inside.display
    have hwritten := writtenPairs_intercalate hne hpairs
    rw [List.map_id'] at hwritten
    rw [toList_display_dictionary]
    exact .dictionary hwritten distinct

theorem Padded.display : ∀ {stops body : List Char} {t : Token},
    Padded properties stops body t → Written properties stops t.display.toList t
  | _, _, _, .intro _ written _ => written.display

theorem WrittenItems.display : ∀ {body : List Char} {items : List Token},
    WrittenItems properties body items →
      items ≠ [] ∧ ∀ t ∈ items, Written properties [',', ']'] t.display.toList t
  | _, _, .last written => by
    have hitem := written.display
    refine ⟨List.cons_ne_nil _ _, ?_⟩
    intro t ht
    rw [List.mem_singleton] at ht
    exact ht ▸ hitem
  | _, _, .more written others => by
    have hitem := written.display
    obtain ⟨-, hothers⟩ := others.display
    refine ⟨List.cons_ne_nil _ _, ?_⟩
    intro t ht
    rcases List.mem_cons.mp ht with rfl | ht
    · exact hitem
    · exact hothers t ht

theorem WrittenPairs.display : ∀ {body : List Char} {pairs : List (Token × Token)},
    WrittenPairs properties body pairs →
      pairs ≠ [] ∧ ∀ e ∈ pairs, Written properties [':', ',', '}'] e.1.display.toList e.1 ∧
        Written properties [',', '}'] e.2.display.toList e.2
  | _, _, .last writtenKey writtenValue => by
    have hpair := And.intro writtenKey.display writtenValue.display
    refine ⟨List.cons_ne_nil _ _, ?_⟩
    intro e he
    rw [List.mem_singleton] at he
    exact he ▸ hpair
  | _, _, .more writtenKey writtenValue others => by
    have hpair := And.intro writtenKey.display writtenValue.display
    obtain ⟨-, hothers⟩ := others.display
    refine ⟨List.cons_ne_nil _ _, ?_⟩
    intro e he
    rcases List.mem_cons.mp he with rfl | he
    · exact hpair
    · exact hothers e he

end

/-- What a text is read as is displayed so that it is read back, whatever the offset, and no other
token read under the same properties is displayed alike. -/
theorem display_reads_back {source : String} {offset : Nat}
    (h : scan source offset properties = .ok t) :
    (∀ offset', scan t.display offset' properties = .ok t) ∧
      ∀ source' offset' u, scan source' offset' properties = .ok u → u.display = t.display →
        u = t := by
  have hread : ∀ {s n u}, scan s n properties = .ok u →
      ∀ m, scan u.display m properties = .ok u := by
    intro s n u hu m
    exact scan_of_padded (padded_of_scan hu).display.padded m
  refine ⟨hread h, ?_⟩
  intro source' offset' u hu hdisplay
  have hback := hread hu 0
  rw [hdisplay, hread h 0] at hback
  injection hback with hback
  exact hback.symm

/-- A dictionary with a list, a property and a quoted comma in it, and blanks around them. -/
theorem display_of_dictionary_reads_back : ∃ (properties : PropertySource) (t : Token),
    scan " \x7b a b : [ ${ x } , \"1,2\" , [ ] ] , ${x} : \x7b \x7d \x7d " 7 properties = .ok t ∧
      t.display = "\x7ba b:[${x},\"1,2\",[]],${x}:\x7b\x7d\x7d" ∧
      scan t.display 0 properties = .ok t := by
  let properties : PropertySource := fun name => if name = "x" then some "[a:b" else none
  let x : Token := .property "x" "[a:b"
  let items : Token := .collection [x, .literal "1,2", .collection []]
  have scanned : scan " \x7b a b : [ ${ x } , \"1,2\" , [ ] ] , ${x} : \x7b \x7d \x7d " 7 properties =
      .ok (.dictionary [(.plain "a b", items), (x, .dictionary [])]) := by
    rfl
  exact ⟨properties, _, scanned, by decide, (display_reads_back scanned).1 0⟩

end CommandConsole.Token
