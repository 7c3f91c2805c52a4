import CommandConsole.Proofs.Token.Scan

/-! Where the scanner is when it stops: at a place of its text, further on than where it began. -/
namespace CommandConsole

open Text

namespace Cursor

/-- A place further on in the same text, or the same place. -/
def Reaches (s t : Cursor) : Prop :=
  ∃ taken, s.rest = taken ++ t.rest ∧ t.position = s.position + width taken

variable {s t u : Cursor}

theorem Reaches.refl (s : Cursor) : s.Reaches s := ⟨[], rfl, rfl⟩

theorem Reaches.trans (h : s.Reaches t) (h' : t.Reaches u) : s.Reaches u := by
  obtain ⟨a, hs, ht⟩ := h
  obtain ⟨b, ht', hu⟩ := h'
  refine ⟨a ++ b, ?_, ?_⟩
  · rw [hs, ht', List.append_assoc]
  · rw [hu, ht, width_append, Nat.add_assoc]

theorem reaches_skipWhile (s : Cursor) (p : Char → Bool) : s.Reaches (s.skipWhile p) :=
  ⟨s.rest.takeWhile p, List.takeWhile_append_dropWhile.symm, rfl⟩

theorem reaches_skipBlanks (s : Cursor) : s.Reaches s.skipBlanks := s.reaches_skipWhile isBlank

theorem reaches_next (s : Cursor) : s.Reaches s.next := by
  unfold next
  split
  · exact .refl s
  · rename_i c r hs
    exact ⟨[c], hs, rfl⟩

/-- No place of a text lies behind its end. -/
theorem Reaches.position_le (h : s.Reaches t) : t.position ≤ s.position + width s.rest := by
  obtain ⟨taken, hs, ht⟩ := h
  rw [hs, ht, width_append]
  omega

end Cursor

namespace Token

/-- A scan that began at `s` ends at a place that it has reached, with a token or with an error. -/
inductive Stops (s : Cursor) : Except ScanError (Token × Cursor) → Prop where
  | read {t : Token} {u : Cursor} (reached : s.Reaches u) : Stops s (.ok (t, u))
  | failed {u : Cursor} {problem : ScanProblem} (reached : s.Reaches u) :
      Stops s (.error (u.error problem))

variable {properties : PropertySource} {s t u start : Cursor} {fuel : Nat}
  {x : Except ScanError (Token × Cursor)}

theorem Stops.after (h : Stops t x) (reached : s.Reaches t) : Stops s x := by
  cases h with
  | read h => exact .read (reached.trans h)
  | failed h => exact .failed (reached.trans h)

theorem Stops.of_ok {token : Token} (h : Stops s (.ok (token, u))) : s.Reaches u := by
  cases h with
  | read reached => exact reached

theorem scanPlain_stops (stops : List Char) (s : Cursor) : Stops s (scanPlain stops s) := by
  have hskip := s.reaches_skipWhile (staysBare stops)
  simp only [scanPlain]
  split
  · exact .read hskip
  · split
    · exact .read hskip
    · exact .failed hskip

theorem scanLiteral_stops (s : Cursor) : Stops s (scanLiteral s) := by
  simp only [scanLiteral]
  split
  · exact .failed (.refl s)
  · exact .read ((s.reaches_next.trans (s.next.reaches_skipWhile _)).trans (Cursor.reaches_next _))

theorem scanProperty_stops (properties : PropertySource) (s : Cursor) :
    Stops s (scanProperty properties s) := by
  have hinside := s.reaches_next.trans s.next.reaches_next
  simp only [scanProperty]
  split
  · exact .failed (.refl s)
  · split
    · exact .failed (.refl s)
    · split
      · exact .read ((hinside.trans (Cursor.reaches_skipWhile _ _)).trans (Cursor.reaches_next _))
      · exact .failed (.refl s)

/-- Whatever a token turns out to be, reading it ends at a place of the text. -/
def TokenStops (properties : PropertySource) (fuel : Nat) : Prop :=
  ∀ stops s, Stops s (scanToken properties stops fuel s)

/-- The opening bracket is a place of its own to which an error can point. -/
def ItemsStop (properties : PropertySource) (fuel : Nat) : Prop :=
  ∀ start items s, start.Reaches s → Stops start (scanItems properties start items fuel s)

def PairsStop (properties : PropertySource) (fuel : Nat) : Prop :=
  ∀ start pairs s, start.Reaches s → Stops start (scanPairs properties start pairs fuel s)

theorem tokenStops_succ (hitems : ItemsStop properties fuel) (hpairs : PairsStop properties fuel) :
    TokenStops properties (fuel + 1) := by
  intro stops s
  have hblanks := s.reaches_skipBlanks
  have hinside := s.skipBlanks.reaches_next.trans s.skipBlanks.next.reaches_skipBlanks
  simp only [scanToken]
  split
  · exact .failed hblanks
  · exact (scanLiteral_stops _).after hblanks
  · split
    · exact .read (hblanks.trans (hinside.trans (Cursor.reaches_next _)))
    · exact (hitems _ _ _ hinside).after hblanks
  · split
    · exact .read (hblanks.trans (hinside.trans (Cursor.reaches_next _)))
    · exact (hpairs _ _ _ hinside).after hblanks
  · exact (scanProperty_stops properties _).after hblanks
  · split
    · exact .failed hblanks
    · exact (scanPlain_stops stops _).after hblanks

theorem itemsStop_succ (htoken : TokenStops properties fuel) (hitems : ItemsStop properties fuel) :
    ItemsStop properties (fuel + 1) := by
  intro start items s reached
  have hblanks := reached.trans s.reaches_skipBlanks
  have hitem := htoken [',', ']'] s.skipBlanks
  simp only [scanItems]
  split
  · exact .failed (.refl start)
  generalize scanToken properties [',', ']'] fuel s.skipBlanks = read at hitem
  obtain ⟨e⟩ | ⟨item, u⟩ := read
  · exact hitem.after hblanks
  · have hu := hblanks.trans (hitem.of_ok.trans u.reaches_skipBlanks)
    have hnext := hu.trans u.skipBlanks.reaches_next
    simp only
    split
    · exact .failed (.refl start)
    · split
      · exact hitems _ _ _ hnext
      · split
        · exact .read hnext
        · exact .failed hu

theorem pairsStop_succ (htoken : TokenStops properties fuel) (hpairs : PairsStop properties fuel) :
    PairsStop properties (fuel + 1) := by
  intro start pairs s reached
  have hblanks := reached.trans s.reaches_skipBlanks
  have hkey := htoken [':', ',', '}'] s.skipBlanks
  simp only [scanPairs]
  split
  · exact .failed (.refl start)
  generalize scanToken properties [':', ',', '}'] fuel s.skipBlanks = read at hkey
  obtain ⟨e⟩ | ⟨key, u⟩ := read
  · exact hkey.after hblanks
  · have hu := hblanks.trans (hkey.of_ok.trans u.reaches_skipBlanks)
    simp only
    split
    · exact .failed (.refl start)
    · split
      · exact .failed hblanks
      · have hcolon := hu.trans u.skipBlanks.reaches_next
        have hvalue := htoken [',', '}'] u.skipBlanks.next
        generalize scanToken properties [',', '}'] fuel u.skipBlanks.next = read at hvalue
        obtain ⟨e⟩ | ⟨value, v⟩ := read
        · exact hvalue.after hcolon
        · have hv := hcolon.trans (hvalue.of_ok.trans v.reaches_skipBlanks)
          have hnext := hv.trans v.skipBlanks.reaches_next
          simp only
          split
          · exact .failed (.refl start)
          · split
            · exact hpairs _ _ _ hnext
            · split
              · exact .read hnext
              · exact .failed hv
    · exact .failed hu

theorem scan_stops (properties : PropertySource) (fuel : Nat) :
    TokenStops properties fuel ∧ ItemsStop properties fuel ∧ PairsStop properties fuel := by
  induction fuel with
  | zero =>
    refine ⟨?_, ?_, ?_⟩
    · intro stops s
      exact .failed (.refl s)
    · intro start items s reached
      exact .failed reached
    · intro start pairs s reached
      exact .failed reached
  | succ fuel ih =>
    obtain ⟨htoken, hitems, hpairs⟩ := ih
    exact ⟨tokenStops_succ hitems hpairs, itemsStop_succ htoken hitems,
      pairsStop_succ htoken hpairs⟩

/-- An error of the scanner points to a place of the text that it was given. -/
theorem exists_place_of_error {source : String} {offset : Nat} {e : ScanError}
    (h : scan source offset properties = .error e) :
    ∃ u problem, Cursor.Reaches ⟨source.toList, offset⟩ u ∧ e = u.error problem := by
  have htoken := (scan_stops properties (2 * source.toList.length + 2)).1 []
    ⟨source.toList, offset⟩
  simp only [scan] at h
  generalize scanToken properties [] (2 * source.toList.length + 2)
    ⟨source.toList, offset⟩ = read at h htoken
  cases htoken with
  | @failed u problem reached =>
    injection h with h
    exact ⟨u, problem, reached, h.symm⟩
  | @read t u reached =>
    simp only at h
    split at h
    · cases h
    · injection h with h
      exact ⟨_, _, reached.trans u.reaches_skipBlanks, h.symm⟩

theorem position_le_of_error {source : String} {offset : Nat} {e : ScanError}
    (h : scan source offset properties = .error e) :
    e.position ≤ offset + width source.toList := by
  obtain ⟨u, problem, reached, rfl⟩ := exists_place_of_error h
  exact reached.position_le

end Token
end CommandConsole
