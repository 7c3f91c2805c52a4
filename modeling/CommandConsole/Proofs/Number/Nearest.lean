import CommandConsole.Number.Binary64
import Mathlib.Data.Nat.Dist

/-! The float made of an integer is the nearest one. Numbers are compared as integers: a finite
float is its `units` times `2 ^ -1074`, and an integer `n` has `n * 2 ^ 1074` of them. -/
namespace CommandConsole.Binary64

/-- The absolute value of a finite number, in units of the smallest one. -/
def unitMagnitude (x : Binary64) : Nat := x.significand * 2 ^ x.scale

/-- A finite number, in units of the smallest one. -/
def units (x : Binary64) : Int := if x.isNegative then -(x.unitMagnitude : Int) else x.unitMagnitude

/-- The units of the number one. -/
def oneUnits : Nat := 2 ^ 1074

theorem oneUnits_pos : 0 < oneUnits := by
  simp only [oneUnits, Nat.two_pow_pos]

/-- How far a finite number is from an integer, in units. -/
def distance (x : Binary64) (n : Int) : Nat := (x.units - n * oneUnits).natAbs

/-- The float nearest to an integer. Of two that are equally near it is the one with the even
significand, and of the zeros the positive one. -/
structure Nearest (x : Binary64) (n : Int) : Prop where
  finite : x.isFinite = true
  sign : x.isNegative = decide (n < 0)
  closest : ∀ y : Binary64, y.isFinite = true → x.distance n ≤ y.distance n
  even : ∀ y : Binary64, y.isFinite = true → y.distance n = x.distance n → y.units ≠ x.units →
    x.significand % 2 = 0

variable {num den k m s : Nat} {x : Binary64}

theorem magnitude_ofMagnitude (negative : Bool) (h : m < 2 ^ 63) :
    (ofMagnitude negative m).magnitude = m := by
  simp only [magnitude, ofMagnitude, Nat.pow_eq, UInt64.toNat_ofNat']
  cases negative <;> simp <;> omega

theorem isNegative_ofMagnitude (negative : Bool) (h : m < 2 ^ 63) :
    (ofMagnitude negative m).isNegative = negative := by
  simp only [isNegative, ofMagnitude, Nat.pow_eq, UInt64.toNat_ofNat']
  cases negative <;> simp <;> omega

/-- A multiple of `den` is at least a whole step above or below, or one of the two that `num` lies
between. -/
theorem multiple_side (k q den : Nat) :
    k * den + den ≤ q * den ∨ k = q ∨ k = q + 1 ∨ q * den + 2 * den ≤ k * den := by
  rcases Nat.lt_trichotomy k q with hk | hk | hk
  · exact .inl (by rw [← Nat.succ_mul]; exact Nat.mul_le_mul_right den hk)
  · exact .inr (.inl hk)
  · rcases Nat.eq_or_lt_of_le hk with hk | hk
    · exact .inr (.inr (.inl hk.symm))
    · refine .inr (.inr (.inr ?_))
      rw [← Nat.add_mul]
      exact Nat.mul_le_mul_right den hk

/-- No multiple of the divisor is nearer than that of the rounded quotient. -/
theorem roundQuotient_nearest (hden : 0 < den) (k : Nat) :
    Nat.dist (roundQuotient num den * den) num ≤ Nat.dist (k * den) num := by
  have hnum := Nat.div_add_mod' num den
  have hr := Nat.mod_lt num hden
  have hup : (num / den + 1) * den = num / den * den + den := Nat.succ_mul _ _
  have hside := multiple_side k (num / den) den
  simp only [roundQuotient, Nat.dist]
  split
  · rcases hside with hk | rfl | rfl | hk <;> omega
  · rcases hside with hk | rfl | rfl | hk <;> omega

/-- If another multiple is as near, then the rounded quotient is even. -/
theorem roundQuotient_even (hden : 0 < den) (hne : k ≠ roundQuotient num den)
    (htie : Nat.dist (k * den) num = Nat.dist (roundQuotient num den * den) num) :
    roundQuotient num den % 2 = 0 := by
  have hnum := Nat.div_add_mod' num den
  have hr := Nat.mod_lt num hden
  have hup : (num / den + 1) * den = num / den * den + den := Nat.succ_mul _ _
  have hside := multiple_side k (num / den) den
  simp only [roundQuotient, Nat.dist] at hne htie ⊢
  split at hne
  · rename_i hround
    simp only [if_pos hround] at htie ⊢
    rcases hside with hk | rfl | rfl | hk <;> omega
  · rename_i hround
    simp only [if_neg hround] at htie ⊢
    rcases hside with hk | rfl | rfl | hk <;> omega

theorem roundQuotient_bounds {low high : Nat} (hden : 0 < den) (hlow : low * den ≤ num)
    (hhigh : num < high * den) :
    low ≤ roundQuotient num den ∧ roundQuotient num den ≤ high := by
  have hq : low ≤ num / den := (Nat.le_div_iff_mul_le hden).mpr hlow
  have hq' : num / den < high := (Nat.div_lt_iff_lt_mul hden).mpr hhigh
  simp only [roundQuotient]
  split <;> omega

/-- A magnitude is made of a scale and a significand. Where rounding has carried into the next power
of two, the significand is half as large and the scale one higher. -/
theorem parts_of_magnitude (hx : x.magnitude = s * 2 ^ 52 + m) (hlow : 2 ^ 52 ≤ m)
    (hhigh : m ≤ 2 ^ 53) : x.unitMagnitude = m * 2 ^ s ∧ x.significand % 2 = m % 2 := by
  rcases Nat.eq_or_lt_of_le hhigh with hm | hm
  · have hexp : x.biasedExponent = s + 2 := by
      simp only [biasedExponent, hx, Nat.pow_eq]
      omega
    have hsig : x.significand = 2 ^ 52 := by
      simp only [significand, hexp, hx, Nat.pow_eq, Nat.succ_ne_zero, if_false]
      omega
    refine ⟨?_, by rw [hsig, hm]; rfl⟩
    rw [unitMagnitude, hsig, scale, hexp, hm, ← Nat.pow_add, ← Nat.pow_add]
    congr 1
    omega
  · have hexp : x.biasedExponent = s + 1 := by
      simp only [biasedExponent, hx, Nat.pow_eq]
      omega
    have hsig : x.significand = m := by
      simp only [significand, hexp, hx, Nat.pow_eq, Nat.succ_ne_zero, if_false]
      omega
    exact ⟨by rw [unitMagnitude, hsig, scale, hexp, Nat.add_sub_cancel], by rw [hsig]⟩

theorem significand_lt (x : Binary64) : x.significand < 2 ^ 53 := by
  simp only [significand, Nat.pow_eq]
  split
  · rename_i h
    simp only [biasedExponent, Nat.pow_eq] at h
    omega
  · omega

/-- A magnitude is a multiple of a power of two, or falls short of its `2 ^ 52`-fold. -/
theorem unitMagnitude_grid (x : Binary64) (s : Nat) :
    (∃ k, x.unitMagnitude = k * 2 ^ s) ∨ x.unitMagnitude < 2 ^ 52 * 2 ^ s := by
  rcases Nat.lt_or_ge x.scale s with h | h
  · right
    calc x.unitMagnitude < 2 ^ 53 * 2 ^ x.scale :=
          Nat.mul_lt_mul_of_pos_right x.significand_lt (Nat.two_pow_pos _)
      _ = 2 ^ 52 * 2 ^ (x.scale + 1) := by rw [Nat.pow_succ]; omega
      _ ≤ 2 ^ 52 * 2 ^ s := Nat.mul_le_mul_left _ (Nat.pow_le_pow_right (by decide) h)
  · left
    refine ⟨x.significand * 2 ^ (x.scale - s), ?_⟩
    rw [Nat.mul_assoc, ← Nat.pow_add, Nat.sub_add_cancel h, unitMagnitude]

/-- An integer that is scaled so that its leading digit is the fifty-third. -/
theorem scaled_bounds (hnum : num ≠ 0) :
    2 ^ 52 * 2 ^ (num.log2 - 52) ≤ num * 2 ^ (52 - num.log2) ∧
      num * 2 ^ (52 - num.log2) < 2 ^ 53 * 2 ^ (num.log2 - 52) := by
  have hlow : 52 + (num.log2 - 52) = num.log2 + (52 - num.log2) := by omega
  have hhigh : 53 + (num.log2 - 52) = num.log2 + 1 + (52 - num.log2) := by omega
  rw [← Nat.pow_add, ← Nat.pow_add, hlow, hhigh, Nat.pow_add, Nat.pow_add _ (num.log2 + 1)]
  exact ⟨Nat.mul_le_mul_right _ (Nat.log2_self_le hnum),
    Nat.mul_lt_mul_of_pos_right Nat.lt_log2_self (Nat.two_pow_pos _)⟩

/-- The significand to which an integer is rounded. -/
def roundedDigits (num : Nat) : Nat :=
  roundQuotient (num * 2 ^ (52 - num.log2)) (2 ^ (num.log2 - 52))

theorem roundedDigits_bounds (hnum : num ≠ 0) :
    2 ^ 52 ≤ roundedDigits num ∧ roundedDigits num ≤ 2 ^ 53 :=
  roundQuotient_bounds (Nat.two_pow_pos _) (scaled_bounds hnum).1 (scaled_bounds hnum).2

theorem leadingExponent_one (hnum : num ≠ 0) : leadingExponent num 1 = num.log2 := by
  have hlog : Nat.log2 1 = 0 := by decide
  simp [leadingExponent, hlog, Nat.log2_self_le hnum]

theorem nearestMagnitude_one (hnum : num ≠ 0) (hlog : num.log2 ≤ 1022) :
    nearestMagnitude num 1 = (num.log2 + 1022) * 2 ^ 52 + roundedDigits num := by
  have hm := (roundedDigits_bounds hnum).2
  have hscale : (-max ((num.log2 : Int) - 52) (-1074)).toNat = 52 - num.log2 := by omega
  have hscale' : (max ((num.log2 : Int) - 52) (-1074)).toNat = num.log2 - 52 := by omega
  have hbias : (max ((num.log2 : Int) - 52) (-1074) + 1074).toNat = num.log2 + 1022 := by omega
  simp only [nearestMagnitude, if_neg hnum, leadingExponent_one hnum, hscale, hscale', hbias,
    Nat.pow_eq, Nat.one_mul, infinityBits]
  rw [if_neg (by omega), ← roundedDigits]
  omega

/-- The steps between the magnitudes around an integer, and the integer itself, in units. -/
theorem dist_steps (num k : Nat) :
    Nat.dist (k * 2 ^ (num.log2 + 1022)) (num * oneUnits) =
      Nat.dist (k * 2 ^ (num.log2 - 52)) (num * 2 ^ (52 - num.log2)) *
        2 ^ (num.log2 + 1022 - (num.log2 - 52)) := by
  have hstep : num.log2 - 52 + (num.log2 + 1022 - (num.log2 - 52)) = num.log2 + 1022 := by omega
  have hone : 52 - num.log2 + (num.log2 + 1022 - (num.log2 - 52)) = 1074 := by omega
  rw [← Nat.dist_mul_right, Nat.mul_assoc, Nat.mul_assoc, ← Nat.pow_add, ← Nat.pow_add, hstep, hone,
    oneUnits]

/-- No magnitude is nearer to an integer than the rounded one. If another is as near, then the
rounded digits are even. -/
theorem roundedDigits_nearest (hnum : num ≠ 0)
    (hm : m = roundedDigits num * 2 ^ (num.log2 + 1022)) (y : Binary64) :
    Nat.dist m (num * oneUnits) ≤ Nat.dist y.unitMagnitude (num * oneUnits) ∧
      (Nat.dist y.unitMagnitude (num * oneUnits) = Nat.dist m (num * oneUnits) →
        y.unitMagnitude ≠ m → roundedDigits num % 2 = 0) := by
  have hnearest : ∀ k, Nat.dist m (num * oneUnits) ≤
      Nat.dist (k * 2 ^ (num.log2 + 1022)) (num * oneUnits) := by
    intro k
    rw [hm, dist_steps, dist_steps]
    exact Nat.mul_le_mul_right _ (roundQuotient_nearest (Nat.two_pow_pos _) k)
  rcases y.unitMagnitude_grid (num.log2 + 1022) with ⟨k, hk⟩ | hbelow
  · rw [hk]
    refine ⟨hnearest k, fun htie hne => ?_⟩
    have hk' : k ≠ roundedDigits num := by
      rintro rfl
      exact hne hm.symm
    rw [hm, dist_steps, dist_steps] at htie
    exact roundQuotient_even (Nat.two_pow_pos _) hk'
      (Nat.eq_of_mul_eq_mul_right (Nat.two_pow_pos _) htie)
  · -- What is below the leading power of two is farther from the integer than that power.
    have hexp : 52 + (num.log2 + 1022) = num.log2 + 1074 := by omega
    have hlead : 2 ^ 52 * 2 ^ (num.log2 + 1022) ≤ num * oneUnits := calc
      2 ^ 52 * 2 ^ (num.log2 + 1022) = 2 ^ num.log2 * oneUnits := by
        simp only [oneUnits, ← Nat.pow_add, hexp]
      _ ≤ num * oneUnits := Nat.mul_le_mul_right _ (Nat.log2_self_le hnum)
    have hlt : Nat.dist m (num * oneUnits) < Nat.dist y.unitMagnitude (num * oneUnits) := by
      refine Nat.lt_of_le_of_lt (hnearest (2 ^ 52)) ?_
      rw [Nat.dist_eq_sub_of_le hlead, Nat.dist_eq_sub_of_le (Nat.le_trans hbelow.le hlead)]
      exact Nat.sub_lt_sub_left (Nat.lt_of_lt_of_le hbelow hlead) hbelow
    exact ⟨hlt.le, fun htie => absurd htie hlt.ne'⟩

/-- Numbers of one sign are as far apart as their magnitudes. -/
theorem distance_eq (x : Binary64) (n : Int) :
    x.distance n = if x.isNegative = decide (n < 0)
      then Nat.dist x.unitMagnitude (n.natAbs * oneUnits)
      else x.unitMagnitude + n.natAbs * oneUnits := by
  have hn : n * oneUnits = if n < 0 then -((n.natAbs * oneUnits : Nat) : Int)
      else ((n.natAbs * oneUnits : Nat) : Int) := by
    split
    · rw [Int.natCast_mul, Int.ofNat_natAbs_of_nonpos (by omega), Int.neg_mul, Int.neg_neg]
    · rw [Int.natCast_mul, Int.natAbs_of_nonneg (by omega)]
  rw [distance, units, hn, Nat.dist]
  generalize n.natAbs * oneUnits = goal
  by_cases hneg : n < 0 <;> cases x.isNegative <;> simp [hneg] <;> omega

/-- Of the numbers of one magnitude, the one of the integer's sign is nearer to it. -/
theorem dist_le_distance (x : Binary64) (n : Int) :
    Nat.dist x.unitMagnitude (n.natAbs * oneUnits) ≤ x.distance n := by
  rw [distance_eq]
  split
  · exact Nat.le_refl _
  · rw [Nat.dist]
    omega

theorem nearest_zero : Nearest (ofInt 0) 0 := by
  have hunits : (ofInt 0).units = 0 := by decide
  refine ⟨by decide, by decide, ?_, fun _ _ _ _ => by decide⟩
  intro y _
  rw [distance, hunits, Int.zero_mul, Int.sub_zero]
  exact Nat.zero_le _

/-- An integer is made into a finite number of its sign, with the rounded digits. -/
theorem parts_ofInt {n : Int} (hnum : n.natAbs ≠ 0) (hlog : n.natAbs.log2 ≤ 1022) :
    (ofInt n).isFinite = true ∧ (ofInt n).isNegative = decide (n < 0) ∧
      (ofInt n).unitMagnitude = roundedDigits n.natAbs * 2 ^ (n.natAbs.log2 + 1022) ∧
      (ofInt n).significand % 2 = roundedDigits n.natAbs % 2 := by
  have hdigits := roundedDigits_bounds hnum
  have hmagnitude := nearestMagnitude_one hnum (by omega)
  have hlt : nearestMagnitude n.natAbs 1 < infinityBits := by
    rw [hmagnitude, infinityBits, Nat.pow_eq]
    omega
  have hlt' : nearestMagnitude n.natAbs 1 < 2 ^ 63 := Nat.lt_trans hlt (by decide)
  have hx : (ofInt n).magnitude = nearestMagnitude n.natAbs 1 := magnitude_ofMagnitude _ hlt'
  refine ⟨?_, isNegative_ofMagnitude _ hlt', ?_⟩
  · rw [isFinite, hx]
    exact decide_eq_true hlt
  · exact parts_of_magnitude (hx.trans hmagnitude) hdigits.1 hdigits.2

/-- An integer is made into the nearest float. -/
theorem nearest_ofInt {n : Int} (hn : n.natAbs < 2 ^ 64) : Nearest (ofInt n) n := by
  by_cases hzero : n = 0
  · rw [hzero]
    exact nearest_zero
  have hnum : n.natAbs ≠ 0 := Int.natAbs_ne_zero.mpr hzero
  have hlog : n.natAbs.log2 < 64 := (Nat.log2_lt hnum).mpr hn
  obtain ⟨hfinite, hsign, hunits, hparity⟩ := parts_ofInt hnum (by omega)
  have hnearest := fun y => roundedDigits_nearest hnum hunits y
  have hdistance : (ofInt n).distance n =
      Nat.dist (ofInt n).unitMagnitude (n.natAbs * oneUnits) := by rw [distance_eq, if_pos hsign]
  refine ⟨hfinite, hsign, ?_, ?_⟩
  · intro y _
    rw [hdistance]
    exact Nat.le_trans (hnearest y).1 (dist_le_distance y n)
  · intro y _ htie hne
    rw [hdistance] at htie
    have hle := dist_le_distance y n
    rw [htie] at hle
    rw [hparity]
    refine (hnearest y).2 (Nat.le_antisymm hle (hnearest y).1) fun heq => ?_
    rw [distance_eq, heq] at htie
    split at htie
    · rename_i hsame
      exact hne (by rw [units, units, hsame, hsign, heq])
    · -- Of the other sign, the number would be as near only if one of them were zero.
      have hpos : 0 < (ofInt n).unitMagnitude := by
        rw [hunits]
        exact Nat.mul_pos (Nat.lt_of_lt_of_le (Nat.two_pow_pos 52) (roundedDigits_bounds hnum).1)
          (Nat.two_pow_pos _)
      have hwhole : 0 < n.natAbs * oneUnits :=
        Nat.mul_pos (Nat.pos_of_ne_zero hnum) oneUnits_pos
      rw [Nat.dist] at htie
      omega

end CommandConsole.Binary64
