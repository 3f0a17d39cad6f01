import Mathlib.Algebra.Order.Field.Power
import Mathlib.Data.List.TakeWhile
import Mathlib.Data.Nat.Cast.Order.Field
import Mathlib.Data.Rat.Cast.Order
import Mathlib.Tactic.FieldSimp
import Mathlib.Tactic.Linarith
import Mathlib.Tactic.NormNum
import Mathlib.Tactic.Ring
import ScriptFrontend.Number.Double

/-!
# Texts of numbers of double precision

The text of a finite number is read as the same number again. A number that is near enough to a number of double
precision is rounded to it, and seventeen digits are always near enough, so that the search for the shortest text
ends with one that is read as it should be.
-/

namespace ScriptFrontend.Double

/-! ## The nearest whole number -/

variable {a b k : Nat}

theorem nearest_le (h : 2 * a < (2 * k + 1) * b) : nearest a b ≤ k := by
  have pos : 0 < b := Nat.pos_of_ne_zero fun zero => by simp [zero] at h
  have parts := Nat.div_add_mod a b
  have rest := Nat.mod_lt a pos
  generalize hq : a / b = q at parts
  generalize hr : a % b = r at parts rest
  have least : q ≤ k := by
    by_contra more
    have : b * (k + 1) ≤ b * q := Nat.mul_le_mul_left b (by omega)
    nlinarith
  simp only [nearest, hq, hr]
  rcases Nat.lt_or_eq_of_le least with less | rfl
  · split <;> omega
  · have down : 2 * r < b := by nlinarith
    simp [down]

theorem le_nearest (pos : 0 < b) (h : 2 * k * b < 2 * a + b) : k ≤ nearest a b := by
  have parts := Nat.div_add_mod a b
  have rest := Nat.mod_lt a pos
  generalize hq : a / b = q at parts
  generalize hr : a % b = r at parts rest
  have most : k ≤ q + 1 := by
    by_contra more
    have : b * (q + 2) ≤ b * k := Nat.mul_le_mul_left b (by omega)
    nlinarith
  simp only [nearest, hq, hr]
  rcases Nat.lt_or_eq_of_le most with less | rfl
  · split <;> omega
  · have up : b < 2 * r := by nlinarith
    simp [up.not_gt, up.ne']

theorem nearest_mul_right (pos : 0 < k) : nearest (a * k) (b * k) = nearest a b := by
  have fraction : 2 * (a * k % (b * k)) = 2 * (a % b) * k := by
    rw [Nat.mul_mod_mul_right, Nat.mul_assoc]
  simp only [nearest, Nat.mul_div_mul_right _ _ pos, fraction, Nat.mul_lt_mul_right pos, Bool.or_eq_true,
    Bool.and_eq_true, decide_eq_true_eq, beq_iff_eq, Nat.mul_right_cancel_iff pos]

theorem nearest_congr {a' b' : Nat} (pos : 0 < b) (pos' : 0 < b') (same : a * b' = a' * b) :
    nearest a b = nearest a' b' := by
  rw [← nearest_mul_right pos', same, Nat.mul_comm b b', nearest_mul_right pos]

/-! ## Fractions and powers of two -/

variable {n d n' d' m : Nat} {e E : Int} {negative : Bool}

theorem unscaled_pos (pos : 0 < d) : 0 < (unscaled n d e).2 := by
  unfold unscaled
  split
  · exact Nat.mul_pos pos (Nat.pow_pos Nat.two_pos)
  · exact pos

theorem cast_twos (k : Nat) : ((twos k : Nat) : ℚ) = 2 ^ (k : Int) := by
  rw [twos, zpow_natCast]
  exact Nat.cast_pow 2 k

theorem cast_tens (k : Nat) : ((tens k : Nat) : ℚ) = 10 ^ (k : Int) := by
  rw [tens, zpow_natCast]
  exact Nat.cast_pow 10 k

theorem unscaled_ratio (pos : 0 < d) :
    ((unscaled n d e).1 : ℚ) = n / d / 2 ^ e * (unscaled n d e).2 := by
  have solid : (d : ℚ) ≠ 0 := Nat.cast_ne_zero.mpr pos.ne'
  have two : (2 : ℚ) ^ e ≠ 0 := zpow_ne_zero e two_ne_zero
  unfold unscaled
  split
  · rename_i whole
    rw [Nat.cast_mul, cast_twos, Int.toNat_of_nonneg whole]
    field_simp
  · rename_i fraction
    rw [Nat.cast_mul, cast_twos, Int.toNat_of_nonneg (by omega), zpow_neg]
    field_simp

def IsAround (E : Int) (x : ℚ) : Prop := 2 ^ (E + 52) ≤ x ∧ x < 2 ^ (E + 53)

theorem lt_of_two_zpow_lt {i j : Int} (h : (2 : ℚ) ^ i < 2 ^ j) : i < j :=
  (zpow_lt_zpow_iff_right₀ one_lt_two).mp h

theorem IsAround.unique {x : ℚ} {E E' : Int} (h : IsAround E x) (h' : IsAround E' x) : E = E' := by
  have := lt_of_two_zpow_lt (h.1.trans_lt h'.2)
  have := lt_of_two_zpow_lt (h'.1.trans_lt h.2)
  omega

theorem two_zpow_add (i j : Int) : (2 : ℚ) ^ (i + j) = 2 ^ i * 2 ^ j := zpow_add₀ two_ne_zero i j

/-- What the number of bits says about a number. -/
theorem log2_bounds (pos : 0 < n) : (2 : ℚ) ^ (n.log2 : Int) ≤ n ∧ (n : ℚ) < 2 ^ ((n.log2 : Int) + 1) := by
  constructor
  · rw [zpow_natCast]
    exact_mod_cast Nat.log2_self_le pos.ne'
  · have := @Nat.lt_log2_self n
    rw [show (n.log2 : Int) + 1 = ((n.log2 + 1 : Nat) : Int) from rfl, zpow_natCast]
    exact_mod_cast this

theorem exists_exponentOf (hn : 0 < n) (hd : 0 < d) :
    ∃ E, IsAround E (n / d) ∧ exponentOf n d = max E leastExponent := by
  obtain ⟨nLow, nHigh⟩ := log2_bounds hn
  obtain ⟨dLow, dHigh⟩ := log2_bounds hd
  have solid : (0 : ℚ) < d := Nat.cast_pos.mpr hd
  generalize he : (n.log2 : Int) - d.log2 - 52 = e
  have low : (2 : ℚ) ^ (e + 51) < n / d := by
    rw [lt_div_iff₀ solid]
    calc (2 : ℚ) ^ (e + 51) * d < 2 ^ (e + 51) * 2 ^ ((d.log2 : Int) + 1) :=
          mul_lt_mul_of_pos_left dHigh (zpow_pos two_pos _)
      _ = 2 ^ (n.log2 : Int) := by
          rw [← two_zpow_add]
          congr 1
          omega
      _ ≤ n := nLow
  have high : (n : ℚ) / d < 2 ^ (e + 53) := by
    rw [div_lt_iff₀ solid]
    calc (n : ℚ) < 2 ^ ((n.log2 : Int) + 1) := nHigh
      _ = 2 ^ (e + 53) * 2 ^ (d.log2 : Int) := by
          rw [← two_zpow_add]
          congr 1
          omega
      _ ≤ 2 ^ (e + 53) * d := mul_le_mul_of_nonneg_left dLow (zpow_pos two_pos _).le
  have below : (unscaled n d e).1 < twos 52 * (unscaled n d e).2 ↔ (n : ℚ) / d < 2 ^ (e + 52) := by
    have positive : (0 : ℚ) < ((unscaled n d e).2 : Nat) := Nat.cast_pos.mpr (unscaled_pos hd)
    rw [← @Nat.cast_lt ℚ, unscaled_ratio hd, Nat.cast_mul, mul_lt_mul_iff_left₀ positive, cast_twos,
      div_lt_iff₀ (zpow_pos two_pos e), ← two_zpow_add, Int.add_comm]
    rfl
  by_cases small : (unscaled n d e).1 < twos 52 * (unscaled n d e).2
  · refine ⟨e - 1, ⟨?_, ?_⟩, ?_⟩
    · rw [show e - 1 + 52 = e + 51 by omega]
      exact low.le
    · rw [show e - 1 + 53 = e + 52 by omega]
      exact below.mp small
    · simp only [exponentOf, he, small, if_true]
  · refine ⟨e, ⟨not_lt.mp (mt below.mpr small), high⟩, ?_⟩
    simp only [exponentOf, he, small, if_false]

theorem exponentOf_eq (hn : 0 < n) (hd : 0 < d) (around : IsAround E (n / d)) :
    exponentOf n d = max E leastExponent := by
  obtain ⟨E', around', same⟩ := exists_exponentOf hn hd
  rw [same, around.unique around']

/-! ## Rounding -/

/-- A number of double precision: its mantissa has just 53 bits, or it is one of the smallest numbers. -/
structure Fits (m : Nat) (e : Int) : Prop where
  lt : m < twos 53
  least : leastExponent ≤ e
  greatest : e ≤ greatestExponent
  full : twos 52 ≤ m ∨ e = leastExponent

def IsCanonical : Double → Prop
  | .finite m e => Fits m.natAbs e
  | .infinite _ => True

/-- The number with a mantissa and an exponent, which may be too large. -/
def bounded (negative : Bool) (m : Nat) (e : Int) : Double :=
  if greatestExponent < e then .infinite negative else .finite (withSign negative m) e

/-- Where rounding up needs one bit more, the exponent takes it. -/
theorem ofRatio_eq (hn : n ≠ 0) (exponent : exponentOf n d = e)
    (mantissa : nearest (unscaled n d e).1 (unscaled n d e).2 = k) :
    ofRatio negative n d = if k = twos 53 then bounded negative (twos 52) (e + 1) else bounded negative k e := by
  simp only [ofRatio, hn, if_false, exponent, mantissa, beq_iff_eq, bounded]
  split <;> rfl

theorem natAbs_withSign : (withSign negative m).natAbs = m := by
  unfold withSign
  split <;> simp

theorem Fits.bounded_eq (h : Fits m e) : bounded negative m e = .finite (withSign negative m) e :=
  if_neg h.greatest.not_gt

theorem bounded_isCanonical (lt : m < twos 53) (least : leastExponent ≤ e) (full : twos 52 ≤ m ∨ e = leastExponent) :
    (bounded negative m e).IsCanonical := by
  unfold bounded
  split
  · trivial
  · rename_i small
    rw [IsCanonical, natAbs_withSign]
    exact ⟨lt, least, not_lt.mp small, full⟩

theorem ofRatio_congr (hd : 0 < d) (hd' : 0 < d') (value : (n : ℚ) / d = n' / d') :
    ofRatio negative n d = ofRatio negative n' d' := by
  have solid : (d : ℚ) ≠ 0 := Nat.cast_ne_zero.mpr hd.ne'
  have solid' : (d' : ℚ) ≠ 0 := Nat.cast_ne_zero.mpr hd'.ne'
  rcases Nat.eq_zero_or_pos n with rfl | hn
  · have zero : n' = 0 := by
      simpa [solid'] using value.symm
    rw [zero, ofRatio, ofRatio]
    rfl
  · have hn' : 0 < n' := by
      refine Nat.pos_of_ne_zero fun zero => ?_
      simp [zero, hn.ne', solid] at value
    obtain ⟨E, around, exponent⟩ := exists_exponentOf hn hd
    rw [value] at around
    have exponent' := exponentOf_eq hn' hd' around
    rw [← exponent'] at exponent
    have mantissa : nearest (unscaled n d (exponentOf n' d')).1 (unscaled n d (exponentOf n' d')).2 =
        nearest (unscaled n' d' (exponentOf n' d')).1 (unscaled n' d' (exponentOf n' d')).2 := by
      refine nearest_congr (unscaled_pos hd) (unscaled_pos hd') ?_
      rw [← @Nat.cast_inj ℚ, Nat.cast_mul, Nat.cast_mul, unscaled_ratio hd, unscaled_ratio hd', value]
      ring
    simp only [ofRatio, hn.ne', hn'.ne', if_false, exponent, mantissa]

theorem nearest_unscaled_le (hd : 0 < d) (h : (n : ℚ) / d / 2 ^ e < k + 1 / 2) :
    nearest (unscaled n d e).1 (unscaled n d e).2 ≤ k := by
  have positive : (0 : ℚ) < ((unscaled n d e).2 : Nat) := Nat.cast_pos.mpr (unscaled_pos hd)
  refine nearest_le ?_
  rw [← @Nat.cast_lt ℚ]
  push_cast
  rw [unscaled_ratio hd]
  nlinarith

theorem le_nearest_unscaled (hd : 0 < d) (h : (k : ℚ) - 1 / 2 < n / d / 2 ^ e) :
    k ≤ nearest (unscaled n d e).1 (unscaled n d e).2 := by
  have positive : (0 : ℚ) < ((unscaled n d e).2 : Nat) := Nat.cast_pos.mpr (unscaled_pos hd)
  refine le_nearest (unscaled_pos hd) ?_
  rw [← @Nat.cast_lt ℚ]
  push_cast
  rw [unscaled_ratio hd]
  nlinarith

theorem nearest_unscaled (hd : 0 < d) (h : |(n : ℚ) / d / 2 ^ e - k| < 1 / 2) :
    nearest (unscaled n d e).1 (unscaled n d e).2 = k := by
  rw [abs_lt] at h
  exact Nat.le_antisymm (nearest_unscaled_le hd (by linarith)) (le_nearest_unscaled hd (by linarith))

theorem Fits.lt_cast (h : Fits m e) : (m : ℚ) + 1 ≤ 2 ^ 53 := by
  have := h.lt
  rw [twos, Nat.lt_iff_add_one_le] at this
  exact_mod_cast this

/-- The value is nearer to a number than the half of its last bit. The last bit of the numbers below a power of two
counts half as much as that of the others. -/
def IsNear (m : Nat) (e : Int) (x : ℚ) : Prop := 2 ^ 54 * |x - m * 2 ^ e| < m * 2 ^ e

theorem IsNear.scaled {x : ℚ} (h : IsNear m e x) : |x / 2 ^ e - m| < m / 2 ^ 54 := by
  have unit : (0 : ℚ) < 2 ^ e := zpow_pos two_pos e
  have apart : x - m * 2 ^ e = (x / 2 ^ e - m) * 2 ^ e := by
    field_simp
  rw [IsNear, apart, abs_mul, abs_of_pos unit, ← mul_assoc] at h
  rw [lt_div_iff₀' (by positivity)]
  exact lt_of_mul_lt_mul_right h unit.le

theorem IsNear.half {x : ℚ} (fits : Fits m e) (h : IsNear m e x) : |x / 2 ^ e - m| < 1 / 2 := by
  have most := fits.lt_cast
  have scaled := h.scaled
  linarith

theorem IsNear.pos {x : ℚ} (pos : 0 < m) (h : IsNear m e x) : 0 < x := by
  have unit : (0 : ℚ) < 2 ^ e := zpow_pos two_pos e
  have least : (1 : ℚ) ≤ m := by exact_mod_cast pos
  have scaled : 0 < x / 2 ^ e := by
    have := (abs_lt.mp h.scaled).1
    linarith
  rw [← div_mul_cancel₀ x unit.ne']
  exact mul_pos scaled unit

/-- What is near to a number has its exponent, or is a little less than a power of two. -/
theorem IsNear.around {x : ℚ} (fits : Fits m e) (pos : 0 < m) (near : IsNear m e x) (around : IsAround E x) :
    max E leastExponent = e ∨ m = twos 52 ∧ max E leastExponent = e - 1 := by
  have unit : (0 : ℚ) < 2 ^ e := zpow_pos two_pos e
  have most := fits.lt_cast
  have least : (1 : ℚ) ≤ m := by exact_mod_cast pos
  obtain ⟨above, below⟩ := abs_lt.mp near.scaled
  have notAbove : E < e + 1 := by
    have : (2 : ℚ) ^ (E + 52) < 2 ^ (e + 53) := by
      refine around.1.trans_lt ?_
      rw [two_zpow_add, ← div_lt_iff₀' unit]
      norm_num
      linarith
    have := lt_of_two_zpow_lt this
    omega
  by_cases same : max E leastExponent = e
  · exact .inl same
  have normal : twos 52 ≤ m := fits.full.resolve_right fun isLeast => same (by omega)
  have normal : (2 : ℚ) ^ 52 ≤ m := by
    rw [twos] at normal
    exact_mod_cast normal
  have isBelow : E = e - 1 := by
    have : (2 : ℚ) ^ (e + 51) < 2 ^ (E + 53) := by
      refine lt_trans ?_ around.2
      rw [two_zpow_add, ← lt_div_iff₀' unit]
      norm_num
      linarith
    have := lt_of_two_zpow_lt this
    have := fits.least
    omega
  refine .inr ⟨Nat.le_antisymm (Nat.lt_succ_iff.mp ?_) (by rw [twos]; exact_mod_cast normal), ?_⟩
  · have less : x / 2 ^ e < 2 ^ 52 := by
      have := around.2
      rw [isBelow, show e - 1 + 53 = e + 52 by omega, two_zpow_add, ← div_lt_iff₀' unit] at this
      norm_num at this ⊢
      exact this
    rw [← @Nat.cast_lt ℚ]
    push_cast [twos]
    linarith
  · have := fits.least
    omega

theorem ofRatio_of_near (fits : Fits m e) (pos : 0 < m) (hd : 0 < d) (near : IsNear m e (n / d)) :
    ofRatio negative n d = .finite (withSign negative m) e := by
  have hn : 0 < n := by
    have := near.pos pos
    refine Nat.pos_of_ne_zero fun zero => ?_
    simp [zero] at this
  obtain ⟨E, around, exponent⟩ := exists_exponentOf hn hd
  rcases near.around fits pos around with same | ⟨power, less⟩
  · rw [same] at exponent
    rw [ofRatio_eq hn.ne' exponent (nearest_unscaled hd (near.half fits)), if_neg fits.lt.ne, fits.bounded_eq]
  · rw [less] at exponent
    suffices mantissa : nearest (unscaled n d (e - 1)).1 (unscaled n d (e - 1)).2 = twos 53 by
      rw [ofRatio_eq hn.ne' exponent mantissa, if_pos rfl, ← power, Int.sub_add_cancel, fits.bounded_eq]
    refine nearest_unscaled hd ?_
    have twice : (n : ℚ) / d / 2 ^ (e - 1) - twos 53 = 2 * ((n : ℚ) / d / 2 ^ e - m) := by
      rw [power, cast_twos, cast_twos, zpow_sub_one₀ two_ne_zero]
      field_simp
      norm_num
      ring
    have scaled := near.scaled
    rw [power, cast_twos] at scaled
    rw [twice, abs_mul, power, cast_twos]
    norm_num at scaled ⊢
    linarith

theorem ofRatio_self (fits : Fits m e) (pos : 0 < m) (hd : 0 < d) (value : (n : ℚ) / d = m * 2 ^ e) :
    ofRatio negative n d = .finite (withSign negative m) e := by
  refine ofRatio_of_near fits pos hd ?_
  rw [IsNear, value, sub_self, abs_zero, mul_zero]
  positivity

/-! ## What rounding gives -/

theorem zero_isCanonical : zero.IsCanonical := ⟨Nat.pow_pos Nat.two_pos, le_refl _, by decide, .inr rfl⟩

theorem ofRatio_isCanonical (hd : 0 < d) : (ofRatio negative n d).IsCanonical := by
  rcases Nat.eq_zero_or_pos n with rfl | hn
  · exact zero_isCanonical
  obtain ⟨E, around, exponent⟩ := exists_exponentOf hn hd
  generalize he : exponentOf n d = e at exponent
  have unit : (0 : ℚ) < 2 ^ e := zpow_pos two_pos e
  have most : nearest (unscaled n d e).1 (unscaled n d e).2 ≤ twos 53 := by
    refine nearest_unscaled_le hd ?_
    have scaled : (n : ℚ) / d / 2 ^ e < 2 ^ (53 : Int) := by
      rw [div_lt_iff₀' unit, ← two_zpow_add]
      refine around.2.trans_le (zpow_le_zpow_right₀ one_le_two ?_)
      omega
    rw [cast_twos]
    linarith
  have full : e ≠ leastExponent → twos 52 ≤ nearest (unscaled n d e).1 (unscaled n d e).2 := by
    intro normal
    refine le_nearest_unscaled hd ?_
    have scaled : (2 : ℚ) ^ (52 : Int) ≤ n / d / 2 ^ e := by
      rw [le_div_iff₀' unit, ← two_zpow_add, show e = E by omega]
      exact around.1
    rw [cast_twos]
    linarith
  have least : leastExponent ≤ e := by omega
  rw [ofRatio_eq hn.ne' he rfl]
  split
  · exact bounded_isCanonical (by decide) (by omega) (.inl (le_refl _))
  · rename_i less
    exact bounded_isCanonical (by omega) least (by tauto)

/-- A fraction that is less than the largest number and the half of its last bit is not too large. -/
theorem ofRatio_finite (hd : 0 < d) (small : (n : ℚ) / d < (2 ^ 54 - 1) * 2 ^ (greatestExponent - 1)) :
    ∃ m e, ofRatio negative n d = .finite m e := by
  rcases Nat.eq_zero_or_pos n with rfl | hn
  · exact ⟨_, _, rfl⟩
  obtain ⟨E, around, exponent⟩ := exists_exponentOf hn hd
  generalize he : exponentOf n d = e at exponent
  have top : (2 : ℚ) ^ greatestExponent = 2 ^ (greatestExponent - 1) * 2 := by
    rw [zpow_sub_one₀ two_ne_zero]
    field_simp
  have notAbove : E ≤ greatestExponent := by
    have : (2 : ℚ) ^ (E + 52) < 2 ^ (greatestExponent + 53) := by
      refine (around.1.trans_lt small).trans ?_
      rw [two_zpow_add, top, mul_assoc, mul_comm]
      refine mul_lt_mul_of_pos_left ?_ (zpow_pos two_pos _)
      norm_num
    have := lt_of_two_zpow_lt this
    omega
  rw [ofRatio_eq hn.ne' he rfl]
  have notLarge : ¬greatestExponent < e := by
    rw [exponent]
    unfold leastExponent greatestExponent at *
    omega
  split
  · rename_i carries
    have notLast : e ≠ greatestExponent := by
      rintro rfl
      have : nearest (unscaled n d greatestExponent).1 (unscaled n d greatestExponent).2 ≤ twos 53 - 1 := by
        refine nearest_unscaled_le hd ?_
        rw [div_lt_iff₀' (zpow_pos two_pos _), top]
        refine small.trans_eq ?_
        have last : ((twos 53 - 1 : Nat) : ℚ) = 2 ^ 53 - 1 := by
          rw [show twos 53 - 1 = 9007199254740991 from rfl]
          norm_num
        rw [last]
        ring
      rw [carries] at this
      exact absurd this (by decide)
    exact ⟨_, _, if_neg (by omega)⟩
  · exact ⟨_, _, if_neg notLarge⟩

theorem ofNat_isCanonical (n : Nat) : (ofNat n).IsCanonical := ofRatio_isCanonical Nat.one_pos

theorem ofDecimal_isCanonical (digits : Nat) (exponent : Int) : (ofDecimal digits exponent).IsCanonical := by
  simp only [ofDecimal]
  split
  · exact zero_isCanonical
  · split
    · trivial
    · exact ofRatio_isCanonical (Nat.pow_pos (by decide))

theorem IsCanonical.neg {x : Double} (h : x.IsCanonical) : x.neg.IsCanonical := by
  cases x with
  | finite m e => rwa [Double.neg, IsCanonical, Int.natAbs_neg]
  | infinite negative => trivial

theorem succ_isCanonical {x : Double} : x.succ.IsCanonical := by
  cases x with
  | finite m e => exact ofRatio_isCanonical (Nat.pow_pos Nat.two_pos)
  | infinite negative => trivial

theorem ratio_pos (m e : Int) : 0 < (ratio m e).2 := Nat.pow_pos Nat.two_pos

theorem ratio_value (m e : Int) : ((ratio m e).1 : ℚ) / (ratio m e).2 = m.natAbs * 2 ^ e := by
  simp only [ratio, Nat.cast_mul, cast_twos]
  rcases Int.le_total 0 e with whole | fraction
  · rw [Int.toNat_of_nonneg whole, Int.toNat_of_nonpos (by omega)]
    simp
  · rw [Int.toNat_of_nonpos fraction, Int.toNat_of_nonneg (by omega), zpow_neg]
    simp

/-- One more is never too large: the largest number stays as it is. -/
theorem succ_finite {m e : Int} (h : (finite m e).IsCanonical) : ∃ m' e', (finite m e).succ = .finite m' e' := by
  refine ofRatio_finite (ratio_pos m e) ?_
  have most := h.lt_cast
  have unit : (0 : ℚ) < 2 ^ (greatestExponent - 1) := zpow_pos two_pos _
  have solid : (0 : ℚ) < (ratio m e).2 := Nat.cast_pos.mpr (ratio_pos m e)
  have top : (2 : ℚ) ^ e ≤ 2 ^ (greatestExponent - 1) * 2 := by
    rw [← zpow_add_one₀ two_ne_zero, Int.sub_add_cancel]
    exact zpow_le_zpow_right₀ one_le_two h.greatest
  have large : (1 : ℚ) < 2 ^ (greatestExponent - 1) := one_lt_zpow₀ one_lt_two (by decide)
  have added : ((m * twos e.toNat + (ratio m e).2).natAbs : ℚ) ≤ (ratio m e).1 + (ratio m e).2 := by
    have := Int.natAbs_add_le (m * twos e.toNat) (ratio m e).2
    rw [Int.natAbs_mul, Int.natAbs_natCast, Int.natAbs_natCast] at this
    exact_mod_cast this
  calc ((m * twos e.toNat + (ratio m e).2).natAbs : ℚ) / (ratio m e).2
      ≤ ((ratio m e).1 + (ratio m e).2) / (ratio m e).2 := div_le_div_of_nonneg_right added solid.le
    _ = m.natAbs * 2 ^ e + 1 := by rw [add_div, ratio_value, div_self solid.ne']
    _ ≤ (2 ^ 53 - 1) * (2 ^ (greatestExponent - 1) * 2) + 1 := by
      have : (m.natAbs : ℚ) * 2 ^ e ≤ (2 ^ 53 - 1) * (2 ^ (greatestExponent - 1) * 2) :=
        mul_le_mul (by linarith) top (zpow_pos two_pos e).le (by norm_num)
      linarith
    _ < (2 ^ 54 - 1) * 2 ^ (greatestExponent - 1) := by linarith

theorem ofLiteral?_isCanonical {text : String} {x : Double} (h : ofLiteral? text = some x) : x.IsCanonical := by
  have digits : ∀ radix cs, ofDigits? radix cs = some x → x.IsCanonical := by
    intro radix cs h
    obtain ⟨n, -, rfl⟩ := Option.map_eq_some_iff.mp h
    exact ofNat_isCanonical n
  have decimal : ∀ cs, ofDecimalText? cs = some x → x.IsCanonical := by
    intro cs h
    unfold ofDecimalText? at h
    dsimp only at h
    obtain ⟨n, -, h⟩ := Option.bind_eq_some_iff.mp h
    split at h
    · cases h
      exact ofDecimal_isCanonical _ _
    · obtain ⟨exponent, -, h⟩ := Option.bind_eq_some_iff.mp h
      cases h
      exact ofDecimal_isCanonical _ _
  rw [ofLiteral?, Option.orElse_eq_orElse, Option.orElse_eq_or, Option.or_eq_some_iff] at h
  rcases h with h | ⟨-, h⟩
  · split at h
    · exact digits _ _ h
    · exact digits _ _ h
    · exact digits _ _ h
    · cases h
  · exact decimal _ h

/-! ## Digits that are near enough -/

variable {digits count : Nat} {exponent : Int}

theorem cast_tens_pos (k : Nat) : (0 : ℚ) < tens k := Nat.cast_pos.mpr (Nat.pow_pos (by decide))

theorem ten_zpow_pos (i : Int) : (0 : ℚ) < 10 ^ i := zpow_pos (by norm_num) i

theorem tens_ratio (digits : Nat) (exponent : Int) :
    ((digits * tens exponent.toNat : Nat) : ℚ) / tens (-exponent).toNat = digits * 10 ^ exponent := by
  rw [Nat.cast_mul, cast_tens, cast_tens]
  rcases Int.le_total 0 exponent with whole | fraction
  · rw [Int.toNat_of_nonneg whole, Int.toNat_of_nonpos (by omega)]
    simp
  · rw [Int.toNat_of_nonpos fraction, Int.toNat_of_nonneg (by omega), zpow_neg]
    simp

theorem length_toDigits_bounds (pos : 0 < n) :
    (10 : ℚ) ^ ((Nat.toDigits 10 n).length - 1 : Int) ≤ n ∧ (n : ℚ) < 10 ^ ((Nat.toDigits 10 n).length : Int) := by
  have some : 0 < (Nat.toDigits 10 n).length := Nat.length_toDigits_pos
  constructor
  · obtain ⟨k, hk⟩ : ∃ k, (Nat.toDigits 10 n).length = k + 1 := ⟨_, (Nat.succ_pred some.ne').symm⟩
    have least : 10 ^ k ≤ n := by
      rcases Nat.eq_zero_or_pos k with rfl | positive
      · exact pos
      · by_contra less
        have := (Nat.length_toDigits_le_iff (by decide) positive).mpr (not_le.mp less)
        omega
    rw [hk, Nat.cast_succ, add_sub_cancel_right, zpow_natCast]
    exact_mod_cast least
  · have := (Nat.length_toDigits_le_iff (b := 10) (n := n) (by decide) some).mp (le_refl _)
    rw [zpow_natCast]
    exact_mod_cast this

theorem tens_succ (k : Nat) : tens (k + 1) = tens k * 10 := rfl

theorem toDigits_mul_tens (pos : 0 < n) (k : Nat) :
    Nat.toDigits 10 (n * tens k) = Nat.toDigits 10 n ++ List.replicate k '0' := by
  induction k with
  | zero => simp [tens]
  | succ k ih =>
    have positive : 0 < n * tens k := Nat.mul_pos pos (Nat.pow_pos (by decide))
    have step := Nat.toDigits_append_toDigits (b := 10) (d := 0) (by decide) positive (by decide)
    have shifted : 10 * (n * tens k) + 0 = n * tens (k + 1) := by
      rw [tens_succ]
      ring
    rw [shifted, Nat.toDigits_zero] at step
    rw [← step, ih, List.replicate_succ', List.append_assoc]

theorem ofDecimal_mul_tens (pos : 0 < n) (k : Nat) (exponent : Int) :
    ofDecimal (n * tens k) exponent = ofDecimal n (exponent + k) := by
  have solid : n * tens k ≠ 0 := (Nat.mul_pos pos (Nat.pow_pos (by decide))).ne'
  have magnitude : ((Nat.toDigits 10 (n * tens k)).length : Int) + exponent =
      (Nat.toDigits 10 n).length + (exponent + k) := by
    rw [toDigits_mul_tens pos, List.length_append, List.length_replicate]
    omega
  have value : ofRatio false (n * tens k * tens exponent.toNat) (tens (-exponent).toNat) =
      ofRatio false (n * tens (exponent + k).toNat) (tens (-(exponent + k)).toNat) := by
    refine ofRatio_congr (Nat.pow_pos (by decide)) (Nat.pow_pos (by decide)) ?_
    rw [tens_ratio, tens_ratio, Nat.cast_mul, cast_tens, zpow_add₀ (by norm_num)]
    ring
  simp only [ofDecimal, solid, pos.ne', magnitude, value]

theorem wholeDigits_bounds (hd : 0 < d) (least : (10 : ℚ) ^ (-329 : Int) ≤ n / d) :
    (10 : ℚ) ^ (wholeDigits n d - 1) ≤ n / d ∧ (n : ℚ) / d < 10 ^ wholeDigits n d := by
  have solid : (0 : ℚ) < d := Nat.cast_pos.mpr hd
  unfold wholeDigits
  split
  · rename_i whole
    have pos : 0 < n / d := Nat.div_pos whole hd
    obtain ⟨low, high⟩ := length_toDigits_bounds pos
    refine ⟨low.trans Nat.cast_div_le, ?_⟩
    have next : ((n / d : Nat) : ℚ) + 1 ≤ 10 ^ ((Nat.toDigits 10 (n / d)).length : Int) := by
      rw [zpow_natCast] at high ⊢
      exact_mod_cast high
    refine lt_of_lt_of_le ?_ next
    rw [div_lt_iff₀ solid]
    exact_mod_cast Nat.lt_mul_of_div_lt (Nat.lt_succ_self _) hd
  · rename_i less
    obtain ⟨j, found⟩ : ∃ j, ((List.range 330).find? fun j => d ≤ n * tens j) = some j := by
      refine Option.isSome_iff_exists.mp (List.find?_isSome.mpr ⟨329, by decide, decide_eq_true ?_⟩)
      rw [le_div_iff₀ solid, zpow_neg, inv_mul_le_iff₀ (ten_zpow_pos _)] at least
      rw [← @Nat.cast_le ℚ, Nat.cast_mul, cast_tens, mul_comm]
      exact least
    rw [found, Option.getD_some]
    obtain ⟨enough, -, fewer⟩ := List.find?_range_eq_some.mp found
    have enough : (d : ℚ) ≤ n * 10 ^ (j : Int) := by
      rw [← cast_tens]
      exact_mod_cast of_decide_eq_true enough
    cases j with
    | zero =>
      refine absurd enough (not_le.mpr ?_)
      rw [Nat.cast_zero, zpow_zero, mul_one]
      exact_mod_cast not_le.mp less
    | succ j =>
      have short : n * tens j < d := by simpa using fewer j (Nat.lt_succ_self j)
      have short : (n : ℚ) * 10 ^ (j : Int) < d := by
        rw [← cast_tens]
        exact_mod_cast short
      constructor
      · rw [show (1 : Int) - (j + 1 : Nat) - 1 = -((j + 1 : Nat) : Int) by omega, zpow_neg, le_div_iff₀ solid,
          inv_mul_le_iff₀ (ten_zpow_pos _), mul_comm]
        exact enough
      · rw [show (1 : Int) - (j + 1 : Nat) = -(j : Int) by omega, zpow_neg, div_lt_iff₀ solid,
          lt_inv_mul_iff₀ (ten_zpow_pos _), mul_comm]
        exact short

theorem zpow_lt_of_twos_lt_tens {j k : Nat} (h : twos j < tens k) : (2 : ℚ) ^ (j : Int) < 10 ^ (k : Int) := by
  rw [← cast_twos, ← cast_tens]
  exact_mod_cast h

theorem Fits.value_bounds (fits : Fits m e) (pos : 0 < m) :
    2 * (10 : ℚ) ^ (-324 : Int) < m * 2 ^ e ∧ 2 * ((m : ℚ) * 2 ^ e) < 10 ^ (309 : Int) := by
  have most := fits.lt_cast
  have some : (1 : ℚ) ≤ m := by exact_mod_cast pos
  constructor
  · have large : (2 : ℚ) ^ (1075 : Int) < 10 ^ (324 : Int) := zpow_lt_of_twos_lt_tens (by decide +kernel)
    calc 2 * (10 : ℚ) ^ (-324 : Int) < 2 * 2 ^ (-1075 : Int) := by
          rw [zpow_neg, zpow_neg]
          exact mul_lt_mul_of_pos_left (inv_strictAnti₀ (zpow_pos two_pos _) large) two_pos
      _ = 2 ^ leastExponent := by
          rw [mul_comm, ← zpow_add_one₀ two_ne_zero]
          rfl
      _ ≤ 2 ^ e := zpow_le_zpow_right₀ one_le_two fits.least
      _ ≤ m * 2 ^ e := le_mul_of_one_le_left (zpow_pos two_pos e).le some
  · have large : (2 : ℚ) ^ (1025 : Int) < 10 ^ (309 : Int) := zpow_lt_of_twos_lt_tens (by decide +kernel)
    calc 2 * ((m : ℚ) * 2 ^ e) ≤ 2 * (2 ^ (53 : Int) * 2 ^ greatestExponent) := by
          refine mul_le_mul_of_nonneg_left ?_ two_pos.le
          refine mul_le_mul ?_ (zpow_le_zpow_right₀ one_le_two fits.greatest) (zpow_pos two_pos e).le (by positivity)
          rw [zpow_ofNat]
          linarith only [most]
      _ = 2 ^ (1025 : Int) := by
          rw [← two_zpow_add, mul_comm, ← zpow_add_one₀ two_ne_zero]
          rfl
      _ < 10 ^ (309 : Int) := large

/-- A whole number of units of a decimal place that is no farther from a number than the half of a unit is read as
the number, if the number has seventeen digits before the place. -/
theorem ofDecimal_of_close (fits : Fits m e) (pos : 0 < m) (value : (n : ℚ) / d = m * 2 ^ e)
    (large : (10 : ℚ) ^ (16 : Int) * 10 ^ exponent ≤ n / d)
    (close : |digits * (10 : ℚ) ^ exponent - n / d| ≤ 10 ^ exponent / 2) :
    ofDecimal digits exponent = .finite m e := by
  have unit := ten_zpow_pos exponent
  obtain ⟨least, most⟩ := fits.value_bounds pos
  rw [← value] at least most
  have large : 20000000000000000 * ((10 : ℚ) ^ exponent / 2) ≤ n / d := by
    rw [zpow_ofNat] at large
    linarith
  obtain ⟨above, below⟩ := abs_le.mp close
  have solid : 0 < digits := by
    refine Nat.pos_of_ne_zero fun zero => ?_
    rw [zero, Nat.cast_zero, zero_mul] at above
    linarith
  obtain ⟨low, high⟩ := length_toDigits_bounds solid
  generalize magnitude : ((Nat.toDigits 10 digits).length : Int) = length at low high
  have notSmall : -324 < length + exponent := by
    refine (zpow_lt_zpow_iff_right₀ (by norm_num : (1 : ℚ) < 10)).mp ?_
    calc (10 : ℚ) ^ (-324 : Int) < digits * 10 ^ exponent := by linarith
      _ < 10 ^ length * 10 ^ exponent := mul_lt_mul_of_pos_right high unit
      _ = 10 ^ (length + exponent) := (zpow_add₀ (by norm_num) _ _).symm
  have notLarge : length - 1 + exponent < 309 := by
    refine (zpow_lt_zpow_iff_right₀ (by norm_num : (1 : ℚ) < 10)).mp ?_
    calc (10 : ℚ) ^ (length - 1 + exponent) = 10 ^ (length - 1) * 10 ^ exponent := zpow_add₀ (by norm_num) _ _
      _ ≤ digits * 10 ^ exponent := mul_le_mul_of_nonneg_right low unit.le
      _ ≤ 2 * (n / d) := by linarith only [below, large, unit]
      _ < 10 ^ (309 : Int) := most
  have near : IsNear m e ((digits * tens exponent.toNat : Nat) / (tens (-exponent).toNat : Nat)) := by
    rw [tens_ratio, IsNear, ← value]
    have : (0 : ℚ) < 10 ^ exponent / 2 := half_pos unit
    linarith
  have rounded : ofRatio false (digits * tens exponent.toNat) (tens (-exponent).toNat) = .finite m e :=
    ofRatio_of_near fits pos (Nat.pow_pos (by decide)) near
  have inRange : ¬(digits = 0 ∨ length + exponent < -330) := by omega
  have inRange' : ¬length + exponent > 310 := by omega
  simp only [ofDecimal, magnitude, Bool.or_eq_true, decide_eq_true_eq, inRange, inRange', if_false, rounded]

theorem withDigits?_isSome (fits : Fits m e) (pos : 0 < m) (hd : 0 < d) (value : (n : ℚ) / d = m * 2 ^ e) :
    (withDigits? n d 17).isSome := by
  have self : ofRatio false n d = .finite m e := ofRatio_self fits pos hd value
  obtain ⟨least, -⟩ := fits.value_bounds pos
  rw [← value] at least
  have least : (10 : ℚ) ^ (-329 : Int) ≤ n / d := by
    have : (10 : ℚ) ^ (-329 : Int) ≤ 10 ^ (-324 : Int) := zpow_le_zpow_right₀ (by norm_num) (by decide)
    have := ten_zpow_pos (-324)
    linarith
  obtain ⟨low, high⟩ := wholeDigits_bounds hd least
  generalize he : wholeDigits n d - (17 : Nat) = exponent
  have unit := ten_zpow_pos exponent
  have large : (10 : ℚ) ^ (16 : Int) * 10 ^ exponent ≤ n / d := by
    rw [← zpow_add₀ (by norm_num)]
    convert low using 2
    omega
  generalize ha : n * tens (-exponent).toNat = a
  generalize hb : d * tens exponent.toNat = b
  have positive : 0 < b := hb ▸ Nat.mul_pos hd (Nat.pow_pos (by decide))
  have scaled : (a : ℚ) / b * 10 ^ exponent = n / d := by
    have ratio := tens_ratio 1 exponent
    rw [Nat.one_mul, Nat.cast_one, one_mul] at ratio
    rw [← ratio, ← ha, ← hb, Nat.cast_mul, Nat.cast_mul]
    have := (cast_tens_pos exponent.toNat).ne'
    have := (cast_tens_pos (-exponent).toNat).ne'
    field_simp
  have floor : ((a / b : Nat) : ℚ) ≤ a / b := Nat.cast_div_le
  have ceiling : (a : ℚ) / b < (a / b : Nat) + 1 := by
    rw [div_lt_iff₀ (Nat.cast_pos.mpr positive)]
    exact_mod_cast Nat.lt_mul_of_div_lt (Nat.lt_succ_self _) positive
  have isRead : ∀ k : Nat, |(k : ℚ) - a / b| ≤ 1 / 2 → (ofDecimal k exponent == ofRatio false n d) = true := by
    intro k near
    rw [beq_iff_eq, self]
    refine ofDecimal_of_close fits pos value large ?_
    rw [← scaled, ← sub_mul, abs_mul, abs_of_pos unit]
    linarith [mul_le_mul_of_nonneg_right near unit.le]
  simp only [withDigits?, he, ha, hb, Option.isSome_map]
  rcases le_total ((a : ℚ) / b - (a / b : Nat)) (1 / 2) with low | up
  · rw [isRead (a / b) (by rw [abs_le]; constructor <;> linarith)]
    split <;> simp_all
  · rw [isRead (a / b + 1) (by rw [abs_le]; push_cast; constructor <;> linarith)]
    split <;> simp_all

theorem withDigits?_reads (hn : ofRatio false n d ≠ zero) (h : withDigits? n d count = some (digits, exponent)) :
    0 < digits ∧ ofDecimal digits exponent = ofRatio false n d := by
  simp only [withDigits?] at h
  generalize wholeDigits n d - count = place at h
  obtain ⟨found, isFound, placed⟩ := Option.map_eq_some_iff.mp h
  have isRead : ofDecimal found place = ofRatio false n d := by
    split at isFound <;> rename_i below above <;> cases isFound <;> simp only [beq_iff_eq] at below above
    · split
      · exact below
      · exact above
    · exact below
    · exact above
  have solid : 0 < found := by
    refine Nat.pos_of_ne_zero fun isZero => hn ?_
    rw [← isRead, isZero]
    rfl
  unfold atPlaces at placed
  split at placed
  · rename_i power
    cases placed
    refine ⟨Nat.one_pos, ?_⟩
    rw [← isRead, beq_iff_eq.mp power, ← ofDecimal_mul_tens Nat.one_pos, Nat.one_mul]
  · cases placed
    exact ⟨solid, isRead⟩

theorem shortest_reads (fits : Fits m e) (pos : 0 < m) (hd : 0 < d) (value : (n : ℚ) / d = m * 2 ^ e) :
    0 < (shortest n d).1 ∧ ofDecimal (shortest n d).1 (shortest n d).2 = .finite m e := by
  have self : ofRatio false n d = .finite m e := ofRatio_self fits pos hd value
  have notZero : ofRatio false n d ≠ zero := by
    rw [self]
    intro isZero
    have : (m : Int) = 0 := (Double.finite.inj isZero).1
    omega
  have found : ((List.range 17).findSome? fun i => withDigits? n d (i + 1)).isSome := by
    rw [List.findSome?_isSome_iff]
    exact ⟨16, by decide, withDigits?_isSome fits pos hd value⟩
  obtain ⟨⟨digits, exponent⟩, found⟩ := Option.isSome_iff_exists.mp found
  obtain ⟨i, -, isRead⟩ := List.exists_of_findSome?_eq_some found
  rw [shortest, found, Option.getD_some, ← self]
  exact withDigits?_reads notZero isRead

/-! ## Reading what was written -/

variable {cs whole fraction : List Char}

theorem toNat_of_isDigit {c : Char} (h : c.isDigit = true) : 48 ≤ c.toNat ∧ c.toNat ≤ 57 := by
  rw [Char.isDigit, Bool.and_eq_true, decide_eq_true_eq, decide_eq_true_eq, ge_iff_le, UInt32.le_iff_toNat_le,
    UInt32.le_iff_toNat_le] at h
  exact h

theorem toLower_of_isDigit {c : Char} (h : c.isDigit = true) : c.toLower = c := by
  have bounds := toNat_of_isDigit h
  refine dif_neg ?_
  rintro ⟨least, -⟩
  rw [ge_iff_le, UInt32.le_iff_toNat_le] at least
  exact absurd (least.trans bounds.2) (by decide)

theorem digitValue?_eq {c : Char} (h : c.isDigit = true) : digitValue? 10 c = some (c.toNat - 48) := by
  have bounds := toNat_of_isDigit h
  rw [digitValue?, if_pos h]
  exact Option.filter_some_pos (decide_eq_true (by omega))

theorem digitsValue?_eq (isDigit : ∀ c ∈ cs, c.isDigit = true) (solid : cs ≠ []) :
    digitsValue? 10 cs = some (Nat.ofDigitChars 10 cs 0) := by
  rw [digitsValue?, if_neg (by simpa using solid)]
  generalize 0 = start
  clear solid
  induction cs generalizing start with
  | nil => rfl
  | cons c cs ih =>
    rw [List.foldlM_cons, digitValue?_eq (isDigit c List.mem_cons_self), Nat.ofDigitChars_cons, Nat.mul_comm 10]
    exact ih (fun c mem => isDigit c (List.mem_cons_of_mem _ mem)) _

theorem span_of_lacks {c : Char} (lacks : c ∉ cs) : cs.span (· != c) = (cs, []) := by
  have other : ∀ x ∈ cs, (x != c) = true := fun x mem => bne_iff_ne.mpr (ne_of_mem_of_not_mem mem lacks)
  rw [List.span_eq_takeWhile_dropWhile, List.takeWhile_eq_self_iff.mpr other, List.dropWhile_eq_nil_iff.mpr other]

theorem span_append {c : Char} (lacks : c ∉ cs) (behind : List Char) :
    (cs ++ c :: behind).span (· != c) = (cs, c :: behind) := by
  have other : ∀ x ∈ cs, (x != c) = true := fun x mem => bne_iff_ne.mpr (ne_of_mem_of_not_mem mem lacks)
  rw [List.span_eq_takeWhile_dropWhile, List.takeWhile_append_of_pos other, List.dropWhile_append_of_pos other]
  simp

theorem not_mem_of_digits {c : Char} (isDigit : ∀ x ∈ cs, x.isDigit = true) (other : c.isDigit = false) : c ∉ cs :=
  fun mem => absurd (isDigit c mem) (by rw [other]; decide)

theorem ofDecimalText?_whole (isDigit : ∀ c ∈ cs, c.isDigit = true) (solid : cs ≠ []) :
    ofDecimalText? cs = some (ofDecimal (Nat.ofDigitChars 10 cs 0) 0) := by
  have noExponent := span_of_lacks (not_mem_of_digits (c := 'e') isDigit (by decide))
  have noPoint := span_of_lacks (not_mem_of_digits (c := '.') isDigit (by decide))
  simp only [ofDecimalText?, noExponent, noPoint]
  simp [digitsValue?_eq isDigit solid]

theorem ofDecimalText?_point (isDigit : ∀ c ∈ whole ++ fraction, c.isDigit = true) (solid : whole ++ fraction ≠ []) :
    ofDecimalText? (whole ++ '.' :: fraction) =
      some (ofDecimal (Nat.ofDigitChars 10 (whole ++ fraction) 0) (-fraction.length)) := by
  have lacks : 'e' ∉ whole ++ '.' :: fraction := by
    have := not_mem_of_digits (c := 'e') isDigit (by decide)
    simpa using this
  have noPoint : '.' ∉ whole := fun mem => not_mem_of_digits (c := '.') isDigit (by decide) (List.mem_append_left _ mem)
  simp only [ofDecimalText?, span_of_lacks lacks, span_append noPoint]
  simp [digitsValue?_eq isDigit solid]

/-- Nothing but digits and a point can be taken for a number with another radix. -/
theorem ofLiteral?_of_plain (plain : ∀ c ∈ cs, c.isDigit = true ∨ c = '.') :
    ofLiteral? (String.ofList cs) = ofDecimalText? cs := by
  have keeps : cs.filter (· != '_') = cs := by
    refine List.filter_eq_self.mpr fun c mem => bne_iff_ne.mpr ?_
    rintro rfl
    exact absurd (plain _ mem) (by decide)
  have lower : cs.map Char.toLower = cs := by
    conv_rhs => rw [← List.map_id cs]
    refine List.map_congr_left fun c mem => ?_
    rcases plain c mem with isDigit | rfl
    · exact toLower_of_isDigit isDigit
    · rfl
  have radix : ∀ c, (c = 'x' ∨ c = 'o' ∨ c = 'b') → c ∉ cs := by
    rintro c isRadix mem
    have := plain c mem
    rcases isRadix with rfl | rfl | rfl <;> exact absurd this (by decide)
  simp only [ofLiteral?, String.toList_ofList, keeps, lower]
  split
  · exact absurd (by simp) (radix 'x' (.inl rfl))
  · exact absurd (by simp) (radix 'o' (.inr (.inl rfl)))
  · exact absurd (by simp) (radix 'b' (.inr (.inr rfl)))
  · rfl

theorem isDigit_toDigits (n : Nat) : ∀ c ∈ Nat.toDigits 10 n, c.isDigit = true :=
  fun _ => Nat.isDigit_of_mem_toDigits (by decide) (le_refl _)

theorem ofLiteral?_toDigits (n : Nat) : ofLiteral? (String.ofList (Nat.toDigits 10 n)) = some (ofDecimal n 0) := by
  rw [ofLiteral?_of_plain fun c mem => .inl (isDigit_toDigits n c mem),
    ofDecimalText?_whole (isDigit_toDigits n) Nat.toDigits_ne_nil, Nat.ofDigitChars_ten_toDigits]

theorem ofDigitChars_zeros (k : Nat) : Nat.ofDigitChars 10 (List.replicate k '0' ++ Nat.toDigits 10 n) 0 = n := by
  rw [Nat.ofDigitChars_append, Nat.ofDigitChars_replicate_zero, Nat.mul_zero, Nat.ofDigitChars_ten_toDigits]

/-- The digits of a number with a point somewhere are read as the number. -/
theorem ofLiteral?_point (digitsOf : whole ++ fraction = List.replicate k '0' ++ Nat.toDigits 10 n) :
    ofLiteral? (String.ofList (whole ++ '.' :: fraction)) = some (ofDecimal n (-fraction.length)) := by
  have isDigit : ∀ c ∈ whole ++ fraction, c.isDigit = true := by
    rw [digitsOf]
    intro c mem
    rcases List.mem_append.mp mem with zero | digit
    · rw [List.eq_of_mem_replicate zero]
      rfl
    · exact isDigit_toDigits n c digit
  have solid : whole ++ fraction ≠ [] := by
    rw [digitsOf]
    simp [Nat.toDigits_ne_nil]
  have plain : ∀ c ∈ whole ++ '.' :: fraction, c.isDigit = true ∨ c = '.' := by
    intro c mem
    rcases List.mem_append.mp mem with inWhole | behind
    · exact .inl (isDigit c (List.mem_append_left _ inWhole))
    · rcases List.mem_cons.mp behind with point | inFraction
      · exact .inr point
      · exact .inl (isDigit c (List.mem_append_right _ inFraction))
  rw [ofLiteral?_of_plain plain, ofDecimalText?_point isDigit solid, digitsOf, ofDigitChars_zeros]

theorem ofLiteral?_positional (pos : 0 < digits) :
    ofLiteral? (positional digits exponent) = some (ofDecimal digits exponent) := by
  simp only [positional]
  split
  · rename_i isWhole
    obtain ⟨k, rfl⟩ := Int.eq_ofNat_of_zero_le isWhole
    rw [Int.toNat_natCast, ← toDigits_mul_tens pos, ofLiteral?_toDigits, ofDecimal_mul_tens pos, Int.zero_add]
  · rename_i isFraction
    have places : exponent = -((-exponent).toNat : Int) := by omega
    generalize (-exponent).toNat = k at places
    subst places
    split
    · have parts := List.take_append_drop ((Nat.toDigits 10 digits).length - k) (Nat.toDigits 10 digits)
      refine (ofLiteral?_point (k := 0) parts).trans ?_
      rw [List.length_drop]
      congr
      omega
    · have parts : ['0'] ++ (List.replicate (k - (Nat.toDigits 10 digits).length) '0' ++ Nat.toDigits 10 digits) =
        List.replicate (k - (Nat.toDigits 10 digits).length + 1) '0' ++ Nat.toDigits 10 digits := rfl
      refine (ofLiteral?_point parts).trans ?_
      rw [List.length_append, List.length_replicate]
      congr
      omega

theorem finite_eq_zero (fits : Fits 0 e) : finite 0 e = zero := by
  have : ¬twos 52 ≤ 0 := by decide
  rw [zero, fits.full.resolve_left this]

/-- A whole number with not too many digits is read as itself. -/
theorem ofDecimal_whole (fits : Fits m e) (value : (n : ℚ) = m * 2 ^ e) (small : n < tens 15) :
    ofDecimal n 0 = .finite m e := by
  have unit : (0 : ℚ) < 2 ^ e := zpow_pos two_pos e
  rcases Nat.eq_zero_or_pos n with rfl | solid
  · have isZero : m = 0 := by
      simpa [unit.ne'] using value.symm
    subst isZero
    exact (finite_eq_zero fits).symm
  · have pos : 0 < m := by
      refine Nat.pos_of_ne_zero fun isZero => ?_
      simp [isZero, solid.ne'] at value
    have few : (Nat.toDigits 10 n).length ≤ 15 := (Nat.length_toDigits_le_iff (by decide) (by decide)).mpr small
    have inRange : ¬(n = 0 ∨ ((Nat.toDigits 10 n).length : Int) + 0 < -330) := by omega
    have inRange' : ¬((Nat.toDigits 10 n).length : Int) + 0 > 310 := by omega
    have rounded : ofRatio false (n * tens (0 : Int).toNat) (tens (-0 : Int).toNat) = .finite m e := by
      refine ofRatio_self fits pos (Nat.pow_pos (by decide)) ?_
      rw [tens_ratio, zpow_zero, mul_one, value]
    simp only [ofDecimal, Bool.or_eq_true, decide_eq_true_eq, inRange, inRange', if_false, rounded]

theorem ofLiteral?_toText (fits : Fits m e) : ofLiteral? (toText (.finite m e)) = some (.finite m e) := by
  have value := ratio_value m e
  have hd := ratio_pos m e
  rw [Int.natAbs_natCast] at value
  have notNegative : signText (decide ((m : Int) < 0)) = "" := by
    rw [decide_eq_false (by omega)]
    rfl
  simp only [toText, notNegative, String.empty_append]
  generalize hn : (ratio m e).1 = n at *
  generalize (ratio m e).2 = d at *
  split
  · rename_i isWhole
    rw [Bool.and_eq_true, beq_iff_eq, decide_eq_true_eq] at isWhole
    obtain ⟨divides, small⟩ := isWhole
    have quotient : n / d * d = n := Nat.div_mul_cancel (Nat.dvd_of_mod_eq_zero divides)
    rw [Nat.toString_eq_ofList_toDigits, ofLiteral?_toDigits]
    rw [ofDecimal_whole fits ?_ small]
    rw [← value, ← quotient, Nat.cast_mul, Nat.mul_div_cancel _ hd]
    exact (mul_div_cancel_right₀ _ (Nat.cast_ne_zero.mpr hd.ne')).symm
  · rename_i notWhole
    have pos : 0 < m := by
      refine Nat.pos_of_ne_zero fun isZero => notWhole ?_
      have : n = 0 := by
        rw [← hn, isZero]
        simp [ratio]
      rw [this]
      simp [tens]
    obtain ⟨solid, reads⟩ := shortest_reads fits pos hd value
    rw [ofLiteral?_positional solid, reads]

def ofSigned? (text : String) : Option Double :=
  match text.toList with
  | '-' :: cs => (ofLiteral? (String.ofList cs)).map neg
  | _ => ofLiteral? text

theorem toText_neg (pos : 0 < m) : toText (.finite (-m) e) = "-" ++ toText (.finite m e) := by
  have ratios : ratio (-m) e = ratio m e := by rw [ratio, ratio, Int.natAbs_neg]
  have negative : decide (-(m : Int) < 0) = true := decide_eq_true (by omega)
  have notNegative : decide ((m : Int) < 0) = false := decide_eq_false (by omega)
  simp only [toText, ratios, negative, notNegative, signText, if_true, Bool.false_eq_true, if_false, String.empty_append]
  split <;> rfl

theorem ofLiteral?_sign (cs : List Char) : ofLiteral? (String.ofList ('-' :: cs)) = none := by
  have kept : ('-' :: cs).filter (· != '_') = '-' :: cs.filter (· != '_') := List.filter_cons_of_pos (by decide)
  have lower : '-'.toLower = '-' := by decide
  have notDigit : digitValue? 10 '-' = none := by decide
  simp only [ofLiteral?, String.toList_ofList, kept, List.map_cons, lower, ofDecimalText?,
    List.span_eq_takeWhile_dropWhile]
  simp [digitsValue?, notDigit]

theorem ofSigned?_toText {m e : Int} (canonical : (finite m e).IsCanonical) :
    ofSigned? (toText (.finite m e)) = some (.finite m e) := by
  rcases Int.lt_or_le m 0 with negative | notNegative
  · obtain ⟨k, rfl⟩ : ∃ k : Nat, m = -k := ⟨m.natAbs, by omega⟩
    have fits : Fits k e := by simpa [IsCanonical] using canonical
    have reads := ofLiteral?_toText fits
    rw [toText_neg (by omega), ofSigned?, String.toList_append]
    show (ofLiteral? (String.ofList (toText (.finite k e)).toList)).map neg = _
    rw [String.ofList_toList, reads]
    rfl
  · obtain ⟨k, rfl⟩ := Int.eq_ofNat_of_zero_le notNegative
    have reads : ofLiteral? (toText (.finite k e)) = some (.finite k e) := ofLiteral?_toText canonical
    unfold ofSigned?
    split
    · rename_i cs sign
      rw [← String.ofList_toList (s := toText _), sign, ofLiteral?_sign] at reads
      cases reads
    · exact reads

end ScriptFrontend.Double
