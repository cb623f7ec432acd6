import Mathlib

/-!
# Rounding to 53 significant bits

The arithmetic of binary64 as it is on the rationals, as long as no result overflows.
`Representable` says that a rational has at most 53 significant bits and no bit below `2 ^ (-1074)`,
and `IsNearest` that one is a nearest such rational. `nearest` takes the nearest one, the even one
of two that are as near (`isNearest_nearest`), and `add`, `sub`, `mul` and `div` round the exact
result with it.

Rounding keeps what is representable (`nearest_of_representable`) and the order
(`nearest_le_nearest`), so a rounded result lies on the same side of a representable number as the
rational it is rounded from (`le_of_isNearest`, `ge_of_isNearest`). What is representable below a
natural number keeps a distance from it (`div_le_natCast_sub`).
-/

set_option autoImplicit false
set_option relaxedAutoImplicit false

namespace LiveCDN.Library.Binary64

/-! ### Representable numbers -/

/-- A rational with at most 53 significant bits, none of them below `2 ^ (-1074)`. -/
def Representable (x : ℚ) : Prop := ∃ k e : ℤ, |k| < 2 ^ 53 ∧ -1074 ≤ e ∧ x = k * 2 ^ e

/-- A nearest rational with at most 53 significant bits. -/
def IsNearest (x r : ℚ) : Prop :=
  Representable r ∧ ∀ y, Representable y → |r - x| ≤ |y - x|

theorem representable_natCast {n : ℕ} (hn : n < 2 ^ 53) : Representable n :=
  ⟨n, 0, by rwa [Nat.abs_cast, ← Nat.cast_ofNat, ← Nat.cast_pow, Nat.cast_lt], by norm_num, by simp⟩

/-- A rational of eighths is representable. Assumes: the number of eighths has 53 bits. -/
theorem representable_div_eight {k : ℕ} (hk : k < 2 ^ 53) : Representable (k / 8) :=
  ⟨k, -3, by rwa [Nat.abs_cast, ← Nat.cast_ofNat, ← Nat.cast_pow, Nat.cast_lt], by norm_num, by
    rw [zpow_neg, Int.cast_natCast, div_eq_mul_inv]
    norm_num⟩

/-- The largest number of bits is allowed to overflow into the next power of two. -/
theorem representable_of_le {k e : ℤ} (hk : |k| ≤ 2 ^ 53) (he : -1074 ≤ e) :
    Representable (k * 2 ^ e) := by
  rcases hk.lt_or_eq with hlt | heq
  · exact ⟨k, e, hlt, he, rfl⟩
  · have hhalf : ∃ h : ℤ, k = 2 * h ∧ |h| = 2 ^ 52 := by
      rcases abs_choice k with habs | habs
      · exact ⟨2 ^ 52, by rw [← habs, heq]; norm_num, by norm_num⟩
      · exact ⟨-2 ^ 52, by rw [← neg_neg k, ← habs, heq]; norm_num, by norm_num⟩
    obtain ⟨h, rfl, habs⟩ := hhalf
    refine ⟨h, e + 1, by rw [habs]; norm_num, by omega, ?_⟩
    rw [zpow_add_one₀ (by norm_num)]
    push_cast
    ring

/-! ### Rounding to an integer -/

/-- The integer nearest to a rational, the even one of two that are as near. -/
def nearestEven (x : ℚ) : ℤ :=
  if Int.fract x < 1 / 2 then ⌊x⌋
  else if 1 / 2 < Int.fract x then ⌊x⌋ + 1
  else if ⌊x⌋ % 2 = 0 then ⌊x⌋
  else ⌊x⌋ + 1

/-- No integer is nearer. -/
theorem abs_nearestEven_sub_le (x : ℚ) (m : ℤ) : |(nearestEven x : ℚ) - x| ≤ |(m : ℚ) - x| := by
  have hsplit := Int.floor_add_fract x
  have hlow := Int.fract_nonneg x
  have hhigh := Int.fract_lt_one x
  -- An integer is not above the floor or not below the next one.
  have hm : Int.fract x ≤ |(m : ℚ) - x| ∨ 1 - Int.fract x ≤ |(m : ℚ) - x| := by
    rcases le_or_gt m ⌊x⌋ with hle | hgt
    · have hle' : (m : ℚ) ≤ ⌊x⌋ := by exact_mod_cast hle
      left
      rw [abs_of_nonpos (by linarith)]
      linarith
    · have hge : (⌊x⌋ : ℚ) + 1 ≤ m := by exact_mod_cast hgt
      right
      rw [abs_of_nonneg (by linarith)]
      linarith
  have hfloor : |(⌊x⌋ : ℚ) - x| = Int.fract x := by
    rw [abs_of_nonpos (by linarith)]
    linarith
  have hceil : |((⌊x⌋ + 1 : ℤ) : ℚ) - x| = 1 - Int.fract x := by
    push_cast
    rw [abs_of_nonneg (by linarith)]
    linarith
  unfold nearestEven
  split_ifs with hbelow habove heven
  · rw [hfloor]
    rcases hm with hm | hm <;> linarith
  · rw [hceil]
    rcases hm with hm | hm <;> linarith
  · rw [hfloor]
    rcases hm with hm | hm <;> linarith
  · rw [hceil]
    rcases hm with hm | hm <;> linarith

/-- A rational between two bounds rounds to an integer between them. -/
theorem abs_nearestEven_le {x : ℚ} {bound : ℤ} (hx : |x| ≤ bound) : |nearestEven x| ≤ bound := by
  obtain ⟨hlow, hhigh⟩ := abs_le.mp hx
  rw [abs_le]
  constructor
  · by_contra hless
    have hless' : (nearestEven x : ℚ) < ((-bound : ℤ) : ℚ) := by exact_mod_cast not_le.mp hless
    have hnear := abs_nearestEven_sub_le x (-bound)
    push_cast at hless' hnear
    rw [abs_of_nonpos (by linarith), abs_of_nonpos (by linarith)] at hnear
    linarith
  · by_contra hmore
    have hmore' : (bound : ℚ) < nearestEven x := by exact_mod_cast not_le.mp hmore
    have hnear := abs_nearestEven_sub_le x bound
    rw [abs_of_nonneg (by linarith), abs_of_nonneg (by linarith)] at hnear
    linarith

/-! ### Rounding -/

/-- The exponent of the last bit that a result is rounded to. -/
def lastBit (x : ℚ) : ℤ := max (Int.log 2 |x| - 52) (-1074)

/-- A rational rounded to nearest, ties to even. -/
def nearest (x : ℚ) : ℚ := nearestEven (x / 2 ^ lastBit x) * 2 ^ lastBit x

/-- The result of an addition. -/
def add (x y : ℚ) : ℚ := nearest (x + y)

/-- The result of a subtraction. -/
def sub (x y : ℚ) : ℚ := nearest (x - y)

/-- The result of a multiplication. -/
def mul (x y : ℚ) : ℚ := nearest (x * y)

/-- The result of a division. -/
def div (x y : ℚ) : ℚ := nearest (x / y)

example : nearest (3 / 10) = 5404319552844595 / 2 ^ 54 := by decide +kernel

example : add (nearest (1 / 10)) (nearest (2 / 10)) ≠ nearest (3 / 10) := by decide +kernel

/-- A rational has 53 bits before the last one that it is rounded to. -/
theorem abs_div_lastBit_le (x : ℚ) : |x / 2 ^ lastBit x| ≤ 2 ^ 53 := by
  have hpos : (0 : ℚ) < 2 ^ lastBit x := by positivity
  have hlog : |x| < 2 ^ (Int.log 2 |x| + 1) := by
    exact_mod_cast Int.lt_zpow_succ_log_self (one_lt_two) |x|
  have hexp : Int.log 2 |x| + 1 ≤ 53 + lastBit x := by
    have hmax := le_max_left (Int.log 2 |x| - 52) (-1074)
    unfold lastBit
    omega
  rw [abs_div, abs_of_pos hpos, div_le_iff₀ hpos, ← zpow_natCast, ← zpow_add₀ (by norm_num)]
  exact hlog.le.trans (zpow_le_zpow_right₀ (by norm_num) hexp)

/-- A rounded number is representable. -/
theorem representable_nearest (x : ℚ) : Representable (nearest x) := by
  have hbound : |nearestEven (x / 2 ^ lastBit x)| ≤ 2 ^ 53 :=
    abs_nearestEven_le (by exact_mod_cast abs_div_lastBit_le x)
  exact representable_of_le hbound (le_max_right _ _)

/-- No multiple of the last bit is nearer than the rounded number. -/
theorem abs_nearest_sub_le (x : ℚ) (m : ℤ) :
    |nearest x - x| ≤ |(m : ℚ) * 2 ^ lastBit x - x| := by
  have hpos : (0 : ℚ) < 2 ^ lastBit x := by positivity
  have hscale : ∀ n : ℤ, |(n : ℚ) * 2 ^ lastBit x - x| =
      |(n : ℚ) - x / 2 ^ lastBit x| * 2 ^ lastBit x := by
    intro n
    rw [← abs_of_pos hpos, ← abs_mul, abs_of_pos hpos, sub_mul, div_mul_cancel₀ _ hpos.ne']
  rw [nearest, hscale, hscale]
  exact mul_le_mul_of_nonneg_right (abs_nearestEven_sub_le _ m) hpos.le

/-- The rounded number is a nearest one. -/
theorem isNearest_nearest (x : ℚ) : IsNearest x (nearest x) := by
  refine ⟨representable_nearest x, ?_⟩
  rintro y ⟨k, e, hk, he, rfl⟩
  rcases le_or_gt (lastBit x) e with hfine | hcoarse
  · -- A multiple of the last bit.
    obtain ⟨f, hf⟩ := Int.eq_ofNat_of_zero_le (sub_nonneg.mpr hfine)
    have hmultiple : (k : ℚ) * 2 ^ e = ((k * 2 ^ f : ℤ) : ℚ) * 2 ^ lastBit x := by
      have hsplit : e = (f : ℤ) + lastBit x := by omega
      rw [hsplit, zpow_add₀ (by norm_num), zpow_natCast]
      push_cast
      ring
    rw [hmultiple]
    exact abs_nearest_sub_le x _
  · -- A number with a smaller last bit is below all rationals of this size.
    have hlast : lastBit x = Int.log 2 |x| - 52 :=
      max_eq_left (le_of_not_gt fun hless ↦ by
        rw [lastBit, max_eq_right hless.le] at hcoarse
        omega)
    rcases eq_or_ne x 0 with rfl | hx
    · have hzero := abs_nearest_sub_le 0 0
      rw [Int.cast_zero, zero_mul, sub_self, abs_zero] at hzero
      exact hzero.trans (abs_nonneg _)
    · have hsize : (2 : ℚ) ^ 52 * 2 ^ lastBit x ≤ |x| := by
        have hlog : (2 : ℚ) ^ Int.log 2 |x| ≤ |x| := by
          exact_mod_cast Int.zpow_log_le_self one_lt_two (abs_pos.mpr hx)
        rw [← zpow_natCast, ← zpow_add₀ (by norm_num), hlast]
        convert hlog using 2
        push_cast
        ring
      have hk' : |(k : ℚ)| ≤ 2 ^ 53 := by exact_mod_cast hk.le
      have hsmall : |(k : ℚ) * 2 ^ e| ≤ 2 ^ 52 * 2 ^ lastBit x := by
        have hstep : (2 : ℚ) ^ 53 * 2 ^ e ≤ 2 ^ 52 * 2 ^ lastBit x := by
          rw [← zpow_natCast, ← zpow_natCast, ← zpow_add₀ (by norm_num), ← zpow_add₀ (by norm_num)]
          exact zpow_le_zpow_right₀ (by norm_num) (by push_cast; omega)
        rw [abs_mul, abs_of_pos (show (0 : ℚ) < 2 ^ e by positivity)]
        exact (mul_le_mul_of_nonneg_right hk' (by positivity)).trans hstep
      have hfar : |x| - |(k : ℚ) * 2 ^ e| ≤ |(k : ℚ) * 2 ^ e - x| := by
        rw [abs_sub_comm]
        exact abs_sub_abs_le_abs_sub _ _
      -- The smallest multiple of this size on the same side is nearer.
      have hcandidate : ∃ m : ℤ, |(m : ℚ) * 2 ^ lastBit x - x| = |x| - 2 ^ 52 * 2 ^ lastBit x := by
        rcases abs_choice x with habs | habs
        · refine ⟨2 ^ 52, ?_⟩
          push_cast
          rw [abs_of_nonpos (by linarith)]
          linarith
        · refine ⟨-2 ^ 52, ?_⟩
          push_cast
          rw [abs_of_nonneg (by linarith)]
          linarith
      obtain ⟨m, hm⟩ := hcandidate
      have hnear := abs_nearest_sub_le x m
      linarith

/-- What is representable is not changed. -/
theorem nearest_of_representable {x : ℚ} (hx : Representable x) : nearest x = x := by
  have hnear := (isNearest_nearest x).2 x hx
  rw [sub_self, abs_zero] at hnear
  exact sub_eq_zero.mp (abs_nonpos_iff.mp hnear)

/-! ### Order -/

/-- A rounded result stays above a representable lower bound. -/
theorem le_of_isNearest {x r y : ℚ} (hr : IsNearest x r) (hy : Representable y) (hyx : y ≤ x) :
    y ≤ r := by
  by_contra hlow
  have hnear := hr.2 y hy
  rw [abs_of_nonpos (by linarith), abs_of_nonpos (by linarith)] at hnear
  linarith

/-- A rounded result stays below a representable upper bound. -/
theorem ge_of_isNearest {x r y : ℚ} (hr : IsNearest x r) (hy : Representable y) (hxy : x ≤ y) :
    r ≤ y := by
  by_contra hhigh
  have hnear := hr.2 y hy
  rw [abs_of_nonneg (by linarith), abs_of_nonneg (by linarith)] at hnear
  linarith

/-- Rounding keeps the order. -/
theorem nearest_le_nearest {x y : ℚ} (hxy : x ≤ y) : nearest x ≤ nearest y := by
  rcases hxy.eq_or_lt with rfl | hlt
  · exact le_refl _
  by_contra hswap
  have hx := (isNearest_nearest x).2 _ (representable_nearest y)
  have hy := (isNearest_nearest y).2 _ (representable_nearest x)
  -- Each of the two is the nearer one, so both lie beyond the middle.
  rcases abs_cases (nearest x - x) with h | h <;> rcases abs_cases (nearest y - y) with g | g <;>
    rcases abs_cases (nearest y - x) with h' | h' <;>
      rcases abs_cases (nearest x - y) with g' | g' <;> linarith

/-- What is representable below a natural number keeps a distance from it. Assumes: the number is at
most `2 ^ 53`. -/
theorem div_le_natCast_sub {n : ℕ} (hn : n ≤ 2 ^ 53) {r : ℚ} (hr : Representable r)
    (hlow : r < n) : (n : ℚ) / 2 ^ 53 ≤ n - r := by
  obtain ⟨k, e, hk, -, rfl⟩ := hr
  have hn' : (n : ℚ) ≤ 2 ^ 53 := by exact_mod_cast hn
  have hk' : (k : ℚ) + 1 ≤ 2 ^ 53 := by exact_mod_cast (abs_lt.mp hk).2
  rcases Int.eq_nat_or_neg e with ⟨f, rfl | rfl⟩
  · -- A multiple of one.
    have hint : ((k * 2 ^ f : ℤ) : ℚ) = (k : ℚ) * 2 ^ (f : ℤ) := by push_cast; rfl
    have hstep : (k * 2 ^ f : ℤ) + 1 ≤ n := by
      rw [← hint] at hlow
      exact_mod_cast hlow
    have hstep' : (k : ℚ) * 2 ^ (f : ℤ) + 1 ≤ n := by rw [← hint]; exact_mod_cast hstep
    have hdiv : (n : ℚ) / 2 ^ 53 ≤ 1 := (div_le_one (by positivity)).mpr hn'
    linarith
  · -- A multiple of a power of one half.
    have hpow : (0 : ℚ) < 2 ^ f := by positivity
    have hvalue : (k : ℚ) * 2 ^ (-(f : ℤ)) = k / 2 ^ f := by
      rw [zpow_neg, zpow_natCast, div_eq_mul_inv]
    rw [hvalue, div_lt_iff₀ hpow] at hlow
    have hstep : (k : ℚ) + 1 ≤ n * 2 ^ f := by exact_mod_cast hlow
    rw [hvalue, le_sub_iff_add_le, div_add_div _ _ (by positivity) hpow.ne',
      div_le_iff₀ (by positivity)]
    rcases le_total ((n : ℚ) * 2 ^ f) (2 ^ 53) with hsmall | hlarge
    · nlinarith
    · nlinarith

end LiveCDN.Library.Binary64
