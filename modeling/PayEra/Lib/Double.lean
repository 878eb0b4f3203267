import Mathlib.Data.Int.Log
import PayEra.Lib.Decimal

/-!
# Doubles

Numbers as JavaScript has them: the rationals with 53 binary digits, what a rational is rounded to, and
how `Number` and `toFixed` read and write.
-/

namespace Double

open Decimal (Number)

/-! ### Rounding -/

/-- The nearest integer, and the even one of two. -/
def nearest (x : ℚ) : ℤ :=
  if Int.fract x < 1 / 2 then ⌊x⌋
  else if 1 / 2 < Int.fract x then ⌊x⌋ + 1
  else if Even ⌊x⌋ then ⌊x⌋
  else ⌊x⌋ + 1

/-- The exponent of the last binary digit. -/
def exponent (x : ℚ) : ℤ := max (Int.log 2 |x| - 52) (-1074)

/-- The nearest double, where exponents have no upper bound. -/
def round (x : ℚ) : ℚ := nearest (x / 2 ^ exponent x) * 2 ^ exponent x

/-- 53 binary digits, the last of them no smaller than the least double. -/
def IsDouble (x : ℚ) : Prop := ∃ m e : ℤ, |m| ≤ 2 ^ 53 ∧ -1074 ≤ e ∧ x = m * 2 ^ e

/-- `x + y`, of doubles whose sum is not too large for one. -/
def add (x y : ℚ) : ℚ := round (x + y)

/-- The number of a rational. -/
def ofRat (x : ℚ) : Number :=
  if 2 ^ 1024 ≤ |round x| then .infinite (x < 0) else .finite (round x)

def ofNumber : Number → Number
  | .finite x => ofRat x
  | .infinite negative => .infinite negative

/-- `Number.isFinite(n) ? n : 0` -/
def finiteOr0 : Number → ℚ
  | .finite x => x
  | .infinite _ => 0

/-- `n > 0` -/
def positive : Number → Bool
  | .finite x => 0 < x
  | .infinite negative => !negative

/-! ### Writing -/

/-- A multiple of the power of ten that is rounded to the number: the nearer of the two next to it, if
that one is, or else the other one. -/
def multiple (x : ℚ) (e : ℕ) : Option ℕ :=
  let near := nearest (x / 10 ^ e)
  let far := 2 * ⌊x / 10 ^ e⌋ + 1 - near
  ([near, far].find? fun s : ℤ => round (s * 10 ^ e) = x).map Int.toNat

/-- The digits of an integer, and the zeros after them. -/
structure Digits where
  digits : ℕ
  zeros : ℕ
  deriving DecidableEq

def Digits.value (d : Digits) : ℚ := d.digits * 10 ^ d.zeros

/-- As many zeros as there can be. -/
def shorten (x : ℚ) : ℕ → Digits
  | 0 => { digits := ⌊x⌋.toNat, zeros := 0 }
  | e + 1 =>
    match multiple x (e + 1) with
    | some s => { digits := s, zeros := e + 1 }
    | none => shorten x e

/-- The shortest digits that are read as the double, which is an integer. -/
def shortest (x : ℚ) : Digits := shorten x (Int.log 10 x + 1).toNat

/-- One digit before the point, and the exponent. -/
def Digits.scientific (d : Digits) : List Char :=
  let fraction := (Nat.toDigits 10 d.digits).tail
  (Nat.toDigits 10 d.digits).head?.toList ++ (if fraction = [] then [] else '.' :: fraction) ++
    'e' :: '+' :: Nat.toDigits 10 (d.zeros + fraction.length)

/-- From here on `toFixed` writes an exponent. -/
def fixedBound : ℚ := 10 ^ 21

def toFixed : Number → ℕ → List Char
  | .finite x, decimals =>
    if fixedBound ≤ x then (shortest x).scientific
    else if x ≤ -fixedBound then '-' :: (shortest (-x)).scientific
    else Decimal.toFixed x decimals
  | .infinite negative, _ => if negative then '-' :: Decimal.infinity else Decimal.infinity

/-! ### The nearest integer -/

variable {x y : ℚ} {e : ℤ}

@[simp] lemma nearest_intCast (n : ℤ) : nearest n = n := by simp [nearest]

lemma abs_nearest_sub_le (x : ℚ) : |(nearest x : ℚ) - x| ≤ 1 / 2 := by
  have hfloor : (⌊x⌋ : ℚ) = x - Int.fract x := (Int.self_sub_fract x).symm
  have hnonneg := Int.fract_nonneg x
  have hlt := Int.fract_lt_one x
  rw [nearest, abs_le]
  split_ifs <;> push_cast <;> constructor <;> linarith

lemma nearest_mono (h : x ≤ y) : nearest x ≤ nearest y := by
  by_contra hlt
  have hstep : nearest y + 1 ≤ nearest x := by omega
  have hcast : (nearest y : ℚ) + 1 ≤ nearest x := by exact_mod_cast hstep
  have hx := abs_le.mp (abs_nearest_sub_le x)
  have hy := abs_le.mp (abs_nearest_sub_le y)
  -- Both are a half away, so the numbers are one.
  have heq : x = y := by linarith
  rw [heq] at hlt
  exact hlt le_rfl

lemma le_nearest {n : ℤ} (h : n ≤ x) : n ≤ nearest x := by
  have hmono := nearest_mono h
  rwa [nearest_intCast] at hmono

lemma nearest_le {n : ℤ} (h : x ≤ n) : nearest x ≤ n := by
  have hmono := nearest_mono h
  rwa [nearest_intCast] at hmono

/-! ### What is rounded is a double -/

lemma two_zpow_pos (e : ℤ) : (0 : ℚ) < 2 ^ e := zpow_pos two_pos e

/-- A number has no more than 53 binary digits before the last one. -/
lemma abs_lt_of_exponent (x : ℚ) : |x| < 2 ^ 53 * 2 ^ exponent x := by
  have hlog : |x| < 2 ^ (Int.log 2 |x| + 1) := Int.lt_zpow_succ_log_self one_lt_two |x|
  have hexponent : Int.log 2 |x| + 1 ≤ 53 + exponent x := by
    have := le_max_left (Int.log 2 |x| - 52) (-1074)
    rw [exponent]
    omega
  calc |x| < 2 ^ (Int.log 2 |x| + 1) := hlog
    _ ≤ 2 ^ (53 + exponent x) := zpow_le_zpow_right₀ one_le_two hexponent
    _ = 2 ^ 53 * 2 ^ exponent x := zpow_add₀ two_ne_zero _ _

lemma isDouble_round (x : ℚ) : IsDouble (round x) := by
  have habs := abs_lt_of_exponent x
  have hpos := two_zpow_pos (exponent x)
  rw [← div_lt_iff₀ hpos, ← abs_of_pos hpos, ← abs_div, abs_lt] at habs
  refine ⟨nearest (x / 2 ^ exponent x), exponent x, abs_le.mpr ⟨?_, ?_⟩, le_max_right _ _, rfl⟩
  · apply le_nearest
    push_cast
    exact habs.1.le
  · apply nearest_le
    push_cast
    exact habs.2.le

/-! ### A double is not rounded -/

/-- On a multiple of the last digit nothing is done. -/
lemma round_of_multiple {n : ℤ} (h : x = n * 2 ^ exponent x) : round x = x := by
  have hdiv : x / 2 ^ exponent x = n := by
    rw [div_eq_iff (two_zpow_pos _).ne']
    exact h
  rw [round, hdiv, nearest_intCast]
  exact h.symm

lemma exponent_le {m : ℤ} (hm : |m| < 2 ^ 53) (he : -1074 ≤ e) (hne : m ≠ 0) :
    exponent (m * 2 ^ e) ≤ e := by
  have hpos : (0 : ℚ) < |(m : ℚ) * 2 ^ e| :=
    abs_pos.mpr (mul_ne_zero (Int.cast_ne_zero.mpr hne) (two_zpow_pos e).ne')
  have hlt : |(m : ℚ) * 2 ^ e| < 2 ^ (53 + e) := by
    rw [abs_mul, abs_of_pos (two_zpow_pos e), zpow_add₀ two_ne_zero]
    apply mul_lt_mul_of_pos_right _ (two_zpow_pos e)
    exact_mod_cast hm
  have hlog := (Int.lt_zpow_iff_log_lt one_lt_two hpos).mp hlt
  exact max_le (by omega) he

lemma round_of_lt {m : ℤ} (hm : |m| < 2 ^ 53) (he : -1074 ≤ e) :
    round (m * 2 ^ e) = m * 2 ^ e := by
  by_cases hne : m = 0
  · have hzero : ((m : ℚ) * 2 ^ e) = 0 := by rw [hne, Int.cast_zero, zero_mul]
    rw [hzero]
    apply round_of_multiple (n := 0)
    rw [Int.cast_zero, zero_mul]
  · obtain ⟨k, hk⟩ := Int.eq_ofNat_of_zero_le (sub_nonneg.mpr (exponent_le hm he hne))
    apply round_of_multiple (n := m * 2 ^ k)
    have hsplit : e = (k : ℤ) + exponent (m * 2 ^ e) := by omega
    conv_lhs => rw [hsplit]
    rw [zpow_add₀ two_ne_zero, zpow_natCast]
    push_cast
    ring

lemma round_of_isDouble (h : IsDouble x) : round x = x := by
  obtain ⟨m, e, hm, he, rfl⟩ := h
  rcases hm.lt_or_eq with hlt | heq
  · exact round_of_lt hlt he
  · -- The last digit of 2⁵³ is zero.
    have hhalf : ∃ n : ℤ, |n| < 2 ^ 53 ∧ m = n * 2 := by
      rcases (abs_eq (by decide)).mp heq with rfl | rfl
      · exact ⟨2 ^ 52, by decide, rfl⟩
      · exact ⟨-2 ^ 52, by decide, rfl⟩
    obtain ⟨n, hn, rfl⟩ := hhalf
    have hshift : ((n * 2 : ℤ) : ℚ) * 2 ^ e = n * 2 ^ (e + 1) := by
      rw [zpow_add_one₀ two_ne_zero]
      push_cast
      ring
    rw [hshift]
    exact round_of_lt hn (by omega)

@[simp] lemma round_round (x : ℚ) : round (round x) = round x := round_of_isDouble (isDouble_round x)

lemma isDouble_intCast {n : ℤ} (h : |n| ≤ 2 ^ 53) : IsDouble n :=
  ⟨n, 0, h, by decide, by rw [zpow_zero, mul_one]⟩

lemma round_intCast {n : ℤ} (h : |n| ≤ 2 ^ 53) : round n = n := round_of_isDouble (isDouble_intCast h)

/-- Integers are added exactly, up to a bound. -/
lemma add_intCast {m n : ℤ} (h : |m + n| ≤ 2 ^ 53) : add m n = m + n := by
  have hround := round_intCast h
  rwa [Int.cast_add] at hround

@[simp] lemma round_zero : round 0 = 0 := by
  have hround := round_intCast (n := 0) (by decide)
  rwa [Int.cast_zero] at hround

lemma isDouble_two_zpow (he : -1074 ≤ e) : IsDouble (2 ^ e) :=
  ⟨1, e, by decide, he, by rw [Int.cast_one, one_mul]⟩

/-! ### Order -/

lemma round_nonneg (h : 0 ≤ x) : 0 ≤ round x := by
  apply mul_nonneg _ (two_zpow_pos _).le
  have hnearest : (0 : ℤ) ≤ nearest (x / 2 ^ exponent x) := by
    apply le_nearest
    rw [Int.cast_zero]
    exact div_nonneg h (two_zpow_pos _).le
  exact_mod_cast hnearest

lemma exponent_mono (h : 0 < x) (hle : x ≤ y) : exponent x ≤ exponent y := by
  rw [exponent, exponent, abs_of_pos h, abs_of_pos (h.trans_le hle)]
  have hlog : Int.log 2 x ≤ Int.log 2 y := Int.log_mono_right h hle
  omega

/-- With one exponent. -/
lemma round_le_of_exponent (h : exponent x = exponent y) (hle : x ≤ y) : round x ≤ round y := by
  rw [round, round, h]
  apply mul_le_mul_of_nonneg_right _ (two_zpow_pos _).le
  exact_mod_cast nearest_mono (div_le_div_of_nonneg_right hle (two_zpow_pos _).le)

/-- Between two exponents there is a power of two. -/
lemma round_le_of_lt (hlt : exponent x < exponent y) (hy : 0 < y) : round x ≤ round y := by
  have hlarge : exponent y = Int.log 2 y - 52 := by
    have hfloor : -1074 ≤ exponent x := le_max_right _ _
    have hmax : exponent y = max (Int.log 2 y - 52) (-1074) := by rw [exponent, abs_of_pos hy]
    omega
  obtain ⟨k, hk⟩ := Int.eq_ofNat_of_zero_le (sub_nonneg.mpr hlt.le)
  have hbelow : round x ≤ 2 ^ 53 * 2 ^ exponent x := by
    rw [round]
    apply mul_le_mul_of_nonneg_right _ (two_zpow_pos _).le
    have hnearest : nearest (x / 2 ^ exponent x) ≤ 2 ^ 53 := by
      apply nearest_le
      rw [div_le_iff₀ (two_zpow_pos _)]
      push_cast
      exact (le_abs_self x).trans (abs_lt_of_exponent x).le
    exact_mod_cast hnearest
  have habove : 2 ^ 52 * 2 ^ exponent y ≤ round y := by
    rw [round]
    apply mul_le_mul_of_nonneg_right _ (two_zpow_pos _).le
    have hnearest : 2 ^ 52 ≤ nearest (y / 2 ^ exponent y) := by
      apply le_nearest
      rw [le_div_iff₀ (two_zpow_pos _)]
      push_cast
      have hlog : (2 : ℚ) ^ Int.log 2 y ≤ y := Int.zpow_log_le_self one_lt_two hy
      have hsplit : Int.log 2 y = 52 + exponent y := by omega
      rw [hsplit, zpow_add₀ two_ne_zero] at hlog
      exact hlog
    exact_mod_cast hnearest
  calc round x ≤ 2 ^ 53 * 2 ^ exponent x := hbelow
    _ = 2 ^ 52 * 2 ^ (exponent x + 1) := by
      rw [zpow_add_one₀ two_ne_zero]
      ring
    _ ≤ 2 ^ 52 * 2 ^ exponent y := by
      gcongr
      · exact one_le_two
      · omega
    _ ≤ round y := habove

lemma round_mono (h : 0 ≤ x) (hle : x ≤ y) : round x ≤ round y := by
  rcases h.eq_or_lt with rfl | hpos
  · rw [round_zero]
    exact round_nonneg hle
  · rcases (exponent_mono hpos hle).eq_or_lt with heq | hlt
    · exact round_le_of_exponent heq hle
    · exact round_le_of_lt hlt (hpos.trans_le hle)

/-- A bound that is a double stays. -/
lemma round_le (h : 0 ≤ x) (hle : x ≤ y) (hy : IsDouble y) : round x ≤ y := by
  have hmono := round_mono h hle
  rwa [round_of_isDouble hy] at hmono

lemma le_round (h : 0 ≤ x) (hle : x ≤ y) (hx : IsDouble x) : x ≤ round y := by
  have hmono := round_mono h hle
  rwa [round_of_isDouble hx] at hmono

/-- Doubles are multiples of the least one. -/
lemma IsDouble.exists_multiple (h : IsDouble x) : ∃ n : ℤ, x = n * 2 ^ (-1074 : ℤ) := by
  obtain ⟨m, e, -, he, rfl⟩ := h
  obtain ⟨k, hk⟩ := Int.eq_ofNat_of_zero_le (sub_nonneg.mpr he)
  refine ⟨m * 2 ^ k, ?_⟩
  have hsplit : e = (k : ℤ) + (-1074) := by omega
  rw [hsplit, zpow_add₀ two_ne_zero, zpow_natCast, Int.cast_mul, Int.cast_pow, Int.cast_ofNat,
    mul_assoc]

/-- The difference of two doubles is not lost. -/
lemma round_sub_pos (hx : IsDouble x) (hy : IsDouble y) (h : x < y) : 0 < round (y - x) := by
  obtain ⟨m, rfl⟩ := hx.exists_multiple
  obtain ⟨n, rfl⟩ := hy.exists_multiple
  have hlt : m < n := by
    have := lt_of_mul_lt_mul_right h (two_zpow_pos _).le
    exact_mod_cast this
  have hstep : (1 : ℚ) ≤ n - m := by exact_mod_cast (show (1 : ℤ) ≤ n - m by omega)
  have hle : (2 : ℚ) ^ (-1074 : ℤ) ≤ n * 2 ^ (-1074 : ℤ) - m * 2 ^ (-1074 : ℤ) := by
    rw [← sub_mul]
    exact le_mul_of_one_le_left (two_zpow_pos _).le hstep
  exact (two_zpow_pos _).trans_le (le_round (two_zpow_pos _).le hle (isDouble_two_zpow le_rfl))

/-! ### Numbers -/

lemma ofRat_of_lt (h : |round x| < 2 ^ 1024) : ofRat x = .finite (round x) := if_neg h.not_ge

/-- Integers are read exactly, up to a bound. -/
lemma ofRat_natCast {n : ℕ} (h : n ≤ 2 ^ 53) : ofRat n = .finite n := by
  have hround : round n = n := round_intCast (n := n) (by exact_mod_cast h)
  have hle : (n : ℚ) ≤ 2 ^ 53 := by exact_mod_cast h
  have hlt : |round n| < 2 ^ 1024 := by
    rw [hround, abs_of_nonneg (Nat.cast_nonneg n)]
    exact hle.trans_lt (pow_lt_pow_right₀ one_lt_two (by decide))
  rw [ofRat_of_lt hlt, hround]

lemma isDouble_finiteOr0 (x : ℚ) : IsDouble (finiteOr0 (ofRat x)) := by
  rw [ofRat]
  split_ifs
  · exact ⟨0, 0, by decide, by decide, by rw [Int.cast_zero, zero_mul, finiteOr0]⟩
  · exact isDouble_round x

lemma abs_finiteOr0_lt (x : ℚ) : |finiteOr0 (ofRat x)| < 2 ^ 1024 := by
  rw [ofRat]
  split_ifs with h
  · rw [finiteOr0, abs_zero]
    positivity
  · exact not_le.mp h

lemma finiteOr0_nonneg (h : 0 ≤ x) : 0 ≤ finiteOr0 (ofRat x) := by
  rw [ofRat]
  split_ifs
  · exact le_rfl
  · exact round_nonneg h

/-- What is left of a double is finite. -/
lemma ofRat_sub (hx : 0 ≤ x) (hle : x ≤ y) (hy : IsDouble y) (hlt : |y| < 2 ^ 1024) :
    ofRat (y - x) = .finite (round (y - x)) := by
  apply ofRat_of_lt
  rw [abs_of_nonneg (round_nonneg (sub_nonneg.mpr hle))]
  calc round (y - x) ≤ y := round_le (sub_nonneg.mpr hle) (sub_le_self y hx) hy
    _ ≤ |y| := le_abs_self y
    _ < 2 ^ 1024 := hlt

/-! ### Quotients -/

lemma abs_round_sub_le (x : ℚ) : |round x - x| ≤ 2 ^ exponent x / 2 := by
  have hpos := two_zpow_pos (exponent x)
  have hscaled : round x - x = (nearest (x / 2 ^ exponent x) - x / 2 ^ exponent x) * 2 ^ exponent x := by
    rw [round, sub_mul, div_mul_cancel₀ _ hpos.ne']
  rw [hscaled, abs_mul, abs_of_pos hpos]
  linarith [mul_le_mul_of_nonneg_right (abs_nearest_sub_le (x / 2 ^ exponent x)) hpos.le]

lemma two_zpow_exponent_lt {b : ℚ} (hx : 0 < x) (hxb : x < 2 ^ 52 * b) (hb : 2 ^ (-1074 : ℤ) < b) :
    2 ^ exponent x < b := by
  rw [exponent, abs_of_pos hx]
  rcases max_choice (Int.log 2 x - 52) (-1074) with hmax | hmax
  · have hlog : (2 : ℚ) ^ Int.log 2 x ≤ x := Int.zpow_log_le_self one_lt_two hx
    have hdigits : (0 : ℚ) < 2 ^ (52 : ℤ) := two_zpow_pos 52
    rw [hmax, zpow_sub₀ two_ne_zero, div_lt_iff₀ hdigits, mul_comm b]
    exact hlog.trans_lt hxb
  · rw [hmax]
    exact hb

lemma round_div_le {n l : ℕ} (hl : 0 < l) (hn : n < 2 ^ 53) : round (n / l) ≤ ((2 ^ 53 : ℤ) : ℚ) := by
  have hpos : (0 : ℚ) < l := Nat.cast_pos.mpr hl
  refine round_le (div_nonneg (Nat.cast_nonneg n) hpos.le) ?_ (isDouble_intCast (by norm_num))
  rw [div_le_iff₀ hpos]
  exact_mod_cast hn.le.trans (Nat.le_mul_of_pos_right _ hl)

lemma ofRat_div {n l : ℕ} (hl : 0 < l) (hn : n < 2 ^ 53) :
    ofRat (n / l) = .finite (round (n / l)) := by
  have hnonneg : (0 : ℚ) ≤ round (n / l) :=
    round_nonneg (div_nonneg (Nat.cast_nonneg n) (Nat.cast_nonneg l))
  apply ofRat_of_lt
  rw [abs_of_nonneg hnonneg]
  apply (round_div_le hl hn).trans_lt
  rw [Int.cast_pow, Int.cast_ofNat]
  exact pow_lt_pow_right₀ one_lt_two (by decide)

/-- The quotient of two integers is rounded to no integer that it is not. -/
lemma lt_round_div_iff {p n l : ℕ} (hl : 0 < l) (hle : l ≤ 2 ^ 53) (hn : n < 2 ^ 53) :
    (p : ℚ) < round (n / l) ↔ p * l < n := by
  have hpos : (0 : ℚ) < l := Nat.cast_pos.mpr hl
  have hquot : (0 : ℚ) ≤ n / l := div_nonneg (Nat.cast_nonneg n) hpos.le
  constructor
  · intro h
    by_contra hnot
    have hbelow : (n / l : ℚ) ≤ p := by
      rw [div_le_iff₀ hpos]
      exact_mod_cast not_lt.mp hnot
    -- an integer up to the bound is a double, and the quotient is no larger than the bound
    rcases le_total p (2 ^ 53) with hp | hp
    · exact (round_le hquot hbelow (isDouble_intCast (n := p) (by exact_mod_cast hp))).not_gt h
    · have hcast : ((2 ^ 53 : ℤ) : ℚ) ≤ p := by exact_mod_cast hp
      exact ((round_div_le hl hn).trans hcast).not_gt h
  · intro h
    have hpn : (p : ℚ) * l + 1 ≤ n := by exact_mod_cast h
    have hnlt : (n : ℚ) < 2 ^ 53 := by exact_mod_cast hn
    have hstep : (p : ℚ) + 1 / l ≤ n / l := by
      rw [← sub_nonneg]
      have heq : (n : ℚ) / l - (p + 1 / l) = (n - (p * l + 1)) / l := by
        field_simp
      rw [heq]
      exact div_nonneg (sub_nonneg.mpr hpn) hpos.le
    have hn0 : (0 : ℚ) < n := by exact_mod_cast (Nat.zero_le _).trans_lt h
    have hexponent : (2 : ℚ) ^ exponent (n / l) < 2 / l := by
      refine two_zpow_exponent_lt (div_pos hn0 hpos) ?_ ?_
      · rw [div_lt_iff₀ hpos, mul_assoc, div_mul_cancel₀ _ hpos.ne']
        linarith
      · rw [lt_div_iff₀ hpos]
        have hl53 : (l : ℚ) ≤ 2 ^ 53 := by exact_mod_cast hle
        calc (2 : ℚ) ^ (-1074 : ℤ) * l ≤ 2 ^ (-1074 : ℤ) * 2 ^ (53 : ℤ) :=
            mul_le_mul_of_nonneg_left hl53 (two_zpow_pos _).le
          _ = 2 ^ (-1021 : ℤ) := by rw [← zpow_add₀ two_ne_zero]; rfl
          _ < 2 ^ (1 : ℤ) := zpow_lt_zpow_right₀ one_lt_two (by decide)
          _ = 2 := zpow_one 2
    have herr := (abs_le.mp (abs_round_sub_le ((n : ℚ) / l))).1
    have hhalf : (2 : ℚ) / l / 2 = 1 / l := by ring
    linarith

/-! ### Reading an exponent -/

lemma exponent_toDigits (n : ℕ) : Decimal.exponent ('e' :: '+' :: Nat.toDigits 10 n) = n := by
  have htake : (Nat.toDigits 10 n).takeWhile Char.isDigit = Nat.toDigits 10 n :=
    List.takeWhile_eq_self_iff.mpr Decimal.isDigit_toDigits
  have hvalue := Decimal.value_toDigits n 0
  rw [List.replicate_zero, List.nil_append] at hvalue
  rw [Decimal.exponent, if_pos (.inl rfl)]
  simp only [htake, hvalue]

lemma isExponent_toDigits (n : ℕ) :
    Decimal.isExponent ('e' :: '+' :: Nat.toDigits 10 n) = true := by
  have hne : Nat.toDigits 10 n ≠ [] := List.ne_nil_of_length_pos Nat.length_toDigits_pos
  simpa [Decimal.isExponent] using And.intro hne Decimal.isDigit_toDigits

lemma scientific_eq (d : Digits) : ∃ c fraction, Nat.toDigits 10 d.digits = c :: fraction ∧
    d.scientific = [c] ++ ((if fraction = [] then [] else '.' :: fraction) ++
      'e' :: '+' :: Nat.toDigits 10 (d.zeros + fraction.length)) := by
  obtain ⟨c, fraction, hcons⟩ := List.exists_cons_of_length_pos
    (Nat.length_toDigits_pos (b := 10) (n := d.digits))
  refine ⟨c, fraction, hcons, ?_⟩
  simp [Digits.scientific, hcons]

/-- The number before the exponent, and the exponent. -/
lemma unsigned_scientific (d : Digits) : Decimal.unsigned d.scientific = some (.finite d.value) ∧
    Decimal.isUnsigned d.scientific = true := by
  obtain ⟨c, fraction, hcons, htext⟩ := scientific_eq d
  have hdigits : ∀ c' ∈ c :: fraction, c'.isDigit := by
    rw [← hcons]
    exact Decimal.isDigit_toDigits
  have hc : ∀ c' ∈ [c], c'.isDigit := by
    intro c' hc'
    exact hdigits c' (by simp_all)
  have hvalue : Decimal.value (c :: fraction) = d.digits := by
    have := Decimal.value_toDigits d.digits 0
    rwa [List.replicate_zero, List.nil_append, hcons] at this
  rw [htext, Digits.value]
  split_ifs with hnil
  · subst hnil
    constructor
    · rw [List.nil_append, Decimal.unsigned_digits (by simp) hc (by simp)]
      simp [Decimal.number, hvalue, exponent_toDigits]
    · obtain ⟨-, hdrop⟩ := Decimal.takeWhile_digits
        (t := 'e' :: '+' :: Nat.toDigits 10 (d.zeros + List.length [])) hc (by simp)
      rw [List.nil_append, Decimal.isUnsigned, hdrop]
      simp [isExponent_toDigits]
  · obtain ⟨htake, hdrop⟩ := Decimal.takeWhile_digits
      (t := 'e' :: '+' :: Nat.toDigits 10 (d.zeros + fraction.length))
      (fun c' (hc' : c' ∈ fraction) => hdigits c' (List.mem_cons_of_mem c hc')) (by simp)
    constructor
    · rw [Decimal.unsigned_digits (by simp) hc (by simp), List.cons_append]
      simp only [Decimal.number, htake, hdrop, exponent_toDigits]
      simp [hvalue, zpow_natCast]
    · obtain ⟨-, hpoint⟩ := Decimal.takeWhile_digits (t := '.' :: fraction ++
        'e' :: '+' :: Nat.toDigits 10 (d.zeros + fraction.length)) hc (by simp)
      rw [Decimal.isUnsigned, hpoint]
      simp [hdrop, isExponent_toDigits]

lemma isSpace_scientific (d : Digits) : ∀ c ∈ d.scientific, Decimal.isSpace c = false := by
  intro c hc
  have hdigit (n : ℕ) (h : c ∈ Nat.toDigits 10 n) := Decimal.isSpace_digit (Decimal.isDigit_toDigits c h)
  obtain ⟨c', fraction, hcons, htext⟩ := scientific_eq d
  have hmem : c ∈ Nat.toDigits 10 d.digits ∨ c = '.' ∨ c = 'e' ∨ c = '+' ∨
      c ∈ Nat.toDigits 10 (d.zeros + fraction.length) := by
    rw [htext] at hc
    rw [hcons]
    split_ifs at hc <;> simp_all <;> tauto
  rcases hmem with h | rfl | rfl | rfl | h
  · exact hdigit _ h
  · rfl
  · rfl
  · rfl
  · exact hdigit _ h

lemma radix_scientific (d : Digits) : Decimal.radix d.scientific = none := by
  obtain ⟨c, fraction, -, htext⟩ := scientific_eq d
  rw [htext]
  split_ifs
  · exact Decimal.radix_cons_cons rfl
  · exact Decimal.radix_cons_cons rfl

/-- **Round trip.** -/
theorem toNumber_scientific (d : Digits) :
    Decimal.toNumber d.scientific = some (.finite d.value) := by
  obtain ⟨hread, hunsigned⟩ := unsigned_scientific d
  obtain ⟨c, fraction, hcons, htext⟩ := scientific_eq d
  have hc : c.isDigit := Decimal.isDigit_toDigits (n := d.digits) c (by simp [hcons])
  have hne : d.scientific ≠ [] := by simp [htext]
  rw [Decimal.toNumber, Decimal.trim_eq_self (isSpace_scientific d)]
  simp only [if_neg hne, radix_scientific]
  rw [htext, List.singleton_append] at hread hunsigned ⊢
  rw [Decimal.isDecimal_cons hc, hunsigned, if_pos rfl, Decimal.parseFloat_cons hc, hread]

lemma fixedBound_lt : fixedBound < 2 ^ 1024 :=
  calc (10 : ℚ) ^ 21 < 2 ^ 70 := by norm_num
    _ ≤ 2 ^ 1024 := pow_le_pow_right₀ one_le_two (by decide)

/-- What `toFixed` writes of a number that is not negative. -/
def fixed (x : ℚ) (decimals : ℕ) : ℚ :=
  if fixedBound ≤ x then (shortest x).value else Decimal.rounded x decimals

/-- **Round trip.** -/
theorem toNumber_toFixed (h : 0 ≤ x) (decimals : ℕ) :
    Decimal.toNumber (toFixed (.finite x) decimals) = some (.finite (fixed x decimals)) := by
  have hpos : ¬x ≤ -fixedBound := by
    rw [fixedBound]
    linarith
  rw [toFixed, fixed]
  split_ifs
  · exact toNumber_scientific _
  · exact Decimal.toNumber_toFixed x decimals

lemma fixed_nonneg (h : 0 ≤ x) (decimals : ℕ) : 0 ≤ fixed x decimals := by
  rw [fixed]
  split_ifs
  · rw [Digits.value]
    positivity
  · exact Decimal.rounded_nonneg h

/-- It has no more than its decimals. -/
lemma exists_fixed_eq (x : ℚ) (decimals : ℕ) : ∃ k : ℤ, fixed x decimals = k / 10 ^ decimals := by
  have hpow : (10 : ℚ) ^ decimals ≠ 0 := by positivity
  rw [fixed, Decimal.rounded]
  split_ifs
  · refine ⟨(shortest x).digits * 10 ^ (shortest x).zeros * 10 ^ decimals, ?_⟩
    rw [Digits.value, eq_div_iff hpow]
    push_cast
    rfl
  · refine ⟨-(Decimal.units (-x) decimals : ℤ), ?_⟩
    rw [Int.cast_neg, Int.cast_natCast, neg_div]
  · exact ⟨Decimal.units x decimals, by rw [Int.cast_natCast]⟩

end Double
