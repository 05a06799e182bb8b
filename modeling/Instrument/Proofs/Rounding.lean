import Instrument.Number.Basic
import Mathlib.Data.Int.Log
import Mathlib.Data.Nat.Log
import Mathlib.Data.Rat.Floor
import Mathlib.Tactic.Linarith
import Mathlib.Tactic.NormNum
import Mathlib.Tactic.Positivity
import Mathlib.Tactic.Ring

namespace Instrument

namespace Binary64

/-- The least number that is too large for a finite value. -/
def limit : Nat := (2 ^ 54 - 1) * 2 ^ 970

theorem limit_pos : 0 < limit := Nat.mul_pos (by decide) (pow_pos two_pos 970)

theorem cast_limit : (limit : ℚ) = (2 ^ 53 - 1 / 2) * 2 ^ (971 : Int) := by
  have hpower : (2 : ℚ) ^ (971 : Int) = 2 * ((2 ^ 970 : Nat) : ℚ) := by
    rw [Nat.cast_pow, Nat.cast_two, ← pow_succ']
    exact zpow_natCast 2 971
  rw [limit, Nat.cast_mul, hpower]
  generalize ((2 ^ 970 : Nat) : ℚ) = power
  push_cast
  linarith

variable {num den : Nat}

theorem le_roundEven_iff {m : Nat} (hden : 0 < den) (hm : m % 2 = 0) :
    m ≤ roundEven num den ↔ (m : ℚ) - 1 / 2 ≤ num / den := by
  have hpos : (0 : ℚ) < den := Nat.cast_pos.mpr hden
  have hrest := Nat.mod_lt num hden
  have hnum := Nat.div_add_mod num den
  have hnat : (m : ℚ) - 1 / 2 ≤ num / den ↔ den * (2 * m) ≤ 2 * num + den := by
    rw [le_div_iff₀ hpos, ← @Nat.cast_le ℚ]
    push_cast
    constructor <;> intro h <;> linarith
  rw [hnat, roundEven]
  generalize num / den = floor at *
  generalize num % den = rest at *
  subst hnum
  obtain hless | rfl | hmore : m ≤ floor ∨ m = floor + 1 ∨ floor + 2 ≤ m := by omega
  · have h := Nat.mul_le_mul_left den hless
    constructor
    · intro _
      linarith
    · intro _
      split
      · exact hless
      split <;> omega
  · have h : den * (2 * (floor + 1)) = 2 * (den * floor) + 2 * den := by ring
    rw [h]
    constructor
    · intro hle
      split at hle
      · omega
      split at hle <;> omega
    · intro hle
      split
      · omega
      split <;> omega
  · have h := Nat.mul_le_mul_left den hmore
    rw [Nat.mul_add] at h
    constructor
    · intro hle
      split at hle
      · omega
      split at hle <;> omega
    · intro hle
      have : den * (2 * m) = 2 * (den * m) := by ring
      omega

theorem divTwoPow_pos (hden : 0 < den) (k : Int) : 0 < (divTwoPow num den k).2 := by
  rw [divTwoPow]
  split
  · exact Nat.mul_pos hden (Nat.two_pow_pos _)
  · exact hden

theorem divTwoPow_eq (num den : Nat) (k : Int) :
    ((divTwoPow num den k).1 : ℚ) / (divTwoPow num den k).2 = num / den / 2 ^ k := by
  rw [divTwoPow]
  split
  case isTrue hk =>
    obtain ⟨n, rfl⟩ := Int.eq_ofNat_of_zero_le hk
    simp only [Int.toNat_natCast, Nat.pow_eq, Nat.cast_mul, Nat.cast_pow, Nat.cast_ofNat,
      zpow_natCast]
    rw [div_div]
  case isFalse hk =>
    obtain ⟨n, hn⟩ := Int.eq_ofNat_of_zero_le (by omega : 0 ≤ -k)
    obtain rfl : k = -n := by omega
    simp only [neg_neg, Int.toNat_natCast, Nat.pow_eq, Nat.cast_mul, Nat.cast_pow,
      Nat.cast_ofNat, zpow_neg, zpow_natCast]
    rw [div_inv_eq_mul, mul_div_right_comm]

theorem log_eq_of_bounds {q : ℚ} {k : Int} (hlower : 2 ^ k ≤ q) (hupper : q < 2 ^ (k + 1)) :
    Int.log 2 q = k := by
  have hq : 0 < q := (zpow_pos two_pos k).trans_le hlower
  have hle : k ≤ Int.log 2 q := (Int.zpow_le_iff_le_log one_lt_two hq).mp hlower
  have hlt : Int.log 2 q < k + 1 := (Int.lt_zpow_iff_log_lt one_lt_two hq).mp hupper
  omega

theorem cast_log2_le {n : Nat} (hn : 0 < n) : (2 : ℚ) ^ (n.log2 : Int) ≤ n := by
  rw [zpow_natCast]
  exact_mod_cast Nat.log2_self_le hn.ne'

theorem cast_lt_log2 (n : Nat) : (n : ℚ) < 2 ^ (n.log2 + 1 : Int) := by
  have h : n < 2 ^ (n.log2 + 1) := Nat.lt_log2_self
  exact_mod_cast h

theorem lastPlace_eq (hnum : 0 < num) (hden : 0 < den) :
    lastPlace num den = max (Int.log 2 ((num : ℚ) / den) - 52) (-1074) := by
  have hnumpos : (0 : ℚ) < num := Nat.cast_pos.mpr hnum
  have hdenpos : (0 : ℚ) < den := Nat.cast_pos.mpr hden
  have hupper : (num : ℚ) / den < 2 ^ ((num.log2 : Int) - den.log2 + 1) := by
    have hexp : ((num.log2 : Int) - den.log2 + 1) = num.log2 + 1 - den.log2 := by omega
    rw [hexp, zpow_sub₀ two_ne_zero]
    exact div_lt_div₀ (cast_lt_log2 num) (cast_log2_le hden) (zpow_pos two_pos _).le
      (zpow_pos two_pos _)
  have hlower : (2 : ℚ) ^ ((num.log2 : Int) - den.log2 - 1) ≤ num / den := by
    have hexp : ((num.log2 : Int) - den.log2 - 1) = num.log2 - (den.log2 + 1) := by omega
    rw [hexp, zpow_sub₀ two_ne_zero]
    exact div_le_div₀ hnumpos.le (cast_log2_le hnum) hdenpos (cast_lt_log2 den).le
  rw [lastPlace]
  generalize (num.log2 : Int) - den.log2 = guess at *
  have hscaled := divTwoPow_eq num den guess
  have hdpos : (0 : ℚ) < (divTwoPow num den guess).2 := Nat.cast_pos.mpr (divTwoPow_pos hden guess)
  have hguess : (divTwoPow num den guess).2 ≤ (divTwoPow num den guess).1 ↔
      (2 : ℚ) ^ guess ≤ num / den := by
    have hpower : (0 : ℚ) < 2 ^ guess := zpow_pos two_pos guess
    rw [← one_le_div hpower, ← hscaled, one_le_div hdpos, Nat.cast_le]
  simp only [hguess]
  congr 2
  split
  case isTrue h => exact (log_eq_of_bounds h hupper).symm
  case isFalse h =>
    rw [not_le] at h
    apply (log_eq_of_bounds hlower _).symm
    rwa [sub_add_cancel]

theorem nearestBody_eq (hnum : 0 < num) (hden : 0 < den) :
    ∃ n d : Nat, 0 < d ∧ (n : ℚ) / d = num / den / 2 ^ lastPlace num den ∧
      nearestBody num den = roundEven n d + (lastPlace num den + 1074).toNat * Nat.pow 2 52 := by
  refine ⟨_, _, divTwoPow_pos hden _, divTwoPow_eq num den _, ?_⟩
  rw [nearestBody, if_neg hnum.ne']

theorem roundEven_lt {n d : Nat} (hd : 0 < d) (h : (n : ℚ) / d < 2 ^ 53) :
    roundEven n d < Nat.pow 2 53 + 2 := by
  rw [← not_le, le_roundEven_iff hd (by decide), not_le]
  apply h.trans
  norm_num

theorem le_roundEven_of_le {n d : Nat} (hd : 0 < d) (h : (2 : ℚ) ^ 52 ≤ n / d) :
    Nat.pow 2 52 ≤ roundEven n d := by
  rw [le_roundEven_iff hd (by decide)]
  apply le_trans _ h
  norm_num

theorem div_cast_pos (hnum : 0 < num) (hden : 0 < den) : (0 : ℚ) < num / den :=
  div_pos (Nat.cast_pos.mpr hnum) (Nat.cast_pos.mpr hden)

theorem nearestBody_lt (hnum : 0 < num) (hden : 0 < den)
    (h : (num : ℚ) / den < 2 ^ (1023 : Int)) : nearestBody num den < infinityBody := by
  obtain ⟨n, d, hd, hscaled, hbody⟩ := nearestBody_eq hnum hden
  have hplace := lastPlace_eq hnum hden
  have htop : Int.log 2 ((num : ℚ) / den) < 1023 :=
    (Int.lt_zpow_iff_log_lt one_lt_two (div_cast_pos hnum hden)).mp h
  have hmantissa : (n : ℚ) / d < 2 ^ 53 := by
    rw [hscaled, div_lt_iff₀ (zpow_pos two_pos _)]
    calc (num : ℚ) / den < 2 ^ (Int.log 2 ((num : ℚ) / den) + 1) := by
          exact_mod_cast Int.lt_zpow_succ_log_self one_lt_two ((num : ℚ) / den)
      _ ≤ 2 ^ (53 + lastPlace num den) := zpow_le_zpow_right₀ one_le_two (by omega)
      _ = 2 ^ 53 * 2 ^ lastPlace num den := zpow_add₀ two_ne_zero _ _
  have hrounded := roundEven_lt hd hmantissa
  rw [hbody, infinityBody]
  simp only [Nat.pow_eq] at hrounded ⊢
  omega

theorem infinityBody_le_nearestBody (hnum : 0 < num) (hden : 0 < den)
    (h : (2 : ℚ) ^ (1024 : Int) ≤ num / den) : infinityBody ≤ nearestBody num den := by
  obtain ⟨n, d, hd, hscaled, hbody⟩ := nearestBody_eq hnum hden
  have hq := div_cast_pos hnum hden
  have hplace := lastPlace_eq hnum hden
  have htop : 1024 ≤ Int.log 2 ((num : ℚ) / den) := (Int.zpow_le_iff_le_log one_lt_two hq).mp h
  have hmantissa : (2 : ℚ) ^ 52 ≤ n / d := by
    rw [hscaled, le_div_iff₀ (zpow_pos two_pos _)]
    calc (2 : ℚ) ^ 52 * 2 ^ lastPlace num den = 2 ^ (52 + lastPlace num den) :=
          (zpow_add₀ two_ne_zero _ _).symm
      _ ≤ 2 ^ Int.log 2 ((num : ℚ) / den) := zpow_le_zpow_right₀ one_le_two (by omega)
      _ ≤ num / den := by exact_mod_cast Int.zpow_log_le_self one_lt_two hq
  have hrounded := le_roundEven_of_le hd hmantissa
  rw [hbody, infinityBody]
  simp only [Nat.pow_eq] at hrounded ⊢
  omega

/-- At the place of the greatest finite values the mantissa is rounded up out of its fifty-three
places or not. -/
theorem infinityBody_le_nearestBody_iff_of_top (hnum : 0 < num) (hden : 0 < den)
    (hlower : (2 : ℚ) ^ (1023 : Int) ≤ num / den) (hupper : (num : ℚ) / den < 2 ^ (1024 : Int)) :
    infinityBody ≤ nearestBody num den ↔ (limit : ℚ) ≤ num / den := by
  obtain ⟨n, d, hd, hscaled, hbody⟩ := nearestBody_eq hnum hden
  have hplace : lastPlace num den = 971 := by
    rw [lastPlace_eq hnum hden, log_eq_of_bounds hlower hupper]
    rfl
  have hmantissa : Nat.pow 2 53 ≤ roundEven n d ↔ (2 : ℚ) ^ 53 - 1 / 2 ≤ n / d := by
    rw [le_roundEven_iff hd (by decide)]
    norm_num
  rw [hplace] at hscaled
  rw [cast_limit, ← le_div_iff₀ (zpow_pos two_pos _), ← hscaled, ← hmantissa, hbody, hplace,
    infinityBody]
  simp only [Nat.pow_eq]
  omega

theorem two_zpow_le_limit : (2 : ℚ) ^ (1023 : Int) ≤ limit := by
  have hpower : (0 : ℚ) ≤ 2 ^ (971 : Int) := (zpow_pos two_pos _).le
  calc (2 : ℚ) ^ (1023 : Int) = 2 ^ 52 * 2 ^ (971 : Int) := zpow_add₀ two_ne_zero 52 971
    _ ≤ (2 ^ 53 - 1 / 2) * 2 ^ (971 : Int) := mul_le_mul_of_nonneg_right (by norm_num) hpower
    _ = limit := cast_limit.symm

theorem limit_le_two_zpow : (limit : ℚ) ≤ 2 ^ (1024 : Int) := by
  have hpower : (0 : ℚ) ≤ 2 ^ (971 : Int) := (zpow_pos two_pos _).le
  calc (limit : ℚ) = (2 ^ 53 - 1 / 2) * 2 ^ (971 : Int) := cast_limit
    _ ≤ 2 ^ 53 * 2 ^ (971 : Int) := mul_le_mul_of_nonneg_right (by norm_num) hpower
    _ = 2 ^ (1024 : Int) := (zpow_add₀ two_ne_zero 53 971).symm

theorem infinityBody_le_nearestBody_iff (hnum : 0 < num) (hden : 0 < den) :
    infinityBody ≤ nearestBody num den ↔ (limit : ℚ) ≤ num / den := by
  rcases lt_or_ge ((num : ℚ) / den) (2 ^ (1023 : Int)) with hlow | hlower
  · -- Even rounded up, the mantissa does not carry into the exponent of the infinities.
    have hbody := nearestBody_lt hnum hden hlow
    have hsmall := hlow.trans_le two_zpow_le_limit
    exact iff_of_false hbody.not_ge hsmall.not_ge
  rcases lt_or_ge ((num : ℚ) / den) (2 ^ (1024 : Int)) with hupper | hhigh
  · exact infinityBody_le_nearestBody_iff_of_top hnum hden hlower hupper
  · exact iff_of_true (infinityBody_le_nearestBody hnum hden hhigh) (limit_le_two_zpow.trans hhigh)

/-- What has no nearest finite value is what is not below the limit. -/
theorem nearest?_eq_none_iff {negative : Bool} (hden : 0 < den) :
    nearest? negative num den = none ↔ limit * den ≤ num := by
  have hnone : nearest? negative num den = none ↔ infinityBody ≤ nearestBody num den := by
    simp [nearest?]
  rw [hnone]
  rcases Nat.eq_zero_or_pos num with rfl | hnum
  · have hprod := Nat.mul_pos limit_pos hden
    have hzero : nearestBody 0 den = 0 := rfl
    have hbody : 0 < infinityBody := by decide
    omega
  · rw [infinityBody_le_nearestBody_iff hnum hden, le_div_iff₀ (Nat.cast_pos.mpr hden)]
    norm_cast

end Binary64

namespace Number

theorem ofInt?_eq_none_iff {i : Int} : ofInt? i = none ↔ Binary64.limit ≤ i.natAbs := by
  rw [ofInt?, Binary64.nearest?_eq_none_iff Nat.one_pos, Nat.mul_one]

end Number

end Instrument
