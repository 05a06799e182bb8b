import Instrument.Datum.Reading
import Instrument.Proofs.Bits
import Instrument.Proofs.Lexemes
import Instrument.Proofs.Rounding
import Mathlib.Data.Nat.Digits.Defs

namespace Instrument

open Text

namespace Binary64

variable {n : Nat}

theorem divTwoPow_neg (n k : Nat) : divTwoPow n 1 (-k) = (n * 2 ^ k, 1) := by
  cases k with
  | zero => simp [divTwoPow]
  | succ k =>
      have hneg : ¬(0 : Int) ≤ -((k + 1 : Nat) : Int) := by omega
      rw [divTwoPow, if_neg hneg, neg_neg]
      rfl

theorem divTwoPow_nat (n k : Nat) : divTwoPow n 1 k = (n, 2 ^ k) := by
  simp [divTwoPow]

theorem log_whole (hpos : 0 < n) : Int.log 2 ((n : ℚ) / (1 : Nat)) = n.log2 := by
  rw [Nat.cast_one, div_one]
  exact log_eq_of_bounds (cast_log2_le hpos) (cast_lt_log2 n)

theorem lastPlace_whole (hpos : 0 < n) (h : n < 2 ^ 53) : lastPlace n 1 = -(52 - n.log2 : Nat) := by
  have hlog : n.log2 < 53 := (Nat.log2_lt hpos.ne').2 h
  rw [lastPlace_eq hpos Nat.one_pos, log_whole hpos]
  omega

theorem scaled_bounds (hpos : 0 < n) (h : n < 2 ^ 53) :
    2 ^ 52 ≤ n * 2 ^ (52 - n.log2) ∧ n * 2 ^ (52 - n.log2) < 2 ^ 53 := by
  have hlog : n.log2 < 53 := (Nat.log2_lt hpos.ne').2 h
  constructor
  · calc 2 ^ 52 = 2 ^ n.log2 * 2 ^ (52 - n.log2) := by rw [← pow_add]; congr 1; omega
      _ ≤ n * 2 ^ (52 - n.log2) := Nat.mul_le_mul_right _ (Nat.log2_self_le hpos.ne')
  · calc n * 2 ^ (52 - n.log2) < 2 ^ (n.log2 + 1) * 2 ^ (52 - n.log2) :=
          Nat.mul_lt_mul_of_pos_right Nat.lt_log2_self (Nat.two_pow_pos _)
      _ = 2 ^ 53 := by rw [← pow_add]; congr 1; omega

theorem nearestBody_whole (hpos : 0 < n) (h : n < 2 ^ 53) :
    nearestBody n 1 = n * 2 ^ (52 - n.log2) + (n.log2 + 1022) * 2 ^ 52 := by
  have hlog : n.log2 < 53 := (Nat.log2_lt hpos.ne').2 h
  have hplace : (-((52 - n.log2 : Nat) : Int) + 1074).toNat = n.log2 + 1022 := by omega
  simp only [nearestBody, if_neg hpos.ne', lastPlace_whole hpos h, divTwoPow_neg, hplace,
    roundEven_of_dvd Nat.one_pos (one_dvd _), Nat.div_one]
  rfl

theorem wholeValue?_of_parts {x : Float} {p : Parts} {den : Nat} (hparts : parts? x = some p)
    (hden : 0 < den) (hp : divTwoPow p.mantissa 1 (-p.exponent) = (n * den, den)) :
    Number.wholeValue? x = some (if p.negative then -(n : Int) else n) := by
  rw [Number.wholeValue?, hparts]
  simp only [Option.bind_eq_bind, Option.bind_some, hp, Nat.mul_mod_left, if_true,
    Nat.mul_div_cancel _ hden]

theorem wholeValue?_ofBody (negative : Bool) (hpos : 0 < n) (h : n < 2 ^ 53) :
    nearestBody n 1 < infinityBody ∧
      Number.wholeValue? (ofBody negative (nearestBody n 1)) = some (if negative then -(n : Int) else n) := by
  have hlog : n.log2 < 53 := (Nat.log2_lt hpos.ne').2 h
  have hbody := nearestBody_whole hpos h
  obtain ⟨hlow, hhigh⟩ := scaled_bounds hpos h
  generalize hscaled : n * 2 ^ (52 - n.log2) = scaled at hbody hlow hhigh
  have hfinite : nearestBody n 1 < infinityBody := by
    simp only [hbody, infinityBody, Nat.pow_eq]
    omega
  have hfield : nearestBody n 1 / 2 ^ 52 = n.log2 + 1023 := by omega
  have hfraction : 2 ^ 52 + nearestBody n 1 % 2 ^ 52 = scaled := by omega
  have hparts := parts?_ofBody negative hfinite
  rw [hfield, hfraction, if_neg (by omega)] at hparts
  refine ⟨hfinite, wholeValue?_of_parts hparts (Nat.two_pow_pos (52 - n.log2)) ?_⟩
  have hexp : -(((n.log2 + 1023 : Nat) : Int) - 1075) = (52 - n.log2 : Nat) := by omega
  rw [hexp, divTwoPow_nat, hscaled]

theorem wholeValue?_zero (negative : Bool) : Number.wholeValue? (zero negative) = some 0 := by
  have hparts : parts? (zero negative) = some ⟨negative, 0, -1074⟩ := parts?_ofBody negative (by decide)
  have hnum (k : Int) : (divTwoPow 0 1 k).1 = 0 := by
    rw [divTwoPow]
    split <;> simp
  rw [Number.wholeValue?, hparts]
  simp only [Option.bind_eq_bind, Option.bind_some, hnum, Nat.zero_mod, Nat.zero_div, if_true]
  cases negative <;> rfl

theorem nearest?_whole (negative : Bool) (h : n ≤ 2 ^ 53) :
    ∃ x, nearest? negative n 1 = some x ∧
      Number.wholeValue? x = some (if negative then -(n : Int) else n) := by
  obtain rfl | hpos := Nat.eq_zero_or_pos n
  · exact ⟨_, nearest?_zero negative 1, by simp [wholeValue?_zero]⟩
  obtain hlt | rfl := Nat.lt_or_eq_of_le h
  · obtain ⟨hfinite, hvalue⟩ := wholeValue?_ofBody negative hpos hlt
    exact ⟨_, by rw [nearest?, if_pos hfinite], hvalue⟩
  · have hbody : nearestBody (2 ^ 53) 1 = 1076 * 2 ^ 52 := by decide +kernel
    have hfinite : 1076 * 2 ^ 52 < infinityBody := by decide
    have hparts : parts? (ofBody negative (1076 * 2 ^ 52)) = some ⟨negative, 2 ^ 52, 1⟩ := by
      rw [parts?_ofBody negative hfinite]
      simp
    refine ⟨ofBody negative (1076 * 2 ^ 52), by rw [nearest?, hbody, if_pos hfinite], ?_⟩
    exact wholeValue?_of_parts hparts Nat.one_pos (divTwoPow_neg (2 ^ 52) 1)

theorem isSome_parts?_of_nearest? {negative : Bool} {num den : Nat} {x : Float}
    (h : nearest? negative num den = some x) : (parts? x).isSome = true := by
  simp only [nearest?] at h
  split at h
  · next hfinite =>
      obtain rfl := Option.some.inj h
      rw [parts?_ofBody negative hfinite]
      rfl
  · cases h

end Binary64

namespace Decimal

theorem width_le {n k : Nat} (hk : 0 < k) (h : n < 10 ^ k) : width n ≤ k := Nat.toDigits_length 10 n k hk h

theorem ten_pow_lt_limit : 10 ^ 308 < Binary64.limit := by decide +kernel

theorem isFinite_toFloat (negative : Bool) {d : Decimal} (hexp : d.exponent ≤ 0)
    (h : d.coefficient < 10 ^ 308) : (Number.float (d.toFloat negative)).isFinite = true := by
  have hwidth := width_le (by decide) h
  have hzero : (Binary64.parts? (Binary64.zero negative)).isSome = true := by
    rw [Binary64.zero, Binary64.parts?_ofBody negative (by decide)]
    rfl
  simp only [toFloat, Number.isFinite]
  split
  · exact hzero
  · have htop : ¬310 < (width d.coefficient : Int) + d.exponent := by omega
    have hplaces : 0 ≤ -d.exponent := by omega
    simp only [htop, if_false, divTenPow, hplaces, if_true]
    cases hnearest : Binary64.nearest? negative d.coefficient (1 * Nat.pow 10 (-d.exponent).toNat) with
    | some x => exact Binary64.isSome_parts?_of_nearest? hnearest
    | none =>
        have hden : 0 < 1 * Nat.pow 10 (-d.exponent).toNat := by simp
        have hbeyond := (Binary64.nearest?_eq_none_iff hden).1 hnearest
        have hlimit := Nat.le_mul_of_pos_right Binary64.limit hden
        have hten := ten_pow_lt_limit
        omega

end Decimal

namespace Text

theorem digitValue_lt (c : Char) : (digitValue? c).getD 0 < 10 := by
  rw [digitValue?]
  split
  · next hascii =>
      have hrange : '0'.val ≤ c.val ∧ c.val ≤ '9'.val := by simpa [Char.isDigit] using hascii
      have hhigh : c.toNat ≤ '9'.toNat := UInt32.le_iff_toNat_le.mp hrange.2
      have hnine : '9'.toNat = '0'.toNat + 9 := rfl
      rw [Option.getD_some]
      omega
  · split
    · decide
    · cases hzero : zeroBelow? c.toNat with
      | none => exact Nat.zero_lt_succ 9
      | some first =>
          have hrange := (zeroBelow?_eq_some hzero).2
          simp only [Option.map_some, Option.getD_some]
          omega

theorem digitsValue_append_singleton (cs : List Char) (c : Char) :
    digitsValue (cs ++ [c]) = 10 * digitsValue cs + (digitValue? c).getD 0 := by
  rw [digitsValue, List.foldl_append]
  rfl

theorem digitsValue_lt (cs : List Char) : digitsValue cs < 10 ^ cs.length := by
  induction cs using List.reverseRecOn with
  | nil => decide
  | append_singleton cs c ih =>
      have hc := digitValue_lt c
      rw [digitsValue_append_singleton, List.length_append, List.length_singleton, pow_succ]
      omega

theorem digitsValue_of_isDigit {cs : List Char} (hcs : ∀ c ∈ cs, c.isDigit = true) :
    digitsValue cs = Nat.ofDigitChars 10 cs 0 := by
  induction cs using List.reverseRecOn with
  | nil => rfl
  | append_singleton cs c ih =>
      rw [List.forall_mem_append, List.forall_mem_singleton] at hcs
      rw [digitsValue_append_singleton, ih hcs.1, Nat.ofDigitChars_append,
        digitValue?_of_isDigit hcs.2]
      rfl

theorem digitsValue_repr (n : Nat) : digitsValue n.repr.toList = n := by
  have hdigits : ∀ c ∈ Nat.toDigits 10 n, c.isDigit = true :=
    fun _ hc => Nat.isDigit_of_mem_toDigits (by decide) (by decide) hc
  rw [Nat.toList_repr, digitsValue_of_isDigit hdigits, Nat.ofDigitChars_ten_toDigits]

end Text

namespace Decimal

theorem limit_lt_ten_pow : Binary64.limit < 10 ^ 310 := by decide +kernel

theorem toFloat_whole (negative : Bool) (n : Nat) :
    (⟨n, 0⟩ : Decimal).toFloat negative =
      (Binary64.nearest? negative n 1).getD (Binary64.infinity negative) := by
  have hlow : ¬((width n : Int) + 0 < -330) := by omega
  by_cases hzero : n = 0
  · subst hzero
    rw [Binary64.nearest?_zero]
    rfl
  by_cases hwide : 310 < (width n : Int) + 0
  · have hlarge : Binary64.limit * 1 ≤ n := by
      rw [Nat.mul_one]
      refine Nat.le_of_not_lt fun hsmall => ?_
      have hwidth := width_le (by decide) (hsmall.trans limit_lt_ten_pow)
      omega
    have hnone : Binary64.nearest? negative n 1 = none :=
      (Binary64.nearest?_eq_none_iff Nat.one_pos).2 hlarge
    simp only [toFloat, hzero, hlow, hwide, decide_false, Bool.or_self, Bool.false_eq_true, if_false,
      if_true, hnone, Option.getD_none]
  · simp only [toFloat, hzero, hlow, hwide, decide_false, Bool.or_self, Bool.false_eq_true, if_false]
    rfl

end Decimal

namespace Number

variable {cs digits : List Char} {d : Decimal}

theorem decimal?_of_digits (hne : digits ≠ []) (hdigits : ∀ c ∈ digits, isDigit c = true) :
    decimal? digits = some ⟨digitsValue digits, 0⟩ := by
  have hfront := (IsNumeral.whole hne hdigits).front
  have htake : digits.takeWhile isDigit = digits := List.takeWhile_eq_self_iff.2 hdigits
  have hdrop : digits.dropWhile isDigit = [] := List.dropWhile_eq_nil_iff.2 hdigits
  simp [decimal?, hfront, htake, hdrop]

theorem IsNumeral.decimal_bounds (h : IsNumeral cs) (hd : decimal? cs = some d) :
    d.exponent ≤ 0 ∧ d.coefficient < 10 ^ cs.length := by
  simp only [decimal?, h.front, Option.bind_eq_bind, Option.bind_some, Option.pure_def,
    Option.some.injEq] at hd
  subst hd
  refine ⟨by simp, Nat.lt_of_lt_of_le (digitsValue_lt _) (Nat.pow_le_pow_right (by decide) ?_)⟩
  have hlength := congrArg List.length (List.takeWhile_append_dropWhile (p := isDigit) (l := cs))
  simp only [List.length_append, List.length_drop] at hlength ⊢
  omega

theorem IsNumeral.length_le (h : IsNumeral cs) : cs.length ≤ cs.countP isDigit + 1 := by
  have hpoint : isDigit '.' = false := by decide
  cases h with
  | whole _ hdigits =>
      rw [List.countP_eq_length.2 hdigits]
      exact Nat.le_succ _
  | point _ hdigits hplaces =>
      rw [List.countP_append, List.countP_cons, List.countP_eq_length.2 hdigits,
        List.countP_eq_length.2 hplaces, List.length_append, List.length_cons]
      omega
  | bare _ hplaces =>
      rw [List.countP_cons, List.countP_eq_length.2 hplaces, List.length_cons]
      omega

end Number

namespace Datum

open Number (IsNumeral signs forall_sign readFloat? decimal?)

variable {cs digits sign : List Char} {x : Float}

theorem ofText_of_whole {i : Int} (hread : readFloat? cs = some x) (hlooks : looksWhole cs = true)
    (hvalue : Number.wholeValue? x = some i) : ofText cs = .number (.int i) := by
  have hfinite : (Number.float x).isFinite = true := by
    cases hparts : Binary64.parts? x with
    | none => simp [Number.wholeValue?, hparts] at hvalue
    | some p => simp [Number.isFinite, hparts]
  simp [ofText, hread, hfinite, hlooks, hvalue, Datum.int]

theorem ofText_of_point (hread : readFloat? cs = some x) (hpoint : '.' ∈ cs)
    (hfinite : (Number.float x).isFinite = true) : ofText cs = .number (.float x) := by
  have hlooks : looksWhole cs = false := by
    rw [looksWhole, List.all_eq_false]
    exact ⟨'.', hpoint, by decide⟩
  simp [ofText, hread, hfinite, hlooks, Datum.float]

theorem looksWhole_digits (hsign : sign ∈ signs) (hdigits : ∀ c ∈ digits, isDigit c = true) :
    looksWhole (sign ++ digits) = true := by
  rw [looksWhole, List.all_append, Bool.and_eq_true]
  constructor
  · rw [List.all_eq_true]
    exact forall_sign (p := fun c => c != '.' && c != 'e' && c != 'E') (by decide) (by decide) hsign
  · rw [List.all_eq_true]
    exact fun c hc => forall_digit (p := fun c => c != '.' && c != 'e' && c != 'E') (by decide +kernel)
      (hdigits c hc)

theorem readFloat?_digits (hsign : sign ∈ signs) (hne : digits ≠ [])
    (hdigits : ∀ c ∈ digits, isDigit c = true) :
    readFloat? (sign ++ digits) = some ((Binary64.nearest? (sign == ['-']) (digitsValue digits) 1).getD
      (Binary64.infinity (sign == ['-']))) := by
  obtain ⟨d, hd, hread⟩ := (IsNumeral.whole hne hdigits).readFloat?_signed hsign
  obtain rfl := Option.some.inj (hd.symm.trans (Number.decimal?_of_digits hne hdigits))
  rwa [Decimal.toFloat_whole] at hread

theorem ofText_digits (hsign : sign ∈ signs) (hne : digits ≠ [])
    (hdigits : ∀ c ∈ digits, isDigit c = true) (hsmall : digitsValue digits ≤ 2 ^ 53) :
    ofText (sign ++ digits) =
      .number (.int (if sign == ['-'] then -(digitsValue digits : Int) else digitsValue digits)) := by
  obtain ⟨x, hnearest, hvalue⟩ := Binary64.nearest?_whole (sign == ['-']) hsmall
  have hread := readFloat?_digits hsign hne hdigits
  rw [hnearest, Option.getD_some] at hread
  exact ofText_of_whole hread (looksWhole_digits hsign hdigits) hvalue

theorem exists_digits_toString (i : Int) : ∃ sign ∈ signs, ∃ digits : List Char,
    (toString i).toList = sign ++ digits ∧ digits ≠ [] ∧ (∀ c ∈ digits, isDigit c = true) ∧
      digitsValue digits = i.natAbs ∧ (if sign == ['-'] then -(digitsValue digits : Int) else digitsValue digits) = i := by
  have hrepr (n : Nat) : n.repr.toList ≠ [] ∧ ∀ c ∈ n.repr.toList, isDigit c = true := by
    rw [Nat.toList_repr]
    exact ⟨Nat.toDigits_ne_nil, fun c hc =>
      isDigit_of_isDigit (Nat.isDigit_of_mem_toDigits (by decide) (by decide) hc)⟩
  cases i with
  | ofNat n =>
      refine ⟨[], by decide, n.repr.toList, rfl, (hrepr n).1, (hrepr n).2, digitsValue_repr n, ?_⟩
      rw [digitsValue_repr]
      rfl
  | negSucc n =>
      refine ⟨['-'], by decide, (n + 1).repr.toList, String.toList_append, (hrepr (n + 1)).1,
        (hrepr (n + 1)).2, digitsValue_repr (n + 1), ?_⟩
      rw [digitsValue_repr]
      rfl

theorem ofText_toString {i : Int} (h : i.natAbs ≤ 2 ^ 53) : ofText (toString i).toList = .number (.int i) := by
  obtain ⟨sign, hsign, digits, htext, hne, hdigits, hsize, hvalue⟩ := exists_digits_toString i
  rw [htext, ofText_digits hsign hne hdigits (hsize.trans_le h), hvalue]

theorem toNumber?_ofText (hread : readFloat? cs = some x) : ∃ n, (ofText cs).toNumber? = some n := by
  simp only [ofText, hread]
  split
  · exact ⟨.float x, by simp [toNumber?, hread]⟩
  · split
    · exact ⟨_, rfl⟩
    · exact ⟨_, rfl⟩

theorem ofText_numeral (h : IsNumeral cs) (hshort : cs.countP isDigit ≤ 15) :
    ofText cs = .number (.spelled cs) := by
  by_cases hpoint : '.' ∈ cs
  · obtain ⟨d, hd, hread⟩ := h.readFloat?
    obtain ⟨hexp, hcoefficient⟩ := h.decimal_bounds hd
    have hlength : cs.length ≤ 308 := h.length_le.trans (by omega)
    have hfinite := Decimal.isFinite_toFloat false hexp
      (hcoefficient.trans_le (pow_le_pow_right₀ (by decide) hlength))
    rw [ofText_of_point hread hpoint hfinite, Number.spelled, hd]
    simp [hpoint]
  · cases h with
    | whole hne hdigits =>
        rw [List.countP_eq_length.2 hdigits] at hshort
        have hbound : 10 ^ cs.length ≤ 10 ^ 15 := Nat.pow_le_pow_right (by decide) hshort
        have hlt := digitsValue_lt cs
        have hsmall : digitsValue cs ≤ 2 ^ 53 := by omega
        have hsign : [] ∈ signs := List.mem_cons_self
        have hread := ofText_digits hsign hne hdigits hsmall
        simpa [Number.spelled, hpoint] using hread
    | point => simp at hpoint
    | bare => simp at hpoint

end Datum

end Instrument
