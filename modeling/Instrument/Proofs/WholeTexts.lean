import Instrument.Proofs.Declaring
import Instrument.Proofs.Integers

namespace Instrument

open Text

namespace Binary64

def wholePlace (n : Nat) : Nat := n.log2 - 52

/-- A whole number rounded to fifty-three binary digits, a half to the even neighbour. -/
def roundWhole (n : Nat) : Nat := roundEven n (2 ^ wholePlace n) * 2 ^ wholePlace n

/-- A whole number is kept if fifty-three binary digits are enough for it, up to zeros at the end, and there
are not too many of these. -/
def Kept (n : Nat) : Prop :=
  ∃ mantissa exponent, n = mantissa * 2 ^ exponent ∧ mantissa < 2 ^ 53 ∧ exponent ≤ 971

variable {n num den : Nat}

theorem roundEven_cases (num den : Nat) :
    roundEven num den = num / den ∨ roundEven num den = num / den + 1 := by
  rw [roundEven]
  split
  · exact .inl rfl
  · split
    · exact .inr rfl
    · omega

theorem wholePlace_eq_zero (h : n < 2 ^ 53) : wholePlace n = 0 := by
  obtain rfl | hpos := Nat.eq_zero_or_pos n
  · decide
  · have hlog := (Nat.log2_lt hpos.ne').2 h
    rw [wholePlace]
    omega

theorem roundWhole_of_dvd (h : 2 ^ wholePlace n ∣ n) : roundWhole n = n := by
  rw [roundWhole, roundEven_of_dvd (Nat.two_pow_pos _) h, Nat.div_mul_cancel h]

theorem roundWhole_of_lt (h : n < 2 ^ 53) : roundWhole n = n := by
  apply roundWhole_of_dvd
  rw [wholePlace_eq_zero h]
  exact one_dvd n

theorem wholeValue?_of_mantissa {body mantissa place : Nat} (negative : Bool)
    (hbody : body = mantissa + (place + 1074) * 2 ^ 52) (hlow : 2 ^ 52 ≤ mantissa) (hhigh : mantissa < 2 ^ 53)
    (hfinite : body < infinityBody) :
    Number.wholeValue? (ofBody negative body) =
      some (if negative then -((mantissa * 2 ^ place : Nat) : Int) else (mantissa * 2 ^ place : Nat)) := by
  have hfield : body / 2 ^ 52 = place + 1075 := by omega
  have hfraction : 2 ^ 52 + body % 2 ^ 52 = mantissa := by omega
  have hparts := parts?_ofBody negative hfinite
  rw [hfield, hfraction, if_neg (by omega)] at hparts
  have hplace : -(((place + 1075 : Nat) : Int) - 1075) = -(place : Int) := by omega
  refine wholeValue?_of_parts hparts Nat.one_pos ?_
  rw [hplace, divTwoPow_neg, Nat.mul_one]

section Long

variable (h : 2 ^ 53 ≤ n)
include h

theorem log2_eq_wholePlace : n.log2 = wholePlace n + 52 := by
  have hlog := (Nat.le_log2 (by omega)).2 h
  rw [wholePlace]
  omega

theorem roundEven_bounds :
    2 ^ 52 ≤ roundEven n (2 ^ wholePlace n) ∧ roundEven n (2 ^ wholePlace n) ≤ 2 ^ 53 := by
  have hlog := log2_eq_wholePlace h
  have hlow : 2 ^ 52 ≤ n / 2 ^ wholePlace n := by
    rw [Nat.le_div_iff_mul_le (Nat.two_pow_pos _), ← pow_add, Nat.add_comm, ← hlog]
    exact Nat.log2_self_le (by omega)
  have hhigh : n / 2 ^ wholePlace n < 2 ^ 53 := by
    rw [Nat.div_lt_iff_lt_mul (Nat.two_pow_pos _), ← pow_add]
    calc n < 2 ^ (n.log2 + 1) := Nat.lt_log2_self
      _ = 2 ^ (53 + wholePlace n) := by rw [hlog]; congr 1; omega
  have hcases := roundEven_cases n (2 ^ wholePlace n)
  omega

theorem nearestBody_long :
    nearestBody n 1 = roundEven n (2 ^ wholePlace n) + (wholePlace n + 1074) * 2 ^ 52 := by
  have hpos : 0 < n := by omega
  have hlog := log2_eq_wholePlace h
  have hplace : lastPlace n 1 = wholePlace n := by
    rw [lastPlace_eq hpos Nat.one_pos, log_whole hpos]
    omega
  have hfield : ((wholePlace n : Int) + 1074).toNat = wholePlace n + 1074 := by omega
  simp only [nearestBody, if_neg hpos.ne', hplace, divTwoPow_nat, hfield, Nat.pow_eq]

theorem wholeValue?_long (negative : Bool) (hfinite : nearestBody n 1 < infinityBody) :
    Number.wholeValue? (ofBody negative (nearestBody n 1)) =
      some (if negative then -(roundWhole n : Int) else roundWhole n) := by
  obtain ⟨hlow, hhigh⟩ := roundEven_bounds h
  have hbody := nearestBody_long h
  obtain hlt | heq := Nat.lt_or_eq_of_le hhigh
  · exact wholeValue?_of_mantissa negative hbody hlow hlt hfinite
  · -- The digits run over into the next place.
    have hcarry : nearestBody n 1 = 2 ^ 52 + (wholePlace n + 1 + 1074) * 2 ^ 52 := by
      rw [hbody, heq]
      ring
    have hround : roundWhole n = 2 ^ 52 * 2 ^ (wholePlace n + 1) := by
      rw [roundWhole, heq, pow_succ' 2 (wholePlace n), ← Nat.mul_assoc]
      rfl
    have hlt : 2 ^ 52 < 2 ^ 53 := by decide
    have hvalue := wholeValue?_of_mantissa negative hcarry (Nat.le_refl _) hlt hfinite
    rwa [← hround] at hvalue

end Long

theorem nearest?_roundWhole (negative : Bool) (h : n < limit) :
    ∃ x, nearest? negative n 1 = some x ∧
      Number.wholeValue? x = some (if negative then -(roundWhole n : Int) else roundWhole n) := by
  obtain hshort | hlong := Nat.lt_or_ge n (2 ^ 53)
  · rw [roundWhole_of_lt hshort]
    exact nearest?_whole negative hshort.le
  · have hfinite : nearestBody n 1 < infinityBody := by
      refine Nat.lt_of_not_le fun hbeyond => h.not_ge ?_
      have hnone : nearest? negative n 1 = none := by rw [nearest?, if_neg hbeyond.not_gt]
      simpa using (nearest?_eq_none_iff Nat.one_pos).1 hnone
    exact ⟨_, by rw [nearest?, if_pos hfinite], wholeValue?_long hlong negative hfinite⟩

theorem log2_lt_of_lt_limit (h : n < limit) : n.log2 < 1024 := by
  have hlimit : limit.log2 = 1023 := by decide +kernel
  have hmono : n.log2 ≤ limit.log2 := by
    rw [Nat.log2_eq_log_two, Nat.log2_eq_log_two]
    exact Nat.log_mono_right h.le
  omega

theorem Kept.lt_limit (h : Kept n) : n < limit := by
  obtain ⟨mantissa, exponent, rfl, hmantissa, hexponent⟩ := h
  calc mantissa * 2 ^ exponent ≤ (2 ^ 53 - 1) * 2 ^ 971 :=
        Nat.mul_le_mul (by omega) (Nat.pow_le_pow_right (by decide) hexponent)
    _ < limit := by decide +kernel

theorem Kept.dvd (h : Kept n) : 2 ^ wholePlace n ∣ n := by
  obtain rfl | hpos := Nat.eq_zero_or_pos n
  · exact dvd_zero _
  obtain ⟨mantissa, exponent, rfl, hmantissa, -⟩ := h
  have hlog : (mantissa * 2 ^ exponent).log2 < 53 + exponent := by
    rw [Nat.log2_lt hpos.ne', pow_add]
    exact Nat.mul_lt_mul_of_pos_right hmantissa (Nat.two_pow_pos exponent)
  have hplace : wholePlace (mantissa * 2 ^ exponent) ≤ exponent := by
    rw [wholePlace]
    omega
  exact (pow_dvd_pow 2 hplace).mul_left mantissa

/-- Rounding changes nothing just about what is kept. -/
theorem roundWhole_eq_self_iff (h : n < limit) : roundWhole n = n ↔ Kept n := by
  constructor
  · intro hround
    obtain hshort | hlong := Nat.lt_or_ge n (2 ^ 53)
    · exact ⟨n, 0, by simp, hshort, Nat.zero_le _⟩
    · have hlog := log2_eq_wholePlace hlong
      have htop := log2_lt_of_lt_limit h
      -- A mantissa that were rounded up to the next power of two would be too large for the number.
      refine ⟨roundEven n (2 ^ wholePlace n), wholePlace n, hround.symm, ?_, by omega⟩
      refine Nat.lt_of_mul_lt_mul_right (a := 2 ^ wholePlace n) ?_
      calc roundEven n (2 ^ wholePlace n) * 2 ^ wholePlace n = n := hround
        _ < 2 ^ (n.log2 + 1) := Nat.lt_log2_self
        _ = 2 ^ 53 * 2 ^ wholePlace n := by rw [hlog, ← pow_add]; congr 1; omega
  · exact fun hkept => roundWhole_of_dvd hkept.dvd

theorem isFinite_infinity (negative : Bool) : (Number.float (infinity negative)).isFinite = false := by
  cases negative <;> decide +kernel

end Binary64

def denotedWhole : List Char → Int
  | '-' :: digits => -(Nat.ofDigitChars 10 digits 0 : Int)
  | digits => Nat.ofDigitChars 10 digits 0

def roundedWhole (i : Int) : Int :=
  if i < 0 then -(Binary64.roundWhole i.natAbs : Int) else Binary64.roundWhole i.natAbs

theorem roundedWhole_signed (negative : Bool) (n : Nat) :
    roundedWhole (if negative then -(n : Int) else n) =
      if negative then -(Binary64.roundWhole n : Int) else Binary64.roundWhole n := by
  obtain rfl | hpos := Nat.eq_zero_or_pos n
  · cases negative <;> decide
  · cases negative with
    | false => simp [roundedWhole]
    | true =>
        rw [roundedWhole, if_pos (by simpa using hpos)]
        simp

theorem roundedWhole_eq_self_iff (i : Int) :
    roundedWhole i = i ↔ Binary64.roundWhole i.natAbs = i.natAbs := by
  rw [roundedWhole]
  split <;> omega

namespace WholeNumeral

open Number (signs)

variable {cs digits : List Char}

theorem isDigit_of_forall (hdigits : ∀ c ∈ digits, c.isDigit = true) : ∀ c ∈ digits, isDigit c = true :=
  fun c hc => isDigit_of_isDigit (hdigits c hc)

theorem denotedWhole_plain (hdigits : ∀ c ∈ digits, c.isDigit = true) :
    denotedWhole digits = digitsValue digits := by
  rw [digitsValue_of_isDigit hdigits]
  unfold denotedWhole
  split
  · exact absurd (hdigits '-' List.mem_cons_self) (by decide)
  · rfl

theorem denotedWhole_negative (hdigits : ∀ c ∈ digits, c.isDigit = true) :
    denotedWhole ('-' :: digits) = -(digitsValue digits : Int) := by
  rw [digitsValue_of_isDigit hdigits]
  rfl

theorem exists_readFloat (h : WholeNumeral cs) : ∃ (negative : Bool) (n : Nat),
    denotedWhole cs = (if negative then -(n : Int) else n) ∧ Datum.looksWhole cs = true ∧
      Number.readFloat? cs = some ((Binary64.nearest? negative n 1).getD (Binary64.infinity negative)) := by
  have hminus : ['-'] ∈ signs := by decide
  have hnone : [] ∈ signs := by decide
  cases h with
  | plain digits hne hdigits =>
      have hall := isDigit_of_forall hdigits
      exact ⟨false, digitsValue cs, denotedWhole_plain hdigits, Datum.looksWhole_digits hnone hall,
        Datum.readFloat?_digits hnone hne hall⟩
  | negative digits hne hdigits =>
      have hall := isDigit_of_forall hdigits
      exact ⟨true, digitsValue digits, denotedWhole_negative hdigits, Datum.looksWhole_digits hminus hall,
        Datum.readFloat?_digits hminus hne hall⟩

theorem countP_negative (hdigits : ∀ c ∈ digits, isDigit c = true) :
    ('-' :: digits).countP isDigit = digits.length := by
  have hminus : isDigit '-' = false := by decide
  rw [List.countP_cons_of_neg (by simp [hminus]), List.countP_eq_length.2 hdigits]

theorem natAbs_signed (negative : Bool) (n : Nat) : (if negative then -(n : Int) else n).natAbs = n := by
  cases negative <;> simp

theorem ofText_of_lt (h : WholeNumeral cs) (hlimit : (denotedWhole cs).natAbs < Binary64.limit) :
    Datum.ofText cs = .int (roundedWhole (denotedWhole cs)) := by
  obtain ⟨negative, n, hdenoted, hlooks, hread⟩ := h.exists_readFloat
  rw [hdenoted, natAbs_signed] at hlimit
  obtain ⟨x, hnearest, hvalue⟩ := Binary64.nearest?_roundWhole negative hlimit
  rw [hnearest, Option.getD_some] at hread
  rw [hdenoted, roundedWhole_signed]
  exact Datum.ofText_of_whole hread hlooks hvalue

theorem ofText_of_le (h : WholeNumeral cs) (hlimit : Binary64.limit ≤ (denotedWhole cs).natAbs) :
    Datum.ofText cs = .text (String.ofList cs) := by
  obtain ⟨negative, n, hdenoted, hlooks, hread⟩ := h.exists_readFloat
  rw [hdenoted, natAbs_signed] at hlimit
  have hnone : Binary64.nearest? negative n 1 = none := by
    rwa [Binary64.nearest?_eq_none_iff Nat.one_pos, Nat.mul_one]
  rw [hnone, Option.getD_none] at hread
  simp [Datum.ofText, hread, Binary64.isFinite_infinity]

theorem ofText_eq_iff (h : WholeNumeral cs) :
    Datum.ofText cs = .int (denotedWhole cs) ↔ Binary64.Kept (denotedWhole cs).natAbs := by
  obtain hlt | hle := Nat.lt_or_ge (denotedWhole cs).natAbs Binary64.limit
  · rw [h.ofText_of_lt hlt, ← Binary64.roundWhole_eq_self_iff hlt, ← roundedWhole_eq_self_iff]
    simp [Datum.int]
  · rw [h.ofText_of_le hle]
    constructor
    · intro heq
      cases heq
    · exact fun hkept => absurd hkept.lt_limit hle.not_gt

end WholeNumeral

namespace Expr

variable {lookup : String → Option Datum} {digits : List Char}

def negatedGroupOf (n position : Nat) : List Token :=
  [⟨.opening, .text "(", 0⟩, ⟨.minus, .text "-", 1⟩, .number (.int n) 2,
    ⟨.closing, .text ")", position⟩, .ending (position + 1)]

theorem scan_negative_eq (digits : List Char) : scan (parenthesized (String.ofList ('-' :: digits))) =
    ([⟨.opening, .text "(", 0⟩, ⟨.minus, .text "-", 1⟩] ++ ·) <$> scanFrom 2 (digits ++ [')']) := by
  have hopening : sign? '(' = some .opening := rfl
  have hminus : sign? '-' = some .minus := rfl
  rw [scan, toList_parenthesized, String.toList_ofList, List.cons_append, scanFrom_sign hopening,
    scanFrom_sign hminus]
  cases scanFrom 2 (digits ++ [')']) <;> rfl

theorem scan_negative (hne : digits ≠ []) (hdigits : ∀ c ∈ digits, isDigit c = true)
    (hshort : digits.length ≤ digitLimit) :
    ∃ position, scan (parenthesized (String.ofList ('-' :: digits))) =
      .ok (negatedGroupOf (digitsValue digits) position) := by
  have hclosing : sign? ')' = some .closing := rfl
  refine ⟨2 + digits.length, ?_⟩
  rw [scan_negative_eq, scanFrom_digits hne hdigits, if_pos hshort, scanFrom_sign hclosing, scanFrom]
  rfl

theorem scan_long_negative (hne : digits ≠ []) (hdigits : ∀ c ∈ digits, isDigit c = true)
    (hlong : digitLimit < digits.length) :
    scan (parenthesized (String.ofList ('-' :: digits))) = .error (.overlong (.read digits.length)) := by
  rw [scan_negative_eq, scanFrom_digits hne hdigits, if_neg hlong.not_ge]
  rfl

theorem evaluate_of_integer {source : String} {tokens : List Token} {tree : Tree} {i : Int}
    (hscan : scan source = .ok tokens) (hnames : namesOf tokens = [])
    (htree : Derives .sum (bodyOf tokens) tree) (hi : tree.integer? (fun _ => 0) = some i) :
    evaluate lookup source = .ok (.int i) := by
  have hnumeric : ∀ name ∈ namesOf tokens, numeric? lookup name = some (.int 0) := by
    rw [hnames]
    exact List.forall_mem_nil _
  rw [evaluate_of_numeric hscan hnumeric, parseTokens_eq_ok_iff.2 htree]
  exact evaluate_fill hi

theorem evaluate_wholeNumeral {cs : List Char} (h : WholeNumeral cs)
    (hshort : cs.countP isDigit ≤ digitLimit) :
    evaluate lookup (parenthesized (String.ofList cs)) = .ok (.int (denotedWhole cs)) := by
  cases h with
  | plain digits hne hdigits =>
      have hall := WholeNumeral.isDigit_of_forall hdigits
      rw [List.countP_eq_length.2 hall] at hshort
      rw [← String.toList_ofList (l := cs)] at hne hall hshort
      obtain ⟨position, hscan⟩ := scan_digits hne hall hshort
      rw [String.toList_ofList] at hscan
      rw [WholeNumeral.denotedWhole_plain hdigits]
      exact evaluate_of_integer hscan rfl
        (.product (.factor (.group rfl (.product (.factor (.number rfl))) rfl))) rfl
  | negative digits hne hdigits =>
      have hall := WholeNumeral.isDigit_of_forall hdigits
      rw [WholeNumeral.countP_negative hall] at hshort
      obtain ⟨position, hscan⟩ := scan_negative hne hall hshort
      rw [WholeNumeral.denotedWhole_negative hdigits]
      exact evaluate_of_integer hscan rfl
        (.product (.factor (.group rfl (.product (.factor (.negate rfl (.number rfl)))) rfl))) rfl

theorem evaluate_long_wholeNumeral {cs : List Char} (h : WholeNumeral cs)
    (hlong : digitLimit < cs.countP isDigit) :
    evaluate lookup (parenthesized (String.ofList cs)) =
      .error (.escape (.overlong (.read (cs.countP isDigit)))) := by
  cases h with
  | plain digits hne hdigits =>
      have hall := WholeNumeral.isDigit_of_forall hdigits
      rw [List.countP_eq_length.2 hall] at hlong ⊢
      rw [← String.toList_ofList (l := cs)] at hne hall hlong
      have hscan := scan_long_digits hne hall hlong
      rw [String.toList_ofList] at hscan
      exact evaluate_of_stop hscan
  | negative digits hne hdigits =>
      have hall := WholeNumeral.isDigit_of_forall hdigits
      rw [WholeNumeral.countP_negative hall] at hlong ⊢
      exact evaluate_of_stop (scan_long_negative hne hall hlong)

end Expr

open Instrument.Expr (evaluate parenthesized)

/-- Digits, perhaps after a minus, come to the number that they denote where they stand in arithmetic, if
they are not too many to be read there. As a literal they stand for that number rounded to fifty-three
binary digits, and for their own text if it is too large for that. The two agree just on the numbers that are kept. -/
theorem whole_text_read {cs : List Char} (h : WholeNumeral cs) (lookup : String → Option Datum) :
    (cs.countP isDigit ≤ digitLimit →
        evaluate lookup (parenthesized (String.ofList cs)) = .ok (.int (denotedWhole cs))) ∧
      (digitLimit < cs.countP isDigit →
        evaluate lookup (parenthesized (String.ofList cs)) =
          .error (.escape (.overlong (.read (cs.countP isDigit))))) ∧
      ((denotedWhole cs).natAbs < Binary64.limit →
        Datum.ofText cs = .int (roundedWhole (denotedWhole cs))) ∧
      (Binary64.limit ≤ (denotedWhole cs).natAbs → Datum.ofText cs = .text (String.ofList cs)) ∧
      (Datum.ofText cs = .int (denotedWhole cs) ↔ Binary64.Kept (denotedWhole cs).natAbs) :=
  ⟨Expr.evaluate_wholeNumeral h, Expr.evaluate_long_wholeNumeral h, h.ofText_of_lt, h.ofText_of_le,
    h.ofText_eq_iff⟩

def beyondKept : List Char := "9007199254740993".toList

theorem wholeNumeral_beyondKept : WholeNumeral beyondKept :=
  .plain _ (by decide) (List.all_eq_true.1 (by decide))

theorem whole_text_read_beyondKept :
    WholeNumeral beyondKept ∧ Datum.ofText beyondKept = .int 9007199254740992 ∧
      evaluate (fun _ => none) (parenthesized (String.ofList beyondKept)) = .ok (.int 9007199254740993) := by
  obtain ⟨hshort, -, hbelow, -, -⟩ := whole_text_read wholeNumeral_beyondKept fun _ => none
  have hevaluate := hshort (by decide)
  have hdenoted : denotedWhole beyondKept = 9007199254740993 := by decide
  have hrounded : roundedWhole 9007199254740993 = 9007199254740992 := by decide +kernel
  rw [hdenoted] at hevaluate hbelow
  rw [hrounded] at hbelow
  exact ⟨wholeNumeral_beyondKept, hbelow (by decide +kernel), hevaluate⟩

theorem whole_text_not_exact :
    ¬∀ (cs : List Char) (lookup : String → Option Datum), WholeNumeral cs →
      Datum.ofText cs = .int (denotedWhole cs) ∧
        evaluate lookup (parenthesized (String.ofList cs)) = .ok (.int (denotedWhole cs)) := by
  intro hall
  obtain ⟨hexact, -⟩ := hall beyondKept (fun _ => none) wholeNumeral_beyondKept
  have hdenoted : denotedWhole beyondKept = 9007199254740993 := by decide
  have hrounded : roundedWhole 9007199254740993 = 9007199254740992 := by decide +kernel
  have hbelow := wholeNumeral_beyondKept.ofText_of_lt (by rw [hdenoted]; decide +kernel)
  rw [hexact, hdenoted, hrounded] at hbelow
  simp [Datum.int] at hbelow

end Instrument
