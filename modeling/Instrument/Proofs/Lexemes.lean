import Instrument.Expr.Token
import Mathlib.Data.List.TakeWhile

namespace Instrument

open Text

namespace Text

theorem zeroBelow?_eq_some {n first : Nat} (h : zeroBelow? n = some first) :
    first ∈ scriptZeros ∧ first ≤ n ∧ n < first + 10 := by
  have hrange := List.find?_some h
  simp only [Bool.and_eq_true, decide_eq_true_eq] at hrange
  exact ⟨List.mem_of_find?_eq_some h, hrange⟩

/-- What holds of the ten digits of every script holds of every digit. -/
theorem forall_digit {p : Char → Bool}
    (hp : ∀ first ∈ '0'.toNat :: scriptZeros, ∀ k < 10, p (Char.ofNat (first + k)) = true) {c : Char}
    (hc : isDigit c = true) : p c = true := by
  have hplace {first : Nat} (hfirst : first ∈ '0'.toNat :: scriptZeros) (hle : first ≤ c.toNat)
      (hlt : c.toNat < first + 10) : p c = true := by
    have h := hp first hfirst (c.toNat - first) (by omega)
    rwa [Nat.add_sub_cancel' hle, Char.ofNat_toNat] at h
  rw [isDigit, digitValue?] at hc
  split at hc
  · next hascii =>
      have hrange : '0'.val ≤ c.val ∧ c.val ≤ '9'.val := by simpa [Char.isDigit] using hascii
      have hlow : '0'.toNat ≤ c.toNat := UInt32.le_iff_toNat_le.mp hrange.1
      have hhigh : c.toNat ≤ '9'.toNat := UInt32.le_iff_toNat_le.mp hrange.2
      exact hplace List.mem_cons_self hlow (Nat.lt_succ_of_le hhigh)
  · split at hc
    · cases hc
    · rw [Option.isSome_map] at hc
      obtain ⟨first, hfirst⟩ := Option.isSome_iff_exists.mp hc
      obtain ⟨hmem, hle, hlt⟩ := zeroBelow?_eq_some hfirst
      exact hplace (List.mem_cons_of_mem _ hmem) hle hlt

theorem forall_nameStart {p : Char → Bool}
    (hp : ∀ n < 128, isNameStart (Char.ofNat n) = true → p (Char.ofNat n) = true) {c : Char}
    (hc : isNameStart c = true) : p c = true := by
  have hascii : c.toNat < 128 := by
    have hranges : isNameStart c = (decide ('A'.val ≤ c.val ∧ c.val ≤ 'Z'.val) ||
        (decide ('a'.val ≤ c.val) && decide (c.val ≤ 'z'.val)) || c == '_') := rfl
    simp only [hranges, Bool.or_eq_true, Bool.and_eq_true, decide_eq_true_eq, beq_iff_eq,
      UInt32.le_iff_toNat_le] at hc
    rcases hc with (⟨-, hle⟩ | ⟨-, hle⟩) | rfl
    · exact Nat.lt_of_le_of_lt hle (by decide)
    · exact Nat.lt_of_le_of_lt hle (by decide)
    · decide
  have h := hp c.toNat hascii
  rw [Char.ofNat_toNat] at h
  exact h hc

end Text

namespace Expr

def isPlain (c : Char) : Bool := !isBlank c && (sign? c).isNone

theorem isPlain_digit {c : Char} (hc : isDigit c = true) : isPlain c = true :=
  forall_digit (by decide +kernel) hc

theorem isPlain_nameStart {c : Char} (hc : isNameStart c = true) : isPlain c = true :=
  forall_nameStart (by decide +kernel) hc

theorem isBlank_of_isPlain {c : Char} (hc : isPlain c = true) : isBlank c = false := by
  rw [isPlain, Bool.and_eq_true] at hc
  simpa using hc.1

theorem sign?_of_isPlain {c : Char} (hc : isPlain c = true) : sign? c = none := by
  rw [isPlain, Bool.and_eq_true] at hc
  simpa using hc.2

theorem isBlank_of_sign? {c : Char} {kind : Kind} (hc : sign? c = some kind) : isBlank c = false := by
  unfold sign? at hc
  split at hc <;> first | decide | cases hc

theorem not_digit_of_nameStart {c : Char} (hc : isNameStart c = true) : isDigit c = false := by
  have h : (!isDigit c) = true := forall_nameStart (p := fun c => !isDigit c) (by decide +kernel) hc
  simpa using h

theorem ne_point_of_nameStart {c : Char} (hc : isNameStart c = true) : c ≠ '.' := by
  rintro rfl
  exact absurd hc (by decide)

end Expr

namespace Number

/-- A numeral: digits, digits with a point and perhaps more digits, or a point and digits. -/
inductive IsNumeral : List Char → Prop
  | whole {digits : List Char} (hne : digits ≠ []) (hdigits : ∀ c ∈ digits, isDigit c = true) :
      IsNumeral digits
  | point {digits places : List Char} (hne : digits ≠ []) (hdigits : ∀ c ∈ digits, isDigit c = true)
      (hplaces : ∀ c ∈ places, isDigit c = true) : IsNumeral (digits ++ '.' :: places)
  | bare {places : List Char} (hne : places ≠ []) (hplaces : ∀ c ∈ places, isDigit c = true) :
      IsNumeral ('.' :: places)

variable {cs digits numeral rest : List Char}

theorem digitsFront_of_digits (hdigits : ∀ c ∈ digits, isDigit c = true) (after : List Char) :
    digitsFront (digits ++ after) = (digits ++ (digitsFront after).1, (digitsFront after).2) := by
  rw [digitsFront, List.takeWhile_append_of_pos hdigits, List.dropWhile_append_of_pos hdigits,
    digitsFront]

theorem digitsFront_point (after : List Char) : digitsFront ('.' :: after) = ([], '.' :: after) := rfl

theorem isDigit_of_mem_digitsFront (cs : List Char) : ∀ c ∈ (digitsFront cs).1, isDigit c = true :=
  fun _ hc => List.mem_takeWhile_imp hc

theorem isDigit_of_digitsFront {after : List Char} (h : digitsFront cs = (digits, after)) :
    ∀ c ∈ digits, isDigit c = true := by
  have hfront := isDigit_of_mem_digitsFront cs
  rwa [h] at hfront

theorem front_of_decimal {after : List Char} (hne : digits ≠ [])
    (h : digitsFront cs = (digits, '.' :: after)) :
    numeralFront? cs = some (digits ++ '.' :: (digitsFront after).1, (digitsFront after).2) := by
  obtain ⟨c, digits, rfl⟩ := List.exists_cons_of_ne_nil hne
  rw [numeralFront?, h]
  rfl

theorem front_of_whole {after : List Char} (hne : digits ≠ []) (h : digitsFront cs = (digits, after))
    (hpoint : ∀ more, after ≠ '.' :: more) : numeralFront? cs = some (digits, after) := by
  obtain ⟨c, digits, rfl⟩ := List.exists_cons_of_ne_nil hne
  rw [numeralFront?, h]
  cases after with
  | nil => rfl
  | cons d more =>
      by_cases hd : d = '.'
      · exact absurd (congrArg (· :: more) hd) (hpoint more)
      · simp

theorem front_of_point {places after left : List Char} (hne : places ≠ [])
    (h : digitsFront after = (places, left)) :
    numeralFront? ('.' :: after) = some ('.' :: places, left) := by
  obtain ⟨c, places, rfl⟩ := List.exists_cons_of_ne_nil hne
  rw [numeralFront?, digitsFront_point]
  simp only [h]

theorem isNumeral_of_front (h : numeralFront? cs = some (numeral, rest)) : IsNumeral numeral := by
  cases hfront : digitsFront cs with
  | mk digits after =>
      have hdigits := isDigit_of_digitsFront hfront
      by_cases hne : digits = []
      · subst hne
        rw [numeralFront?, hfront] at h
        split at h
        · split at h
          · cases h
          · next places left hplaces hsome =>
              obtain ⟨rfl, rfl⟩ := Prod.mk.inj (Option.some.inj h)
              exact .bare hplaces (isDigit_of_digitsFront hsome)
        · cases h
        · next hne heq => exact absurd (Prod.mk.inj heq).1.symm hne
        · next hne _ heq => exact absurd (Prod.mk.inj heq).1.symm hne
      · by_cases hpoint : ∃ more, after = '.' :: more
        · obtain ⟨more, rfl⟩ := hpoint
          rw [front_of_decimal hne hfront] at h
          obtain ⟨rfl, rfl⟩ := Prod.mk.inj (Option.some.inj h)
          exact .point hne hdigits (isDigit_of_mem_digitsFront _)
        · rw [front_of_whole hne hfront fun more heq => hpoint ⟨more, heq⟩] at h
          obtain ⟨rfl, rfl⟩ := Prod.mk.inj (Option.some.inj h)
          exact .whole hne hdigits

theorem IsNumeral.front_append (h : IsNumeral numeral) (after : List Char) :
    ∃ more left, numeralFront? (numeral ++ after) = some (numeral ++ more, left) := by
  cases h with
  | whole hne hdigits =>
      have hfront := digitsFront_of_digits hdigits after
      have hlonger : numeral ++ (digitsFront after).1 ≠ [] := by simp [hne]
      by_cases hpoint : ∃ more, (digitsFront after).2 = '.' :: more
      · obtain ⟨more, hmore⟩ := hpoint
        rw [hmore] at hfront
        exact ⟨_, _, by rw [front_of_decimal hlonger hfront, List.append_assoc]⟩
      · exact ⟨_, _, front_of_whole hlonger hfront fun more heq => hpoint ⟨more, heq⟩⟩
  | @point digits places hne hdigits hplaces =>
      have hfront : digitsFront (digits ++ '.' :: places ++ after) =
          (digits, '.' :: (places ++ after)) := by
        rw [List.append_assoc, digitsFront_of_digits hdigits, List.cons_append, digitsFront_point,
          List.append_nil]
      rw [front_of_decimal hne hfront]
      simp only [digitsFront_of_digits hplaces]
      exact ⟨_, _, by rw [List.append_assoc digits, List.cons_append]⟩
  | bare hne hplaces =>
      rw [List.cons_append, front_of_point (by simp [hne]) (digitsFront_of_digits hplaces after)]
      exact ⟨_, _, by rw [List.cons_append]⟩

theorem longest_of_front (h : numeralFront? cs = some (numeral, rest)) {other : List Char}
    (hother : IsNumeral other) (hfront : other <+: cs) : other.length ≤ numeral.length := by
  obtain ⟨after, rfl⟩ := hfront
  obtain ⟨more, left, heq⟩ := hother.front_append after
  obtain ⟨rfl, -⟩ := Prod.mk.inj (Option.some.inj (h.symm.trans heq))
  simp

theorem front_of_longest (h : IsNumeral numeral)
    (hlongest : ∀ other, IsNumeral other → other <+: numeral ++ rest → other.length ≤ numeral.length) :
    numeralFront? (numeral ++ rest) = some (numeral, rest) := by
  obtain ⟨more, left, heq⟩ := h.front_append rest
  have happend := numeralFront?_append heq
  have hlength := hlongest _ (isNumeral_of_front heq) ⟨left, happend⟩
  rw [List.length_append] at hlength
  obtain rfl : more = [] := List.eq_nil_of_length_eq_zero (by omega)
  rw [List.append_nil] at heq happend
  rw [heq, List.append_cancel_left happend]

/-- No numeral is read just where the text begins with no digit, and with no point before a digit. -/
theorem front_eq_none {c : Char} :
    numeralFront? (c :: rest) = none ↔
      isDigit c = false ∧ ¬ (c = '.' ∧ ∃ d after, rest = d :: after ∧ isDigit d = true) := by
  constructor
  · intro h
    have hnone {numeral after : List Char} (hnumeral : IsNumeral numeral)
        (heq : c :: rest = numeral ++ after) : False := by
      obtain ⟨more, left, hfront⟩ := hnumeral.front_append after
      rw [heq, hfront] at h
      cases h
    constructor
    · rw [← Bool.not_eq_true]
      intro hc
      have hnumeral : IsNumeral [c] := .whole (by simp) (by simpa using hc)
      exact hnone hnumeral rfl
    · rintro ⟨rfl, d, after, rfl, hd⟩
      have hnumeral : IsNumeral ['.', d] := .bare (by simp) (by simpa using hd)
      exact hnone hnumeral rfl
  · rintro ⟨hdigit, hpoint⟩
    have hcons (cs : List Char) (hcs : IsNumeral cs) (after : List Char) : c :: rest ≠ cs ++ after := by
      intro heq
      have hhead {digits more : List Char} (hne : digits ≠ [])
          (hdigits : ∀ c ∈ digits, isDigit c = true) (hsame : c :: rest = digits ++ more) : False := by
        obtain ⟨d, digits, rfl⟩ := List.exists_cons_of_ne_nil hne
        obtain ⟨rfl, -⟩ := List.cons.inj hsame
        rw [hdigits c List.mem_cons_self] at hdigit
        cases hdigit
      cases hcs with
      | whole hne hdigits => exact hhead hne hdigits heq
      | point hne hdigits => exact hhead hne hdigits (heq.trans (List.append_assoc ..))
      | bare hne hplaces =>
          obtain ⟨d, places, rfl⟩ := List.exists_cons_of_ne_nil hne
          obtain ⟨rfl, rfl⟩ := List.cons.inj heq
          exact hpoint ⟨rfl, d, _, rfl, hplaces d List.mem_cons_self⟩
    cases hfront : numeralFront? (c :: rest) with
    | none => rfl
    | some read =>
        obtain ⟨numeral, after⟩ := read
        exact absurd (numeralFront?_append hfront).symm (hcons _ (isNumeral_of_front hfront) after)

theorem IsNumeral.forall_mem {p : Char → Bool} (h : IsNumeral cs) (hpoint : p '.' = true)
    (hdigit : ∀ c, isDigit c = true → p c = true) : ∀ c ∈ cs, p c = true := by
  cases h with
  | whole _ hdigits => exact fun c hc => hdigit c (hdigits c hc)
  | point _ hdigits hplaces =>
      intro c hc
      rcases List.mem_append.mp hc with hc | hc
      · exact hdigit c (hdigits c hc)
      · rcases List.mem_cons.mp hc with rfl | hc
        · exact hpoint
        · exact hdigit c (hplaces c hc)
  | bare _ hplaces =>
      intro c hc
      rcases List.mem_cons.mp hc with rfl | hc
      · exact hpoint
      · exact hdigit c (hplaces c hc)

theorem IsNumeral.ne_nil (h : IsNumeral cs) : cs ≠ [] := by
  cases h with
  | whole hne _ => exact hne
  | point => simp
  | bare => simp

theorem IsNumeral.front (h : IsNumeral cs) : numeralFront? cs = some (cs, []) := by
  have hlongest (other : List Char) (_ : IsNumeral other) (hfirst : other <+: cs ++ []) :
      other.length ≤ cs.length := by
    rw [List.append_nil] at hfirst
    exact hfirst.length_le
  have hfront := front_of_longest h hlongest
  rwa [List.append_nil] at hfront

theorem dropSeparators?_of_plain (h : ∀ c ∈ cs, c ≠ '_') (afterDigit : Bool) :
    dropSeparators? afterDigit cs = some cs := by
  induction cs generalizing afterDigit with
  | nil => rfl
  | cons c cs ih =>
      rw [dropSeparators?, if_neg (h c List.mem_cons_self),
        ih fun d hd => h d (List.mem_cons_of_mem _ hd)]
      rfl

theorem trimMargins_of_plain (h : ∀ c ∈ cs, isMargin c = false) : trimMargins cs = cs := by
  have hnone {ds : List Char} (hds : ∀ c ∈ ds, isMargin c = false) : ds.dropWhile isMargin = ds := by
    cases ds with
    | nil => rfl
    | cons d ds => rw [List.dropWhile_cons, hds d List.mem_cons_self, if_neg (by simp)]
  rw [trimMargins, hnone h, hnone fun c hc => h c (List.mem_reverse.mp hc), List.reverse_reverse]

def signs : List (List Char) := [[], ['-'], ['+']]

theorem mem_signs {sign : List Char} : sign ∈ signs ↔ sign = [] ∨ sign = ['-'] ∨ sign = ['+'] := by
  simp only [signs, List.mem_cons, List.not_mem_nil, or_false]

theorem forall_sign {p : Char → Bool} (hminus : p '-' = true) (hplus : p '+' = true) {sign : List Char}
    (hsign : sign ∈ signs) : ∀ c ∈ sign, p c = true := by
  rcases mem_signs.1 hsign with rfl | rfl | rfl <;> simp [hminus, hplus]

/-- A numeral has no margins and no separators, begins with no sign, and is no name of a value. -/
structure Unadorned (cs : List Char) : Prop where
  margin : ∀ c ∈ cs, isMargin c = false
  separator : ∀ c ∈ cs, c ≠ '_'
  sign : signFront cs = (false, cs)
  named : ∀ negative, named? negative cs = none

theorem IsNumeral.unadorned (h : IsNumeral cs) : Unadorned cs := by
  have hmargin := h.forall_mem (p := fun c => !isMargin c) (by decide)
    fun c hc => forall_digit (p := fun c => !isMargin c) (by decide +kernel) hc
  have hseparator := h.forall_mem (p := (· != '_')) (by decide)
    fun c hc => forall_digit (p := (· != '_')) (by decide +kernel) hc
  have hsign := h.forall_mem (p := fun c => c != '-' && c != '+') (by decide)
    fun c hc => forall_digit (p := fun c => c != '-' && c != '+') (by decide +kernel) hc
  have hletter := h.forall_mem (p := (·.toLower != 'n')) (by decide)
    fun c hc => forall_digit (p := (·.toLower != 'n')) (by decide +kernel) hc
  refine ⟨fun c hc => by simpa using hmargin c hc, fun c hc => by simpa using hseparator c hc, ?_, ?_⟩
  · obtain ⟨c, rest, rfl⟩ := List.exists_cons_of_ne_nil h.ne_nil
    have hc := hsign c List.mem_cons_self
    simp only [Bool.and_eq_true, bne_iff_ne, ne_eq] at hc
    unfold signFront
    split
    · next heq => exact absurd (List.cons.inj heq).1 hc.1
    · next heq => exact absurd (List.cons.inj heq).1 hc.2
    · rfl
  · intro negative
    have hlower (word : List Char) (hn : 'n' ∈ word) : cs.map Char.toLower ≠ word := by
      rintro rfl
      obtain ⟨c, hc, heq⟩ := List.mem_map.mp hn
      simpa [heq] using hletter c hc
    simp only [named?, hlower "inf".toList (by decide), hlower "infinity".toList (by decide),
      hlower "nan".toList (by decide), decide_false, Bool.or_self, Bool.false_eq_true, if_false]

theorem IsNumeral.readFloat?_signed (h : IsNumeral cs) {sign : List Char} (hsign : sign ∈ signs) :
    ∃ d, decimal? cs = some d ∧ Number.readFloat? (sign ++ cs) = some (d.toFloat (sign == ['-'])) := by
  have hbare := h.unadorned
  have hmargin : ∀ c ∈ sign ++ cs, isMargin c = false := by
    intro c hc
    rcases List.mem_append.mp hc with hc | hc
    · simpa using forall_sign (p := fun c => !isMargin c) (by decide) (by decide) hsign c hc
    · exact hbare.margin c hc
  have hseparator : ∀ c ∈ sign ++ cs, c ≠ '_' := by
    intro c hc
    rcases List.mem_append.mp hc with hc | hc
    · simpa using forall_sign (p := (· != '_')) (by decide) (by decide) hsign c hc
    · exact hbare.separator c hc
  have hplain : dropSeparators? false (trimMargins (sign ++ cs)) = some (sign ++ cs) := by
    rw [trimMargins_of_plain hmargin]
    exact dropSeparators?_of_plain hseparator false
  have hbody : signFront (sign ++ cs) = (sign == ['-'], cs) := by
    rcases mem_signs.1 hsign with rfl | rfl | rfl
    · exact hbare.sign
    · rfl
    · rfl
  obtain ⟨d, hd⟩ : ∃ d, decimal? cs = some d := by simp [decimal?, h.front]
  refine ⟨d, hd, ?_⟩
  simp [Number.readFloat?, hplain, hbody, hbare.named, hd]

theorem IsNumeral.readFloat? (h : IsNumeral cs) :
    ∃ d, decimal? cs = some d ∧ Number.readFloat? cs = some (d.toFloat false) :=
  h.readFloat?_signed List.mem_cons_self

end Number

end Instrument
