import Instrument.Proofs.Layout
import Instrument.Proofs.Lexemes

namespace Instrument

open Text

namespace Text

def blankCodes : List Nat :=
  List.range' 9 5 ++ List.range' 28 5 ++ [0x85, 0xa0, 0x1680] ++ List.range' 0x2000 11 ++
    [0x2028, 0x2029, 0x202f, 0x205f, 0x3000]

theorem forall_blank {p : Char → Bool} (hp : ∀ n ∈ blankCodes, p (Char.ofNat n) = true) {c : Char}
    (hc : isBlank c = true) : p c = true := by
  have hmem : c.toNat ∈ blankCodes := by
    simp only [isBlank, Bool.or_eq_true, Bool.and_eq_true, decide_eq_true_eq, beq_iff_eq] at hc
    simp only [blankCodes, List.mem_append, List.mem_range'_1, List.mem_cons, List.not_mem_nil, or_false]
    omega
  have h := hp c.toNat hmem
  rwa [Char.ofNat_toNat] at h

theorem not_isBlank_of_isWordChar {c : Char} (hc : isWordChar c = true) : isBlank c = false := by
  rw [← Bool.not_eq_true]
  intro hblank
  have hnot : (!isWordChar c) = true := forall_blank (p := fun c => !isWordChar c) (by decide +kernel) hblank
  rw [hc] at hnot
  cases hnot

theorem isPlain_of_isWordChar {c : Char} (hc : isWordChar c = true) : Expr.isPlain c = true := by
  rw [Expr.isPlain, not_isBlank_of_isWordChar hc, Bool.not_false, Bool.true_and, Option.isNone_iff_eq_none,
    Option.eq_none_iff_forall_ne_some]
  intro kind hkind
  unfold Expr.sign? at hkind
  split at hkind <;> first | exact absurd hc (by decide) | cases hkind

theorem stripEnd_append_of_ne {cs : List Char} (h : stripEnd cs ≠ []) (lead : List Char) :
    stripEnd (lead ++ cs) = lead ++ stripEnd cs := by
  induction lead with
  | nil => rfl
  | cons c lead ih =>
      rw [List.cons_append, stripEnd, ih]
      split
      · next hnil => simp [h] at hnil
      · rfl

theorem length_stripEnd_le (cs : List Char) : (stripEnd cs).length ≤ cs.length := by
  induction cs with
  | nil => exact Nat.le_refl _
  | cons c cs ih =>
      rw [stripEnd]
      split
      · split <;> simp
      · simpa using ih

theorem trimmed_of_strip {cs : List Char} (h : strip cs = cs) : stripStart cs = cs ∧ stripEnd cs = cs := by
  have hstart : stripStart cs = cs := by
    have hlength := length_stripEnd_le (stripStart cs)
    rw [← strip, h] at hlength
    exact (List.dropWhile_suffix _).eq_of_length_le hlength
  rw [strip, hstart] at h
  exact ⟨hstart, h⟩

theorem strip_of_no_blank {cs : List Char} (h : ∀ c ∈ cs, isBlank c = false) : strip cs = cs := by
  have hend : stripEnd cs = cs := by
    induction cs with
    | nil => rfl
    | cons c cs ih =>
        rw [List.forall_mem_cons] at h
        rw [stripEnd_cons h.1, ih h.2]
  have hstart : stripStart cs = cs := by
    cases cs with
    | nil => rfl
    | cons c cs => rw [stripStart, List.dropWhile_cons_of_neg (by simp [h c List.mem_cons_self])]
  rw [strip, hstart, hend]

end Text

namespace Number

theorem isBlank_of_isMargin {c : Char} (hc : isMargin c = true) : isBlank c = true := by
  rw [isMargin, Bool.and_eq_true] at hc
  exact hc.1

theorem trimMargins_of_strip {cs : List Char} (h : strip cs = cs) : trimMargins cs = cs := by
  have hnone {ds : List Char} (hds : ∀ c ∈ ds.head?, isBlank c = false) : ds.dropWhile isMargin = ds := by
    cases ds with
    | nil => rfl
    | cons d ds =>
        refine List.dropWhile_cons_of_neg fun hd => ?_
        have hblank := hds d rfl
        rw [isBlank_of_isMargin hd] at hblank
        cases hblank
  obtain ⟨hstart, hend⟩ := trimmed_of_strip h
  have hfirst : ∀ c ∈ cs.head?, isBlank c = false := by
    intro c hc
    have hhead := List.head?_dropWhile_not isBlank cs
    rw [← stripStart, hstart, hc] at hhead
    simpa using hhead
  have hlast : ∀ c ∈ cs.reverse.head?, isBlank c = false := by
    intro c hc
    obtain ⟨init, rfl⟩ : ∃ init, cs = init ++ [c] := by
      obtain ⟨rest, hrest⟩ := List.head?_eq_some_iff.1 hc
      exact ⟨rest.reverse, by rw [← List.reverse_reverse cs, hrest, List.reverse_cons]⟩
    rw [← Bool.not_eq_true]
    intro hblank
    rw [Document.stripEnd_append (by simpa using hblank)] at hend
    have hlength := length_stripEnd_le init
    rw [hend, List.length_append] at hlength
    exact absurd hlength (Nat.not_succ_le_self _)
  rw [trimMargins, hnone hfirst, hnone hlast, List.reverse_reverse]

variable {cs body digits numeral text rest : List Char} {d : Decimal} {x : Float}

theorem dropSeparators?_cons {c : Char} (hc : c ≠ '_') (afterDigit : Bool) (cs : List Char) :
    dropSeparators? afterDigit (c :: cs) = (dropSeparators? (isDigit c) cs).map (c :: ·) := by
  rw [dropSeparators?, if_neg hc]

theorem exists_cons_of_dropSeparators? {c : Char} (h : dropSeparators? false cs = some (c :: body)) :
    ∃ rest, cs = c :: rest ∧ dropSeparators? (isDigit c) rest = some body := by
  cases cs with
  | nil => cases h
  | cons first rest =>
      by_cases hfirst : first = '_'
      · simp [dropSeparators?, hfirst] at h
      · rw [dropSeparators?_cons hfirst] at h
        obtain ⟨body', hbody, heq⟩ := Option.map_eq_some_iff.1 h
        obtain ⟨rfl, rfl⟩ := List.cons.inj heq
        exact ⟨rest, rfl, hbody⟩

theorem dropSeparators?_append (hplain : ∀ c ∈ cs, c ≠ '_') {afterDigit : Bool}
    (h : dropSeparators? afterDigit (cs ++ rest) = some text) :
    ∃ last body, text = cs ++ body ∧ dropSeparators? last rest = some body := by
  induction cs generalizing afterDigit text with
  | nil => exact ⟨afterDigit, text, rfl, h⟩
  | cons c cs ih =>
      rw [List.forall_mem_cons] at hplain
      rw [List.cons_append, dropSeparators?_cons hplain.1] at h
      obtain ⟨text', htext, rfl⟩ := Option.map_eq_some_iff.1 h
      obtain ⟨last, body, rfl, hbody⟩ := ih hplain.2 htext
      exact ⟨last, body, rfl, hbody⟩

theorem mem_of_dropSeparators? {afterDigit : Bool} (h : dropSeparators? afterDigit cs = some body) :
    ∀ c ∈ cs, c = '_' ∨ c ∈ body := by
  induction cs generalizing afterDigit body with
  | nil => simp
  | cons first rest ih =>
      rw [List.forall_mem_cons]
      by_cases hfirst : first = '_'
      · rw [dropSeparators?, if_pos hfirst, Option.ite_none_right_eq_some] at h
        exact ⟨.inl hfirst, ih h.2⟩
      · rw [dropSeparators?_cons hfirst] at h
        obtain ⟨body', hbody, rfl⟩ := Option.map_eq_some_iff.1 h
        exact ⟨.inr List.mem_cons_self, fun c hc => (ih hbody c hc).imp_right (List.mem_cons_of_mem _)⟩

theorem exists_sign (cs : List Char) :
    ∃ sign ∈ signs, cs = sign ++ (signFront cs).2 ∧ (signFront cs).1 = (sign == ['-']) := by
  unfold signFront
  split
  · exact ⟨['-'], by decide, rfl, rfl⟩
  · exact ⟨['+'], by decide, rfl, rfl⟩
  · exact ⟨[], by decide, rfl, rfl⟩

def inNumeral (c : Char) : Bool := isDigit c || c == '.'

theorem IsNumeral.inNumeral (h : IsNumeral cs) : ∀ c ∈ cs, inNumeral c = true :=
  h.forall_mem (by decide) fun c hc => by rw [Number.inNumeral, hc, Bool.true_or]

theorem isPlain_of_inNumeral {c : Char} (hc : inNumeral c = true) : Expr.isPlain c = true := by
  rw [inNumeral, Bool.or_eq_true, beq_iff_eq] at hc
  rcases hc with hc | rfl
  · exact Expr.isPlain_digit hc
  · decide

theorem not_nameStart_of_inNumeral {c : Char} (hc : inNumeral c = true) : isNameStart c = false := by
  rw [← Bool.not_eq_true]
  intro hname
  rw [inNumeral, Expr.not_digit_of_nameStart hname, Bool.false_or, beq_iff_eq] at hc
  exact Expr.ne_point_of_nameStart hname hc

theorem IsNumeral.takeWhile_append (h : IsNumeral cs) (hrest : ∀ c ∈ rest.head?, Number.inNumeral c = false) :
    (cs ++ rest).takeWhile Number.inNumeral = cs := by
  rw [List.takeWhile_append_of_pos h.inNumeral]
  cases rest with
  | nil => exact List.append_nil cs
  | cons c rest => rw [List.takeWhile_cons_of_neg (by simp [hrest c rfl]), List.append_nil]

theorem exists_front_of_decimal? (h : decimal? body = some d) :
    ∃ numeral rest, numeralFront? body = some (numeral, rest) ∧
      (rest = [] ∨ ∃ e more, rest = e :: more ∧ (e = 'e' ∨ e = 'E') ∧ (exponent? more).isSome = true) := by
  cases hfront : numeralFront? body with
  | none => simp [decimal?, hfront] at h
  | some front =>
      obtain ⟨numeral, rest⟩ := front
      refine ⟨numeral, rest, rfl, ?_⟩
      cases rest with
      | nil => exact .inl rfl
      | cons e more =>
          right
          by_cases hmark : e = 'e' ∨ e = 'E'
          · refine ⟨e, more, rfl, hmark, ?_⟩
            cases hexponent : exponent? more with
            | some exponent => rfl
            | none => simp [decimal?, hfront, hmark, hexponent] at h
          · simp [decimal?, hfront, hmark] at h

def isPart (c : Char) : Bool := isDigit c || "._eE+-".toList.contains c

theorem isPart_of_isDigit {c : Char} (hc : isDigit c = true) : isPart c = true := by
  rw [isPart, hc, Bool.true_or]

theorem forall_isPart {p : Char → Bool} (hother : "._eE+-".toList.all p = true)
    (hdigit : ∀ first ∈ '0'.toNat :: scriptZeros, ∀ k < 10, p (Char.ofNat (first + k)) = true) {c : Char}
    (hc : isPart c = true) : p c = true := by
  rw [isPart, Bool.or_eq_true, List.contains_iff_mem] at hc
  exact hc.elim (forall_digit hdigit) (List.all_eq_true.1 hother c)

theorem isPart_of_mem_sign {sign : List Char} (hsign : sign ∈ signs) : ∀ c ∈ sign, isPart c = true :=
  forall_sign (by decide) (by decide) hsign

theorem isPart_of_exponent? (h : (exponent? cs).isSome = true) : ∀ c ∈ cs, isPart c = true := by
  obtain ⟨sign, hsign, hcs, -⟩ := exists_sign cs
  have hdigits : (signFront cs).2.all isDigit = true := by
    simp only [exponent?] at h
    cases hall : (signFront cs).2.all isDigit with
    | true => rfl
    | false => simp [hall] at h
  intro c hc
  rw [hcs, List.mem_append] at hc
  exact hc.elim (isPart_of_mem_sign hsign c) fun hc => isPart_of_isDigit (List.all_eq_true.1 hdigits c hc)

theorem isPart_of_decimal? (h : decimal? body = some d) : ∀ c ∈ body, isPart c = true := by
  obtain ⟨numeral, rest, hfront, hrest⟩ := exists_front_of_decimal? h
  intro c hc
  rw [← numeralFront?_append hfront, List.mem_append] at hc
  rcases hc with hc | hc
  · exact (isNumeral_of_front hfront).forall_mem (by decide) (fun _ => isPart_of_isDigit) c hc
  · rcases hrest with rfl | ⟨e, more, rfl, hmark, hmore⟩
    · cases hc
    · rcases List.mem_cons.1 hc with rfl | hc
      · rcases hmark with rfl | rfl <;> decide
      · exact isPart_of_exponent? hmore c hc

/-- How a finite number is written: a sign perhaps, and a decimal that may have single separators between
its digits. -/
structure Written (text : List Char) (x : Float) (sign cs body : List Char) (d : Decimal) : Prop where
  sign_mem : sign ∈ signs
  text_eq : text = sign ++ cs
  body_eq : dropSeparators? false cs = some body
  decimal_eq : decimal? body = some d
  value_eq : x = d.toFloat (sign == ['-'])

theorem not_isFinite_of_named? {negative : Bool} (h : named? negative body = some x) :
    (Number.float x).isFinite = false := by
  have hinfinity : ∀ negative, (Number.float (Binary64.infinity negative)).isFinite = false := by
    decide +kernel
  have hnan : (Number.float Binary64.notANumber).isFinite = false := by decide +kernel
  simp only [named?] at h
  split at h
  · obtain rfl := Option.some.inj h
    exact hinfinity negative
  · split at h
    · obtain rfl := Option.some.inj h
      exact hnan
    · cases h

theorem exists_written (hread : readFloat? text = some x) (hfinite : (Number.float x).isFinite = true)
    (htrim : trimMargins text = text) : ∃ sign cs body d, Written text x sign cs body d := by
  simp only [readFloat?, htrim, Option.bind_eq_bind, Option.bind_eq_some_iff] at hread
  obtain ⟨plain, hplain, hread⟩ := hread
  obtain ⟨sign, hsign, hcut, hnegative⟩ := exists_sign plain
  have hbehind : ∃ cs, text = sign ++ cs ∧ dropSeparators? false cs = some (signFront plain).2 := by
    rw [hcut] at hplain
    have hmark {c : Char} (hc : isDigit c = false)
        (h : dropSeparators? false text = some ([c] ++ (signFront plain).2)) :
        ∃ cs, text = [c] ++ cs ∧ dropSeparators? false cs = some (signFront plain).2 := by
      obtain ⟨rest, hrest, hbody⟩ := exists_cons_of_dropSeparators? h
      rw [hc] at hbody
      exact ⟨rest, hrest, hbody⟩
    rcases mem_signs.1 hsign with rfl | rfl | rfl
    · exact ⟨text, rfl, hplain⟩
    · exact hmark (by decide) hplain
    · exact hmark (by decide) hplain
  obtain ⟨cs, htext, hbody⟩ := hbehind
  split at hread
  · next named hnamed =>
      obtain rfl := Option.some.inj hread
      rw [not_isFinite_of_named? hnamed] at hfinite
      cases hfinite
  · obtain ⟨d, hd, rfl⟩ := Option.map_eq_some_iff.1 hread
    exact ⟨sign, cs, _, d, hsign, htext, hbody, hd, by rw [hnegative]⟩

namespace Written

variable {sign : List Char}

theorem isPart (h : Written text x sign cs body d) : ∀ c ∈ text, isPart c = true := by
  intro c hc
  rw [h.text_eq, List.mem_append] at hc
  rcases hc with hc | hc
  · exact isPart_of_mem_sign h.sign_mem c hc
  · rcases mem_of_dropSeparators? h.body_eq c hc with rfl | hc
    · decide
    · exact isPart_of_decimal? h.decimal_eq c hc

theorem exists_cons (h : Written text x sign cs body d) : ∃ c rest, cs = c :: rest ∧ inNumeral c = true := by
  obtain ⟨numeral, after, hfront, -⟩ := exists_front_of_decimal? h.decimal_eq
  have hnumeral := isNumeral_of_front hfront
  obtain ⟨c, digits, hcons⟩ := List.exists_cons_of_ne_nil hnumeral.ne_nil
  have hbody : body = c :: (digits ++ after) := by rw [← numeralFront?_append hfront, hcons, List.cons_append]
  obtain ⟨rest, rfl, -⟩ := exists_cons_of_dropSeparators? (hbody ▸ h.body_eq)
  exact ⟨c, rest, rfl, hnumeral.inNumeral c (by simp [hcons])⟩

theorem isPlain_next (h : Written text x sign cs body d) (hnumeral : IsNumeral numeral) {c : Char}
    (happend : cs = numeral ++ c :: rest) : Expr.isPlain c = true := by
  by_cases hseparator : c = '_'
  · subst hseparator
    decide
  cases hc : inNumeral c with
  | true => exact isPlain_of_inNumeral hc
  | false =>
      have hdropped := h.body_eq
      rw [happend] at hdropped
      obtain ⟨last, left, hbody, hleft⟩ := dropSeparators?_append hnumeral.unadorned.separator hdropped
      rw [dropSeparators?_cons hseparator] at hleft
      obtain ⟨more, -, rfl⟩ := Option.map_eq_some_iff.1 hleft
      -- The numeral is the longest row of digits and points in front, and an exponent follows that.
      obtain ⟨front, after, hfront, hafter⟩ := exists_front_of_decimal? h.decimal_eq
      have hrun : body.takeWhile inNumeral = numeral := by
        rw [hbody]
        exact hnumeral.takeWhile_append fun ch hch => Option.some.inj hch ▸ hc
      have hend : ∀ ch ∈ after.head?, inNumeral ch = false ∧ Expr.isPlain ch = true := by
        intro ch hch
        rcases hafter with rfl | ⟨e, exponent, rfl, hmark, -⟩
        · cases hch
        · obtain rfl := Option.some.inj hch
          rcases hmark with rfl | rfl <;> decide
      have hsplit := numeralFront?_append hfront
      have hsame : body.takeWhile inNumeral = front := by
        rw [← hsplit]
        exact (isNumeral_of_front hfront).takeWhile_append fun ch hch => (hend ch hch).1
      obtain rfl := hrun.symm.trans hsame
      obtain rfl := List.append_cancel_left (hsplit.trans hbody)
      exact (hend c rfl).2

end Written

/-- The signs of a number that are not taken for those of arithmetic, or come to the same there: none, and a
minus in front of a numeral. -/
inductive PlainlySigned : List Char → Prop
  | bare {text : List Char} (h : ∀ c ∈ text, c ≠ '+' ∧ c ≠ '-') : PlainlySigned text
  | minus {cs : List Char} (h : IsNumeral cs) : PlainlySigned ('-' :: cs)

theorem IsNumeral.plainlySigned (h : IsNumeral cs) : PlainlySigned cs := by
  have hall := h.forall_mem (p := fun c => c != '+' && c != '-') (by decide)
    fun c hc => forall_digit (p := fun c => c != '+' && c != '-') (by decide +kernel) hc
  exact .bare fun c hc => by simpa using hall c hc

end Number

namespace Expr

open Number (IsNumeral PlainlySigned digitsFront)

variable {cs text : List Char}

def behindMinus : List Char → List Char
  | '-' :: rest => rest
  | cs => cs

def behindPoint : List Char → List Char
  | '.' :: places => (digitsFront places).2
  | rest => rest

theorem isPlainNumeral_eq (text : List Char) :
    isPlainNumeral text = (!(digitsFront (behindMinus text)).1.isEmpty &&
      ((behindPoint (digitsFront (behindMinus text)).2).isEmpty ||
        behindPoint (digitsFront (behindMinus text)).2 == ['\n'])) := by
  have hpoint (rest : List Char) :
      behindPoint rest = match rest with | '.' :: places => (digitsFront places).2 | _ => rest := by
    unfold behindPoint
    split <;> rfl
  have hminus : behindMinus text = match text with | '-' :: rest => rest | _ => text := by
    unfold behindMinus
    split <;> rfl
  rw [hpoint, hminus]
  rfl

theorem mem_of_mem_digitsFront {c : Char} (hc : c ∈ (digitsFront cs).2) : c ∈ cs :=
  (List.dropWhile_sublist Text.isDigit).mem hc

theorem mem_of_mem_behindPoint {c : Char} (hc : c ∈ behindPoint cs) : c ∈ cs := by
  unfold behindPoint at hc
  split at hc
  · exact List.mem_cons_of_mem _ (mem_of_mem_digitsFront hc)
  · exact hc

theorem mem_of_mem_behindMinus {c : Char} (hc : c ∈ behindMinus cs) : c ∈ cs := by
  unfold behindMinus at hc
  split at hc
  · exact List.mem_cons_of_mem _ hc
  · exact hc

theorem isNumeral_of_behindPoint (hne : (digitsFront cs).1 ≠ [])
    (hend : behindPoint (digitsFront cs).2 = []) : IsNumeral cs := by
  have hdigits := Number.isDigit_of_mem_digitsFront cs
  have happend := Number.digitsFront_append cs
  rw [← happend]
  unfold behindPoint at hend
  split at hend
  · next places heq =>
      have hplaces := Number.digitsFront_append places
      have hall := Number.isDigit_of_mem_digitsFront places
      rw [hend, List.append_nil] at hplaces
      rw [hplaces] at hall
      rw [heq]
      exact .point hne hdigits hall
  · rw [hend, List.append_nil]
    exact .whole hne hdigits

theorem plainlySigned_of_isPlainNumeral (h : isPlainNumeral text = true) (hline : '\n' ∉ text) :
    PlainlySigned text := by
  simp only [isPlainNumeral_eq, Bool.and_eq_true, Bool.not_eq_true', Bool.or_eq_true, beq_iff_eq,
    List.isEmpty_iff, List.isEmpty_eq_false_iff] at h
  obtain ⟨hne, hend⟩ := h
  have hnil : behindPoint (digitsFront (behindMinus text)).2 = [] := by
    refine hend.resolve_right fun hfeed => hline ?_
    have hmem : '\n' ∈ behindPoint (digitsFront (behindMinus text)).2 := by simp [hfeed]
    exact mem_of_mem_behindMinus (mem_of_mem_digitsFront (mem_of_mem_behindPoint hmem))
  have hnumeral := isNumeral_of_behindPoint hne hnil
  unfold behindMinus at hnumeral
  split at hnumeral
  · exact .minus hnumeral
  · exact hnumeral.plainlySigned

theorem isPlainNumeral_minus (h : IsNumeral cs) :
    isPlainNumeral ('-' :: cs) = true ∨ ∃ places, cs = '.' :: places := by
  have hall {digits : List Char} (hdigits : ∀ c ∈ digits, Text.isDigit c = true) :
      digitsFront digits = (digits, []) := by
    have hfront := Number.digitsFront_of_digits hdigits []
    rwa [List.append_nil, show digitsFront [] = ([], []) from rfl, List.append_nil] at hfront
  have hbehind : behindMinus ('-' :: cs) = cs := rfl
  rw [isPlainNumeral_eq, hbehind]
  cases h with
  | whole hne hdigits =>
      left
      rw [hall hdigits]
      simpa [behindPoint] using hne
  | @point digits places hne hdigits hplaces =>
      have hfront := Number.digitsFront_of_digits hdigits ('.' :: places)
      rw [Number.digitsFront_point, List.append_nil] at hfront
      left
      rw [hfront]
      simpa [behindPoint, hall hplaces] using hne
  | bare => exact .inr ⟨_, rfl⟩

end Expr

end Instrument
