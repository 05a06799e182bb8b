import Instrument.Proofs.Declaring

namespace Instrument

open Text

namespace Expr

open Number (IsNumeral)

variable {cs lexeme : List Char} {c : Char}

theorem Front.exists_numeral (h : Front (c :: cs) lexeme) (hc : Number.inNumeral c = true) :
    ∃ after, Number.numeralFront? (c :: cs) = some (lexeme, after) := by
  cases h with
  | numeral hfront => exact ⟨_, hfront⟩
  | name hcs hstart =>
      obtain ⟨rfl, -⟩ := List.cons.inj hcs
      rw [Number.not_nameStart_of_inNumeral hc] at hstart
      cases hstart

def negationOf (n : Number) (length : Nat) : List Token :=
  [⟨.minus, .text "-", 0⟩, .number n 1, .ending (1 + length : Nat)]

theorem scan_minus (h : IsNumeral cs) (hpoint : '.' ∈ cs) :
    scan (String.ofList ('-' :: cs)) = .ok (negationOf (.spelled cs) cs.length) := by
  have hsign : sign? '-' = some .minus := rfl
  obtain ⟨c, rest, rfl⟩ := List.exists_cons_of_ne_nil h.ne_nil
  rw [scan, String.toList_ofList, scanFrom_sign hsign, scanFrom_plain (isPlain_of_numeral h), h.front]
  simp only [Number.ofNumeral_of_readable (.inl hpoint), scanFrom]
  rfl

theorem evaluateTokens_negationOf (source : String) (n : Number) (length : Nat) :
    evaluateTokens source (negationOf n length) = .ok (.number n.neg) := by
  have hread : Derives .sum (bodyOf (negationOf n length)) (.unary "-" (.number (.number n))) :=
    .product (.factor (.negate rfl (.number rfl)))
  rw [evaluateTokens, parseTokens_eq_ok_iff.mpr hread]
  rfl

end Expr

namespace Datum

open Number (Written PlainlySigned IsNumeral)

variable {text : List Char} {x : Number}

theorem isFinite_of_ofText {value : Float} (hread : ofText text = .number x)
    (hfloat : Number.readFloat? text = some value) : (Number.float value).isFinite = true := by
  cases hfinite : (Number.float value).isFinite with
  | true => rfl
  | false => simp [ofText, hfloat, hfinite] at hread

theorem exists_written (hread : ofText text = .number x) (hstrip : strip text = text) :
    ∃ value sign cs body d, Written text value sign cs body d := by
  cases hfloat : Number.readFloat? text with
  | none => simp [ofText, hfloat] at hread
  | some value =>
      exact ⟨value, Number.exists_written hfloat (isFinite_of_ofText hread hfloat)
        (Number.trimMargins_of_strip hstrip)⟩

theorem isPart_of_ofText (hread : ofText text = .number x) (hstrip : strip text = text) :
    ∀ c ∈ text, Number.isPart c = true := by
  obtain ⟨_, _, _, _, _, hwritten⟩ := exists_written hread hstrip
  exact hwritten.isPart

theorem isOperator_iff (hread : ofText text = .number x) (hstrip : strip text = text) :
    text.any Expr.isOperator = true ↔ ∃ c ∈ text, c = '+' ∨ c = '-' := by
  rw [List.any_eq_true]
  refine exists_congr fun c => and_congr_right fun hc => ?_
  have hother : (Expr.isOperator c == (c == '+' || c == '-')) = true :=
    Number.forall_isPart (p := fun c => Expr.isOperator c == (c == '+' || c == '-')) (by decide)
      (by decide +kernel) (isPart_of_ofText hread hstrip c hc)
  rw [eq_of_beq hother, Bool.or_eq_true, beq_iff_eq, beq_iff_eq]

theorem plainlySigned_of_not_isArithmetic (hread : ofText text = .number x) (hstrip : strip text = text)
    (h : Expr.isArithmetic text = false) : PlainlySigned text := by
  rw [Expr.isArithmetic, Bool.and_eq_false_iff, Bool.not_eq_false'] at h
  rcases h with hnone | hplain
  · refine .bare fun c hc => not_or.1 fun hsign => ?_
    have hany := (isOperator_iff hread hstrip).2 ⟨c, hc, hsign⟩
    rw [hnone] at hany
    cases hany
  · refine Expr.plainlySigned_of_isPlainNumeral hplain fun hfeed => ?_
    exact absurd (isPart_of_ofText hread hstrip '\n' hfeed) (by decide)

theorem not_isName (hread : ofText text = .number x) (hstrip : strip text = text) : isName text = false := by
  obtain ⟨_, sign, cs, _, _, hwritten⟩ := exists_written hread hstrip
  obtain ⟨c, rest, rfl, hc⟩ := hwritten.exists_cons
  have hstart : ∀ c rest, isNameStart c = false → isName (c :: rest) = false := by
    intro c rest hc
    rw [isName, hc, Bool.false_and]
  rw [hwritten.text_eq]
  rcases Number.mem_signs.1 hwritten.sign_mem with rfl | rfl | rfl
  · exact hstart c rest (Number.not_nameStart_of_inNumeral hc)
  · exact hstart '-' _ (by decide)
  · exact hstart '+' _ (by decide)

end Datum

namespace Document

theorem plain_of_ofText {text : List Char} {x : Number} (hread : Datum.ofText text = .number x)
    (hstrip : strip text = text) : Plain text where
  ne_nil := by
    obtain ⟨_, _, _, _, _, hwritten⟩ := Datum.exists_written hread hstrip
    obtain ⟨c, rest, rfl, -⟩ := hwritten.exists_cons
    rw [hwritten.text_eq]
    simp
  strip_eq := hstrip
  not_name := Datum.not_isName hread hstrip
  not_bracketed hmem := absurd (Datum.isPart_of_ofText hread hstrip ']' hmem) (by decide)

end Document

namespace Store

open Number (PlainlySigned IsNumeral Written)
open Document (plainValue)

variable {s : Store} {key : Option String} {name : String} {text : List Char} {x : Number} {v : Value}
  {d : Datum}

theorem resolves_of_denotes (hvalue : s.effective? name key = some v) (h : s.Denotes key v (.number x)) :
    s.Resolves key name (.number x) := by
  cases h with
  | literal => exact .literal hvalue (by simp)
  | reference h => exact .reference hvalue h
  | arithmetic hscan hnumber heval =>
      choose! value hresolves hcounts using hnumber
      exact .expression hvalue hscan hresolves hcounts heval

theorem denotes_minus {places : List Char} (h : IsNumeral ('.' :: places))
    (hread : Datum.ofText ('-' :: '.' :: places) = .number x) :
    s.Denotes key (.expression (.text (String.ofList ('-' :: '.' :: places)))) (.number x) := by
  have hpoint : '.' ∈ '-' :: '.' :: places := by simp
  have hminus : ['-'] ∈ Number.signs := by decide
  obtain ⟨d, hd, hfloat⟩ := h.readFloat?_signed hminus
  have hvalue : Datum.ofText ('-' :: '.' :: places) = .number (.float (d.toFloat true)) :=
    Datum.ofText_of_point hfloat hpoint (Datum.isFinite_of_ofText hread hfloat)
  obtain rfl := Datum.number.inj (hread.symm.trans hvalue)
  have hnumber : Number.spelled ('.' :: places) = .float (d.toFloat false) := by
    simp [Number.spelled, hd]
  have hscan := Expr.scan_minus h List.mem_cons_self
  rw [hnumber] at hscan
  have hnames : ∀ other ∈ Expr.namesOf (Expr.negationOf (.float (d.toFloat false)) ('.' :: places).length),
      s.IsNumber key other (.int 0) := List.forall_mem_nil _
  rw [d.toFloat_true]
  exact .arithmetic hscan hnames (Expr.evaluateTokens_negationOf ..)

theorem denotes_plainValue (hread : Datum.ofText text = .number x) (hstrip : strip text = text)
    (hsigned : PlainlySigned text) : s.Denotes key (plainValue text) (.number x) := by
  cases harithmetic : Expr.isArithmetic text with
  | false =>
      rw [plainValue, harithmetic, hread]
      exact .literal
  | true =>
      rw [plainValue, if_pos harithmetic]
      rw [Expr.isArithmetic, Bool.and_eq_true, Bool.not_eq_true'] at harithmetic
      cases hsigned with
      | bare hnone =>
          obtain ⟨c, hc, hsign⟩ := (Datum.isOperator_iff hread hstrip).1 harithmetic.1
          exact absurd hsign (not_or.2 (hnone c hc))
      | minus hnumeral =>
          obtain hplain | ⟨places, rfl⟩ := Expr.isPlainNumeral_minus hnumeral
          · rw [hplain] at harithmetic
            cases harithmetic.2
          · exact denotes_minus hnumeral hread

theorem not_denotes_plainValue (hread : Datum.ofText text = .number x) (hstrip : strip text = text)
    (hsigned : ¬PlainlySigned text) (d : Datum) : ¬s.Denotes key (plainValue text) d := by
  cases harithmetic : Expr.isArithmetic text with
  | false => exact absurd (Datum.plainlySigned_of_not_isArithmetic hread hstrip harithmetic) hsigned
  | true =>
      rw [plainValue, if_pos harithmetic]
      obtain ⟨_, sign, cs, body, _, hwritten⟩ := Datum.exists_written hread hstrip
      obtain ⟨c, rest, rfl, hc⟩ := hwritten.exists_cons
      have hsource : (String.ofList text).toList = sign ++ c :: rest := by
        rw [String.toList_ofList, hwritten.text_eq]
      by_cases hplus : sign = ['+']
      · exact not_denotes_of_plus (hplus ▸ hsource)
      have hlead : sign = [] ∨ sign = ['-'] :=
        (Number.mem_signs.1 hwritten.sign_mem).imp_right fun h => h.resolve_right hplus
      have hwhole : ¬IsNumeral (c :: rest) := by
        intro hnumeral
        apply hsigned
        rw [hwritten.text_eq]
        rcases hlead with rfl | rfl
        · exact hnumeral.plainlySigned
        · exact .minus hnumeral
      refine not_denotes_of_juxtaposed (by rcases hlead with rfl | rfl <;> decide) hsource
        (Number.isPlain_of_inNumeral hc) ?_
      intro lexeme after hfront happend
      obtain ⟨_, hread⟩ := hfront.exists_numeral hc
      have hlexeme : IsNumeral lexeme := Number.isNumeral_of_front hread
      cases after with
      | nil =>
          rw [List.append_nil] at happend
          exact absurd (happend ▸ hlexeme) hwhole
      | cons next more => exact Expr.beginsPlain_cons (hwritten.isPlain_next hlexeme happend) more

end Store

namespace Document

open Number (PlainlySigned)

variable {c : Catalog} {strict : Bool} {owner : Owner} {attr name : String} {schema : AttributeSchema}
  {s : Store} {text : List Char} {x : Number}

/-- A variable that is given a number comes to it if its signs are plain, and to nothing otherwise. -/
theorem resolveVariable_number (hread : Datum.ofText text = .number x) (hstrip : strip text = text)
    (hvalue : s.effective? name none = some (plainValue text)) :
    let answer := (s.resolveVariable name none).answer
    (PlainlySigned text → answer = .ok (some (.number x))) ∧
      (¬PlainlySigned text → ∀ d, answer ≠ .ok (some d)) := by
  intro answer
  constructor
  · intro hsigned
    exact Store.resolves_iff.2 (Store.resolves_of_denotes hvalue (Store.denotes_plainValue hread hstrip hsigned))
  · intro hsigned d hanswer
    obtain ⟨v, hv, hdenotes⟩ := (Store.resolves_iff.1 hanswer).denotes
    obtain rfl := Option.some.inj (hvalue.symm.trans hv)
    exact Store.not_denotes_plainValue hread hstrip hsigned d hdenotes

theorem concluded_number {target : Owner × String} (strict : Bool) (modulation : Option ComponentRef)
    (info : Option NameInfo) (hschema : schemaOf c target.1 target.2 = some schema)
    (hnumeric : schema.isNumeric = true) (hread : Datum.ofText text = .number x) (hstrip : strip text = text) :
    (Reader.concluded c strict s modulation target (text, info)).attr.value = some (plainValue text) := by
  have htyped : assign strict target.1 target.2 (some schema) .empty text info =
      .clean (Attribute.empty.withValue (some (plainValue text))) := by
    rw [assign, if_neg (by simp [Datum.not_isName hread hstrip]), assignTyped, not_choice_of_isNumeric hnumeric,
      hnumeric]
    cases harithmetic : Expr.isArithmetic text with
    | true => rfl
    | false => simp [measure, plainValue, harithmetic, hread]
  exact Reader.value_concluded modulation hschema htyped (plainValue_ne_unresolved text)

theorem Reader.exists_holds_of_given (hkeys : DistinctKeys c) {lines : List (List Char)}
    (h : (assignments c strict start lines).lookup (owner, attr) = some text) :
    ∃ a info modulation, ((readLines c strict start lines).conclude c strict).store.HasCell owner attr (.ok a) ∧
      Holds c strict lines (owner, attr) text info modulation a := by
  have hgift : ((gifts c strict start lines).lookup (owner, attr)).isSome := by
    rw [← assignments_eq_map_gifts, lookup_map] at h
    obtain ⟨g, hg, -⟩ := Option.map_eq_some_iff.1 h
    rw [hg]
    rfl
  obtain ⟨b, hb⟩ := (supplied_readLines hkeys strict lines).cell hgift
  have hcell : ∃ cell, ((readLines c strict start lines).conclude c strict).store.HasCell owner attr cell :=
    ⟨_, (hasCell_conclude_iff (founded_readLines c strict lines).legible).2 ⟨b, hb, rfl⟩⟩
  obtain ⟨cell, hcell⟩ := hcell
  obtain ⟨a, given, info, modulation, rfl, hholds⟩ := exists_holds hkeys hcell
  obtain rfl := Option.some.inj (hholds.last.symm.trans h)
  exact ⟨a, info, modulation, hcell, hholds⟩

theorem isTextual_plainValue (text : List Char) : (plainValue text).IsTextual := by
  rw [plainValue]
  split
  · exact .expression _
  · exact .literal _

theorem resolveValue_number (hkeys : DistinctKeys c) (hread : Datum.ofText text = .number x)
    (hstrip : strip text = text) (hschema : schemaOf c owner attr = some schema)
    (hnumeric : schema.isNumeric = true) {document : String}
    (h : (Reader.assignments c strict .start (Text.lines document.toList)).lookup (owner, attr) = some text) :
    ∃ a v, (read c strict document).store.HasCell owner attr (.ok a) ∧ a.value = some v ∧ ∀ key,
      (PlainlySigned text → ∀ fallback,
        ((read c strict document).store.resolveValue v key fallback).answer = .ok (.number x)) ∧
      (¬PlainlySigned text → (read c strict document).store.ComesToNothing key v) := by
  obtain ⟨a, info, modulation, hcell, hholds⟩ := Reader.exists_holds_of_given hkeys h
  refine ⟨a, plainValue text, hcell,
    hholds.value.trans (concluded_number strict modulation info hschema hnumeric hread hstrip), fun key => ?_⟩
  constructor
  · intro hsigned fallback
    exact (Store.denotes_plainValue hread hstrip hsigned).resolveValue_eq fallback
  · intro hsigned
    exact Store.comesToNothing_of_not_denotes (isTextual_plainValue text)
      (Store.not_denotes_plainValue hread hstrip hsigned)

/-- A text that is read as a number, and has no blanks around it, comes to that number for every variable and
every attribute of numbers that it is given to last, if it has no sign or is a numeral behind a minus. With a
sign elsewhere, as that of an exponent, it comes to nothing. -/
theorem number_text_comes_to_number (hread : Datum.ofText text = .number x) (hstrip : strip text = text)
    (strict : Bool) (document : String) :
    (∀ name before after, Declarable name →
      Text.lines document.toList = before ++ variableLine name text :: after →
      (readLines shippedCatalog strict .start before).store.nameInfo? name = none →
      (Reader.declarations shippedCatalog strict
        (readLines shippedCatalog strict .start (before ++ [variableLine name text])) after).lookup
          (none, name) = none →
      let answer := ((read shippedCatalog strict document).store.resolveVariable name none).answer
      (PlainlySigned text → answer = .ok (some (.number x))) ∧
        (¬PlainlySigned text → ∀ d, answer ≠ .ok (some d))) ∧
    ∀ owner attr schema, schemaOf shippedCatalog owner attr = some schema → schema.isNumeric = true →
      (Reader.assignments shippedCatalog strict .start (Text.lines document.toList)).lookup (owner, attr) =
        some text →
      ∃ a v, (read shippedCatalog strict document).store.HasCell owner attr (.ok a) ∧ a.value = some v ∧ ∀ key,
        (PlainlySigned text → ∀ fallback,
          ((read shippedCatalog strict document).store.resolveValue v key fallback).answer = .ok (.number x)) ∧
        (¬PlainlySigned text → (read shippedCatalog strict document).store.ComesToNothing key v) := by
  have hplain := plain_of_ofText hread hstrip
  refine ⟨?_, ?_⟩
  · intro name before after hname hlines hfree hlast
    have hgiven := lastGiven_of_free hname hplain hfree hlast
    exact resolveVariable_number hread hstrip (hgiven.effective?_eq hname hplain hlines)
  · intro owner attr schema hschema hnumeric hgiven
    exact resolveValue_number distinctKeys_shippedCatalog hread hstrip hschema hnumeric hgiven

def depthText : String := "variable depth = -5\noscillator lead\n  octave -5"

theorem number_text_comes_to_number_depth :
    Datum.ofText "-5".toList = .number (.int (-5)) ∧ strip "-5".toList = "-5".toList ∧
      ((read shippedCatalog false depthText).store.resolveVariable "depth" none).answer =
        .ok (some (.number (.int (-5)))) ∧
      ∃ a v, (read shippedCatalog false depthText).store.HasCell (.component "lead" "oscillator") "octave" (.ok a) ∧
        a.value = some v ∧
        ((read shippedCatalog false depthText).store.resolveValue v none .null).answer =
          .ok (.number (.int (-5))) := by
  have hsmall : (-5 : Int).natAbs ≤ 2 ^ 53 := by decide
  have hread : Datum.ofText "-5".toList = .number (.int (-5)) := Datum.ofText_toString hsmall
  have hstrip : strip "-5".toList = "-5".toList := by decide
  have hsigned : PlainlySigned "-5".toList := .minus (.whole (by decide) (List.all_eq_true.1 (by decide)))
  obtain ⟨hvariable, hattribute⟩ := number_text_comes_to_number hread hstrip false depthText
  obtain ⟨hdepth, -⟩ := hvariable "depth" [] ["oscillator lead".toList, "  octave -5".toList]
    ⟨by decide, List.all_eq_true.1 (by decide)⟩ (by decide +kernel) rfl (Option.isNone_iff_eq_none.1 (by decide +kernel))
  obtain ⟨schema, hschema, hnumeric⟩ := schemaOf_oscillator_octave
  obtain ⟨a, v, hcell, hv, hvalue⟩ := hattribute (.component "lead" "oscillator") "octave" schema hschema hnumeric
    (by decide +kernel)
  exact ⟨hread, hstrip, hdepth hsigned, a, v, hcell, hv, (hvalue none).1 hsigned .null⟩

/-- A number with a negative exponent is taken for arithmetic, and the variable that is given it comes to
nothing. -/
theorem signed_exponent_comes_to_nothing :
    ¬∀ (text : List Char) (x : Number) (document : String), Datum.ofText text = .number x →
      strip text = text → Text.lines document.toList = [variableLine "v" text] →
        ((read shippedCatalog false document).store.resolveVariable "v" none).answer =
          .ok (some (.number x)) := by
  intro hresolves
  have hstrip : strip "1e-5".toList = "1e-5".toList := by decide
  obtain ⟨x, hread⟩ : ∃ x, Datum.ofText "1e-5".toList = .number x := by
    obtain ⟨x, hread, -⟩ | htext := ofText_cases "1e-5".toList
    · exact ⟨x, hread⟩
    · have hnumber : (Datum.ofText "1e-5".toList).text? = none :=
        Option.isNone_iff_eq_none.1 (by decide +kernel)
      rw [htext] at hnumber
      cases hnumber
  have hsigned : ¬PlainlySigned "1e-5".toList := by
    rintro ⟨h⟩
    exact (h '-' (by decide)).2 rfl
  have hplain := plain_of_ofText hread hstrip
  have hname : Declarable "v" := ⟨by decide, List.all_eq_true.1 (by decide)⟩
  have hlines : Text.lines "variable v = 1e-5".toList = [] ++ variableLine "v" "1e-5".toList :: [] := by
    decide +kernel
  have hgiven : LastGiven shippedCatalog false [] "v" "1e-5".toList [] :=
    lastGiven_of_free hname hplain rfl rfl
  have hnothing := (resolveVariable_number hread hstrip (hgiven.effective?_eq hname hplain hlines)).2 hsigned
  exact hnothing _ (hresolves _ x "variable v = 1e-5" hread hstrip hlines)

end Document

end Instrument
