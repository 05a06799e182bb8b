import Instrument.Proofs.Attaching
import Instrument.Proofs.Exactness
import Instrument.Proofs.Holdings
import Instrument.Proofs.Juxtaposition
import Instrument.Proofs.Numerals
import Instrument.Proofs.Scoping
import Instrument.Proofs.Written

namespace Instrument

open Text

namespace Expr

def isIdentifier (cs : List Char) : Bool :=
  match cs with
  | [] => false
  | c :: rest => isNameStart c && rest.all isNameRest

def parenthesized (word : String) : String := "(" ++ word ++ ")"

variable {word : String} {t : Token} {n : Number}

theorem toList_parenthesized (word : String) :
    (parenthesized word).toList = '(' :: (word.toList ++ [')']) := by
  rw [parenthesized, String.toList_append, String.toList_append]
  rfl

def groupOf (t : Token) (position : Nat) : List Token :=
  [⟨.opening, .text "(", 0⟩, t, ⟨.closing, .text ")", position⟩, .ending (position + 1)]

theorem scan_parenthesized {position : Nat}
    (h : scanFrom 1 (word.toList ++ [')']) = (t :: ·) <$> scanFrom position [')']) :
    scan (parenthesized word) = .ok (groupOf t position) := by
  have hopening : sign? '(' = some .opening := rfl
  have hclosing : sign? ')' = some .closing := rfl
  rw [scan, toList_parenthesized, scanFrom_sign hopening, h, scanFrom_sign hclosing, scanFrom]
  rfl

theorem scan_identifier (h : isIdentifier word.toList = true) :
    ∃ position, scan (parenthesized word) = .ok (groupOf (.name word 1) position) := by
  cases hword : word.toList with
  | nil => simp [isIdentifier, hword] at h
  | cons c rest =>
      simp only [isIdentifier, hword, Bool.and_eq_true, List.all_eq_true] at h
      obtain ⟨hstart, hrest⟩ := h
      refine ⟨1 + word.toList.length, scan_parenthesized ?_⟩
      have hclosing : ¬isNameRest ')' = true := by decide
      have htake : (rest ++ [')']).takeWhile isNameRest = rest := by
        rw [List.takeWhile_append_of_pos hrest, List.takeWhile_cons_of_neg hclosing, List.append_nil]
      have hdrop : (rest ++ [')']).dropWhile isNameRest = [')'] := by
        rw [List.dropWhile_append_of_pos hrest, List.dropWhile_cons_of_neg hclosing]
      rw [hword, List.cons_append, scanFrom_plain (isPlain_nameStart hstart), front_of_nameStart hstart]
      simp only [hstart, if_true, htake, hdrop]
      rw [← hword, String.ofList_toList]
      rfl

theorem ofNumeral_digits {digits : List Char} (hdigits : ∀ ch ∈ digits, isDigit ch = true) :
    Number.ofNumeral digits =
      if digits.length ≤ digitLimit then .ok (.int (digitsValue digits))
      else .error (.read digits.length) := by
  have hpoint : '.' ∉ digits := fun hmem => absurd (hdigits '.' hmem) (by decide)
  split
  · next hshort =>
      rw [Number.ofNumeral_of_readable (.inr hshort), Number.spelled, if_neg (by simpa using hpoint)]
  · next hlong => exact Number.ofNumeral_of_long hpoint (Nat.lt_of_not_le hlong)

theorem scanFrom_digits {digits : List Char} (hne : digits ≠ []) (hdigits : ∀ ch ∈ digits, isDigit ch = true)
    (position : Nat) : scanFrom position (digits ++ [')']) =
      if digits.length ≤ digitLimit then
        (Token.number (.int (digitsValue digits)) position :: ·) <$>
          scanFrom (position + digits.length) [')']
      else .error (.overlong (.read digits.length)) := by
  have hclosing : Number.digitsFront [')'] = ([], [')']) := by decide
  have hfront : Number.numeralFront? (digits ++ [')']) = some (digits, [')']) := by
    have hrun := Number.digitsFront_of_digits hdigits [')']
    rw [hclosing, List.append_nil] at hrun
    exact Number.front_of_whole hne hrun (by simp)
  have hvalue := ofNumeral_digits hdigits
  obtain ⟨c, rest, rfl⟩ := List.exists_cons_of_ne_nil hne
  have hplain : isPlain c = true := isPlain_digit (hdigits c List.mem_cons_self)
  rw [List.cons_append] at hfront
  rw [List.cons_append, scanFrom_plain hplain, hfront]
  by_cases hshort : (c :: rest).length ≤ digitLimit
  · simp only [hvalue, if_pos hshort]
  · simp only [hvalue, if_neg hshort]

theorem scan_digits (hne : word.toList ≠ []) (hdigits : ∀ ch ∈ word.toList, isDigit ch = true)
    (hshort : word.toList.length ≤ digitLimit) : ∃ position, scan (parenthesized word) =
      .ok (groupOf (.number (.int (digitsValue word.toList)) 1) position) := by
  have hfront := scanFrom_digits hne hdigits 1
  rw [if_pos hshort] at hfront
  exact ⟨_, scan_parenthesized hfront⟩

theorem scan_long_digits (hne : word.toList ≠ []) (hdigits : ∀ ch ∈ word.toList, isDigit ch = true)
    (hlong : digitLimit < word.toList.length) :
    scan (parenthesized word) = .error (.overlong (.read word.toList.length)) := by
  have hopening : sign? '(' = some .opening := rfl
  rw [scan, toList_parenthesized, scanFrom_sign hopening, scanFrom_digits hne hdigits, if_neg hlong.not_ge]
  rfl

theorem evaluateTokens_groupOf (source : String) (position : Nat) (n : Number) (i : Int) :
    evaluateTokens source (groupOf (.number n i) position) = .ok (.number n) := by
  have hread : Derives .sum (bodyOf (groupOf (.number n i) position)) (.number (.number n)) :=
    .product (.factor (.group rfl (.product (.factor (.number rfl))) rfl))
  rw [evaluateTokens, parseTokens_eq_ok_iff.mpr hread]
  rfl

end Expr

namespace Store

open Instrument.Expr (parenthesized groupOf isIdentifier namesOf)

variable {s : Store} {key : Option String} {word : String} {n : Number}

theorem denotes_identifier (hword : isIdentifier word.toList = true) (hnumber : s.IsNumber key word n) :
    s.Denotes key (.expression (.text (parenthesized word))) (.number n) := by
  obtain ⟨position, hscan⟩ := Expr.scan_identifier hword
  have hnames : ∀ other ∈ namesOf (groupOf (.name word 1) position), s.IsNumber key other n := by
    intro other hother
    obtain rfl : other = word := List.mem_singleton.1 hother
    exact hnumber
  exact .arithmetic hscan hnames (Expr.evaluateTokens_groupOf _ position n 1)

theorem denotes_digits (hne : word.toList ≠ []) (hdigits : ∀ ch ∈ word.toList, isDigit ch = true)
    (hshort : word.toList.length ≤ digitLimit) :
    s.Denotes key (.expression (.text (parenthesized word))) (.number (.int (digitsValue word.toList))) := by
  obtain ⟨position, hscan⟩ := Expr.scan_digits hne hdigits hshort
  have hnames : ∀ other ∈ namesOf (groupOf (.number (.int (digitsValue word.toList)) 1) position),
      s.IsNumber key other (.int 0) := List.forall_mem_nil _
  exact .arithmetic hscan hnames (Expr.evaluateTokens_groupOf _ position _ 1)

theorem isNumeral_or_isIdentifier {cs lexeme : List Char} (h : Expr.Front cs lexeme) :
    Number.IsNumeral lexeme ∨ isIdentifier lexeme = true := by
  cases h with
  | numeral hfront => exact .inl (Number.isNumeral_of_front hfront)
  | name _ hc =>
      refine .inr ?_
      rw [isIdentifier, hc, Bool.true_and, List.all_eq_true]
      exact fun ch hch => List.mem_takeWhile_imp hch

theorem ne_closing_of_isIdentifier {cs : List Char} (h : isIdentifier cs = true) : ')' ∉ cs := by
  cases cs with
  | nil => simp
  | cons c rest =>
      rw [isIdentifier, Bool.and_eq_true, List.all_eq_true] at h
      intro hmem
      rcases List.mem_cons.1 hmem with rfl | hmem
      · exact absurd h.1 (by decide)
      · exact absurd (h.2 ')' hmem) (by decide)

theorem next_of_front (hword : ∀ ch ∈ word.toList, isWordChar ch = true)
    (hidentifier : isIdentifier word.toList = false) (hdigits : ¬∀ ch ∈ word.toList, isDigit ch = true)
    {lexeme after : List Char} (hfront : Expr.Front (word.toList ++ [')']) lexeme)
    (happend : word.toList ++ [')'] = lexeme ++ after) : Expr.BeginsPlain after := by
  have hparts := isNumeral_or_isIdentifier hfront
  have hclosing : ')' ∉ lexeme := by
    rcases hparts with hnumeral | hlexeme
    · exact fun hmem => absurd (hnumeral.inNumeral ')' hmem) (by decide)
    · exact ne_closing_of_isIdentifier hlexeme
  have hwhole : lexeme ≠ word.toList := by
    rintro rfl
    rcases hparts with hnumeral | hlexeme
    · apply hdigits
      intro ch hch
      have hpart := hnumeral.inNumeral ch hch
      rw [Number.inNumeral, Bool.or_eq_true, beq_iff_eq] at hpart
      rcases hpart with hdigit | rfl
      · exact hdigit
      · exact absurd (hword '.' hch) (by decide)
    · rw [hidentifier] at hlexeme
      cases hlexeme
  rcases List.append_eq_append_iff.1 happend with ⟨m, hlexeme, hm⟩ | ⟨m, hm, hafter⟩
  · cases m with
    | nil => exact absurd (by simpa using hlexeme) hwhole
    | cons d rest =>
        obtain ⟨rfl, -⟩ := List.cons.inj hm
        exact absurd (by simp [hlexeme]) hclosing
  · cases m with
    | nil => exact absurd (by simpa using hm.symm) hwhole
    | cons d rest =>
        rw [hafter]
        exact Expr.beginsPlain_cons (isPlain_of_isWordChar (hword d (by simp [hm]))) _

theorem comesToNothing_word (hne : word.toList ≠ []) (hword : ∀ ch ∈ word.toList, isWordChar ch = true)
    (hidentifier : isIdentifier word.toList = false) (hdigits : ¬∀ ch ∈ word.toList, isDigit ch = true) :
    s.ComesToNothing key (.expression (.text (parenthesized word))) := by
  obtain ⟨c, rest, hcons⟩ := List.exists_cons_of_ne_nil hne
  have hsource : (parenthesized word).toList = ['('] ++ c :: (rest ++ [')']) := by
    rw [Expr.toList_parenthesized, hcons]
    rfl
  refine comesToNothing_of_not_denotes (.expression _) fun d => not_denotes_of_juxtaposed (by decide) hsource
    (isPlain_of_isWordChar (hword c (by simp [hcons]))) ?_
  intro lexeme after hfront happend
  rw [← List.cons_append, ← hcons] at hfront happend
  exact next_of_front hword hidentifier hdigits hfront happend

end Store

namespace Document

def variableLine (name : String) (text : List Char) : List Char :=
  variableWord.toList ++ ' ' :: (name.toList ++ ' ' :: '=' :: ' ' :: text)

/-- A name that a declaration can have: a word of any letters, digits and underscores. -/
structure Declarable (name : String) : Prop where
  ne_nil : name.toList ≠ []
  word : ∀ ch ∈ name.toList, isWordChar ch = true

variable {c : Catalog} {strict : Bool} {name : String} {text : List Char}

theorem strip_variableLine (name : String) (hne : text ≠ []) (hstrip : strip text = text) :
    strip (variableLine name text) = variableLine name text := by
  obtain ⟨-, hend⟩ := trimmed_of_strip hstrip
  have hstart : stripStart (variableLine name text) = variableLine name text := rfl
  have hsplit : variableLine name text =
      (variableWord.toList ++ ' ' :: (name.toList ++ [' ', '=', ' '])) ++ text := by simp [variableLine]
  rw [strip, hstart, hsplit, stripEnd_append_of_ne (by rwa [hend]), hend]

theorem declaration?_variableLine (hname : Declarable name) (hne : text ≠ []) (hstrip : strip text = text) :
    declaration? (variableLine name text) = some (name, text) := by
  obtain ⟨hstart, -⟩ := trimmed_of_strip hstrip
  have hdrop : (variableLine name text).drop variableWord.length =
      ' ' :: (name.toList ++ ' ' :: '=' :: ' ' :: text) := rfl
  have hrest : stripStart (' ' :: (name.toList ++ ' ' :: '=' :: ' ' :: text)) =
      name.toList ++ ' ' :: '=' :: ' ' :: text := by
    obtain ⟨ch, more, hcons⟩ := List.exists_cons_of_ne_nil hname.ne_nil
    have hch := not_isBlank_of_isWordChar (hname.word ch (by simp [hcons]))
    rw [stripStart, List.dropWhile_cons_of_pos (by decide), hcons, List.cons_append,
      List.dropWhile_cons_of_neg (by simp [hch])]
  have hspace : ¬isWordChar ' ' = true := by decide
  have htake : (name.toList ++ ' ' :: '=' :: ' ' :: text).takeWhile isWordChar = name.toList := by
    rw [List.takeWhile_append_of_pos hname.word, List.takeWhile_cons_of_neg hspace, List.append_nil]
  have hafter : (name.toList ++ ' ' :: '=' :: ' ' :: text).dropWhile isWordChar =
      ' ' :: '=' :: ' ' :: text := by
    rw [List.dropWhile_append_of_pos hname.word, List.dropWhile_cons_of_neg hspace]
  have htext : strip (' ' :: text) = text := by
    have hblank : stripStart (' ' :: text) = stripStart text := rfl
    rw [strip, hblank, ← strip, hstrip]
  have hequals : stripStart (' ' :: '=' :: ' ' :: text) = '=' :: ' ' :: text := rfl
  simp only [declaration?, hdrop, hrest, htake, hafter, hequals, htext, String.ofList_toList]
  simp [-String.toList_eq_nil_iff, hname.ne_nil, hne]

theorem bracketed?_eq_none (h : ']' ∉ text) : bracketed? text = none := by
  unfold bracketed?
  split
  · next rest hreverse =>
      have hmem : ']' ∈ text.reverse := by simp [hreverse]
      exact absurd (List.mem_reverse.1 hmem) h
  · rfl

/-- A text that a variable can be given as a literal or as arithmetic: no name, with no blanks around it and
no brackets at its end. -/
structure Plain (text : List Char) : Prop where
  ne_nil : text ≠ []
  strip_eq : strip text = text
  not_name : isName text = false
  not_bracketed : ']' ∉ text

namespace Reader

variable {r : Reader}

theorem home_variableLine (name : String) (text : List Char) (r : Reader) :
    (r.ready (variableLine name text)).home = none := by
  have hindent : indentOf (variableLine name text) = 0 := rfl
  have hframes : (r.ready (variableLine name text)).frames = [] := by
    rw [ready, hindent, frames_settle, List.dropWhile_eq_nil_iff]
    exact fun frame _ => decide_eq_true (Nat.zero_le _)
  rw [home, scope, hframes]
  rfl

theorem passes_variableLine (name : String) (htext : Plain text) (r : Reader) :
    r.passes (variableLine name text) = false := by
  have hindent : indentOf (variableLine name text) = 0 := rfl
  have hsays : saysNothing (variableLine name text) = false := rfl
  rw [passes, strip_variableLine name htext.ne_nil htext.strip_eq, hindent, skips, hsays]
  simp

theorem variableValue_eq (htext : Plain text) (r : Reader) :
    r.variableValue (valueText text) = plainValue text := by
  have hvalue : valueText text = text := by
    rw [valueText, bracketed?_eq_none htext.not_bracketed]
    rfl
  simp [hvalue, variableValue, htext.not_name]

theorem declared?_variableLine (hname : Declarable name) (htext : Plain text)
    (hquiet : (r.step c strict (variableLine name text)).issues = r.issues) :
    r.declared? c strict (variableLine name text) = some ((none, name), plainValue text) := by
  have hcontent := strip_variableLine name htext.ne_nil htext.strip_eq
  have hfirst : String.ofList (firstWord (variableLine name text)) = variableWord := rfl
  have hparts := declaration?_variableLine hname htext.ne_nil htext.strip_eq
  simp [declared?, passes_variableLine name htext, hcontent, hfirst, hquiet, hparts,
    home_variableLine, variableValue_eq htext]

theorem quiet_of_free (hname : Declarable name) (htext : Plain text)
    (hfree : r.store.nameInfo? name = none) :
    (r.step c strict (variableLine name text)).issues = r.issues := by
  have hcontent := strip_variableLine name htext.ne_nil htext.strip_eq
  have hfirst : String.ofList (firstWord (variableLine name text)) = variableWord := rfl
  have hparts := declaration?_variableLine hname htext.ne_nil htext.strip_eq
  have hscope : (r.ready (variableLine name text)).scope = none :=
    Option.map_eq_none_iff.1 (home_variableLine name text r)
  have hstep : r.step c strict (variableLine name text) = (r.ready (variableLine name text)).declareGlobal name
      ((r.ready (variableLine name text)).variableValue text) none := by
    rw [step_of_not_passes (passes_variableLine name htext r), dispatch, classify, hcontent, if_pos hfirst]
    simp [act, declare, hparts, bracketed?_eq_none htext.not_bracketed, hscope]
  have hopen : (r.ready (variableLine name text)).store.nameInfo? name = none := by rwa [store_ready]
  have hanswer : ((r.ready (variableLine name text)).addVariable name
      ((r.ready (variableLine name text)).variableValue text) none .global none).answer = .ok true := by
    have hkey : ∀ key, (none : Option String) = some key → key ≠ "" := by simp
    exact Store.answer_addVariable_of_free hkey hopen ..
  rw [hstep, declareGlobal]
  simp only [hanswer]
  exact issues_settle ..

end Reader

/-- Among some lines, a text is given to a variable outside all triggers, without an issue, and no later line
gives it another there. -/
structure LastGiven (c : Catalog) (strict : Bool) (before : List (List Char)) (name : String)
    (text : List Char) (after : List (List Char)) : Prop where
  quiet : (readLines c strict .start (before ++ [variableLine name text])).issues =
    (readLines c strict .start before).issues
  last : (Reader.declarations c strict (readLines c strict .start (before ++ [variableLine name text]))
    after).lookup (none, name) = none

theorem lastGiven_of_free {before after : List (List Char)} (hname : Declarable name) (htext : Plain text)
    (hfree : (readLines c strict .start before).store.nameInfo? name = none)
    (hlast : (Reader.declarations c strict (readLines c strict .start (before ++ [variableLine name text]))
      after).lookup (none, name) = none) : LastGiven c strict before name text after where
  quiet := by
    rw [readLines_snoc]
    exact Reader.quiet_of_free hname htext hfree
  last := hlast

/-- A variable has the value that it was given last. -/
theorem LastGiven.effective?_eq {before after : List (List Char)}
    (h : LastGiven c strict before name text after) (hname : Declarable name) (htext : Plain text)
    {document : String} (hlines : Text.lines document.toList = before ++ variableLine name text :: after) :
    (read c strict document).store.effective? name none = some (plainValue text) := by
  have hquiet := h.quiet
  have hlast := h.last
  rw [readLines_snoc] at hquiet hlast
  have hdeclared := Reader.declared?_variableLine hname htext hquiet
  have hbefore := Reader.scoped_readLines c strict before Reader.scoped_start
  have hhere : Reader.Scoped (_ ++ _)
      ((readLines c strict .start before).step c strict (variableLine name text)) := hbefore.step _
  have hscoped := Reader.scoped_readLines c strict after hhere
  have hread : readLines c strict .start (Text.lines document.toList) = readLines c strict
      ((readLines c strict .start before).step c strict (variableLine name text)) after := by
    rw [hlines, Reader.readLines_append]
    rfl
  have hgiven : (read c strict document).store.given? none name = some (some (plainValue text)) := by
    rw [read, hread, (Reader.sameVariables_conclude c strict _).given?_eq, hscoped.given?_eq,
      List.lookup_append, hlast, hdeclared]
    simp
  rw [Store.effective?_none, hgiven]
  rfl

theorem plain_toString (i : Int) : Plain (toString i).toList := by
  have hwhole : WholeNumeral (toString i).toList := wholeNumeral_shown i
  have hchars : ∀ ch ∈ (toString i).toList, isBlank ch = false ∧ ch ≠ ']' := by
    obtain ⟨sign, hsign, digits, htext, -, hdigits, -⟩ := Datum.exists_digits_toString i
    rw [htext]
    intro ch hch
    rcases List.mem_append.1 hch with hch | hch
    · simpa using Number.forall_sign (p := fun ch => !isBlank ch && ch != ']') (by decide) (by decide) hsign ch hch
    · simpa using forall_digit (p := fun ch => !isBlank ch && ch != ']') (by decide +kernel) (hdigits ch hch)
  exact ⟨hwhole.ne_nil, strip_of_no_blank fun ch hch => (hchars ch hch).1, hwhole.not_isName,
    fun hmem => (hchars ']' hmem).2 rfl⟩

theorem exists_isNumber_of_given {s : Store} {i : Int}
    (hvalue : s.effective? name none = some (plainValue (toString i).toList)) :
    ∃ n, s.IsNumber none name n ∧ (Datum.ofText (toString i).toList).toNumber? = some n := by
  have hwhole : WholeNumeral (toString i).toList := wholeNumeral_shown i
  obtain ⟨sign, hsign, digits, htext, hne, hdigits, -⟩ := Datum.exists_digits_toString i
  obtain ⟨d, -, hread⟩ := (Number.IsNumeral.whole hne hdigits).readFloat?_signed hsign
  rw [← htext] at hread
  obtain ⟨n, hn⟩ := Datum.toNumber?_ofText hread
  rw [plainValue, hwhole.not_isArithmetic, if_neg Bool.false_ne_true] at hvalue
  refine ⟨n, ⟨_, .literal hvalue ?_, hn⟩, hn⟩
  intro hnull
  rw [hnull] at hn
  cases hn

/-- A variable that is given a whole number, in no trigger and without an issue, stands for it in arithmetic
if its name is an identifier: for the number itself up to the limit of exactness, and for the binary64 value
that its text is read as beyond. If its name is a row of digits, these stand for the number that they denote,
unless there are too many of them to be read; and by every other name it cannot be used. -/
theorem declared_integer_in_arithmetic {document : String} {before after : List (List Char)} {i : Int}
    (hname : Declarable name)
    (hlines : Text.lines document.toList = before ++ variableLine name (toString i).toList :: after)
    (hgiven : LastGiven c strict before name (toString i).toList after) (fallback : Datum) :
    let answer := ((read c strict document).store.resolveValue
      (.expression (.text (Expr.parenthesized name))) none fallback).answer
    (Expr.isIdentifier name.toList = true → ∃ n, answer = .ok (.number n) ∧
      (Datum.ofText (toString i).toList).toNumber? = some n ∧ (i.natAbs ≤ 2 ^ 53 → n = .int i)) ∧
    ((∀ ch ∈ name.toList, isDigit ch = true) →
      (name.toList.length ≤ digitLimit → answer = .ok (.number (.int (digitsValue name.toList)))) ∧
      (digitLimit < name.toList.length →
        answer = .error (.escape (.overlong (.read name.toList.length))))) ∧
    (Expr.isIdentifier name.toList = false → (¬∀ ch ∈ name.toList, isDigit ch = true) →
      ∀ d, answer = .ok d → d = fallback) := by
  intro answer
  have hvalue := hgiven.effective?_eq hname (plain_toString i) hlines
  refine ⟨?_, ?_, ?_⟩
  · intro hidentifier
    obtain ⟨n, hnumber, hn⟩ := exists_isNumber_of_given hvalue
    refine ⟨n, (Store.denotes_identifier hidentifier hnumber).resolveValue_eq fallback, hn, ?_⟩
    intro hsmall
    rw [Datum.ofText_toString hsmall] at hn
    exact (Option.some.inj hn).symm
  · intro hdigits
    constructor
    · intro hshort
      exact (Store.denotes_digits hname.ne_nil hdigits hshort).resolveValue_eq fallback
    · intro hlong
      exact Store.resolveValue_of_exceeds (.numeral (Expr.scan_long_digits hname.ne_nil hdigits hlong))
  · intro hidentifier hdigits
    exact Store.comesToNothing_word hname.ne_nil hname.word hidentifier hdigits fallback

def tempoText : String := "variable tempo = 120\nvariable 12 = 5"

theorem declared_integer_in_arithmetic_tempo :
    Declarable "tempo" ∧
      Text.lines tempoText.toList = [] ++ variableLine "tempo" (toString (120 : Int)).toList ::
        [variableLine "12" (toString (5 : Int)).toList] ∧
      LastGiven shippedCatalog false [] "tempo" (toString (120 : Int)).toList
        [variableLine "12" (toString (5 : Int)).toList] ∧
      ((read shippedCatalog false tempoText).store.resolveValue
        (.expression (.text (Expr.parenthesized "tempo"))) none .null).answer = .ok (.number (.int 120)) := by
  have hname : Declarable "tempo" := ⟨by decide, List.all_eq_true.1 (by decide)⟩
  have hlines : Text.lines tempoText.toList = [] ++ variableLine "tempo" (toString (120 : Int)).toList ::
      [variableLine "12" (toString (5 : Int)).toList] := by decide +kernel
  have hgiven : LastGiven shippedCatalog false [] "tempo" (toString (120 : Int)).toList
      [variableLine "12" (toString (5 : Int)).toList] :=
    ⟨List.isEmpty_iff.1 (by decide +kernel), Option.isNone_iff_eq_none.1 (by decide +kernel)⟩
  obtain ⟨hidentifier, -, -⟩ := declared_integer_in_arithmetic hname hlines hgiven .null
  obtain ⟨n, hanswer, -, hn⟩ := hidentifier (by decide)
  obtain rfl := hn (by decide)
  exact ⟨hname, hlines, hgiven, hanswer⟩

/-- A variable that is named by digits is accepted, and arithmetic takes its name for another number. -/
theorem declared_digits_not_usable :
    ¬∀ (name document : String) (i : Int), Declarable name →
      Text.lines document.toList = [variableLine name (toString i).toList] →
      (read shippedCatalog false document).issues = [] →
        ((read shippedCatalog false document).store.resolveValue
          (.expression (.text (Expr.parenthesized name))) none .null).answer = .ok (.number (.int i)) := by
  intro husable
  have hname : Declarable "12" := ⟨by decide, List.all_eq_true.1 (by decide)⟩
  have hquiet : (read shippedCatalog false "variable 12 = 5").issues = [] :=
    List.isEmpty_iff.1 (by decide +kernel)
  have hfive := husable "12" "variable 12 = 5" 5 hname (by decide +kernel) hquiet
  have htwelve : (read shippedCatalog false "variable 12 = 5").store.Denotes none
      (.expression (.text (Expr.parenthesized "12"))) (.number (.int 12)) :=
    Store.denotes_digits hname.ne_nil (List.all_eq_true.1 (by decide)) (by decide)
  rw [htwelve.resolveValue_eq .null] at hfive
  cases hfive

end Document

end Instrument
