import Instrument.Number.Basic
import Instrument.Number.Decimal
import Instrument.Number.Digits
import Instrument.Text.Blank
import Instrument.Text.Digit

namespace Instrument.Number

open Text

def digitsFront (cs : List Char) : List Char × List Char :=
  (cs.takeWhile isDigit, cs.dropWhile isDigit)

def numeralFront? (cs : List Char) : Option (List Char × List Char) :=
  match digitsFront cs with
  | ([], '.' :: rest) => match digitsFront rest with
    | ([], _) => none
    | (places, after) => some ('.' :: places, after)
  | ([], _) => none
  | (whole, '.' :: rest) =>
    let (places, after) := digitsFront rest
    some (whole ++ '.' :: places, after)
  | (whole, after) => some (whole, after)

def signFront : List Char → Bool × List Char
  | '-' :: cs => (true, cs)
  | '+' :: cs => (false, cs)
  | cs => (false, cs)

def exponent? (cs : List Char) : Option Int :=
  let (negative, digits) := signFront cs
  if digits.isEmpty || !digits.all isDigit then none
  else
    let size : Int := digitsValue digits
    some (if negative then -size else size)

def decimal? (cs : List Char) : Option Decimal := do
  let (numeral, rest) ← numeralFront? cs
  let (whole, places) := (numeral.takeWhile isDigit, (numeral.dropWhile isDigit).drop 1)
  let exponent ← match rest with
    | [] => some 0
    | e :: more => if e = 'e' || e = 'E' then exponent? more else none
  return ⟨digitsValue (whole ++ places), exponent - places.length⟩

/-- Drops single underscores that stand between digits, and refuses any other underscore. -/
def dropSeparators? (afterDigit : Bool) : List Char → Option (List Char)
  | [] => some []
  | c :: cs =>
    if c = '_' then
      if afterDigit && (cs.head?.any isDigit) then dropSeparators? false cs else none
    else (dropSeparators? (isDigit c) cs).map (c :: ·)

/-- The blanks that may surround a number: all but the separators of files, groups, records and
units. -/
def isMargin (c : Char) : Bool := isBlank c && !(28 ≤ c.toNat && c.toNat ≤ 31)

def trimMargins (cs : List Char) : List Char :=
  ((cs.dropWhile isMargin).reverse.dropWhile isMargin).reverse

def named? (negative : Bool) (cs : List Char) : Option Float :=
  let word := cs.map Char.toLower
  if word = "inf".toList || word = "infinity".toList then some (Binary64.infinity negative)
  else if word = "nan".toList then some Binary64.notANumber
  else none

def readFloat? (cs : List Char) : Option Float := do
  let plain ← dropSeparators? false (trimMargins cs)
  let (negative, body) := signFront plain
  match named? negative body with
  | some x => some x
  | none => (decimal? body).map (·.toFloat negative)

def wholeValue? (x : Float) : Option Int := do
  let p ← Binary64.parts? x
  let (num, den) := Binary64.divTwoPow p.mantissa 1 (-p.exponent)
  if num % den = 0 then
    let size : Int := (num / den : Nat)
    some (if p.negative then -size else size)
  else none

/-- The number that an unsigned numeral spells: exact without a point, else the nearest binary64
value. -/
def spelled (cs : List Char) : Number :=
  if cs.contains '.' then
    match decimal? cs with
    | some d => float (d.toFloat false)
    | none => float Binary64.notANumber
  else int (digitsValue cs)

/-- Reads an unsigned numeral. Without a point it must not be too long, zeros in front included. -/
def ofNumeral (cs : List Char) : Except Overlong Number :=
  if cs.contains '.' || cs.length ≤ digitLimit then .ok (spelled cs)
  else .error (.read cs.length)

theorem ofNumeral_of_readable {cs : List Char} (h : '.' ∈ cs ∨ cs.length ≤ digitLimit) :
    ofNumeral cs = .ok (spelled cs) := by
  rw [ofNumeral, if_pos (by simpa using h)]

theorem ofNumeral_of_long {cs : List Char} (hpoint : '.' ∉ cs) (hlong : digitLimit < cs.length) :
    ofNumeral cs = .error (.read cs.length) := by
  rw [ofNumeral, if_neg (by simpa [hpoint] using hlong)]

theorem readable_of_ofNumeral {cs : List Char} {n : Number} (h : ofNumeral cs = .ok n) :
    '.' ∈ cs ∨ cs.length ≤ digitLimit := by
  rw [ofNumeral] at h
  split at h
  · next hread => simpa using hread
  · cases h

theorem long_of_ofNumeral {cs : List Char} {o : Overlong} (h : ofNumeral cs = .error o) :
    '.' ∉ cs ∧ digitLimit < cs.length := by
  rw [ofNumeral] at h
  split at h
  · cases h
  · next hlong => simpa using hlong

theorem digitsFront_append (cs : List Char) : (digitsFront cs).1 ++ (digitsFront cs).2 = cs :=
  List.takeWhile_append_dropWhile

theorem numeralFront?_append {cs numeral rest : List Char}
    (h : numeralFront? cs = some (numeral, rest)) : numeral ++ rest = cs := by
  have hcs := digitsFront_append cs
  simp only [numeralFront?] at h
  split at h
  · rename_i tail heq
    have htail := digitsFront_append tail
    rw [heq] at hcs
    split at h
    · simp at h
    · rename_i places after _ hplaces
      simp only [Option.some.injEq, Prod.mk.injEq] at h
      obtain ⟨rfl, rfl⟩ := h
      rw [hplaces] at htail
      simpa [← htail] using hcs
  · simp at h
  · rename_i whole tail _ heq
    have htail := digitsFront_append tail
    rw [heq] at hcs
    simp only [Option.some.injEq, Prod.mk.injEq] at h
    obtain ⟨rfl, rfl⟩ := h
    simpa [htail] using hcs
  · rename_i whole after _ _ heq
    simp only [Option.some.injEq, Prod.mk.injEq] at h
    obtain ⟨rfl, rfl⟩ := h
    rw [heq] at hcs
    exact hcs

theorem numeralFront?_ne_nil {cs numeral rest : List Char}
    (h : numeralFront? cs = some (numeral, rest)) : numeral ≠ [] := by
  simp only [numeralFront?] at h
  split at h
  · split at h
    · simp at h
    · simp only [Option.some.injEq, Prod.mk.injEq] at h
      simp [← h.1]
  · simp at h
  · simp only [Option.some.injEq, Prod.mk.injEq] at h
    simp [← h.1]
  · rename_i hne _ heq
    simp only [Option.some.injEq, Prod.mk.injEq] at h
    rw [← h.1]
    intro hnil
    simp_all

theorem numeralFront?_length_lt {cs numeral rest : List Char}
    (h : numeralFront? cs = some (numeral, rest)) : rest.length < cs.length := by
  have happend := congrArg List.length (numeralFront?_append h)
  have hpos := List.length_pos_iff.mpr (numeralFront?_ne_nil h)
  rw [List.length_append] at happend
  omega

end Instrument.Number
