import Instrument.Datum.Basic
import Instrument.Number.Reader

namespace Instrument.Json

inductive Lexeme
  | openList
  | closeList
  | openRecord
  | closeRecord
  | colon
  | comma
  | text (s : String)
  | plain (d : Datum)

def hexValue? (c : Char) : Option Nat :=
  if c.isDigit then some (c.toNat - '0'.toNat)
  else if 'a' ≤ c && c ≤ 'f' then some (c.toNat - 'a'.toNat + 10)
  else if 'A' ≤ c && c ≤ 'F' then some (c.toNat - 'A'.toNat + 10)
  else none

def hexUnit? (a b c d : Char) : Option Nat := do
  return 4096 * (← hexValue? a) + 256 * (← hexValue? b) + 16 * (← hexValue? c) + (← hexValue? d)

def unescape? : Char → Option Char
  | '"' => some '"'
  | '\\' => some '\\'
  | '/' => some '/'
  | 'b' => some (Char.ofNat 8)
  | 'f' => some (Char.ofNat 12)
  | 'n' => some '\n'
  | 'r' => some '\r'
  | 't' => some '\t'
  | _ => none

/-- The code units of a text; a pair of units beyond the first plane makes one character, and half
a pair stands for the replacement character. -/
def joinUnits : List Nat → List Char
  | [] => []
  | [n] => [if 0xd800 ≤ n && n < 0xe000 then Char.ofNat 0xfffd else Char.ofNat n]
  | n :: m :: rest =>
    if 0xd800 ≤ n && n < 0xdc00 && 0xdc00 ≤ m && m < 0xe000 then
      Char.ofNat (0x10000 + 0x400 * (n - 0xd800) + (m - 0xdc00)) :: joinUnits rest
    else if 0xd800 ≤ n && n < 0xe000 then Char.ofNat 0xfffd :: joinUnits (m :: rest)
    else Char.ofNat n :: joinUnits (m :: rest)

/-- The units of a quoted text up to its closing quote, last first, and what follows the quote. -/
def quotedBody (units : List Nat) : List Char → Option (List Nat × List Char)
  | [] => none
  | '"' :: rest => some (units, rest)
  | '\\' :: 'u' :: a :: b :: c :: d :: rest =>
    match hexUnit? a b c d with
    | some n => quotedBody (n :: units) rest
    | none => none
  | '\\' :: c :: rest =>
    match unescape? c with
    | some d => quotedBody (d.toNat :: units) rest
    | none => none
  | '\\' :: [] => none
  | c :: rest => quotedBody (c.toNat :: units) rest

def isNumberChar (c : Char) : Bool :=
  c.isDigit || c == '+' || c == '-' || c == '.' || c == 'e' || c == 'E'

def number? (cs : List Char) : Option Datum :=
  let (negative, digits) := Number.signFront cs
  if cs.any fun c => c == '.' || c == 'e' || c == 'E' then (Number.readFloat? cs).map .float
  else if digits.isEmpty || !digits.all Char.isDigit then none
  else
    let size : Int := Text.digitsValue digits
    some (.int (if negative then -size else size))

def plainWords : List (String × Datum) :=
  [("null", .null), ("true", .bool true), ("false", .bool false)]

def notFiniteWords : List (String × Datum) :=
  [("NaN", .float Binary64.notANumber), ("Infinity", .float (Binary64.infinity false))]

def word? (allowNotFinite : Bool) (cs : List Char) : Option Datum :=
  (if allowNotFinite then plainWords ++ notFiniteWords else plainWords).lookup (String.ofList cs)

def afterLeast? : List Char → Option (List Char)
  | '-' :: rest =>
    if rest.takeWhile Char.isAlpha = "Infinity".toList then some (rest.dropWhile Char.isAlpha)
    else none
  | _ => none

def mark? : Char → Option Lexeme
  | '[' => some .openList
  | ']' => some .closeList
  | '\x7b' => some .openRecord
  | '\x7d' => some .closeRecord
  | ':' => some .colon
  | ',' => some .comma
  | _ => none

def isSpace (c : Char) : Bool := c == ' ' || c == '\n' || c == '\r' || c == '\t'

theorem quotedBody_length {units : List Nat} {cs : List Char} {body : List Nat} {rest : List Char}
    (h : quotedBody units cs = some (body, rest)) : rest.length < cs.length := by
  fun_induction quotedBody units cs with
  | case1 => simp at h
  | case2 => simp_all
  | case3 units a b c d tail n hn ih => have := ih h; simp only [List.length_cons]; omega
  | case4 => simp at h
  | case5 units c tail _ d hd ih => have := ih h; simp only [List.length_cons]; omega
  | case6 => simp at h
  | case7 => simp at h
  | case8 units c tail _ _ _ _ ih => have := ih h; simp only [List.length_cons]; omega

theorem afterLeast?_length_lt {cs after : List Char} (h : afterLeast? cs = some after) :
    after.length < cs.length := by
  unfold afterLeast? at h
  split at h
  · next rest =>
    split at h
    · simp only [Option.some.injEq] at h
      subst h
      have := (List.dropWhile_sublist Char.isAlpha (l := rest)).length_le
      simp only [List.length_cons]
      omega
    · simp at h
  · simp at h

def plainFront? (allowNotFinite : Bool) (c : Char) (rest : List Char) :
    Option (Datum × List Char) :=
  if isNumberChar c then
    (number? ((c :: rest).takeWhile isNumberChar)).map (·, rest.dropWhile isNumberChar)
  else
    (word? allowNotFinite ((c :: rest).takeWhile Char.isAlpha)).map (·, rest.dropWhile Char.isAlpha)

theorem plainFront?_length_le {allowNotFinite : Bool} {c : Char} {rest after : List Char}
    {d : Datum} (h : plainFront? allowNotFinite c rest = some (d, after)) :
    after.length ≤ rest.length := by
  unfold plainFront? at h
  split at h
  all_goals
    simp only [Option.map_eq_some_iff, Prod.mk.injEq] at h
    obtain ⟨_, _, _, rfl⟩ := h
    exact (List.dropWhile_sublist _).length_le

def lexemes (allowNotFinite : Bool) (found : List Lexeme) (cs : List Char) :
    Option (List Lexeme) :=
  match cs with
  | [] => some found
  | c :: rest =>
    if isSpace c then lexemes allowNotFinite found rest
    else match mark? c with
      | some mark => lexemes allowNotFinite (mark :: found) rest
      | none =>
        if c = '"' then
          match _h : quotedBody [] rest with
          | some (units, after) =>
            lexemes allowNotFinite (.text (String.ofList (joinUnits units.reverse)) :: found) after
          | none => none
        else match _h : (afterLeast? (c :: rest)).filter fun _ => allowNotFinite with
          | some after =>
            lexemes allowNotFinite (.plain (.float (Binary64.infinity true)) :: found) after
          | none =>
            match _h : plainFront? allowNotFinite c rest with
            | some (d, after) => lexemes allowNotFinite (.plain d :: found) after
            | none => none
termination_by cs.length
decreasing_by
  · simp
  · simp
  · have := quotedBody_length _h
    simp only [List.length_cons]
    omega
  · exact afterLeast?_length_lt (Option.filter_eq_some_iff.1 _h).1
  · have := plainFront?_length_le _h
    simp only [List.length_cons]
    omega

inductive Open
  | list (items : List Datum)
  | record (fields : List (String × Datum)) (key : String)

/-- What may come next. -/
inductive Stage
  | datum (mayClose : Bool)
  | key (fields : List (String × Datum)) (mayClose : Bool)
  | colon (fields : List (String × Datum)) (key : String)
  | after (d : Datum)

structure Progress where
  stack : List Open
  stage : Stage

/-- Sets the field under a key: in place if the key is there, else as the last one. -/
def setField (fields : List (String × Datum)) (key : String) (d : Datum) : List (String × Datum) :=
  if fields.any (·.1 == key) then fields.map fun f => if f.1 == key then (key, d) else f
  else (key, d) :: fields

def Progress.step (p : Progress) (lexeme : Lexeme) : Option Progress :=
  match p.stage, lexeme, p.stack with
  | .datum _, .text s, stack => some ⟨stack, .after (.text s)⟩
  | .datum _, .plain d, stack => some ⟨stack, .after d⟩
  | .datum _, .openList, stack => some ⟨.list [] :: stack, .datum true⟩
  | .datum _, .openRecord, stack => some ⟨stack, .key [] true⟩
  | .datum true, .closeList, .list [] :: stack => some ⟨stack, .after (.list [])⟩
  | .key fields _, .text s, stack => some ⟨stack, .colon fields s⟩
  | .key fields true, .closeRecord, stack => some ⟨stack, .after (.record fields.reverse)⟩
  | .colon fields key, .colon, stack => some ⟨.record fields key :: stack, .datum false⟩
  | .after d, .comma, .list items :: stack => some ⟨.list (d :: items) :: stack, .datum false⟩
  | .after d, .comma, .record fields key :: stack => some ⟨stack, .key (setField fields key d) false⟩
  | .after d, .closeList, .list items :: stack =>
    some ⟨stack, .after (.list (d :: items).reverse)⟩
  | .after d, .closeRecord, .record fields key :: stack =>
    some ⟨stack, .after (.record (setField fields key d).reverse)⟩
  | _, _, _ => none

def read? (allowNotFinite : Bool) (text : String) : Option Datum := do
  let found ← lexemes allowNotFinite [] text.toList
  let progress ← found.reverse.foldlM Progress.step ⟨[], .datum false⟩
  match progress with
  | ⟨[], .after d⟩ => return d
  | _ => none

end Instrument.Json
