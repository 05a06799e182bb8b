import Instrument.Datum.Printer

namespace Instrument.Json

inductive Fault
  | notPlain (type : String)
  | notFinite (x : Float)
  | overlong (o : Overlong)

def Fault.message : Fault → String
  | .notPlain type => "Object of type " ++ type ++ " is not JSON serializable"
  | .notFinite x => "Out of range float values are not JSON compliant: " ++ Number.floatText x
  | .overlong o => o.message

def unit (n : Nat) : List Char := '\\' :: 'u' :: Text.hexDigits 4 n

def escapedCode (n : Nat) : List Char :=
  if n < 0x10000 then unit n
  else unit (0xd800 + (n - 0x10000) / 0x400) ++ unit (0xdc00 + (n - 0x10000) % 0x400)

def escapedChar (c : Char) : List Char :=
  if c = '"' then ['\\', '"']
  else if c = '\\' then ['\\', '\\']
  else if c = '\n' then ['\\', 'n']
  else if c = '\r' then ['\\', 'r']
  else if c = '\t' then ['\\', 't']
  else if c.toNat = 12 then ['\\', 'f']
  else if c.toNat = 8 then ['\\', 'b']
  else if 32 ≤ c.toNat && c.toNat ≤ 126 then [c]
  else escapedCode c.toNat

def textJson (s : String) : String :=
  String.ofList ('"' :: s.toList.flatMap escapedChar ++ ['"'])

def floatJson (x : Float) : String :=
  if (Binary64.parts? x).isSome then Number.floatText x
  else if x.isNaN then "NaN"
  else if Binary64.isNegative x then "-Infinity" else "Infinity"

/-- Where a member begins: on a new line, two columns in for each bracket around it, or at once. -/
structure Layout where
  indented : Bool
  allowNotFinite : Bool

def Layout.newLine (layout : Layout) (depth : Nat) : String :=
  if layout.indented then "\n" ++ String.ofList (List.replicate (2 * depth) ' ') else ""

def Layout.comma (layout : Layout) (depth : Nat) : String :=
  "," ++ layout.newLine depth

def Layout.enclose (layout : Layout) (opening closing : String) (depth : Nat)
    (members : List String) : String :=
  if members.isEmpty then opening ++ closing
  else opening ++ layout.newLine (depth + 1) ++ (layout.comma (depth + 1)).intercalate members
    ++ layout.newLine depth ++ closing

mutual

def render (layout : Layout) (depth : Nat) : Datum → Except Fault String
  | .null => .ok "null"
  | .bool b => .ok (if b then "true" else "false")
  | .number (.int i) =>
    if (Number.int i).isWritable then .ok (toString i) else .error (.overlong .written)
  | .number (.float x) =>
    if layout.allowNotFinite || (Binary64.parts? x).isSome then .ok (floatJson x)
    else .error (.notFinite x)
  | .text s => .ok (textJson s)
  | .list items => do
    return layout.enclose "[" "]" depth (← renderItems layout (depth + 1) items)
  | .record fields => do
    return layout.enclose "\x7b" "\x7d" depth (← renderFields layout (depth + 1) fields)
  | .value v => .error (.notPlain v.typeName)
  | .assigned value modulation => .error (.notPlain (Datum.assigned value modulation).typeName)

def renderItems (layout : Layout) (depth : Nat) : List Datum → Except Fault (List String)
  | [] => .ok []
  | d :: rest => do
    let first ← render layout depth d
    return first :: (← renderItems layout depth rest)

def renderFields (layout : Layout) (depth : Nat) :
    List (String × Datum) → Except Fault (List String)
  | [] => .ok []
  | (key, d) :: rest => do
    let first ← render layout depth d
    return (textJson key ++ ": " ++ first) :: (← renderFields layout depth rest)

end

def indented (allowNotFinite : Bool) (d : Datum) : Except Fault String :=
  render ⟨true, allowNotFinite⟩ 0 d

def oneLine (d : Datum) : Except Fault String := render ⟨false, true⟩ 0 d

end Instrument.Json
