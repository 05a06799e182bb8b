import Instrument.Expr.Token

namespace Instrument.Expr

inductive Tree
  | number (content : Datum)
  | name (s : String)
  | unary (operator : String) (operand : Tree)
  | binary (operator : String) (left right : Tree)
  | bare (label : String)

inductive ParseError.Reason
  | empty
  | unexpected
  | ended
  | unclosed
  deriving DecidableEq

structure ParseError where
  reason : ParseError.Reason
  token : Token

def ParseError.wording (e : ParseError) : String :=
  match e.reason with
  | .empty => "Empty expression"
  | .unexpected => "Unexpected token '" ++ e.token.content.shown ++ "'"
  | .ended => "Unexpected end of expression"
  | .unclosed => "Expected ')' after expression"

def ParseError.message (e : ParseError) : String :=
  e.wording ++ " at position " ++ toString e.token.position

/-- Whether there is a wording: it shows what the token holds only where it says that the token is
unexpected. Places in a text are never too long for it. -/
def ParseError.isWritable (e : ParseError) : Bool :=
  e.reason != .unexpected || e.token.content.isWritable

def ParseError.stop (e : ParseError) : Stop ParseError :=
  if e.isWritable then .fault e else .overlong .written

def additive? : Kind → Option String
  | .plus => some "+"
  | .minus => some "-"
  | _ => none

def multiplicative? : Kind → Option String
  | .times => some "*"
  | .divide => some "/"
  | _ => none

/-- What is left of the tokens when at least one was taken. -/
abbrev Rest (ts : List Token) : Type := { rest : List Token // rest.length < ts.length }

/-- What is left of the tokens when any number was taken. -/
abbrev Tail (ts : List Token) : Type := { rest : List Token // rest.length ≤ ts.length }

def dropClosing (finish : Token) : (ts : List Token) → Except ParseError (Rest ts)
  | [] => .error ⟨.unclosed, finish⟩
  | t :: more =>
    match t.kind with
    | .closing => .ok ⟨more, by simp⟩
    | _ => .error ⟨.unclosed, t⟩

mutual

/-- Reads a sum from the front of the tokens. `finish` is the end of the text. -/
def parseSum (finish : Token) (ts : List Token) : Except ParseError (Tree × Rest ts) :=
  match parseProduct finish ts with
  | .error e => .error e
  | .ok (left, ⟨rest, hrest⟩) =>
    match parseTerms finish left rest with
    | .error e => .error e
    | .ok (tree, ⟨last, hlast⟩) => .ok (tree, ⟨last, Nat.lt_of_le_of_lt hlast hrest⟩)
termination_by (ts.length, 4)

def parseTerms (finish : Token) (left : Tree) (ts : List Token) :
    Except ParseError (Tree × Tail ts) :=
  match ts with
  | [] => .ok (left, ⟨[], Nat.le_refl _⟩)
  | t :: more =>
    match additive? t.kind with
    | none => .ok (left, ⟨t :: more, Nat.le_refl _⟩)
    | some operator =>
      match parseProduct finish more with
      | .error e => .error e
      | .ok (right, ⟨rest, hrest⟩) =>
        match parseTerms finish (.binary operator left right) rest with
        | .error e => .error e
        | .ok (tree, ⟨last, hlast⟩) =>
          .ok (tree, ⟨last, by simp only [List.length_cons]; omega⟩)
termination_by (ts.length, 3)

def parseProduct (finish : Token) (ts : List Token) : Except ParseError (Tree × Rest ts) :=
  match parseFactor finish ts with
  | .error e => .error e
  | .ok (left, ⟨rest, hrest⟩) =>
    match parseFactors finish left rest with
    | .error e => .error e
    | .ok (tree, ⟨last, hlast⟩) => .ok (tree, ⟨last, Nat.lt_of_le_of_lt hlast hrest⟩)
termination_by (ts.length, 2)

def parseFactors (finish : Token) (left : Tree) (ts : List Token) :
    Except ParseError (Tree × Tail ts) :=
  match ts with
  | [] => .ok (left, ⟨[], Nat.le_refl _⟩)
  | t :: more =>
    match multiplicative? t.kind with
    | none => .ok (left, ⟨t :: more, Nat.le_refl _⟩)
    | some operator =>
      match parseFactor finish more with
      | .error e => .error e
      | .ok (right, ⟨rest, hrest⟩) =>
        match parseFactors finish (.binary operator left right) rest with
        | .error e => .error e
        | .ok (tree, ⟨last, hlast⟩) =>
          .ok (tree, ⟨last, by simp only [List.length_cons]; omega⟩)
termination_by (ts.length, 1)

def parseFactor (finish : Token) (ts : List Token) : Except ParseError (Tree × Rest ts) :=
  match ts with
  | [] => .error ⟨.ended, finish⟩
  | t :: more =>
    match t.kind with
    | .minus =>
      match parseFactor finish more with
      | .error e => .error e
      | .ok (tree, ⟨rest, hrest⟩) =>
        .ok (.unary "-" tree, ⟨rest, by simp only [List.length_cons]; omega⟩)
    | .number => .ok (.number t.content, ⟨more, by simp⟩)
    | .name => .ok (.name t.content.shown, ⟨more, by simp⟩)
    | .opening =>
      match parseSum finish more with
      | .error e => .error e
      | .ok (tree, ⟨rest, hrest⟩) =>
        match dropClosing finish rest with
        | .error e => .error e
        | .ok ⟨last, hlast⟩ => .ok (tree, ⟨last, by simp only [List.length_cons]; omega⟩)
    | _ => .error ⟨.unexpected, t⟩
termination_by (ts.length, 0)

end

def bodyOf (tokens : List Token) : List Token := tokens.takeWhile fun t => !t.isEnding

/-- The end of the text: the first token that says so, else a place after the last character. -/
def finishOf (length : Nat) (tokens : List Token) : Token :=
  (tokens.find? (·.isEnding)).getD (.ending length)

def parseTokens (length : Nat) (tokens : List Token) : Except ParseError Tree :=
  match bodyOf tokens with
  | [] => .error ⟨.empty, .ending 0⟩
  | first :: more =>
    match parseSum (finishOf length tokens) (first :: more) with
    | .error e => .error e
    | .ok (tree, ⟨[], _⟩) => .ok tree
    | .ok (_, ⟨t :: _, _⟩) => .error ⟨.unexpected, t⟩

inductive SyntaxError
  | lexical (e : LexError)
  | grammatical (e : ParseError)

def SyntaxError.message : SyntaxError → String
  | .lexical e => e.message
  | .grammatical e => e.message

def parse (source : String) : Except (Stop SyntaxError) Tree :=
  match scan source with
  | .error e => .error (e.map .lexical)
  | .ok tokens => (parseTokens source.length tokens).mapError fun e => e.stop.map .grammatical

end Instrument.Expr
