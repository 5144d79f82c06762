import Shading.Token

/-!
# Rules

A rule reads tokens from the front of what is left and gives what it has read, or stops with a
fault.  A fault is placed at the token read last, or at the first token when none has been read.

* `Cursor` — the tokens left, and the position of the token read last;
* `Rule` — reading that may stop;
* `Rule.expect`, `Rule.identifier` — the rules for one token;
* `Rule.parenthesised` — a list in parentheses, in which a comma may stand behind the last element.
-/

namespace Shading

namespace Grammar

/-- Why reading stops.  Where a token stands in the way it is named; otherwise the tokens have come
to their end. -/
inductive Cause
  | expectedMark (m : Mark) (found : Option Token.Kind)
  | expectedIdentifier (found : Option Token.Kind)
  | expectedExpression (found : Option Token.Kind)
  | expectedIncludePath
  | expectedSemicolon
  | unknownKeyword (k : Keyword)
  | unsupported (k : Keyword)
  | unknownPrimitive (word : String)
  | stageNotVoid (name : String)
  | tooDeep
deriving DecidableEq, Repr

/-- How a message names what was found. -/
def foundText : Option Token.Kind → String
  | some kind => "'" ++ kind.text ++ "'"
  | none => "end of input"

/-- The words for a cause. -/
def Cause.message : Cause → String
  | expectedMark m found => "Expected '" ++ m.text ++ "', found " ++ foundText found
  | expectedIdentifier found => "Expected an identifier, found " ++ foundText found
  | expectedExpression found => "Expected an expression, found " ++ foundText found
  | expectedIncludePath => "Expected a string path after #include"
  | expectedSemicolon => "Expect a semicolon after an expression"
  | unknownKeyword k => "An unrecognized keyword was encountered: " ++ k.text
  | unsupported k => "'" ++ k.text ++ "' statements are not supported yet"
  | unknownPrimitive word => "An unrecognized primitive type was specified " ++ word
  | stageNotVoid name => "The stage function " ++ name ++ " should have a void return type"
  | tooDeep => "Exceeded max expression depth"

/-- Why and where reading stops. -/
structure Fault where
  cause : Cause
  position : Position
deriving DecidableEq, Repr

/-- The tokens left, and the position of the token read last. -/
structure Cursor where
  rest : List Token
  last : Position
deriving DecidableEq, Repr

namespace Cursor

/-- Before the first token, where the position is that of the first token. -/
def start (tokens : List Token) : Cursor :=
  ⟨tokens, (tokens.head?.map Token.position).getD Position.start⟩

/-- The kind of the next token. -/
def next? (c : Cursor) : Option Token.Kind := c.rest.head?.map Token.kind

/-- The kind of the token behind the next. -/
def second? (c : Cursor) : Option Token.Kind := c.rest.tail.head?.map Token.kind

/-- Behind the next token, if there is one. -/
def advance (c : Cursor) : Cursor :=
  match c.rest with
  | [] => c
  | t :: rest => ⟨rest, t.position⟩

end Cursor

end Grammar

open Grammar

/-- Reading that may stop. -/
abbrev Rule := StateT Cursor (Except Fault)

namespace Rule

variable {α : Type}

/-- Stops at the token read last. -/
def stop (cause : Cause) : Rule α := fun c => .error ⟨cause, c.last⟩

/-- The next token, which stays. -/
def peekToken : Rule (Option Token) := fun c => .ok (c.rest.head?, c)

/-- The kind of the next token, which stays. -/
def peek : Rule (Option Token.Kind) := fun c => .ok (c.next?, c)

/-- The kind of the token behind the next, and both stay. -/
def peekSecond : Rule (Option Token.Kind) := fun c => .ok (c.second?, c)

/-- The number of tokens left. -/
def remaining : Rule Nat := fun c => .ok (c.rest.length, c)

/-- Passes the next token. -/
def advance : Rule Unit := fun c => .ok ((), c.advance)

/-- Passes a mark that must come next. -/
def expect (m : Mark) : Rule Unit := do
  let found ← peek
  if found = some (.mark m) then advance else stop (.expectedMark m found)

/-- An identifier. -/
def identifier : Rule String := do
  match ← peek with
  | some (.identifier name) => advance; return name
  | found => stop (.expectedIdentifier found)

/-- Elements divided by commas, up to a closing parenthesis or an element that no comma follows.
At most `n` elements are read. -/
def commaSeparated (element : Rule α) : Nat → Rule (List α)
  | 0 => return []
  | n + 1 => do
    if (← peek) = some (.mark .rightParen) then return []
    let x ← element
    if (← peek) = some (.mark .comma) then
      advance
      return x :: (← commaSeparated element n)
    else return [x]

/-- Elements divided by commas, in parentheses. -/
def parenthesised (element : Rule α) : Rule (List α) := do
  expect .leftParen
  let xs ← commaSeparated element ((← remaining) + 1)
  expect .rightParen
  return xs

end Rule

end Shading
