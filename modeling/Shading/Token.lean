import Shading.Decimal.Layout
import Shading.Position

/-!
# Tokens

The words of the shading language: marks, numbers, strings, identifiers, keywords and comments.  A
token also keeps where it stands and the characters it was read from.
-/

namespace Shading

/-- Punctuation and operators. -/
inductive Mark
  | leftParen | rightParen | leftBrace | rightBrace | leftBracket | rightBracket
  | comma | dot | colon | semicolon
  | minus | plus | star | slash
  | bang | bangEqual | equal | equalEqual
  | less | lessEqual | greater | greaterEqual
deriving DecidableEq, Repr

namespace Mark

/-- How a mark is written. -/
def text : Mark → String
  | leftParen => "("
  | rightParen => ")"
  | leftBrace => "\x7b"
  | rightBrace => "\x7d"
  | leftBracket => "["
  | rightBracket => "]"
  | comma => ","
  | dot => "."
  | colon => ":"
  | semicolon => ";"
  | minus => "-"
  | plus => "+"
  | star => "*"
  | slash => "/"
  | bang => "!"
  | bangEqual => "!="
  | equal => "="
  | equalEqual => "=="
  | less => "<"
  | lessEqual => "<="
  | greater => ">"
  | greaterEqual => ">="

end Mark

/-- The reserved words. -/
inductive Keyword
  | includeFile | shaderType | uniform | varying | const | returns | sample | ifThen | whileLoop
  | forLoop
deriving DecidableEq, Repr

namespace Keyword

/-- How a keyword is written. -/
def text : Keyword → String
  | includeFile => "#include"
  | shaderType => "#shader_type"
  | uniform => "uniform"
  | varying => "varying"
  | const => "const"
  | returns => "return"
  | sample => "SAMPLE"
  | ifThen => "if"
  | whileLoop => "while"
  | forLoop => "for"

/-- The keyword a word is, if it is reserved. -/
def ofText? : String → Option Keyword
  | "#include" => some includeFile
  | "#shader_type" => some shaderType
  | "uniform" => some uniform
  | "varying" => some varying
  | "const" => some const
  | "return" => some returns
  | "SAMPLE" => some sample
  | "if" => some ifThen
  | "while" => some whileLoop
  | "for" => some forLoop
  | _ => none

theorem ofText?_text (k : Keyword) : ofText? k.text = some k := by cases k <;> rfl

theorem text_of_ofText? {s : String} {k : Keyword} (h : ofText? s = some k) : k.text = s := by
  unfold ofText? at h
  split at h <;> cases h <;> rfl

end Keyword

namespace Token

/-- What a token is.  A comment keeps its text without the slashes and the blanks around it. -/
inductive Kind
  | mark (m : Mark)
  | number (value : Double)
  | string (text : String)
  | identifier (name : String)
  | keyword (k : Keyword)
  | comment (text : String)
deriving DecidableEq, Repr

/-- How a message shows a token. -/
def Kind.text : Kind → String
  | mark m => m.text
  | number value => value.text
  | string text => "\"" ++ text ++ "\""
  | identifier name => name
  | keyword k => k.text
  | comment text => "// " ++ text

end Token

/-- A token with its place and the characters it was read from. -/
structure Token where
  kind : Token.Kind
  span : Span
  lexeme : String
deriving DecidableEq, Repr

/-- Where the token begins. -/
def Token.position (t : Token) : Position := t.span.position

end Shading
