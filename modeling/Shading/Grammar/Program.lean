import Shading.Grammar.Expr
import Shading.Program

/-!
# The rules for programs

A program is a sequence of items.  At the top level a keyword and an identifier begin an item, and
any other token is passed over.

* `Statement.rule` — a statement of a body;
* `Item.rule` — an item at the top level;
* `Program.ofItems` — what items declare;
* `Program.ofTokens` — the program of a whole token list.
-/

namespace Shading

/-- A parameter, a uniform or a varying: a type and a name. -/
def Binding.rule : Rule Binding := do
  let primitive ← Primitive.rule
  let name ← Rule.identifier
  return { primitive, name }

/-- A constant, behind its keyword. -/
def Constant.rule : Rule Constant := do
  let primitive ← Primitive.rule
  let name ← Rule.identifier
  Rule.expect .equal
  let value ← Expr.rule
  return { primitive, name, value }

namespace Statement

/-- A statement that begins with a keyword, which has been passed. -/
def afterKeyword : Keyword → Rule Statement
  | .returns => do
    let value ← Expr.rule
    Rule.expect .semicolon
    return .returns value
  | .const => do
    let declared ← Constant.rule
    Rule.expect .semicolon
    return .constant declared
  | .ifThen => Rule.stop (.unsupported .ifThen)
  | .whileLoop => Rule.stop (.unsupported .whileLoop)
  | .forLoop => Rule.stop (.unsupported .forLoop)
  | k => Rule.stop (.unknownKeyword k)

/-- An assignment, behind the name and the equals sign. -/
def assignment (target : String) : Rule Statement := do
  let value ← Expr.rule
  Rule.expect .semicolon
  return .assign target value

/-- An expression that is a statement. -/
def evaluation : Rule Statement := do
  let value ← Expr.rule
  if (← Rule.peek) = some (.mark .semicolon) then
    Rule.advance
    return .expression value
  else Rule.stop .expectedSemicolon

/-- A statement.  A name is the target of an assignment when an equals sign follows it. -/
def rule : Rule Statement := do
  match ← Rule.peek, ← Rule.peekSecond with
  | some (.comment text), _ => Rule.advance; return .comment text
  | some (.keyword k), _ => Rule.advance; afterKeyword k
  | some (.identifier name), some (.mark .equal) =>
    Rule.advance
    Rule.advance
    assignment name
  | _, _ => evaluation

/-- The statements up to a closing brace.  At most `n` are read. -/
def sequence : Nat → Rule (List Statement)
  | 0 => return []
  | n + 1 => do
    match ← Rule.peek with
    | none => Rule.stop (.expectedMark .rightBrace none)
    | some (.mark .rightBrace) => return []
    | some _ =>
      let statement ← rule
      let later ← sequence n
      return statement :: later

/-- A body: statements in braces. -/
def body : Rule (List Statement) := do
  Rule.expect .leftBrace
  let statements ← sequence ((← Rule.remaining) + 1)
  Rule.expect .rightBrace
  return statements

end Statement

/-- What stands at the top level of a program. -/
inductive Item
  | includeFile (path : String)
  | shaderType (kind : String)
  | uniform (binding : Binding)
  | varying (binding : Binding)
  | constant (declared : Constant)
  | function (declared : Function)
  | stage (declared : Stage)
deriving Repr

namespace Item

/-- The string behind the keyword for an included file. -/
def includePath : Rule String := do
  let found ← Rule.peek
  Rule.advance
  match found with
  | some (.string path) => return path
  | _ => Rule.stop .expectedIncludePath

/-- An item that begins with a keyword, which has been passed.  A sampling has no place in a program
and is dropped. -/
def afterKeyword : Keyword → Rule (Option Item)
  | .includeFile => return some (.includeFile (← includePath))
  | .shaderType => return some (.shaderType (← Rule.identifier))
  | .uniform => return some (.uniform (← Binding.rule))
  | .varying => return some (.varying (← Binding.rule))
  | .const => return some (.constant (← Constant.rule))
  | .sample => do
    let _ ← Expr.sampling Expr.rule
    return none
  | k => Rule.stop (.unknownKeyword k)

/-- A function, or a stage when its name is reserved for one. -/
def definition : Rule Item := do
  let returned ← Primitive.rule
  let name ← Rule.identifier
  let parameters ← Rule.parenthesised Binding.rule
  let body ← Statement.body
  match StageKind.ofName? name with
  | none => return .function { returned, name, parameters, body }
  | some kind =>
    if returned.isVoid then return .stage { kind, parameters, body }
    else Rule.stop (.stageNotVoid name)

/-- What the next token begins, if there is a token. -/
def rule : Rule (Option Item) := do
  match ← Rule.peek with
  | some (.keyword k) => Rule.advance; afterKeyword k
  | some (.identifier _) => return some (← definition)
  | _ => Rule.advance; return none

/-- The items up to the end.  At most `n` tokens or items are passed. -/
def sequence : Nat → Rule (List Item)
  | 0 => return []
  | n + 1 => do
    if (← Rule.remaining) = 0 then return []
    let item ← rule
    let later ← sequence n
    return item.toList ++ later

end Item

namespace Program

/-- The files that items include. -/
def includePath? : Item → Option String
  | .includeFile path => some path
  | _ => none

/-- The type that an item gives. -/
def typeOf? : Item → Option String
  | .shaderType kind => some kind
  | _ => none

/-- The uniform that an item declares. -/
def uniformOf? : Item → Option Binding
  | .uniform binding => some binding
  | _ => none

/-- The varying that an item declares. -/
def varyingOf? : Item → Option Binding
  | .varying binding => some binding
  | _ => none

/-- The constant that an item declares. -/
def constantOf? : Item → Option Constant
  | .constant declared => some declared
  | _ => none

/-- The function that an item declares. -/
def functionOf? : Item → Option Function
  | .function declared => some declared
  | _ => none

/-- The stage that an item declares. -/
def stageOf? : Item → Option Stage
  | .stage declared => some declared
  | _ => none

/-- What items declare.  The first type given is the type. -/
def ofItems (items : List Item) : Program where
  shaderType := (items.findSome? typeOf?).getD "none"
  includes := PathSet.ofList (items.filterMap includePath?)
  uniforms := items.filterMap uniformOf?
  varyings := items.filterMap varyingOf?
  constants := items.filterMap constantOf?
  functions := items.filterMap functionOf?
  stages := items.filterMap stageOf?

/-- The items of a token list. -/
def itemsOfTokens (tokens : List Token) : Except Grammar.Fault (List Item) :=
  (·.1) <$> Item.sequence tokens.length (Grammar.Cursor.start tokens)

/-- The program of a token list. -/
def ofTokens (tokens : List Token) : Except Grammar.Fault Program :=
  ofItems <$> itemsOfTokens tokens

end Program

end Shading
