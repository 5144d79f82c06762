import Shading.Grammar.Rule
import Shading.Kernel.Lowering
import Shading.Source.Reading

/-!
# Errors

What ends a compilation.  An error is a cause, with the place where it arose if it has one; a report
is how an error is shown.

* `Error.report` — how an error is shown;
* `Report.text` — the words of a report.
-/

namespace Shading

/-- An error as it is shown. -/
inductive Report
  | lex (message path : String) (position : Position) (rest : String)
  | parse (message path : String) (position : Position)
  | lowering (message : String)
  | inclusion (message path : String)
  | io (message : String)
  | config (message : String)
  | cancelled
deriving DecidableEq, Repr

namespace Report

/-- The words of a report. -/
def text : Report → String
  | lex message path position rest =>
    "lex error: " ++ message ++ " at " ++ path ++ ":" ++ position.text ++ " (in `" ++ rest ++ "`)"
  | parse message path position =>
    "parse error: " ++ message ++ " at " ++ path ++ ":" ++ position.text
  | lowering message => "lowering error: " ++ message
  | inclusion message path => "include error: " ++ message ++ " (" ++ path ++ ")"
  | io message => "IO error: " ++ message
  | config message => "config error: " ++ message
  | cancelled => "compilation cancelled"

/-- The position that a report names. -/
def position? : Report → Option Position
  | lex _ _ position _ => some position
  | parse _ _ position => some position
  | _ => none

end Report

/-- Why an included file is not there. -/
inductive InclusionCause
  | notFound
  | noResolver
  | topLevelCycle
deriving DecidableEq, Repr

/-- The words for a cause. -/
def InclusionCause.message : InclusionCause → String
  | notFound => "shader source not found"
  | noResolver => "no include resolver is configured"
  | topLevelCycle => "top-level shader forms an include cycle"

/-- Why a configuration cannot be used. -/
inductive ConfigCause
  | malformed
  | unknownArchetype (name : String)
deriving DecidableEq, Repr

/-- The words for a cause. -/
def ConfigCause.message : ConfigCause → String
  | malformed => "malformed document"
  | unknownArchetype name => "unknown shader archetype: " ++ name

/-- What ends a compilation. -/
inductive Error
  | lex (path : String) (fault : Scan.Fault)
  | parse (path : String) (fault : Grammar.Fault)
  | lowering (cause : Lowering.Cause)
  | inclusion (cause : InclusionCause) (path : String)
  | io (fault : IoFault)
  | config (cause : ConfigCause)
  | cancelled
deriving Repr

namespace Error

/-- How an error is shown. -/
def report : Error → Report
  | lex path fault => .lex fault.cause.message path fault.position fault.rest
  | parse path fault => .parse fault.cause.message path fault.position
  | lowering cause => .lowering cause.message
  | inclusion cause path => .inclusion cause.message path
  | io fault => .io fault.message
  | config cause => .config cause.message
  | cancelled => .cancelled

/-- The error of a source that could not be read to its end. -/
def ofInterruption (path : String) : Interruption → Error
  | .scan fault => lex path fault
  | .read fault => io fault
  | .cancelled => cancelled

end Error

end Shading
