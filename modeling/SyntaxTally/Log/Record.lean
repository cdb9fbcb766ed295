/-!
# Log records

What a part of the program has to tell, with its weight and the part's name.
-/
namespace SyntaxTally.Log

inductive Level where
  | debug
  | info
  | warning
  | error
  | critical
  deriving DecidableEq

namespace Level

def number : Level → Nat
  | debug => 10
  | info => 20
  | warning => 30
  | error => 40
  | critical => 50

def name : Level → String
  | debug => "DEBUG"
  | info => "INFO"
  | warning => "WARNING"
  | error => "ERROR"
  | critical => "CRITICAL"

end Level

/-- The name all loggers begin with. -/
def rootName : String := "querytally"

/-- The full name of a part's logger. -/
def loggerName (part : String) : String := if part.isEmpty then rootName else rootName ++ "." ++ part

structure Record where
  level : Level
  part : String
  text : String
  deriving DecidableEq

/-- The record on one line. -/
def Record.line (record : Record) : String :=
  record.level.name ++ " " ++ loggerName record.part ++ ": " ++ record.text

end SyntaxTally.Log
