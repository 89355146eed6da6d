/-
# Log records

What a client and its sources tell about their work: a text and how much it
matters.

Key definitions: `LogLevel`, `LogRecord`.
-/

namespace WorkloadIdentity

/-- How much a record matters. -/
inductive LogLevel where
  | error
  | warn
  | info
  | debug
  deriving DecidableEq, Repr

/-- The level as records show it. -/
def LogLevel.name : LogLevel → String
  | error => "ERROR"
  | warn => "WARN"
  | info => "INFO"
  | debug => "DEBUG"

/-- A text at a level. -/
structure LogRecord where
  level : LogLevel
  text : String
  deriving DecidableEq, Repr

end WorkloadIdentity
