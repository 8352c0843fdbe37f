import LvglForest.Text.Basic

/-!
# Log records

What the parts of the library report while they work. Records are values: an operation returns the
records it makes, in order.
-/

namespace LvglForest

/-- How much a record matters, in ascending order. -/
inductive LogLevel where
  | debug
  | info
  | warning
  | error
  deriving DecidableEq

/-- The part of the library that makes a record. -/
inductive LogSource where
  | extraction
  | hierarchy
  | generation
  | exporting
  | importing
  deriving DecidableEq

/-- One report. -/
structure LogRecord where
  level : LogLevel
  source : LogSource
  text : Text

end LvglForest
