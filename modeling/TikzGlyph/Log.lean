/-!
# Log records

Operations are accompanied by records of what they did. The records of an operation are a function
of its input like its result, and stand beside it.
-/

namespace TikzGlyph

/-- How important a record is. -/
inductive LogLevel
  | warn
  | debug
  | trace
deriving DecidableEq, Repr

def LogLevel.text : LogLevel → String
  | .warn => "WARN"
  | .debug => "DEBUG"
  | .trace => "TRACE"

/-- One line of a log. -/
structure LogRecord where
  level : LogLevel
  text : String
deriving DecidableEq, Repr

end TikzGlyph
