/-
  Events that a run reports beside its result, and the lines they are written as.
-/
namespace PackagePlan

/-- How much an event matters. -/
inductive LogLevel where
  | error
  | warn
  | info
  | debug
  | trace
  deriving DecidableEq, Inhabited, Repr

namespace LogLevel

/-- The levels, the most important one first. -/
def rank : LogLevel → Nat
  | error => 1
  | warn => 2
  | info => 3
  | debug => 4
  | trace => 5

/-- The name of a level, on the right of five columns. -/
def render : LogLevel → String
  | error => "ERROR"
  | warn => " WARN"
  | info => " INFO"
  | debug => "DEBUG"
  | trace => "TRACE"

end LogLevel

/-- An event: what happened, and named texts that tell more. -/
structure LogEvent where
  level : LogLevel
  message : String
  fields : List (String × String) := []
  deriving DecidableEq, Inhabited, Repr

namespace LogEvent

/-- The event on one line. -/
def render (event : LogEvent) : String :=
  event.level.render ++ " " ++ event.message
    ++ String.join (event.fields.map fun field => " " ++ field.1 ++ "=" ++ field.2)

/-- The lines of the events that matter at least as much as a level; none without a level. -/
def lines (threshold : Option LogLevel) (events : List LogEvent) : List String :=
  match threshold with
  | none => []
  | some level =>
    (events.filter fun event => decide (event.level.rank ≤ level.rank)).map LogEvent.render

end LogEvent

end PackagePlan
