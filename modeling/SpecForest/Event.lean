import SpecForest.Error

/-!
# Events

Scanning, building and resolving report what they do as events, in the order in which it happens. An
event has a level, a message and named fields; a span is a stretch of events with a start and an end.
-/

namespace SpecForest

/-- How much an event matters. -/
inductive Level
  | trace
  | debug
  | warn
  deriving DecidableEq

/-- The name of a level. -/
def Level.name : Level → String
  | trace => "TRACE"
  | debug => "DEBUG"
  | warn => "WARN"

/-- A stretch of events. -/
inductive Span
  | building (declarations : Nat)
  | resolving (separator : String)
  | scanning (path : String)
  deriving DecidableEq

/-- One report. -/
inductive Event
  | container (label : String) (children : Nat)
  | leaf (label : String)
  | table (label : String) (entries : Nat) (subtree : Bool)
  | strayEntry (line column : Nat)
  | scanned (source : String) (tokens declarations : Nat)
  | expanding (table : String) (entries : Nat) (subtree : Bool)
  | dropping (error : SpecError)
  | resolved (leaves : Nat)
  | enter (span : Span)
  | exit
  deriving DecidableEq

/-- A truth value as a field of an event. -/
def flagText (b : Bool) : String :=
  if b then "true" else "false"

namespace Span

/-- The name of a span. -/
def name : Span → String
  | building _ => "build_report"
  | resolving _ => "resolve"
  | scanning _ => "scan_file"

/-- The named fields of a span. -/
def fields : Span → List (String × String)
  | building n => [("declarations", toString n)]
  | resolving separator => [("separator", separator)]
  | scanning path => [("path", path)]

end Span

/-- What a collector of events receives. -/
inductive Report
  | event (level : Level) (message : String) (fields : List (String × String))
  | span (level : Level) (name : String) (fields : List (String × String))
  | exit

/-- An event as a collector receives it. -/
def Event.report : Event → Report
  | container label children =>
    .event .trace "container" [("label", label), ("children", toString children)]
  | leaf label => .event .trace "leaf" [("label", label)]
  | table label entries subtree => .event .trace "table"
    [("label", label), ("entries", toString entries), ("subtree", flagText subtree)]
  | strayEntry line column => .event .debug "ignoring Entry outside a table"
    [("line", toString line), ("column", toString column)]
  | scanned source tokens declarations => .event .debug "scanned ginkgo source"
    [("source", source), ("tokens", toString tokens), ("declarations", toString declarations)]
  | expanding label entries subtree => .event .debug "expanding table"
    [("table", label), ("entries", toString entries), ("subtree", flagText subtree)]
  | dropping error => .event .warn "dropping table" [("error", error.message)]
  | resolved leaves => .event .debug "resolved spec tree" [("leaves", toString leaves)]
  | enter span => .span .debug span.name span.fields
  | exit => .exit

end SpecForest
