import TopicFilter.Fault

/-!
# Log — what the library reports while it works

A log is a list of entries, oldest first. It is returned beside the answer and only ever grows at its end.
-/

namespace TopicFilter

/-- The part of the library that reports. -/
inductive Channel where
  /-- Compiled matchers. -/
  | matcher
  /-- New hashers. -/
  | hasher
  /-- Filtered frames. -/
  | frame
  /-- Loaded settings. -/
  | settings
  /-- The demonstration. -/
  | demo
deriving DecidableEq

/-- How much an entry matters. -/
inductive Severity where
  /-- Of interest to a developer. -/
  | debug
  /-- Of interest to a user. -/
  | info
deriving DecidableEq

/-- One report. -/
structure LogEntry where
  /-- How much it matters. -/
  severity : Severity
  /-- Who reports. -/
  channel : Channel
  /-- What is reported. -/
  message : Text
deriving DecidableEq

/-- The reports of a run, oldest first. -/
abbrev Log := List LogEntry

/-- A computation that reports, and that keeps what it has reported when it fails. -/
abbrev Reporting := ExceptT Fault (StateM Log)

/-- A report. -/
def report (entry : LogEntry) : Reporting Unit := modify (· ++ [entry])

/-- The outcome and the reports of a computation. -/
def Reporting.outcome {α : Type} (r : Reporting α) : Except Fault α × Log := (ExceptT.run r).run []

/-- A computation without reports. -/
def Reporting.ofExcept {α : Type} (e : Except Fault α) : Reporting α := liftExcept e
where
  /-- The outcome in the computation. -/
  liftExcept : Except Fault α → Reporting α
    | .ok a => pure a
    | .error f => throw f

end TopicFilter
