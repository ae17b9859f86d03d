import TopicFilter.Text

/-!
# Settings/LogLevel — how much is logged

A level is read from its name in any letter case. Two levels have a second name; `LogLevel.canonical` is the first
one of each.
-/

namespace TopicFilter

/-- The names of levels. -/
inductive LogLevel where
  | critical | fatal | error | warn | warning | info | debug | notset
deriving DecidableEq

namespace LogLevel

/-- All names. -/
def all : List LogLevel := [critical, fatal, error, warn, warning, info, debug, notset]

/-- The name in capitals. -/
def name : LogLevel → Text
  | critical => text "CRITICAL"
  | fatal => text "FATAL"
  | error => text "ERROR"
  | warn => text "WARN"
  | warning => text "WARNING"
  | info => text "INFO"
  | debug => text "DEBUG"
  | notset => text "NOTSET"

/-- The first name of a level. -/
def canonical : LogLevel → LogLevel
  | fatal => critical
  | warn => warning
  | level => level

/-- The capital of a code point where it is a letter of ASCII: besides the small letters these are the dotless i
and the long s. What has other capitals, or several, occurs in no name. -/
def capital (c : CodePoint) : CodePoint :=
  if h : 0x61 ≤ c.toNat ∧ c.toNat ≤ 0x7A then ⟨c.toNat - 0x20, by omega⟩
  else if c.toNat = 0x131 then CodePoint.ofChar 'I'
  else if c.toNat = 0x17F then CodePoint.ofChar 'S'
  else c

/-- The level that a text names. -/
def ofText? (t : Text) : Option LogLevel := all.find? (·.name = t.map capital)

theorem ofText?_name (level : LogLevel) : ofText? level.name = some level := by
  cases level <;> decide

end LogLevel

end TopicFilter
