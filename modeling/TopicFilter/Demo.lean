import TopicFilter.Matcher

/-!
# Demo — messages and the subscriptions that receive them

What the demonstrations have in common: named messages with their topics, and the names of those that a filter
accepts.
-/

namespace TopicFilter.Demo

/-- A message by name, with its topics. -/
structure Message where
  /-- The name. -/
  name : Text
  /-- The topics, in order. -/
  topics : List Topic

/-- A payload of ASCII characters. -/
def payload (s : String) : Payload := .bytes (s.toList.map fun c => c.toNat.toUInt8)

/-- A message with topics derived from ASCII payloads. -/
def message (d : Deriver) (name : String) (payloads : List String) : Except Fault Message := do
  return { name := text name, topics := ← d.deriveAll (payloads.map payload) }

/-- The names of the messages that a filter accepts, in order. -/
def accepted (m : Matcher) (messages : List Message) : List Text :=
  (messages.filter fun message => m.accepts message.topics).map Message.name

/-- A matcher, reported. -/
def compiled (m : Matcher) : Reporting Matcher := do
  report m.report
  return m

/-- An entry of the demonstration. -/
def say (t : Text) : Reporting Unit := report { severity := .info, channel := .demo, message := t }

end TopicFilter.Demo
