import TopicFilter.Demo
import TopicFilter.Frame.Topics
import TopicFilter.Settings.File

/-!
# Demo/Batch — filtering messages one by one and all at once

The messages are filtered by three subscriptions, and then, as a frame, by the first of them once more. What is
printed names the same messages both times.
-/

namespace TopicFilter.Demo.Batch

/-- The messages. -/
def messages (d : Deriver) : Except Fault (List Message) := do
  return [← message d "chat/general" ["chat", "general", "en"],
    ← message d "chat/random" ["chat", "random"],
    ← message d "status/node-1" ["status", "node-1", "up", "v2"],
    ← message d "chat" ["chat"]]

/-- The filter of the first subscription. -/
def allChat (d : Deriver) : Except Fault Matcher := Matcher.ofPayloads d [[payload "chat"], []]

/-- The filter of the second subscription. -/
def generalOrStatus (d : Deriver) : Except Fault Matcher :=
  Matcher.ofPayloads d
    [[payload "chat", payload "status"], [payload "general", payload "node-1"]]

/-- The column of names. -/
def nameColumn : Text := text "name"

/-- The column of topics derived from names. -/
def nameTopicColumn : Text := text "name_topic"

/-- The messages as a frame of names and topics. -/
def frame (messages : List Message) : Frame :=
  { height := messages.length
    columns :=
      [{ name := nameColumn
         dtype := .string
         values := messages.map fun message => .text message.name
         length_values := List.length_map _
         holds_values := by
           intro v hv
           obtain ⟨message, _, rfl⟩ := List.mem_map.mp hv
           rfl },
       { name := Frame.defaultTopicsName
         dtype := .list .binary
         values := messages.map fun message => .list (message.topics.map fun t => .binary t.bytes)
         length_values := List.length_map _
         holds_values := by
           intro v hv
           obtain ⟨message, _, rfl⟩ := List.mem_map.mp hv
           simp [DType.holds] }]
    nodup := by
      change [nameColumn, Frame.defaultTopicsName].Nodup
      decide }

/-- The line of a subscription. -/
def subscriptionLine (name : String) (m : Matcher) (messages : List Message) : Text :=
  text "[" ++ text name ++ text "] " ++ m.shown ++ text " accepts "
    ++ Quoted.list (accepted m messages)

/-- The line of a row with a name and the topic derived from it. -/
def rowLine : Datum × Datum → Except Fault Text
  | (.text name, topic) => do
    return text "  " ++ name ++ text " (name topic " ++ (← topic.topic).hex ++ text ")"
  | (name, _) => .error (.notPayload name.className)

/-- The lines of the rows of a frame. -/
def rowLines (f : Frame) : Except Fault (List Text) := do
  let names ← f.getColumn nameColumn
  let topics ← f.getColumn nameTopicColumn
  (names.values.zip topics.values).mapM rowLine

/-- What the demonstration does to the outside. -/
structure Effects where
  /-- How the logs are set up. -/
  logging : Settings.Logging
  /-- What is printed, line by line. -/
  lines : List Text
deriving DecidableEq

/-- The demonstration, with a configuration file if one is named. -/
def run (e : Environment) (files : FileTree) (config : Option Path) : Reporting Effects := do
  let settings ← Settings.load e files config
  let hasher ← settings.buildHasher
  let deriver ← Reporting.ofExcept (Deriver.ofHasher hasher)
  say (text "Deriving topics with " ++ Deriver.shownOver hasher.shown)
  let messages ← Reporting.ofExcept (messages deriver)
  messages.forM fun message =>
    say (message.name ++ text ": " ++ Quoted.list (message.topics.map Topic.hex))
  let allChat ← compiled (← Reporting.ofExcept (allChat deriver))
  let generalOrStatus ← compiled (← Reporting.ofExcept (generalOrStatus deriver))
  let everything ← compiled ⟨[]⟩
  let before ← Reporting.ofExcept ((frame messages).deriveColumn deriver nameColumn nameTopicColumn)
  let kept ← Reporting.ofExcept (before.keepMatching allChat Frame.defaultTopicsName)
  report (Frame.keptReport before kept allChat.shown)
  let rows ← Reporting.ofExcept (rowLines kept)
  return {
    logging := settings.logging
    lines := [subscriptionLine "all chat" allChat messages,
      subscriptionLine "general or status" generalOrStatus messages,
      subscriptionLine "everything" everything messages,
      [],
      text "Batch filter 'all chat' kept " ++ Text.ofNat kept.height ++ text "/"
        ++ Text.ofNat before.height ++ text " rows:"] ++ rows }

end TopicFilter.Demo.Batch
