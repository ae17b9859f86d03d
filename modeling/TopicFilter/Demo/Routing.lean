import TopicFilter.Demo
import TopicFilter.Text.Quoted

/-!
# Demo/Routing — messages routed to subscriptions

Each subscription lists the messages that it receives; last come those that one filter accepts which is compiled
anew for every message.
-/

namespace TopicFilter.Demo.Routing

/-- The topic of an ASCII payload. -/
def topic (s : String) : Except Fault Topic := Deriver.standard.derive (payload s)

/-- The messages. -/
def messages : Except Fault (List Message) := do
  return [← message .standard "eth price" ["market", "ETH", "USD"],
    ← message .standard "btc price" ["market", "BTC", "EUR"],
    ← message .standard "node alert" ["ops", "node-7", "disk"],
    ← message .standard "bare market" ["market"]]

/-- The filter for prices of two kinds. -/
def majors : Except Fault Matcher := do
  return .ofTopicSets [.ofList [← topic "market"], .ofList [← topic "ETH", ← topic "BTC"]]

/-- The filter for messages whose third topic is a disk. -/
def diskAlerts : Except Fault Matcher := do
  return .ofTopicSets [∅, ∅, .ofList [← topic "disk"]]

/-- The filter for all of the market. -/
def marketFeed : Except Fault Matcher := Matcher.ofPayloads .standard [[payload "market"]]

/-- The filter for messages whose third topic is a currency. -/
def euroQuotes : Except Fault Matcher := do
  return .ofTopicSets [∅, ∅, .ofList [← topic "EUR"]]

/-- The line of a subscription. -/
def routeLine (name : String) (m : Matcher) (messages : List Message) : Text :=
  Text.padRight 12 (text name) ++ text " <- " ++ Quoted.list (accepted m messages)

/-- The names of the messages that a filter accepts; the filter is compiled for each message. -/
def acceptedEach (m : Matcher) : List Message → Reporting (List Text)
  | [] => return []
  | message :: rest => do
    let m ← compiled m
    let names ← acceptedEach m rest
    return if m.accepts message.topics then message.name :: names else names

/-- What the demonstration prints, line by line. -/
def run : Reporting (List Text) := do
  let messages ← Reporting.ofExcept messages
  let majors ← compiled (← Reporting.ofExcept majors)
  let diskAlerts ← compiled (← Reporting.ofExcept diskAlerts)
  let marketFeed ← compiled (← Reporting.ofExcept marketFeed)
  let euro ← acceptedEach (← Reporting.ofExcept euroQuotes) messages
  return [routeLine "majors" majors messages, routeLine "disk alerts" diskAlerts messages,
    routeLine "market feed" marketFeed messages, text "EUR quotes: " ++ Quoted.list euro]

end TopicFilter.Demo.Routing
