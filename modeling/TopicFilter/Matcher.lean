import TopicFilter.Condition
import TopicFilter.Deriver

/-!
# Matcher — conditions position by position

A matcher is a list of conditions. A message passes if it has a topic for each of them and each accepts its
topic; topics beyond the last condition are not looked at (`accepts_iff`).
-/

namespace TopicFilter

/-- One condition for each position. -/
structure Matcher where
  /-- The conditions, first position first. -/
  conditions : List Condition
deriving DecidableEq

namespace Matcher

@[ext] theorem ext {m n : Matcher} (h : m.conditions = n.conditions) : m = n := congrArg mk h

/-- Each condition accepts the topic across from it; whichever list is longer, its rest does not count. -/
def acceptsAll : List Condition → List Topic → Bool
  | c :: cs, t :: ts => c.accepts t && acceptsAll cs ts
  | _, _ => true

/-- The message passes the filter. -/
def accepts (m : Matcher) (ts : List Topic) : Bool :=
  m.conditions.length ≤ ts.length && acceptsAll m.conditions ts

/-- The messages that pass, in order. -/
def filter (m : Matcher) (messages : List (List Topic)) : List (List Topic) := messages.filter m.accepts

/-- Every condition is a wildcard. -/
def isWildcard (m : Matcher) : Bool := m.conditions.all Condition.isWildcard

/-- The matcher of a set of topics for each position, where no topics mean any topic. -/
def ofTopicSets (positions : List TopicSet) : Matcher := ⟨positions.map Condition.ofTopics⟩

/-- The matcher of some payloads for each position, where no payloads mean any topic. -/
def ofPayloads (d : Deriver) (positions : List (List Payload)) : Except Fault Matcher := do
  return ofTopicSets ((← positions.mapM d.deriveAll).map TopicSet.ofList)

/-- The name of a matcher in messages. -/
def shownConditions (conditions : List Text) : Text :=
  text "TopicMatcher([" ++ Text.join (text ", ") conditions ++ text "])"

/-- How a matcher is shown. -/
def shown (m : Matcher) : Text := shownConditions (m.conditions.map Condition.brief)

/-- The report on a compiled matcher that is shown in some way. -/
def reportAs (shown : Text) : LogEntry :=
  { severity := .debug, channel := .matcher, message := text "Compiled " ++ shown }

/-- The report on a compiled matcher. -/
def report (m : Matcher) : LogEntry := reportAs m.shown

theorem acceptsAll_iff {cs : List Condition} {ts : List Topic} :
    acceptsAll cs ts = true ↔
      ∀ i (hc : i < cs.length) (ht : i < ts.length), cs[i].accepts ts[i] = true := by
  induction cs generalizing ts with
  | nil => simp [acceptsAll]
  | cons c cs ih =>
    cases ts with
    | nil => simp [acceptsAll]
    | cons t ts =>
      simp only [acceptsAll, Bool.and_eq_true, ih]
      constructor
      · rintro ⟨h0, h⟩ i hc ht
        cases i with
        | zero => exact h0
        | succ i => exact h i (by simpa using hc) (by simpa using ht)
      · intro h
        exact ⟨h 0 (by simp) (by simp), fun i hc ht => h (i + 1) (by simpa using hc) (by simpa using ht)⟩

/-- **A message passes if it is long enough and each condition accepts the topic at its position.** -/
theorem accepts_iff {m : Matcher} {ts : List Topic} :
    m.accepts ts = true ↔
      m.conditions.length ≤ ts.length ∧
        ∀ i (hc : i < m.conditions.length) (ht : i < ts.length),
          m.conditions[i].accepts ts[i] = true := by
  simp [accepts, acceptsAll_iff]

end Matcher

end TopicFilter
