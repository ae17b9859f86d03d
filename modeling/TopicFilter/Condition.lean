import TopicFilter.TopicSet

/-!
# Condition — what one position of a filter accepts

A condition is a wildcard without topics or an exact set of some. `Condition.make` refuses anything else;
`Condition.ofTopics` turns topics into the one condition that fits them, and `ofTopics_topics` says that nothing is
lost on the way.
-/

namespace TopicFilter

/-- What sort of condition it is. -/
inductive Kind where
  /-- Every topic is accepted. -/
  | wildcard
  /-- The listed topics are accepted. -/
  | exact
deriving DecidableEq

namespace Kind

/-- Both kinds. -/
def members : List Kind := [wildcard, exact]

/-- The name of a kind. -/
def name : Kind → Text
  | wildcard => text "wildcard"
  | exact => text "exact"

/-- The form in which a kind is quoted. -/
def quoted : Kind → Text
  | wildcard => text "<ConditionKind.WILDCARD: 'wildcard'>"
  | exact => text "<ConditionKind.EXACT: 'exact'>"

/-- The kind with a name. -/
def ofName? (name : Text) : Option Kind := members.find? (·.name = name)

theorem ofName?_name (k : Kind) : ofName? k.name = some k := by cases k <;> decide

end Kind

/-- The rule for one position. -/
structure Condition where
  /-- What sort of rule it is. -/
  kind : Kind
  /-- The accepted topics. -/
  topics : TopicSet
  /-- A wildcard lists no topics. -/
  topics_of_wildcard : kind = .wildcard → topics = ∅
  /-- An exact condition lists some. -/
  topics_of_exact : kind = .exact → topics ≠ ∅
deriving DecidableEq

namespace Condition

@[ext] theorem ext {a b : Condition} (hkind : a.kind = b.kind) (htopics : a.topics = b.topics) :
    a = b := by
  cases a; cases b; simp_all

/-- The condition of a kind with topics, if the two go together. -/
def make (kind : Kind) (topics : TopicSet) : Except Fault Condition :=
  if hw : kind = .wildcard → topics = ∅ then
    if he : kind = .exact → topics ≠ ∅ then .ok ⟨kind, topics, hw, he⟩
    else .error .exactWithoutTopics
  else .error .wildcardWithTopics

/-- Accepts every topic. -/
def any : Condition := ⟨.wildcard, ∅, fun _ => rfl, (fun k => nomatch k)⟩

/-- Accepts some topics; if there are none, accepts every topic. -/
def ofTopics (topics : TopicSet) : Condition :=
  if h : topics = ∅ then any else ⟨.exact, topics, (fun k => nomatch k), fun _ => h⟩

/-- The condition is a wildcard. -/
def isWildcard (c : Condition) : Bool := c.kind = .wildcard

/-- The condition accepts a topic. -/
def accepts (c : Condition) (t : Topic) : Bool := c.isWildcard || t ∈ c.topics

/-- How a condition is shown in a matcher. -/
def brief (c : Condition) : Text := if c.isWildcard then text "*" else c.topics.brief

/-- How topics under a quoted kind are shown by themselves. -/
def shownAs (kind : Text) (topics : TopicSet) : Text :=
  let members :=
    if topics.isEmpty then []
    else text "\x7b" ++ Text.join (text ", ") (topics.toList.map Topic.shown) ++ text "\x7d"
  text "FilterCondition(kind=" ++ kind ++ text ", topics=frozenset(" ++ members ++ text "))"

/-- How a condition is shown by itself. -/
def shown (c : Condition) : Text := shownAs c.kind.quoted c.topics

@[simp] theorem isWildcard_any : any.isWildcard = true := rfl

@[simp] theorem accepts_any (t : Topic) : any.accepts t = true := rfl

/-- The condition of some topics accepts them, and all topics if there are none. -/
theorem accepts_ofTopics (s : TopicSet) (t : Topic) :
    (ofTopics s).accepts t = true ↔ s = ∅ ∨ t ∈ s := by
  unfold ofTopics
  split
  · next h => simp [h]
  · next h => simp [accepts, isWildcard, h]

/-- A condition is the one of its topics. -/
theorem ofTopics_topics (c : Condition) : ofTopics c.topics = c := by
  obtain ⟨kind, topics, hw, he⟩ := c
  cases kind with
  | wildcard =>
    have h := hw rfl
    subst h
    simp [ofTopics, any]
  | exact => rw [ofTopics, dif_neg (he rfl)]

end Condition

end TopicFilter
