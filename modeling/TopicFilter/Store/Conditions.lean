import TopicFilter.Store.Topics

/-!
# Store/Conditions — conditions and matchers from values of any class

A condition is built from the items of a value, all of which have to be fit for a set before any of them is asked to
be a topic. A matcher is compiled position by position, and the first position that is no good ends it. A matcher asks
for no more of the values that it is matched with than the first condition that refuses one needs to know.
-/

namespace TopicFilter

namespace Action

/-! ## Conditions -/

/-- A member of a condition. -/
def memberTopic : Value → Action Topic
  | .topic t => return t
  | v => failAs .conditionMember v

/-- The topics of values that are fit for a set. They make up a set first, and it is the first in the order of the set
that is refused. -/
def memberTopics (vs : List Value) : Action TopicSet := do
  return TopicSet.ofList (← eachOf memberTopic ((← get).members vs))

/-- The kind that a value is or names. -/
def kindNamed (v : Value) : Action Kind := do
  match v.text?.bind Kind.ofName? with
  | some k => return k
  | none => throw (.unknownKind (← quoted v))

/-- The condition of a kind on the items of a value. What is no kind makes a condition too, under which anything
goes. -/
def condition (kind : Value) (topics : Option Value) : Action Value := do
  let members ← match topics with
    | some v => hashedItems v
    | none => pure []
  let topics ← memberTopics members
  match kind with
  | .kind k => return .condition (← ofExcept (Condition.make k topics))
  | label => allocate (.labelled label topics)

/-- The exact condition on some values. -/
def exactCondition (vs : List Value) : Action Condition := do
  ofExcept (Condition.make .exact (← memberTopics (← eachOf hashed vs)))

/-- The value is a condition. -/
def isCondition (v : Value) : Action Bool := return ((← get).conditionParts? v).isSome

/-- The condition on the items of a value, which is no condition itself: a wildcard if the value is absent or without
items, and else an exact one. Payloads have no items that would do. -/
def conditionOn (v : Value) : Action Condition := do
  match v with
  | .scalar .none => return .any
  | v =>
    if v.text?.isSome || (← bytes? v).isSome then failAs .rawPayload v
    else return .ofTopics (← memberTopics (← hashedItems v))

/-- The condition that a value stands for: itself, or the one on its items. -/
def conditionOf (v : Value) : Action Value := do
  if ← isCondition v then return v else return .condition (← conditionOn v)

/-- The value is one of some topics. Only topics are, and what cannot be asked for in a set is refused with a
failure. -/
def isAmong (topics : TopicSet) (v : Value) : Action Bool := do
  match v with
  | .topic t => return t ∈ topics
  | v => do
    inquire (·.askable v)
    return false

/-- What stands for a condition accepts what is at its position. -/
def memberAccepts (member v : Value) : Action Bool := do
  inPlace member "accepts"
  match member, ← cellOf? member with
  | .condition c, _ => if c.isWildcard then return true else isAmong c.topics v
  | _, some (.labelled _ topics) => isAmong topics v
  | _, _ => lacks member "accepts"

/-- Each member accepts the value across from it; the first that does not ends it. -/
def acceptsAll : List Value → List Value → Action Bool
  | member :: members, v :: vs => do
    if ← memberAccepts member v then acceptsAll members vs else return false
  | _, _ => return true

/-! ## Matchers -/

/-- What a matcher holds. -/
def conditionsOf (matcher : Value) (need : String) : Action Value := do
  match ← cellOf? matcher with
  | some (.matcher conditions) => return conditions
  | _ => lacks matcher need

/-- There is something in the place of a function of matchers. -/
def hasFunction (matcher : Value) (name : String) : Action Unit := do
  if ((← get).assigned? matcher name).isSome then return () else discard (conditionsOf matcher name)

/-- The matcher accepts the items of a value, of which there have to be enough. -/
def matchesValue (matcher topics : Value) : Action Bool := do
  inPlace matcher "matches"
  let conditions ← conditionsOf matcher "matches"
  let needed ← length conditions
  if (← length topics) < needed then return false
  else acceptsAll (← inquire (·.itemsOf conditions)) (← inquire (·.itemsOf topics))

/-- The matcher accepts some topics, of which there have to be enough. -/
def matchesTopics (matcher : Value) (ts : List Topic) : Action Bool := do
  inPlace matcher "matches"
  let conditions ← conditionsOf matcher "matches"
  if ts.length < (← length conditions) then return false
  else acceptsAll (← inquire (·.itemsOf conditions)) (ts.map .topic)

/-- The lists of topics that pass, in order. -/
def filterValues (matcher lists : Value) : Action (List Value) := do
  inPlace matcher "filter"
  let _ ← conditionsOf matcher "filter"
  let kept ← forEach lists fun topics => do
    return if ← matchesValue matcher topics then some topics else none
  return kept.filterMap id

/-- The matcher over some conditions, reported. -/
def compiled (conditions : List Value) : Action Value := do
  let matcher ← allocate (.matcher (← collect .tuple conditions))
  report (Matcher.reportAs (← quoted matcher))
  return matcher

/-- The matcher of what stands at each position. -/
def compile (conditions : Value) : Action Value := do compiled (← forEach conditions conditionOf)

/-- The items of a value in order, as a tuple; a tuple is left as it is. -/
def asTuple (v : Value) : Action Value := do
  match ← cellOf? v with
  | some (.items .tuple _) => return v
  | _ => collect .tuple (← forEach v pure)

/-- The matcher over the items of a value, which are not checked. -/
def unchecked (conditions : Option Value) : Action Value := do
  let conditions ← match conditions with
    | some v => asTuple v
    | none => collect .tuple []
  allocate (.matcher conditions)

end Action

end TopicFilter
