import TopicFilter.Demo.Batch
import TopicFilter.Demo.Routing
import TopicFilter.Store.Attributes
import TopicFilter.Store.Frames
import TopicFilter.Store.Literal
import TopicFilter.Store.Picture

/-!
# Session — operations on a store, one after another

An operation makes its values in order and then does one thing with them. A step may change the surroundings first, and
may keep what the operation comes to under a name. What is kept is a value, and what is answered is a picture of it; a
value without a picture is kept all the same. A failed step ends neither the session nor what it did to the store before
it failed.
-/

namespace TopicFilter

/-- What can be asked for. -/
inductive Operation where
  /-- A value. -/
  | evaluate (value : Literal)
  /-- The constants of the library. -/
  | constants
  /-- Whether two values are equal. -/
  | compare (a b : Literal)
  /-- Whether two values are equal, both being fit for a set. -/
  | compareHashes (a b : Literal)
  /-- Whether two values are one and the same. -/
  | same (a b : Literal)
  /-- How many different items there are. -/
  | countDistinct (items : Literal)
  /-- The number of items. -/
  | length (value : Literal)
  /-- The form of a value. -/
  | quoted (value : Literal)
  /-- Whether a condition or a matcher is a wildcard. -/
  | isWildcard (value : Literal)
  /-- An attribute is assigned. -/
  | assign (target : Literal) (name : Text) (value : Literal)
  /-- A set gets a member. -/
  | addMember (target item : Literal)
  /-- A set loses a member. -/
  | discardMember (target item : Literal)
  /-- A list or a buffer gets an item at its end. -/
  | append (target item : Literal)
  /-- The item at an index is replaced. -/
  | put (target index item : Literal)
  /-- The topic of some bytes. -/
  | topic (value : Literal)
  /-- The topic at the front of a digest. -/
  | topicOfDigest (digest : Literal)
  /-- The topic that a hexadecimal text names. -/
  | topicOfHex (digits : Literal)
  /-- The topic of an integer. -/
  | topicOfInt (number : Literal)
  /-- All about a topic. -/
  | describeTopic (topic : Literal)
  /-- The name of the kind that a value is or names. -/
  | kindName (value : Literal)
  /-- The condition of a kind on some topics. -/
  | condition (kind : Literal) (topics : Option Literal)
  /-- The wildcard. -/
  | anyCondition
  /-- The exact condition on some topics. -/
  | exactCondition (topics : List Literal)
  /-- The condition that a value stands for. -/
  | conditionOf (topics : Literal)
  /-- Whether a condition accepts a value. -/
  | accepts (condition topic : Literal)
  /-- The matcher over some conditions, unchecked. -/
  | matcher (conditions : Option Literal)
  /-- The matcher of what stands at each position. -/
  | compile (conditions : Literal)
  /-- The matcher of the payloads at each position. -/
  | ofPayloads (conditions : Literal) (deriver : Option Literal)
  /-- The conditions of a matcher. -/
  | conditions (matcher : Literal)
  /-- Whether a matcher accepts some topics. -/
  | matchTopics (matcher topics : Literal)
  /-- Whether a matcher accepts each of some lists of topics. -/
  | matchEach (matcher lists : Literal)
  /-- The lists of topics that a matcher accepts. -/
  | filter (matcher lists : Literal)
  /-- Whether a matcher that is compiled for this accepts some topics. -/
  | matchCompiled (conditions topics : Literal)
  /-- A hasher, and what it says about itself. -/
  | hasher (hasher : Literal)
  /-- A deriver, and what its hasher says about itself. -/
  | deriver (deriver : Literal)
  /-- The digest of some data. -/
  | digest (hasher data : Literal)
  /-- What a hasher noted. -/
  | calls (hasher : Literal)
  /-- The deriver that is used when none is given. -/
  | standardDeriver
  /-- The topic of a payload. -/
  | derive (deriver : Option Literal) (data : Literal)
  /-- The topics of some payloads. -/
  | deriveMany (deriver : Option Literal) (items : Literal)
  /-- The topics of some payloads by the deriver that is used when none is given. -/
  | deriveEach (items : List Literal)
  /-- A frame with the topics of a column. -/
  | deriveColumn (frame : List Frame.Draft) (source : Literal) (target deriver : Option Literal)
  /-- A frame with a column that marks the rows that a matcher accepts. -/
  | matchColumn (frame : List Frame.Draft) (matcher : Literal) (column target : Option Literal)
  /-- The rows of a frame that a matcher accepts. -/
  | keepMatching (frame : List Frame.Draft) (matcher : Literal) (column : Option Literal)
  /-- The environment is replaced. -/
  | setEnvironment (environment : Environment)
  /-- Files are changed. -/
  | changeFiles (changes : List FileChange)
  /-- The home directory. -/
  | homeDir
  /-- The directory for data. -/
  | defaultDataDir
  /-- A file below a directory, unless its path is absolute. -/
  | anchor (dir file : Literal)
  /-- The settings of some fields. -/
  | settings (fields : List (Text × Literal))
  /-- The settings that a text spells. -/
  | settingsOfJson (source : Literal)
  /-- The settings in a configuration file. -/
  | loadSettings (path : Option Literal)
  /-- The place of a file. -/
  | resolvePath (settings file : Literal)
  /-- The deriver over the chosen algorithm. -/
  | buildDeriver (settings : Literal)
  /-- The logs as the settings have it. -/
  | configureLogging (settings : Literal)
  /-- The demonstration of filtering. -/
  | runBatchDemo (config : Option Literal)
  /-- The demonstration of routing. -/
  | runRoutingDemo

/-- What an operation comes to. -/
inductive Outcome where
  /-- A value. -/
  | value (kept : Kept)
  /-- What should be a hasher. -/
  | hasher (kept : Kept)
  /-- What should be a deriver. -/
  | deriver (kept : Kept)
  /-- Whether two values are equal. -/
  | comparison (equal : Bool)
  /-- All about a topic. -/
  | topic (t : Topic)
  /-- A frame, and the names of the columns of the one before it. -/
  | frame (after : Frame) (before : List Text)
  /-- How the logs are set up. -/
  | logging (l : Settings.Logging)

/-- What is answered. -/
inductive Reply where
  /-- A value. -/
  | value (p : Picture)
  /-- A hasher by its name, the digest size that it claims and its form. -/
  | hasher (name size : Picture) (shown : Text)
  /-- A deriver by the name of its hasher and its form. -/
  | deriver (name : Picture) (shown : Text)
  /-- Whether two values are equal. -/
  | comparison (equal : Bool)
  /-- All about a topic. -/
  | topic (t : Topic)
  /-- A frame, and the names of the columns of the one before it. -/
  | frame (after : Frame) (before : List Text)
  /-- How the logs are set up. -/
  | logging (l : Settings.Logging)

/-- An operation with what comes before and after it. -/
structure Step where
  /-- The environment from now on, if it changes. -/
  environment : Option Environment
  /-- Changes to the files. -/
  changes : List FileChange
  /-- The operation. -/
  operation : Operation
  /-- The name for what it comes to. -/
  keepAs : Option Text

namespace Action

/-- The value that a literal makes, if there is one. -/
def makeOption : Option Literal → Action (Option Value)
  | some l => return some (← make l)
  | none => return none

/-- A new value as the answer. -/
def answer (v : Value) : Action Outcome := return .value (← fresh v)

/-- No value as the answer. -/
def answerNothing : Action Outcome := answer .none

/-- A truth value as the answer. -/
def answerBool (b : Bool) : Action Outcome := answer (.scalar (.bool b))

/-- A text as the answer. -/
def answerText (t : Text) : Action Outcome := answer (.scalar (.text t))

/-- A list as the answer. -/
def answerList (vs : List Value) : Action Outcome := do answer (← collect .list vs)

/-- Printed lines as the answer, with nothing after the last of them. -/
def answerLines (ls : List Text) : Action Outcome :=
  answerList ((ls ++ [[]]).map fun t => .scalar (.text t))

/-- The path that a value names. -/
def pathOf (v : Value) : Action Path := do
  match v.text?, v with
  | some t, _ => return Path.ofText t
  | none, .path p => return p
  | none, .scalar (.bytes _) => failAs .pathNotText v
  | none, v => failAs .notPath v

/-- The path that a value names, unless it is absent. -/
def pathOrNone : Option Value → Action (Option Path)
  | none | some (.scalar .none) => return none
  | some v => return some (← pathOf v)

/-- A path below a directory. The directory is asked for only where the path is not absolute. -/
def anchor (dir file : Value) : Action Path := do
  let file ← pathOf file
  if file.isAbsolute then return file else return (← pathOf dir).anchor file

/-- The settings that a value is. -/
def asSettings (v : Value) (need : String) : Action Settings := do
  match v with
  | .settings s => return s
  | v => lacks v need

/-- What a value gives for a field of the settings. A view of bytes gives nothing. -/
def given (s : Store) (v : Value) : Settings.Given :=
  match v.text?, v, s.stranger? v, s.bytes? v with
  | some t, _, _, _ => .text t
  | none, .path p, _, _ => .path p
  | none, .view _, _, _ | none, _, some _, _ => .other
  | none, _, none, some b => .bytes b
  | none, _, none, none => .other

/-- The settings of some fields. -/
def settings (fields : List (Text × Value)) : Action Settings := do
  let s ← get
  ofReporting (Settings.ofFields s.environment (fields.map fun (name, v) => (name, given s v)))

/-- The settings that a value spells. -/
def settingsOfJson (v : Value) : Action Settings := do
  let e := (← get).environment
  let refuse (flaw : Flaw) : Action Settings := throw (.invalidSettings [{ field := none, flaw }])
  match given (← get) v with
  | .text t =>
    if t.any (·.isSurrogate) then refuse .notUnicode else ofReporting (Settings.ofJsonText e t)
  | .bytes b =>
    match Utf8.decode b with
    | .ok t => ofReporting (Settings.ofJsonText e t)
    | .error _ => refuse .notJson
  | _ => refuse .notJsonSource

/-- The settings in a configuration file. -/
def loadSettings (path : Option Value) : Action Settings := do
  let file ← pathOrNone path
  let s ← get
  ofReporting (Settings.load s.environment s.files file)

/-- The deriver over the chosen algorithm. -/
def buildDeriver (s : Settings) : Action Value := do
  deriverOver (← standardHasher (.scalar (.text s.algorithm)))

/-- Sets up the logs as the settings have it. -/
def configureLogging (s : Settings) : Action Settings.Logging := do
  modify fun store => { store with logging := s.logging }
  return (← get).logging

/-- The values that some named literals make. -/
def makeFields : List (Text × Literal) → Action (List (Text × Value))
  | [] => return []
  | (name, l) :: rest => do
    let v ← make l
    return (name, v) :: (← makeFields rest)

/-- What an operation does. -/
def perform : Operation → Action Outcome
  | .evaluate l => do return .value (← makeKept l)
  | .constants => answerList
      [.scalar (.int Topic.length), .topic .sentinel, .scalar (.text defaultAlgorithm),
       .scalar (.text Settings.configName)]
  | .compare a b => do
    let v ← make a
    let w ← make b
    return .comparison (← agrees v w)
  | .compareHashes a b => do
    let v ← make a
    let w ← make b
    let _ ← hashed v
    let _ ← hashed w
    answerBool ((← get).identified v w)
  | .same a b => do
    let v ← makeKept a
    let w ← makeKept b
    answerBool ((← get).same v w)
  | .countDistinct items => do
    let vs ← hashedItems (← make items)
    answer (.scalar (.int ((← get).distinct vs).length))
  | .length v => do answer (.scalar (.int (← length (← make v))))
  | .quoted v => do answerText (← quoted (← make v))
  | .isWildcard v => do
    let v ← make v
    answerBool (← inquire (·.isWildcard v))
  | .assign target name value => do
    let target ← make target
    assign target name (← make value)
    answerNothing
  | .addMember target item => do
    let target ← make target
    addMember target (← make item)
    answerNothing
  | .discardMember target item => do
    let target ← make target
    discardMember target (← make item)
    answerNothing
  | .append target item => do
    let target ← make target
    append target (← make item)
    answerNothing
  | .put target index item => do
    let target ← make target
    let index ← make index
    put target index (← make item)
    answerNothing
  | .topic v => do answer (.topic (← topicOfBytes (← make v)))
  | .topicOfDigest v => do answer (.topic (← topicOfDigest (← make v)))
  | .topicOfHex v => do answer (.topic (← topicOfHex (← make v)))
  | .topicOfInt v => do answer (.topic (← topicOfInt (← make v)))
  | .describeTopic v => do return .topic (← asTopic (← make v))
  | .kindName v => do answerText (← kindNamed (← make v)).name
  | .condition kind topics => do
    let kind ← make kind
    answer (← condition kind (← makeOption topics))
  | .anyCondition => answer (.condition .any)
  | .exactCondition topics => do answer (.condition (← exactCondition (← makeAll topics)))
  | .conditionOf topics => do return .value (← conditionFrom (← makeKept topics))
  | .accepts c topic => do
    let c ← make c
    answerBool (← memberAccepts c (← make topic))
  | .matcher conditions => do answer (← unchecked (← makeOption conditions))
  | .compile conditions => do answer (← compile (← make conditions))
  | .ofPayloads conditions deriver => do
    let conditions ← make conditions
    answer (← ofPayloads conditions (deriverOr (← makeOption deriver)))
  | .conditions m => do answer (← conditionsOf (← make m) "conditions")
  | .matchTopics m topics => do
    let m ← make m
    answerBool (← matchesValue m (← make topics))
  | .matchEach m lists => do
    let m ← make m
    let marks ← forEach (← make lists) (matchesValue m)
    answerList (marks.map fun b => .scalar (.bool b))
  | .filter m lists => do
    let m ← make m
    answerList (← filterValues m (← make lists))
  | .matchCompiled conditions topics => do
    let conditions ← make conditions
    let topics ← make topics
    answerBool (← matchesValue (← compile conditions) topics)
  | .hasher hasher => do return .hasher (← makeKept hasher)
  | .deriver deriver => do return .deriver (← makeKept deriver)
  | .digest hasher data => do
    let hasher ← make hasher
    return .value (← digest hasher (← makeKept data))
  | .calls hasher => do answer (← calls (← make hasher))
  | .standardDeriver => do return .deriver (← fresh standardDeriver)
  | .derive deriver data => do
    let deriver := (← makeOption deriver).getD standardDeriver
    answer (.topic (← derive deriver (← make data)))
  | .deriveMany deriver items => do
    let deriver := (← makeOption deriver).getD standardDeriver
    answerList ((← deriveMany deriver (← make items)).map .topic)
  | .deriveEach items => do
    let vs ← makeAll items
    answerList ((← eachOf (derive standardDeriver) vs).map .topic)
  | .deriveColumn drafts source target deriver => do
    let f ← frameOf drafts
    let source ← make source
    let target ← makeOption target
    let after ← deriveColumn f source target (deriverOr (← makeOption deriver))
    return .frame after f.names
  | .matchColumn drafts m column target => do
    let f ← frameOf drafts
    let m ← make m
    let column ← makeOption column
    let after ← matchColumn f m column (← makeOption target)
    return .frame after f.names
  | .keepMatching drafts m column => do
    let f ← frameOf drafts
    let m ← make m
    let after ← keepMatching f m (← makeOption column)
    return .frame after f.names
  | .setEnvironment e => do
    modify fun s => { s with environment := e }
    answerNothing
  | .changeFiles changes => do
    modify fun s => { s with files := s.files.applyAll changes }
    answerNothing
  | .homeDir => do answerText (← get).environment.homeDir
  | .defaultDataDir => do answer (.path (← get).environment.defaultDataDir)
  | .anchor dir file => do
    let dir ← make dir
    answer (.path (← anchor dir (← make file)))
  | .settings fields => do answer (.settings (← settings (← makeFields fields)))
  | .settingsOfJson source => do answer (.settings (← settingsOfJson (← make source)))
  | .loadSettings path => do answer (.settings (← loadSettings (← makeOption path)))
  | .resolvePath s file => do
    let s ← make s
    let file ← make file
    let s ← asSettings s "resolve_path"
    answer (.path (s.resolve (← pathOf file)))
  | .buildDeriver s => do
    let s ← asSettings (← make s) "build_deriver"
    return .deriver (← fresh (← buildDeriver s))
  | .configureLogging s => do
    let s ← asSettings (← make s) "log_level"
    return .logging (← configureLogging s)
  | .runBatchDemo config => do
    let file ← pathOrNone (← makeOption config)
    let s ← get
    let effects ← ofReporting (Demo.Batch.run s.environment s.files file)
    modify fun s => { s with logging := effects.logging }
    answerLines effects.lines
  | .runRoutingDemo => do answerLines (← ofReporting Demo.Routing.run)

/-! ## Keeping and telling -/

/-- A mapping of some names to values. -/
def record (fields : List (String × Value)) : Action Value :=
  allocate (.dict (fields.map fun (name, v) => (.scalar (.text (text name)), v)))

/-- The value that stands for an outcome under a name, if one does. -/
def keepable? : Outcome → Action (Option Kept)
  | .value kept | .hasher kept | .deriver kept => return some kept
  | .comparison equal => do
    return some (← fresh (← record [("eq", .scalar (.bool equal)), ("ne", .scalar (.bool !equal))]))
  | .topic t => do
    let shown : Value := .scalar (.text t.shown)
    return some (← fresh (← record
      [("hex", .scalar (.text t.hex)), ("int", .scalar (.int t.toNat)),
        ("sentinel", .scalar (.bool t.isSentinel)), ("display", .scalar (.text t.display)),
        ("str", shown), ("repr", shown), ("bytes", .scalar (.bytes t.bytes))]))
  | .logging l => do
    let formats ← collect .list (l.formats.map fun t => .scalar (.text t))
    return some (← fresh (← record [("level", .scalar (.text l.level.name)), ("formats", formats)]))
  | .frame .. => return none

/-- Keeps an outcome under a name, if there is a name. -/
def keep (name : Option Text) (outcome : Outcome) : Action Unit := do
  match name with
  | none => return ()
  | some name => do
    match ← keepable? outcome with
    | some kept => modify fun s => { s with names := (name, kept) :: s.names }
    | none => return ()

end Action

namespace Store

/-- The store in the surroundings of a step. -/
def surround (s : Store) (step : Step) : Store :=
  { s with environment := step.environment.getD s.environment, files := s.files.applyAll step.changes }

/-- What is answered about an outcome. -/
def reply (s : Store) : Outcome → Except Fault Reply
  | .value kept => do return .value (← s.picture kept.value)
  | .hasher kept => do
    let name ← s.picture (← s.hasherName kept.value)
    let size ← s.picture (← s.digestSize kept.value)
    return .hasher name size (← s.quoted kept.value)
  | .deriver kept => do
    let name ← s.picture (← s.hasherName (← s.hasherOf kept.value "hasher"))
    return .deriver name (← s.quoted kept.value)
  | .comparison equal => .ok (.comparison equal)
  | .topic t => .ok (.topic t)
  | .frame after before => .ok (.frame after before)
  | .logging l => .ok (.logging l)

/-- The answer to a step, and the store after it. -/
def step (s : Store) (st : Step) : Except Fault Reply × Store :=
  let action : Action Outcome := do
    let outcome ← Action.perform st.operation
    Action.keep st.keepAs outcome
    return outcome
  let (outcome, s') := action.run.run (s.surround st)
  (outcome.bind s'.reply, s')

/-- The answers to some steps in order, and the store after them. -/
def run (s : Store) : List Step → List (Except Fault Reply) × Store
  | [] => ([], s)
  | st :: sts =>
    let (outcome, s') := s.step st
    let (outcomes, s'') := run s' sts
    (outcome :: outcomes, s'')

end Store

end TopicFilter
