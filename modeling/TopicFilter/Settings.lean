import TopicFilter.Deriver
import TopicFilter.Environment
import TopicFilter.Json.Reader
import TopicFilter.Settings.LogLevel

/-!
# Settings — what the user may choose

Settings have three fields, each with a default. Given fields are checked one after another and all that is wrong
with them is told at once; defaults are not checked. Two things stop the checks at once: a tilde without a home, which
is not taken for a fault of the value, and a fault that cannot be told in UTF-8.
-/

namespace TopicFilter

/-- Checked choices. -/
structure Settings where
  /-- The name of the hash algorithm. -/
  algorithm : Text
  /-- The directory that relative files are looked for in. -/
  dataDir : Path
  /-- How much is logged. -/
  logLevel : LogLevel
deriving DecidableEq

namespace Settings

/-- What is given for a field. -/
inductive Given where
  /-- A text. -/
  | text (t : Text)
  /-- Bytes, which stand for the text that they spell. -/
  | bytes (b : Bytes)
  /-- A path. -/
  | path (p : Path)
  /-- Something that no field takes. -/
  | other
deriving DecidableEq

/-- The name of the field for the hash algorithm. -/
def algorithmField : Text := TopicFilter.text "hash_algorithm"

/-- The name of the field for the directory. -/
def dataDirField : Text := TopicFilter.text "data_dir"

/-- The name of the field for the log level. -/
def logLevelField : Text := TopicFilter.text "log_level"

/-- The names of all fields. -/
def fieldNames : List Text := [algorithmField, dataDirField, logLevelField]

/-- The settings without any choice. -/
def defaults (e : Environment) : Settings :=
  { algorithm := defaultAlgorithm, dataDir := e.defaultDataDir, logLevel := .info }

/-- What is given last for a field. -/
def given? (fields : List (Text × Given)) (name : Text) : Option Given :=
  (fields.reverse.find? (·.1 = name)).map (·.2)

/-- The names in order of their first appearance, once each. -/
def firstAppearances : List Text → List Text
  | [] => []
  | t :: ts => t :: (firstAppearances ts).filter (· ≠ t)

/-- A checked field: its value, or what is wrong with it. -/
abbrev Checked (α : Type) := Except Issue α

/-- A flaw of a field. -/
def flawed {α : Type} (name : Text) (flaw : Flaw) : Checked α := .error { field := some name, flaw }

/-- The text that is given for a field. -/
def textOf (name : Text) : Given → Checked Text
  | .text t => .ok t
  | .bytes b =>
    match Utf8.decode b with
    | .ok t => .ok t
    | .error _ => flawed name .notUnicode
  | _ => flawed name .notText

/-- A field whose text is of no use. The reason is told in UTF-8, and one with surrogates cannot be told. -/
def unusable {α : Type} (name reason : Text) : Except Fault (Checked α) :=
  match Utf8.encode reason with
  | .ok _ => .ok (flawed name (.unusable reason))
  | .error run => .error (.unencodable run)

/-- The hash algorithm is one that a hasher can be made of; the hasher is reported. -/
def checkAlgorithm (given : Given) : Reporting (Checked Text) :=
  match textOf algorithmField given with
  | .error issue => return .error issue
  | .ok t =>
    match Hasher.ofName t with
    | .ok hasher => do
      report hasher.report
      return .ok t
    | .error fault => Reporting.ofExcept (unusable algorithmField fault.message)

/-- A directory whose tilde is replaced, unless it is that of a user who cannot be asked for. -/
def checkDir (e : Environment) (p : Path) : Except Fault (Checked Path) :=
  match Environment.userFlaw? p with
  | some reason => .ok (flawed dataDirField (.unusable reason))
  | none => (e.expandHome p).map .ok

/-- The directory is a path, whose tilde is replaced. -/
def checkDataDir (e : Environment) : Given → Except Fault (Checked Path)
  | .text t => checkDir e (Path.ofText t)
  | .path p => checkDir e p
  | _ => return flawed dataDirField .notPath

/-- The log level is a name of one. -/
def checkLogLevel (given : Given) : Except Fault (Checked LogLevel) :=
  match textOf logLevelField given with
  | .error issue => .ok (.error issue)
  | .ok t =>
    match LogLevel.ofText? t with
    | some level => .ok (.ok level)
    | none =>
      unusable logLevelField (TopicFilter.text "Unknown log level '" ++ t ++ TopicFilter.text "'")

/-- What is wrong with a field, if anything is. -/
def issues {α : Type} : Checked α → List Issue
  | .ok _ => []
  | .error issue => [issue]

/-- The given fields that settings do not have. -/
def unknownIssues (fields : List (Text × Given)) : List Issue :=
  ((firstAppearances (fields.map (·.1))).filter (!fieldNames.contains ·)).map fun name =>
    { field := some name, flaw := .unknownField }

/-- Some field that settings do not have has a name that is not in UTF-8, so that nothing else can be told. -/
def hasUntoldName (fields : List (Text × Given)) : Bool :=
  fields.any fun field => field.1.any (·.isSurrogate)

/-- The settings of some fields. Of several values for one field the last one counts. -/
def ofFields (e : Environment) (fields : List (Text × Given)) : Reporting Settings := do
  let defaults := defaults e
  let algorithm ← match given? fields algorithmField with
    | some given => checkAlgorithm given
    | none => pure (.ok defaults.algorithm)
  let dataDir ← match given? fields dataDirField with
    | some given => Reporting.ofExcept (checkDataDir e given)
    | none => pure (.ok defaults.dataDir)
  let logLevel ← match given? fields logLevelField with
    | some given => Reporting.ofExcept (checkLogLevel given)
    | none => pure (.ok defaults.logLevel)
  if hasUntoldName fields then throw (.invalidSettings [{ field := none, flaw := .notUnicode }])
  match algorithm, dataDir, logLevel, unknownIssues fields with
  | .ok algorithm, .ok dataDir, .ok logLevel, [] => return { algorithm, dataDir, logLevel }
  | _, _, _, unknown =>
    throw (.invalidSettings (issues algorithm ++ issues dataDir ++ issues logLevel ++ unknown))

/-- A field of an object as what is given for it. -/
def Given.ofJson : Json → Given
  | .text t => .text t
  | _ => .other

/-- The settings that a text spells, as an object with the fields. -/
def ofJsonText (e : Environment) (t : Text) : Reporting Settings :=
  match Json.read .strict t with
  | some (.object fields) => ofFields e (fields.map fun (name, value) => (name, Given.ofJson value))
  | some _ => throw (.invalidSettings [{ field := none, flaw := .notObject }])
  | none => throw (.invalidSettings [{ field := none, flaw := .notJson }])

/-- The place of a file: below the directory unless its path is absolute. -/
def resolve (s : Settings) (file : Path) : Path := s.dataDir.anchor file

/-- The hasher of the chosen algorithm, which is reported. -/
def buildHasher (s : Settings) : Reporting Hasher := do
  let hasher ← Reporting.ofExcept (Hasher.ofName s.algorithm)
  report hasher.report
  return hasher

/-- The deriver over the chosen algorithm. -/
def buildDeriver (s : Settings) : Reporting Deriver := do
  Reporting.ofExcept (Deriver.ofHasher (← s.buildHasher))

/-- How log lines are laid out. -/
def logFormat : Text := TopicFilter.text "%(asctime)s - %(levelname)s - %(message)s"

/-- How the logs are set up: the level that is in effect, and the layout of each output. -/
structure Logging where
  /-- The level. -/
  level : LogLevel
  /-- The layouts. -/
  formats : List Text
deriving DecidableEq

/-- Before anybody sets up the logs there are no outputs. -/
def Logging.initial : Logging := { level := .warning, formats := [] }

/-- The logs as the settings have it. -/
def logging (s : Settings) : Logging := { level := s.logLevel.canonical, formats := [logFormat] }

end Settings

end TopicFilter
