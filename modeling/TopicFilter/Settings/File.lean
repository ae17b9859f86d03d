import TopicFilter.FileTree
import TopicFilter.Settings

/-!
# Settings/File — settings from a configuration file

Without a path, the file is looked for in the directory for data, and if there is none the defaults are taken. A path
that is given has to lead to a file. A path that is too long fails either way. Line ends of all kinds are read as one.
-/

namespace TopicFilter

namespace Settings

/-- The name of the configuration file. -/
def configName : Text := TopicFilter.text "config.json"

/-- A text in which each line ends with a line feed alone. -/
def unifyLineEnds : Text → Text
  | [] => []
  | c :: rest =>
    if c = CodePoint.ofChar '\r' then
      match rest with
      | d :: rest' =>
        if d = CodePoint.ofChar '\n' then d :: unifyLineEnds rest'
        else CodePoint.ofChar '\n' :: unifyLineEnds (d :: rest')
      | [] => [CodePoint.ofChar '\n']
    else c :: unifyLineEnds rest

/-- The settings that the content of a file spells. -/
def ofBytes (e : Environment) (content : Bytes) : Reporting Settings :=
  match Utf8.decode content with
  | .ok t => ofJsonText e (unifyLineEnds t)
  | .error sequence => throw (.undecodable sequence)

/-- The settings in what stands at a path. -/
def ofEntry (e : Environment) (path : Path) : Entry → Reporting Settings
  | .directory => throw (.configIsDirectory path)
  | .file content => do
    let s ← ofBytes e content
    report { severity := .info, channel := .settings
             message := TopicFilter.text "Loaded settings from " ++ path.toText }
    return s

/-- The settings in the configuration file, or the defaults where no file is named and there is none. -/
def load (e : Environment) (files : FileTree) : Option Path → Reporting Settings
  | none =>
    let path := e.defaultDataDir.anchor (Path.ofText configName)
    match files.find path with
    | .found entry => ofEntry e path entry
    | .tooLong => throw (.pathTooLong path)
    | .missing => do
      report { severity := .debug, channel := .settings
               message := TopicFilter.text "No config file at " ++ path.toText
                 ++ TopicFilter.text ", using defaults" }
      return defaults e
  | some file =>
    let path := e.defaultDataDir.anchor file
    match files.find path with
    | .found entry => ofEntry e path entry
    | .tooLong => throw (.pathTooLong path)
    | .missing => throw (.configMissing path)

end Settings

end TopicFilter
