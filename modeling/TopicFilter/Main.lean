import TopicFilter.Demo.Batch

/-!
# Main — the demonstration as a program

Prints what the demonstration prints, with the configuration file that is named or else the one in the directory for
data. The only file that is looked at is the configuration file.
-/

namespace TopicFilter.Main

/-- A text as it is printed; half a pair is printed as the sign for what cannot be. -/
def printed (t : Text) : String :=
  String.ofList (t.map fun c => if c.isSurrogate then '\uFFFD' else Char.ofNat c.toNat)

/-- What the variables say about the user. -/
def environment : IO Environment := do
  let home ← IO.getEnv "HOME"
  let profile ← IO.getEnv "USERPROFILE"
  return { home := home.map Text.ofString, userProfile := profile.map Text.ofString
           account := none, users := [], hasAccounts := true }

/-- What stands at a path, if anything does. -/
def entry? (path : Path) : IO (Option Entry) := do
  match ← (IO.FS.readBinFile (printed path.toText)).toBaseIO with
  | .ok content => return some (.file content.toList)
  | .error (.inappropriateType _ code _) =>
    -- the system's code for a directory in place of a file
    return if code = 21 then some .directory else none
  | .error _ => return none

/-- The files, as far as the demonstration looks at them. -/
def files (path : Path) : IO FileTree := do
  let here ← IO.currentDir
  let workingDir := (Path.ofString here.toString).parts.map (·.text)
  let tree : FileTree := { workingDir, entries := [] }
  match ← entry? path with
  | some entry => return tree.put (tree.location path) entry
  | none => return tree

/-- Prints the lines, or the failure and a code for it. -/
def run (config : Option String) : IO UInt32 := do
  let e ← environment
  let file := config.map Path.ofString
  let path := e.defaultDataDir.anchor (file.getD (Path.ofText Settings.configName))
  match (Demo.Batch.run e (← files path) file).outcome.1 with
  | .ok effects => do
    for line in effects.lines do
      IO.println (printed line)
    return 0
  | .error fault => do
    IO.eprintln (printed fault.message)
    return 1

end TopicFilter.Main

/-- The program takes the configuration file as its argument. -/
def main (args : List String) : IO UInt32 := TopicFilter.Main.run args.head?
