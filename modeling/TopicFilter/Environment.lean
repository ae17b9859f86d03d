import TopicFilter.Fault

/-!
# Environment — where the user is at home

Two rules name a home directory. `homeDir` asks the variables first and the account database second, and takes an
empty variable for none. `expandHome` replaces a tilde at the front of a relative path; it takes a variable as it
is, and knows the homes of other users as well, as long as their names can be asked for (`userFlaw?`).
-/

namespace TopicFilter

/-- What is known about the user and the system. -/
structure Environment where
  /-- The variable that names the home directory. -/
  home : Option Text
  /-- The variable that names it on other systems. -/
  userProfile : Option Text
  /-- The home directory of the user in the account database. -/
  account : Option Text
  /-- The home directories of other users, by name; of two entries the later one counts. -/
  users : List (Text × Text)
  /-- The system has an account database. -/
  hasAccounts : Bool

namespace Environment

/-- The home directory; empty if it is not known. -/
def homeDir (e : Environment) : Text :=
  match e.home with
  | some (c :: rest) => c :: rest
  | _ => (if e.hasAccounts then e.account else e.userProfile).getD []

/-- The name of the directory for data. -/
def dataDirName : Path := Path.ofString ".hashtopic"

/-- The directory for data: in the home directory, or in the working directory if there is no home. -/
def defaultDataDir (e : Environment) : Path :=
  if e.homeDir.isEmpty then dataDirName else (Path.ofText e.homeDir).anchor dataDirName

/-- A text without the slashes at its end. -/
def dropTrailingSlashes (t : Text) : Text := (t.reverse.dropWhile (· = slash)).reverse

/-- The home directory of a user; the empty name is that of the user at work. -/
def homeOf? (e : Environment) (name : Text) : Option Text :=
  if name.isEmpty then e.home.orElse fun _ => e.account
  else (e.users.reverse.find? (·.1 = name)).map (·.2)

/-- The directory that a tilde with a name stands for. A home that is only slashes, or nothing, is the top; a home
that begins with a tilde itself is none. -/
def tildeDir (e : Environment) (name : Text) : Except Fault Text :=
  match e.homeOf? name with
  | none => .error .homeUnknown
  | some home =>
    match dropTrailingSlashes home with
    | [] => .ok [slash]
    | c :: rest => if c = tilde then .error .homeUnknown else .ok (c :: rest)

/-- Why nobody can be asked for under a name, if that is so: a surrogate that stands for no byte, or a zero byte. -/
def nameFlaw? (name : Text) : Option Text :=
  let isBad (c : CodePoint) : Bool := c.isSurrogate && !c.isEscapedByte
  match name.dropWhile (!isBad ·) with
  | first :: rest =>
    let start := (name.takeWhile (!isBad ·)).length
    some (Fault.unencodable { start, extra := (rest.takeWhile (·.isSurrogate)).length, first }).message
  | [] => if name.any (·.toNat = 0) then some (text "embedded null byte") else none

/-- Why the user named behind the tilde at the front of a path cannot be asked for, if that is so. -/
def userFlaw? (p : Path) : Option Text :=
  match p.root, p.parts with
  | .relative, first :: _ =>
    match first.text with
    | [] => none
    | c :: name => if c = tilde then nameFlaw? name else none
  | _, _ => none

/-- The path with a tilde at its front replaced. -/
def expandHome (e : Environment) (p : Path) : Except Fault Path :=
  match p.root, p.parts with
  | .relative, first :: rest =>
    match first.text with
    | [] => .ok p
    | c :: name =>
      if c = tilde then do
        let dir := Path.ofText (← e.tildeDir name)
        return { dir with parts := dir.parts ++ rest }
      else .ok p
  | _, _ => .ok p

end Environment

end TopicFilter
