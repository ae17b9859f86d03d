import TopicFilter.Store.Identity

/-!
# Store/Description — values as text

`quoted` is the form in which a value stands inside of others and `plain` the form in running text; they differ for
texts, kinds, paths and settings. A collection that stands inside of itself is not written out again there. A matcher
over values that are no conditions may have no form at all.
-/

namespace TopicFilter

namespace Store

/-- Everything in a list, or the first failure. -/
def allOf {α β : Type} (f : α → Except Fault β) : List α → Except Fault (List β)
  | [] => .ok []
  | a :: as => do return (← f a) :: (← allOf f as)

/-- A condition, or a matcher throughout, is a wildcard. -/
def isWildcardWithin (s : Store) : (fuel : Nat) → Value → Except Fault Bool
  | 0, _ => .error .endless
  | fuel + 1, v =>
    match s.assigned? v "is_wildcard", v, s.cellOf? v with
    | some other, _, _ => .error (.notCallable (s.className other))
    | none, .condition c, _ => .ok c.isWildcard
    | none, _, some (.labelled ..) => .ok false
    | none, _, some (.matcher conditions) => do
      allPass (s.isWildcardWithin fuel) (← s.itemsOf conditions)
    | none, v, _ => .error (.noAttribute (s.className v) (text "is_wildcard"))

/-- A condition, or a matcher throughout, is a wildcard. -/
def isWildcard (s : Store) (v : Value) : Except Fault Bool := s.isWildcardWithin s.depth v

/-- How a member of a matcher is shown in it. -/
def brief (s : Store) (v : Value) : Except Fault Text :=
  match v, s.cellOf? v with
  | .condition c, _ => .ok c.brief
  | _, some (.labelled _ topics) => .ok topics.brief
  | v, _ => do
    if ← s.isWildcard v then return text "*"
    else throw (.noAttribute (s.className v) (text "topics"))

/-- How a matcher over what should be a collection of conditions is shown. -/
def shownMatcher (s : Store) (conditions : Value) : Except Fault Text := do
  return Matcher.shownConditions (← allOf s.brief (← s.itemsOf conditions))

/-- Texts between brackets. -/
def between (left : String) (ts : List Text) (right : String) : Text :=
  text left ++ Text.join (text ", ") ts ++ text right

/-- Forms of items as the form of a collection. -/
def quotedItems : Shape → List Text → Text
  | .list, ts => between "[" ts "]"
  | .tuple, [t] => text "(" ++ t ++ text ",)"
  | .tuple, ts => between "(" ts ")"
  | .set, [] => text "set()"
  | .set, ts => between "\x7b" ts "\x7d"
  | .frozenSet, [] => text "frozenset()"
  | .frozenSet, ts => between "frozenset(\x7b" ts "\x7d)"
  | .iterator, _ => text "<list_iterator object>"

/-- What stands for something inside of itself, if it may stand there. -/
def ellipsis? : Cell → Option Text
  | .items .list _ => some (text "[...]")
  | .items .tuple _ => some (text "(...)")
  | .items .set _ => some (text "set(...)")
  | .items .frozenSet _ => some (text "frozenset(...)")
  | .dict _ => some (text "\x7b...\x7d")
  | .labelled .. => some (text "...")
  | _ => none

/-- How a hasher that notes its calls is shown. -/
def shownRecorder (name : Text) : Text := text "FixedHasher(" ++ name ++ text ")"

/-- The form of a path among other values. -/
def quotedPath (p : Path) : Text := text "PosixPath(" ++ Quoted.quote p.toText ++ text ")"

/-- The fields of settings, each with its name. -/
def quotedFields (x : Settings) : List Text :=
  [text "hash_algorithm=" ++ Quoted.quote x.algorithm, text "data_dir=" ++ quotedPath x.dataDir,
    text "log_level=" ++ Quoted.quote x.logLevel.name]

/-- The form of a value without parts; numbers that are too long have none. -/
def quotedScalar : Scalar → Except Fault Text
  | .int n =>
    let t := Text.ofInt n
    if t.length > Text.digitLimit + (if n < 0 then 1 else 0) then .error .tooManyDigits else .ok t
  | x => .ok x.quoted

/-- The form of a value, with parts followed to a depth. What is open already is not opened again. -/
def quotedWithin (s : Store) : (fuel : Nat) → (opened : List Address) → Value → Except Fault Text
  | _, _, .scalar x => quotedScalar x
  | _, _, .view _ => .ok (text "<memory>")
  | _, _, .topic t => .ok t.shown
  | _, _, .kind k => .ok k.quoted
  | _, _, .condition c => .ok c.shown
  | _, _, .path p => .ok (quotedPath p)
  | _, _, .settings x => .ok (between "HashTopicSettings(" (quotedFields x) ")")
  | 0, _, .object _ => .error .endless
  | fuel + 1, opened, .object a =>
    match s.cell? a with
    | none => .ok (text "<object>")
    | some c =>
      let part := s.quotedWithin fuel (a :: opened)
      match if opened.contains a then ellipsis? c else none, c with
      | some t, _ => .ok t
      | none, .items .iterator _ => .ok (quotedItems .iterator [])
      | none, .items shape items => do return quotedItems shape (← allOf part items)
      | none, .dict entries => do
        let shown ← allOf (fun e => do return (← part e.1) ++ text ": " ++ (← part e.2)) entries
        return between "\x7b" shown "\x7d"
      | none, .buffer b => .ok (Quoted.buffer b)
      | none, .labelled label topics => do return Condition.shownAs (← part label) topics
      | none, .matcher conditions => s.shownMatcher conditions
      | none, .hasher name _ => do return Hasher.shownAs (← part name)
      | none, .recorder name _ _ _ => .ok (shownRecorder name)
      | none, .deriver hasher => do return Deriver.shownOver (← part hasher)
      | none, .stranger x => .ok (text "<" ++ text x.className ++ text " object>")

/-- The form of a value inside of others. -/
def quoted (s : Store) (v : Value) : Except Fault Text := s.quotedWithin s.depth [] v

/-- The form of a value in running text. -/
def plain (s : Store) (v : Value) : Except Fault Text :=
  match v.text?, v with
  | some t, _ => .ok t
  | none, .path p => .ok p.toText
  | none, .settings x => .ok (Text.join (text " ") (quotedFields x))
  | none, v => s.quoted v

end Store

namespace Action

/-- The form of a value inside of others. -/
def quoted (v : Value) : Action Text := inquire (·.quoted v)

/-- The form of a value in running text. -/
def plain (v : Value) : Action Text := inquire (·.plain v)

end Action

end TopicFilter
