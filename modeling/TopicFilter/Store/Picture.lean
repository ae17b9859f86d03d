import TopicFilter.Store.Description

/-!
# Store/Picture — a value with everything that is told about it

A picture is taken of a value when it is answered. It holds all that is told about the value and no addresses, so that
no later change shows in it. Of some classes no more than the name is told. A value that has no end has no picture.
-/

namespace TopicFilter

/-- What is told about a value. -/
inductive Picture where
  /-- A value without parts. -/
  | scalar (s : Scalar)
  /-- A view of bytes. -/
  | view (b : Bytes)
  /-- A buffer of bytes. -/
  | buffer (b : Bytes)
  /-- A topic. -/
  | topic (t : Topic)
  /-- A kind of condition. -/
  | kind (k : Kind)
  /-- A condition, its kind in running text. -/
  | condition (kind : Text) (isWildcard : Bool) (topics : TopicSet)
  /-- A matcher by what it holds. -/
  | matcher (members : List Picture)
  /-- A collection. -/
  | collection (shape : Shape) (items : List Picture)
  /-- A mapping by its keys. -/
  | mapping (keys : List Picture)
  /-- A path. -/
  | path (p : Path)
  /-- Settings. -/
  | settings (s : Settings)
  /-- A value by the name of its class. -/
  | other (className : String)

namespace Store

/-- The picture of a value, with parts followed to a depth. -/
def pictureWithin (s : Store) : (fuel : Nat) → Value → Except Fault Picture
  | _, .scalar x => .ok (.scalar x)
  | _, .view b => .ok (.view b)
  | _, .topic t => .ok (.topic t)
  | _, .kind k => .ok (.kind k)
  | _, .condition c => .ok (.condition c.kind.name c.isWildcard c.topics)
  | _, .path p => .ok (.path p)
  | _, .settings x => .ok (.settings x)
  | 0, .object _ => .error .endless
  | fuel + 1, .object a =>
    let part := s.pictureWithin fuel
    match s.cell? a with
    | some (.items .iterator _) => .ok (.other (s.className (.object a)))
    | some (.items shape items) => do return .collection shape (← allOf part items)
    | some (.dict entries) => do return .mapping (← allOf part (entries.map (·.1)))
    | some (.buffer b) => .ok (.buffer b)
    | some (.labelled label topics) => do return .condition (← s.plain label) false topics
    | some (.matcher conditions) => do return .matcher (← allOf part (← s.itemsOf conditions))
    | _ => .ok (.other (s.className (.object a)))

/-- The picture of a value. -/
def picture (s : Store) (v : Value) : Except Fault Picture := s.pictureWithin s.depth v

end Store

end TopicFilter
