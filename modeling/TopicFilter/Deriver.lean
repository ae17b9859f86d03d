import TopicFilter.Algorithm
import TopicFilter.Log
import TopicFilter.Topic

/-!
# Deriver — from payloads to topics

A hasher is a named function on byte strings that claims a digest size. A deriver is a hasher that claims at
least the four bytes of a topic; it hashes a payload and takes the front of the digest. The claim is not the
digest: `Deriver.derive` fails on a digest that is too short after all.
-/

namespace TopicFilter

/-- A named function on byte strings, with the digest size that it claims. -/
structure Hasher where
  /-- The name that messages use. -/
  name : Text
  /-- The claimed number of bytes in a digest. -/
  size : Int
  /-- The digest of some data. -/
  digest : Bytes → Bytes

namespace Hasher

/-- The hasher of an algorithm, under the name it was asked for. -/
def ofAlgorithm (name : Text) (a : Algorithm) : Hasher := { name, size := a.size, digest := a.digest }

/-- The hasher of the algorithm with a name. -/
def ofName (name : Text) : Except Fault Hasher :=
  match Algorithm.lookup name with
  | .fixed a => .ok (ofAlgorithm name a)
  | .unsized | .empty => .error (.noDigestSize name)
  | .unknown => .error (.unknownAlgorithm name)

/-- The report on a new hasher of an algorithm. -/
def report (h : Hasher) : LogEntry :=
  { severity := .debug
    channel := .hasher
    message := text "Initialized HashlibHasher with " ++ h.name ++ text " (" ++ Text.ofInt h.size
      ++ text " bytes)" }

/-- How the hasher of an algorithm with a quoted name is shown. -/
def shownAs (name : Text) : Text := text "HashlibHasher(algorithm=" ++ name ++ text ")"

/-- How the hasher of an algorithm is shown. -/
def shown (h : Hasher) : Text := shownAs (Quoted.quote h.name)

end Hasher

/-- The algorithm that is used when none is named. -/
def defaultAlgorithm : Text := text "sha3_256"

/-- What topics are derived from. -/
inductive Payload where
  /-- A text, hashed as UTF-8. -/
  | text (t : Text)
  /-- A byte string, hashed as it is. -/
  | bytes (b : Bytes)
deriving DecidableEq

/-- The bytes of a payload. -/
def Payload.encode : Payload → Except Fault Bytes
  | .text t =>
    match Utf8.encode t with
    | .ok b => .ok b
    | .error run => .error (.unencodable run)
  | .bytes b => .ok b

/-- A hasher that claims enough bytes for a topic. -/
structure Deriver where
  /-- The hasher. -/
  hasher : Hasher
  /-- It claims at least four bytes. -/
  wide : 4 ≤ hasher.size

namespace Deriver

/-- The deriver over a hasher, unless the hasher claims too few bytes. -/
def ofHasher (h : Hasher) : Except Fault Deriver :=
  if wide : 4 ≤ h.size then .ok ⟨h, wide⟩ else .error (.hasherTooShort h.name (Text.ofInt h.size))

/-- The deriver of an algorithm. -/
def ofAlgorithm (name : Text) (a : Algorithm) : Deriver :=
  ⟨Hasher.ofAlgorithm name a, Int.ofNat_le.mpr a.four_le_size⟩

/-- The deriver that is used when none is given. -/
def standard : Deriver := ofAlgorithm defaultAlgorithm .sha3x256

/-- The topic of a payload: the front of the digest of its bytes. -/
def derive (d : Deriver) (p : Payload) : Except Fault Topic := do
  Topic.ofDigest (d.hasher.digest (← p.encode))

/-- The topics of some payloads, in order; the first failure ends it. -/
def deriveAll (d : Deriver) (ps : List Payload) : Except Fault (List Topic) := ps.mapM d.derive

/-- How a deriver over a shown hasher is shown. -/
def shownOver (hasher : Text) : Text := text "TopicDeriver(hasher=" ++ hasher ++ text ")"

end Deriver

end TopicFilter
