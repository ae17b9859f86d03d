import TopicFilter.Digest.Blake2
import TopicFilter.Digest.Keccak
import TopicFilter.Digest.Md5
import TopicFilter.Digest.Sha1
import TopicFilter.Digest.Sha2

/-!
# Algorithm — the hash algorithms and their names

Twelve algorithms have digests of a fixed size (`length_digest`). Each has one name that must be written
exactly and further names in which the case of letters does not count. A name may also belong to an algorithm
whose digests have no size of their own, or no bytes at all.
-/

namespace TopicFilter

/-- The hash algorithms with digests of a fixed size. -/
inductive Algorithm where
  | md5 | sha1 | sha224 | sha256 | sha384 | sha512
  | sha3x224 | sha3x256 | sha3x384 | sha3x512
  | blake2b | blake2s
deriving DecidableEq

/-- What a name stands for. -/
inductive Algorithm.Lookup where
  /-- An algorithm with digests of a fixed size. -/
  | fixed (algorithm : Algorithm)
  /-- An algorithm whose digests have no size of their own. -/
  | unsized
  /-- The algorithm whose digests are empty. -/
  | empty
  /-- Nothing. -/
  | unknown
deriving DecidableEq

namespace Algorithm

/-- The number of bytes in a digest. -/
def size : Algorithm → Nat
  | md5 => 16
  | sha1 => 20
  | sha224 | sha3x224 => 28
  | sha256 | sha3x256 | blake2s => 32
  | sha384 | sha3x384 => 48
  | sha512 | sha3x512 | blake2b => 64

/-- The digest of a byte string. -/
def digest : Algorithm → Bytes → Bytes
  | md5 => Digest.Md5.digest
  | sha1 => Digest.Sha1.digest
  | sha224 => Digest.Sha2.sha224
  | sha256 => Digest.Sha2.sha256
  | sha384 => Digest.Sha2.sha384
  | sha512 => Digest.Sha2.sha512
  | sha3x224 => Digest.Keccak.digest 28
  | sha3x256 => Digest.Keccak.digest 32
  | sha3x384 => Digest.Keccak.digest 48
  | sha3x512 => Digest.Keccak.digest 64
  | blake2b => Digest.Blake2.blake2b
  | blake2s => Digest.Blake2.blake2s

/-- **Digests have the size of their algorithm**, whatever the data. -/
theorem length_digest (a : Algorithm) (b : Bytes) : (a.digest b).length = a.size := by
  cases a
  · exact Digest.Md5.length_digest b
  · exact Digest.Sha1.length_digest b
  · exact Digest.Sha2.State.length_output (by decide) _
  · exact Digest.Sha2.State.length_output (by decide) _
  · exact Digest.Sha2.State.length_output (by decide) _
  · exact Digest.Sha2.State.length_output (by decide) _
  · exact Digest.Keccak.length_digest (by decide) b
  · exact Digest.Keccak.length_digest (by decide) b
  · exact Digest.Keccak.length_digest (by decide) b
  · exact Digest.Keccak.length_digest (by decide) b
  · exact Digest.Blake2.Family.length_digest _ b
  · exact Digest.Blake2.Family.length_digest _ b

theorem four_le_size (a : Algorithm) : 4 ≤ a.size := by cases a <;> decide

/-! ## Names -/

/-- The names that must be written exactly. -/
def exactNames : List (String × Lookup) :=
  [("md5", .fixed md5), ("sha1", .fixed sha1), ("sha224", .fixed sha224), ("sha256", .fixed sha256),
   ("sha384", .fixed sha384), ("sha512", .fixed sha512), ("sha3_224", .fixed sha3x224),
   ("sha3_256", .fixed sha3x256), ("sha3_384", .fixed sha3x384), ("sha3_512", .fixed sha3x512),
   ("blake2b", .fixed blake2b), ("blake2s", .fixed blake2s), ("shake_128", .unsized), ("shake_256", .unsized)]

/-- The names in which case does not count, in lower case, and the numbers that are registered for the algorithms. Left
out are the names of algorithms outside of the standard ones, which a system may have besides: shortened digests such as
`sha512_256`, and others such as `ripemd160` or `sm3`. -/
def looseNames : List (String × Lookup) :=
  [("md5", .fixed md5), ("ssl3-md5", .fixed md5),
   ("sha1", .fixed sha1), ("sha-1", .fixed sha1), ("ssl3-sha1", .fixed sha1),
   ("sha224", .fixed sha224), ("sha-224", .fixed sha224), ("sha2-224", .fixed sha224),
   ("sha256", .fixed sha256), ("sha-256", .fixed sha256), ("sha2-256", .fixed sha256),
   ("sha384", .fixed sha384), ("sha-384", .fixed sha384), ("sha2-384", .fixed sha384),
   ("sha512", .fixed sha512), ("sha-512", .fixed sha512), ("sha2-512", .fixed sha512),
   ("sha3-224", .fixed sha3x224), ("sha3-256", .fixed sha3x256), ("sha3-384", .fixed sha3x384),
   ("sha3-512", .fixed sha3x512),
   ("blake2b512", .fixed blake2b), ("blake2b-512", .fixed blake2b),
   ("blake2s256", .fixed blake2s), ("blake2s-256", .fixed blake2s),
   ("shake128", .unsized), ("shake-128", .unsized), ("shake256", .unsized), ("shake-256", .unsized),
   ("null", .empty),
   ("1.2.840.113549.2.5", .fixed md5), ("1.3.14.3.2.26", .fixed sha1),
   ("2.16.840.1.101.3.4.2.4", .fixed sha224), ("2.16.840.1.101.3.4.2.1", .fixed sha256),
   ("2.16.840.1.101.3.4.2.2", .fixed sha384), ("2.16.840.1.101.3.4.2.3", .fixed sha512),
   ("2.16.840.1.101.3.4.2.7", .fixed sha3x224), ("2.16.840.1.101.3.4.2.8", .fixed sha3x256),
   ("2.16.840.1.101.3.4.2.9", .fixed sha3x384), ("2.16.840.1.101.3.4.2.10", .fixed sha3x512),
   ("2.16.840.1.101.3.4.2.11", .unsized), ("2.16.840.1.101.3.4.2.12", .unsized),
   ("1.3.6.1.4.1.1722.12.2.1.16", .fixed blake2b), ("1.3.6.1.4.1.1722.12.2.2.8", .fixed blake2s)]

/-- A code point with an ASCII capital made small. -/
def lowerAscii (c : CodePoint) : CodePoint :=
  if h : 0x41 ≤ c.toNat ∧ c.toNat ≤ 0x5A then ⟨c.toNat + 0x20, by omega⟩ else c

/-- The entry of a name in a table of names. -/
def find? (name : Text) (table : List (String × Lookup)) : Option Lookup :=
  (table.find? fun entry => Text.ofString entry.1 = name).map (·.2)

/-- What a name stands for. -/
def lookup (name : Text) : Lookup :=
  match find? name exactNames with
  | some l => l
  | none => (find? (name.map lowerAscii) looseNames).getD .unknown

end Algorithm

end TopicFilter
