import OnlineLearning.Hash.XXH64
import OnlineLearning.Index

/-!
# Feature indices

A feature is named by a namespace and a token. `FeatureHasher.hash` turns the pair into an index
of the weight table: the namespace seeds the hash of the token, the hash is scaled by the number
of problems that share the table, and the mask keeps the bits of the table.

Scaling by a power of two leaves the low bits free for the offset of a problem, so that problems
never meet in one group.
-/

namespace OnlineLearning

/-- The byte that names a namespace: the first of its name, a space for the empty name. -/
def namespaceIndex (name : String) : UInt8 := name.toUTF8.toList.headD 0x20

def namespaceSeed (name : String) : UInt64 := xxh64 name.toUTF8.toList 0

structure FeatureHasher where
  mask : UInt64
  multiplier : UInt64
  deriving DecidableEq, Repr

namespace FeatureHasher

/-- A hasher for a table of `2 ^ bits` groups that `multiplier` problems share. -/
def ofBits (bits : Nat) (multiplier : UInt64) : FeatureHasher :=
  { mask := indexMask bits, multiplier := max multiplier 1 }

def hash (h : FeatureHasher) (name token : String) : UInt64 :=
  xxh64 token.toUTF8.toList (namespaceSeed name) * h.multiplier &&& h.mask

end FeatureHasher

end OnlineLearning
