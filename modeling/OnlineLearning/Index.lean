/-!
# Indices of a table

A table has a group for every number of a certain count of bits. Any other number stands for the
index that its low bits make.
-/

namespace OnlineLearning

/-- The mask that keeps `bits` bits. -/
def indexMask (bits : Nat) : UInt64 := UInt64.ofNat (Nat.pow 2 bits - 1)

end OnlineLearning
