/-!
# The 64-bit xxHash

`xxh64 bytes seed` is the hash of a byte string under a seed: full stripes of 32 bytes feed four
lanes, the rest is mixed in by words of eight and four bytes and by single bytes, and a final
avalanche spreads every bit.
-/

namespace OnlineLearning.XXH64

def prime1 : UInt64 := 0x9E3779B185EBCA87
def prime2 : UInt64 := 0xC2B2AE3D27D4EB4F
def prime3 : UInt64 := 0x165667B19E3779F9
def prime4 : UInt64 := 0x85EBCA77C2B2AE63
def prime5 : UInt64 := 0x27D4EB2F165667C5

def rotateLeft (x n : UInt64) : UInt64 := (x <<< n) ||| (x >>> (64 - n))

/-- The little-endian word of a few bytes. -/
def word (bytes : List UInt8) : UInt64 :=
  bytes.foldr (fun b acc => (acc <<< 8) ||| b.toUInt64) 0

def round (acc lane : UInt64) : UInt64 :=
  rotateLeft (acc + lane * prime2) 31 * prime1

def mergeRound (acc lane : UInt64) : UInt64 :=
  (acc ^^^ round 0 lane) * prime1 + prime4

/-- The four lanes that whole stripes feed. -/
structure Lanes where
  a : UInt64
  b : UInt64
  c : UInt64
  d : UInt64

namespace Lanes

def start (seed : UInt64) : Lanes :=
  ⟨seed + prime1 + prime2, seed + prime2, seed, seed - prime1⟩

/-- Feeds a stripe of 32 bytes. -/
def feed (v : Lanes) (stripe : List UInt8) : Lanes :=
  { a := round v.a (word (stripe.take 8))
    b := round v.b (word ((stripe.drop 8).take 8))
    c := round v.c (word ((stripe.drop 16).take 8))
    d := round v.d (word ((stripe.drop 24).take 8)) }

def merged (v : Lanes) : UInt64 :=
  let acc := rotateLeft v.a 1 + rotateLeft v.b 7 + rotateLeft v.c 12 + rotateLeft v.d 18
  mergeRound (mergeRound (mergeRound (mergeRound acc v.a) v.b) v.c) v.d

end Lanes

/-- Feeds every whole stripe and returns the bytes that remain. -/
def stripes (v : Lanes) (bytes : List UInt8) : Lanes × List UInt8 :=
  if 32 ≤ bytes.length then stripes (v.feed (bytes.take 32)) (bytes.drop 32) else (v, bytes)
termination_by bytes.length
decreasing_by simp only [List.length_drop]; omega

/-- Mixes in what whole stripes left: words of eight bytes, one of four, then single bytes. -/
def finish (acc : UInt64) (bytes : List UInt8) : UInt64 :=
  match bytes with
  | b0 :: b1 :: b2 :: b3 :: b4 :: b5 :: b6 :: b7 :: rest =>
    finish
      (rotateLeft (acc ^^^ round 0 (word [b0, b1, b2, b3, b4, b5, b6, b7])) 27 * prime1 + prime4)
      rest
  | b0 :: b1 :: b2 :: b3 :: rest =>
    finish (rotateLeft (acc ^^^ word [b0, b1, b2, b3] * prime1) 23 * prime2 + prime3) rest
  | b :: rest => finish (rotateLeft (acc ^^^ b.toUInt64 * prime5) 11 * prime1) rest
  | [] => acc

def avalanche (h : UInt64) : UInt64 :=
  let h := (h ^^^ (h >>> 33)) * prime2
  let h := (h ^^^ (h >>> 29)) * prime3
  h ^^^ (h >>> 32)

end OnlineLearning.XXH64

namespace OnlineLearning

open XXH64 in
/-- The hash of `bytes` under `seed`. -/
def xxh64 (bytes : List UInt8) (seed : UInt64) : UInt64 :=
  let size := UInt64.ofNat bytes.length
  if bytes.length < 32 then avalanche (finish (seed + prime5 + size) bytes)
  else
    let (lanes, rest) := stripes (Lanes.start seed) bytes
    avalanche (finish (lanes.merged + size) rest)

end OnlineLearning
