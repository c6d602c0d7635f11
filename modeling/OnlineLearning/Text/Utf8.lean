import OnlineLearning.Error

/-!
# UTF-8

`decodeUtf8` reads a byte string as text. Where it is no text, the error tells how many bytes are,
and how long the fault is: the longest beginning of a character that the bytes there match, at
least one byte.
-/

namespace OnlineLearning

namespace Utf8

/-- The least and the greatest byte allowed at a place. -/
abbrev ByteRange := UInt8 × UInt8

def anyFollower : ByteRange := (0x80, 0xBF)

/-- What has to follow a leading byte; `none` if no character starts with it. -/
def followers? (lead : UInt8) : Option (List ByteRange) :=
  if lead < 0x80 then some []
  else if lead < 0xC2 then none
  else if lead < 0xE0 then some [anyFollower]
  else if lead == 0xE0 then some [(0xA0, 0xBF), anyFollower]
  else if lead == 0xED then some [(0x80, 0x9F), anyFollower]
  else if lead < 0xF0 then some [anyFollower, anyFollower]
  else if lead == 0xF0 then some [(0x90, 0xBF), anyFollower, anyFollower]
  else if lead < 0xF4 then some [anyFollower, anyFollower, anyFollower]
  else if lead == 0xF4 then some [(0x80, 0x8F), anyFollower, anyFollower]
  else none

/-- The first fault of a byte string. `start` is where the present character starts, `needed` what
it still lacks. -/
def fault? (start position : Nat) (needed : List ByteRange) : List UInt8 → Option Utf8Fault
  | [] => if needed.isEmpty then none else some ⟨start, none⟩
  | byte :: rest =>
    match needed with
    | [] =>
      match followers? byte with
      | none => some ⟨position, some 1⟩
      | some needed => fault? position (position + 1) needed rest
    | (low, high) :: needed =>
      if low ≤ byte && byte ≤ high then fault? start (position + 1) needed rest
      else some ⟨start, some (position - start)⟩

end Utf8

/-- The text that a byte string encodes. -/
def decodeUtf8 (bytes : List UInt8) : Except Utf8Fault String :=
  match String.fromUTF8? ⟨bytes.toArray⟩ with
  | some text => .ok text
  | none => .error ((Utf8.fault? 0 0 [] bytes).getD ⟨0, some 1⟩)

end OnlineLearning
