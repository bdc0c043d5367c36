/-!
Strings of bytes and the whole numbers written in them, most significant byte first (`big`) or last
(`little`).
-/

namespace Jukebox

/-- A string of bytes. -/
abbrev Bytes := Array UInt8

namespace Bytes

/-- The bytes from position `start` on, at most `count` of them. -/
def slice (b : Bytes) (start count : Nat) : Bytes := b.extract start (start + count)

/-- The number in `count` bytes from `start`, first byte most significant. Missing bytes count as
zero. -/
def big (b : Bytes) (start : Nat) : Nat → Nat
  | 0 => 0
  | count + 1 => b.big start count * 256 + (b.getD (start + count) 0).toNat

/-- The number in `count` bytes from `start`, first byte least significant. -/
def little (b : Bytes) (start : Nat) : Nat → Nat
  | 0 => 0
  | count + 1 => (b.getD start 0).toNat + 256 * b.little (start + 1) count

/-- A number as `count` bytes, least significant first. -/
def ofLittle : (count n : Nat) → List UInt8
  | 0, _ => []
  | count + 1, n => UInt8.ofNat n :: ofLittle count (n / 256)

/-- A number as `count` bytes, most significant first. -/
def ofBig (count n : Nat) : List UInt8 := (ofLittle count n).reverse

/-- A number below `2 ^ bits` read as a signed one. -/
def signed (bits n : Nat) : Int :=
  if n < Nat.pow 2 (bits - 1) then n else (n : Int) - Nat.pow 2 bits

/-- The bytes of a list of byte strings, one after the other. -/
def join (parts : List Bytes) : Bytes := parts.foldl (· ++ ·) #[]

end Bytes

end Jukebox
