import Jukebox.Bytes

/-!
Cyclic checksums of byte strings: the remainder of the bits, highest first, by a polynomial.
-/

namespace Jukebox.Media.Flac

/-- Divides eight more bits into a remainder of `width` bits. -/
def shiftByte (width poly : Nat) (rest : Nat) : Nat :=
  (List.range 8).foldl (fun r _ =>
    if Nat.pow 2 (width - 1) ≤ r then (2 * r % Nat.pow 2 width) ^^^ poly else 2 * r) rest

/-- The checksum of `width` bits of the bytes between two positions. -/
def checksum (width poly : Nat) (b : Bytes) (start stop : Nat) : Nat :=
  (b.extract start stop).foldl (fun r x =>
    shiftByte width poly (r ^^^ (x.toNat * Nat.pow 2 (width - 8)))) 0

/-- The checksum of eight bits. -/
def checksum8 (b : Bytes) (start stop : Nat) : Nat := checksum 8 0x07 b start stop

/-- The checksum of sixteen bits. -/
def checksum16 (b : Bytes) (start stop : Nat) : Nat := checksum 16 0x8005 b start stop

end Jukebox.Media.Flac
