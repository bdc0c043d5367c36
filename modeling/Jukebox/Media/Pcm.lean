import Jukebox.Bytes

/-!
Uncompressed samples. A whole-number sample becomes its distance from the middle of its range over
half the range; telephone samples are expanded to 16 bits first; floating-point samples stay what
they are.
-/

namespace Jukebox.Media

/-- How a sample is written: a number of so many bits, with or without a sign, or a number of a
binary format, or one of the two logarithmic telephone codes. -/
inductive Pcm where
  | unsigned (bits : Nat)
  | signed (bits : Nat)
  | single
  | double
  | aLaw
  | muLaw
  deriving DecidableEq

namespace Pcm

/-- Bytes of a sample. -/
def size : Pcm → Nat
  | .unsigned bits => bits / 8
  | .signed bits => bits / 8
  | .single => 4
  | .double => 8
  | .aLaw => 1
  | .muLaw => 1

/-- Undoes the A-law: the even bits are inverted, then come sign, segment and step. -/
def expandALaw (code : Nat) : Int :=
  let a := code ^^^ 0x55
  let step := (a % 16) * 16
  let segment := a / 16 % 8
  let magnitude := match segment with
    | 0 => step + 8
    | 1 => step + 0x108
    | n + 2 => (step + 0x108) * Nat.pow 2 (n + 1)
  if 128 ≤ a then magnitude else -(magnitude : Int)

/-- Undoes the μ-law: all bits are inverted, then come sign, segment and step. -/
def expandMuLaw (code : Nat) : Int :=
  let u := 255 - code % 256
  let magnitude := ((u % 16) * 8 + 0x84) * Nat.pow 2 (u / 16 % 8)
  if 128 ≤ u then 0x84 - (magnitude : Int) else (magnitude : Int) - 0x84

/-- A whole number as a sample: `bits` wide around zero. -/
def scale (bits : Nat) (x : Int) : Float32 :=
  (Float.ofInt x / Float.ofInt (Nat.pow 2 (bits - 1))).toFloat32

/-- The sample of a number as written, or of the bits of a binary format. -/
def sample (kind : Pcm) (x : Int) : Float32 :=
  match kind with
  | .unsigned bits => scale bits (x - Nat.pow 2 (bits - 1))
  | .signed bits => scale bits x
  | .single => Float32.ofBits (UInt32.ofNat (x % Nat.pow 2 32).toNat)
  | .double => (Float.ofBits (UInt64.ofNat (x % Nat.pow 2 64).toNat)).toFloat32
  | .aLaw => scale 16 (expandALaw x.toNat)
  | .muLaw => scale 16 (expandMuLaw x.toNat)

/-- The sample of the bits in a file. -/
def ofWord (kind : Pcm) (word : Nat) : Float32 :=
  match kind with
  | .signed bits => kind.sample (Bytes.signed bits word)
  | _ => kind.sample word

end Pcm

end Jukebox.Media
