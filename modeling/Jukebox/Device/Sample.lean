import Jukebox.Bytes

/-!
Samples as sound cards take them. A card names one of eleven kinds of sample; the player can feed
four of them. A sample of such a kind is kept as the number its bits spell.
-/

namespace Jukebox.Device

/-- The kinds of sample a card may ask for. -/
inductive SampleKind where
  | i8 | i16 | i24 | i32 | i64 | u8 | u16 | u32 | u64 | f32 | f64
  deriving DecidableEq

namespace SampleKind

def name : SampleKind → String
  | .i8 => "I8"
  | .i16 => "I16"
  | .i24 => "I24"
  | .i32 => "I32"
  | .i64 => "I64"
  | .u8 => "U8"
  | .u16 => "U16"
  | .u32 => "U32"
  | .u64 => "U64"
  | .f32 => "F32"
  | .f64 => "F64"

/-- Can the player feed samples of this kind? -/
def isFed : SampleKind → Bool
  | .f32 | .i16 | .i32 | .u16 => true
  | _ => false

/-- Bytes of one sample. -/
def size : SampleKind → Nat
  | .i8 | .u8 => 1
  | .i16 | .u16 => 2
  | .i24 | .i32 | .u32 | .f32 => 4
  | .i64 | .u64 | .f64 => 8

/-- The bits of a sample. Whole numbers are cut off towards zero and saturate; what is no number
becomes silence. Kinds that are not fed get silence. -/
def bits (kind : SampleKind) (x : Float32) : Nat :=
  match kind with
  | .f32 => x.toBits.toNat
  | .i16 => (x * 32768.0).toInt16.toUInt16.toNat
  | .i32 => (x * 2147483648.0).toInt32.toUInt32.toNat
  | .u16 => ((x * 32768.0).toInt16.toUInt16 + 32768).toNat
  | _ => 0

/-- The bits of silence. -/
def silence : SampleKind → Nat
  | .u16 => 32768
  | _ => 0

end SampleKind

end Jukebox.Device
