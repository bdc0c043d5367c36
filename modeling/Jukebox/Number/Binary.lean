import Jukebox.Number.Rounding

/-!
Binary floating-point formats, read and written exactly. A number of a format is known by the bits
of its magnitude and by its sign; `Binary.ofRatio` rounds any quotient of natural numbers to the
nearest magnitude, and `Binary.value` reads a word back as a whole number of units times a power of
two.
-/

namespace Jukebox.Number

/-- A binary format: `digits` binary digits of precision, a smallest positive number of
`2 ^ -depth`, and `exponents` stored exponents of which the last is kept for infinity. -/
structure Binary where
  digits : Nat
  depth : Nat
  exponents : Nat
  deriving DecidableEq

/-- The 32-bit format. -/
def Binary.single : Binary := ⟨24, 149, 256⟩

/-- The 64-bit format. -/
def Binary.double : Binary := ⟨53, 1074, 2048⟩

/-- What a word of a binary format stands for. A finite one is `units * 2 ^ scale` steps of the
smallest positive number. -/
inductive Value where
  | nan
  | infinite (negative : Bool)
  | finite (negative : Bool) (units scale : Nat)
  deriving DecidableEq

namespace Binary

/-- One step of the stored exponent, as a word. -/
def exponentUnit (f : Binary) : Nat := Nat.pow 2 (f.digits - 1)

/-- The word of positive infinity. -/
def infinity (f : Binary) : Nat := (f.exponents - 1) * f.exponentUnit

/-- The word of the sign. -/
def signUnit (f : Binary) : Nat := f.exponents * f.exponentUnit

/-- A word that stands for no number. -/
def notANumber (f : Binary) : Nat := f.infinity + f.exponentUnit / 2

/-- The magnitude nearest to `num / den`, ties to the even word; beyond the largest it is infinity.
-/
def ofRatio (f : Binary) (num den : Nat) : Nat :=
  let steps := num * Nat.pow 2 f.depth
  let whole := steps / den
  let scale := if whole < Nat.pow 2 f.digits then 0 else whole.log2 + 1 - f.digits
  min f.infinity (scale * f.exponentUnit + nearest steps (den * Nat.pow 2 scale))

/-- Puts a sign on a magnitude. -/
def signed (f : Binary) (negative : Bool) (magnitude : Nat) : Nat :=
  if negative then f.signUnit + magnitude else magnitude

/-- What a word stands for. -/
def value (f : Binary) (word : Nat) : Value :=
  let negative := f.signUnit ≤ word
  let magnitude := word % f.signUnit
  let exponent := magnitude / f.exponentUnit
  let fraction := magnitude % f.exponentUnit
  if exponent = f.exponents - 1 then
    if fraction = 0 then .infinite negative else .nan
  else if exponent = 0 then .finite negative fraction 0
  else .finite negative (f.exponentUnit + fraction) (exponent - 1)

/-- The quotient of two counts as this format computes it: both counts are rounded first. -/
def quotient (f : Binary) (num den : Nat) : Nat :=
  match f.value (f.ofRatio num 1), f.value (f.ofRatio den 1) with
  | .finite _ m s, .finite _ n t => f.ofRatio (m * Nat.pow 2 s) (n * Nat.pow 2 t)
  | _, _ => f.notANumber

end Binary

end Jukebox.Number
