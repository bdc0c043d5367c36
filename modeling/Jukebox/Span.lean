import Jukebox.Number.Binary
import Jukebox.Word

/-!
Lengths of time and positions in a track, in nanoseconds. Seconds given as a binary number are
rounded to the nearest nanosecond; those that are negative, not a number, or too large for a 64-bit
count of seconds are no span.
-/

namespace Jukebox

/-- A length of time. -/
structure Span where
  nanos : Nat
  deriving DecidableEq, Inhabited

namespace Span

/-- Nanoseconds in one second. -/
def second : Nat := 1000000000

def zero : Span := ⟨0⟩

def ofSeconds (seconds nanos : Nat) : Span := ⟨seconds * second + nanos⟩

def ofMillis (millis : Nat) : Span := ⟨millis * 1000000⟩

/-- Whole seconds. -/
def seconds (d : Span) : Nat := d.nanos / second

/-- Nanoseconds beyond the whole seconds. -/
def subsecond (d : Span) : Nat := d.nanos % second

/-- Whole milliseconds. -/
def millis (d : Span) : Nat := d.nanos / 1000000

instance : Min Span := ⟨fun a b => if a.nanos ≤ b.nanos then a else b⟩

/-- One past the longest span: 2⁶⁴ seconds. -/
def bound : Nat := Nat.pow 2 64 * second

/-- The span of so many seconds, given as a word of the 64-bit format. -/
def ofDouble? (word : Nat) : Option Span :=
  match Number.Binary.double.value word with
  | .nan | .infinite _ => none
  | .finite negative units scale =>
    let steps := units * Nat.pow 2 scale * second
    let nanos := Number.nearest steps (Nat.pow 2 Number.Binary.double.depth)
    if negative ∧ units ≠ 0 then none
    else if nanos < bound then some ⟨nanos⟩
    else none

end Span

end Jukebox
