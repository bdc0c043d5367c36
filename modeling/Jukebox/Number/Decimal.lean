import Jukebox.Number.Binary

/-!
Numbers written in decimal. A numeral is an optional sign followed by `inf`, `infinity` or `nan` in
any case, or by digits with at most one point and an optional exponent; at least one digit stands
before the exponent. `Numeral.toWord` gives the word of a binary format nearest to the exact value.
`fixed` writes a finite number with a fixed count of places.
-/

namespace Jukebox.Number

/-- A number as written: an exact value `± digits * 10 ^ exponent`, or one of the named ones. -/
inductive Numeral where
  | nan
  | infinite (negative : Bool)
  | exact (negative : Bool) (digits : Nat) (exponent : Int)
  deriving DecidableEq

/-- The value of a run of decimal digits, read after a number already read. -/
def digitsValue (start : Nat) (ds : List Char) : Nat :=
  ds.foldl (fun n c => 10 * n + (c.toNat - '0'.toNat)) start

/-- A whole number without a sign: one digit or more and nothing else. -/
def natural? (cs : List Char) : Option Nat :=
  if cs.isEmpty ∨ ¬ cs.all Char.isDigit then none else some (digitsValue 0 cs)

/-- A sign taken off the front; a plus counts as none. -/
def takeSign : List Char → Bool × List Char
  | '-' :: cs => (true, cs)
  | '+' :: cs => (false, cs)
  | cs => (false, cs)

/-- The exponent part of a numeral, zero when there is none. -/
def exponent? : List Char → Option Int
  | [] => some 0
  | c :: cs =>
    if c = 'e' ∨ c = 'E' then
      let (negative, ds) := takeSign cs
      (natural? ds).map fun n => if negative then -(n : Int) else n
    else none

namespace Numeral

/-- A numeral without its sign. -/
def unsigned? (negative : Bool) (cs : List Char) : Option Numeral :=
  let lower := cs.map Char.toLower
  if lower = "inf".toList ∨ lower = "infinity".toList then some (.infinite negative)
  else if lower = "nan".toList then some .nan
  else
    let whole := cs.takeWhile Char.isDigit
    let rest := cs.dropWhile Char.isDigit
    let (places, tail) :=
      match rest with
      | '.' :: more => (more.takeWhile Char.isDigit, more.dropWhile Char.isDigit)
      | _ => ([], rest)
    if whole.isEmpty ∧ places.isEmpty then none
    else (exponent? tail).map fun e =>
      .exact negative (digitsValue (digitsValue 0 whole) places) (e - places.length)

/-- Reads a whole text as one numeral. -/
def parse? (cs : List Char) : Option Numeral :=
  let (negative, rest) := takeSign cs
  unsigned? negative rest

/-- The count of decimal digits of a number. -/
def width (n : Nat) : Nat := (Nat.toDigits 10 n).length

/-- The word of format `f` nearest to the numeral. No format here reaches beyond `10 ^ 400` or
below `10 ^ -400`, so an exact value outside these bounds is not computed. -/
def toWord (f : Binary) : Numeral → Nat
  | .nan => f.notANumber
  | .infinite negative => f.signed negative f.infinity
  | .exact negative digits exponent =>
    f.signed negative <|
      if digits = 0 then 0
      else if 400 < width digits + exponent then f.infinity
      else if width digits + exponent < -400 then 0
      else f.ofRatio (digits * Nat.pow 10 exponent.toNat) (Nat.pow 10 (-exponent).toNat)

end Numeral

/-- A count of digits of `n`, with zeros in front. -/
def padded (count n : Nat) : String :=
  let ds := Nat.toDigits 10 n
  String.ofList (List.replicate (count - ds.length) '0' ++ ds)

/-- A word of format `f` written with two places, the exact value rounded with ties to even. -/
def toTwoPlaces (f : Binary) (word : Nat) : String :=
  match f.value word with
  | .nan => "NaN"
  | .infinite negative => if negative then "-inf" else "inf"
  | .finite negative units scale =>
    let hundredths := nearest (units * Nat.pow 2 scale * 100) (Nat.pow 2 f.depth)
    (if negative then "-" else "") ++ toString (hundredths / 100) ++ "." ++
      padded 2 (hundredths % 100)

end Jukebox.Number
