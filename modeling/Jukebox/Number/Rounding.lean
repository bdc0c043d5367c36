/-!
A quotient of natural numbers rounded to the nearest whole number. Exactly half goes to the even
neighbour, so that no direction is favoured.
-/

namespace Jukebox.Number

/-- The whole number nearest to `n / d`, a half going to the even one. -/
def nearest (n d : Nat) : Nat :=
  let q := n / d
  let r := n % d
  if 2 * r < d then q
  else if d < 2 * r then q + 1
  else if q % 2 = 0 then q else q + 1

end Jukebox.Number
