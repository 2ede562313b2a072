/-! # The range of floating point

When a decimal numeral is above all that double precision holds. A reader that rounds once asks
whether the number itself has no finite value. A reader that multiplies a significand and a power of
ten, each of them rounded before, may answer otherwise close to the limit.
-/

namespace JitTrace.FloatRange

/-- Half a step above the largest finite number. What reaches it is rounded to infinity. -/
def limit : Nat := Nat.pow 2 1024 - Nat.pow 2 970

/-- The distance between neighbours of 53 significant bits around a number. -/
def step (number : Nat) : Nat :=
  Nat.pow 2 (number.log2 - 52)

/-- The nearest number of 53 significant bits. Halfway between two it is the even one. -/
def nearest (number : Nat) : Nat :=
  let whole := number / step number
  let rest := number % step number
  if 2 * rest < step number || (2 * rest = step number && whole % 2 = 0) then step number * whole
  else step number * (whole + 1)

/-- Whether a significand times a power of ten is rounded to infinity. The number of places in
front of the point decides all but the close cases. -/
def exceeds (significand : Nat) (exponent : Int) : Bool :=
  let places : Int := (Nat.toDigits 10 significand).length + exponent
  if significand = 0 || places < 309 then false
  else if 309 < places then true
  else if 0 ≤ exponent then limit ≤ significand * Nat.pow 10 exponent.toNat
  else limit * Nat.pow 10 (-exponent).toNat ≤ significand

/-- Whether the product of a rounded significand and a rounded power of ten is rounded to
infinity. No power above the 308th is finite, and division never leads out of the range. -/
def productExceeds (significand : Nat) (exponent : Int) : Bool :=
  if significand = 0 || exponent < 0 then false
  else if 308 < exponent then true
  else limit ≤ nearest significand * nearest (Nat.pow 10 exponent.toNat)

end JitTrace.FloatRange
