/-!
# Doubles by their bits, and decimals

A double without its sign is a natural number below `2 ^ 63`, its *magnitude bits*: eleven bits of
exponent above fifty-two bits of fraction. The bits grow with the number, and every finite double
is a multiple of `2 ^ (-1074)`, so two functions on natural numbers say all that reading and
printing need:

* `scaled bits` is the number itself, counted in units of `2 ^ (-1074)`;
* `nearest num den` are the bits of the double next to the fraction `num / den`, where a tie goes
  to the even neighbour and what is too large becomes infinity.

A `Decimal` is a natural number of tenths, hundredths, and so on: `digits / 10 ^ places`. It is
written positionally, without an exponent and without zeros after the last digit that counts.
-/

namespace SheetScript.Number

/-! ## Doubles -/

/-- The quotient of `a` and `b` rounded to the nearest integer, a tie to the even one. -/
def roundHalfEven (a b : Nat) : Nat :=
  let q := a / b
  let r := a % b
  if 2 * r < b then q else if b < 2 * r then q + 1 else q + q % 2

/-- The magnitude bits of infinity. Larger ones are not a number. -/
def infinityBits : Nat := 2047 <<< 52

/-- How many units of the smallest positive double make up one. -/
@[irreducible] def unitsPerOne : Nat := 1 <<< 1074

/-- The double with the given magnitude bits, in units of `2 ^ (-1074)`. -/
def scaled (bits : Nat) : Nat :=
  let exponent := bits >>> 52
  let fraction := bits % (1 <<< 52)
  if exponent = 0 then fraction else ((1 <<< 52) + fraction) <<< (exponent - 1)

/-- The magnitude bits of the double nearest to `num / den`. A mantissa that rounds up to the next
power of two carries into the exponent by the addition itself. -/
def nearest (num den : Nat) : Nat :=
  let units := num * unitsPerOne
  let shift := (units / den).log2 - 52
  min infinityBits ((shift <<< 52) + roundHalfEven units (den <<< shift))

/-- The magnitude bits of a double. -/
def magnitude (x : Float) : Nat := x.toBits.toNat % (1 <<< 63)

/-- The sign bit of a double; set for `-0` too. -/
def isNegative (x : Float) : Bool := 1 <<< 63 ≤ x.toBits.toNat

/-- The double with the given sign and magnitude bits. -/
def ofMagnitude (negative : Bool) (bits : Nat) : Float :=
  Float.ofBits (UInt64.ofNat (if negative then (1 <<< 63) + bits else bits))

/-- Neither infinite nor NaN. -/
def isFinite (x : Float) : Bool := magnitude x < infinityBits

/-- A fraction without remainder is its quotient. -/
theorem roundHalfEven_mul (a : Nat) {b : Nat} (hb : 0 < b) : roundHalfEven (a * b) b = a := by
  simp [roundHalfEven, hb]

/-! ## Decimals -/

/-- The fraction `digits / 10 ^ places`. -/
structure Decimal where
  /-- All digits, read as one number. -/
  digits : Nat
  /-- How many of them stand after the point. -/
  places : Nat
deriving DecidableEq, Repr

/-- The power of ten with the given exponent. -/
def powerOfTen (exponent : Nat) : Nat := Nat.pow 10 exponent

namespace Decimal

/-- The magnitude bits of the nearest double. -/
def toBits (d : Decimal) : Nat := nearest d.digits (powerOfTen d.places)

/-- The decimal `n * 10 ^ exponent`. -/
def ofScaled (n : Nat) (exponent : Int) : Decimal :=
  if 0 ≤ exponent then ⟨n * powerOfTen exponent.toNat, 0⟩ else ⟨n, (-exponent).toNat⟩

/-- The digits after the point, without zeros at the end. -/
def fractionDigits (d : Decimal) : List Char :=
  let ds := Nat.toDigits 10 (d.digits % powerOfTen d.places)
  let padded := List.replicate (d.places - ds.length) '0' ++ ds
  if d.digits % powerOfTen d.places = 0 then [] else (padded.reverse.dropWhile (· == '0')).reverse

/-- The positional text: whole part, and after a point the fraction if there is one. -/
def positional (d : Decimal) : List Char :=
  let whole := Nat.toDigits 10 (d.digits / powerOfTen d.places)
  match d.fractionDigits with
  | [] => whole
  | fraction => whole ++ '.' :: fraction

end Decimal

end SheetScript.Number
