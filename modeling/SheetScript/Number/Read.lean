import SheetScript.Number.Binary64
import SheetScript.Number.Positional

/-!
# Reading numbers

`read?` reads the whole of a text as a double: an optional sign, then either a word for infinity or
NaN in any case, or digits with at most one point among them and an optional exponent. A digit on
one side of the point is enough. The result is the nearest double. An exponent counts with all its
digits up to `exponentBound` (`exponentOfDigits_of_lt`), a larger one only with its first digits.

`readInteger?` reads a signed integer of sixty-four bits.
-/

namespace SheetScript.Number

/-- The sign at the start of a text, and the text after it. -/
def readSign : List Char → Bool × List Char
  | '-' :: cs => (true, cs)
  | '+' :: cs => (false, cs)
  | cs => (false, cs)

/-- A signed number: digits, at least one, after an optional sign. `valueOf` gives the digits their
value. -/
def readSigned? (valueOf : List Char → Nat) (cs : List Char) : Option Int :=
  let (negative, digits) := readSign cs
  if digits.isEmpty || !digits.all Char.isDigit then none
  else some (if negative then -(valueOf digits : Int) else valueOf digits)

/-- The bound at which an exponent stops taking in digits. -/
def exponentBound : Nat := 0x10000

/-- The digits of an exponent, read from the left until their value reaches `exponentBound`. Later
digits do not count, so a longer exponent is cut down to its first digits. No number of ordinary
length can tell: with either exponent it is zero or infinite. A number with tens of thousands of
digits has the value that the shorter exponent gives it. -/
def exponentOfDigits (cs : List Char) : Nat :=
  cs.foldl (fun e c => if e < exponentBound then 10 * e + digitValue c else e) 0

/-- An exponent below the bound counts with all its digits. -/
theorem exponentOfDigits_of_lt {cs : List Char} (h : ofDigits cs < exponentBound) :
    exponentOfDigits cs = ofDigits cs := by
  rw [ofDigits, positionalValue_eq, valueOfRow] at h ⊢
  rw [exponentOfDigits]
  generalize 0 = start at h ⊢
  induction cs generalizing start with
  | nil => rfl
  | cons c cs ih =>
    have hle := le_foldl_row (by decide : 0 < 10) digitValue cs (10 * start + digitValue c)
    rw [List.foldl_cons] at h ⊢
    rw [List.foldl_cons, if_pos (by omega), ih _ h]

/-- The value of an exponent: digits, at least one, after an optional sign. -/
def readExponent? (cs : List Char) : Option Int := readSigned? exponentOfDigits cs

/-- Above this power of ten every number is infinite, below its inverse every number is zero. -/
def extremeExponent : Nat := 400

/-- The magnitude bits nearest to the number written by `digits` times `10 ^ exponent`. Numbers far
outside the range of doubles are settled by their exponent alone. -/
def bitsOfDigits (digits : List Char) (exponent : Int) : Nat :=
  let n := ofDigits digits
  if n = 0 then 0
  else if exponent > extremeExponent then infinityBits
  else if exponent + digits.length < -extremeExponent then 0
  else (Decimal.ofScaled n exponent).toBits

/-- The magnitude bits of an unsigned decimal literal. -/
def readDecimal? (cs : List Char) : Option Nat :=
  let whole := cs.takeWhile Char.isDigit
  let rest := cs.dropWhile Char.isDigit
  let (fraction, rest) :=
    match rest with
    | '.' :: tail => (tail.takeWhile Char.isDigit, tail.dropWhile Char.isDigit)
    | _ => ([], rest)
  if whole.isEmpty && fraction.isEmpty then none
  else
    let exponent? :=
      match rest with
      | [] => some 0
      | c :: tail => if c == 'e' || c == 'E' then readExponent? tail else none
    exponent?.map fun e => bitsOfDigits (whole ++ fraction) (e - fraction.length)

/-- The magnitude bits of a word for a number that has no digits. -/
def readWord? (cs : List Char) : Option Nat :=
  let word := cs.map Char.toLower
  if word = "inf".toList || word = "infinity".toList then some infinityBits
  else if word = "nan".toList then some (infinityBits + (1 <<< 51))
  else none

/-- The double that the whole text stands for. -/
def read? (cs : List Char) : Option Float :=
  let (negative, rest) := readSign cs
  ((readWord? rest).or (readDecimal? rest)).map (ofMagnitude negative)

/-- The integer that the whole text stands for, if it fits in sixty-four bits with a sign. -/
def readInteger? (cs : List Char) : Option Int :=
  (readSigned? ofDigits cs).filter fun n => n.bmod UInt64.size == n

end SheetScript.Number
