import SheetScript.Number.Binary64

/-!
# The text of a number

Every number is written by its shortest decimal, with a minus sign where its sign bit is set. The
places where numbers appear differ only in the words for what is not finite; a `Style` holds them.

Among the decimals that read back as a given double, `shortest` is one with the fewest digits, and
of those the nearest; an exact tie goes up. The search walks over the decimal grids `10 ^ e` from
the coarse to the fine. On each grid only the two neighbours of the double can be the answer, and
each is tried by reading it. The first grid lies above the double, so the walk meets the coarsest
grid with a hit. Seventeen digits always suffice; the decimal that equals the double exactly stands
behind the walk.
-/

namespace SheetScript.Number

/-! ## The shortest decimal -/

/-- Of two decimals the one that reads back as the given double; of two that do, `low` when it is
known to be nearer, otherwise `high`. -/
def chooseReading (bits : Nat) (low high : Decimal) (lowIsNearer : Bool) : Option Decimal :=
  if low.toBits = bits ∧ (lowIsNearer ∨ high.toBits ≠ bits) then some low
  else if high.toBits = bits then some high
  else none

/-- The neighbour of a double on the grid `10 ^ exponent` that reads back, the nearer of two. -/
def gridNeighbour (bits : Nat) (exponent : Int) : Option Decimal :=
  let num := scaled bits * powerOfTen (-exponent).toNat
  let den := unitsPerOne * powerOfTen exponent.toNat
  chooseReading bits (.ofScaled (num / den) exponent) (.ofScaled (num / den + 1) exponent)
    (2 * (num % den) < den)

/-- The decimal that equals the double: its last digit stands at the place of the smallest unit. -/
def exactDecimal (bits : Nat) : Decimal := ⟨scaled bits * (powerOfTen 1074 / unitsPerOne), 1074⟩

/-- The exponent of a power of ten above the double, at most two places too high. -/
def upperExponent (bits : Nat) : Int :=
  (((scaled bits).log2 : Int) - 1073) * 30103 / 100000 + 1

/-- The first hit on the way from the coarse grids to the fine ones. -/
def searchGrids (bits : Nat) : Option Decimal :=
  (List.range 20).findSome? fun i => gridNeighbour bits (upperExponent bits - (i : Nat))

/-- The shortest decimal that reads back as the double with the given magnitude bits. -/
def shortest (bits : Nat) : Decimal :=
  if bits = 0 then ⟨0, 0⟩ else (searchGrids bits).getD (exactDecimal bits)

/-- What is chosen reads back. -/
theorem toBits_of_chooseReading {bits : Nat} {low high d : Decimal} {nearer : Bool}
    (h : chooseReading bits low high nearer = some d) : d.toBits = bits := by
  unfold chooseReading at h
  split at h
  next hl => cases h; exact hl.1
  next =>
    split at h
    next hh => cases h; exact hh
    next => cases h

/-- What the search finds reads back. -/
theorem toBits_of_searchGrids {bits : Nat} {d : Decimal} (h : searchGrids bits = some d) :
    d.toBits = bits := by
  obtain ⟨i, _, hi⟩ := List.exists_of_findSome?_eq_some h
  exact toBits_of_chooseReading hi

/-! ## Styles -/

/-- The words for what has no digits. -/
structure Style where
  /-- Positive infinity. -/
  infinity : String
  /-- Negative infinity. -/
  negativeInfinity : String
  /-- Not a number. -/
  nan : String

namespace Style

/-- Numbers as they stand in formulas and cell text; this text can be read again. -/
def plain : Style := ⟨"inf", "-inf", "NaN"⟩

/-- Numbers as the results of scripts. -/
def result : Style := ⟨"Inf", "-Inf", "NaN"⟩

/-- Numbers as a grid shows them, where a marker takes the place of what is not finite. -/
def display : Style := ⟨"#INF!", "#INF!", "#NAN!"⟩

end Style

/-- The digits of a finite number, with its sign. -/
def finiteText (negative : Bool) (bits : Nat) : List Char :=
  let digits := (shortest bits).positional
  if negative then '-' :: digits else digits

/-- The text of a number in the given style. -/
def format (style : Style) (x : Float) : String :=
  if magnitude x < infinityBits then String.ofList (finiteText (isNegative x) (magnitude x))
  else if magnitude x = infinityBits then
    if isNegative x then style.negativeInfinity else style.infinity
  else style.nan

/-- All styles write a finite number alike. -/
theorem format_eq_of_isFinite {x : Float} (h : isFinite x = true) (s t : Style) :
    format s x = format t x := by
  have : magnitude x < infinityBits := by simpa [isFinite] using h
  simp [format, this]

end SheetScript.Number
