/-!
# Positional numerals

A row of digits stands for a number in some base, the first digit counting most. Read digit by
digit (`valueOfRow`), the number grows at every step, and a long row costs the square of its length.
So `positionalValue` cuts a long row in the middle and moves the value of the first half up by the
length of the second. Where numbers are bounded, `valueWithin?` gives up at the first step that
leaves the bound.

Main statements: `positionalValue_eq`, the cuts do not change the value, and `valueWithin?_eq`, the
steps stay within the bound exactly when the value does.
-/

namespace SheetScript.Number

/-- The value of a row of digits, read from the left. -/
def valueOfRow (base : Nat) (digit : Char → Nat) (cs : List Char) : Nat :=
  cs.foldl (fun n c => base * n + digit c) 0

/-- The value of a row that is halved as many times as `cuts` says. -/
def valueOfHalves (base : Nat) (digit : Char → Nat) : Nat → List Char → Nat
  | 0, cs => valueOfRow base digit cs
  | cuts + 1, cs =>
    let low := cs.drop (cs.length / 2)
    valueOfHalves base digit cuts (cs.take (cs.length / 2)) * Nat.pow base low.length +
      valueOfHalves base digit cuts low

/-- The value of a row of digits in the given base. Rows of up to about a thousand digits are read
in one go. -/
def positionalValue (base : Nat) (digit : Char → Nat) (cs : List Char) : Nat :=
  valueOfHalves base digit (cs.length.log2 - 9) cs

theorem foldl_eq_valueOfRow (base : Nat) (digit : Char → Nat) (cs : List Char) (start : Nat) :
    cs.foldl (fun n c => base * n + digit c) start =
      start * Nat.pow base cs.length + valueOfRow base digit cs := by
  induction cs generalizing start with
  | nil => exact (Nat.mul_one start).symm
  | cons c cs ih =>
    have hpow : Nat.pow base (c :: cs).length = Nat.pow base cs.length * base := rfl
    rw [valueOfRow, List.foldl_cons, List.foldl_cons, ih, ih (base * 0 + digit c), hpow,
      Nat.mul_zero, Nat.zero_add, Nat.add_mul, Nat.mul_comm base start, Nat.mul_assoc start,
      Nat.mul_comm base, Nat.add_assoc]

/-- Two rows one after the other: the first counts as much more as the second is long. -/
theorem valueOfRow_append (base : Nat) (digit : Char → Nat) (high low : List Char) :
    valueOfRow base digit (high ++ low) =
      valueOfRow base digit high * Nat.pow base low.length + valueOfRow base digit low := by
  rw [valueOfRow, List.foldl_append, foldl_eq_valueOfRow]
  rfl

theorem valueOfHalves_eq (base : Nat) (digit : Char → Nat) (cuts : Nat) (cs : List Char) :
    valueOfHalves base digit cuts cs = valueOfRow base digit cs := by
  induction cuts generalizing cs with
  | zero => rfl
  | succ cuts ih =>
    rw [valueOfHalves, ih, ih, ← valueOfRow_append, List.take_append_drop]

/-- Cutting a row does not change its value. -/
theorem positionalValue_eq (base : Nat) (digit : Char → Nat) (cs : List Char) :
    positionalValue base digit cs = valueOfRow base digit cs :=
  valueOfHalves_eq base digit _ cs

/-! ## Bounded numbers -/

/-- The number, if it is within the bound. -/
def within? (bound n : Nat) : Option Nat := if n ≤ bound then some n else none

/-- The value of a row of digits, read from the left, where no step may leave the bound: neither the
one that makes room for a digit nor the one that adds it. -/
def valueWithin? (bound base : Nat) (digit : Char → Nat) (cs : List Char) : Option Nat :=
  cs.foldlM (fun n c => do within? bound ((← within? bound (base * n)) + digit c)) 0

/-- A row never counts less than what was read before it. -/
theorem le_foldl_row {base : Nat} (hbase : 0 < base) (digit : Char → Nat) (cs : List Char)
    (start : Nat) : start ≤ cs.foldl (fun n c => base * n + digit c) start := by
  induction cs generalizing start with
  | nil => exact Nat.le_refl start
  | cons c cs ih =>
    have hmul := Nat.le_mul_of_pos_left start hbase
    have hrest := ih (base * start + digit c)
    rw [List.foldl_cons]
    omega

theorem within?_step (bound base n d : Nat) :
    (do within? bound ((← within? bound (base * n)) + d)) = within? bound (base * n + d) := by
  by_cases h : base * n ≤ bound
  · simp [within?, h]
  · have hsum : ¬ base * n + d ≤ bound := by omega
    simp [within?, h, hsum]

/-- From a number within the bound, the steps stay within it exactly when the last one does: no step
takes the number down. -/
theorem foldlM_within? {base : Nat} (hbase : 0 < base) {bound : Nat} (digit : Char → Nat)
    (cs : List Char) {start : Nat} (hstart : start ≤ bound) :
    cs.foldlM (fun n c => do within? bound ((← within? bound (base * n)) + digit c)) start =
      within? bound (cs.foldl (fun n c => base * n + digit c) start) := by
  induction cs generalizing start with
  | nil => simp [within?, hstart]
  | cons c cs ih =>
    rw [List.foldlM_cons, List.foldl_cons, within?_step]
    by_cases h : base * start + digit c ≤ bound
    · rw [within?, if_pos h]
      exact ih h
    · have hrest := le_foldl_row hbase digit cs (base * start + digit c)
      have hlarge : ¬ cs.foldl (fun n c => base * n + digit c) (base * start + digit c) ≤ bound := by
        omega
      rw [within?, if_neg h, within?, if_neg hlarge]
      rfl

/-- The steps stay within the bound exactly when the value does. -/
theorem valueWithin?_eq {base : Nat} (hbase : 0 < base) (bound : Nat) (digit : Char → Nat)
    (cs : List Char) :
    valueWithin? bound base digit cs = within? bound (valueOfRow base digit cs) :=
  foldlM_within? hbase digit cs (Nat.zero_le bound)

theorem valueWithin?_eq_some_iff {base : Nat} (hbase : 0 < base) {bound : Nat} {digit : Char → Nat}
    {cs : List Char} {n : Nat} :
    valueWithin? bound base digit cs = some n ↔ valueOfRow base digit cs = n ∧ n ≤ bound := by
  rw [valueWithin?_eq hbase, within?]
  by_cases h : valueOfRow base digit cs ≤ bound
  · simp only [h, if_true, Option.some.injEq]
    exact ⟨fun heq => ⟨heq, heq ▸ h⟩, And.left⟩
  · simp only [h, if_false, reduceCtorEq, false_iff]
    exact fun hn => h (hn.1 ▸ hn.2)

/-! ## Decimal digits -/

/-- The value of a decimal digit. -/
def digitValue (c : Char) : Nat := c.toNat - '0'.toNat

/-- The number that a row of decimal digits stands for. -/
def ofDigits (cs : List Char) : Nat := positionalValue 10 digitValue cs

theorem ofDigits_eq (cs : List Char) : ofDigits cs = Nat.ofDigitChars 10 cs 0 :=
  (positionalValue_eq 10 digitValue cs).trans Nat.ofDigitChars_eq_foldl.symm

end SheetScript.Number
