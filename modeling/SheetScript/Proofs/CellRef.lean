import SheetScript.CellRef
import SheetScript.Proofs.Number.Numeral

/-!
# Cell names

The name of a cell is a row of capital letters and a row of digits (`exists_toChars_eq_cons`), and
it reads back as the cell (`ofChars?_toChars`). The letters of a column are its number in base
twenty-six with the digits one to twenty-six, so no two columns share their letters, and a number
has no other letters (`lettersOf_valueOfRow`).

A text that stands for a cell differs from the name of the cell in the case of its letters and in
zeros before the row, and in nothing else (`toChars_of_ofParts?`). So names and cells correspond one
to one (`names_one_to_one`).
-/

namespace SheetScript.CellRef

/-! ## Column letters -/

/-- The letter with the value `index + 1`. -/
def letter (index : Nat) : Char := Char.ofNat ('A'.toNat + index)

theorem letter_facts : ∀ index < 26, letterValue (letter index) = index + 1 ∧
    (letter index).isUpper = true := by
  decide

@[simp] theorem lettersOf_zero (tail : List Char) : lettersOf 0 tail = tail := by
  rw [lettersOf, if_pos rfl]

theorem lettersOf_succ (number : Nat) (tail : List Char) :
    lettersOf (number + 1) tail = lettersOf (number / 26) (letter (number % 26) :: tail) := by
  rw [lettersOf, if_neg (Nat.succ_ne_zero number)]
  rfl

theorem valueOfRow_lettersOf (number : Nat) (tail : List Char) :
    Number.valueOfRow 26 letterValue (lettersOf number tail) =
      number * 26 ^ tail.length + Number.valueOfRow 26 letterValue tail := by
  induction number using Nat.strong_induction_on generalizing tail with
  | _ number ih =>
    cases number with
    | zero => rw [lettersOf_zero, Nat.zero_mul, Nat.zero_add]
    | succ number =>
      have hmod : number % 26 < 26 := Nat.mod_lt _ (by decide)
      have hfirst : Number.valueOfRow 26 letterValue (letter (number % 26) :: tail) =
          (number % 26 + 1) * 26 ^ tail.length + Number.valueOfRow 26 letterValue tail := by
        have := Number.valueOfRow_append 26 letterValue [letter (number % 26)] tail
        rw [List.singleton_append] at this
        rw [this, ← (letter_facts _ hmod).1]
        simp [Number.valueOfRow]
      have hsplit := Nat.div_add_mod number 26
      rw [lettersOf_succ, ih (number / 26) (by omega), hfirst, List.length_cons]
      generalize number / 26 = high at hsplit ⊢
      calc high * 26 ^ (tail.length + 1) + ((number % 26 + 1) * 26 ^ tail.length +
            Number.valueOfRow 26 letterValue tail)
          = (26 * high + number % 26 + 1) * 26 ^ tail.length +
            Number.valueOfRow 26 letterValue tail := by ring
        _ = _ := by rw [hsplit]

theorem isUpper_lettersOf {number : Nat} {tail : List Char} (h : ∀ c ∈ tail, c.isUpper = true) :
    ∀ c ∈ lettersOf number tail, c.isUpper = true := by
  induction number using Nat.strong_induction_on generalizing tail with
  | _ number ih =>
    cases number with
    | zero => rwa [lettersOf_zero]
    | succ number =>
      rw [lettersOf_succ]
      apply ih (number / 26) (by omega)
      intro c hc
      rcases List.mem_cons.1 hc with rfl | hc
      · exact (letter_facts _ (Nat.mod_lt _ (by decide))).2
      · exact h c hc

theorem isUpper_columnLetters {col : Nat} : ∀ c ∈ columnLetters col, c.isUpper = true :=
  isUpper_lettersOf fun _ h => absurd h List.not_mem_nil

@[simp] theorem valueOfRow_columnLetters (col : Nat) :
    Number.valueOfRow 26 letterValue (columnLetters col) = col + 1 := by
  rw [columnLetters, valueOfRow_lettersOf]
  simp [Number.valueOfRow]

theorem columnLetters_ne_nil (col : Nat) : columnLetters col ≠ [] := by
  intro h
  have := valueOfRow_columnLetters col
  rw [h] at this
  cases this

theorem exists_letter_eq_toUpper {c : Char} (h : c.isAlpha = true) :
    ∃ index < 26, letterValue c = index + 1 ∧ letter index = c.toUpper := by
  rw [← Char.isUpper_toUpper_eq_isAlpha, Text.isUpper_iff] at h
  refine ⟨c.toUpper.toNat - 65, by omega, rfl, ?_⟩
  show Char.ofNat (65 + (c.toUpper.toNat - 65)) = c.toUpper
  rw [Nat.add_sub_cancel' h.1, Char.ofNat_toNat]

/-- A number has no other letters than those that stand for it, up to case: each letter is one more
than a remainder, so that the last letter and the number before it are known. -/
theorem lettersOf_valueOfRow {letters : List Char} (h : ∀ c ∈ letters, c.isAlpha = true)
    (tail : List Char) :
    lettersOf (Number.valueOfRow 26 letterValue letters) tail = letters.map Char.toUpper ++ tail := by
  induction letters using List.reverseRecOn generalizing tail with
  | nil => exact lettersOf_zero tail
  | append_singleton letters c ih =>
    obtain ⟨index, hindex, hvalue, hletter⟩ :=
      exists_letter_eq_toUpper (h c (List.mem_append_right _ List.mem_cons_self))
    have hsum : Number.valueOfRow 26 letterValue (letters ++ [c]) =
        26 * Number.valueOfRow 26 letterValue letters + index + 1 := by
      rw [Number.valueOfRow, List.foldl_append, ← Number.valueOfRow, List.foldl_cons, hvalue]
      rfl
    generalize Number.valueOfRow 26 letterValue letters = high at ih hsum
    have hdiv : (26 * high + index) / 26 = high := by omega
    have hmod : (26 * high + index) % 26 = index := by omega
    rw [hsum, lettersOf_succ, hdiv, hmod, hletter, ih fun d hd => h d (List.mem_append_left _ hd)]
    simp

theorem columnLetters_eq_map {letters : List Char} {col : Nat}
    (h : ∀ c ∈ letters, c.isAlpha = true)
    (hvalue : Number.valueOfRow 26 letterValue letters = col + 1) :
    columnLetters col = letters.map Char.toUpper := by
  rw [columnLetters, ← hvalue, lettersOf_valueOfRow h, List.append_nil]

/-! ## Names -/

/-- A cell of the sheet, whose column and row a name can give. -/
def InSheet (cell : CellRef) : Prop := cell.col < maxIndex ∧ cell.row < maxIndex

theorem InSheet.wrappingSucc_row {cell : CellRef} (h : cell.InSheet) :
    wrappingSucc cell.row = cell.row + 1 := Nat.mod_eq_of_lt (Nat.add_lt_of_lt_sub h.2)

/-- One or more letters and one or more digits. -/
structure LettersDigits (letters digits : List Char) : Prop where
  letters_ne_nil : letters ≠ []
  isAlpha : ∀ c ∈ letters, c.isAlpha = true
  digits_ne_nil : digits ≠ []
  isDigit : ∀ c ∈ digits, c.isDigit = true

theorem indexOf?_eq_some_iff {number index : Nat} :
    indexOf? number = some index ↔ number = index + 1 := by
  unfold indexOf?
  by_cases h : number = 0
  · simp [h]
  · simp only [h, if_false, Option.some.injEq]
    omega

/-- The parts of a name stand for the column and the row, and both are within the sheet. -/
theorem ofParts?_eq_some_iff {letters digits : List Char} {cell : CellRef} :
    ofParts? letters digits = some cell ↔
      Number.valueOfRow 26 letterValue letters = cell.col + 1 ∧
        Number.valueOfRow 10 Number.digitValue digits = cell.row + 1 ∧ cell.InSheet := by
  have hletters := @Number.valueWithin?_eq_some_iff 26 (by decide) maxIndex letterValue letters
  have hdigits := @Number.valueWithin?_eq_some_iff 10 (by decide) maxIndex Number.digitValue digits
  simp only [ofParts?, Option.bind_eq_bind, Option.bind_eq_some_iff, hletters, hdigits,
    indexOf?_eq_some_iff, Option.pure_def, Option.some.injEq]
  constructor
  · intro h
    obtain ⟨_, ⟨hcol, hcol'⟩, col, rfl, _, ⟨hrow, hrow'⟩, row, rfl, rfl⟩ := h
    exact ⟨hcol, hrow, hcol', hrow'⟩
  · intro h
    obtain ⟨hcol, hrow, hcol', hrow'⟩ := h
    exact ⟨_, ⟨hcol, hcol'⟩, _, rfl, _, ⟨hrow, hrow'⟩, _, rfl, rfl⟩

theorem exists_ofParts?_iff {letters digits : List Char} :
    (∃ cell, ofParts? letters digits = some cell) ↔
      1 ≤ Number.valueOfRow 26 letterValue letters ∧
        Number.valueOfRow 26 letterValue letters ≤ maxIndex ∧
        1 ≤ Number.valueOfRow 10 Number.digitValue digits ∧
        Number.valueOfRow 10 Number.digitValue digits ≤ maxIndex := by
  simp only [ofParts?_eq_some_iff, InSheet]
  constructor
  · intro h
    obtain ⟨cell, hcol, hrow, hcol', hrow'⟩ := h
    omega
  · intro h
    refine ⟨⟨Number.valueOfRow 26 letterValue letters - 1,
      Number.valueOfRow 10 Number.digitValue digits - 1⟩, ?_⟩
    dsimp only
    omega

/-- A name has one division into letters and digits. -/
theorem ofChars?_append {letters digits : List Char} (h : LettersDigits letters digits) :
    ofChars? (letters ++ digits) = ofParts? letters digits := by
  have hend : ∀ c, digits.head? = some c → c.isAlpha = false :=
    fun c hc => Text.isAlpha_of_isDigit (h.isDigit c (List.mem_of_mem_head? hc))
  have htake := Text.takeWhile_append_of_stop h.isAlpha hend
  have hdrop := Text.dropWhile_append_of_stop h.isAlpha hend
  have hall : digits.all Char.isDigit = true := List.all_eq_true.2 h.isDigit
  simp [ofChars?, htake, hdrop, hall, h.letters_ne_nil, h.digits_ne_nil]

theorem parse?_append {letters digits : List Char} (h : LettersDigits letters digits) :
    parse? (String.ofList (letters ++ digits)) = ofParts? letters digits := by
  rw [parse?, String.toList_ofList, ofChars?_append h]

theorem ofChars?_eq_some_iff {cs : List Char} {cell : CellRef} :
    ofChars? cs = some cell ↔
      ∃ letters digits, cs = letters ++ digits ∧ LettersDigits letters digits ∧
        ofParts? letters digits = some cell := by
  constructor
  · intro h
    unfold ofChars? at h
    dsimp only at h
    split_ifs at h with hshape
    simp only [Bool.or_eq_true, Bool.not_eq_true', not_or, List.isEmpty_iff,
      Bool.not_eq_false, List.all_eq_true] at hshape
    obtain ⟨⟨hletters, hdigits⟩, hall⟩ := hshape
    exact ⟨_, _, List.takeWhile_append_dropWhile.symm,
      ⟨hletters, fun c hc => List.mem_takeWhile_imp hc, hdigits, hall⟩, h⟩
  · intro h
    obtain ⟨letters, digits, rfl, hname, hparts⟩ := h
    rw [ofChars?_append hname, hparts]

theorem lettersDigits_toChars (cell : CellRef) :
    LettersDigits (columnLetters cell.col) (Nat.toDigits 10 (wrappingSucc cell.row)) where
  letters_ne_nil := columnLetters_ne_nil cell.col
  isAlpha c hc := Text.isAlpha_of_isUpper (isUpper_columnLetters c hc)
  digits_ne_nil := Nat.toDigits_ne_nil
  isDigit := Number.isDigit_toDigits

theorem ofChars?_toChars {cell : CellRef} (h : cell.InSheet) :
    ofChars? cell.toChars = some cell := by
  rw [toChars, ofChars?_append (lettersDigits_toChars cell), ofParts?_eq_some_iff,
    Number.valueOfRow_toDigits, h.wrappingSucc_row]
  exact ⟨valueOfRow_columnLetters cell.col, rfl, h⟩

theorem inSheet_of_parse? {text : String} {cell : CellRef} (h : parse? text = some cell) :
    cell.InSheet := by
  obtain ⟨letters, digits, -, -, hparts⟩ := ofChars?_eq_some_iff.1 h
  exact (ofParts?_eq_some_iff.1 hparts).2.2

/-- The name of a cell is any text that stands for it, in capital letters and without zeros in front
of the row. -/
theorem toChars_of_ofParts? {letters digits : List Char} {cell : CellRef}
    (h : LettersDigits letters digits) (hparts : ofParts? letters digits = some cell) :
    cell.toChars = letters.map Char.toUpper ++ digits.dropWhile (· == '0') := by
  obtain ⟨hcol, hrow, hsheet⟩ := ofParts?_eq_some_iff.1 hparts
  have hpos : 0 < Number.valueOfRow 10 Number.digitValue digits := by omega
  rw [toChars, columnLetters_eq_map h.isAlpha hcol, hsheet.wrappingSucc_row, ← hrow,
    Number.toDigits_valueOfRow h.isDigit hpos]

theorem parse?_name {cell : CellRef} (h : cell.InSheet) : parse? cell.name = some cell := by
  rw [parse?, name, String.toList_ofList, ofChars?_toChars h]

/-- The name of a cell in the last column reads back as no cell at all. -/
theorem parse?_name_eq_none {cell : CellRef} (h : maxIndex ≤ cell.col) :
    parse? cell.name = none := by
  rw [parse?, name, String.toList_ofList, toChars, ofChars?_append (lettersDigits_toChars cell)]
  cases hread : ofParts? (columnLetters cell.col) (Nat.toDigits 10 (wrappingSucc cell.row)) with
  | none => rfl
  | some read =>
    -- The letters stand for the column only, which is beyond the sheet.
    obtain ⟨hcol, -, hsheet⟩ := ofParts?_eq_some_iff.1 hread
    rw [valueOfRow_columnLetters] at hcol
    have := hsheet.1
    omega

theorem exists_toChars_eq_cons (cell : CellRef) :
    ∃ first rest, cell.toChars = first :: rest ∧ first.isUpper = true ∧
      ∀ c ∈ first :: rest, c.isUpper = true ∨ c.isDigit = true := by
  obtain ⟨first, rest, hcons⟩ := List.exists_cons_of_ne_nil (columnLetters_ne_nil cell.col)
  refine ⟨first, rest ++ Nat.toDigits 10 (wrappingSucc cell.row), ?_, ?_, ?_⟩
  · rw [toChars, hcons]
    rfl
  · exact isUpper_columnLetters first (hcons ▸ List.mem_cons_self)
  · intro c hc
    rw [← List.cons_append, ← hcons] at hc
    rcases List.mem_append.1 hc with hc | hc
    · exact Or.inl (isUpper_columnLetters c hc)
    · exact Or.inr (Number.isDigit_toDigits c hc)

/-! ## Main result -/

/-- **Names and cells correspond one to one.** The name of every cell of the sheet reads back as the
cell. A text reads as a cell exactly when it is one or more letters and one or more digits that
stand for numbers from one up to the largest of sixty-four bits; and then the name of that cell is
the text in capital letters, without zeros in front of the row. -/
theorem names_one_to_one :
    (∀ cell : CellRef, cell.col ≤ 2 ^ 64 - 2 → cell.row ≤ 2 ^ 64 - 2 →
      parse? cell.name = some cell) ∧
    (∀ text : String, (∃ cell, parse? text = some cell) ↔
      ∃ letters digits, text = String.ofList (letters ++ digits) ∧ LettersDigits letters digits ∧
        1 ≤ Number.valueOfRow 26 letterValue letters ∧
        Number.valueOfRow 26 letterValue letters ≤ 2 ^ 64 - 1 ∧
        1 ≤ Number.valueOfRow 10 Number.digitValue digits ∧
        Number.valueOfRow 10 Number.digitValue digits ≤ 2 ^ 64 - 1) ∧
    ∀ letters digits cell, LettersDigits letters digits →
      parse? (String.ofList (letters ++ digits)) = some cell →
      Number.valueOfRow 26 letterValue letters = cell.col + 1 ∧
        Number.valueOfRow 10 Number.digitValue digits = cell.row + 1 ∧
        cell.name = String.ofList (letters.map Char.toUpper ++ digits.dropWhile (· == '0')) := by
  have hmax : maxIndex = 2 ^ 64 - 1 := rfl
  refine ⟨?_, ?_, ?_⟩
  · intro cell hcol hrow
    apply parse?_name
    constructor <;> omega
  · intro text
    rw [← hmax]
    constructor
    · intro h
      obtain ⟨cell, hcell⟩ := h
      obtain ⟨letters, digits, htext, hname, hread⟩ := ofChars?_eq_some_iff.1 hcell
      refine ⟨letters, digits, ?_, hname, exists_ofParts?_iff.1 ⟨cell, hread⟩⟩
      rw [← htext, String.ofList_toList]
    · intro h
      obtain ⟨letters, digits, rfl, hname, hbounds⟩ := h
      rw [parse?_append hname]
      exact exists_ofParts?_iff.2 hbounds
  · intro letters digits cell hname hread
    rw [parse?_append hname] at hread
    obtain ⟨hcol, hrow, -⟩ := ofParts?_eq_some_iff.1 hread
    exact ⟨hcol, hrow, congrArg String.ofList (toChars_of_ofParts? hname hread)⟩

/-- The last cell of the sheet, and a text for the cell `AZ20` in small letters. -/
theorem names_one_to_one_lastCell :
    parse? (CellRef.name ⟨2 ^ 64 - 2, 2 ^ 64 - 2⟩) = some ⟨2 ^ 64 - 2, 2 ^ 64 - 2⟩ ∧
      ∃ cell, parse? "az0020" = some cell ∧ cell.name = "AZ20" := by
  obtain ⟨hname, hread, hcanonical⟩ := names_one_to_one
  have hparts : LettersDigits ['a', 'z'] ['0', '0', '2', '0'] :=
    ⟨List.cons_ne_nil _ _, List.all_eq_true.1 rfl, List.cons_ne_nil _ _, List.all_eq_true.1 rfl⟩
  obtain ⟨cell, hcell⟩ := (hread (String.ofList ['a', 'z', '0', '0', '2', '0'])).2
    ⟨['a', 'z'], ['0', '0', '2', '0'], rfl, hparts, by decide, by decide, by decide, by decide⟩
  obtain ⟨-, -, hcapital⟩ := hcanonical _ _ cell hparts hcell
  exact ⟨hname _ (by simp) (by simp), cell, hcell, hcapital⟩

end SheetScript.CellRef
