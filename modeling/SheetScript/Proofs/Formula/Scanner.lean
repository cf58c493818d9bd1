import SheetScript.Formula.Token
import SheetScript.Proofs.CellRef
import SheetScript.Proofs.Text.Slice

/-!
# Scanning formulas by byte positions

A `Scanner` finds the tokens of a formula by byte positions. It cuts the formula where a run of
characters ends, looks one character ahead, and takes one byte for the digit or minus sign at the
start of a number. Each cut could be a `Fault`.

`Scanner.drain_behind`: none is. From every position at which a text ends that stands before it, the
scanner finds the tokens that `scan` finds, with their offsets, and comes to the end.
-/

namespace SheetScript.Formula

open Text (Fault slice sliceFrom sliceFrom_append slice_append isBlank)
open String (utf8Len)

/-! ## Scanning by byte positions -/

/-- A byte position in a formula, and whether an operand stands before it. -/
structure Scanner where
  pos : Nat := 0
  afterOperand : Bool := false

namespace Scanner

/-- The position at which a run of characters ends that starts at a position. -/
def runEnd (p : Char → Bool) (text : String) (start : Nat) : Except Fault Nat := do
  return start + utf8Len ((← sliceFrom text start).toList.takeWhile p)

/-- The character at a position. -/
def peek? (text : String) (pos : Nat) : Except Fault (Option Char) := do
  return (← sliceFrom text pos).toList.head?

/-- Capital letters followed by digits that name a cell of the sheet. -/
def namesCell (text : String) : Except Fault Bool := do
  let size := utf8Len (text.toList.takeWhile Char.isUpper)
  if 0 < size ∧ size < text.utf8ByteSize then
    let digits ← sliceFrom text size
    return digits.toList.all Char.isDigit && (CellRef.parse? text).isSome
  else return false

/-- The kind of the token that starts with `c` at a position, and the position at which it ends. -/
def classify (text : String) (afterOperand : Bool) (c : Char) (start : Nat) :
    Except Fault (TokenKind × Nat) := do
  let following ← peek? text (start + c.utf8Size)
  if c.isDigit || (c == '-' && following.any Char.isDigit && !afterOperand) then
    let stop ← runEnd isNumberChar text (start + 1)
    let points := (← slice text start stop).toList.count '.'
    return (if points ≤ 1 then .number else .malformed, stop)
  else if c.isAlpha then
    let stop ← runEnd isWordChar text start
    return (if ← namesCell (← slice text start stop) then .cell else .word, stop)
  else
    let stop := start + c.utf8Size
    if c == '(' then return (.leftParenthesis, stop)
    else if c == ')' then return (.rightParenthesis, stop)
    else if c == ',' then return (.comma, stop)
    else if (Operator.ofSymbol? c).isSome && following.any mayFollowOperator then
      return (.operator, stop)
    else return (.malformed, stop)

/-- The next token, or nothing at the end of the formula, and the scanner behind it. -/
def next (text : String) (s : Scanner) : Except Fault (Option Token × Scanner) := do
  let start ← runEnd isBlank text s.pos
  match ← peek? text start with
  | none => return (none, ⟨start, false⟩)
  | some c =>
    let (kind, stop) ← classify text s.afterOperand c start
    return (some ⟨kind, ← slice text start stop, start⟩, ⟨stop, kind.endsOperand⟩)

/-- The tokens up to the end of the formula, and where it ends. There may be no more than the given
number of calls. -/
def drain (text : String) (s : Scanner) : (calls : Nat) → Except Fault (List Token × Nat)
  | 0 => .error .unfinished
  | calls + 1 => do
    match ← s.next text with
    | (none, after) => return ([], after.pos)
    | (some token, after) =>
      let (tokens, stop) ← after.drain text calls
      return (token :: tokens, stop)

end Scanner

/-- The tokens of a formula by byte positions, and where it ends. -/
def tokenize (text : String) : Except Fault (List Token × Nat) :=
  ({} : Scanner).drain text (text.utf8ByteSize + 1)

/-! ## The tokens from a position on -/

variable {afterOperand : Bool} {c : Char} {before cs rest : List Char}

/-- The tokens of a text that starts at the given offset. -/
def tokensFrom (offset : Nat) (afterOperand : Bool) (cs : List Char) : List Token :=
  scanFrom offset afterOperand cs []

theorem byteCount_eq (cs : List Char) : byteCount cs = utf8Len cs := by
  have hfold : ∀ size, cs.foldl (fun size c => size + c.utf8Size) size = size + utf8Len cs := by
    induction cs with
    | nil => exact fun size => rfl
    | cons c cs ih =>
      intro size
      rw [List.foldl_cons, ih, String.utf8Len_cons]
      omega
  rw [byteCount, hfold, Nat.zero_add]

theorem scanFrom_eq_append (offset : Nat) (afterOperand : Bool) (cs : List Char)
    (found : List Token) :
    scanFrom offset afterOperand cs found = found.reverse ++ tokensFrom offset afterOperand cs := by
  induction h : cs.length using Nat.strong_induction_on
    generalizing offset afterOperand cs found with
  | h n ih =>
    subst h
    rw [tokensFrom, scanFrom, scanFrom]
    split
    next => simp
    next c rest hcs =>
      have hshorter : (rest.drop (classify afterOperand c rest).2).length < cs.length := by
        have := (List.dropWhile_suffix isBlank (l := cs)).length_le
        rw [hcs, List.length_cons] at this
        rw [List.length_drop]
        omega
      dsimp only
      rw [ih _ hshorter _ _ _ _ rfl, ih _ hshorter _ _ _ [_] rfl]
      simp

theorem tokensFrom_of_blanks {blanks : List Char} (h : ∀ c ∈ blanks, isBlank c = true)
    (offset : Nat) (afterOperand : Bool) : tokensFrom offset afterOperand blanks = [] := by
  rw [tokensFrom, scanFrom]
  split
  next => rfl
  next hcons => rw [List.dropWhile_eq_nil_iff.2 h] at hcons; cases hcons

theorem tokensFrom_of_cons {blanks : List Char} (h : ∀ c ∈ blanks, isBlank c = true)
    (hc : isBlank c = false) (offset : Nat) (afterOperand : Bool) (rest : List Char) :
    tokensFrom offset afterOperand (blanks ++ c :: rest) =
      let (kind, size) := classify afterOperand c rest
      let start := offset + utf8Len blanks
      ⟨kind, String.ofList (c :: rest.take size), start⟩ ::
        tokensFrom (start + utf8Len (c :: rest.take size)) kind.endsOperand (rest.drop size) := by
  have hstop : ∀ d, (c :: rest).head? = some d → isBlank d = false := by
    rintro d ⟨⟩
    exact hc
  have htake := Text.takeWhile_append_of_stop h hstop
  have hdrop := Text.dropWhile_append_of_stop h hstop
  rw [tokensFrom, scanFrom]
  split
  next hnil => rw [hdrop] at hnil; cases hnil
  next hcons =>
    rw [hdrop] at hcons
    cases hcons
    dsimp only
    rw [scanFrom_eq_append, htake, byteCount_eq, byteCount_eq]
    rfl

theorem blanks_or_exists_cons (cs : List Char) :
    (∀ c ∈ cs, isBlank c = true) ∨
      ∃ blanks c rest, cs = blanks ++ c :: rest ∧ (∀ d ∈ blanks, isBlank d = true) ∧
        isBlank c = false := by
  cases h : cs.dropWhile isBlank with
  | nil => exact .inl (List.dropWhile_eq_nil_iff.1 h)
  | cons c rest =>
    have hhead : (cs.dropWhile isBlank).head? = some c := by
      rw [h]
      rfl
    refine .inr ⟨cs.takeWhile isBlank, c, rest, ?_, fun d hd => List.mem_takeWhile_imp hd,
      Text.not_of_head?_dropWhile hhead⟩
    rw [← h, List.takeWhile_append_dropWhile]

/-! ## The scanner finds the tokens -/

theorem isCellName_iff :
    isCellName cs = true ↔
      cs.takeWhile Char.isUpper ≠ [] ∧ cs.dropWhile Char.isUpper ≠ [] ∧
        (cs.dropWhile Char.isUpper).all Char.isDigit = true ∧
        (CellRef.ofChars? cs).isSome = true := by
  rw [isCellName, Bool.and_eq_true, List.all_eq_true]
  constructor
  · rintro ⟨hall, hread⟩
    obtain ⟨cell, hcell⟩ := Option.isSome_iff_exists.1 hread
    obtain ⟨letters, digits, rfl, hname, -⟩ := CellRef.ofChars?_eq_some_iff.1 hcell
    have hupper : ∀ c ∈ letters, c.isUpper = true := by
      intro c hc
      have h := hall c (List.mem_append_left digits hc)
      rwa [Text.isDigit_of_isAlpha (hname.isAlpha c hc), Bool.or_false] at h
    have hstop : ∀ c, digits.head? = some c → c.isUpper = false := by
      intro c hc
      have hdigit := Text.isAlpha_of_isDigit (hname.isDigit c (List.mem_of_mem_head? hc))
      rw [Bool.eq_false_iff]
      intro h
      rw [Text.isAlpha_of_isUpper h] at hdigit
      cases hdigit
    rw [Text.takeWhile_append_of_stop hupper hstop, Text.dropWhile_append_of_stop hupper hstop]
    exact ⟨hname.letters_ne_nil, hname.digits_ne_nil, List.all_eq_true.2 hname.isDigit, hread⟩
  · rintro ⟨-, -, hdigits, hread⟩
    refine ⟨fun c hc => ?_, hread⟩
    rw [← @List.takeWhile_append_dropWhile _ Char.isUpper cs, List.mem_append] at hc
    rw [Bool.or_eq_true]
    exact hc.imp (fun h => List.mem_takeWhile_imp h) (fun h => List.all_eq_true.1 hdigits c h)

namespace Scanner

theorem runEnd_eq (p : Char → Bool) (before cs : List Char) :
    runEnd p (String.ofList (before ++ cs)) (utf8Len before) =
      .ok (utf8Len before + utf8Len (cs.takeWhile p)) := by
  rw [runEnd, sliceFrom_append]
  simp only [bind, Except.bind, String.toList_ofList]
  rfl

theorem peek?_eq (before cs : List Char) :
    peek? (String.ofList (before ++ cs)) (utf8Len before) = .ok cs.head? := by
  rw [peek?, sliceFrom_append]
  simp only [bind, Except.bind, String.toList_ofList]
  rfl

theorem namesCell_eq (cs : List Char) : namesCell (String.ofList cs) = .ok (isCellName cs) := by
  have hdigits := sliceFrom_append (cs.takeWhile Char.isUpper) (cs.dropWhile Char.isUpper)
  have hsize : utf8Len (cs.takeWhile Char.isUpper) + utf8Len (cs.dropWhile Char.isUpper) =
      utf8Len cs := by
    rw [← String.utf8Len_append, List.takeWhile_append_dropWhile]
  rw [List.takeWhile_append_dropWhile] at hdigits
  have hcut : (0 < utf8Len (cs.takeWhile Char.isUpper) ∧
      utf8Len (cs.takeWhile Char.isUpper) < utf8Len cs) ↔
      cs.takeWhile Char.isUpper ≠ [] ∧ cs.dropWhile Char.isUpper ≠ [] := by
    rw [Ne, Ne, ← String.utf8Len_eq_zero, ← String.utf8Len_eq_zero]
    omega
  have hname := @isCellName_iff cs
  rw [← and_assoc, ← hcut] at hname
  rw [namesCell, String.toList_ofList, String.utf8ByteSize_ofList]
  simp only [bind, Except.bind, hdigits]
  split
  next hparts =>
    rw [and_iff_right hparts, ← Bool.and_eq_true, ← Bool.eq_iff_iff] at hname
    rw [hname, String.toList_ofList, CellRef.parse?, String.toList_ofList]
    rfl
  next hparts =>
    rw [Bool.eq_false_iff.2 fun h => hparts (hname.1 h).1]
    rfl

theorem slice_piece (before : List Char) {piece : List Char} (hcs : cs = piece ++ rest) :
    slice (String.ofList (before ++ cs)) (utf8Len before) (utf8Len before + utf8Len piece) =
      .ok (String.ofList piece) := by
  rw [hcs]
  exact slice_append before piece rest

/-- What starts a number is one byte, and no point. -/
theorem numberStart_facts {following : Bool}
    (h : (c.isDigit || (c == '-' && following && !afterOperand)) = true) :
    c.utf8Size = 1 ∧ c ≠ '.' := by
  by_cases hdigit : c.isDigit = true
  · have hcode := Text.isDigit_iff.1 hdigit
    constructor
    · rw [Char.utf8Size_eq_one_iff, UInt32.le_iff_toNat_le]
      show c.toNat ≤ 127
      omega
    · rintro rfl
      exact absurd hdigit (by decide)
  · simp only [hdigit, Bool.false_or, Bool.and_eq_true, beq_iff_eq] at h
    obtain rfl := h.1.1
    exact ⟨rfl, by decide⟩

/-- A token ends at the same place for the scanner as for `scan`. -/
theorem classify_eq (before : List Char) (afterOperand : Bool) (c : Char) (rest : List Char) :
    classify (String.ofList (before ++ c :: rest)) afterOperand c (utf8Len before) =
      .ok ((Formula.classify afterOperand c rest).1,
        utf8Len before + utf8Len (c :: rest.take (Formula.classify afterOperand c rest).2)) := by
  have hbehind : before ++ c :: rest = before ++ [c] ++ rest := by rw [List.append_assoc]; rfl
  have hsize : utf8Len (before ++ [c]) = utf8Len before + c.utf8Size := by
    rw [String.utf8Len_append, String.utf8Len_cons, String.utf8Len_nil, Nat.zero_add]
  have hpeek := peek?_eq (before ++ [c]) rest
  rw [hsize, ← hbehind] at hpeek
  rw [classify, hpeek, Formula.classify]
  simp only [bind, Except.bind]
  split
  next hnumber =>
    -- The run of a number starts behind its first character, which is one byte; a word's starts
    -- with it.
    obtain ⟨hone, hpoint⟩ := numberStart_facts hnumber
    have hrun := runEnd_eq isNumberChar (before ++ [c]) rest
    have hstop : utf8Len before + 1 + utf8Len (rest.takeWhile isNumberChar) =
        utf8Len before + utf8Len (c :: rest.takeWhile isNumberChar) := by
      rw [String.utf8Len_cons, hone]
      omega
    rw [hsize, ← hbehind, hone, hstop] at hrun
    have hpiece := slice_piece before
      (show c :: rest = c :: rest.takeWhile isNumberChar ++ rest.dropWhile isNumberChar by simp)
    rw [hrun]
    simp only [hpiece, String.toList_ofList, List.count_cons_of_ne hpoint,
      Text.take_length_takeWhile]
    rfl
  split
  next hword =>
    have hrun := runEnd_eq isWordChar before (c :: rest)
    have hfirst : isWordChar c = true := by
      rw [isWordChar, Char.isAlphanum, hword]
      rfl
    rw [List.takeWhile_cons_of_pos hfirst] at hrun
    have hpiece := slice_piece before
      (show c :: rest = c :: rest.takeWhile isWordChar ++ rest.dropWhile isWordChar by simp)
    rw [hrun]
    simp only [hpiece, namesCell_eq, Text.take_length_takeWhile]
    rfl
  next =>
    have hone : utf8Len before + c.utf8Size = utf8Len before + utf8Len [c] := by
      rw [← hsize, String.utf8Len_append]
    rw [hone]
    split_ifs <;> rfl

/-- The scanner behind a text. -/
def behind (before : List Char) (afterOperand : Bool) : Scanner := ⟨utf8Len before, afterOperand⟩

theorem next_of_blanks {blanks : List Char} (h : ∀ c ∈ blanks, isBlank c = true)
    (before : List Char) (afterOperand : Bool) :
    (behind before afterOperand).next (String.ofList (before ++ blanks)) =
      .ok (none, behind (before ++ blanks) false) := by
  have hrun := runEnd_eq isBlank before blanks
  have hpeek := peek?_eq (before ++ blanks) []
  rw [List.takeWhile_eq_self_iff.2 h, ← String.utf8Len_append] at hrun
  rw [List.append_nil] at hpeek
  rw [next, behind, hrun]
  simp only [bind, Except.bind, hpeek]
  rfl

theorem next_of_cons {blanks : List Char} (h : ∀ c ∈ blanks, isBlank c = true)
    (hc : isBlank c = false) (before : List Char) (afterOperand : Bool) (rest : List Char) :
    (behind before afterOperand).next (String.ofList (before ++ (blanks ++ c :: rest))) =
      let (kind, size) := Formula.classify afterOperand c rest
      let chars := c :: rest.take size
      .ok (some ⟨kind, String.ofList chars, utf8Len (before ++ blanks)⟩,
        behind (before ++ blanks ++ chars) kind.endsOperand) := by
  have hrun := runEnd_eq isBlank before (blanks ++ c :: rest)
  have hstop : ∀ d, (c :: rest).head? = some d → isBlank d = false := by
    rintro d ⟨⟩
    exact hc
  rw [Text.takeWhile_append_of_stop h hstop, ← String.utf8Len_append] at hrun
  have hpeek := peek?_eq (before ++ blanks) (c :: rest)
  have hclassify := classify_eq (before ++ blanks) afterOperand c rest
  have hpiece := slice_piece (before ++ blanks)
    (show c :: rest = c :: rest.take (Formula.classify afterOperand c rest).2 ++
      rest.drop (Formula.classify afterOperand c rest).2 by simp)
  rw [List.append_assoc] at hpeek hclassify hpiece
  rw [next, behind, hrun]
  simp only [bind, Except.bind, hpeek, List.head?_cons, hclassify, hpiece]
  rw [behind, String.utf8Len_append _ (c :: _)]
  rfl

/-- From every position in a formula, the scanner finds the tokens of the rest, and no fault. -/
theorem drain_behind (before : List Char) (afterOperand : Bool) (cs : List Char) {calls : Nat}
    (hcalls : cs.length < calls) :
    (behind before afterOperand).drain (String.ofList (before ++ cs)) calls =
      .ok (tokensFrom (utf8Len before) afterOperand cs, utf8Len (before ++ cs)) := by
  -- Along the tokens, each of which takes a character.
  induction h : cs.length using Nat.strong_induction_on
    generalizing before afterOperand cs calls with
  | h n ih =>
    subst h
    obtain ⟨calls, rfl⟩ := Nat.exists_eq_add_one_of_ne_zero (Nat.ne_zero_of_lt hcalls)
    rw [drain]
    rcases blanks_or_exists_cons cs with hblanks | ⟨blanks, c, rest, rfl, hblanks, hc⟩
    · rw [next_of_blanks hblanks, tokensFrom_of_blanks hblanks]
      rfl
    · rw [next_of_cons hblanks hc, tokensFrom_of_cons hblanks hc]
      generalize Formula.classify afterOperand c rest = found
      obtain ⟨kind, size⟩ := found
      have hrest : (rest.drop size).length < (blanks ++ c :: rest).length := by
        rw [List.length_drop, List.length_append, List.length_cons]
        omega
      have hcs : before ++ (blanks ++ c :: rest) =
          before ++ blanks ++ (c :: rest.take size) ++ rest.drop size := by simp
      have hdrain := ih _ hrest (before ++ blanks ++ (c :: rest.take size)) kind.endsOperand
        (rest.drop size) (show (rest.drop size).length < calls by omega) rfl
      rw [← hcs] at hdrain
      simp only [bind, Except.bind, hdrain]
      rw [String.utf8Len_append _ (c :: _), String.utf8Len_append before blanks]
      rfl

end Scanner

end SheetScript.Formula
