import Mathlib
import SheetScript.Text.Alphanumeric
import SheetScript.Text.Blank

/-!
# Classes of characters

The ASCII classes as intervals of character codes, from which the lemmas on tokens get that two
classes have no character in common. A token that is a run of one class ends where a character
outside the class stands.
-/

namespace SheetScript.Text

variable {c : Char}

theorem isUpper_iff : c.isUpper = true ↔ 65 ≤ c.toNat ∧ c.toNat ≤ 90 := by
  simp [Char.isUpper, UInt32.le_iff_toNat_le, ← Char.toNat_val]

theorem isLower_iff : c.isLower = true ↔ 97 ≤ c.toNat ∧ c.toNat ≤ 122 := by
  simp [Char.isLower, UInt32.le_iff_toNat_le, ← Char.toNat_val]

theorem isDigit_iff : c.isDigit = true ↔ 48 ≤ c.toNat ∧ c.toNat ≤ 57 := by
  simp [Char.isDigit, UInt32.le_iff_toNat_le, ← Char.toNat_val]

theorem isAlpha_iff :
    c.isAlpha = true ↔ (65 ≤ c.toNat ∧ c.toNat ≤ 90) ∨ (97 ≤ c.toNat ∧ c.toNat ≤ 122) := by
  rw [Char.isAlpha, Bool.or_eq_true, isUpper_iff, isLower_iff]

theorem isAlphanum_iff : c.isAlphanum = true ↔ c.isAlpha = true ∨ c.isDigit = true := by
  rw [Char.isAlphanum, Bool.or_eq_true]

theorem isAlpha_of_isUpper (h : c.isUpper = true) : c.isAlpha = true :=
  isAlpha_iff.2 (Or.inl (isUpper_iff.1 h))

theorem isAlpha_of_isDigit (h : c.isDigit = true) : c.isAlpha = false := by
  rw [isDigit_iff] at h
  rw [Bool.eq_false_iff, Ne, isAlpha_iff]
  omega

theorem isDigit_of_isAlpha (h : c.isAlpha = true) : c.isDigit = false := by
  rw [isAlpha_iff] at h
  rw [Bool.eq_false_iff, Ne, isDigit_iff]
  omega

theorem toLower_of_isDigit (h : c.isDigit = true) : c.toLower = c := by
  rw [isDigit_iff] at h
  rw [Char.toLower, dif_neg]
  intro hupper
  have hle : 65 ≤ c.toNat := UInt32.le_iff_toNat_le.1 hupper.1
  omega

theorem isBlank_of_ascii (hlow : 32 < c.toNat) (hhigh : c.toNat < 127) : isBlank c = false := by
  simp only [isBlank, Bool.or_eq_false_iff, Bool.and_eq_false_iff, decide_eq_false_iff_not,
    beq_eq_false_iff_ne]
  omega

theorem isBlank_of_isAlphanum (h : c.isAlphanum = true) : isBlank c = false := by
  rw [isAlphanum_iff, isAlpha_iff, isDigit_iff] at h
  apply isBlank_of_ascii <;> omega

theorem isAlphanum_of_isBlank (h : isBlank c = true) : c.isAlphanum = false := by
  by_contra hc
  rw [isBlank_of_isAlphanum (by simpa using hc)] at h
  cases h

theorem isDigit_of_isBlank (h : isBlank c = true) : c.isDigit = false := by
  have halphanum := isAlphanum_of_isBlank h
  rw [Char.isAlphanum, Bool.or_eq_false_iff] at halphanum
  exact halphanum.2

/-- The codes of the blanks, one by one. -/
def blankCodes : List Nat :=
  [0x09, 0x0A, 0x0B, 0x0C, 0x0D, 0x20, 0x85, 0xA0, 0x1680, 0x2000, 0x2001, 0x2002, 0x2003, 0x2004,
    0x2005, 0x2006, 0x2007, 0x2008, 0x2009, 0x200A, 0x2028, 0x2029, 0x202F, 0x205F, 0x3000]

theorem toNat_mem_blankCodes (h : isBlank c = true) : c.toNat ∈ blankCodes := by
  simp only [isBlank, Bool.or_eq_true, Bool.and_eq_true, decide_eq_true_eq, beq_iff_eq] at h
  simp only [blankCodes, List.mem_cons, List.not_mem_nil, or_false]
  omega

theorem isAlphanumeric_of_isBlank (h : isBlank c = true) : isAlphanumeric c = false := by
  have hranges : ∀ n ∈ blankCodes,
      (alphanumericRanges.any fun r => r.1 ≤ n && n ≤ r.2) = false := by
    decide +kernel
  unfold isAlphanumeric
  split
  · exact isAlphanum_of_isBlank h
  · exact hranges _ (toNat_mem_blankCodes h)

/-! ## Runs of one class -/

variable {p : Char → Bool} {run rest : List Char}

theorem takeWhile_append_of_stop (hrun : ∀ c ∈ run, p c = true)
    (hrest : ∀ c, rest.head? = some c → p c = false) : (run ++ rest).takeWhile p = run := by
  rw [List.takeWhile_append_of_pos hrun]
  cases rest with
  | nil => simp
  | cons c rest => simp [hrest c rfl]

theorem dropWhile_append_of_stop (hrun : ∀ c ∈ run, p c = true)
    (hrest : ∀ c, rest.head? = some c → p c = false) : (run ++ rest).dropWhile p = rest := by
  rw [List.dropWhile_append_of_pos hrun]
  cases rest with
  | nil => simp
  | cons c rest => simp [hrest c rfl]

theorem take_length_takeWhile (p : Char → Bool) (cs : List Char) :
    cs.take (cs.takeWhile p).length = cs.takeWhile p :=
  (List.prefix_iff_eq_take.1 (List.takeWhile_prefix p)).symm

theorem drop_length_takeWhile (p : Char → Bool) (cs : List Char) :
    cs.drop (cs.takeWhile p).length = cs.dropWhile p := by
  have h := @List.drop_left _ (cs.takeWhile p) (cs.dropWhile p)
  rwa [List.takeWhile_append_dropWhile] at h

/-- Behind a run of one class stands no character of it. -/
theorem not_of_head?_dropWhile {cs : List Char} (h : (cs.dropWhile p).head? = some c) :
    p c = false := by
  have hnot := List.head?_dropWhile_not p cs
  rw [h] at hnot
  simpa using hnot

theorem mem_dropWhile {cs : List Char} (hc : p c = false) (h : c ∈ cs) : c ∈ cs.dropWhile p := by
  rw [← @List.takeWhile_append_dropWhile _ p cs, List.mem_append] at h
  refine h.resolve_left fun hrun => ?_
  have := List.mem_takeWhile_imp hrun
  rw [hc] at this
  cases this

theorem mem_trim {cs : List Char} (hc : isBlank c = false) (h : c ∈ cs) : c ∈ trim cs := by
  rw [trim, trimEnd, List.mem_reverse]
  exact mem_dropWhile hc (List.mem_reverse.2 (mem_dropWhile hc h))

/-- Trimming takes away the blanks at the end, and then those at the start. -/
theorem trim_append_blanks {cs blanks : List Char}
    (hlast : ∀ c, cs.getLast? = some c → isBlank c = false)
    (hblanks : ∀ c ∈ blanks, isBlank c = true) : trim (cs ++ blanks) = trimStart cs := by
  have hend : ∀ rest : List Char, (∀ c, rest.getLast? = some c → isBlank c = false) →
      trimEnd (rest ++ blanks) = rest := by
    intro rest hrest
    rw [trimEnd, List.reverse_append, dropWhile_append_of_stop (by simpa using hblanks),
      List.reverse_reverse]
    simpa using hrest
  rw [trim, trimStart, trimStart, List.dropWhile_append]
  split_ifs with hempty
  · rw [List.isEmpty_iff.1 hempty, List.dropWhile_eq_nil_iff.2 hblanks]
    rfl
  · refine hend _ fun c hc => hlast c ?_
    obtain ⟨pre, hpre⟩ := List.dropWhile_suffix isBlank (l := cs)
    rw [← hpre, List.getLast?_append, hc, Option.some_or]

theorem takeWhile_append_cons (hc : p c = false)
    (cs tail : List Char) : (cs ++ c :: tail).takeWhile p = cs.takeWhile p := by
  induction cs with
  | nil => simp [hc]
  | cons d cs ih => simp only [List.cons_append, List.takeWhile_cons, ih]

theorem dropWhile_append_cons (hc : p c = false)
    (cs tail : List Char) : (cs ++ c :: tail).dropWhile p = cs.dropWhile p ++ c :: tail := by
  induction cs with
  | nil => simp [hc]
  | cons d cs ih =>
    simp only [List.cons_append, List.dropWhile_cons, ih]
    split <;> rfl

end SheetScript.Text
