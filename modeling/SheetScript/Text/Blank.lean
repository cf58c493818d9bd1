/-!
# Blank characters

A character is *blank* when it has the Unicode property White_Space. Cells, formulas and
expressions skip blanks; the command language separates words by its own, smaller set.

`trim` removes the blanks at both ends of a text. Its result neither starts nor ends with a blank
(`trim_head_not_blank`, `trim_last_not_blank`).
-/

namespace SheetScript.Text

/-- The twenty-five characters with the property White_Space. -/
def isBlank (c : Char) : Bool :=
  let n := c.toNat
  (0x09 ≤ n && n ≤ 0x0D) || n == 0x20 || n == 0x85 || n == 0xA0 || n == 0x1680
    || (0x2000 ≤ n && n ≤ 0x200A) || n == 0x2028 || n == 0x2029 || n == 0x202F || n == 0x205F
    || n == 0x3000

/-- A text without the blanks at its start. -/
def trimStart (cs : List Char) : List Char := cs.dropWhile isBlank

/-- A text without the blanks at its end. -/
def trimEnd (cs : List Char) : List Char := (cs.reverse.dropWhile isBlank).reverse

/-- A text without the blanks at both ends. -/
def trim (cs : List Char) : List Char := trimEnd (trimStart cs)

theorem trimStart_head_not_blank {cs : List Char} {c : Char}
    (h : (trimStart cs).head? = some c) : isBlank c = false := by
  unfold trimStart at h
  have := List.head?_dropWhile_not isBlank cs
  rw [h] at this
  simpa using this

theorem trimEnd_last_not_blank {cs : List Char} {c : Char}
    (h : (trimEnd cs).getLast? = some c) : isBlank c = false := by
  unfold trimEnd at h
  rw [List.getLast?_reverse] at h
  exact trimStart_head_not_blank h

theorem trim_last_not_blank {cs : List Char} {c : Char}
    (h : (trim cs).getLast? = some c) : isBlank c = false :=
  trimEnd_last_not_blank h

/-- Trimming the end leaves a prefix. -/
theorem trimEnd_isPrefix (cs : List Char) : trimEnd cs <+: cs := by
  have := List.dropWhile_suffix isBlank (l := cs.reverse)
  rw [← List.reverse_prefix] at this
  simpa [trimEnd] using this

theorem trim_head_not_blank {cs : List Char} {c : Char}
    (h : (trim cs).head? = some c) : isBlank c = false := by
  obtain ⟨t, ht⟩ := trimEnd_isPrefix (trimStart cs)
  apply @trimStart_head_not_blank cs
  rw [← ht]
  unfold trim at h
  cases hu : trimEnd (trimStart cs) with
  | nil => simp [hu] at h
  | cons a l => simpa [hu] using h

theorem trimStart_eq_self {cs : List Char} (h : ∀ c, cs.head? = some c → isBlank c = false) :
    trimStart cs = cs := by
  cases cs with
  | nil => rfl
  | cons c cs => simp [trimStart, h c rfl]

/-- A text without blanks at its ends stays as it is. -/
theorem trim_eq_self {cs : List Char} (hhead : ∀ c, cs.head? = some c → isBlank c = false)
    (hlast : ∀ c, cs.getLast? = some c → isBlank c = false) : trim cs = cs := by
  have hreverse : trimStart cs.reverse = cs.reverse := by
    apply trimStart_eq_self
    intro c hc
    rw [List.head?_reverse] at hc
    exact hlast c hc
  rw [trim, trimStart_eq_self hhead, trimEnd, ← trimStart, hreverse, List.reverse_reverse]

/-- Trimming twice is trimming once. -/
@[simp] theorem trim_trim (cs : List Char) : trim (trim cs) = trim cs :=
  trim_eq_self (fun _ => trim_head_not_blank) fun _ => trim_last_not_blank

/-- Trimming makes no text longer. -/
theorem length_trim_le (cs : List Char) : (trim cs).length ≤ cs.length :=
  Nat.le_trans (trimEnd_isPrefix _).length_le (List.dropWhile_suffix _).length_le

end SheetScript.Text
