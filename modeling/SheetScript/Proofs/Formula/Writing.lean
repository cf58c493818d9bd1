import SheetScript.Proofs.CellRef
import SheetScript.Proofs.Formula.Lexeme
import SheetScript.Proofs.Formula.Tree

/-!
# The text of a formula

The text of a tree is cut into the lexemes of the tree, wherever it stands and whatever follows, as
long as no operand stands before it and what follows ends a number and a word
(`lexemes_chars`). Blanks stand around operators, so a minus sign is never taken for the sign of the
number behind it; a range has no blanks, but its sign stands after an operand.
-/

namespace SheetScript.Formula

/-- Nodes that can be written: their numbers have digits and their cells have names. -/
structure Writable (nodes : List Node) : Prop where
  isFinite : ∀ value, .constant value ∈ nodes → Number.isFinite value = true
  inSheet : ∀ ref, .cell ref ∈ nodes → ref.InSheet

theorem Writable.left {front back : List Node} (h : Writable (front ++ back)) : Writable front :=
  ⟨fun value hvalue => h.isFinite value (List.mem_append_left back hvalue),
    fun ref href => h.inSheet ref (List.mem_append_left back href)⟩

theorem Writable.right {front back : List Node} (h : Writable (front ++ back)) : Writable back :=
  ⟨fun value hvalue => h.isFinite value (List.mem_append_right front hvalue),
    fun ref href => h.inSheet ref (List.mem_append_right front href)⟩

namespace Tree

/-- The tree is a range. -/
def isRange : Tree → Bool
  | operation .range _ _ => true
  | _ => false

/-- The characters of the text of a tree. -/
def chars : Tree → List Char
  | constant value => (Number.format .plain value).toList
  | cell ref => ref.toChars
  | operation .range lhs rhs =>
    lhs.chars ++ ':' :: (if rhs.isRange then '(' :: (rhs.chars ++ [')']) else rhs.chars)
  | operation op lhs rhs =>
    '(' :: (lhs.chars ++ ' ' :: op.symbol :: ' ' :: (rhs.chars ++ [')']))
  | aggregate kind argument =>
    (Function.aggregate kind).name.toList ++ '(' :: (argument.chars ++ [')'])
  | extremum kind lhs rhs =>
    (Function.extremum kind).name.toList ++
      '(' :: (lhs.chars ++ ',' :: ' ' :: (rhs.chars ++ [')']))

theorem isRange_operation {op : Operator} (h : op ≠ .range) (lhs rhs : Tree) :
    (operation op lhs rhs).isRange = false := by
  cases op with
  | range => exact absurd rfl h
  | _ => rfl

theorem chars_operation {op : Operator} (h : op ≠ .range) (lhs rhs : Tree) :
    (operation op lhs rhs).chars =
      '(' :: (lhs.chars ++ ' ' :: op.symbol :: ' ' :: (rhs.chars ++ [')'])) := by
  cases op with
  | range => exact absurd rfl h
  | _ => rfl

theorem fragment_isRange (t : Tree) : t.fragment.isRange = t.isRange := by
  cases t with
  | operation op lhs rhs => cases op <;> rfl
  | _ => rfl

theorem toList_fragment_text (t : Tree) : t.fragment.text.toList = t.chars := by
  induction t with
  | constant value => rfl
  | cell ref => exact String.toList_ofList
  | operation op lhs rhs ihl ihr =>
    cases op with
    | range =>
      rw [fragment, Fragment.join, fragment_isRange, chars]
      cases rhs.isRange <;> simp [toString, ihl, ihr]
    | _ => simp [toString, fragment, Fragment.join, chars, ihl, ihr, Operator.symbol]
  | aggregate kind argument ih => simp [toString, fragment, chars, ih]
  | extremum kind lhs rhs ihl ihr => simp [toString, fragment, chars, ihl, ihr]

/-! ## Both ends of the text -/

theorem not_blank_of_isDigit {c : Char} (h : c.isDigit = true) : Text.isBlank c = false :=
  Text.isBlank_of_isAlphanum (Text.isAlphanum_iff.2 (Or.inr h))

theorem not_blank_of_isUpper {c : Char} (h : c.isUpper = true) : Text.isBlank c = false :=
  Text.isBlank_of_isAlphanum (Text.isAlphanum_iff.2 (Or.inl (Text.isAlpha_of_isUpper h)))

theorem not_blank_of_mem_format {value : Float} (h : Number.isFinite value = true) :
    ∀ c ∈ (Number.format .plain value).toList, Text.isBlank c = false := by
  obtain ⟨first, tail, htext, hfirst, htail, -⟩ := Number.exists_format_eq_cons h
  rw [htext, List.forall_mem_cons]
  constructor
  · rcases hfirst with hfirst | ⟨rfl, -⟩
    · exact not_blank_of_isDigit hfirst
    · decide
  · intro c hc
    rcases htail c hc with hc | rfl
    · exact not_blank_of_isDigit hc
    · decide

theorem not_blank_of_mem_toChars (ref : CellRef) : ∀ c ∈ ref.toChars, Text.isBlank c = false := by
  obtain ⟨first, tail, htext, -, hall⟩ := CellRef.exists_toChars_eq_cons ref
  intro c hc
  rcases hall c (htext ▸ hc) with hc | hc
  · exact not_blank_of_isUpper hc
  · exact not_blank_of_isDigit hc

/-- The text of a tree begins with a character that may follow an operator, but with no blank. -/
theorem exists_chars_eq_cons {t : Tree} (h : Writable t.postorder) :
    ∃ c cs, t.chars = c :: cs ∧ mayFollowOperator c = true ∧ Text.isBlank c = false := by
  induction t with
  | constant value =>
    have hfinite := h.isFinite value List.mem_cons_self
    obtain ⟨c, tail, htext, hc, -⟩ := Number.exists_format_eq_cons hfinite
    have hblank := not_blank_of_mem_format hfinite c (htext ▸ List.mem_cons_self)
    refine ⟨c, tail, htext, ?_, hblank⟩
    rcases hc with hc | ⟨rfl, -⟩
    · simp [mayFollowOperator, Text.isAlphanum_iff.2 (Or.inr hc)]
    · decide
  | cell ref =>
    obtain ⟨c, tail, htext, hc, -⟩ := CellRef.exists_toChars_eq_cons ref
    have halpha := Text.isAlpha_of_isUpper hc
    refine ⟨c, tail, htext, ?_, not_blank_of_isUpper hc⟩
    simp [mayFollowOperator, Text.isAlphanum_iff.2 (Or.inl halpha)]
  | operation op lhs rhs ihl ihr =>
    cases op with
    | range =>
      obtain ⟨c, cs, htext, hc⟩ := ihl h.left.left
      exact ⟨c, _, by rw [chars, htext]; rfl, hc⟩
    | _ => exact ⟨'(', _, rfl, by decide, by decide⟩
  | aggregate kind argument ih => cases kind <;> exact ⟨_, _, rfl, by decide, by decide⟩
  | extremum kind lhs rhs ihl ihr => cases kind <;> exact ⟨_, _, rfl, by decide, by decide⟩

theorem exists_eq_concat {cs : List Char} (hne : cs ≠ [])
    (h : ∀ c ∈ cs, Text.isBlank c = false) :
    ∃ front c, cs = front ++ [c] ∧ Text.isBlank c = false :=
  ⟨cs.dropLast, cs.getLast hne, (List.dropLast_concat_getLast hne).symm,
    h _ (List.getLast_mem hne)⟩

/-- The text of a tree ends with a character that is not blank. -/
theorem exists_chars_eq_concat {t : Tree} (h : Writable t.postorder) :
    ∃ front c, t.chars = front ++ [c] ∧ Text.isBlank c = false := by
  induction t with
  | constant value =>
    have hfinite := h.isFinite value List.mem_cons_self
    obtain ⟨first, tail, htext, -⟩ := Number.exists_format_eq_cons hfinite
    have hne : (Number.format .plain value).toList ≠ [] := htext ▸ List.cons_ne_nil first tail
    exact exists_eq_concat hne (not_blank_of_mem_format hfinite)
  | cell ref =>
    obtain ⟨first, tail, htext, -⟩ := CellRef.exists_toChars_eq_cons ref
    have hne : ref.toChars ≠ [] := htext ▸ List.cons_ne_nil first tail
    exact exists_eq_concat hne (not_blank_of_mem_toChars ref)
  | operation op lhs rhs ihl ihr =>
    by_cases hop : op = .range
    · subst hop
      rw [chars]
      cases rhs.isRange with
      | true => exact ⟨lhs.chars ++ ':' :: '(' :: rhs.chars, ')', by simp, by decide⟩
      | false =>
        obtain ⟨front, c, htext, hc⟩ := ihr h.left.right
        exact ⟨lhs.chars ++ ':' :: front, c, by simp [htext], hc⟩
    · rw [chars_operation hop]
      exact ⟨'(' :: (lhs.chars ++ ' ' :: op.symbol :: ' ' :: rhs.chars), ')', by simp, by decide⟩
  | aggregate kind argument ih =>
    exact ⟨(Function.aggregate kind).name.toList ++ '(' :: argument.chars, ')', by simp [chars],
      by decide⟩
  | extremum kind lhs rhs ihl ihr =>
    exact ⟨(Function.extremum kind).name.toList ++ '(' :: (lhs.chars ++ ',' :: ' ' :: rhs.chars),
      ')', by simp [chars], by decide⟩

theorem trim_chars {t : Tree} (h : Writable t.postorder) : Text.trim t.chars = t.chars := by
  obtain ⟨first, rest, hcons, -, hfirst⟩ := exists_chars_eq_cons h
  obtain ⟨front, last, hconcat, hlast⟩ := exists_chars_eq_concat h
  apply Text.trim_eq_self
  · intro c hc
    rw [hcons] at hc
    exact Option.some.inj hc ▸ hfirst
  · intro c hc
    rw [hconcat, List.getLast?_concat] at hc
    exact Option.some.inj hc ▸ hlast

theorem stripEquals_chars {t : Tree} (h : Writable t.postorder) :
    stripEquals t.chars = t.chars := by
  obtain ⟨first, rest, hcons, hfirst, -⟩ := exists_chars_eq_cons h
  rw [hcons]
  unfold stripEquals
  split
  next heq =>
    cases heq
    cases hfirst
  next => rfl

/-! ## The tokens of the text -/

/-- The tokens of the text of a tree. -/
def lexemes : Tree → List Lexeme
  | constant value => [⟨.number, Number.format .plain value⟩]
  | cell ref => [⟨.cell, ref.name⟩]
  | operation .range lhs rhs =>
    lhs.lexemes ++ ⟨.operator, ":"⟩ ::
      (if rhs.isRange then ⟨.leftParenthesis, "("⟩ :: (rhs.lexemes ++ [⟨.rightParenthesis, ")"⟩])
        else rhs.lexemes)
  | operation op lhs rhs =>
    ⟨.leftParenthesis, "("⟩ :: (lhs.lexemes ++ ⟨.operator, String.singleton op.symbol⟩ ::
      (rhs.lexemes ++ [⟨.rightParenthesis, ")"⟩]))
  | aggregate kind argument =>
    ⟨.word, (Function.aggregate kind).name⟩ :: ⟨.leftParenthesis, "("⟩ ::
      (argument.lexemes ++ [⟨.rightParenthesis, ")"⟩])
  | extremum kind lhs rhs =>
    ⟨.word, (Function.extremum kind).name⟩ :: ⟨.leftParenthesis, "("⟩ ::
      (lhs.lexemes ++ ⟨.comma, ","⟩ :: (rhs.lexemes ++ [⟨.rightParenthesis, ")"⟩]))

theorem lexemes_operation {op : Operator} (h : op ≠ .range) (lhs rhs : Tree) :
    (operation op lhs rhs).lexemes =
      ⟨.leftParenthesis, "("⟩ :: (lhs.lexemes ++ ⟨.operator, String.singleton op.symbol⟩ ::
        (rhs.lexemes ++ [⟨.rightParenthesis, ")"⟩])) := by
  cases op with
  | range => exact absurd rfl h
  | _ => rfl

theorem lexemes_constant {value : Float} (h : Number.isFinite value = true) {rest : List Char}
    (hrest : Stops rest) :
    Formula.lexemes false ((constant value).chars ++ rest) =
      (constant value).lexemes ++ Formula.lexemes true rest := by
  obtain ⟨c, tail, htext, hc, htail, hcount⟩ := Number.exists_format_eq_cons h
  have hnumber : ∀ d ∈ tail, isNumberChar d = true := by
    intro d hd
    rcases htail d hd with hd | rfl
    · simp [isNumberChar, hd]
    · rfl
  have hstring : String.ofList (c :: tail) = Number.format .plain value := by
    rw [← htext, String.ofList_toList]
  rw [chars, htext, lexemes_number (hc.imp_right fun hc => ⟨hc.1, hc.2, rfl⟩) hnumber hcount hrest,
    hstring]
  rfl

theorem lexemes_cell {ref : CellRef} (h : ref.InSheet) {rest : List Char} (hrest : Stops rest) :
    Formula.lexemes false ((cell ref).chars ++ rest) =
      (cell ref).lexemes ++ Formula.lexemes true rest := by
  obtain ⟨c, tail, htext, hc, hall⟩ := CellRef.exists_toChars_eq_cons ref
  have hword : ∀ d ∈ tail, isWordChar d = true := by
    intro d hd
    have hd' : d.isAlphanum = true := by
      rw [Text.isAlphanum_iff]
      exact (hall d (List.mem_cons_of_mem c hd)).imp_left Text.isAlpha_of_isUpper
    simp [isWordChar, hd']
  have hname : isCellName (c :: tail) = true := by
    rw [← htext, isCellName, CellRef.ofChars?_toChars h, htext, Bool.and_eq_true]
    refine ⟨List.all_eq_true.2 fun d hd => ?_, rfl⟩
    rcases hall d hd with hd | hd <;> simp [hd]
  rw [chars, htext, lexemes_word (Text.isAlpha_of_isUpper hc) hword hrest, hname, ← htext]
  rfl

theorem lexemes_function (f : Function) (cs : List Char) :
    Formula.lexemes false (f.name.toList ++ '(' :: cs) =
      ⟨.word, f.name⟩ :: ⟨.leftParenthesis, "("⟩ :: Formula.lexemes false cs := by
  obtain ⟨c, tail, hname, hc, htail, hcell⟩ : ∃ c tail, f.name.toList = c :: tail ∧
      c.isAlpha = true ∧ tail.all isWordChar = true ∧ isCellName (c :: tail) = false := by
    rcases f with kind | kind <;> cases kind <;>
      exact ⟨_, _, rfl, by decide, by decide, by decide⟩
  rw [hname, lexemes_word hc (List.all_eq_true.1 htail) (stops_cons '(' cs (by decide)), hcell,
    lexemes_leftParenthesis, ← hname, String.ofList_toList]
  rfl

/-- The text of a tree is cut into its tokens, whatever follows. -/
theorem lexemes_chars {t : Tree} (h : Writable t.postorder) {rest : List Char}
    (hrest : Stops rest) :
    Formula.lexemes false (t.chars ++ rest) = t.lexemes ++ Formula.lexemes true rest := by
  induction t generalizing rest with
  | constant value => exact lexemes_constant (h.isFinite value List.mem_cons_self) hrest
  | cell ref => exact lexemes_cell (h.inSheet ref List.mem_cons_self) hrest
  | operation op lhs rhs ihl ihr =>
    have hl := h.left.left
    have hr := h.left.right
    by_cases hop : op = .range
    · subst hop
      obtain ⟨c, cs, htext, hc, -⟩ := exists_chars_eq_cons hr
      have hright : ∀ cs : List Char, cs.head?.any mayFollowOperator = true →
          Formula.lexemes true (':' :: cs) = ⟨.operator, ":"⟩ :: Formula.lexemes false cs :=
        fun cs hcs => lexemes_operator .range hcs
      rw [chars, lexemes, List.append_assoc, List.cons_append,
        ihl hl (stops_cons ':' _ (by decide)), List.append_assoc, List.cons_append]
      -- Only a range on the right of a range has parentheses around it.
      cases rhs.isRange with
      | true =>
        simp only [if_true, List.cons_append, List.append_assoc, List.nil_append]
        rw [hright _ rfl, lexemes_leftParenthesis, ihr hr (stops_cons ')' rest (by decide)),
          lexemes_rightParenthesis]
      | false =>
        simp only [Bool.false_eq_true, if_false]
        rw [hright _ (by simp [htext, hc]), ihr hr hrest]
    -- The two blanks around the operator belong to no token.
    · rw [chars_operation hop, lexemes_operation hop]
      simp only [List.cons_append, List.append_assoc, List.nil_append]
      rw [lexemes_leftParenthesis, ihl hl (stops_cons ' ' _ (by decide)), lexemes_blank (by decide),
        lexemes_operator op rfl, lexemes_blank (by decide),
        ihr hr (stops_cons ')' rest (by decide)), lexemes_rightParenthesis]
  | aggregate kind argument ih =>
    rw [chars, lexemes]
    simp only [List.cons_append, List.append_assoc, List.nil_append]
    rw [lexemes_function, ih h.left (stops_cons ')' rest (by decide)), lexemes_rightParenthesis]
  | extremum kind lhs rhs ihl ihr =>
    rw [chars, lexemes]
    simp only [List.cons_append, List.append_assoc, List.nil_append]
    rw [lexemes_function, ihl h.left.left (stops_cons ',' _ (by decide)), lexemes_comma,
      lexemes_blank (by decide), ihr h.left.right (stops_cons ')' rest (by decide)),
      lexemes_rightParenthesis]

end Tree

end SheetScript.Formula
