import SheetScript.Cell
import SheetScript.Proofs.Formula.Accepted

/-!
# Blanks around tokens

Further blanks before, between and after the tokens of an accepted formula change nothing
(`parse_widened`). A text with further blanks is related to the text without them token by token
(`Widens`), and each text to itself (`widens_refl`).

Scanning looks at one character beyond a token, to tell a sign from an operator and to see where a
number or a word ends. A blank that is put there ends every token, is no digit that would make a
sign of a minus, and may follow an operator (`classify_append`). Only a malformed token may become
another one. So the texts have the same tokens, and reading sees nothing but these
(`ofTokens_congr`).
-/

namespace SheetScript.Formula

/-! ## Texts with further blanks -/

/-- The second text has the given tokens and the blanks of the first one, and may have further
blanks before, between and after the tokens. -/
inductive Widens : List Lexeme → List Char → List Char → Prop
  | last {gap gap' : List Char} (hblank : ∀ c ∈ gap', Text.isBlank c = true)
      (hgap : gap.Sublist gap') : Widens [] gap gap'
  | token {kind : TokenKind} {ls : List Lexeme} {text gap gap' rest rest' : List Char}
      (hblank : ∀ c ∈ gap', Text.isBlank c = true) (hgap : gap.Sublist gap')
      (h : Widens ls rest rest') :
      Widens (⟨kind, String.ofList text⟩ :: ls) (gap ++ (text ++ rest)) (gap' ++ (text ++ rest'))

/-- Every text consists of its tokens and the blanks around them. -/
theorem widens_refl (afterOperand : Bool) (cs : List Char) :
    Widens (lexemes afterOperand cs) cs cs := by
  fun_induction lexemes afterOperand cs with
  | case1 afterOperand cs hcs => exact .last (List.dropWhile_eq_nil_iff.1 hcs) (.refl _)
  | case2 afterOperand cs c rest hcs kind size hclass ih =>
    have hsplit : cs.takeWhile Text.isBlank ++ (c :: rest.take size ++ rest.drop size) = cs := by
      rw [List.cons_append, List.take_append_drop, ← hcs, List.takeWhile_append_dropWhile]
    have htoken := @Widens.token kind _ (c :: rest.take size) _ _ _ _
      (fun d hd => List.mem_takeWhile_imp hd) (.refl (cs.takeWhile Text.isBlank)) ih
    rwa [hsplit] at htoken

variable {afterOperand : Bool} {ls : List Lexeme} {text gap gap' cs cs' rest rest' : List Char}
  {kind : TokenKind} {size : Nat} {c : Char} {nodes : List Node}

/-- The second text begins as the first one, or with a blank. -/
def BeginsAlike (rest rest' : List Char) : Prop :=
  rest'.head? = rest.head? ∨ ∃ c, rest'.head? = some c ∧ Text.isBlank c = true

/-- Blanks in front do not change how a text begins, except that it may begin with a blank. -/
theorem BeginsAlike.append (hblank : ∀ c ∈ gap', Text.isBlank c = true)
    (hgap : gap.Sublist gap') (h : BeginsAlike rest rest') :
    BeginsAlike (gap ++ rest) (gap' ++ rest') := by
  cases gap' with
  | nil =>
    obtain rfl := List.sublist_nil.1 hgap
    exact h
  | cons c gap' => exact Or.inr ⟨c, rfl, hblank c List.mem_cons_self⟩

theorem BeginsAlike.append_left (h : BeginsAlike rest rest') (text : List Char) :
    BeginsAlike (text ++ rest) (text ++ rest') := by
  cases text with
  | nil => exact h
  | cons c text => exact Or.inl rfl

theorem Widens.beginsAlike (h : Widens ls cs cs') : BeginsAlike cs cs' := by
  induction h with
  | last hblank hgap =>
    simpa using BeginsAlike.append hblank hgap (Or.inl rfl : BeginsAlike [] [])
  | token hblank hgap _ ih => exact .append hblank hgap (ih.append_left _)

/-! ## The character beyond a token -/

/-- What holds of no blank and of no character that a text begins with holds of no character that
the other one begins with. -/
theorem BeginsAlike.stops {p : Char → Bool} (h : BeginsAlike rest rest')
    (hblank : ∀ c, Text.isBlank c = true → p c = false)
    (hrest : ∀ c, rest.head? = some c → p c = false) :
    ∀ c, rest'.head? = some c → p c = false := by
  intro c hc
  rcases h with hsame | ⟨d, hd, hdblank⟩
  · exact hrest c (hsame ▸ hc)
  · obtain rfl : d = c := Option.some.inj (hd.symm.trans hc)
    exact hblank d hdblank

theorem isNumberChar_of_isBlank (h : Text.isBlank c = true) : isNumberChar c = false := by
  rw [isNumberChar, Text.isDigit_of_isBlank h, Bool.false_or, beq_eq_false_iff_ne]
  rintro rfl
  cases h

theorem isWordChar_of_isBlank (h : Text.isBlank c = true) : isWordChar c = false := by
  rw [isWordChar, Text.isAlphanum_of_isBlank h, Bool.false_or, beq_eq_false_iff_ne]
  rintro rfl
  cases h

/-- A run of one class ends where it ended before. -/
theorem BeginsAlike.takeWhile {p : Char → Bool}
    (hblank : ∀ c, Text.isBlank c = true → p c = false)
    (h : BeginsAlike (cs.dropWhile p) rest') :
    (cs.takeWhile p ++ rest').takeWhile p = cs.takeWhile p := by
  refine Text.takeWhile_append_of_stop (fun c hc => List.mem_takeWhile_imp hc) ?_
  exact h.stops hblank fun _ => Text.not_of_head?_dropWhile

/-- A digit that follows still follows, and none comes in. -/
theorem BeginsAlike.any_isDigit (h : BeginsAlike cs rest')
    (hc : cs.head?.any Char.isDigit = false) : rest'.head?.any Char.isDigit = false := by
  rcases h with hsame | ⟨d, hd, hblank⟩
  · rw [hsame, hc]
  · simp [hd, Text.isDigit_of_isBlank hblank]

theorem BeginsAlike.any_mayFollowOperator (h : BeginsAlike cs rest')
    (hc : cs.head?.any mayFollowOperator = true) : rest'.head?.any mayFollowOperator = true := by
  rcases h with hsame | ⟨d, hd, hblank⟩
  · rw [hsame, hc]
  · simp [hd, mayFollowOperator, hblank]

theorem any_isDigit_takeWhile (hc : cs.head?.any Char.isDigit = true) (rest : List Char) :
    (cs.takeWhile isNumberChar ++ rest).head?.any Char.isDigit = true := by
  cases cs with
  | nil => cases hc
  | cons d cs =>
    have hd : d.isDigit = true := by simpa using hc
    simp [isNumberChar, hd]

/-- A token that is not malformed stays what it is when blanks are put behind it. -/
theorem classify_append (hclass : classify afterOperand c cs = (kind, size))
    (hkind : kind ≠ .malformed) (h : BeginsAlike (cs.drop size) rest') :
    classify afterOperand c (cs.take size ++ rest') = (kind, size) := by
  unfold classify at hclass
  split_ifs at hclass with hnumber halpha hleft hright hcomma hoperator
  all_goals obtain ⟨rfl, rfl⟩ := Prod.mk.inj hclass
  case pos =>
    -- A minus sign that starts a number is followed by a digit, which stays behind it.
    have hstart : (c.isDigit || (c == '-' &&
        (cs.takeWhile isNumberChar ++ rest').head?.any Char.isDigit && !afterOperand)) = true := by
      simp only [Bool.or_eq_true, Bool.and_eq_true] at hnumber ⊢
      exact hnumber.imp_right fun ⟨⟨hminus, hdigit⟩, hoperand⟩ =>
        ⟨⟨hminus, any_isDigit_takeWhile hdigit rest'⟩, hoperand⟩
    rw [Text.drop_length_takeWhile] at h
    rw [Text.take_length_takeWhile, classify, if_pos hstart]
    simp only [h.takeWhile fun _ => isNumberChar_of_isBlank]
  case pos =>
    have hminus : (c == '-') = false := by
      rw [beq_eq_false_iff_ne]
      rintro rfl
      cases halpha
    rw [Text.drop_length_takeWhile] at h
    rw [Text.take_length_takeWhile, classify,
      if_neg (by simp [Text.isDigit_of_isAlpha halpha, hminus]), if_pos halpha]
    simp only [h.takeWhile fun _ => isWordChar_of_isBlank]
  case pos =>
    obtain rfl := eq_of_beq hleft
    rfl
  case pos =>
    obtain rfl := eq_of_beq hright
    rfl
  case pos =>
    obtain rfl := eq_of_beq hcomma
    rfl
  case pos =>
    -- An operator is not taken for the sign of a number, since no digit comes to stand behind it.
    have hnot : ¬ (c.isDigit ||
        (c == '-' && rest'.head?.any Char.isDigit && !afterOperand)) = true := by
      simp only [Bool.or_eq_true, Bool.and_eq_true, not_or, not_and, and_imp] at hnumber ⊢
      refine ⟨hnumber.1, fun hminus hdigit => hnumber.2 hminus ?_⟩
      by_contra hc
      rw [h.any_isDigit (Bool.eq_false_iff.2 hc)] at hdigit
      cases hdigit
    rw [Bool.and_eq_true] at hoperator
    rw [List.take_zero, List.nil_append, classify, if_neg hnot, if_neg halpha, if_neg hleft,
      if_neg hright, if_neg hcomma, if_pos]
    rw [hoperator.1, h.any_mayFollowOperator hoperator.2, Bool.and_self]
  case neg => exact absurd rfl hkind

/-! ## The tokens of a widened text -/

theorem size_classify_le (h : classify afterOperand c cs = (kind, size)) : size ≤ cs.length := by
  unfold classify at h
  split_ifs at h
  all_goals obtain ⟨-, rfl⟩ := Prod.mk.inj h
  case pos => exact (List.takeWhile_prefix _).length_le
  case pos => exact (List.takeWhile_prefix _).length_le
  all_goals exact Nat.zero_le _

/-- The first token of a text begins with no blank and is cut off at its end. -/
theorem exists_of_lexemes_eq_cons
    (h : lexemes afterOperand (text ++ rest) = ⟨kind, String.ofList text⟩ :: ls) :
    ∃ c tail, text = c :: tail ∧ Text.isBlank c = false ∧
      classify afterOperand c (tail ++ rest) = (kind, tail.length) ∧
      lexemes kind.endsOperand rest = ls := by
  cases hcs : (text ++ rest).dropWhile Text.isBlank with
  | nil =>
    rw [lexemes_of_dropWhile_eq_nil hcs] at h
    cases h
  | cons c cs =>
    obtain ⟨hfirst, hrest⟩ := List.cons.inj ((lexemes_of_dropWhile_eq_cons hcs).symm.trans h)
    obtain ⟨hkind, htext⟩ := Lexeme.mk.inj hfirst
    have hc : Text.isBlank c = false := Text.trimStart_head_not_blank (congrArg List.head? hcs)
    cases hclass : classify afterOperand c cs with
    | mk kind' size =>
      simp only [hclass] at hkind htext hrest
      subst hkind
      obtain rfl : c :: cs.take size = text := String.ofList_injective htext
      have hlength : (cs.take size).length = size := by
        simpa using size_classify_le hclass
      have hsplit : cs.take size ++ rest = cs := by
        simpa [hc] using hcs
      refine ⟨c, cs.take size, rfl, hc, ?_, ?_⟩
      · rw [hsplit, hlength, hclass]
      · rwa [← hsplit, List.drop_left' hlength] at hrest

/-- A widened text has the same tokens. -/
theorem Widens.lexemes_eq (h : Widens ls cs cs')
    (hmalformed : ∀ lexeme ∈ ls, lexeme.kind ≠ .malformed)
    (hls : lexemes afterOperand cs = ls) : lexemes afterOperand cs' = ls := by
  induction h generalizing afterOperand with
  | last hblank hgap =>
    exact lexemes_of_dropWhile_eq_nil (List.dropWhile_eq_nil_iff.2 hblank)
  | @token kind ls text gap gap' rest rest' hblank hgap h ih =>
    obtain ⟨hkind, htail⟩ := List.forall_mem_cons.1 hmalformed
    rw [lexemes_blanks fun c hc => hblank c (hgap.subset hc)] at hls
    obtain ⟨c, tail, rfl, hc, hclass, hrest⟩ := exists_of_lexemes_eq_cons hls
    have hclass' : classify afterOperand c (tail ++ rest') = (kind, tail.length) := by
      simpa using classify_append hclass hkind (by simpa using h.beginsAlike)
    rw [lexemes_blanks hblank, List.cons_append, lexemes_cons hc hclass', List.take_left,
      List.drop_left, ih htail hrest]

/-! ## Blanks at the end -/

theorem text_ne_empty_of_mem_lexemes {lexeme : Lexeme} (h : lexeme ∈ lexemes afterOperand cs) :
    lexeme.text ≠ "" := by
  fun_induction lexemes afterOperand cs with
  | case1 => cases h
  | case2 afterOperand cs c rest hcs kind size hclass ih =>
    rcases List.mem_cons.1 h with rfl | htail
    · simp
    · exact ih htail

/-- The further blanks behind the last token can be told apart from the others. -/
theorem Widens.exists_core (h : Widens ls cs cs') (htext : ∀ lexeme ∈ ls, lexeme.text ≠ "")
    (hlast : ∀ c, cs.getLast? = some c → Text.isBlank c = false) :
    ∃ core blanks, cs' = core ++ blanks ∧ (∀ c ∈ blanks, Text.isBlank c = true) ∧
      core.getLast? = cs.getLast? ∧ Widens ls cs core := by
  induction h with
  | @last gap gap' hblank hgap =>
    -- The text ends without a blank, so its last gap is empty and the widened one is all that is
    -- new.
    have hnil : gap = [] := by
      rw [← List.getLast?_eq_none_iff, Option.eq_none_iff_forall_ne_some]
      intro c hc
      have := hblank c (hgap.subset (List.mem_of_getLast? hc))
      rw [hlast c hc] at this
      cases this
    subst hnil
    exact ⟨[], gap', rfl, hblank, rfl, .last (by simp) (.refl _)⟩
  | @token kind ls text gap gap' rest rest' hblank hgap h ih =>
    obtain ⟨htext, htail⟩ := List.forall_mem_cons.1 htext
    have hrest : ∀ c, rest.getLast? = some c → Text.isBlank c = false :=
      fun c hc => hlast c (by simp [List.getLast?_append, hc])
    obtain ⟨core, blanks, rfl, hblanks, hcore, hwiden⟩ := ih htail hrest
    obtain ⟨c, hc⟩ : ∃ c, text.getLast? = some c := by
      rw [← Option.ne_none_iff_exists', Ne, List.getLast?_eq_none_iff]
      rintro rfl
      exact htext rfl
    refine ⟨gap' ++ (text ++ core), blanks, by simp, hblanks, ?_, .token hblank hgap hwiden⟩
    simp [List.getLast?_append, hcore, hc]

/-! ## Accepted texts -/

theorem getLast?_stripEquals (h : (stripEquals cs).getLast? = some c) : cs.getLast? = some c := by
  unfold stripEquals at h
  split at h
  · simp [List.getLast?_cons, h]
  · exact h

theorem parse_of_lexemes_eq {text : String} (h : parse text = .ok nodes)
    (hcs : lexemes false (stripEquals (Text.trim cs)) = formulaTokens text) :
    parse (String.ofList cs) = .ok nodes := by
  refine ofTokens_congr ?_ h
  rw [String.toList_ofList, map_lexeme_scan (stripEquals (Text.trim cs)), hcs]
  rfl

theorem last_not_blank_equals (h : ∀ c, cs.getLast? = some c → Text.isBlank c = false) :
    ∀ c, ('=' :: cs).getLast? = some c → Text.isBlank c = false := by
  intro c hc
  rw [List.getLast?_cons] at hc
  cases hlast : cs.getLast? with
  | none =>
    rw [hlast] at hc
    cases hc
    decide
  | some d =>
    rw [hlast] at hc
    cases hc
    exact h d hlast

/-- **Blanks around tokens do not count.** An accepted formula that gets any blanks before, between
and after its tokens is accepted with the same nodes, with and without an equals sign in front. -/
theorem parse_widened {text : String} {wide : List Char} (h : parse text = .ok nodes)
    (hwide : Widens (formulaTokens text) (stripEquals (Text.trim text.toList)) wide) :
    parse (String.ofList wide) = .ok nodes ∧ parse (String.ofList ('=' :: wide)) = .ok nodes := by
  have htokens : lexemes false (stripEquals (Text.trim text.toList)) = formulaTokens text :=
    (map_lexeme_scan _).symm
  have hmalformed : ∀ lexeme ∈ formulaTokens text, lexeme.kind ≠ .malformed := by
    rintro ⟨kind, word⟩ hlexeme rfl
    exact not_known_malformed word ((parse_eq_ok h).2.1 _ hlexeme)
  have htext : ∀ lexeme ∈ formulaTokens text, lexeme.text ≠ "" :=
    fun lexeme hlexeme => text_ne_empty_of_mem_lexemes (htokens ▸ hlexeme)
  -- The further blanks behind the last token are trimmed off, so they are told apart first.
  obtain ⟨core, blanks, rfl, hblanks, hlast, hcore⟩ := hwide.exists_core htext
    fun c hc => Text.trim_last_not_blank (getLast?_stripEquals hc)
  have hlexemes := hcore.lexemes_eq hmalformed htokens
  have hcoreLast : ∀ c, core.getLast? = some c → Text.isBlank c = false :=
    fun c hc => Text.trim_last_not_blank (getLast?_stripEquals (hlast ▸ hc))
  constructor
  · apply parse_of_lexemes_eq h
    rw [Text.trim_append_blanks hcoreLast hblanks, stripEquals_eq_self, lexemes_trimStart, hlexemes]
    intro source hsource
    rw [← lexemes_trimStart, hsource, lexemes_equals] at hlexemes
    exact hmalformed _ (hlexemes ▸ List.mem_cons_self) rfl
  · apply parse_of_lexemes_eq h
    have hequals : ∀ c, ('=' :: core).head? = some c → Text.isBlank c = false := by
      rintro c ⟨⟩
      decide
    rw [← List.cons_append, Text.trim_append_blanks (last_not_blank_equals hcoreLast) hblanks,
      Text.trimStart_eq_self hequals, stripEquals, hlexemes]

/-- A minus of either kind, and the same formula with a tabulator and a wide space in it. -/
theorem parse_widened_signs :
    (parse "=-3-A1" = .ok [.constant (Number.ofMagnitude true 0x4008000000000000), .cell ⟨0, 0⟩,
      .operator .subtract]) ∧
    Widens (formulaTokens "=-3-A1") (stripEquals (Text.trim "=-3-A1".toList))
      " -3\t-\u3000A1 ".toList ∧
    (parse "= -3\t-\u3000A1 " = .ok [.constant (Number.ofMagnitude true 0x4008000000000000),
      .cell ⟨0, 0⟩, .operator .subtract]) := by
  have htokens : formulaTokens "=-3-A1" =
      [⟨.number, "-3"⟩, ⟨.operator, "-"⟩, ⟨.cell, "A1"⟩] := by
    cbv
  have hparse : parse "=-3-A1" = .ok [.constant (Number.ofMagnitude true 0x4008000000000000),
      .cell ⟨0, 0⟩, .operator .subtract] := by
    have hdigit : Number.readDecimal? ['3'] = some 0x4008000000000000 := by
      decide +kernel
    have hthree : Denotes ⟨.number, "-3"⟩ (.constant (Number.ofMagnitude true 0x4008000000000000)) :=
      .number (by simp [Number.read?, Number.readSign, Number.readWord?, hdigit])
    have hcell : Denotes ⟨.cell, "A1"⟩ (.cell ⟨0, 0⟩) := .cell rfl
    have hdifference := @Derives.operation .subtract _ _ _ _
      ((Derives.operand hthree).loosen (Nat.zero_le 4)) ((Derives.operand hcell).loosen (by decide))
    exact parse_of_derives (t := .operation .subtract _ _) (by rw [htokens]; exact hdifference)
  have hwide : Widens (formulaTokens "=-3-A1") (stripEquals (Text.trim "=-3-A1".toList))
      " -3\t-\u3000A1 ".toList := by
    rw [htokens]
    have hend : Widens [] [] [' '] := .last (by simp [Text.isBlank]) (List.nil_sublist _)
    have hcell := @Widens.token .cell _ ['A', '1'] _ ['\u3000'] _ _
      (by simp [Text.isBlank]) (List.nil_sublist _) hend
    have hminus := @Widens.token .operator _ ['-'] _ ['\t'] _ _
      (by simp [Text.isBlank]) (List.nil_sublist _) hcell
    exact @Widens.token .number _ ['-', '3'] _ [' '] _ _
      (by simp [Text.isBlank]) (List.nil_sublist _) hminus
  exact ⟨hparse, hwide, (parse_widened hparse hwide).2⟩

end SheetScript.Formula
