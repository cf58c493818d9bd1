import SheetScript.Proofs.Formula.Accepted
import SheetScript.Proofs.Formula.RoundTrip

/-!
# Accepted formulas written back

Every accepted formula can be written, and the written text parses as the same formula exactly when
all its numbers are finite (`parse_rendered`). The digits of a number may go on without end, and
long ones stand for infinity, which is written as a word that no formula may contain.

For finite numbers this is the round trip of written formulas. For the others one letter decides:
an accepted text has no small `f` (`notMem_of_parse`), but the words for both infinities do, and the
text of a formula contains the text of each of its numbers (`mem_chars_of_constant`).
-/

namespace SheetScript.Formula

variable {text : String} {nodes : List Node} {c : Char} {cs : List Char} {afterOperand : Bool}

/-! ## The numbers and cells of an accepted formula -/

theorem readWord?_eq_none_of_isNumberChar (h : ∀ c ∈ cs, isNumberChar c = true ∨ c = '-') :
    Number.readWord? cs = none := by
  have hlower : cs.map Char.toLower = cs := by
    refine (List.map_congr_left fun c hc => ?_).trans cs.map_id
    rcases h c hc with hc | rfl
    · rcases Bool.or_eq_true_iff.1 hc with hdigit | hpoint
      · exact Text.toLower_of_isDigit hdigit
      · obtain rfl := eq_of_beq hpoint
        rfl
    · rfl
  have hne : ∀ word : List Char, 'n' ∈ word → cs ≠ word := by
    rintro word hword rfl
    rcases h 'n' hword with hn | hn <;> cases hn
  have hinf := hne "inf".toList (by simp)
  have hinfinity := hne "infinity".toList (by simp)
  have hnan := hne "nan".toList (by simp)
  simp only [Number.readWord?, hlower, hinf, hinfinity, hnan, decide_false, Bool.or_self,
    Bool.false_eq_true, if_false]

/-- A number without letters is finite or infinite. -/
theorem magnitude_le_of_read? {value : Float} (h : Number.read? cs = some value)
    (hcs : ∀ c ∈ cs, isNumberChar c = true ∨ c = '-') :
    Number.magnitude value ≤ Number.infinityBits := by
  obtain ⟨negative, rest, hsign, hrest⟩ : ∃ negative rest,
      Number.readSign cs = (negative, rest) ∧ rest <:+ cs := by
    unfold Number.readSign
    split
    · exact ⟨_, _, rfl, List.suffix_cons _ _⟩
    · exact ⟨_, _, rfl, List.suffix_cons _ _⟩
    · exact ⟨_, _, rfl, List.suffix_rfl⟩
  have hword := readWord?_eq_none_of_isNumberChar fun c hc => hcs c (hrest.mem hc)
  simp only [Number.read?, hsign, hword, Option.none_or, Option.map_eq_some_iff] at h
  obtain ⟨bits, hbits, rfl⟩ := h
  have hle := Number.le_of_readDecimal? hbits
  rwa [Number.magnitude_ofMagnitude negative hle]

/-- What the parser may make a node of: numbers are finite or infinite, cells lie in the sheet. -/
def Node.Readable : Node → Prop
  | constant value => Number.magnitude value ≤ Number.infinityBits
  | cell ref => ref.InSheet
  | operator _ | function _ => True

theorem readable_of_node? {lexeme : Lexeme} {node : Node} (hshape : lexeme.Shaped)
    (h : lexeme.node? = some node) : node.Readable := by
  cases hshape with
  | number hchars =>
    obtain ⟨value, hvalue, rfl⟩ := Option.map_eq_some_iff.1 h
    exact magnitude_le_of_read? hvalue hchars
  | cell =>
    obtain ⟨ref, href, rfl⟩ := Option.map_eq_some_iff.1 h
    exact CellRef.inSheet_of_parse? href
  | operator op =>
    obtain ⟨op, -, rfl⟩ := Option.map_eq_some_iff.1 h
    trivial
  | word =>
    obtain ⟨f, -, rfl⟩ := Option.map_eq_some_iff.1 h
    trivial
  | _ => cases h

theorem readable_of_parse (h : parse text = .ok nodes) : ∀ node ∈ nodes, node.Readable := by
  intro node hnode
  obtain ⟨lexeme, hlexeme, hnode'⟩ := List.mem_filterMap.1 ((parse_eq_ok h).2.2.mem_iff.1 hnode)
  exact readable_of_node? (shaped_of_mem_formulaTokens hlexeme) hnode'

/-! ## The letters of an accepted text -/

/-- Every character of a text that is not blank belongs to a token. -/
theorem exists_lexeme_of_mem (hc : Text.isBlank c = false) (h : c ∈ cs) :
    ∃ lexeme ∈ lexemes afterOperand cs, c ∈ lexeme.text.toList := by
  have hmem := Text.mem_dropWhile hc h
  fun_induction lexemes afterOperand cs with
  | case1 afterOperand cs hcs =>
    rw [hcs] at hmem
    cases hmem
  | case2 afterOperand cs first rest hcs kind size hclass ih =>
    rw [hcs, ← List.take_append_drop size rest, ← List.cons_append, List.mem_append] at hmem
    rcases hmem with hmem | hmem
    · exact ⟨_, List.mem_cons_self, by rwa [String.toList_ofList]⟩
    · obtain ⟨lexeme, hlexeme, hchar⟩ := ih hmem (Text.mem_dropWhile hc hmem)
      exact ⟨lexeme, List.mem_cons_of_mem _ hlexeme, hchar⟩

/-- A character of a formula that is neither blank nor an equals sign belongs to a token. -/
theorem exists_formulaToken_of_mem (hblank : Text.isBlank c = false) (hequals : c ≠ '=')
    (h : c ∈ text.toList) : ∃ lexeme ∈ formulaTokens text, c ∈ lexeme.text.toList := by
  rw [formulaTokens, map_lexeme_scan]
  refine exists_lexeme_of_mem hblank ?_
  have htrim := Text.mem_trim hblank h
  unfold stripEquals
  split
  next heq =>
    rw [heq] at htrim
    exact (List.mem_cons.1 htrim).resolve_left hequals
  next => exact htrim

/-- No token of an accepted text has a small `f`. -/
theorem notMem_of_known {lexeme : Lexeme} (hshape : lexeme.Shaped) (hknown : lexeme.Known) :
    'f' ∉ lexeme.text.toList := by
  intro hf
  cases hshape with
  | number hchars => rcases hchars 'f' hf with h | h <;> cases h
  | cell hname =>
    rw [isCellName, Bool.and_eq_true, List.all_eq_true] at hname
    cases hname.1 'f' hf
  | operator op => cases op <;> simp [Operator.symbol] at hf
  | word text =>
    obtain ⟨f, hname⟩ := hknown.exists_named
    have hupper : 'F' ∈ f.name.toList := hname ▸ List.mem_map_of_mem hf
    revert hupper
    rcases f with kind | kind <;> cases kind <;> decide
  | malformed text => exact not_known_malformed text hknown
  | _ => simp at hf

theorem notMem_of_parse (h : parse text = .ok nodes) : 'f' ∉ text.toList := by
  intro hf
  obtain ⟨lexeme, hlexeme, hchar⟩ := exists_formulaToken_of_mem (by decide) (by decide) hf
  exact notMem_of_known (shaped_of_mem_formulaTokens hlexeme) ((parse_eq_ok h).2.1 lexeme hlexeme)
    hchar

/-! ## Written formulas -/

theorem Tree.mem_chars_of_constant {t : Tree} {value : Float} (h : .constant value ∈ t.postorder)
    (hc : c ∈ (Number.format .plain value).toList) : c ∈ t.chars := by
  induction t with
  | constant x =>
    obtain rfl : value = x := by simpa [postorder] using h
    exact hc
  | cell ref => simp [postorder] at h
  | operation op lhs rhs ihl ihr =>
    have hparts : c ∈ lhs.chars ∨ c ∈ rhs.chars := by
      simp only [postorder, List.mem_append, List.mem_singleton, reduceCtorEq, or_false] at h
      exact h.imp ihl ihr
    by_cases hop : op = .range
    · subst hop
      rw [chars]
      rcases hparts with hleft | hright
      · exact List.mem_append_left _ hleft
      · cases rhs.isRange <;> simp [hright]
    · rw [chars_operation hop]
      rcases hparts with hleft | hright
      · simp [hleft]
      · simp [hright]
  | aggregate kind argument ih =>
    have harg := ih (by simpa [postorder] using h)
    simp [chars, harg]
  | extremum kind lhs rhs ihl ihr =>
    have hparts : c ∈ lhs.chars ∨ c ∈ rhs.chars := by
      simp only [postorder, List.mem_append, List.mem_singleton, reduceCtorEq, or_false] at h
      exact h.imp ihl ihr
    rcases hparts with hleft | hright
    · simp [chars, hleft]
    · simp [chars, hright]

theorem mem_format_of_infinite {value : Float} (h : Number.magnitude value = Number.infinityBits) :
    'f' ∈ (Number.format .plain value).toList := by
  rw [Number.format, if_neg (by omega), if_pos h]
  cases Number.isNegative value <;> decide

/-- A formula with a number that is not finite does not parse when it is written. -/
theorem parse_rendered_ne_ok {t : Tree} {value : Float} (hvalue : .constant value ∈ t.postorder)
    (hinfinite : Number.magnitude value = Number.infinityBits) (nodes : List Node) :
    parse t.fragment.text ≠ .ok nodes := by
  intro h
  refine notMem_of_parse h ?_
  rw [t.toList_fragment_text]
  exact t.mem_chars_of_constant hvalue (mem_format_of_infinite hinfinite)

/-- **Accepted formulas are written back unless they overflow.** The formula of every accepted text
can be written. The written text parses as the same formula exactly when all numbers of the formula
are finite; with an infinite number it does not parse at all. -/
theorem parse_rendered (h : parse text = .ok nodes) :
    ∃ rendered, render nodes = .ok rendered ∧
      (parse rendered = .ok nodes ↔
        ∀ value, .constant value ∈ nodes → Number.isFinite value = true) ∧
      ∀ nodes', parse rendered = .ok nodes' → nodes' = nodes := by
  obtain ⟨t, rfl⟩ := checkArity_eq_ok_iff.1 (parse_eq_ok h).1
  have hreadable := readable_of_parse h
  refine ⟨_, t.render_postorder, ?_⟩
  by_cases hfinite : ∀ value, .constant value ∈ t.postorder → Number.isFinite value = true
  · have hparse := t.parse_fragment_text ⟨hfinite, fun ref href => hreadable _ href⟩
    refine ⟨iff_of_true hparse hfinite, fun nodes' h' => ?_⟩
    exact Except.ok.inj (h'.symm.trans hparse)
  · push Not at hfinite
    obtain ⟨value, hvalue, hinfinite⟩ := hfinite
    have hmagnitude : Number.magnitude value = Number.infinityBits := by
      have hle : Number.magnitude value ≤ Number.infinityBits := hreadable _ hvalue
      have hge : ¬ Number.magnitude value < Number.infinityBits := by
        simpa [Number.isFinite] using hinfinite
      omega
    have hreject := parse_rendered_ne_ok hvalue hmagnitude
    refine ⟨iff_of_false (hreject _) fun hall => hinfinite (hall value hvalue), fun nodes' h' => ?_⟩
    exact absurd h' (hreject nodes')

theorem parse_rendered_scaledSum :
    parse scaledSum = .ok scaledSumTree.postorder ∧
      ∃ rendered, render scaledSumTree.postorder = .ok rendered ∧
        parse rendered = .ok scaledSumTree.postorder := by
  have hparse := parse_of_derives derives_scaledSum
  obtain ⟨rendered, hrendered, hiff, -⟩ := parse_rendered hparse
  refine ⟨hparse, rendered, hrendered, hiff.2 fun value hvalue => ?_⟩
  simp only [scaledSumTree, Tree.postorder, List.mem_append, List.mem_singleton,
    Node.constant.injEq, reduceCtorEq, or_false, false_or] at hvalue
  rcases hvalue with (rfl | rfl) | rfl <;>
    simp [Number.isFinite, Number.magnitude_ofMagnitude, Number.infinityBits_eq]

/-- One followed by 309 zeros, more than the largest double. -/
def overflowingDigits : List Char := '1' :: List.replicate 309 '0'

theorem isDigit_overflowingDigits : ∀ c ∈ overflowingDigits, c.isDigit = true := by
  intro c hc
  rcases List.mem_cons.1 hc with rfl | hc
  · rfl
  · rw [List.eq_of_mem_replicate hc]
    rfl

/-- The digits are read as infinity. -/
theorem read?_overflowingDigits :
    Number.read? overflowingDigits = some (Number.ofMagnitude false Number.infinityBits) := by
  have hvalue : Number.ofDigits overflowingDigits = 10 ^ 309 := by
    have hone : Number.ofDigits ['1'] = 1 := rfl
    have hsplit := Number.ofDigits_append ['1'] (List.replicate 309 '0')
    rw [Number.ofDigits_replicate_zero, List.length_replicate, hone, Nat.one_mul,
      Nat.add_zero] at hsplit
    exact hsplit
  have hlarge : 2 ^ 1024 * 1 ≤ 10 ^ 309 := by decide +kernel
  have hbits := Number.nearest_eq_infinityBits Nat.one_pos hlarge
  have hword : Number.readWord? overflowingDigits = none :=
    Number.readWord?_eq_none rfl _
  have hne : overflowingDigits ≠ [] := List.cons_ne_nil _ _
  have hread := Number.readDecimal?_of_isDigit hne isDigit_overflowingDigits
  rw [hvalue, hbits] at hread
  have hsign : Number.readSign overflowingDigits = (false, overflowingDigits) := rfl
  simp [Number.read?, hsign, hword, hread]

theorem formulaTokens_overflowingDigits :
    formulaTokens (String.ofList overflowingDigits) =
      [⟨.number, String.ofList overflowingDigits⟩] := by
  have hblank : ∀ c ∈ overflowingDigits, Text.isBlank c = false :=
    fun c hc => Tree.not_blank_of_isDigit (isDigit_overflowingDigits c hc)
  have htrim : Text.trim overflowingDigits = overflowingDigits :=
    Text.trim_eq_self (fun c hc => hblank c (List.mem_of_mem_head? hc))
      fun c hc => hblank c (List.mem_of_getLast? hc)
  obtain ⟨hfirst, hrest⟩ := List.forall_mem_cons.1 isDigit_overflowingDigits
  have hnumber : ∀ d ∈ List.replicate 309 '0', isNumberChar d = true :=
    fun d hd => by simp [isNumberChar, hrest d hd]
  have hpoints : (List.replicate 309 '0').count '.' ≤ 1 :=
    (Number.count_point_eq_zero hrest).trans_le (Nat.zero_le 1)
  have hlexemes := @lexemes_number false '1' _ [] (Or.inl hfirst) hnumber hpoints stops_nil
  rw [List.append_nil, lexemes_nil] at hlexemes
  rw [formulaTokens, String.toList_ofList, htrim, map_lexeme_scan]
  exact hlexemes

/-- The digits are accepted as a formula, which is written as a text that is not. -/
theorem parse_rendered_overflowingDigits :
    ∃ nodes rendered, parse (String.ofList overflowingDigits) = .ok nodes ∧
      render nodes = .ok rendered ∧ ∀ nodes', parse rendered ≠ .ok nodes' := by
  have hderives : Derives 0 (formulaTokens (String.ofList overflowingDigits))
      (.constant (Number.ofMagnitude false Number.infinityBits)) := by
    rw [formulaTokens_overflowingDigits]
    refine (Derives.operand (.number ?_)).loosen (Nat.zero_le 4)
    rw [String.toList_ofList]
    exact read?_overflowingDigits
  refine ⟨_, _, parse_of_derives hderives, Tree.render_postorder _, ?_⟩
  refine parse_rendered_ne_ok List.mem_cons_self ?_
  exact Number.magnitude_ofMagnitude false (Nat.le_refl _)

end SheetScript.Formula
