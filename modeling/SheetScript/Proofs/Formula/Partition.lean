import SheetScript.Proofs.Formula.Scanner

/-!
# Formulas fall into tokens and blanks

`partition_tokenize`: every formula falls into its tokens and the blanks between them. Each token is
the slice of the formula at its offset, none is empty, and they stand one behind the other. All this
holds whatever the tokens are, malformed ones included.

The relation `Cut` says how a text falls into tokens, and scanning cuts every text so
(`cut_tokensFrom`). Each property of the tokens follows from it by induction.
-/

namespace SheetScript.Formula

open Text (Fault slice sliceFrom sliceFrom_append slice_append isBlank)
open String (utf8Len)

variable {before cs : List Char} {tokens : List Token}

/-! ## Cutting a formula -/

/-- A text behind `before` falls into tokens and blanks. -/
inductive Cut : (before cs : List Char) → List Token → Prop
  | blanks {before blanks : List Char} (h : ∀ c ∈ blanks, isBlank c = true) : Cut before blanks []
  | token {before blanks chars rest : List Char} {kind : TokenKind} {tokens : List Token}
      (hblanks : ∀ c ∈ blanks, isBlank c = true) (hchars : chars ≠ [])
      (hrest : Cut (before ++ blanks ++ chars) rest tokens) :
      Cut before (blanks ++ (chars ++ rest))
        (⟨kind, String.ofList chars, utf8Len (before ++ blanks)⟩ :: tokens)

theorem cut_tokensFrom (before : List Char) (afterOperand : Bool) (cs : List Char) :
    Cut before cs (tokensFrom (utf8Len before) afterOperand cs) := by
  induction h : cs.length using Nat.strong_induction_on
    generalizing before afterOperand cs with
  | h n ih =>
    subst h
    rcases blanks_or_exists_cons cs with hblanks | ⟨blanks, c, rest, rfl, hblanks, hc⟩
    · rw [tokensFrom_of_blanks hblanks]
      exact .blanks hblanks
    · rw [tokensFrom_of_cons hblanks hc]
      generalize classify afterOperand c rest = found
      obtain ⟨kind, size⟩ := found
      have hrest : (rest.drop size).length < (blanks ++ c :: rest).length := by
        rw [List.length_drop, List.length_append, List.length_cons]
        omega
      have hcut := ih _ hrest (before ++ blanks ++ (c :: rest.take size)) kind.endsOperand _ rfl
      rw [String.utf8Len_append, String.utf8Len_append] at hcut
      have htoken := @Cut.token _ _ _ _ kind _ hblanks (List.cons_ne_nil c (rest.take size)) hcut
      rwa [List.cons_append, List.take_append_drop, String.utf8Len_append] at htoken

/-- The position behind a token. -/
def Token.stop (token : Token) : Nat := token.offset + token.text.utf8ByteSize

/-- The texts between a position, the tokens and the end of a formula. -/
def gapsFrom (text : String) (pos : Nat) : List Token → Except Fault (List String)
  | [] => return [← sliceFrom text pos]
  | token :: tokens =>
    return (← slice text pos token.offset) :: (← gapsFrom text token.stop tokens)

namespace Cut

theorem text_ne_empty (h : Cut before cs tokens) : ∀ token ∈ tokens, token.text ≠ "" := by
  induction h with
  | blanks => exact fun token htoken => absurd htoken List.not_mem_nil
  | @token before blanks chars rest kind tokens hblanks hchars hrest ih =>
    refine List.forall_mem_cons.2 ⟨?_, ih⟩
    exact fun hempty => hchars (String.ofList_eq_empty_iff.1 hempty)

theorem slice_eq (h : Cut before cs tokens) :
    ∀ token ∈ tokens,
      slice (String.ofList (before ++ cs)) token.offset token.stop = .ok token.text := by
  induction h with
  | blanks => exact fun token htoken => absurd htoken List.not_mem_nil
  | @token before blanks chars rest kind tokens hblanks hchars hrest ih =>
    have hslice := slice_append (before ++ blanks) chars rest
    rw [← List.append_assoc, ← String.utf8ByteSize_ofList chars] at hslice
    rw [← List.append_assoc, ← List.append_assoc]
    exact List.forall_mem_cons.2 ⟨hslice, ih⟩

/-- Before, between and behind the tokens stand blanks. -/
theorem exists_gapsFrom_eq (h : Cut before cs tokens) :
    ∃ gaps, gapsFrom (String.ofList (before ++ cs)) (utf8Len before) tokens = .ok gaps ∧
      ∀ gap ∈ gaps, ∀ c ∈ gap.toList, isBlank c = true := by
  induction h with
  | @blanks before blanks h =>
    refine ⟨[String.ofList blanks], ?_, by simpa using h⟩
    rw [gapsFrom, sliceFrom_append]
    rfl
  | @token before blanks chars rest kind tokens hblanks hchars hrest ih =>
    obtain ⟨gaps, hgaps, hall⟩ := ih
    refine ⟨String.ofList blanks :: gaps, ?_, List.forall_mem_cons.2 ⟨by simpa using hblanks, hall⟩⟩
    have hgap := slice_append before blanks (chars ++ rest)
    rw [← String.utf8Len_append, ← List.append_assoc, ← List.append_assoc] at hgap
    rw [String.utf8Len_append, ← String.utf8ByteSize_ofList chars] at hgaps
    rw [← List.append_assoc, ← List.append_assoc, gapsFrom]
    simp only [bind, Except.bind, Token.stop, hgap, hgaps]
    rfl

theorem pairwise_offset (h : Cut before cs tokens) :
    (∀ start ∈ tokens.map Token.offset ++ [utf8Len (before ++ cs)], utf8Len before ≤ start) ∧
      (tokens.map Token.offset ++ [utf8Len (before ++ cs)]).Pairwise (· < ·) := by
  induction h with
  | @blanks before blanks h =>
    rw [String.utf8Len_append]
    exact ⟨by simp, List.pairwise_singleton _ _⟩
  | @token before blanks chars rest kind tokens hblanks hchars hrest ih =>
    obtain ⟨hafter, hincreasing⟩ := ih
    have hstart : utf8Len before ≤ utf8Len (before ++ blanks) := by
      rw [String.utf8Len_append]
      exact Nat.le_add_right _ _
    have hstop : utf8Len (before ++ blanks) < utf8Len (before ++ blanks ++ chars) := by
      have := Text.length_le_utf8Len chars
      have := List.length_pos_iff.2 hchars
      rw [String.utf8Len_append _ chars]
      omega
    rw [← List.append_assoc, ← List.append_assoc, List.map_cons, List.cons_append,
      List.forall_mem_cons, List.pairwise_cons]
    refine ⟨⟨hstart, fun start hmem => ?_⟩, fun start hmem => ?_, hincreasing⟩
    · exact (hstart.trans hstop.le).trans (hafter start hmem)
    · exact hstop.trans_le (hafter start hmem)

end Cut

/-! ## Main result -/

/-- A formula falls into tokens and blanks. -/
structure Partition (text : String) (tokens : List Token) : Prop where
  /-- No token is empty. -/
  text_ne_empty : ∀ token ∈ tokens, token.text ≠ ""
  /-- A token is the slice at its offset. -/
  slice_eq : ∀ token ∈ tokens, slice text token.offset token.stop = .ok token.text
  /-- Before, between and behind the tokens stand blanks. -/
  blank : ∃ gaps, gapsFrom text 0 tokens = .ok gaps ∧
    ∀ gap ∈ gaps, ∀ c ∈ gap.toList, isBlank c = true
  /-- The tokens stand one behind the other, and before the end. -/
  increasing : (tokens.map Token.offset ++ [text.utf8ByteSize]).Pairwise (· < ·)

/-- **Every formula falls into its tokens and blanks.** The scanner goes through it without a fault,
finds the tokens of `scan`, and ends at its end. -/
theorem partition_tokenize (text : String) :
    tokenize text = .ok (scan text.toList, text.utf8ByteSize) ∧
      Partition text (scan text.toList) := by
  have hsize : utf8Len text.toList = text.utf8ByteSize := String.utf8Len_toList text
  have hcut : Cut [] text.toList (scan text.toList) := cut_tokensFrom [] false text.toList
  constructor
  · have hcalls : text.toList.length < text.utf8ByteSize + 1 := by
      rw [← hsize]
      exact Nat.lt_succ_of_le (Text.length_le_utf8Len _)
    have hdrain := Scanner.drain_behind [] false text.toList hcalls
    rwa [List.nil_append, String.ofList_toList, hsize] at hdrain
  · have hslice := hcut.slice_eq
    have hgaps := hcut.exists_gapsFrom_eq
    have hincreasing := hcut.pairwise_offset.2
    rw [List.nil_append, String.ofList_toList] at hslice hgaps
    rw [List.nil_append, hsize] at hincreasing
    exact ⟨hcut.text_ne_empty, hslice, hgaps, hincreasing⟩

end SheetScript.Formula
