import Mathlib
import SheetScript.Proofs.Script.Counting
import SheetScript.Proofs.Script.Joined

/-!
# Readers find the tokens of a script

`Reader.exists_drain_eq`: a reader goes through every script without a `Fault`, and finds the tokens
that `scan` finds. So every position at which it cuts the script is a boundary of characters, no
counter goes below zero, and it ends after at most as many tokens as the script has bytes.

A reader behind a text `before`, with `cs` still to come, has the position `utf8Len before` in the
text of both. From there a turn finds what a step finds at `cs` (`Reader.turn_eq`), as every piece
that a step takes off is a slice. What a step leaves is part of `cs` (`step_leaves`), so the reader
is behind a text again, and goes on to the end.
-/

namespace SheetScript.Script

open Text (Fault slice sliceFrom bytes sliceFrom_append slice_append slice_zero_append)
open String (utf8Len utf8EncodeChar)

variable {comments : Bool} {place after : Place} {before cs rest : List Char} {c : Char}

/-! ## Pieces and what is left -/

theorem append_of_takeBracketed {depth braces : Nat} {taken text : List Char}
    (h : takeBracketed depth braces taken cs = some (text, rest)) :
    taken.reverse ++ cs = text ++ ']' :: rest := by
  fun_induction takeBracketed depth braces taken cs <;> simp_all

theorem append_takeSeparator (taken cs : List Char) :
    (takeSeparator taken cs).1 ++ (takeSeparator taken cs).2 = taken.reverse ++ cs := by
  fun_induction takeSeparator taken cs <;> simp_all

theorem append_takeBare (taken cs : List Char) :
    (takeBare taken cs).1 ++ (takeBare taken cs).2 = taken.reverse ++ cs := by
  fun_induction takeBare taken cs <;> simp_all

theorem append_takeQuoted (taken cs : List Char) :
    (takeQuoted taken cs).1 ++ (takeQuoted taken cs).2 = taken.reverse ++ cs := by
  fun_induction takeQuoted taken cs <;> simp_all

theorem utf8Len_takeBare (taken cs : List Char) :
    utf8Len (takeBare taken cs).1 = utf8Len taken + bareSize cs := by
  fun_induction takeBare taken cs with
  | case1 => simp [bareSize]
  | case2 taken c cs hline ih =>
    rw [ih, bareSize]
    · simp only [String.utf8Len_cons]
      omega
    · exact hline
  | case3 taken c cs hline hescape hstop =>
    rw [bareSize, if_pos hstop]
    · simp
    · exact hline
    · exact hescape
  | case4 taken c cs hline hescape hstop ih =>
    rw [ih, bareSize, if_neg hstop]
    · simp only [String.utf8Len_cons]
      omega
    · exact hline
    · exact hescape
  | case5 => simp [bareSize]

theorem utf8Len_takeQuoted (taken cs : List Char) :
    utf8Len (takeQuoted taken cs).1 = utf8Len taken + quotedSize cs := by
  fun_induction takeQuoted taken cs with
  | case1 taken c cs ih =>
    rw [ih, quotedSize]
    simp only [String.utf8Len_cons]
    omega
  | case2 taken c cs hescape hstop =>
    rw [quotedSize, if_pos hstop]
    · simp
    · exact hescape
  | case3 taken c cs hescape hstop ih =>
    rw [ih, quotedSize, if_neg hstop]
    · simp only [String.utf8Len_cons]
      omega
    · exact hescape
  | case4 => simp [quotedSize]

/-- What a turn finds where a step finds something. The position behind it is the size of the text
without the rest. -/
def Turn.ofStep (text : String) : Step → Turn
  | .finished => .finished
  | .unclosed what => Reader.unclosed text what
  | .skip place rest => .again ⟨place, text.utf8ByteSize - utf8Len rest⟩
  | .emit token place rest => .emit token ⟨place, text.utf8ByteSize - utf8Len rest⟩

theorem size_sub_rest {piece : List Char} (h : cs = piece ++ rest) (before : List Char) :
    (String.ofList (before ++ cs)).utf8ByteSize - utf8Len rest =
      utf8Len before + utf8Len piece := by
  rw [h, String.utf8ByteSize_ofList, String.utf8Len_append, String.utf8Len_append]
  omega

/-- The step over a text up to its closing brace or bracket, or over one without any. -/
def Step.enclosed (token : String → Token) (what : Unclosed) (after : Place) :
    Option (List Char × List Char) → Step
  | some (inner, rest) => .emit (token (String.ofList inner)) after rest
  | none => .unclosed what

namespace Reader

/-- A text in braces or brackets ends for a turn where it ends for a step. -/
theorem enclosed_eq {σ : Type} {count : σ → UInt8 → Except Fault (Option σ)} {none : σ}
    {found : Option (List Char × List Char)} {opening closing : Char}
    (hopening : opening.utf8Size = 1) (hclosing : closing.utf8Size = 1)
    (hfind : findEnd count none 0 ((opening :: cs).flatMap utf8EncodeChar) =
      .ok (found.map fun found => 1 + utf8Len found.1))
    (hfound : ∀ inner rest, found = some (inner, rest) → cs = inner ++ closing :: rest)
    (token : String → Token) (what : Unclosed) (after : Place) (before : List Char) :
    enclosed count none token what after (String.ofList (before ++ opening :: cs))
        (utf8Len before) =
      .ok (Turn.ofStep (String.ofList (before ++ opening :: cs))
        (.enclosed token what after found)) := by
  rw [enclosed, sliceFrom_append]
  simp only [bind, Except.bind, Text.bytes_ofList, hfind]
  cases found with
  | none => rfl
  | some found =>
    obtain ⟨inner, rest⟩ := found
    -- The search counts bytes from the opening character, which is one byte, and so is the closing
    -- one.
    have hcs := hfound inner rest rfl
    have hslice : slice (String.ofList (opening :: cs)) 1 (1 + utf8Len inner) =
        .ok (String.ofList inner) := by
      have h := slice_append [opening] inner (closing :: rest)
      rwa [String.utf8Len_cons, String.utf8Len_nil, hopening, ← hcs] at h
    have hpos := size_sub_rest
      (show opening :: cs = opening :: (inner ++ [closing]) ++ rest by simp [hcs]) before
    rw [String.utf8Len_cons, String.utf8Len_append, String.utf8Len_cons, String.utf8Len_nil,
      hopening, hclosing] at hpos
    simp only [Option.map_some, hslice, Step.enclosed, Turn.ofStep, hpos]
    show Except.ok (Turn.emit _ ⟨after, _⟩) = _
    congr 3
    omega

theorem braced_eq (before cs : List Char) :
    braced (String.ofList (before ++ '{' :: cs)) (utf8Len before) =
      .ok (Turn.ofStep (String.ofList (before ++ '{' :: cs)) (Step.braced cs)) := by
  have hfind : findEnd countBrace 0 0 (('{' :: cs).flatMap utf8EncodeChar) =
      .ok ((takeBraced 0 [] cs).map fun found => 1 + utf8Len found.1) := by
    rw [findEnd_cons countsAscii_countBrace (by decide) rfl]
    exact findEnd_countBrace 0 [] cs 1
  have hfound : ∀ inner rest, takeBraced 0 [] cs = some (inner, rest) → cs = inner ++ '}' :: rest :=
    fun inner rest h => (takeBraced_zero_eq_some_iff.1 h).2
  have hstep : Step.braced cs = .enclosed .verbatim .brace .inWord (takeBraced 0 [] cs) := by
    unfold Step.braced
    cases takeBraced 0 [] cs <;> rfl
  rw [hstep]
  exact enclosed_eq rfl rfl hfind hfound .verbatim .brace .inWord before

theorem command_eq (after : Place) (before cs : List Char) :
    command after (String.ofList (before ++ '[' :: cs)) (utf8Len before) =
      .ok (Turn.ofStep (String.ofList (before ++ '[' :: cs)) (Step.command after cs)) := by
  have hfind : findEnd countBracket ⟨0, 0⟩ 0 (('[' :: cs).flatMap utf8EncodeChar) =
      .ok ((takeBracketed 0 0 [] cs).map fun found => 1 + utf8Len found.1) := by
    rw [findEnd_cons countsAscii_countBracket (by decide) rfl]
    exact findEnd_countBracket 0 0 [] cs 1
  have hfound : ∀ inner rest, takeBracketed 0 0 [] cs = some (inner, rest) →
      cs = inner ++ ']' :: rest :=
    fun inner rest h => append_of_takeBracketed h
  have hstep : Step.command after cs =
      .enclosed .command .bracket after (takeBracketed 0 0 [] cs) := by
    unfold Step.command
    cases takeBracketed 0 0 [] cs <;> rfl
  rw [hstep]
  exact enclosed_eq rfl rfl hfind hfound .command .bracket after before

theorem dollar_eq (after : Place) (before cs : List Char) :
    dollar after (String.ofList (before ++ '$' :: cs)) (utf8Len before) =
      .ok (Turn.ofStep (String.ofList (before ++ '$' :: cs)) (Step.dollar after cs)) := by
  have hbehind : sliceFrom (String.ofList ('$' :: cs)) 1 = .ok (String.ofList cs) :=
    sliceFrom_append ['$'] cs
  have hname := slice_zero_append (cs.takeWhile isNameChar) (cs.dropWhile isNameChar)
  rw [List.takeWhile_append_dropWhile] at hname
  have hpos := size_sub_rest
    (show '$' :: cs = '$' :: cs.takeWhile isNameChar ++ cs.dropWhile isNameChar by simp) before
  have hdollar : utf8Len before + (utf8Len (cs.takeWhile isNameChar) + '$'.utf8Size) =
      utf8Len before + 1 + utf8Len (cs.takeWhile isNameChar) := by
    have : '$'.utf8Size = 1 := rfl
    omega
  rw [String.utf8Len_cons, hdollar] at hpos
  -- Without a name behind it, the sign stands for itself, and the rest is all that follows.
  have hdrop : cs.takeWhile isNameChar = [] → cs.dropWhile isNameChar = cs := by
    intro h
    have hsplit := @List.takeWhile_append_dropWhile _ isNameChar cs
    rwa [h] at hsplit
  rw [dollar, sliceFrom_append]
  simp only [bind, Except.bind, hbehind, String.toList_ofList, hname, String.utf8Len_eq_zero]
  unfold Step.dollar
  split
  next hnil =>
    rw [hnil]
    simp only [Turn.ofStep]
    rw [hdrop hnil] at hpos
    rw [hpos, hnil]
    rfl
  next hne =>
    simp only [Turn.ofStep, hpos]
    rfl

theorem literal_eq {size : List Char → Nat} {piece : List Char} (hcs : cs = piece ++ rest)
    (hsize : size cs = utf8Len piece) (after : Place) (before : List Char) :
    literal size after (String.ofList (before ++ cs)) (utf8Len before) =
      .ok (Turn.ofStep (String.ofList (before ++ cs))
        (.emit (.literal (String.ofList (unescape piece))) after rest)) := by
  have hslice := slice_zero_append piece rest
  rw [← hcs] at hslice
  rw [literal, sliceFrom_append]
  simp only [bind, Except.bind, String.toList_ofList, hsize, hslice]
  rw [Turn.ofStep, size_sub_rest hcs]
  rfl

theorem bare_eq (before cs : List Char) :
    literal bareSize .inWord (String.ofList (before ++ cs)) (utf8Len before) =
      .ok (Turn.ofStep (String.ofList (before ++ cs)) (Step.bare cs)) :=
  literal_eq (append_takeBare [] cs).symm
    ((utf8Len_takeBare [] cs).trans (Nat.zero_add _)).symm .inWord before

theorem quoted_eq (before cs : List Char) :
    literal quotedSize (.quoted true) (String.ofList (before ++ cs)) (utf8Len before) =
      .ok (Turn.ofStep (String.ofList (before ++ cs)) (Step.quoted cs)) :=
  literal_eq (append_takeQuoted [] cs).symm
    ((utf8Len_takeQuoted [] cs).trans (Nat.zero_add _)).symm (.quoted true) before

theorem separatorEnd_of_space (space : List Char) (size : Nat) (hsize : utf8Len space = size + 1)
    (hspace : spaceSize (space ++ cs) = size + 1) (before : List Char) :
    separatorEnd (String.ofList (before ++ (space ++ cs))) (utf8Len before) =
      separatorEnd (String.ofList (before ++ space ++ cs)) (utf8Len (before ++ space)) := by
  have hle : utf8Len before + (size + 1) ≤
      (String.ofList (before ++ (space ++ cs))).utf8ByteSize := by
    rw [String.utf8ByteSize_ofList, String.utf8Len_append, String.utf8Len_append, hsize]
    omega
  conv_lhs => rw [separatorEnd, sliceFrom_append]
  simp only [bind, Except.bind, String.toList_ofList, hspace, if_pos hle]
  rw [List.append_assoc, String.utf8Len_append, hsize]

theorem separatorEnd_of_stop (hspace : spaceSize cs = 0) (before : List Char) :
    separatorEnd (String.ofList (before ++ cs)) (utf8Len before) = .ok (utf8Len before) := by
  rw [separatorEnd, sliceFrom_append]
  simp only [bind, Except.bind, String.toList_ofList, hspace]
  rfl

theorem separatorEnd_eq (taken cs before : List Char) {stop : Nat}
    (h : stop + utf8Len taken = utf8Len before + utf8Len (takeSeparator taken cs).1) :
    separatorEnd (String.ofList (before ++ cs)) (utf8Len before) = .ok stop := by
  fun_induction takeSeparator taken cs generalizing before with
  | case1 taken cs ih =>
    -- A hidden line end counts as one space of two bytes.
    refine (separatorEnd_of_space ['\\', '\n'] 1 rfl rfl before).trans (ih _ ?_)
    simp only [String.utf8Len_cons, String.utf8Len_append, String.utf8Len_nil]
    omega
  | case2 taken c cs hescape hspace ih =>
    have hc : c.utf8Size = 1 := by
      simp only [isSpace, Bool.or_eq_true, beq_iff_eq] at hspace
      obtain (rfl | rfl) | rfl := hspace <;> rfl
    have hsize : spaceSize (c :: cs) = 1 := by
      rw [spaceSize, if_pos hspace]
      exact hescape
    refine (separatorEnd_of_space [c] 0 ?_ hsize before).trans (ih _ ?_)
    · rw [String.utf8Len_cons, String.utf8Len_nil, hc]
    · simp only [String.utf8Len_cons, String.utf8Len_append, String.utf8Len_nil]
      omega
  | case3 taken c cs hescape hspace =>
    have hsize : spaceSize (c :: cs) = 0 := by
      rw [spaceSize, if_neg hspace]
      exact hescape
    rw [String.utf8Len_reverse] at h
    rw [separatorEnd_of_stop hsize, Nat.add_right_cancel h]
  | case4 taken =>
    rw [String.utf8Len_reverse] at h
    rw [separatorEnd_of_stop rfl, Nat.add_right_cancel h]

theorem separator_eq (place : Place) (before cs : List Char) :
    separator place (String.ofList (before ++ cs)) (utf8Len before) =
      .ok (Turn.ofStep (String.ofList (before ++ cs)) (Step.separator place cs)) := by
  have hcs : cs = (takeSeparator [] cs).1 ++ (takeSeparator [] cs).2 :=
    (append_takeSeparator [] cs).symm
  have hstop : separatorEnd (String.ofList (before ++ cs)) (utf8Len before) =
      .ok (utf8Len before + utf8Len (takeSeparator [] cs).1) :=
    separatorEnd_eq [] cs before rfl
  have hslice := slice_append before (takeSeparator [] cs).1 (takeSeparator [] cs).2
  rw [← hcs] at hslice
  rw [separator, hstop]
  simp only [bind, Except.bind, hslice]
  rw [Step.separator, Turn.ofStep, size_sub_rest hcs]
  rfl

theorem endOfLine_eq (before cs : List Char) :
    endOfLine (String.ofList (before ++ cs)) (utf8Len before) =
      .ok (Turn.ofStep (String.ofList (before ++ cs)) (Step.endOfLine cs)) := by
  have hcs : cs = cs.takeWhile isLineEnd ++ cs.dropWhile isLineEnd :=
    List.takeWhile_append_dropWhile.symm
  have hslice := slice_zero_append (cs.takeWhile isLineEnd) (cs.dropWhile isLineEnd)
  rw [← hcs] at hslice
  rw [endOfLine, sliceFrom_append]
  simp only [bind, Except.bind, String.toList_ofList, hslice]
  rw [Step.endOfLine, Turn.ofStep, size_sub_rest hcs]
  rfl

/-! ## Turns -/

theorem quotedTurn_eq (started : Bool) (before cs : List Char) :
    quotedTurn started (String.ofList (before ++ cs)) (utf8Len before) =
      .ok (Turn.ofStep (String.ofList (before ++ cs)) (quotedStep started cs)) := by
  rw [quotedTurn, sliceFrom_append]
  simp only [bind, Except.bind, String.toList_ofList]
  cases cs with
  | nil => rfl
  | cons c cs =>
    have hquote : c = '"' → (String.ofList (before ++ c :: cs)).utf8ByteSize - utf8Len cs =
        utf8Len before + 1 := by
      rintro rfl
      exact size_sub_rest (show '"' :: cs = ['"'] ++ cs from rfl) before
    simp only [quotedStep]
    split
    next hc =>
      simp only [← hquote hc]
      cases started <;> rfl
    next =>
    split
    next hc => exact hc ▸ command_eq (.quoted true) before cs
    next =>
    split
    next hc => exact hc ▸ dollar_eq (.quoted true) before cs
    next => exact quoted_eq before (c :: cs)

theorem plainTurn_eq (comments : Bool) (place : Place) (before cs : List Char) :
    plainTurn comments place (String.ofList (before ++ cs)) (utf8Len before) =
      .ok (Turn.ofStep (String.ofList (before ++ cs)) (plainStep comments place cs)) := by
  rw [plainTurn, sliceFrom_append]
  simp only [bind, Except.bind, String.toList_ofList]
  cases cs with
  | nil => rfl
  | cons c cs =>
    -- A turn asks the same questions as a step, in the same order.
    simp only [plainStep]
    split
    next => exact separator_eq place before (c :: cs)
    split
    next => exact endOfLine_eq before (c :: cs)
    split
    next hc =>
      obtain ⟨rfl, -⟩ := hc
      have hcomment : '#' :: cs =
          ('#' :: cs).takeWhile (· != '\n') ++ cs.dropWhile (· != '\n') := by
        rw [List.takeWhile_cons_of_pos rfl, List.cons_append, List.takeWhile_append_dropWhile]
      rw [Turn.ofStep, size_sub_rest hcomment]
      rfl
    split
    next hc => exact hc.1 ▸ braced_eq before cs
    split
    next hc =>
      obtain ⟨rfl, -⟩ := hc
      rw [Turn.ofStep, size_sub_rest (show '"' :: cs = ['"'] ++ cs from rfl)]
      rfl
    split
    next hc => exact hc ▸ command_eq .inWord before cs
    split
    next hc => exact hc ▸ dollar_eq .inWord before cs
    next => exact bare_eq before (c :: cs)

/-- A turn finds what a step finds. -/
theorem turn_eq (comments : Bool) (place : Place) (before cs : List Char) :
    turn comments (String.ofList (before ++ cs)) ⟨place, utf8Len before⟩ =
      .ok (Turn.ofStep (String.ofList (before ++ cs)) (step comments place cs)) := by
  cases place with
  | quoted started => exact quotedTurn_eq started before cs
  | _ => exact plainTurn_eq comments _ before cs

end Reader

/-! ## What a step leaves -/

/-- What is left is the end of the text, and no token says that the text is open. -/
def Step.Leaves (cs : List Char) : Step → Prop
  | .emit (.malformed _) _ _ => False
  | .skip _ rest | .emit _ _ rest => rest <:+ cs
  | _ => True

theorem Step.of_leaves_emit {token : Token}
    (h : (Step.emit token after rest).Leaves cs) :
    rest <:+ cs ∧ ∀ what, token ≠ .malformed what := by
  cases token with
  | malformed what => exact h.elim
  | _ =>
    refine ⟨h, ?_⟩
    rintro what ⟨⟩

theorem Step.leaves_command (after : Place) (c : Char) (rest : List Char) :
    (command after rest).Leaves (c :: rest) := by
  unfold command
  split
  next h => exact (suffix_of_takeBracketed h).trans (List.suffix_cons c rest)
  next => trivial

theorem Step.leaves_braced (c : Char) (rest : List Char) : (braced rest).Leaves (c :: rest) := by
  unfold braced
  split
  next h => exact (suffix_of_takeBraced h).trans (List.suffix_cons c rest)
  next => trivial

theorem Step.leaves_dollar (after : Place) (c : Char) (rest : List Char) :
    (dollar after rest).Leaves (c :: rest) := by
  unfold dollar
  split
  · exact List.suffix_cons c rest
  · exact (List.dropWhile_suffix _).trans (List.suffix_cons c rest)

theorem quotedStep_leaves (started : Bool) (cs : List Char) :
    (quotedStep started cs).Leaves cs := by
  cases cs with
  | nil => trivial
  | cons c rest =>
    simp only [quotedStep]
    split
    next =>
      split
      · exact List.suffix_cons c rest
      · exact List.suffix_cons c rest
    split
    next => exact Step.leaves_command _ c rest
    split
    next => exact Step.leaves_dollar _ c rest
    next => exact suffix_takeQuoted _ _

theorem plainStep_leaves (comments : Bool) (place : Place) (cs : List Char) :
    (plainStep comments place cs).Leaves cs := by
  cases cs with
  | nil => trivial
  | cons c rest =>
    simp only [plainStep]
    split
    next => exact suffix_takeSeparator _ _
    split
    next => exact List.dropWhile_suffix _
    split
    next => exact (List.dropWhile_suffix _).trans (List.suffix_cons c rest)
    split
    next => exact Step.leaves_braced c rest
    split
    next => exact List.suffix_cons c rest
    split
    next => exact Step.leaves_command _ c rest
    split
    next => exact Step.leaves_dollar _ c rest
    next => exact suffix_takeBare _ _

theorem step_leaves (comments : Bool) (place : Place) (cs : List Char) :
    (step comments place cs).Leaves cs := by
  cases place with
  | quoted started => exact quotedStep_leaves started cs
  | _ => exact plainStep_leaves comments _ cs

/-! ## Runs -/

namespace Reader

/-- The reader behind a text. -/
def behind (place : Place) (before : List Char) : Reader := ⟨place, utf8Len before⟩

theorem next_of_finished (h : step comments place cs = .finished) (before : List Char) :
    (behind place before).next comments (String.ofList (before ++ cs)) = .ok none := by
  have hturn := turn_eq comments place before cs
  rw [h, Turn.ofStep] at hturn
  rw [next, behind, hturn]

theorem next_of_unclosed {what : Unclosed} (h : step comments place cs = .unclosed what)
    (before : List Char) :
    ∃ after, (behind place before).next comments (String.ofList (before ++ cs)) =
      .ok (some (.malformed what, after)) := by
  have hturn := turn_eq comments place before cs
  rw [h, Turn.ofStep, unclosed] at hturn
  rw [next, behind, hturn]
  exact ⟨_, rfl⟩

theorem next_of_emit {token : Token} {piece : List Char}
    (h : step comments place (piece ++ rest) = .emit token after rest) (before : List Char) :
    (behind place before).next comments (String.ofList (before ++ (piece ++ rest))) =
      .ok (some (token, behind after (before ++ piece))) := by
  have hturn := turn_eq comments place before (piece ++ rest)
  rw [h, Turn.ofStep, size_sub_rest rfl, ← String.utf8Len_append] at hturn
  rw [next, behind, hturn]
  rfl

theorem next_of_skip {piece : List Char}
    (h : step comments place (piece ++ rest) = .skip after rest) (before : List Char) :
    (behind place before).next comments (String.ofList (before ++ (piece ++ rest))) =
      (behind after (before ++ piece)).next comments
        (String.ofList (before ++ (piece ++ rest))) := by
  have hturn := turn_eq comments place before (piece ++ rest)
  rw [h, Turn.ofStep, size_sub_rest rfl, ← String.utf8Len_append] at hturn
  have hprogress : utf8Len before < utf8Len (before ++ piece) := by
    have hlength := length_of_step_eq_skip h
    have := Text.length_le_utf8Len piece
    rw [List.length_append] at hlength
    rw [String.utf8Len_append]
    omega
  have hinside : utf8Len (before ++ piece) ≤
      (String.ofList (before ++ (piece ++ rest))).utf8ByteSize := by
    rw [String.utf8ByteSize_ofList, ← List.append_assoc, String.utf8Len_append _ rest]
    exact Nat.le_add_right _ _
  conv_lhs => rw [next, behind, hturn]
  exact if_pos ⟨hprogress, hinside⟩

/-- From every place in a script, a reader finds the tokens of the rest, and no fault. -/
theorem exists_drain_behind_eq (comments : Bool) (place : Place) (before cs : List Char)
    {calls : Nat} (hcalls : cs.length < calls) :
    ∃ tokens ending,
      (behind place before).drain comments (String.ofList (before ++ cs)) calls =
        .ok (tokens, ending) ∧
      tokens.length ≤ cs.length ∧ Closed tokens ∧
      tokensFrom comments place cs = tokens ++ ending.toList.map .malformed := by
  -- Along the steps, each of which takes a character.
  induction h : cs.length using Nat.strong_induction_on generalizing place before cs calls with
  | h n ih =>
    subst h
    obtain ⟨calls, rfl⟩ := Nat.exists_eq_add_one_of_ne_zero (Nat.ne_zero_of_lt hcalls)
    have hleaves := step_leaves comments place cs
    rw [tokensFrom_eq]
    cases hstep : step comments place cs with
    | finished =>
      rw [drain, next_of_finished hstep]
      exact ⟨[], none, rfl, Nat.zero_le _, nofun, rfl⟩
    | unclosed what =>
      obtain ⟨after, hnext⟩ := next_of_unclosed hstep before
      rw [drain, hnext]
      exact ⟨[], some what, rfl, Nat.zero_le _, nofun, rfl⟩
    | skip after rest =>
      rw [hstep] at hleaves
      obtain ⟨piece, rfl⟩ := hleaves
      have hshorter := length_of_step_eq_skip hstep
      obtain ⟨tokens, ending, hdrain, hlength, hclosed, htokens⟩ :=
        ih rest.length hshorter after (before ++ piece) rest (hshorter.trans hcalls) rfl
      refine ⟨tokens, ending, ?_, hlength.trans hshorter.le, hclosed, htokens⟩
      rw [drain, next_of_skip hstep]
      rwa [List.append_assoc, drain] at hdrain
    | emit token after rest =>
      rw [hstep] at hleaves
      obtain ⟨⟨piece, rfl⟩, htoken⟩ := Step.of_leaves_emit hleaves
      have hshorter := length_of_step_eq_emit hstep
      obtain ⟨tokens, ending, hdrain, hlength, hclosed, htokens⟩ :=
        ih rest.length hshorter after (before ++ piece) rest
          (show rest.length < calls by omega) rfl
      rw [List.append_assoc] at hdrain
      refine ⟨token :: tokens, ending, ?_, hlength.trans_lt hshorter, ?_, ?_⟩
      · rw [drain, next_of_emit hstep]
        simp only [bind, Except.bind, hdrain]
        cases token with
        | malformed what => exact absurd rfl (htoken what)
        | _ => rfl
      · intro what hmem
        rcases List.mem_cons.1 hmem with hmem | hmem
        · exact htoken what hmem.symm
        · exact hclosed what hmem
      · exact congrArg (token :: ·) htokens

/-- A reader goes through a script without a fault, finds its tokens, and ends after at most as many
as the script has bytes. -/
theorem exists_drain_eq (comments : Bool) (text : String) :
    ∃ tokens ending,
      (Reader.mk .commandStart 0).drain comments text (text.utf8ByteSize + 1) =
        .ok (tokens, ending) ∧
      tokens.length ≤ text.utf8ByteSize ∧ Closed tokens ∧
      scan comments text = tokens ++ ending.toList.map .malformed := by
  have hsize : text.toList.length ≤ text.utf8ByteSize := by
    rw [← String.utf8Len_toList]
    exact Text.length_le_utf8Len _
  obtain ⟨tokens, ending, hdrain, hlength, hclosed, htokens⟩ :=
    exists_drain_behind_eq comments .commandStart [] text.toList (Nat.lt_succ_of_le hsize)
  rw [List.nil_append, String.ofList_toList] at hdrain
  exact ⟨tokens, ending, hdrain, hlength.trans hsize, hclosed, htokens⟩

end Reader

end SheetScript.Script
