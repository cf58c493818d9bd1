import Mathlib
import SheetScript.Proofs.Script.WordList
import SheetScript.Proofs.Text.Character

/-!
# Tokens of joined scripts

`tokensFrom_join`: a text that leaves nothing open and does not end with a backslash keeps its
tokens when another text follows on a new line. The line end between them becomes a token of its
own, which takes in the line ends at the end of the first text and those, with the spaces among
them, at the start of the second. Behind it the second text is scanned as by itself.

Every piece of a token ends where the line ends, or before (`takeSeparator_append`,
`takeBare_append_line` and so on), so a step finds the same with the line behind it as without
(`joint_step`). There are two exceptions: line ends, which go on into the next line, and what is
left open, which has no end without the next line.
-/

namespace SheetScript.Script

variable {comments : Bool} {place : Place} {cs rest tail : List Char}

/-! ## The tokens from a place on -/

/-- The tokens of a text that starts at the given place. -/
def tokensFrom (comments : Bool) (place : Place) (cs : List Char) : List Token :=
  scanFrom comments place cs []

theorem scanFrom_eq_append (comments : Bool) (place : Place) (cs : List Char)
    (found : List Token) :
    scanFrom comments place cs found = found.reverse ++ tokensFrom comments place cs := by
  induction h : cs.length using Nat.strong_induction_on generalizing place cs found with
  | h n ih =>
    subst h
    rw [tokensFrom, scanFrom, scanFrom]
    split
    next => simp
    next => simp
    next hstep => simpa [tokensFrom] using ih _ (length_of_step_eq_skip hstep) _ _ found rfl
    next token _ _ hstep =>
      rw [ih _ (length_of_step_eq_emit hstep) _ _ _ rfl,
        ih _ (length_of_step_eq_emit hstep) _ _ [token] rfl]
      simp

/-- What a step finds, before the tokens of the rest. -/
theorem tokensFrom_eq (comments : Bool) (place : Place) (cs : List Char) :
    tokensFrom comments place cs = match step comments place cs with
      | .finished => []
      | .unclosed what => [.malformed what]
      | .skip after rest => tokensFrom comments after rest
      | .emit token after rest => token :: tokensFrom comments after rest := by
  rw [tokensFrom, scanFrom]
  split <;> simp_all [scanFrom_eq_append]

theorem scan_eq_tokensFrom (comments : Bool) (text : String) :
    scan comments text = tokensFrom comments .commandStart text.toList := rfl

/-! ## Pieces with a line behind them -/

theorem getLast?_of_suffix (h : rest <:+ cs) (hlast : cs.getLast? ≠ some '\\') :
    rest.getLast? ≠ some '\\' := by
  obtain ⟨front, rfl⟩ := h
  intro hrest
  simp [List.getLast?_append, hrest] at hlast

theorem takeBraced_append_right {depth : Nat} {taken text : List Char}
    (h : takeBraced depth taken cs = some (text, rest)) (more : List Char) :
    takeBraced depth taken (cs ++ more) = some (text, rest ++ more) := by
  fun_induction takeBraced depth taken cs with
  | case6 depth taken c cs hescape hopen hclose ih =>
    -- A text that closes is not at its end behind a backslash.
    obtain ⟨d, ds, rfl⟩ : ∃ d ds, cs = d :: ds := by
      cases cs with
      | nil => simp [takeBraced] at h
      | cons d ds => exact ⟨d, ds, rfl⟩
    rw [List.cons_append, takeBraced, ih h]
    all_goals simp_all
  | _ => simp_all [takeBraced]

theorem suffix_of_takeBraced {depth : Nat} {taken text : List Char}
    (h : takeBraced depth taken cs = some (text, rest)) : rest <:+ cs := by
  fun_induction takeBraced depth taken cs with
  | case4 => simp_all
  | _ => grind [List.IsSuffix.trans, List.suffix_cons]

theorem takeBracketed_append_right {depth braces : Nat} {taken text : List Char}
    (h : takeBracketed depth braces taken cs = some (text, rest)) (more : List Char) :
    takeBracketed depth braces taken (cs ++ more) = some (text, rest ++ more) := by
  fun_induction takeBracketed depth braces taken cs with
  | case9 depth braces taken c cs hescape hopen hclose hbracket hend ih =>
    obtain ⟨d, ds, rfl⟩ : ∃ d ds, cs = d :: ds := by
      cases cs with
      | nil => simp [takeBracketed] at h
      | cons d ds => exact ⟨d, ds, rfl⟩
    rw [List.cons_append, takeBracketed, ih h]
    all_goals simp_all
  | _ => simp_all [takeBracketed]

theorem suffix_of_takeBracketed {depth braces : Nat} {taken text : List Char}
    (h : takeBracketed depth braces taken cs = some (text, rest)) : rest <:+ cs := by
  fun_induction takeBracketed depth braces taken cs <;>
    grind [List.IsSuffix.trans, List.suffix_cons]

theorem exists_cons_of_escape {c : Char} (hlast : (c :: cs).getLast? ≠ some '\\')
    (hc : c = '\\') : ∃ d ds, cs = d :: ds := by
  cases cs with
  | nil => simp [hc] at hlast
  | cons d ds => exact ⟨d, ds, rfl⟩

theorem takeSeparator_append (hlast : cs.getLast? ≠ some '\\') (taken : List Char) :
    takeSeparator taken (cs ++ '\n' :: tail) =
      ((takeSeparator taken cs).1, (takeSeparator taken cs).2 ++ '\n' :: tail) := by
  fun_induction takeSeparator taken cs with
  | case1 taken cs ih =>
    rw [List.cons_append, List.cons_append, takeSeparator, ih]
    exact getLast?_of_suffix ((List.suffix_cons _ _).trans (List.suffix_cons _ _)) hlast
  | case2 taken c cs hescape hspace ih =>
    rw [List.cons_append, takeSeparator, if_pos hspace, ih]
    · exact getLast?_of_suffix (List.suffix_cons _ _) hlast
    · rintro more rfl
      exact absurd hspace (by decide)
  | case3 taken c cs hescape hspace =>
    rw [List.cons_append, takeSeparator, if_neg hspace]
    intro more hc
    obtain ⟨d, ds, rfl⟩ := exists_cons_of_escape hlast hc
    simp_all
  | case4 taken => simp [takeSeparator, isSpace]

theorem takeBare_append_line (hlast : cs.getLast? ≠ some '\\') (taken : List Char) :
    takeBare taken (cs ++ '\n' :: tail) =
      ((takeBare taken cs).1, (takeBare taken cs).2 ++ '\n' :: tail) := by
  fun_induction takeBare taken cs with
  | case1 taken cs => simp [takeBare]
  | case2 taken c cs hescape ih =>
    rw [List.cons_append, List.cons_append, takeBare, ih]
    · exact getLast?_of_suffix ((List.suffix_cons _ _).trans (List.suffix_cons _ _)) hlast
    · simp_all
  | case3 taken c cs hline hescape hstop =>
    have hc : c ≠ '\\' := by
      rintro rfl
      exact absurd hstop (by decide)
    simp [takeBare, hc, hstop]
  | case4 taken c cs hline hescape hstop ih =>
    have hc : c ≠ '\\' := by
      intro hc
      obtain ⟨d, ds, rfl⟩ := exists_cons_of_escape hlast hc
      exact hescape d ds hc rfl
    rw [List.cons_append, takeBare, if_neg hstop, ih]
    · exact getLast?_of_suffix (List.suffix_cons _ _) hlast
    all_goals simp_all
  | case5 taken => simp [takeBare]

theorem takeQuoted_append (taken : List Char) (hrest : (takeQuoted taken cs).2 ≠ [])
    (more : List Char) :
    takeQuoted taken (cs ++ more) =
      ((takeQuoted taken cs).1, (takeQuoted taken cs).2 ++ more) := by
  fun_induction takeQuoted taken cs with
  | case1 taken c cs ih =>
    rw [List.cons_append, List.cons_append, takeQuoted, ih hrest]
  | case2 taken c cs hescape hstop =>
    have hc : c ≠ '\\' := by
      rintro rfl
      exact absurd hstop (by decide)
    simp [takeQuoted, hc, hstop]
  | case3 taken c cs hescape hstop ih =>
    -- A quoted text that ends behind a backslash is open.
    obtain ⟨d, ds, rfl⟩ : ∃ d ds, cs = d :: ds := by
      cases cs with
      | nil => simp [takeQuoted] at hrest
      | cons d ds => exact ⟨d, ds, rfl⟩
    rw [List.cons_append, takeQuoted, if_neg hstop, ih hrest]
    simp_all
  | case4 taken => simp at hrest

theorem suffix_takeSeparator (taken cs : List Char) : (takeSeparator taken cs).2 <:+ cs := by
  fun_induction takeSeparator taken cs <;> grind [List.IsSuffix.trans, List.suffix_cons]

theorem suffix_takeBare (taken cs : List Char) : (takeBare taken cs).2 <:+ cs := by
  fun_induction takeBare taken cs <;> grind [List.IsSuffix.trans, List.suffix_cons]

theorem suffix_takeQuoted (taken cs : List Char) : (takeQuoted taken cs).2 <:+ cs := by
  fun_induction takeQuoted taken cs <;> grind [List.IsSuffix.trans, List.suffix_cons]

/-! ## Steps with a line behind them -/

/-- What a step finds in a text, and what it finds when another text follows on a new line. -/
inductive Joint (cs tail : List Char) : Step → Step → Prop
  | skip {after : Place} {rest : List Char} (h : rest <:+ cs) :
      Joint cs tail (.skip after rest) (.skip after (rest ++ '\n' :: tail))
  | emit {token : Token} {after : Place} {rest : List Char} (h : rest <:+ cs) :
      Joint cs tail (.emit token after rest) (.emit token after (rest ++ '\n' :: tail))
  /-- Line ends up to the end of the text go on into the next line. -/
  | lineEnd {text text' : String} :
      Joint cs tail (.emit (.endOfLine text) .commandStart [])
        (.emit (.endOfLine text') .commandStart (tail.dropWhile isLineEnd))
  | unclosed {what : Unclosed} {found : Step} : Joint cs tail (.unclosed what) found
  /-- Quotes that the text leaves open, up to its end. -/
  | openQuote {token : Token} {started : Bool} {found : Step} :
      Joint cs tail (.emit token (.quoted started) []) found

theorem joint_command (after : Place) (c : Char) (rest tail : List Char) :
    Joint (c :: rest) tail (.command after rest) (.command after (rest ++ '\n' :: tail)) := by
  unfold Step.command
  cases h : takeBracketed 0 0 [] rest with
  | none => exact .unclosed
  | some taken =>
    rw [takeBracketed_append_right h]
    exact .emit ((suffix_of_takeBracketed h).trans (List.suffix_cons _ _))

theorem joint_braced (c : Char) (rest tail : List Char) :
    Joint (c :: rest) tail (.braced rest) (.braced (rest ++ '\n' :: tail)) := by
  unfold Step.braced
  cases h : takeBraced 0 [] rest with
  | none => exact .unclosed
  | some taken =>
    rw [takeBraced_append_right h]
    exact .emit ((suffix_of_takeBraced h).trans (List.suffix_cons _ _))

theorem joint_dollar (after : Place) (c : Char) (rest tail : List Char) :
    Joint (c :: rest) tail (.dollar after rest) (.dollar after (rest ++ '\n' :: tail)) := by
  have hline : isNameChar '\n' = false := by decide
  simp only [Step.dollar, Text.takeWhile_append_cons hline, Text.dropWhile_append_cons hline]
  split
  · exact .emit (List.suffix_cons _ _)
  · exact .emit ((List.dropWhile_suffix _).trans (List.suffix_cons _ _))

theorem joint_separator (hlast : cs.getLast? ≠ some '\\') (place : Place) (tail : List Char) :
    Joint cs tail (.separator place cs) (.separator place (cs ++ '\n' :: tail)) := by
  simp only [Step.separator, takeSeparator_append hlast]
  exact .emit (suffix_takeSeparator _ _)

theorem joint_bare (hlast : cs.getLast? ≠ some '\\') (tail : List Char) :
    Joint cs tail (.bare cs) (.bare (cs ++ '\n' :: tail)) := by
  simp only [Step.bare, takeBare_append_line hlast]
  exact .emit (suffix_takeBare _ _)

theorem joint_endOfLine (cs tail : List Char) :
    Joint cs tail (.endOfLine cs) (.endOfLine (cs ++ '\n' :: tail)) := by
  have hline : isLineEnd '\n' = true := rfl
  simp only [Step.endOfLine, List.takeWhile_append, List.dropWhile_append]
  cases h : cs.dropWhile isLineEnd with
  | nil => simpa [hline] using Joint.lineEnd
  | cons d ds =>
    have hcs := congrArg List.length (List.takeWhile_append_dropWhile (p := isLineEnd) (l := cs))
    rw [h, List.length_append, List.length_cons] at hcs
    rw [if_neg (by omega), List.isEmpty_cons, if_neg Bool.false_ne_true]
    exact .emit (h ▸ List.dropWhile_suffix _)

theorem joint_quoted (cs tail : List Char) :
    Joint cs tail (.quoted cs) (.quoted (cs ++ '\n' :: tail)) := by
  simp only [Step.quoted]
  by_cases h : (takeQuoted [] cs).2 = []
  · rw [h]
    exact .openQuote
  · rw [takeQuoted_append [] h]
    exact .emit (suffix_takeQuoted _ _)

theorem isContinuation_append {c : Char} (hlast : (c :: rest).getLast? ≠ some '\\')
    (tail : List Char) : isContinuation c (rest ++ '\n' :: tail) = isContinuation c rest := by
  by_cases hc : c = '\\'
  · obtain ⟨d, ds, rfl⟩ := exists_cons_of_escape hlast hc
    rfl
  · rw [isContinuation, isContinuation, beq_false_of_ne hc, Bool.false_and, Bool.false_and]

theorem joint_plainStep {c : Char} (hlast : (c :: rest).getLast? ≠ some '\\') (tail : List Char) :
    Joint (c :: rest) tail (plainStep comments place (c :: rest))
      (plainStep comments place (c :: (rest ++ '\n' :: tail))) := by
  have hcomment : ('\n' != '\n') = false := rfl
  simp only [plainStep, isContinuation_append hlast,
    Text.dropWhile_append_cons (p := (· != '\n')) hcomment]
  split
  next => exact joint_separator hlast place tail
  split
  next => exact joint_endOfLine _ tail
  split
  next => exact .skip ((List.dropWhile_suffix _).trans (List.suffix_cons c rest))
  split
  next => exact joint_braced c rest tail
  split
  next => exact .skip (List.suffix_cons c rest)
  split
  next => exact joint_command _ c rest tail
  split
  next => exact joint_dollar _ c rest tail
  next => exact joint_bare hlast tail

theorem joint_quotedStep (started : Bool) (c : Char) (rest tail : List Char) :
    Joint (c :: rest) tail (quotedStep started (c :: rest))
      (quotedStep started (c :: (rest ++ '\n' :: tail))) := by
  simp only [quotedStep]
  split
  next =>
    split
    · exact .skip (List.suffix_cons c rest)
    · exact .emit (List.suffix_cons c rest)
  split
  next => exact joint_command _ c rest tail
  split
  next => exact joint_dollar _ c rest tail
  next => exact joint_quoted _ tail

/-- A step finds the same with another line behind the text, but for line ends and what is open. -/
theorem joint_step (comments : Bool) (place : Place) (hne : cs ≠ [])
    (hlast : cs.getLast? ≠ some '\\') (tail : List Char) :
    Joint cs tail (step comments place cs) (step comments place (cs ++ '\n' :: tail)) := by
  obtain ⟨c, rest, rfl⟩ := List.exists_cons_of_ne_nil hne
  cases place with
  | quoted started => exact joint_quotedStep started c rest tail
  | _ => exact joint_plainStep hlast tail

/-! ## Joined texts -/

/-- No brace, bracket or quote is left open. -/
def Closed (tokens : List Token) : Prop := ∀ what, .malformed what ∉ tokens

/-- The tokens of a text, and those when another text follows on a new line: there is a token for
the line end, in place of the one for line ends at the end of the first text. -/
def JoinedTokens (comments : Bool) (tail : List Char) (tokens joined : List Token) : Prop :=
  ∃ front text, (tokens = front ∨ ∃ text', tokens = front ++ [.endOfLine text']) ∧
    joined = front ++ .endOfLine text ::
      tokensFrom comments .commandStart (tail.dropWhile isLineEnd)

theorem JoinedTokens.cons {tokens joined : List Token}
    (h : JoinedTokens comments tail tokens joined) (token : Token) :
    JoinedTokens comments tail (token :: tokens) (token :: joined) := by
  obtain ⟨front, text, htokens, rfl⟩ := h
  refine ⟨token :: front, text, ?_, rfl⟩
  obtain rfl | ⟨text', rfl⟩ := htokens
  · exact .inl rfl
  · exact .inr ⟨text', rfl⟩

theorem JoinedTokens.nil (comments : Bool) (tail : List Char) (text : String) :
    JoinedTokens comments tail []
      (.endOfLine text :: tokensFrom comments .commandStart (tail.dropWhile isLineEnd)) :=
  ⟨[], text, .inl rfl, rfl⟩

theorem JoinedTokens.lineEnd (comments : Bool) (tail : List Char) (text text' : String) :
    JoinedTokens comments tail [.endOfLine text']
      (.endOfLine text :: tokensFrom comments .commandStart (tail.dropWhile isLineEnd)) :=
  ⟨[], text, .inr ⟨text', rfl⟩, rfl⟩

theorem tokensFrom_quoted_nil (comments started : Bool) :
    tokensFrom comments (.quoted started) [] = [.malformed .quote] := tokensFrom_eq _ _ _

theorem joinedTokens_nil (comments : Bool) (place : Place) (tail : List Char)
    (hclosed : Closed (tokensFrom comments place [])) :
    JoinedTokens comments tail (tokensFrom comments place [])
      (tokensFrom comments place ('\n' :: tail)) := by
  cases place with
  | quoted started =>
    rw [tokensFrom_quoted_nil] at hclosed
    exact absurd List.mem_cons_self (hclosed .quote)
  | _ =>
    rw [tokensFrom_eq, tokensFrom_eq]
    exact .nil comments tail _

/-- A text that leaves nothing open keeps its tokens when another text follows on a new line. -/
theorem tokensFrom_join (comments : Bool) (place : Place) (tail : List Char)
    (hlast : cs.getLast? ≠ some '\\') (hclosed : Closed (tokensFrom comments place cs)) :
    JoinedTokens comments tail (tokensFrom comments place cs)
      (tokensFrom comments place (cs ++ '\n' :: tail)) := by
  -- Along the steps of the first text, each of which takes a character.
  induction h : cs.length using Nat.strong_induction_on generalizing place cs with
  | h n ih =>
    subst h
    by_cases hne : cs = []
    · subst hne
      exact joinedTokens_nil comments place tail hclosed
    have hjoint := joint_step comments place hne hlast tail
    rw [tokensFrom_eq comments place cs] at hclosed ⊢
    rw [tokensFrom_eq comments place (cs ++ _)]
    generalize hstep : step comments place cs = found at *
    generalize step comments place (cs ++ '\n' :: tail) = found' at *
    cases hjoint with
    | skip hrest =>
      exact ih _ (length_of_step_eq_skip hstep) _ (getLast?_of_suffix hrest hlast) hclosed rfl
    | emit hrest =>
      refine JoinedTokens.cons ?_ _
      exact ih _ (length_of_step_eq_emit hstep) _ (getLast?_of_suffix hrest hlast)
        (fun what hmem => hclosed what (List.mem_cons_of_mem _ hmem)) rfl
    | lineEnd =>
      simp only [tokensFrom_eq comments .commandStart []]
      exact .lineEnd comments tail _ _
    | unclosed => exact absurd List.mem_cons_self (hclosed _)
    | openQuote =>
      simp only [tokensFrom_quoted_nil] at hclosed
      exact absurd (List.mem_cons_of_mem _ List.mem_cons_self) (hclosed .quote)

end SheetScript.Script
