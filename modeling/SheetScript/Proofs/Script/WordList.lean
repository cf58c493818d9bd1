import Mathlib
import SheetScript.Script.WordList

/-!
# Lists that read back

`parse_format`: a list, written as text and split into words again, has the elements it had before,
whatever their characters.

An element is written in one of three ways. By itself and behind backslashes it is a `Bare` text:
ordinary characters and escapes, which the scanner takes as one piece up to the end of the word. In
braces its own braces match, so that the scanner finds the last brace (`takeBraced_append`). In each
case the word is one token (`step_formatElement`) and stands for the element
(`pieceOf_elementToken`).

All this holds with comments and without: an element with a leading number sign never stands by
itself. So a formatted list has the same tokens as a list and as a script (`scan_format`).
-/

namespace SheetScript.Script

variable {comments : Bool} {place : Place} {cs rest : List Char}

/-! ## Scanning token by token -/

theorem scanFrom_of_finished (h : step comments place cs = .finished) (found : List Token) :
    scanFrom comments place cs found = found.reverse := by
  rw [scanFrom]
  split <;> simp_all

theorem scanFrom_of_emit {token : Token} {after : Place}
    (h : step comments place cs = .emit token after rest) (found : List Token) :
    scanFrom comments place cs found = scanFrom comments after rest (token :: found) := by
  rw [scanFrom]
  split <;> simp_all

/-- A place at which a word can start. -/
def Place.BeforeWord (place : Place) : Prop := place = .commandStart ∨ place = .wordStart

theorem step_eq_plainStep (hplace : place.BeforeWord) :
    step comments place cs = plainStep comments place cs := by
  obtain rfl | rfl := hplace <;> rfl

/-- A word in a row of words ends before this text. -/
def AfterWord (rest : List Char) : Prop := rest = [] ∨ ∃ tail, rest = ' ' :: tail

theorem takeBare_of_afterWord (h : AfterWord rest) (taken : List Char) :
    takeBare taken rest = (taken.reverse, rest) := by
  obtain rfl | ⟨tail, rfl⟩ := h
  · rfl
  · simp [takeBare, isSpace]

/-- A separator is at its end before anything but a space and a hidden line end. -/
theorem takeSeparator_of_stop {c : Char} (h : (isSpace c || isContinuation c cs) = false)
    (taken : List Char) : takeSeparator taken (c :: cs) = (taken.reverse, c :: cs) := by
  rw [Bool.or_eq_false_iff] at h
  unfold takeSeparator
  split
  · simp_all [isContinuation]
  · simp_all
  · simp_all

/-- A separator that stands before a word is at its end there. -/
theorem takeSeparator_of_word {token : Token}
    (h : plainStep comments place cs = .emit token .inWord rest) (taken : List Char) :
    takeSeparator taken cs = (taken.reverse, cs) := by
  cases cs with
  | nil => rfl
  | cons c cs =>
    refine takeSeparator_of_stop ?_ taken
    by_contra hspace
    rw [Bool.not_eq_false] at hspace
    simp only [plainStep, hspace, if_true, Step.separator, Step.emit.injEq] at h
    split at h <;> simp at h

namespace WordList

/-! ## Words without braces -/

theorem of_not_isSpecial {c : Char} (h : isSpecial c = false) :
    isSpace c = false ∧ c ≠ '\n' ∧ c ≠ ';' ∧ c ≠ '"' ∧ c ≠ '$' ∧ c ≠ '[' ∧ c ≠ '{' ∧ c ≠ '\\' := by
  simp only [isSpecial, Bool.or_eq_false_iff, beq_eq_false_iff_ne] at h
  obtain ⟨⟨⟨⟨⟨⟨⟨⟨hblank, hsemicolon⟩, hquote⟩, hdollar⟩, hbracket⟩, -⟩, hbrace⟩, -⟩, hescape⟩ := h
  have hspace : isSpace c = false := by
    by_contra hspace
    simp only [isSpace, Bool.not_eq_false, Bool.or_eq_true, beq_iff_eq] at hspace
    obtain (rfl | rfl) | rfl := hspace <;> exact absurd hblank (by decide)
  have hline : c ≠ '\n' := by
    rintro rfl
    exact absurd hblank (by decide)
  exact ⟨hspace, hline, hsemicolon, hquote, hdollar, hbracket, hbrace, hescape⟩

/-- A text of ordinary characters and escapes, and what it stands for. -/
inductive Bare : List Char → List Char → Prop
  | nil : Bare [] []
  | ordinary {c : Char} {text meaning : List Char} (hc : isSpecial c = false)
      (htext : Bare text meaning) : Bare (c :: text) (c :: meaning)
  | escaped {c : Char} {text meaning : List Char} (hc : c ≠ '\n') (htext : Bare text meaning) :
      Bare ('\\' :: c :: text) (unescapeChar c :: meaning)

theorem takeBare_append {text meaning : List Char} (h : Bare text meaning) (hrest : AfterWord rest)
    (taken : List Char) : takeBare taken (text ++ rest) = (taken.reverse ++ text, rest) := by
  induction h generalizing taken with
  | nil => simpa using takeBare_of_afterWord hrest taken
  | @ordinary c text meaning hc htext ih =>
    have := of_not_isSpecial hc
    rw [List.cons_append, takeBare, if_neg, ih]
    all_goals simp_all
  | @escaped c text meaning hc htext ih =>
    rw [List.cons_append, List.cons_append, takeBare, ih]
    all_goals simp_all

theorem unescape_eq {text meaning : List Char} (h : Bare text meaning) :
    unescape text = meaning := by
  have go : ∀ done, unescape.go text done = done.reverse ++ meaning := by
    induction h with
    | nil => intro done; simp [unescape.go]
    | ordinary hc htext ih =>
      intro done
      have := of_not_isSpecial hc
      rw [unescape.go, ih]
      all_goals simp_all
    | escaped hc htext ih =>
      intro done
      rw [unescape.go, ih]
      simp
  simpa [unescape] using go []

/-- A text with a first character, which is no number sign and so starts no comment. -/
def StartsWord (text : List Char) : Prop := ∃ c tail, text = c :: tail ∧ c ≠ '#'

/-- A text of ordinary characters and escapes is one token, with comments and without. -/
theorem plainStep_bare {text meaning : List Char} (h : Bare text meaning) (hstart : StartsWord text)
    (hrest : AfterWord rest) :
    plainStep comments place (text ++ rest) =
      .emit (.literal (String.ofList meaning)) .inWord rest := by
  have hbare : Step.bare (text ++ rest) = .emit (.literal (String.ofList meaning)) .inWord rest := by
    simp [Step.bare, takeBare_append h hrest, unescape_eq h]
  rw [← hbare]
  -- What a step does depends on the first character only, and on a line end behind a backslash.
  obtain ⟨c, tail, rfl, hhash⟩ := hstart
  cases h with
  | ordinary hc _ =>
    have := of_not_isSpecial hc
    simp_all [plainStep, isContinuation]
  | escaped hc _ => simp [plainStep, isContinuation, isSpace, hc]

theorem bare_append {text meaning text' meaning' : List Char} (h : Bare text meaning)
    (h' : Bare text' meaning') : Bare (text ++ text') (meaning ++ meaning') := by
  induction h with
  | nil => exact h'
  | ordinary hc _ ih => exact .ordinary hc ih
  | escaped hc _ ih => exact .escaped hc ih

theorem bare_self {cs : List Char} (h : cs.any isSpecial = false) : Bare cs cs := by
  induction cs with
  | nil => exact .nil
  | cons c cs ih =>
    rw [List.any_cons, Bool.or_eq_false_iff] at h
    exact .ordinary h.1 (ih h.2)

/-- The letters that change their meaning behind a backslash are not special. -/
theorem unescapeChar_eq_self {c : Char} (h : (isSpecial c || c == '#') = true) (hline : c ≠ '\n') :
    unescapeChar c = c := by
  unfold unescapeChar
  split
  · exact absurd h (by decide)
  · exact absurd h (by decide)
  · exact absurd h (by decide)
  · exact absurd rfl hline
  · rfl

theorem bare_escape (c : Char) : Bare (escape c) [c] := by
  unfold escape
  split_ifs with hline htab hspecial
  · subst hline
    exact .escaped (by decide) .nil
  · subst htab
    exact .escaped (by decide) .nil
  · have hbare := Bare.escaped hline .nil
    rwa [unescapeChar_eq_self hspecial hline] at hbare
  · simp only [Bool.or_eq_true, not_or, Bool.not_eq_true] at hspecial
    exact .ordinary hspecial.1 .nil

theorem bare_flatMap_escape (cs : List Char) : Bare (cs.flatMap escape) cs := by
  induction cs with
  | nil => exact .nil
  | cons c cs ih =>
    rw [List.flatMap_cons]
    exact bare_append (bare_escape c) ih

theorem startsWord_flatMap_escape {cs : List Char} (h : cs ≠ []) :
    StartsWord (cs.flatMap escape) := by
  obtain ⟨c, cs, rfl⟩ := List.exists_cons_of_ne_nil h
  have hescape : StartsWord (escape c) := by
    unfold escape
    split_ifs with _ _ hspecial
    · exact ⟨'\\', _, rfl, by decide⟩
    · exact ⟨'\\', _, rfl, by decide⟩
    · exact ⟨'\\', _, rfl, by decide⟩
    · exact ⟨c, _, rfl, by rintro rfl; exact hspecial rfl⟩
  obtain ⟨d, tail, hd, hhash⟩ := hescape
  exact ⟨d, _, by rw [List.flatMap_cons, hd, List.cons_append], hhash⟩

theorem of_not_needsQuoting {cs : List Char} (h : needsQuoting cs = false) :
    StartsWord cs ∧ cs.any isSpecial = false := by
  simp only [needsQuoting, Bool.or_eq_false_iff] at h
  obtain ⟨⟨hempty, hhash⟩, hplain⟩ := h
  refine ⟨?_, hplain⟩
  cases cs with
  | nil => simp at hempty
  | cons c tail => exact ⟨c, tail, rfl, by simpa using hhash⟩

/-! ## Words in braces -/

/-- A text whose braces match ends at the first brace that matches none of them. -/
theorem takeBraced_append {depth : Nat} (h : fitsBraces depth cs = true) (rest taken : List Char) :
    takeBraced depth taken (cs ++ '}' :: rest) = some (taken.reverse ++ cs, rest) := by
  fun_induction fitsBraces depth cs generalizing taken with
  | case1 depth =>
    rw [beq_iff_eq] at h
    subst h
    simp [takeBraced]
  | case2 depth cs ih =>
    rw [List.cons_append, takeBraced, ih h]
    simp
  | case3 cs => exact absurd h Bool.false_ne_true
  | case4 cs depth ih =>
    rw [List.cons_append, takeBraced, ih h]
    simp
  | case5 => exact absurd h Bool.false_ne_true
  | case6 depth c cs hopen hclose hescape ih =>
    rw [List.cons_append, takeBraced, ih h]
    all_goals simp_all

theorem plainStep_braced (hplace : place.BeforeWord) (h : fitsBraces 0 cs = true) :
    plainStep comments place ('{' :: (cs ++ '}' :: rest)) =
      .emit (.verbatim (String.ofList cs)) .inWord rest := by
  have hword : place ≠ .inWord := by rintro rfl; simp [Place.BeforeWord] at hplace
  simp [plainStep, isSpace, isContinuation, hword, Step.braced, takeBraced_append h]

/-! ## Elements -/

/-- The only token of a formatted element. -/
def elementToken (element : String) : Token :=
  if needsQuoting element.toList && fitsBraces 0 element.toList then .verbatim element
  else .literal element

/-- A formatted element is one token, and none of its characters starts a comment. -/
theorem step_formatElement (comments : Bool) (hplace : place.BeforeWord) (element : String)
    (hrest : AfterWord rest) :
    Script.step comments place (formatElement element.toList ++ rest) =
      .emit (elementToken element) .inWord rest := by
  rw [step_eq_plainStep hplace, formatElement, elementToken]
  cases hquoting : needsQuoting element.toList with
  | false =>
    obtain ⟨hstart, hplain⟩ := of_not_needsQuoting hquoting
    simpa using plainStep_bare (bare_self hplain) hstart hrest
  | true =>
    cases hfits : fitsBraces 0 element.toList with
    | true => simpa using plainStep_braced hplace hfits
    | false =>
      -- The empty text fits in braces, so there is a first character to escape.
      have hne : element.toList ≠ [] := by
        intro hnil
        simp [hnil, fitsBraces] at hfits
      simpa using plainStep_bare (bare_flatMap_escape _) (startsWord_flatMap_escape hne) hrest

/-! ## Rows of elements -/

/-- The text of a list, character by character. -/
def row (elements : List String) : List Char :=
  [' '].intercalate (elements.map fun e => formatElement e.toList)

theorem toList_format (elements : List String) : (format elements).toList = row elements := by
  simp [format, row, String.toList_intercalate, Function.comp_def]

theorem row_cons_cons (e e' : String) (elements : List String) :
    row (e :: e' :: elements) = formatElement e.toList ++ ' ' :: row (e' :: elements) := by
  simp [row, List.intercalate_cons_cons]

theorem exists_row_cons (e : String) (elements : List String) :
    ∃ rest, AfterWord rest ∧ row (e :: elements) = formatElement e.toList ++ rest := by
  cases elements with
  | nil => exact ⟨[], .inl rfl, by simp [row]⟩
  | cons e' elements => exact ⟨_, .inr ⟨_, rfl⟩, row_cons_cons e e' elements⟩

theorem step_space_row (e : String) (elements : List String) :
    Script.step comments .inWord (' ' :: row (e :: elements)) =
      .emit (.separator " ") .wordStart (row (e :: elements)) := by
  obtain ⟨rest, hrest, hrow⟩ := exists_row_cons e elements
  have hword := step_formatElement comments (.inr rfl) e hrest
  rw [← hrow, step_eq_plainStep (.inr rfl)] at hword
  simp [Script.step, plainStep, isSpace, Step.separator, takeSeparator, takeSeparator_of_word hword]

/-- The tokens of a row of elements. -/
def rowTokens (elements : List String) : List Token :=
  (elements.map elementToken).intersperse (.separator " ")

theorem rowTokens_cons_cons (e e' : String) (elements : List String) :
    rowTokens (e :: e' :: elements) =
      elementToken e :: .separator " " :: rowTokens (e' :: elements) := by
  simp [rowTokens, List.intersperse_cons_cons]

theorem scanFrom_row (hplace : place.BeforeWord) (elements : List String) (found : List Token) :
    scanFrom comments place (row elements) found = found.reverse ++ rowTokens elements := by
  induction elements generalizing place found with
  | nil =>
    have hend : Script.step comments place [] = .finished := step_eq_plainStep hplace
    simpa [row, rowTokens] using scanFrom_of_finished hend found
  | cons e elements ih =>
    cases elements with
    | nil =>
      have hword := step_formatElement comments hplace e (.inl rfl)
      rw [show row [e] = formatElement e.toList ++ [] by simp [row], scanFrom_of_emit hword,
        scanFrom_of_finished rfl]
      simp [rowTokens]
    | cons e' elements =>
      have hrest : AfterWord (' ' :: row (e' :: elements)) := .inr ⟨_, rfl⟩
      have hword := step_formatElement comments hplace e hrest
      rw [row_cons_cons, scanFrom_of_emit hword, scanFrom_of_emit (step_space_row e' elements),
        ih (.inr rfl), rowTokens_cons_cons]
      simp

/-- A formatted list has the same tokens as a list and as a script. -/
theorem scan_format (comments : Bool) (elements : List String) :
    scan comments (format elements) = rowTokens elements := by
  rw [scan, toList_format, scanFrom_row (.inl rfl)]
  rfl

/-! ## Words from tokens -/

/-- A token that a list and a script read alike: a piece of text, or the end of a word. -/
inductive IsFixed : Token → Prop
  | separator (text : String) : IsFixed (.separator text)
  | verbatim (text : String) : IsFixed (.verbatim text)
  | literal (text : String) : IsFixed (.literal text)

/-- The words after one more token. -/
def push (words : Words) (token : Token) : Words :=
  match pieceOf token with
  | some piece => words.add piece
  | none => words.close

theorem pieceOf_elementToken (element : String) : pieceOf (elementToken element) = some element := by
  unfold elementToken
  split <;> rfl

theorem isFixed_elementToken (element : String) : IsFixed (elementToken element) := by
  unfold elementToken
  split
  · exact .verbatim element
  · exact .literal element

theorem isFixed_rowTokens (elements : List String) : ∀ token ∈ rowTokens elements, IsFixed token := by
  induction elements with
  | nil => simp [rowTokens]
  | cons e elements ih =>
    cases elements with
    | nil => simpa [rowTokens] using isFixed_elementToken e
    | cons e' elements =>
      rw [rowTokens_cons_cons, List.forall_mem_cons, List.forall_mem_cons]
      exact ⟨isFixed_elementToken e, .separator " ", ih⟩

theorem toList_foldl_push {words : Words} (h : words.fresh = true) (elements : List String) :
    ((rowTokens elements).foldl push words).toList = words.toList ++ elements := by
  obtain ⟨found, fresh⟩ := words
  subst h
  -- Each element starts a new word: the words are fresh at first, and again behind a separator.
  induction elements generalizing found with
  | nil => simp [rowTokens]
  | cons e elements ih =>
    have hpush : push ⟨found, true⟩ (elementToken e) = ⟨e :: found, false⟩ := by
      rw [push, pieceOf_elementToken]
      rfl
    cases elements with
    | nil => simp [rowTokens, hpush, Words.toList]
    | cons e' elements =>
      have hclose : push ⟨e :: found, false⟩ (.separator " ") = ⟨e :: found, true⟩ := rfl
      rw [rowTokens_cons_cons, List.foldl_cons, List.foldl_cons, hpush, hclose, ih]
      simp [Words.toList]

theorem foldlM_step_of_isFixed {tokens : List Token} (h : ∀ token ∈ tokens, IsFixed token)
    (words : Words) : tokens.foldlM step words = .ok (tokens.foldl push words) := by
  induction tokens generalizing words with
  | nil => rfl
  | cons token tokens ih =>
    obtain ⟨htoken, htokens⟩ := List.forall_mem_cons.1 h
    have hstep : step words token = .ok (push words token) := by
      cases htoken <;> rfl
    rw [List.foldlM_cons, hstep]
    exact ih htokens _

theorem parse_of_isFixed {text : String} (h : ∀ token ∈ scan false text, IsFixed token) :
    parse text = .ok ((scan false text).foldl push {}).toList := by
  rw [parse, foldlM_step_of_isFixed h]
  rfl

/-- Splitting a formatted list into words gives its elements. -/
theorem parse_format (elements : List String) : parse (format elements) = .ok elements := by
  have hfold := foldlM_step_of_isFixed (isFixed_rowTokens elements) {}
  rw [parse, scan_format, hfold]
  exact congrArg Except.ok (toList_foldl_push rfl elements)

end WordList

end SheetScript.Script
