import SheetScript.Cell
import SheetScript.Proofs.Number.Numeral

/-!
# Contents typed in again

What a typed text stands for is a relation on the trimmed text (`Stands`), and `Content.ofInput`
computes it (`ofInput_eq_iff`). An empty cell, a number and a formula come back as they are when the
text of their cell is typed in again, and so does a text that was typed without quotes.

Quotes keep a text from being taken for something else, but the text of the cell no longer has them.
So a quoted text comes back exactly when it needs no quotes (`ofInput_toInput_iff`).
-/

namespace SheetScript

open Number (read? format)

/-! ## Numbers -/

namespace Number

/-- The text of any number stands for that number, whether or not it is finite. -/
theorem read?_format_plain (x : Float) : read? (format .plain x).toList = some x := by
  by_cases hfinite : isFinite x = true
  · exact read?_format hfinite
  · have hge : ¬ magnitude x < infinityBits := by simpa [isFinite] using hfinite
    rw [format, if_neg hge]
    by_cases hinfinite : magnitude x = infinityBits
    · have hx := ofMagnitude_magnitude x
      rw [hinfinite] at hx
      rw [if_pos hinfinite]
      cases hsign : isNegative x <;> rw [hsign] at hx <;> rw [← hx] <;> rfl
    · have hx : x = ofMagnitude false (infinityBits + (1 <<< 51)) := eq_ofMagnitude_of_lt (by omega)
      rw [if_neg hinfinite, hx]
      rfl

theorem mem_format_plain {x : Float} {c : Char} (hc : c ∈ (format .plain x).toList) :
    c.isAlphanum = true ∨ c = '-' ∨ c = '.' := by
  by_cases hfinite : isFinite x = true
  · obtain ⟨first, tail, htext, hfirst, htail, -⟩ := exists_format_eq_cons hfinite
    rw [htext] at hc
    have hdigit : ∀ {d : Char}, d.isDigit = true → d.isAlphanum = true :=
      fun hd => Text.isAlphanum_iff.2 (Or.inr hd)
    rcases List.mem_cons.1 hc with heq | hc
    · subst heq
      exact hfirst.elim (fun hd => Or.inl (hdigit hd)) fun hd => Or.inr (Or.inl hd.1)
    · exact (htail c hc).elim (fun hd => Or.inl (hdigit hd)) fun hd => Or.inr (Or.inr hd)
  · have hge : ¬ magnitude x < infinityBits := by simpa [isFinite] using hfinite
    have hword : ∀ word ∈ ["inf", "-inf", "NaN"],
        word.toList.all (fun d => d.isAlphanum || d == '-') = true := by decide
    have hformat : format .plain x ∈ ["inf", "-inf", "NaN"] := by
      rw [format, if_neg hge]
      split_ifs <;> decide
    have hmem := List.all_eq_true.1 (hword _ hformat) c hc
    rw [Bool.or_eq_true, beq_iff_eq] at hmem
    exact hmem.imp_right Or.inl

end Number

namespace Content

/-! ## What a text stands for -/

/-- A trimmed text that stands for itself: it is neither a formula, nor quoted, nor a number. -/
structure StandsAsText (cs : List Char) : Prop where
  ne_nil : cs ≠ []
  trimmed : Text.trim cs = cs
  noFormula : ∀ source, cs ≠ '=' :: source
  notQuoted : ∀ inner, cs ≠ '"' :: (inner ++ ['"'])
  noNumber : read? cs = none

/-- A trimmed text stands for a content. -/
inductive Stands : List Char → Content → Prop
  | empty : Stands [] .empty
  | formula (source : List Char) : Stands ('=' :: source) (.formula (String.ofList source))
  | quoted (inner : List Char) : Stands ('"' :: (inner ++ ['"'])) (.text (String.ofList inner))
  | number {cs : List Char} {x : Float} (h : read? cs = some x) : Stands cs (.number x)
  | text {cs : List Char} (h : StandsAsText cs) : Stands cs (.text (String.ofList cs))

variable {input : String} {cs inner : List Char} {content : Content} {x : Float}

theorem read?_equals (rest : List Char) : read? ('=' :: rest) = none := rfl

theorem read?_quote (rest : List Char) : read? ('"' :: rest) = none := rfl

/-- What is typed in stands for the content that it makes. -/
theorem stands_ofInput (input : String) : Stands (Text.trim input.toList) (ofInput input) := by
  have htrimmed := Text.trim_trim input.toList
  unfold ofInput
  generalize Text.trim input.toList = cs at htrimmed
  split
  next => exact .empty
  next source => exact .formula source
  next rest =>
    split
    next hlast =>
      obtain ⟨inner, hinner⟩ := List.getLast?_eq_some_iff.1 hlast
      subst hinner
      rw [List.dropLast_concat]
      exact .quoted inner
    next hlast =>
      refine .text ⟨List.cons_ne_nil _ _, htrimmed, fun source heq => ?_, fun inner heq => ?_,
        read?_quote rest⟩
      · cases heq
      · exact hlast (List.getLast?_eq_some_iff.2 ⟨inner, (List.cons.inj heq).2⟩)
  next cs hnil hequals hquote =>
    split
    next x hread => exact .number hread
    next hread =>
      exact .text ⟨hnil, htrimmed, hequals, fun inner heq => hquote _ heq, hread⟩

theorem ofInput_of_stands (h : Stands (Text.trim input.toList) content) :
    ofInput input = content := by
  unfold ofInput
  generalize Text.trim input.toList = cs at h
  cases h with
  | empty => rfl
  | formula source => rfl
  | quoted inner =>
    show (if (inner ++ ['"']).getLast? = some '"' then _ else _) = _
    rw [if_pos (List.getLast?_eq_some_iff.2 ⟨inner, rfl⟩), List.dropLast_concat]
  | number hread =>
    split
    next => cases hread
    next rest => rw [read?_equals] at hread; cases hread
    next rest => rw [read?_quote] at hread; cases hread
    next => rw [hread]
  | text h =>
    split
    next => exact absurd rfl h.ne_nil
    next source => exact absurd rfl (h.noFormula source)
    next rest =>
      rw [if_neg]
      intro hlast
      obtain ⟨inner, hinner⟩ := List.getLast?_eq_some_iff.1 hlast
      exact h.notQuoted inner (hinner ▸ rfl)
    next => rw [h.noNumber]

/-- A typed text makes a content exactly when it stands for it. -/
theorem ofInput_eq_iff : ofInput input = content ↔ Stands (Text.trim input.toList) content :=
  ⟨fun h => h ▸ stands_ofInput input, ofInput_of_stands⟩

/-- A text is typed in as itself exactly when it stands for itself: quotes around it would be lost,
and then the rest would be shorter. -/
theorem ofInput_eq_text_iff :
    ofInput (String.ofList cs) = text (String.ofList cs) ↔ StandsAsText cs := by
  rw [ofInput_eq_iff, String.toList_ofList]
  have hlength := Text.length_trim_le cs
  constructor
  · intro h
    generalize Text.trim cs = trimmed at h hlength
    generalize hcontent : text (String.ofList cs) = content at h
    cases h with
    | quoted inner =>
      have hinner : cs = inner := String.ofList_injective (Content.text.inj hcontent)
      subst hinner
      simp at hlength
    | text htext =>
      have hsame : cs = _ := String.ofList_injective (Content.text.inj hcontent)
      exact hsame ▸ htext
    | _ => cases hcontent
  · intro h
    rw [h.trimmed]
    exact .text h

/-! ## Typing a content in again -/

theorem trim_format (x : Float) :
    Text.trim (format .plain x).toList = (format .plain x).toList := by
  have hblank : ∀ c ∈ (format .plain x).toList, Text.isBlank c = false := by
    intro c hc
    rcases Number.mem_format_plain hc with hc | rfl | rfl
    · exact Text.isBlank_of_isAlphanum hc
    · decide
    · decide
  exact Text.trim_eq_self (fun c hc => hblank c (List.mem_of_head? hc))
    fun c hc => hblank c (List.mem_of_getLast? hc)

theorem ofInput_format (x : Float) : ofInput (format .plain x) = number x := by
  rw [ofInput_eq_iff, trim_format]
  exact .number (Number.read?_format_plain x)

/-- A content comes back unless it is a text whose quotes were needed. -/
theorem ofInput_toInput_iff :
    ofInput (ofInput input).toInput = ofInput input ↔
      ∀ inner, Text.trim input.toList = '"' :: (inner ++ ['"']) → StandsAsText inner := by
  have h := stands_ofInput input
  have htrimmed := Text.trim_trim input.toList
  generalize ofInput input = content at h
  generalize Text.trim input.toList = cs at h htrimmed
  cases h with
  | empty => exact iff_of_true rfl fun inner heq => by cases heq
  | formula source =>
    refine iff_of_true ?_ fun inner heq => by cases heq
    have hsource : ("=" ++ String.ofList source).toList = '=' :: source := by simp
    rw [toInput, ofInput_eq_iff, hsource, htrimmed]
    exact .formula source
  | quoted inner =>
    rw [toInput, ofInput_eq_text_iff]
    constructor
    · intro htext inner' heq
      have hinner : inner = inner' := by simpa using heq
      exact hinner ▸ htext
    · exact fun htext => htext inner rfl
  | number hread =>
    refine iff_of_true (ofInput_format _) fun inner heq => ?_
    rw [heq, read?_quote] at hread
    cases hread
  | text htext =>
    exact iff_of_true (ofInput_eq_text_iff.2 htext) fun inner heq => absurd heq (htext.notQuoted inner)

end Content

namespace Cell

theorem ofInput_eq_ofInput_iff {input input' : String} :
    ofInput input = ofInput input' ↔ Content.ofInput input = Content.ofInput input' := by
  constructor
  · intro h
    simpa [ofInput] using congrArg content h
  · exact fun h => congrArg ofContent h

/-- **What a cell gives for editing makes the same cell again, except where quotes were needed.**
For every typed text, typing in the text of its cell makes the same cell exactly when the text is
not quoted, or what stands between the quotes would be taken for that same text without them. -/
theorem ofInput_toInput_eq_iff (input : String) :
    ofInput (ofInput input).content.toInput = ofInput input ↔
      ∀ inner, Text.trim input.toList = '"' :: (inner ++ ['"']) → Content.StandsAsText inner := by
  have hcontent : (ofInput input).content = Content.ofInput input := content_ofContent _
  rw [ofInput_eq_ofInput_iff, hcontent]
  exact Content.ofInput_toInput_iff

/-- A quoted text that looks like a formula becomes one when its text is typed in again. -/
theorem ofInput_toInput_ne_quotedFormula :
    (ofInput "\"=1+1\"").content = .text "=1+1" ∧
      (ofInput (ofInput "\"=1+1\"").content.toInput).content = .formula "1+1" ∧
      ofInput (ofInput "\"=1+1\"").content.toInput ≠ ofInput "\"=1+1\"" := by
  have hquoted : (ofInput "\"=1+1\"").content = .text "=1+1" := by
    rw [ofInput, content_ofContent, Content.ofInput_eq_iff]
    exact .quoted ['=', '1', '+', '1']
  have hagain : (ofInput "=1+1").content = .formula "1+1" := by
    rw [ofInput, content_ofContent, Content.ofInput_eq_iff]
    exact .formula ['1', '+', '1']
  refine ⟨hquoted, hquoted ▸ hagain, fun h => ?_⟩
  have hsame := congrArg content h
  rw [hquoted] at hsame
  rw [Content.toInput, hagain] at hsame
  cases hsame

end Cell

end SheetScript
