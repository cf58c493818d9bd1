import SheetScript.Cell
import SheetScript.Proofs.Formula.Accepted

/-!
# The equals sign in front of a formula

A formula may be parsed with its equals sign or without it. When a formula is typed into a cell, its
sign is taken off, and what is left is parsed as a formula that may again have a sign. So the cell
holds what its text parses as, with one exception (`nodes_ofInput`): a text with a second sign
behind the first one is refused, but the cell holds what stands behind both.
-/

namespace SheetScript

open Formula

namespace Formula

variable {cs rest : List Char}

/-- A text that starts with an equals sign, which is not taken off, is refused there. -/
theorem ofTokens_scan_equals (h : Text.trimStart cs = '=' :: rest) :
    ∃ offset, ofTokens (scan cs) = .error (.malformed offset "=") := by
  have hlexemes := map_lexeme_scan cs
  rw [← lexemes_trimStart, h, lexemes_equals] at hlexemes
  obtain ⟨⟨kind, text, offset⟩, tokens, hscan, htoken, -⟩ := List.map_eq_cons_iff.1 hlexemes
  obtain ⟨rfl, rfl⟩ := Lexeme.mk.inj htoken
  exact ⟨offset, by rw [hscan]; rfl⟩

end Formula

namespace Cell

variable {input text text' : String} {source : List Char} {nodes : List Node}

theorem parseOrEmpty_eq_iff (hnodes : nodes ≠ []) :
    parseOrEmpty text = nodes ↔ parse text = .ok nodes := by
  unfold parseOrEmpty
  cases parse text with
  | error e => exact iff_of_false hnodes.symm nofun
  | ok nodes' => exact ⟨congrArg _, fun h => by cases h; rfl⟩

theorem parseOrEmpty_congr (h : ∀ nodes, parse text = .ok nodes ↔ parse text' = .ok nodes) :
    parseOrEmpty text = parseOrEmpty text' := by
  by_cases hempty : parseOrEmpty text' = []
  · by_contra hne
    have hparse := (parseOrEmpty_eq_iff (hempty ▸ hne)).1 (rfl : parseOrEmpty text = _)
    rw [h, ← parseOrEmpty_eq_iff (hempty ▸ hne)] at hparse
    exact hne hparse.symm
  · rw [parseOrEmpty_eq_iff hempty, h, ← parseOrEmpty_eq_iff hempty]

/-- **A typed formula and its text.** Unless a second equals sign stands behind the first one, a
cell holds the postfix sequence of the text that is typed in, and none if the text does not parse.
With a second sign the text does not parse, but the cell holds the sequence of what stands behind
both. -/
theorem nodes_ofInput (h : Text.trim input.toList = '=' :: source) :
    ((∀ rest, Text.trim source ≠ '=' :: rest) → (ofInput input).nodes = parseOrEmpty input) ∧
    ∀ rest, Text.trim source = '=' :: rest →
      (∃ offset, parse input = .error (.malformed offset "=")) ∧
      ∀ nodes, nodes ≠ [] → ((ofInput input).nodes = nodes ↔ ofTokens (scan rest) = .ok nodes) := by
  have hnodes : (ofInput input).nodes = parseOrEmpty (String.ofList source) := by
    rw [ofInput, Content.ofInput, h]
    rfl
  have hinput : parse input = ofTokens (scan source) := by
    rw [parse, h]
    rfl
  -- The text behind the sign ends as the whole text does, so only blanks in front of it can be
  -- left.
  have htrim : Text.trim source = Text.trimStart source := by
    have hlast : ∀ c, source.getLast? = some c → Text.isBlank c = false := by
      intro c hc
      have hinput : (Text.trim input.toList).getLast? = some c := by
        rw [h, List.getLast?_cons, hc, Option.getD_some]
      exact Text.trim_last_not_blank hinput
    rw [← Text.trim_append_blanks hlast (List.forall_mem_nil _), List.append_nil]
  rw [hnodes]
  constructor
  · intro hunsigned
    have hlexemes : (scan (Text.trimStart source)).map Token.lexeme =
        (scan source).map Token.lexeme := by
      rw [map_lexeme_scan, map_lexeme_scan, lexemes_trimStart]
    refine parseOrEmpty_congr fun nodes => ?_
    rw [hinput, parse, String.toList_ofList, stripEquals_eq_self hunsigned, htrim]
    exact ⟨ofTokens_congr hlexemes, ofTokens_congr hlexemes.symm⟩
  · intro rest hrest
    refine ⟨hinput ▸ ofTokens_scan_equals (htrim ▸ hrest), fun nodes hne => ?_⟩
    rw [parseOrEmpty_eq_iff hne, parse, String.toList_ofList, hrest, stripEquals]

/-- Blanks around the sign, and a second sign. -/
theorem nodes_ofInput_signs :
    (Text.trim " = A1".toList = '=' :: " A1".toList ∧
      (ofInput " = A1").nodes = parseOrEmpty " = A1") ∧
    (Text.trim "= =A1".toList = '=' :: " =A1".toList ∧
      (ofInput "= =A1").nodes = [.cell ⟨0, 0⟩]) := by
  have hone : Text.trim " = A1".toList = '=' :: " A1".toList := by decide
  have htwo : Text.trim "= =A1".toList = '=' :: " =A1".toList := by decide
  have hunsigned : ∀ rest, Text.trim " A1".toList ≠ '=' :: rest := by
    have htrim : Text.trim " A1".toList = ['A', '1'] := by decide
    rw [htrim]
    exact nofun
  have hsigned : Text.trim " =A1".toList = '=' :: ['A', '1'] := by decide
  have htokens : ofTokens (scan ['A', '1']) = .ok [.cell ⟨0, 0⟩] := by cbv
  exact ⟨⟨hone, (nodes_ofInput hone).1 hunsigned⟩,
    htwo, (((nodes_ofInput htwo).2 _ hsigned).2 _ (List.cons_ne_nil _ _)).2 htokens⟩

/-- With two signs a text is refused, but the cell that it makes has a formula. -/
theorem nodes_ofInput_ne_doubledSign :
    Text.trim "==A1".toList = '=' :: "=A1".toList ∧
      (parse "==A1" = .error (.malformed 0 "=")) ∧ (ofInput "==A1").nodes = [.cell ⟨0, 0⟩] ∧
      (ofInput "==A1").nodes ≠ parseOrEmpty "==A1" := by
  have hparse : parse "==A1" = .error (.malformed 0 "=") := by cbv
  have hnodes : (ofInput "==A1").nodes = [.cell ⟨0, 0⟩] := by cbv
  refine ⟨by decide, hparse, hnodes, ?_⟩
  rw [hnodes, parseOrEmpty, hparse]
  exact List.cons_ne_nil _ _

end Cell

end SheetScript
