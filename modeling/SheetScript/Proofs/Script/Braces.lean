import Mathlib
import SheetScript.Proofs.Script.Joined

/-!
# Texts in braces

`scan_braces_iff`: a text in braces is scanned as that text, and as nothing more, exactly when its
own braces match. What a brace matches is said by a grammar (`BracesMatch`), in which a backslash
takes the next character with it, whatever that is.

The scan only counts open braces. It goes over a text whose braces match with the count that it had
before (`takeBraced_append_of_bracesMatch`). And where it finds the brace at which the count runs
out, such a text lies before the first brace that closes (`exists_bracesMatch_of_takeBraced`): a
brace that opens before it has the next such text behind it, up to its own end.
-/

namespace SheetScript.Script

variable {comments : Bool} {depth : Nat} {taken cs inner rest text : List Char}

/-- A text in which every brace has its counterpart, except behind backslashes. Each backslash has
a character behind it. -/
inductive BracesMatch : List Char → Prop
  | nil : BracesMatch []
  | ordinary {c : Char} {rest : List Char} (hopen : c ≠ '{') (hclose : c ≠ '}') (hescape : c ≠ '\\')
      (hrest : BracesMatch rest) : BracesMatch (c :: rest)
  | escaped (c : Char) {rest : List Char} (hrest : BracesMatch rest) :
      BracesMatch ('\\' :: c :: rest)
  | braced {inner rest : List Char} (hinner : BracesMatch inner) (hrest : BracesMatch rest) :
      BracesMatch ('{' :: (inner ++ '}' :: rest))

/-! ## The count of open braces -/

/-- The scan goes over a text whose braces match, and the count is as before. -/
theorem takeBraced_append_of_bracesMatch (h : BracesMatch inner) (depth : Nat)
    (taken rest : List Char) :
    takeBraced depth taken (inner ++ rest) = takeBraced depth (inner.reverse ++ taken) rest := by
  induction h generalizing depth taken rest with
  | nil => rfl
  | ordinary hopen hclose hescape _ ih =>
    rw [List.cons_append, takeBraced, ih]
    · simp
    all_goals simp_all
  | escaped c _ ih =>
    rw [List.cons_append, List.cons_append, takeBraced, ih]
    simp
  | braced _ _ ihinner ihrest =>
    rw [List.cons_append, List.append_assoc, List.cons_append, takeBraced, ihinner, takeBraced,
      ihrest]
    simp

/-- Where the scan finds its end, the text up to the first brace that closes has matching braces,
and the scan goes on from that brace. -/
theorem exists_bracesMatch_of_takeBraced (h : takeBraced depth taken cs = some (text, rest)) :
    ∃ inner tail, BracesMatch inner ∧ cs = inner ++ '}' :: tail ∧
      takeBraced depth (inner.reverse ++ taken) ('}' :: tail) = some (text, rest) := by
  -- By the length of the text: behind an inner pair of braces the rest is shorter.
  induction hlength : cs.length using Nat.strong_induction_on generalizing depth taken cs with
  | h n ih =>
    subst hlength
    suffices hinner : ∃ inner tail, BracesMatch inner ∧ cs = inner ++ '}' :: tail by
      obtain ⟨inner, tail, hmatch, rfl⟩ := hinner
      exact ⟨inner, tail, hmatch, rfl, by rwa [← takeBraced_append_of_bracesMatch hmatch]⟩
    unfold takeBraced at h
    split at h
    next => cases h
    next c cs =>
      obtain ⟨inner, tail, hmatch, rfl, -⟩ := ih _ (by simp) h rfl
      exact ⟨_, tail, .escaped c hmatch, rfl⟩
    next cs =>
      obtain ⟨inner, tail, hinner, rfl, hafter⟩ := ih _ (by simp) h rfl
      rw [takeBraced] at hafter
      obtain ⟨behind, tail', hbehind, rfl, -⟩ := ih _ (by simp; omega) hafter rfl
      exact ⟨_, tail', .braced hinner hbehind, by simp⟩
    next cs => exact ⟨[], cs, .nil, rfl⟩
    next c cs hescape hopen hclose =>
      obtain ⟨inner, tail, hmatch, rfl, -⟩ := ih _ (by simp) h rfl
      refine ⟨c :: inner, tail, .ordinary hopen hclose ?_ hmatch, rfl⟩
      -- Before the brace that closes, a backslash would have had a character behind it.
      rintro rfl
      obtain ⟨d, ds, hcons⟩ := List.exists_cons_of_ne_nil (List.append_ne_nil_of_right_ne_nil inner
        (List.cons_ne_nil '}' tail))
      exact hescape d ds rfl hcons

theorem takeBraced_zero_eq_some_iff :
    takeBraced 0 [] cs = some (text, rest) ↔ BracesMatch text ∧ cs = text ++ '}' :: rest := by
  constructor
  · intro h
    obtain ⟨inner, tail, hmatch, rfl, hend⟩ := exists_bracesMatch_of_takeBraced h
    rw [takeBraced, List.append_nil, List.reverse_reverse] at hend
    cases hend
    exact ⟨hmatch, rfl⟩
  · rintro ⟨hmatch, rfl⟩
    rw [takeBraced_append_of_bracesMatch hmatch, takeBraced, List.append_nil, List.reverse_reverse]

/-! ## Scripts in braces -/

theorem tokensFrom_braced (comments : Bool) (cs : List Char) :
    tokensFrom comments .commandStart ('{' :: cs) = match takeBraced 0 [] cs with
      | some (text, rest) => .verbatim (String.ofList text) :: tokensFrom comments .inWord rest
      | none => [.malformed .brace] := by
  have hstep : step comments .commandStart ('{' :: cs) = Step.braced cs := by
    simp [step, plainStep, isSpace, isContinuation]
  rw [tokensFrom_eq, hstep, Step.braced]
  cases takeBraced 0 [] cs <;> rfl

/-- **A text in braces is taken as it stands exactly when its braces match.** With comments and
without, scanning a text that is put in braces finds the text itself, backslashes included, and then
the end, if and only if every brace in the text has its counterpart; braces behind backslashes do
not count, and no backslash stands at the end. -/
theorem scan_braces_iff (comments : Bool) (text : String) :
    scan comments ("\x7b" ++ text ++ "\x7d") = [.verbatim text] ↔ BracesMatch text.toList := by
  have htext : ("\x7b" ++ text ++ "\x7d").toList = '{' :: (text.toList ++ ['}']) := by simp
  rw [scan_eq_tokensFrom, htext, tokensFrom_braced]
  constructor
  · intro h
    cases htaken : takeBraced 0 [] (text.toList ++ ['}']) with
    | none => simp [htaken] at h
    | some taken =>
      obtain ⟨inner, rest⟩ := taken
      simp only [htaken, List.cons.injEq, Token.verbatim.injEq] at h
      rw [← h.1, String.toList_ofList]
      exact (takeBraced_zero_eq_some_iff.1 htaken).1
  · intro h
    rw [takeBraced_zero_eq_some_iff.2 ⟨h, rfl⟩]
    simp [tokensFrom_eq, step, plainStep]

end SheetScript.Script
