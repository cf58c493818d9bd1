import Mathlib
import SheetScript.Proofs.Script.Joined
import SheetScript.Proofs.Script.ListCommand

/-!
# Scripts in sequence

`evaluates_join`: to evaluate two scripts, joined by a line end, is to evaluate the first one, and
then the second one in the state that it leaves, if it leaves a result. A second script without a
command keeps the result of the first one. This takes a first script that leaves nothing open and
does not end with a backslash, which would take the line end in.

By `tokensFrom_join` the tokens of the joined scripts are those of the first one, a line end and
those of the second one. The line end ends the last command of the first script, as the end of the
script would, and hands its result on (`runTokens_append`). What stands at the start of the second
script makes no difference: there is no word to end (`runTokens_dropWhile_isLineEnd`).
-/

namespace SheetScript.Script

open Run

variable {H : Type} [Host H] {i j : Interp H} {first second : String}
  {eval : String → Run H String} {call : String → List String → Run H String}

/-! ## Commands one after the other -/

theorem runTokens_append (words : Words) (result : String) (front tokens : List Token)
    (text : String) :
    runTokens eval call words result (front ++ .endOfLine text :: tokens) =
      runTokens eval call words result front >>= fun result =>
        runTokens eval call {} result tokens := by
  induction front generalizing words result with
  | nil => rfl
  | cons token front ih =>
    cases token with
    | separator text => exact ih _ _
    | endOfLine text => simp only [List.cons_append, runTokens, ih, bind_assoc]
    | malformed what => rfl
    | «variable» name => simp only [List.cons_append, runTokens, ih, bind_assoc]
    | command script => simp only [List.cons_append, runTokens, ih, bind_assoc]
    | verbatim text => exact ih _ _
    | literal text => exact ih _ _

theorem runTokens_append_endOfLine (words : Words) (result : String) (front : List Token)
    (text : String) :
    runTokens eval call words result (front ++ [.endOfLine text]) =
      runTokens eval call words result front := by
  rw [runTokens_append]
  exact bind_pure (m := Run H) _

/-! ## The start of a script -/

theorem takeSeparator_snd (taken taken' cs : List Char) :
    (takeSeparator taken cs).2 = (takeSeparator taken' cs).2 := by
  fun_induction takeSeparator taken cs generalizing taken' with
  | case1 taken cs ih => rw [ih, takeSeparator]
  | case2 taken c cs hescape hspace ih =>
    rw [ih (c :: taken'), takeSeparator.eq_def taken' (c :: cs)]
    split <;> simp_all
  | case3 taken c cs hescape hspace =>
    rw [takeSeparator.eq_def]
    split <;> simp_all
  | case4 taken => rfl

theorem tokensFrom_of_separator {c : Char} {cs : List Char}
    (h : (isSpace c || isContinuation c cs) = true) :
    tokensFrom true .commandStart (c :: cs) =
      .separator (String.ofList (takeSeparator [] (c :: cs)).1) ::
        tokensFrom true .commandStart (takeSeparator [] (c :: cs)).2 := by
  have hstep : step true .commandStart (c :: cs) = .separator .commandStart (c :: cs) := by
    rw [step_eq_plainStep (.inl rfl), plainStep, if_pos h]
  rw [tokensFrom_eq, hstep]
  rfl

theorem runTokens_takeSeparator (result : String) (cs : List Char) :
    runTokens eval call {} result (tokensFrom true .commandStart (takeSeparator [] cs).2) =
      runTokens eval call {} result (tokensFrom true .commandStart cs) := by
  cases cs with
  | nil => rfl
  | cons c cs =>
    cases h : isSpace c || isContinuation c cs with
    | true => rw [tokensFrom_of_separator h]; rfl
    | false => rw [takeSeparator_of_stop h]

theorem runTokens_dropWhile_isLineEnd (result : String) (cs : List Char) :
    runTokens eval call {} result (tokensFrom true .commandStart (cs.dropWhile isLineEnd)) =
      runTokens eval call {} result (tokensFrom true .commandStart cs) := by
  induction cs with
  | nil => rfl
  | cons c cs ih =>
    cases hspace : isSpace c with
    | true =>
      have hend : isLineEnd c = true := by simp [isLineEnd, hspace]
      have hsep : (takeSeparator [] (c :: cs)).2 = (takeSeparator [] cs).2 := by
        rw [takeSeparator_snd [] [c] cs, takeSeparator, if_pos hspace]
        rintro more rfl
        exact absurd hspace (by decide)
      rw [List.dropWhile_cons_of_pos hend, ih, ← runTokens_takeSeparator,
        ← runTokens_takeSeparator result (c :: cs), hsep]
    | false =>
      by_cases hline : c = '\n' ∨ c = ';'
      · have hstep : step true .commandStart (c :: cs) = .endOfLine (c :: cs) := by
          obtain rfl | rfl := hline <;> rfl
        rw [tokensFrom_eq true .commandStart (c :: cs), hstep]
        rfl
      · have hend : isLineEnd c = false := by
          rw [not_or] at hline
          simp [isLineEnd, hspace, hline]
        rw [List.dropWhile_cons_of_neg (by simp [hend])]

/-! ## The result of a script without commands -/

/-- The tokens have a piece of a word. -/
def holdWord (tokens : List Token) : Bool :=
  tokens.any fun token => (WordList.pieceOf token).isSome

theorem toList_add_ne_nil (words : Words) (piece : String) : (words.add piece).toList ≠ [] := by
  unfold Words.add
  split <;> simp [Words.toList]

theorem endCommand_of_words {words : Words} (h : words.toList ≠ []) (result result' : String) :
    endCommand call words result = endCommand call words result' := by
  funext i
  rw [endCommand_apply h, endCommand_apply h]

theorem endCommand_of_no_words {words : Words} (h : words.toList = []) (result : String) :
    endCommand call words result = pure result := by
  rw [endCommand, h]

/-- As soon as there is a word, its command decides the result. -/
theorem runTokens_result_of_words {words : Words} {tokens : List Token}
    (h : words.toList ≠ [] ∨ holdWord tokens = true) (result result' : String) :
    runTokens eval call words result tokens = runTokens eval call words result' tokens := by
  induction tokens generalizing words result result' with
  | nil => exact endCommand_of_words (by simpa [holdWord] using h) result result'
  | cons token tokens ih =>
    have hadd : ∀ piece, runTokens eval call (words.add piece) result tokens =
        runTokens eval call (words.add piece) result' tokens :=
      fun piece => ih (.inl (toList_add_ne_nil words piece)) result result'
    cases token with
    | separator text => exact ih (show words.close.toList ≠ [] ∨ _ from h) _ _
    | endOfLine text =>
      simp only [runTokens]
      by_cases hwords : words.toList = []
      · have htokens : holdWord tokens = true := h.resolve_left (not_not.2 hwords)
        rw [endCommand_of_no_words hwords, endCommand_of_no_words hwords]
        exact ih (.inr htokens) result result'
      · rw [endCommand_of_words hwords result result']
    | malformed what => rfl
    | «variable» name => simp only [runTokens, hadd]
    | command script => simp only [runTokens, hadd]
    | verbatim text => exact hadd text
    | literal text => exact hadd text

/-- Without any word, the result stays. -/
theorem runTokens_result_of_no_words {words : Words} {tokens : List Token}
    (hwords : words.toList = []) (h : holdWord tokens = false) (result result' : String) :
    runTokens eval call words result tokens =
      runTokens eval call words result' tokens >>= fun _ => pure result := by
  induction tokens generalizing words with
  | nil =>
    simp only [runTokens, endCommand_of_no_words hwords]
    rfl
  | cons token tokens ih =>
    cases token with
    | separator text => exact ih (show words.close.toList = [] from hwords) h
    | endOfLine text =>
      simp only [runTokens, endCommand_of_no_words hwords, pure_bind]
      exact ih rfl h
    | malformed what => rfl
    | «variable» name => simp [holdWord, WordList.pieceOf] at h
    | command script => simp [holdWord, WordList.pieceOf] at h
    | verbatim text => simp [holdWord, WordList.pieceOf] at h
    | literal text => simp [holdWord, WordList.pieceOf] at h

/-! ## Whole scripts -/

/-- The same interpreter on both sides, at a depth and with a limit of depth. -/
def AtLevel (level : Nat × Nat) (i j : Interp H) : Prop :=
  i = j ∧ i.depth = level.1 ∧ i.maxDepth = level.2

theorem kept_atLevel : Kept (AtLevel (H := H)) where
  get?_eq := by rintro _ i _ ⟨rfl, -⟩ name; rfl
  procedures_eq := by rintro _ i _ ⟨rfl, -⟩; rfl
  host_eq := by rintro _ i _ ⟨rfl, -⟩; rfl
  depth_eq := by rintro _ i _ ⟨rfl, -⟩; rfl
  maxDepth_eq := by rintro _ i _ ⟨rfl, -⟩; rfl
  modifyFrame := by rintro _ i _ ⟨rfl, h⟩ f; exact ⟨rfl, h⟩
  define := by rintro _ i _ ⟨rfl, h⟩ name p; exact ⟨rfl, h⟩
  emit := by rintro _ i _ ⟨rfl, h⟩ line; exact ⟨rfl, h⟩
  withHost := by rintro _ i _ ⟨rfl, h⟩ host; exact ⟨rfl, h⟩
  deeper := by
    rintro ⟨depth, maxDepth⟩ i _ ⟨rfl, hdepth, hmax⟩
    refine ⟨(depth + 1, maxDepth), ⟨rfl, congrArg (· + 1) hdepth, hmax⟩, ?_⟩
    rintro i' _ ⟨rfl, hdepth', hmax'⟩
    exact ⟨rfl, congrArg (· - 1) hdepth', hmax'⟩
  pushed := by
    rintro level i _ ⟨rfl, h⟩ frame
    exact ⟨level, ⟨rfl, h⟩, by rintro i' _ ⟨rfl, h'⟩; exact ⟨rfl, h'⟩⟩

/-- A computation that leaves the depth and its limit as they were. -/
def KeepsLevel {α : Type} (a : Run H α) : Prop :=
  ∀ i x j, a i = some (x, j) → j.depth = i.depth ∧ j.maxDepth = i.maxDepth

theorem nested_bind {α β : Type} {a : Run H α} (ha : KeepsLevel a) (f : α → Run H β) :
    nested (a >>= f) = nested a >>= fun x => nested (f x) := by
  funext i
  rw [bind_apply]
  by_cases hlimit : i.maxDepth ≤ i.depth
  · rw [nested, nested, if_pos hlimit, if_pos hlimit]
  · rw [nested, nested, if_neg hlimit, if_neg hlimit, bind_apply]
    cases hrun : a { i with depth := i.depth + 1 } with
    | none => rfl
    | some ending =>
      obtain ⟨x, j⟩ := ending
      have hdepth : j.depth = i.depth + 1 := (ha _ _ _ hrun).1
      have hmax : j.maxDepth = i.maxDepth := (ha _ _ _ hrun).2
      cases x with
      | error flow => rfl
      | ok x =>
        -- The second computation enters at the depth at which the first one ended.
        have hback : ¬ j.maxDepth ≤ j.depth - 1 := by omega
        have hagain : j.depth - 1 + 1 = j.depth := by omega
        simp only [nested, if_neg hback, hagain]

theorem nested_bind_pure {α β : Type} (a : Run H α) (g : α → β) :
    nested (a >>= fun x => pure (g x)) = nested a >>= fun x => pure (g x) := by
  funext i
  rw [bind_apply]
  by_cases hlimit : i.maxDepth ≤ i.depth
  · rw [nested, nested, if_pos hlimit, if_pos hlimit]
  · rw [nested, nested, if_neg hlimit, if_neg hlimit, bind_apply]
    rcases a { i with depth := i.depth + 1 } with _ | ⟨_ | x, j⟩ <;> rfl

theorem keepsLevel_runTokens (rounds : Nat) (words : Words) (result : String)
    (tokens : List Token) :
    KeepsLevel (H := H) (runTokens (evalScript rounds)
      (Script.call (evalScript rounds) rounds) words result tokens) := by
  intro i outcome j h
  have heval : ∀ level script, Matches (AtLevel (H := H) level) (evalScript rounds script)
      (evalScript rounds script) := fun _ => kept_atLevel.matches_evalScript (Nat.le_refl rounds)
  have hmatches := (kept_atLevel.compositional _).runTokens (heval (i.depth, i.maxDepth))
    (kept_atLevel.matches_call heval (Nat.le_refl rounds)) tokens words result
  obtain ⟨_, -, rfl, hlevel⟩ := hmatches i i ⟨rfl, rfl, rfl⟩ outcome j h
  exact hlevel

/-- The result after a second script, which keeps the one before if it has no command. -/
def resultAfter (earlier script later : String) : String :=
  if holdWord (scan true script) then later else earlier

theorem runTokens_after (earlier script : String) :
    runTokens eval call {} earlier (scan true script) =
      runTokens eval call {} "" (scan true script) >>= fun later =>
        pure (resultAfter earlier script later) := by
  cases h : holdWord (scan true script) with
  | true =>
    simp only [resultAfter, h, if_true]
    rw [runTokens_result_of_words (.inr h) earlier ""]
    exact (bind_pure (m := Run H) _).symm
  | false =>
    simp only [resultAfter, h, Bool.false_eq_true, if_false]
    exact runTokens_result_of_no_words rfl h earlier ""

theorem runTokens_join (hclosed : Closed (scan true first))
    (hlast : first.toList.getLast? ≠ some '\\') (second : String) :
    runTokens eval call {} "" (scan true (first ++ "\n" ++ second)) =
      runTokens eval call {} "" (scan true first) >>= fun earlier =>
        runTokens eval call {} earlier (scan true second) := by
  have htext : (first ++ "\n" ++ second).toList = first.toList ++ '\n' :: second.toList := by
    simp
  obtain ⟨front, text, hfirst, hjoined⟩ :=
    tokensFrom_join true .commandStart second.toList hlast hclosed
  rw [scan_eq_tokensFrom, htext, hjoined, runTokens_append]
  simp only [runTokens_dropWhile_isLineEnd, scan_eq_tokensFrom]
  obtain hfirst | ⟨text', hfirst⟩ := hfirst
  · rw [hfirst]
  · rw [hfirst, runTokens_append_endOfLine]

/-- Joined scripts run one after the other. -/
theorem evalScript_join (rounds : Nat) (hclosed : Closed (scan true first))
    (hlast : first.toList.getLast? ≠ some '\\') (second : String) :
    evalScript (H := H) rounds (first ++ "\n" ++ second) =
      evalScript rounds first >>= fun earlier =>
        evalScript rounds second >>= fun later => pure (resultAfter earlier second later) := by
  cases rounds with
  | zero => rfl
  | succ rounds =>
    simp only [evalScript]
    rw [runTokens_join hclosed hlast, nested_bind (keepsLevel_runTokens rounds _ _ _)]
    refine congrArg (nested _ >>= ·) (funext fun earlier => ?_)
    rw [runTokens_after, nested_bind_pure]

/-! ## How joined scripts end -/

/-- The outcome after a second script. -/
def outcomeAfter (earlier script : String) (outcome : Outcome) : Outcome :=
  outcome.map (resultAfter earlier script)

theorem bind_pure_apply {α β : Type} (a : Run H α) (g : α → β) (i : Interp H) :
    (a >>= fun x => pure (g x)) i = (a i).map fun (result, j) => (result.map g, j) := by
  rw [bind_apply]
  rcases a i with _ | ⟨_ | x, j⟩ <;> rfl

/-- Joined scripts end as the second one does behind the first, or as the first one does if that
leaves no result. -/
theorem evaluates_join_iff (hclosed : Closed (scan true first))
    (hlast : first.toList.getLast? ≠ some '\\') (second : String) (i : Interp H)
    (outcome : Outcome) (k : Interp H) :
    Evaluates (first ++ "\n" ++ second) i outcome k ↔
      (∃ earlier j later, Evaluates first i (.ok earlier) j ∧ Evaluates second j later k ∧
        outcome = outcomeAfter earlier second later) ∨
      ∃ flow, Evaluates first i (.error flow) k ∧ outcome = .error flow := by
  have hsteady : ∀ earlier, Steady (H := H) fun rounds =>
      evalScript rounds second >>= fun later => pure (resultAfter earlier second later) :=
    fun earlier m n hmn => (steady_evalScript second m n hmn).bind fun _ => matches_pure _
  simp only [Evaluates, evalScript_join _ hclosed hlast]
  rw [(steady_evalScript first).exists_bind_iff hsteady, or_comm]
  refine or_congr_left ?_
  constructor
  · rintro ⟨earlier, j, hfirst, rounds, hrun⟩
    rw [bind_pure_apply, Option.map_eq_some_iff] at hrun
    obtain ⟨⟨later, _⟩, hsecond, hend⟩ := hrun
    cases hend
    exact ⟨earlier, j, later, hfirst, ⟨rounds, hsecond⟩, rfl⟩
  · rintro ⟨earlier, j, later, hfirst, ⟨rounds, hsecond⟩, rfl⟩
    exact ⟨earlier, j, hfirst, rounds, by rw [bind_pure_apply, hsecond]; rfl⟩

/-- **Scripts run in sequence.** If the first of two scripts ends with a result, the two, joined by
a line end, end in the same way and in the same state as the second one does where the first one
has ended; only the result stays that of the first if the second has no command. If the first
script ends without a result, the two end in the same way and in the same state as it does, whatever
the second script is. -/
theorem evaluates_join (hclosed : Closed (scan true first))
    (hlast : first.toList.getLast? ≠ some '\\') (second : String) (i : Interp H) :
    (∀ earlier j, Evaluates first i (.ok earlier) j →
      ∀ outcome k, Evaluates (first ++ "\n" ++ second) i outcome k ↔
        ∃ later, Evaluates second j later k ∧ outcome = outcomeAfter earlier second later) ∧
    (∀ flow j, Evaluates first i (.error flow) j →
      ∀ outcome k, Evaluates (first ++ "\n" ++ second) i outcome k ↔
        outcome = .error flow ∧ k = j) := by
  refine ⟨?_, ?_⟩
  · intro earlier j hfirst outcome k
    rw [evaluates_join_iff hclosed hlast]
    constructor
    · rintro (⟨earlier', j', later, hfirst', hsecond, rfl⟩ | ⟨flow, hfirst', -⟩)
      · obtain ⟨heq, rfl⟩ := hfirst.unique hfirst'
        cases heq
        exact ⟨later, hsecond, rfl⟩
      · exact nomatch (hfirst.unique hfirst').1
    · rintro ⟨later, hsecond, rfl⟩
      exact .inl ⟨earlier, j, later, hfirst, hsecond, rfl⟩
  · intro flow j hfirst outcome k
    rw [evaluates_join_iff hclosed hlast]
    constructor
    · rintro (⟨earlier', j', later, hfirst', -, -⟩ | ⟨flow', hfirst', rfl⟩)
      · exact nomatch (hfirst.unique hfirst').1
      · obtain ⟨heq, rfl⟩ := hfirst.unique hfirst'
        exact ⟨heq.symm, rfl⟩
    · rintro ⟨rfl, rfl⟩
      exact .inr ⟨flow, hfirst, rfl⟩

/-- A script with a comment, quotes, a variable and line ends at its end. -/
def noting : String := "# [open\nlog \"a; b\" $x ;"

/-- The interpreter with a journal, after some lines were written; the variable of the script is
set. -/
def noted (lines : List String) (result : String) : Interp Journal :=
  { procedures := journaling.procedures
    frames := { current := { Frame.set {} "x" "1" with result } }
    host := ⟨lines⟩ }

theorem closed_noting : Closed (scan true noting) := by
  have hscan : scan true noting =
      [.endOfLine "\n", .literal "log", .separator " ", .literal "a; b", .separator " ",
        .variable "x", .separator " ", .endOfLine ";"] := by
    cbv
  rw [hscan]
  simp [Closed]

/-- With the variable set, the second script runs behind the first, and a comment keeps its result.
Without it, nothing is run behind the first script. -/
theorem evaluates_join_noting :
    Closed (scan true noting) ∧ noting.toList.getLast? ≠ some '\\' ∧
    (Evaluates noting (noted [] "") (.ok "2") (noted ["a; b", "1"] "2") ∧
      Evaluates (noting ++ "\n" ++ " ; log c") (noted [] "") (.ok "1")
        (noted ["a; b", "1", "c"] "1") ∧
      Evaluates (noting ++ "\n" ++ "# done") (noted [] "") (.ok "2") (noted ["a; b", "1"] "2")) ∧
    (Evaluates noting journaling (.error (.error (.undefinedVariable "x")))
        journaling ∧
      Evaluates (noting ++ "\n" ++ " ; log c") journaling
        (.error (.error (.undefinedVariable "x"))) journaling) := by
  have hlast : noting.toList.getLast? ≠ some '\\' := by decide
  have hfirst : evalScript 2 noting (noted [] "") = some (.ok "2", noted ["a; b", "1"] "2") := by
    cbv
  have hsecond : evalScript 2 " ; log c" (noted ["a; b", "1"] "2") =
      some (.ok "1", noted ["a; b", "1", "c"] "1") := by
    cbv
  have hcomment : evalScript 2 "# done" (noted ["a; b", "1"] "2") =
      some (.ok "", noted ["a; b", "1"] "2") := by
    cbv
  have hfails : evalScript 2 noting journaling =
      some (.error (.error (.undefinedVariable "x")), journaling) := by
    cbv
  refine ⟨closed_noting, hlast, ⟨⟨2, hfirst⟩, ?_, ?_⟩, ⟨2, hfails⟩, ?_⟩
  · exact ((evaluates_join closed_noting hlast " ; log c" _).1 _ _ ⟨2, hfirst⟩ _ _).2
      ⟨.ok "1", ⟨2, hsecond⟩, by cbv⟩
  · exact ((evaluates_join closed_noting hlast "# done" _).1 _ _ ⟨2, hfirst⟩ _ _).2
      ⟨.ok "", ⟨2, hcomment⟩, by cbv⟩
  · exact ((evaluates_join closed_noting hlast " ; log c" _).2 _ _ ⟨2, hfails⟩ _ _).2 ⟨rfl, rfl⟩

end SheetScript.Script
