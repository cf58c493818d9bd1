import Mathlib
import SheetScript.Proofs.Script.Rounds
import SheetScript.Proofs.Script.WordList
import SheetScript.Script.Journal

/-!
# Formatted lists as commands

`evaluates_format_iff`: to evaluate a formatted list as a script is to call its elements, one level
deeper. The first element names the procedure and the others are its arguments, whatever their
characters: none of them is substituted, split, taken for a comment or for the end of the command.

The tokens of a formatted list are the same for a script as for a list (`scan_format`), and all of
them are fixed. So the evaluation only puts words together (`runTokens_of_isFixed`), up to the end
of the script, where it calls them.
-/

namespace SheetScript.Script

variable {H : Type} [Host H] {i j : Interp H} {outcome : Outcome}

/-! ## One level of nesting, one command -/

theorem nested_of_lt {body : Run H String} (h : i.depth < i.maxDepth) :
    Run.nested body i = (body { i with depth := i.depth + 1 }).map fun (outcome, k) =>
      (outcome, { k with depth := k.depth - 1 }) := by
  rw [Run.nested, if_neg (Nat.not_le.2 h)]
  cases body { i with depth := i.depth + 1 } <;> rfl

/-- The state after a command: a result is stored in the innermost frame. -/
def Interp.storing (i : Interp H) : Outcome → Interp H
  | .ok value => i.setResult value
  | .error _ => i

@[simp] theorem Interp.depth_storing (i : Interp H) (outcome : Outcome) :
    (i.storing outcome).depth = i.depth := by
  cases outcome <;> rfl

theorem endCommand_apply {call : String → List String → Run H String} {words : Words}
    (h : words.toList ≠ []) (result : String) (i : Interp H) :
    endCommand call words result i = (callWords call words.toList i).map fun (outcome, k) =>
      (outcome, k.storing outcome) := by
  obtain ⟨name, args, hwords⟩ := List.exists_cons_of_ne_nil h
  simp only [endCommand, hwords, Run.bind_apply]
  cases callWords call (name :: args) i with
  | none => rfl
  | some ending =>
    obtain ⟨outcome, k⟩ := ending
    cases outcome <;> rfl

/-- A host command that answers leaves a new host and nothing else. -/
theorem call_of_answer {eval : String → Run H String} (rounds : Nat) {name : String}
    {args : List String} {c : Host.Command H} {host : H} {result : Except ScriptError String}
    (hget : i.procedures.get? name = some (.command c))
    (hanswer : Host.perform c args i.host = .answer host result) :
    call eval (rounds + 1) name args i = some (result.mapError .error, { i with host }) := by
  rw [call, Run.get_bind_apply, hget]
  simp only [hanswer]
  cases result <;> rfl

theorem call_of_define {eval : String → Run H String} (rounds : Nat) {name defined : String}
    {args : List String} {c : Host.Command H} {p : ScriptedProcedure}
    (hget : i.procedures.get? name = some (.command c))
    (hdefine : Host.perform c args i.host = .define defined p) :
    call eval (rounds + 1) name args i = some (.ok "", i.define defined p) := by
  rw [call, Run.get_bind_apply, hget]
  simp only [hdefine]
  rfl

/-! ## Formatted lists -/

namespace WordList

/-- Tokens that are fixed only add to the words of the command. -/
theorem runTokens_of_isFixed {eval : String → Run H String}
    {call : String → List String → Run H String} {tokens : List Token}
    (h : ∀ token ∈ tokens, IsFixed token) (words : Words) (result : String) :
    runTokens eval call words result tokens = endCommand call (tokens.foldl push words) result := by
  induction tokens generalizing words with
  | nil => rfl
  | cons token tokens ih =>
    obtain ⟨htoken, htokens⟩ := List.forall_mem_cons.1 h
    rw [List.foldl_cons, ← ih htokens]
    cases htoken <;> rfl

theorem evalScript_format (rounds : Nat) {args : List String} (hargs : args ≠ [])
    (hdepth : i.depth < i.maxDepth) :
    evalScript (rounds + 1) (format args) i =
      (callWords (call (evalScript rounds) rounds) args { i with depth := i.depth + 1 }).map
        fun (outcome, k) => (outcome, { k.storing outcome with depth := k.depth - 1 }) := by
  have hwords : ((rowTokens args).foldl push {}).toList = args := toList_foldl_push rfl args
  have hne : ((rowTokens args).foldl push {}).toList ≠ [] := by rwa [hwords]
  rw [evalScript, nested_of_lt hdepth, scan_format, runTokens_of_isFixed (isFixed_rowTokens args),
    endCommand_apply hne, hwords, Option.map_map]
  simp [Function.comp_def]

/-- Evaluating a formatted list is calling its elements. -/
theorem evaluates_format_iff (i : Interp H) (hdepth : i.depth < i.maxDepth) {args : List String}
    (hargs : args ≠ []) (outcome : Outcome) (j : Interp H) :
    Evaluates (format args) i outcome j ↔
      ∃ k, Calls args { i with depth := i.depth + 1 } outcome k ∧
        j = { k.storing outcome with depth := k.depth - 1 } := by
  constructor
  · rintro ⟨rounds, hrun⟩
    cases rounds with
    | zero => cases hrun
    | succ rounds =>
      rw [evalScript_format rounds hargs hdepth, Option.map_eq_some_iff] at hrun
      obtain ⟨⟨outcome, k⟩, hcall, hend⟩ := hrun
      cases hend
      exact ⟨k, ⟨rounds, rounds, hcall⟩, rfl⟩
  · rintro ⟨k, hcall, rfl⟩
    obtain ⟨rounds, hcall⟩ := calls_iff_exists_rounds.1 hcall
    exact ⟨rounds + 1, by rw [evalScript_format rounds hargs hdepth, hcall]; rfl⟩

/-- Texts that a script would read as a comment, two commands, a substitution and an open brace. -/
def riskyLines : List String := ["#a", "b; c", "$d [e", "\x7bf\n"]

theorem evaluates_format_iff_journaling :
    journaling.depth < journaling.maxDepth ∧ "log" :: riskyLines ≠ [] ∧
      Evaluates (format ("log" :: riskyLines)) journaling (.ok "4")
        ({ journaling with host := ⟨riskyLines⟩ }.setResult "4") := by
  have hdepth : journaling.depth < journaling.maxDepth := by decide
  have hargs : "log" :: riskyLines ≠ [] := List.cons_ne_nil _ _
  have hcall : Calls ("log" :: riskyLines) { journaling with depth := 1 } (.ok "4")
      { journaling with depth := 1, host := ⟨riskyLines⟩ } :=
    ⟨0, 1, call_of_answer (i := { journaling with depth := 1 }) 0 journaling_get? rfl⟩
  exact ⟨hdepth, hargs, (evaluates_format_iff journaling hdepth hargs _ _).2 ⟨_, hcall, rfl⟩⟩

end WordList

end SheetScript.Script
