import Mathlib
import SheetScript.Proofs.Script.Matching

/-!
# Enough rounds

Evaluation takes a number of rounds, so that it is total; what a script means does not depend on
it. An evaluation that ends, ends in the same way with more rounds (`evalScript_mono`,
`callWords_mono`), because equality of states is a relation that every operation keeps.

`Evaluates` and `Calls` say how a script and a call end, once there are enough rounds. They leave
nothing open: `Evaluates.unique`, `Calls.unique`. The evaluations and calls that the program makes,
with a fixed large number of rounds, either give up or end as they say (`Evaluates.eval_eq`,
`Calls.call_eq`).
-/

namespace SheetScript.Script

variable {H : Type} [Host H] {i j k : Interp H} {script : String} {words : List String}
  {outcome : Outcome}

/-! ## More rounds -/

theorem kept_eq : Kept fun (_ : Unit) (i j : Interp H) => i = j where
  get?_eq := by rintro _ i _ rfl name; rfl
  procedures_eq := by rintro _ i _ rfl; rfl
  host_eq := by rintro _ i _ rfl; rfl
  depth_eq := by rintro _ i _ rfl; rfl
  maxDepth_eq := by rintro _ i _ rfl; rfl
  modifyFrame := by rintro _ i _ rfl f; rfl
  define := by rintro _ i _ rfl name p; rfl
  emit := by rintro _ i _ rfl line; rfl
  withHost := by rintro _ i _ rfl host; rfl
  deeper := by
    rintro _ i _ rfl
    exact ⟨(), rfl, by rintro i' _ rfl; rfl⟩
  pushed := by
    rintro _ i _ rfl frame
    exact ⟨(), rfl, by rintro i' _ rfl; rfl⟩

/-- A computation that, once it ends, ends in the same way with more rounds. -/
def Steady {α : Type} (run : Nat → Run H α) : Prop :=
  ∀ m n, m ≤ n → Run.Matches (fun i j : Interp H => i = j) (run m) (run n)

theorem Steady.mono {α : Type} {run : Nat → Run H α} (h : Steady run) {m n : Nat} (hmn : m ≤ n)
    {ending : Except Flow α × Interp H} (hrun : run m i = some ending) : run n i = some ending := by
  obtain ⟨j, hrun', rfl⟩ := h m n hmn i i rfl ending.1 ending.2 hrun
  exact hrun'

theorem steady_evalScript (script : String) :
    Steady (H := H) fun rounds => evalScript rounds script :=
  fun _ _ hmn => kept_eq.matches_evalScript (a := ()) hmn script

/-- Two steady computations, one after the other, end when each of them has rounds enough. -/
theorem Steady.exists_bind_iff {α β : Type} {a : Nat → Run H α} {f : Nat → α → Run H β}
    (ha : Steady a) (hf : ∀ x, Steady fun n => f n x) {result : Except Flow β} :
    (∃ n, (a n >>= f n) i = some (result, k)) ↔
      (∃ flow, (∃ n, a n i = some (.error flow, k)) ∧ result = .error flow) ∨
      ∃ x j, (∃ n, a n i = some (.ok x, j)) ∧ ∃ n, f n x j = some (result, k) := by
  constructor
  · rintro ⟨n, hrun⟩
    rw [Run.bind_apply] at hrun
    cases hfirst : a n i with
    | none =>
      rw [hfirst] at hrun
      cases hrun
    | some ending =>
      rw [hfirst] at hrun
      obtain ⟨flow | x, j⟩ := ending
      · cases hrun
        exact .inl ⟨flow, ⟨n, hfirst⟩, rfl⟩
      · exact .inr ⟨x, j, ⟨n, hfirst⟩, n, hrun⟩
  · rintro (⟨flow, ⟨n, hfirst⟩, rfl⟩ | ⟨x, j, ⟨m, hfirst⟩, n, hrest⟩)
    · exact ⟨n, by rw [Run.bind_apply, hfirst]⟩
    · refine ⟨max m n, ?_⟩
      rw [Run.bind_apply, ha.mono (Nat.le_max_left m n) hfirst]
      exact (hf x).mono (Nat.le_max_right m n) hrest

theorem evalScript_mono {m n : Nat} (hmn : m ≤ n) {ending : Outcome × Interp H}
    (h : evalScript m script i = some ending) : evalScript n script i = some ending :=
  (steady_evalScript script).mono hmn h

theorem callWords_mono {d e m n : Nat} (hde : d ≤ e) (hmn : m ≤ n) {ending : Outcome × Interp H}
    (h : callWords (call (evalScript d) m) words i = some ending) :
    callWords (call (evalScript e) n) words i = some ending := by
  have heval : ∀ a script, Run.Matches (fun i j : Interp H => i = j) (evalScript d script)
      (evalScript e script) := fun a script => kept_eq.matches_evalScript (a := a) hde script
  have hmatches := (Run.sequential_matches _).callWords
    (kept_eq.matches_call (a := ()) heval hmn) words
  obtain ⟨j, hrun, rfl⟩ := hmatches i i rfl ending.1 ending.2 h
  exact hrun

/-! ## How scripts and calls end -/

/-- The script, started in the state `i`, ends with the outcome in the state `j`. -/
def Evaluates (script : String) (i : Interp H) (outcome : Outcome) (j : Interp H) : Prop :=
  ∃ rounds, evalScript rounds script i = some (outcome, j)

/-- The call of the words, started in the state `i`, ends with the outcome in the state `j`. -/
def Calls (words : List String) (i : Interp H) (outcome : Outcome) (j : Interp H) : Prop :=
  ∃ nested rounds, callWords (call (evalScript nested) rounds) words i = some (outcome, j)

theorem calls_iff_exists_rounds :
    Calls words i outcome j ↔
      ∃ rounds, callWords (call (evalScript rounds) rounds) words i = some (outcome, j) := by
  constructor
  · rintro ⟨nested, rounds, hrun⟩
    exact ⟨max nested rounds,
      callWords_mono (Nat.le_max_left nested rounds) (Nat.le_max_right nested rounds) hrun⟩
  · rintro ⟨rounds, hrun⟩
    exact ⟨rounds, rounds, hrun⟩

theorem Evaluates.unique {outcome' : Outcome} (h : Evaluates script i outcome j)
    (h' : Evaluates script i outcome' k) : outcome = outcome' ∧ j = k := by
  obtain ⟨m, hm⟩ := h
  obtain ⟨n, hn⟩ := h'
  have := (evalScript_mono (Nat.le_max_left m n) hm).symm.trans
    (evalScript_mono (Nat.le_max_right m n) hn)
  simpa using this

theorem Calls.unique {outcome' : Outcome} (h : Calls words i outcome j)
    (h' : Calls words i outcome' k) : outcome = outcome' ∧ j = k := by
  obtain ⟨m, hm⟩ := calls_iff_exists_rounds.1 h
  obtain ⟨n, hn⟩ := calls_iff_exists_rounds.1 h'
  have := (callWords_mono (Nat.le_max_left m n) (Nat.le_max_left m n) hm).symm.trans
    (callWords_mono (Nat.le_max_right m n) (Nat.le_max_right m n) hn)
  simpa using this

/-- The evaluation that the program runs ends as the relation says, unless it gives up before. -/
theorem Evaluates.eval_eq (h : Evaluates script i outcome j) :
    Interp.eval script i = none ∨ Interp.eval script i = some (outcome, j) := by
  cases hrun : Interp.eval script i with
  | none => exact .inl rfl
  | some ending =>
    obtain ⟨rfl, rfl⟩ := h.unique ⟨Interp.manyRounds, hrun⟩
    exact .inr rfl

theorem Calls.call_eq (h : Calls words i outcome j) :
    Interp.call words i = none ∨ Interp.call words i = some (outcome, j) := by
  cases hrun : Interp.call words i with
  | none => exact .inl rfl
  | some ending =>
    obtain ⟨rfl, rfl⟩ := h.unique ⟨Interp.manyRounds, Interp.manyRounds, hrun⟩
    exact .inr rfl

end SheetScript.Script
