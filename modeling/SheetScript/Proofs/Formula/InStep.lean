import Mathlib.Order.Defs.Unbundled
import SheetScript.Proofs.Formula.Inquiry

/-!
# Evaluations over two sources

Two runs are *in step* if from related states they end in related states with the same result, apart
from errors that are not counted. A run *settles* if what it finds is known to every later state.
Both pass from reading single cells to evaluating a formula, by induction over the inquiry that the
evaluation is (`inStep_evaluate`, `settles_evaluate`).
-/

namespace SheetScript.Formula

variable {σ τ α : Type}

theorem evaluate_ofValues (values : CellRef → Except FormulaError Float)
    (hasValue : CellRef → Bool) (nodes : List Node) :
    evaluate .wraps ⟨(CellSource.ofValues values hasValue).value, hasValue⟩ nodes () =
      (evaluateWith values hasValue nodes, ()) := rfl

/-! ## Two runs in step -/

section InStep

variable {rel : σ → τ → Prop} {left right : FormulaError → Prop}

/-- One of the runs ended with an error that does not count, or both ended with the same result and
in related states. -/
inductive Together (rel : σ → τ → Prop) (left right : FormulaError → Prop) :
    Except FormulaError α × σ → Except FormulaError α × τ → Prop
  | left {e : FormulaError} {s : σ} {ended : Except FormulaError α × τ} (h : left e) :
      Together rel left right (.error e, s) ended
  | right {e : FormulaError} {t : τ} {ended : Except FormulaError α × σ} (h : right e) :
      Together rel left right ended (.error e, t)
  | same {result : Except FormulaError α} {s : σ} {t : τ} (h : rel s t) :
      Together rel left right (result, s) (result, t)

/-- From related states the runs end together. -/
def InStep (rel : σ → τ → Prop) (left right : FormulaError → Prop) (run : Lookup σ α)
    (run' : Lookup τ α) : Prop :=
  ∀ s t, rel s t → Together rel left right (run s) (run' t)

theorem Inquiry.inStep_run (source : CellSource σ) (source' : CellSource τ)
    (hvalue : ∀ ref, InStep rel left right (source.value ref) (source'.value ref))
    (hhas : ∀ ref, source.hasValue ref = source'.hasValue ref) (inquiry : Inquiry α) :
    InStep rel left right (inquiry.run source) (inquiry.run source') := by
  induction inquiry with
  | answer result => exact fun s t hrel => .same hrel
  | ask ref next ih =>
    intro s t hrel
    have hask := hvalue ref s t hrel
    rw [run, run, Lookup.bind_apply, Lookup.bind_apply]
    generalize source.value ref s = asked at hask
    generalize source'.value ref t = asked' at hask
    cases hask with
    | left he => exact .left he
    | right he => exact .right he
    | @same result s' t' hrel' =>
      cases result with
      | error e => exact .same hrel'
      | ok x => exact ih x s' t' hrel'
  | look ref next ih =>
    rw [run, run, hhas ref]
    exact ih (source'.hasValue ref)

theorem inStep_evaluate {value : CellRef → Lookup σ Float} {value' : CellRef → Lookup τ Float}
    (h : ∀ ref, InStep rel left right (value ref) (value' ref)) (hasValue : CellRef → Bool)
    (nodes : List Node) :
    InStep rel left right (evaluate .wraps ⟨value, hasValue⟩ nodes)
      (evaluate .wraps ⟨value', hasValue⟩ nodes) := by
  obtain ⟨inquiry, -, hrun⟩ := exists_inquiry .wraps nodes
  rw [hrun, hrun]
  exact inquiry.inStep_run ⟨value, hasValue⟩ ⟨value', hasValue⟩ h fun _ => rfl

end InStep

/-! ## What is found is known -/

section Settles

variable {inv : σ → Prop} {le : σ → σ → Prop}

/-- A run from `s` ended in a state with `inv` above `s`, and the value that it found is known to
every state above. -/
structure Settled (inv : σ → Prop) (le : σ → σ → Prop) (known : σ → Except FormulaError α) (s : σ)
    (ended : Except FormulaError α × σ) : Prop where
  keeps : inv ended.2
  above : le s ended.2
  found : ∀ x, ended.1 = .ok x → ∀ t, le ended.2 t → known t = .ok x

/-- From every state with `inv` the run ends so that what it found is known. -/
def Settles (inv : σ → Prop) (le : σ → σ → Prop) (known : σ → Except FormulaError α)
    (run : Lookup σ α) : Prop :=
  ∀ s, inv s → Settled inv le known s (run s)

variable [IsPreorder σ le] {known : σ → CellRef → Except FormulaError Float}

theorem Inquiry.settles_run (source : CellSource σ)
    (h : ∀ ref, Settles inv le (fun t => known t ref) (source.value ref)) (inquiry : Inquiry α) :
    Settles inv le (fun t => (inquiry.run (.ofValues (known t) source.hasValue) ()).1)
      (inquiry.run source) := by
  induction inquiry with
  | answer result => exact fun s hs => ⟨hs, refl_of le s, fun _ h _ _ => h⟩
  | ask ref next ih =>
    intro s hs
    have hask := h ref s hs
    rw [run, Lookup.bind_apply]
    generalize source.value ref s = asked at hask
    obtain ⟨hinv, hle, hknown⟩ := hask
    rcases asked with ⟨_ | x, s'⟩
    · refine ⟨hinv, hle, fun y hy => ?_⟩
      cases hy
    · obtain ⟨hinv', hle', hrest⟩ := ih x s' hinv
      refine ⟨hinv', trans_of le hle hle', fun y hy t ht => ?_⟩
      have hfirst : (CellSource.ofValues (known t) source.hasValue).value ref () = (.ok x, ()) :=
        congrArg (·, ()) (hknown x rfl t (trans_of le hle' ht))
      rw [run, Lookup.bind_apply, hfirst]
      exact hrest y hy t ht
  | look ref next ih => exact ih (source.hasValue ref)

/-- An evaluation settles, if reading each cell does. -/
theorem settles_evaluate {value : CellRef → Lookup σ Float}
    (h : ∀ ref, Settles inv le (fun t => known t ref) (value ref)) (hasValue : CellRef → Bool)
    (nodes : List Node) :
    Settles inv le (fun t => evaluateWith (known t) hasValue nodes)
      (evaluate .wraps ⟨value, hasValue⟩ nodes) := by
  obtain ⟨inquiry, -, hrun⟩ := exists_inquiry .wraps nodes
  simp only [evaluateWith, hrun]
  exact inquiry.settles_run ⟨value, hasValue⟩ h

end Settles

end SheetScript.Formula
