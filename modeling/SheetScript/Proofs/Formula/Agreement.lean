import SheetScript.Proofs.Formula.Inquiry

/-!
# What an evaluation reads

Evaluation reads no cell outside the precedents of its formula. This is stated for two runs: one
over a source with a state, such as a store of values already computed, and one over plain values.
When the sources agree on the precedents, the runs agree (`agrees_evaluate`).

The run with a state may fail where the plain run does not, with one of the *extra* errors of the
comparison. All other outcomes are the same.

Between sources whose answers do not depend on their state this becomes `evaluate_confined`: a
formula has the same result over any two of them that answer alike for its precedents.
-/

namespace SheetScript

namespace Formula

variable {σ α β : Type} {overflow : Overflow}

/-! ## Comparing two runs -/

/-- How a run over a source with a state is compared with a run over plain values. -/
structure Comparison (σ : Type) where
  /-- Holds of the state before and after each read. -/
  inv : σ → Prop
  /-- The errors that both runs may fail with. -/
  shared : FormulaError → Prop
  /-- The errors that only the run with a state may fail with. -/
  extra : FormulaError → Prop
  shared_of_isEvaluation : ∀ e : FormulaError, e.IsEvaluation → shared e

/-- The run gives the plain result, of which `post` holds if it is a value, or an extra error. -/
def Agrees (c : Comparison σ) (post : α → Prop) (run : Lookup σ α) (plain : Lookup Unit α) :
    Prop :=
  ∀ s, c.inv s → c.inv (run s).2 ∧
    match (run s).1 with
    | .ok x => (plain ()).1 = .ok x ∧ post x
    | .error e => c.extra e ∨ (c.shared e ∧ (plain ()).1 = .error e)

variable {c : Comparison σ} {post : α → Prop} {run : Lookup σ α} {plain : Lookup Unit α}

theorem agrees_pure {x : α} (h : post x) : Agrees c post (pure x) (pure x) :=
  fun _ hs => ⟨hs, rfl, h⟩

theorem agrees_throw {e : FormulaError} (h : e.IsEvaluation) :
    Agrees c post (throw e) (throw e) :=
  fun _ hs => ⟨hs, Or.inr ⟨c.shared_of_isEvaluation e h, rfl⟩⟩

theorem Agrees.bind {post' : β → Prop} {next : α → Lookup σ β} {next' : α → Lookup Unit β}
    (h : Agrees c post run plain) (hnext : ∀ x, post x → Agrees c post' (next x) (next' x)) :
    Agrees c post' (run >>= next) (plain >>= next') := by
  intro s hs
  obtain ⟨hinv, hres⟩ := h s hs
  rw [Lookup.bind_apply, Lookup.bind_apply]
  rcases hr : run s with ⟨e | x, s'⟩ <;> rw [hr] at hinv hres
  · refine ⟨hinv, hres.imp_right fun ⟨hshared, hplain⟩ => ⟨hshared, ?_⟩⟩
    rcases hp : plain () with ⟨_ | _, _⟩ <;> rw [hp] at hplain <;> cases hplain
    rfl
  · obtain ⟨hplain, hx⟩ := hres
    rcases hp : plain () with ⟨_ | _, _⟩ <;> rw [hp] at hplain <;> cases hplain
    exact hnext x hx s' hinv

/-- The sources agree on the given cells. -/
structure SourcesAgree (c : Comparison σ) (cells : List CellRef) (source : CellSource σ)
    (plain : CellSource Unit) : Prop where
  value : ∀ ref ∈ cells, Agrees c (fun _ => True) (source.value ref) (plain.value ref)
  hasValue : ∀ ref ∈ cells, source.hasValue ref = plain.hasValue ref

variable {cells : List CellRef} {source : CellSource σ} {plainSource : CellSource Unit}

theorem Inquiry.Confined.agrees {inquiry : Inquiry α} (h : inquiry.Confined cells post)
    (hs : SourcesAgree c cells source plainSource) :
    Agrees c post (inquiry.run source) (inquiry.run plainSource) := by
  induction h with
  | ok hx => exact agrees_pure hx
  | error he => exact agrees_throw he
  | ask href _ ih => exact (hs.value _ href).bind fun x _ => ih x
  | look href _ ih =>
    rw [run, run, hs.hasValue _ href]
    exact ih _

/-- **Evaluation reads its precedents only.** Over sources that agree on them, runs agree. -/
theorem agrees_evaluate {nodes : List Node}
    (hs : SourcesAgree c (precedents nodes) source plainSource) :
    Agrees c (fun _ => True) (evaluate overflow source nodes)
      (evaluate overflow plainSource nodes) := by
  obtain ⟨inquiry, hconfined, hrun⟩ := exists_inquiry overflow nodes
  rw [hrun, hrun]
  exact hconfined.agrees hs

/-! ## Sources with fixed answers -/

/-- Runs that may fail with every error, but only in the same way, and keep `inv`. -/
def Comparison.keeping (inv : σ → Prop) : Comparison σ where
  inv := inv
  shared _ := True
  extra _ := False
  shared_of_isEvaluation _ _ := trivial

section Fixed

variable {nodes : List Node} {value : CellRef → Except FormulaError Float}
  {hasValue : CellRef → Bool}
  (hvalue : ∀ ref ∈ precedents nodes, ∀ s, (source.value ref s).1 = value ref)
  (hhas : ∀ ref ∈ precedents nodes, source.hasValue ref = hasValue ref)
include hvalue hhas

/-- Evaluation keeps what reading the precedents keeps. -/
theorem agrees_evaluate_ofValues {inv : σ → Prop}
    (hinv : ∀ ref ∈ precedents nodes, ∀ s, inv s → inv (source.value ref s).2) :
    Agrees (.keeping inv) (fun _ => True) (evaluate overflow source nodes)
      (evaluate overflow (.ofValues value hasValue) nodes) := by
  refine agrees_evaluate ⟨fun ref href s hs => ⟨hinv ref href s hs, ?_⟩, hhas⟩
  have heq := hvalue ref href s
  split
  next hres => exact ⟨heq.symm.trans hres, trivial⟩
  next hres => exact Or.inr ⟨trivial, heq.symm.trans hres⟩

/-- A source whose answers for the precedents do not depend on its state gives the formula the value
that it has over these answers. -/
theorem evaluate_fst (s : σ) :
    (evaluate overflow source nodes s).1 = evaluateWith value hasValue nodes overflow := by
  have hinv : ∀ ref ∈ precedents nodes, ∀ s : σ, True → True := fun _ _ _ _ => trivial
  obtain ⟨-, hres⟩ := agrees_evaluate_ofValues hvalue hhas hinv s trivial
  unfold evaluateWith
  split at hres
  next hrun => rw [hrun, hres.1]
  next hrun => rw [hrun, (hres.resolve_left id).2]

end Fixed

theorem evaluateWith_congr {nodes : List Node} {value value' : CellRef → Except FormulaError Float}
    {hasValue hasValue' : CellRef → Bool}
    (hvalue : ∀ ref ∈ precedents nodes, value ref = value' ref)
    (hhas : ∀ ref ∈ precedents nodes, hasValue ref = hasValue' ref) :
    evaluateWith value hasValue nodes overflow = evaluateWith value' hasValue' nodes overflow := by
  rw [evaluateWith]
  exact evaluate_fst (fun ref href _ => hvalue ref href) hhas ()

/-- **Evaluation is confined to the precedents.** Two sources that answer alike for the precedents
of a formula give it the same result, whatever they answer for other cells; and since no other cell
is read, evaluation keeps of a state all that reading the precedents keeps. This is so in a build
that stops at overflows, too. -/
theorem evaluate_confined {τ : Type} {source : CellSource σ} {source' : CellSource τ}
    {nodes : List Node}
    (hvalue : ∀ ref ∈ precedents nodes, ∀ s t, (source.value ref s).1 = (source'.value ref t).1)
    (hhas : ∀ ref ∈ precedents nodes, source.hasValue ref = source'.hasValue ref) (s : σ) (t : τ) :
    (evaluate overflow source nodes s).1 = (evaluate overflow source' nodes t).1 ∧
      ∀ inv : σ → Prop, (∀ ref ∈ precedents nodes, ∀ s, inv s → inv (source.value ref s).2) →
        inv s → inv (evaluate overflow source nodes s).2 := by
  have hleft : ∀ ref ∈ precedents nodes, ∀ s', (source.value ref s').1 = (source'.value ref t).1 :=
    fun ref href s' => hvalue ref href s' t
  have hright : ∀ ref ∈ precedents nodes, ∀ t', (source'.value ref t').1 = (source'.value ref t).1 :=
    fun ref href t' => (hvalue ref href s t').symm.trans (hvalue ref href s t)
  constructor
  · calc (evaluate overflow source nodes s).1
        = evaluateWith (fun ref => (source'.value ref t).1) source'.hasValue nodes overflow :=
          evaluate_fst hleft hhas s
      _ = (evaluate overflow source' nodes t).1 :=
          (evaluate_fst hright (fun _ _ => rfl) t).symm
  · intro inv hinv hs
    exact (agrees_evaluate_ofValues hleft hhas hinv s hs).1

/-- A source that keeps a list of the cells it is asked for; each of them holds one. -/
def recording : CellSource (List CellRef) where
  value ref := fun asked => (.ok 1, ref :: asked)
  hasValue _ := true

/-- A source in which only the given cells hold one; reading any other cell fails. -/
def guarded (cells : List CellRef) : CellSource Unit where
  value ref := if ref ∈ cells then pure 1 else throw (.recursionLimit 256)
  hasValue ref := cells.contains ref

/-- `SUM(A1:B2):C3`, whose range has a corner that is no cell. -/
def sumAsCorner : List Node :=
  [.cell ⟨0, 0⟩, .cell ⟨1, 1⟩, .operator .range, .function (.aggregate .sum), .cell ⟨2, 2⟩,
    .operator .range]

/-- No cell outside the precedents is read, though nothing stops the recording source from it. -/
theorem evaluate_confined_sumAsCorner :
    (evaluate .wraps recording sumAsCorner []).1 =
        (evaluate .wraps (guarded (precedents sumAsCorner)) sumAsCorner ()).1 ∧
      ∀ ref ∈ (evaluate .wraps recording sumAsCorner []).2, ref ∈ precedents sumAsCorner := by
  have hvalue : ∀ ref ∈ precedents sumAsCorner, ∀ (s : List CellRef) (t : Unit),
      (recording.value ref s).1 = ((guarded (precedents sumAsCorner)).value ref t).1 := by
    intro ref href s t
    simp [guarded, href]
    rfl
  have hhas : ∀ ref ∈ precedents sumAsCorner,
      recording.hasValue ref = (guarded (precedents sumAsCorner)).hasValue ref := by
    intro ref href
    simp [recording, guarded, href]
  obtain ⟨hsame, hkeeps⟩ := evaluate_confined hvalue hhas [] ()
  refine ⟨hsame, hkeeps (fun asked => ∀ ref ∈ asked, ref ∈ precedents sumAsCorner) ?_ ?_⟩
  · intro ref href asked hasked
    exact List.forall_mem_cons.2 ⟨href, hasked⟩
  · exact List.forall_mem_nil _

end Formula

end SheetScript
