import SheetScript.Proofs.Script.Rounds
import SheetScript.Script.Journal

/-!
# Frames of nested evaluations

However an evaluation or a call ends, the depth and the frames below the current one are as before
(`frames_balanced`), and a scripted procedure cannot tell which frames stand below its own
(`calls_scripted_iff`).

One relation gives both. `StandsOn` relates two interpreters that differ in nothing but the frames
below the current one, and fixes those frames and the depth. Every operation keeps it
(`kept_standsOn`): a level of nesting is left at the depth at which it was entered, and a new frame
covers the current one, which then counts to the frames below until it is uncovered. For two equal
interpreters, the relation says that nothing below has changed.
-/

namespace SheetScript.Script

open Run

variable {H : Type} [Host H] {i j : Interp H} {script name : String} {words args : List String}
  {p : ScriptedProcedure} {outcome : Outcome}

/-! ## What a script stands on -/

/-- The depth of two runs, and the frames below the current one in each of them. -/
structure Ground where
  depth : Nat
  below : List Frame
  below' : List Frame

/-- Two interpreters on the given ground that are alike in everything else. -/
structure StandsOn (g : Ground) (i j : Interp H) : Prop where
  depth : i.depth = g.depth
  below : i.frames.below = g.below
  eq : j = { i with frames := ⟨i.frames.current, g.below'⟩ }

theorem standsOn_self (i : Interp H) : StandsOn ⟨i.depth, i.frames.below, i.frames.below⟩ i i :=
  ⟨rfl, rfl, rfl⟩

theorem kept_standsOn : Kept fun (g : Ground) (i j : Interp H) => StandsOn g i j where
  get?_eq h name := by rw [h.eq]; rfl
  procedures_eq h := by rw [h.eq]
  host_eq h := by rw [h.eq]
  depth_eq h := by rw [h.eq]
  maxDepth_eq h := by rw [h.eq]
  modifyFrame h f := ⟨h.depth, h.below, by rw [h.eq]; rfl⟩
  define h name p := ⟨h.depth, h.below, by rw [h.eq]; rfl⟩
  emit h line := ⟨h.depth, h.below, by rw [h.eq]; rfl⟩
  withHost h host := ⟨h.depth, h.below, by rw [h.eq]⟩
  deeper := by
    intro g i j h
    refine ⟨{ g with depth := g.depth + 1 }, ⟨congrArg (· + 1) h.depth, h.below, by rw [h.eq]⟩, ?_⟩
    intro i' j' h'
    exact ⟨congrArg (· - 1) h'.depth, h'.below, by rw [h'.eq]⟩
  pushed := by
    intro g i j h frame
    refine ⟨⟨g.depth, i.frames.current :: g.below, i.frames.current :: g.below'⟩, ?_, ?_⟩
    · exact ⟨h.depth, congrArg _ h.below, by rw [h.eq]; rfl⟩
    · intro i' j' h'
      -- The frame that was current is uncovered again.
      have hframes : i'.popFrame.frames = ⟨i.frames.current, g.below⟩ := by
        simp [Interp.popFrame, FrameStack.pop, FrameStack.pop?, h'.below]
      refine ⟨h'.depth, by rw [hframes], ?_⟩
      rw [hframes, h'.eq]
      rfl

/-! ## Evaluations and calls -/

theorem matches_evalScript_standsOn (rounds : Nat) (script : String) (g : Ground) :
    Matches (StandsOn (H := H) g) (evalScript rounds script) (evalScript rounds script) :=
  kept_standsOn.matches_evalScript (Nat.le_refl rounds) script

theorem matches_callWords_standsOn (nested rounds : Nat) (words : List String) (g : Ground) :
    Matches (StandsOn (H := H) g) (callWords (call (evalScript nested) rounds) words)
      (callWords (call (evalScript nested) rounds) words) :=
  (sequential_matches _).callWords
    (kept_standsOn.matches_call (fun g script => matches_evalScript_standsOn nested script g)
      (Nat.le_refl rounds)) words

/-- The depth, the number of frames and the frames below the current one are the same. -/
structure Balanced (i j : Interp H) : Prop where
  depth : j.depth = i.depth
  frameDepth : j.frames.depth = i.frames.depth
  below : j.frames.below = i.frames.below

theorem balanced_of_matches {a : Run H String} (h : ∀ g, Matches (StandsOn g) a a)
    (hrun : a i = some (outcome, j)) : Balanced i j := by
  obtain ⟨j', -, hj⟩ := h _ i i (standsOn_self i) outcome j hrun
  exact ⟨hj.depth, by rw [FrameStack.depth, hj.below]; rfl, hj.below⟩

/-! ## Calls of scripted procedures -/

/-- Two interpreters with the given frames that are alike in everything else. -/
structure FramedBy (frames frames' : FrameStack) (i j : Interp H) : Prop where
  frames : i.frames = frames
  eq : j = { i with frames := frames' }

/-- In a frame of its own, a computation cannot tell the frames that were there before, and leaves
them all as they were. -/
theorem matches_inFrame_framedBy {α : Type} {body body' : Run H α}
    (h : ∀ g, Matches (StandsOn g) body body') (frame : Frame) (frames frames' : FrameStack) :
    Matches (FramedBy frames frames') (inFrame frame body) (inFrame frame body') := by
  intro i j hij result i' hrun
  obtain ⟨rfl, rfl⟩ := hij
  have hground : StandsOn
      ⟨i.depth, i.frames.current :: i.frames.below, frames'.current :: frames'.below⟩
      (i.pushFrame frame) (Interp.pushFrame { i with frames := frames' } frame) :=
    ⟨rfl, rfl, rfl⟩
  simp only [Run.inFrame] at hrun ⊢
  split at hrun
  next x i₁ hbody =>
    cases hrun
    obtain ⟨j₁, hbody', h₁⟩ := h _ _ _ hground result i₁ hbody
    refine ⟨_, by rw [hbody'], ?_, ?_⟩
    · simp [Interp.popFrame, FrameStack.pop, FrameStack.pop?, h₁.below]
    · rw [h₁.eq]
      rfl
  next => cases hrun

theorem matches_callScripted_framedBy (nested : Nat) (name : String) (p : ScriptedProcedure)
    (args : List String) (frames frames' : FrameStack) :
    Matches (FramedBy (H := H) frames frames') (callScripted (evalScript nested) name p args)
      (callScripted (evalScript nested) name p args) :=
  (sequential_matches _).callScripted (fun frame => matches_inFrame_framedBy
    (fun g => matches_evalScript_standsOn nested p.body g) frame frames frames') name args

theorem callWords_of_scripted {eval : String → Run H String}
    (hget : i.procedures.get? name = some (.scripted p)) (rounds : Nat) (args : List String) :
    callWords (call eval (rounds + 1)) (name :: args) i = callScripted eval name p args i := by
  rw [callWords, call, get_bind_apply, hget]

/-- A call of a scripted procedure ends in the same way over other frames, and leaves all of them
as they were. -/
theorem Calls.withFrames (hget : i.procedures.get? name = some (.scripted p))
    (h : Calls (name :: args) i outcome j) (frames : FrameStack) :
    j.frames = i.frames ∧ Calls (name :: args) { i with frames } outcome { j with frames } := by
  obtain ⟨nested, rounds, hrun⟩ := h
  cases rounds with
  | zero => cases hrun
  | succ rounds =>
    rw [callWords_of_scripted hget] at hrun
    obtain ⟨j', hrun', hframes, rfl⟩ :=
      matches_callScripted_framedBy nested name p args i.frames frames i { i with frames }
        ⟨rfl, rfl⟩ outcome j hrun
    refine ⟨hframes, nested, rounds + 1, ?_⟩
    rw [callWords_of_scripted (i := { i with frames }) hget]
    exact hrun'

/-- **Frames balance.** Evaluating a script and calling a procedure, whatever they do and however
they end, leave the depth, the number of frames and all frames below the current one as they were.
Calling a scripted procedure leaves the current frame as it was, too. -/
theorem frames_balanced (i : Interp H) (outcome : Outcome) (j : Interp H) :
    (∀ script, Evaluates script i outcome j → Balanced i j) ∧
    (∀ words, Calls words i outcome j → Balanced i j) ∧
    ∀ name p args, i.procedures.get? name = some (.scripted p) →
      Calls (name :: args) i outcome j → j.frames = i.frames := by
  refine ⟨?_, ?_, ?_⟩
  · intro script h
    obtain ⟨rounds, hrun⟩ := h
    exact balanced_of_matches (matches_evalScript_standsOn rounds script) hrun
  · intro words h
    obtain ⟨nested, rounds, hrun⟩ := h
    exact balanced_of_matches (matches_callWords_standsOn nested rounds words) hrun
  · intro name p args hget h
    exact (h.withFrames hget i.frames).1

/-- An interpreter in the middle of a call, with a procedure that writes a line and calls itself. -/
def endless : Interp Journal :=
  { frames := ⟨{ result := "inner" }, [{ result := "global" }]⟩
    procedures := journaling.procedures.insert "loop" (.scripted ⟨[], "log again; loop"⟩)
    maxDepth := 3
    host := {} }

theorem endless_get? :
    endless.procedures.get? "loop" = some (.scripted ⟨[], "log again; loop"⟩) := by
  cbv

/-- The interpreter `endless` after some lines were written. -/
def endlessAfter (lines : Nat) : Interp Journal :=
  { endless with host := ⟨List.replicate lines "again"⟩ }

/-- The limit of nesting ends the recursion, as a script and as a call. -/
theorem frames_balanced_endless :
    (Evaluates "loop" endless (.error (.error (.recursionLimit 3))) (endlessAfter 2) ∧
      Balanced endless (endlessAfter 2)) ∧
    (Calls ["loop"] endless (.error (.error (.recursionLimit 3))) (endlessAfter 3) ∧
      Balanced endless (endlessAfter 3) ∧ (endlessAfter 3).frames = endless.frames) := by
  have heval : evalScript 4 "loop" endless =
      some (.error (.error (.recursionLimit 3)), endlessAfter 2) := by
    cbv
  have hcall : callWords (call (evalScript 4) 4) ["loop"] endless =
      some (.error (.error (.recursionLimit 3)), endlessAfter 3) := by
    cbv
  refine ⟨⟨⟨4, heval⟩, ?_⟩, ⟨4, 4, hcall⟩, ?_, ?_⟩
  · exact (frames_balanced endless _ _).1 "loop" ⟨4, heval⟩
  · exact (frames_balanced endless _ _).2.1 ["loop"] ⟨4, 4, hcall⟩
  · exact (frames_balanced endless _ _).2.2 "loop" _ [] endless_get? ⟨4, 4, hcall⟩

/-- **Procedures do not see the frames of their callers.** Over any other frames, the call of a
scripted procedure ends if and only if it ends over the given ones, with the same outcome and in the
same state but for the frames, which it leaves as they were. -/
theorem calls_scripted_iff (hget : i.procedures.get? name = some (.scripted p))
    (args : List String) (frames : FrameStack) (outcome : Outcome) (j : Interp H) :
    Calls (name :: args) i outcome j ↔
      j.frames = i.frames ∧ Calls (name :: args) { i with frames } outcome { j with frames } := by
  constructor
  · intro h
    exact h.withFrames hget frames
  · intro h
    obtain ⟨hframes, h⟩ := h
    have hback : Calls (name :: args) i outcome { j with frames := i.frames } :=
      (Calls.withFrames (i := { i with frames }) hget h i.frames).2
    rw [← hframes] at hback
    exact hback

/-- An interpreter with a procedure that reads a variable which it does not set. -/
def peeking : Interp Journal :=
  { procedures := Registry.empty.insert "peek" (.scripted ⟨["x"], "$x $secret"⟩), host := {} }

/-- Frames where that variable is set. -/
def secretFrames : FrameStack :=
  ⟨Frame.set {} "secret" "1", [Frame.set {} "secret" "2"]⟩

/-- The variable of the caller is not there for the procedure. -/
theorem calls_scripted_iff_peeking :
    peeking.procedures.get? "peek" = some (.scripted ⟨["x"], "$x $secret"⟩) ∧
    Calls ["peek", "log"] peeking (.error (.error (.undefinedVariable "secret"))) peeking ∧
    Calls ["peek", "log"] { peeking with frames := secretFrames }
      (.error (.error (.undefinedVariable "secret"))) { peeking with frames := secretFrames } := by
  have hget : peeking.procedures.get? "peek" = some (.scripted ⟨["x"], "$x $secret"⟩) := by
    cbv
  have hcall : callWords (call (evalScript 1) 1) ["peek", "log"] peeking =
      some (.error (.error (.undefinedVariable "secret")), peeking) := by
    cbv
  exact ⟨hget, ⟨1, 1, hcall⟩,
    ((calls_scripted_iff hget ["log"] secretFrames _ _).1 ⟨1, 1, hcall⟩).2⟩

end SheetScript.Script
