import Mathlib
import SheetScript.Proofs.Script.Composition

/-!
# Matching runs

Two interpreters run the same script, the second one with at least as many rounds as the first. If
a relation between their states is kept by every single thing that an interpreter does (`Kept`),
then it is kept by whole evaluations and calls: when the first run ends, the second one ends with
the same outcome, and the states they leave are related again (`Kept.matches_evalScript`,
`Kept.matches_call`).

`Run.Matches` says this of one computation. It holds of the single operations by `Kept` and goes
through sequences (`Kept.compositional`), and so it holds of each built-in procedure; loops and
calls are by induction on the rounds.

The relation is a family, so that it may speak of the depth and of the frames below: evaluating one
level deeper, or in a new frame, goes on under another member of the family, and the way back leads
to the first one again.
-/

namespace SheetScript.Script

variable {H : Type} [Host H] {α β : Type}

namespace Run

/-! ## Computations that match -/

/-- From related states, whenever `a` ends, `b` ends with the same result, and they leave related
states. -/
def Matches (R : Interp H → Interp H → Prop) (a b : Run H α) : Prop :=
  ∀ i j, R i j → ∀ result i', a i = some (result, i') → ∃ j', b j = some (result, j') ∧ R i' j'

variable {R : Interp H → Interp H → Prop} {a b : Run H α}

theorem bind_apply (a : Run H α) (f : α → Run H β) (i : Interp H) :
    (a >>= f) i = match a i with
      | some (.ok x, j) => f x j
      | some (.error flow, j) => some (.error flow, j)
      | none => none := by
  change (ExceptT.bind a f) i = _
  simp only [ExceptT.bind, ExceptT.mk]
  change (StateT.bind a _) i = _
  simp only [StateT.bind]
  cases h : a i with
  | none => rfl
  | some r =>
    obtain ⟨x, j⟩ := r
    cases x <;> rfl

theorem get_bind_apply (f : Interp H → Run H α) (i : Interp H) : (get >>= f) i = f i i := rfl

theorem Matches.bind {f g : α → Run H β} (h : Matches R a b) (hfg : ∀ x, Matches R (f x) (g x)) :
    Matches R (a >>= f) (b >>= g) := by
  intro i j hij result i' hrun
  rw [bind_apply] at hrun ⊢
  cases ha : a i with
  | none => simp [ha] at hrun
  | some ending =>
    obtain ⟨x, i₁⟩ := ending
    obtain ⟨j₁, hb, h₁⟩ := h i j hij x i₁ ha
    rw [ha] at hrun
    rw [hb]
    cases x with
    | ok x => exact hfg x i₁ j₁ h₁ result i' hrun
    | error flow =>
      cases hrun
      exact ⟨j₁, rfl, h₁⟩

theorem matches_pure (x : α) : Matches R (pure x) (pure x) := by
  rintro i j hij result i' ⟨⟩
  exact ⟨j, rfl, hij⟩

theorem matches_throw (flow : Flow) : Matches R (throw flow : Run H α) (throw flow) := by
  rintro i j hij result i' ⟨⟩
  exact ⟨j, rfl, hij⟩

theorem matches_unfinished : Matches R unfinished b := by
  rintro i j hij result i' ⟨⟩

theorem matches_modify {f g : Interp H → Interp H} (h : ∀ i j, R i j → R (f i) (g j)) :
    Matches R (modify f) (modify g) := by
  rintro i j hij result i' ⟨⟩
  exact ⟨g j, rfl, h i j hij⟩

theorem matches_set {i₁ j₁ : Interp H} (h : R i₁ j₁) : Matches R (set i₁) (set j₁) := by
  rintro i j hij result i' ⟨⟩
  exact ⟨j₁, rfl, h⟩

theorem matches_get_bind {f g : Interp H → Run H α}
    (h : ∀ i j, R i j → Matches R (f i) (g j)) : Matches R (get >>= f) (get >>= g) :=
  fun i j hij => h i j hij i j hij

theorem Matches.outcome (h : Matches R a b) : Matches R (outcome a) (outcome b) := by
  intro i j hij result i' hrun
  simp only [Run.outcome] at hrun ⊢
  split at hrun
  next x i₁ ha =>
    cases hrun
    obtain ⟨j₁, hb, h₁⟩ := h i j hij x i' ha
    exact ⟨j₁, by rw [hb], h₁⟩
  next => cases hrun

theorem sequential_matches (R : Interp H → Interp H → Prop) :
    Sequential fun _ => Matches R where
  pure := matches_pure
  throw := matches_throw
  bind := Matches.bind
  outcome := Matches.outcome

end Run

/-! ## Relations that every operation keeps -/

/-- A family of relations between two interpreters that each single operation keeps. Related
interpreters show the same variables, procedures and host to a script, and refuse to go deeper
together. A level of nesting and a frame may change the member of the family until they end. -/
structure Kept {ι : Type} (R : ι → Interp H → Interp H → Prop) : Prop where
  get?_eq : ∀ {a i j}, R a i j → ∀ name, i.get? name = j.get? name
  procedures_eq : ∀ {a i j}, R a i j → i.procedures = j.procedures
  host_eq : ∀ {a i j}, R a i j → i.host = j.host
  depth_eq : ∀ {a i j}, R a i j → i.depth = j.depth
  maxDepth_eq : ∀ {a i j}, R a i j → i.maxDepth = j.maxDepth
  modifyFrame : ∀ {a i j}, R a i j → ∀ f, R a (i.modifyFrame f) (j.modifyFrame f)
  define : ∀ {a i j}, R a i j → ∀ name p, R a (i.define name p) (j.define name p)
  emit : ∀ {a i j}, R a i j → ∀ line, R a (i.emit line) (j.emit line)
  withHost : ∀ {a i j}, R a i j → ∀ host, R a { i with host } { j with host }
  deeper : ∀ {a i j}, R a i j →
    ∃ b, R b { i with depth := i.depth + 1 } { j with depth := j.depth + 1 } ∧
      ∀ i' j', R b i' j' →
        R a { i' with depth := i'.depth - 1 } { j' with depth := j'.depth - 1 }
  pushed : ∀ {a i j}, R a i j → ∀ frame,
    ∃ b, R b (i.pushFrame frame) (j.pushFrame frame) ∧
      ∀ i' j', R b i' j' → R a i'.popFrame j'.popFrame

namespace Kept

open Run

variable {ι : Type} {R : ι → Interp H → Interp H → Prop} {a : ι}

theorem matches_nested (hR : Kept R) {body body' : Run H α}
    (h : ∀ b, Matches (R b) body body') : Matches (R a) (nested body) (nested body') := by
  intro i j hij result i' hrun
  have hdepth := hR.depth_eq hij
  have hmaxDepth := hR.maxDepth_eq hij
  unfold Run.nested at hrun ⊢
  by_cases hlimit : i.maxDepth ≤ i.depth
  · rw [if_pos hlimit] at hrun
    cases hrun
    exact ⟨j, by rw [if_pos (by omega), hmaxDepth], hij⟩
  · rw [if_neg hlimit] at hrun
    rw [if_neg (by omega)]
    obtain ⟨b, hdeeper, hback⟩ := hR.deeper hij
    split at hrun
    next x i₁ hbody =>
      cases hrun
      obtain ⟨j₁, hbody', h₁⟩ := h b _ _ hdeeper result i₁ hbody
      exact ⟨_, by rw [hbody'], hback i₁ j₁ h₁⟩
    next => cases hrun

theorem matches_inFrame (hR : Kept R) {body body' : Run H α} (frame : Frame)
    (h : ∀ b, Matches (R b) body body') :
    Matches (R a) (inFrame frame body) (inFrame frame body') := by
  intro i j hij result i' hrun
  simp only [Run.inFrame] at hrun ⊢
  obtain ⟨b, hpushed, hback⟩ := hR.pushed hij frame
  split at hrun
  next x i₁ hbody =>
    cases hrun
    obtain ⟨j₁, hbody', h₁⟩ := h b _ _ hpushed result i₁ hbody
    exact ⟨_, by rw [hbody'], hback i₁ j₁ h₁⟩
  next => cases hrun

theorem compositional (hR : Kept R) (a : ι) : Compositional fun _ => Matches (R a) where
  toSequential := sequential_matches (R a)
  get_bind h := matches_get_bind fun i j hij => h i j ⟨hR.get?_eq hij, hR.procedures_eq hij⟩
  modifyFrame f := matches_modify fun _ _ h => hR.modifyFrame h f
  define name p := matches_modify fun _ _ h => hR.define h name p
  emit line := matches_modify fun _ _ h => hR.emit h line

variable {eval eval' : String → Run H String}

/-! ## Loops, calls and scripts -/

theorem matches_runLoop (hR : Kept R)
    (heval : ∀ script, Matches (R a) (eval script) (eval' script)) (condition body : String)
    {next next' : Run H Unit} (hnext : Matches (R a) next next') {m n : Nat} (hmn : m ≤ n) :
    Matches (R a) (Builtin.runLoop eval condition body next m)
      (Builtin.runLoop eval' condition body next' n) := by
  induction m generalizing n with
  | zero => exact matches_unfinished
  | succ m ih =>
    obtain ⟨n, rfl⟩ := Nat.exists_eq_succ_of_ne_zero (Nat.ne_zero_of_lt hmn)
    refine ((hR.compositional a).evalCondition heval condition).bind fun holds => ?_
    cases holds with
    | false => exact matches_pure _
    | true =>
      refine ((hR.compositional a).runRound heval body).bind fun goesOn => ?_
      cases goesOn with
      | false => exact matches_pure _
      | true => exact hnext.bind fun _ => ih (Nat.le_of_succ_le_succ hmn)

theorem matches_call (hR : Kept R) (heval : ∀ b script, Matches (R b) (eval script) (eval' script))
    {m n : Nat} (hmn : m ≤ n) (name : String) (args : List String) :
    Matches (R a) (Script.call eval m name args) (Script.call eval' n name args) := by
  have hP := hR.compositional a
  induction m generalizing n name args with
  | zero => exact matches_unfinished
  | succ m ih =>
    obtain ⟨n, rfl⟩ := Nat.exists_eq_succ_of_ne_zero (Nat.ne_zero_of_lt hmn)
    have hmn := Nat.le_of_succ_le_succ hmn
    refine matches_get_bind fun i j hij => ?_
    -- Both look up the same procedure and, for a command, ask the same of the same host.
    rw [hR.procedures_eq hij, hR.host_eq hij]
    split
    · exact matches_throw _
    · exact hP.builtin (heval a) _
        (fun _ _ _ _ _ hnext => hR.matches_runLoop (heval a) _ _ hnext hmn) _
    · exact hP.callScripted (fun frame => hR.matches_inFrame frame fun b => heval b _) _ _
    · split
      next host _ _ =>
        have hwith := hR.withHost hij host
        rw [hR.procedures_eq hij] at hwith
        exact (matches_set hwith).bind fun _ => hP.ofExcept _
      next => exact (matches_set (hR.define hij _ _)).bind fun _ => matches_pure _
      next =>
        split
        · exact ih hmn _ _
        · exact matches_throw _

/-- A relation that every operation keeps is kept by the evaluation of scripts, and an evaluation
that ends also ends with more rounds. -/
theorem matches_evalScript (hR : Kept R) {m n : Nat} (hmn : m ≤ n) (script : String) :
    Matches (R a) (evalScript m script) (evalScript n script) := by
  induction m generalizing n a script with
  | zero => exact matches_unfinished
  | succ m ih =>
    obtain ⟨n, rfl⟩ := Nat.exists_eq_succ_of_ne_zero (Nat.ne_zero_of_lt hmn)
    have hmn := Nat.le_of_succ_le_succ hmn
    exact hR.matches_nested fun b => (hR.compositional b).runTokens (ih hmn)
      (hR.matches_call (fun _ => ih hmn) hmn) _ _ _

end Kept

end SheetScript.Script
