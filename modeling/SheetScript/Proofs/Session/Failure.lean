import Mathlib
import SheetScript.Proofs.Document.Store
import SheetScript.Proofs.Document.Typing
import SheetScript.Proofs.Script.ListCommand
import SheetScript.Session.Basic

/-!
# Commands that fail

A command over a document either answers or fails, and nothing of a failure is left but values of
formulas that were computed on the way (`unchanged_of_calls_error`). Only `press` is different, for
it runs a script, which may change the document before it fails.

Every command checks its arguments before it acts (`failsInPlace_withArgument`). What then can still
fail is to type a formula, which puts back the cell that it tried, to take back or repeat an edit,
which needs an edit, and to read a value, which only adds to the store (`Grid.within_value`).
-/

namespace SheetScript

open Script

variable {doc : Document} {c : SheetCommand} {session : Session} {name : String}
  {args : List String}

/-! ## Requests that fail over the document as it is -/

/-- The second document is the first one, up to values of formulas that were added. -/
def Document.GainsValues (doc doc' : Document) : Prop :=
  ∃ cache, Grid.Within doc.cache cache ∧ doc' = { doc with cache }

theorem Document.gainsValues_refl (doc : Document) : doc.GainsValues doc :=
  ⟨doc.cache, refl_of Grid.Within doc.cache, rfl⟩

namespace SheetCommand

/-- A request that the interpreter settles at once, and over the same document if it fails. -/
def FailsInPlace (doc : Document) : Request Document → Prop
  | .answer doc' (.error _) => doc.GainsValues doc'
  | .answer _ (.ok _) | .define _ _ => True
  | .invoke _ _ => False

theorem failsInPlace_withArgument {α : Type} {use : α → Request Document}
    (h : ∀ a, FailsInPlace doc (use a)) (argument : Except ScriptError α) :
    FailsInPlace doc (withArgument doc argument use) := by
  cases argument with
  | ok a => exact h a
  | error e => exact doc.gainsValues_refl

theorem failsInPlace_afterEdit (doc : Document) (edited : Except DocumentError Document)
    (answer : String) : FailsInPlace doc (afterEdit doc edited answer) := by
  cases edited with
  | ok doc' => trivial
  | error e => exact doc.gainsValues_refl

theorem failsInPlace_afterTyping (doc : Document) (ref : CellRef) (text answer : String) :
    FailsInPlace doc (afterTyping answer (doc.typeText ref text)) := by
  rw [Document.typeText_eq]
  cases doc.setText ref text with
  | ok doc' => trivial
  | error e => exact doc.gainsValues_refl

theorem failsInPlace_answerValue (doc : Document) (ref : CellRef) :
    FailsInPlace doc (answerValue (doc.numericValue ref)) := by
  have hvalues : doc.GainsValues (doc.numericValue ref).2 := by
    rw [Document.numericValue_snd]
    exact ⟨_, Grid.within_value Document.maxLevels ref doc.cache, rfl⟩
  generalize doc.numericValue ref = read at hvalues
  obtain ⟨_ | value, doc'⟩ := read
  · exact hvalues
  · trivial

/-- Every command but `press` is settled at once, and over the same document if it fails. -/
theorem failsInPlace_perform (hc : c ≠ .press) (args : List String) (doc : Document) :
    FailsInPlace doc (c.perform args doc) := by
  unfold perform
  -- One case for each row of the definition, in its order; the last one is a wrong number of words.
  split
  · exact failsInPlace_withArgument (fun _ => by trivial) _
  · exact failsInPlace_withArgument (fun ref => failsInPlace_afterTyping doc ref _ _) _
  · exact failsInPlace_withArgument (failsInPlace_answerValue doc) _
  · exact failsInPlace_withArgument (fun _ => by trivial) _
  · trivial
  · exact failsInPlace_withArgument (fun _ => by trivial) _
  · exact failsInPlace_withArgument (fun _ => by trivial) _
  · exact failsInPlace_withArgument
      (fun _ => failsInPlace_withArgument (fun _ => by trivial) _) _
  · trivial
  · exact failsInPlace_afterEdit doc doc.undo ""
  · exact failsInPlace_afterEdit doc doc.redo ""
  · trivial
  · exact absurd rfl hc
  · exact doc.gainsValues_refl

end SheetCommand

/-! ## Calls of commands -/

namespace Session

open SheetCommand (FailsInPlace failsInPlace_perform)

/-- A call of a command whose request is settled at once ends, and if it fails, then over the same
document and with nothing else changed. -/
theorem calls_of_failsInPlace (hget : session.procedures.get? name = some (.command c))
    (h : FailsInPlace session.host (c.perform args session.host)) :
    ∃ outcome after, Calls (name :: args) session outcome after ∧
      ∀ flow, outcome = .error flow →
        ∃ doc, session.host.GainsValues doc ∧ after = { session with host := doc } := by
  cases hrequest : c.perform args session.host with
  | answer doc' result =>
    rw [hrequest] at h
    refine ⟨_, _, ⟨0, 1, call_of_answer 0 hget hrequest⟩, ?_⟩
    cases result with
    | ok value => exact nofun
    | error e =>
      intro flow _
      exact ⟨doc', h, rfl⟩
  | define key p => exact ⟨_, _, ⟨0, 1, call_of_define 0 hget hrequest⟩, nofun⟩
  | invoke key missing =>
    rw [hrequest] at h
    exact h.elim

/-- **A command that fails leaves no trace.** If a call of any command but `press`, in any session
and with any arguments, ends with an error, then the grid and its dependents, both stacks of edits,
the cursor and the message, the procedures, the variables and all else in the session are as before
the call, except that the store may hold further values. -/
theorem unchanged_of_calls_error (hget : session.procedures.get? name = some (.command c))
    (hc : c ≠ .press) (args : List String) {flow : Flow} {after : Session}
    (h : Calls (name :: args) session (.error flow) after) :
    ∃ cache, Grid.Within session.host.cache cache ∧
      after = { session with host := { session.host with cache } } := by
  obtain ⟨outcome, _, hcalls, hfails⟩ :=
    calls_of_failsInPlace hget (failsInPlace_perform hc args session.host)
  obtain ⟨houtcome, rfl⟩ := hcalls.unique h
  obtain ⟨_, ⟨cache, hwithin, rfl⟩, rfl⟩ := hfails flow houtcome
  exact ⟨cache, hwithin, rfl⟩

/-- A formula that reads its own cell is typed into a sheet with an edit history, a cursor and a
message. -/
theorem unchanged_of_calls_error_setcell :
    let doc : Document :=
      { Document.empty.run Document.readText with cursor := ⟨3, 7⟩, flash := some "ready" }
    let session := ofDocument doc
    session.procedures.get? "setcell" = some (.command SheetCommand.setcell) ∧
    SheetCommand.setcell ≠ .press ∧
    ∃ e after, Calls ["setcell", "B1", "=B1"] session (.error (.error e)) after ∧
      ∃ cache, Grid.Within doc.cache cache ∧
        after = { session with host := { session.host with cache } } := by
  intro doc session
  have hget : session.procedures.get? "setcell" = some (.command SheetCommand.setcell) := by cbv
  have hc : SheetCommand.setcell ≠ .press := by decide
  have hname : CellRef.parse? "B1" = some ⟨1, 0⟩ := by cbv
  have htyped : Cell.ofInput "=B1" = ⟨.formula "B1", [.cell ⟨1, 0⟩], [⟨1, 0⟩]⟩ := by cbv
  have hgrid : doc.grid.Sound := (Document.follows_run Document.readText).refines.present ▸
    (Document.follows_run Document.readText).sound.present
  have hreads : (doc.grid.put ⟨1, 0⟩ (some (Cell.ofInput "=B1"))).ReadBy ⟨1, 0⟩ ⟨1, 0⟩ := by
    rw [Grid.ReadBy, Grid.precedents_put_self, htyped]
    exact List.mem_cons_self
  obtain ⟨path, hpath⟩ := (Document.setText_refused_iff hgrid ⟨1, 0⟩ "=B1").2
    ⟨by rw [htyped]; rfl, .single hreads⟩
  have hanswer : SheetCommand.setcell.perform ["B1", "=B1"] doc =
      .answer doc (.error (SheetCommand.hostError (.circularDependency path))) := by
    simp only [SheetCommand.perform, SheetCommand.withArgument, SheetCommand.cellArgument, hname,
      Document.typeText_eq, hpath, SheetCommand.afterTyping]
  have hcalls : Calls ["setcell", "B1", "=B1"] session
      (.error (.error (SheetCommand.hostError (.circularDependency path))))
      { session with host := doc } :=
    ⟨0, 1, call_of_answer 0 hget hanswer⟩
  exact ⟨hget, hc, _, _, hcalls, unchanged_of_calls_error hget hc _ hcalls⟩

end Session

end SheetScript
