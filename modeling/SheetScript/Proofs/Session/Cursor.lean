import SheetScript.Proofs.CellRef
import SheetScript.Proofs.Script.Frames
import SheetScript.Proofs.Script.ListCommand
import SheetScript.Session.Basic

/-!
# The cursor by its name

Scripts and keys steer the cursor: `cursor`, `goto` and `move` put it onto a cell, and every
movement key is bound to one of them. Such a step ends and changes the cursor only
(`Steering.after_eq`), and so does a row of them (`steer_eq`).

`cursor` answers with the name of the cell under the cursor, so that a script can come back to it by
`goto`. That works wherever names read back (`evaluate_goto_cursor_of_inSheet`). It is not asked of
the last row, whose number wraps around or stops the program. But the cursor can also be moved one
column further than names reach. The number of that column takes sixty-five bits; its
letters are written and not read (`CellRef.parse?_name_eq_none`). There `goto [cursor]` fails
(`evaluate_goto_cursor_of_lastColumn`).
-/

namespace SheetScript

open Script

/-- Both indices are within sixty-four bits. -/
def CellRef.Fits (cell : CellRef) : Prop :=
  cell.col ≤ CellRef.maxIndex ∧ cell.row ≤ CellRef.maxIndex

namespace Session

variable {s : Session}

/-! ## Steering the cursor -/

/-- A command that can do no more than put the cursor elsewhere. -/
inductive CursorCommand where
  | cursor
  | goto
  | move
deriving DecidableEq, Repr

namespace CursorCommand

/-- The name of the command. -/
def name : CursorCommand → String
  | cursor => "cursor"
  | goto => "goto"
  | move => "move"

/-- The command. -/
def command : CursorCommand → SheetCommand
  | cursor => .cursor
  | goto => .goto
  | move => .move

/-- Where the command puts the cursor, if it accepts its arguments. -/
def target? (c : CursorCommand) (args : List String) (cell : CellRef) : Option CellRef :=
  match c, args with
  | cursor, [] => some cell
  | cursor, [ref] | goto, [ref] => CellRef.parse? ref
  | move, [dcol, drow] =>
    match integerArgument dcol, integerArgument drow with
    | .ok dcol, .ok drow => some (cell.offset dcol drow)
    | _, _ => none
  | _, _ => none

end CursorCommand

/-- A key that moves the cursor, with the command that it is bound to. -/
structure Movement where
  key : String
  command : CursorCommand
  args : List String
deriving DecidableEq, Repr

namespace Movement

/-- Every key that moves the cursor from the start. -/
def all : List Movement :=
  [⟨"h", .move, ["-1", "0"]⟩, ⟨"j", .move, ["0", "1"]⟩, ⟨"k", .move, ["0", "-1"]⟩,
    ⟨"l", .move, ["1", "0"]⟩, ⟨"Left", .move, ["-1", "0"]⟩, ⟨"Down", .move, ["0", "1"]⟩,
    ⟨"Up", .move, ["0", "-1"]⟩, ⟨"Right", .move, ["1", "0"]⟩, ⟨"Tab", .move, ["1", "0"]⟩,
    ⟨"BackTab", .move, ["-1", "0"]⟩, ⟨"C-Home", .goto, ["A1"]⟩]

/-- The script of a key. -/
def script (m : Movement) : String := WordList.format (m.command.name :: m.args)

-- The other keys that are bound from the start edit the sheet.
example :
    defaultBindings.filter (·.2 ∉ ["clearcell [cursor]", "undo", "redo"]) =
      all.map fun m => (m.key, m.script) := by
  cbv

end Movement

/-- A step that steers the cursor. -/
inductive Steering where
  /-- A command is called. -/
  | call (c : CursorCommand) (args : List String)
  /-- A key is pressed by a script. -/
  | press (m : Movement) (hm : m ∈ Movement.all)
  /-- A key is pressed by the user. -/
  | key (m : Movement) (hm : m ∈ Movement.all)

namespace Steering

/-- The session after a step, whether the step fails or not. -/
def after (s : Session) : Steering → Option Session
  | call c args => (Interp.call (c.name :: args) s).map Prod.snd
  | press m _ => (Interp.call ["press", m.key] s).map Prod.snd
  | key m _ => (Session.press m.key s).map Prod.snd

/-- Where a step puts the cursor. One that fails leaves it in place. -/
def target (cell : CellRef) : Steering → CellRef
  | call c args => (c.target? args cell).getD cell
  | press m _ | key m _ => (m.command.target? m.args cell).getD cell

end Steering

/-- The session after some steps. -/
def steer (s : Session) (steps : List Steering) : Option Session := steps.foldlM Steering.after s

/-- The session with the cursor elsewhere. -/
def withCursor (s : Session) (cell : CellRef) : Session := { s with host := s.host.setCursor cell }

/-- The commands and the keys that steer the cursor are in place, scripts can be nested two levels
deeper, and the cursor is within sixty-four bits. -/
structure Steerable (s : Session) : Prop where
  get?_command (c : CursorCommand) : s.procedures.get? c.name = some (.command c.command)
  get?_press : s.procedures.get? "press" = some (.command SheetCommand.press)
  get?_key (m : Movement) (hm : m ∈ Movement.all) :
    s.procedures.get? (SheetCommand.bindingName m.key) = some (.scripted ⟨[], m.script⟩)
  depth_le : s.depth + 2 ≤ s.maxDepth
  fits : s.host.cursor.Fits

theorem procedures_ofDocument (doc : Document) :
    ([CursorCommand.cursor, .goto, .move].map fun c => (ofDocument doc).procedures.get? c.name) =
      [some (.command SheetCommand.cursor), some (.command SheetCommand.goto),
        some (.command SheetCommand.move)] ∧
    (ofDocument doc).procedures.get? "press" = some (.command SheetCommand.press) ∧
    (Movement.all.map fun m => (ofDocument doc).procedures.get? (SheetCommand.bindingName m.key)) =
      Movement.all.map fun m => some (.scripted ⟨[], m.script⟩) := by
  cbv

theorem steerable_ofDocument {doc : Document} (hfits : doc.cursor.Fits) :
    (ofDocument doc).Steerable := by
  obtain ⟨hcommands, hpress, hkeys⟩ := procedures_ofDocument doc
  simp only [List.map_cons, List.map_nil, List.cons.injEq, and_true] at hcommands
  obtain ⟨hcursor, hgoto, hmove⟩ := hcommands
  have hdepth : (ofDocument doc).depth + 2 ≤ (ofDocument doc).maxDepth := by
    show 2 ≤ 200
    decide
  refine ⟨?_, hpress, fun m hm => List.map_inj_left.1 hkeys m hm, hdepth, hfits⟩
  intro c
  cases c with
  | cursor => exact hcursor
  | goto => exact hgoto
  | move => exact hmove

/-! ## One command -/

theorem Movement.exists_target? {m : Movement} (hm : m ∈ Movement.all) (cell : CellRef) :
    ∃ target, m.command.target? m.args cell = some target := by
  have hone : integerArgument "1" = .ok 1 := by cbv
  have hzero : integerArgument "0" = .ok 0 := by cbv
  have hback : integerArgument "-1" = .ok (-1) := by cbv
  have hfirst : CellRef.parse? "A1" = some ⟨0, 0⟩ := by cbv
  simp only [Movement.all, List.mem_cons, List.not_mem_nil, or_false] at hm
  rcases hm with rfl | rfl | rfl | rfl | rfl | rfl | rfl | rfl | rfl | rfl | rfl <;>
    simp [CursorCommand.target?, hone, hzero, hback, hfirst]

namespace CursorCommand

variable {c : CursorCommand} {args : List String} {target : CellRef}

/-- A command that accepts its arguments puts the cursor there and answers with the name. -/
theorem perform_of_target?_eq_some {doc : Document}
    (h : c.target? args doc.cursor = some target) :
    c.command.perform args doc = .answer (doc.setCursor target) (.ok target.name) := by
  unfold target? at h
  split at h
  next =>
    cases h
    rfl
  next ref =>
    simp only [command, SheetCommand.perform, SheetCommand.cellArgument, h]
    rfl
  next ref =>
    simp only [command, SheetCommand.perform, SheetCommand.cellArgument, h]
    rfl
  next dcol drow =>
    split at h
    next hcol hrow =>
      cases h
      simp only [command, SheetCommand.perform, hcol, hrow]
      rfl
    next => cases h
  next => cases h

/-- A command that refuses its arguments fails over the same document. -/
theorem perform_of_target?_eq_none {doc : Document} (h : c.target? args doc.cursor = none) :
    ∃ e, c.command.perform args doc = .answer doc (.error e) := by
  unfold target? at h
  split at h
  next => cases h
  next ref =>
    simp only [command, SheetCommand.perform, SheetCommand.cellArgument, h]
    exact ⟨_, rfl⟩
  next ref =>
    simp only [command, SheetCommand.perform, SheetCommand.cellArgument, h]
    exact ⟨_, rfl⟩
  next dcol drow =>
    simp only [command, SheetCommand.perform]
    cases hcol : integerArgument dcol with
    | error e => exact ⟨e, rfl⟩
    | ok dcol =>
      cases hrow : integerArgument drow with
      | error e => exact ⟨e, rfl⟩
      | ok drow =>
        rw [hcol, hrow] at h
        cases h
  next hnone href hgoto hmove =>
    -- A wrong number of words.
    refine ⟨.wrongArguments c.command.usage, ?_⟩
    cases c <;> simp only [command]
    all_goals (unfold SheetCommand.perform; split <;> simp_all)

theorem fits_of_target?_eq_some {cell : CellRef} (hcell : cell.Fits)
    (h : c.target? args cell = some target) : target.Fits := by
  unfold target? at h
  split at h
  next =>
    cases h
    exact hcell
  next ref =>
    have hsheet := CellRef.inSheet_of_parse? h
    exact ⟨hsheet.1.le, hsheet.2.le⟩
  next ref =>
    have hsheet := CellRef.inSheet_of_parse? h
    exact ⟨hsheet.1.le, hsheet.2.le⟩
  next dcol drow =>
    split at h
    next =>
      cases h
      exact ⟨CellRef.shift_le _ _, CellRef.shift_le _ _⟩
    next => cases h
  next => cases h

end CursorCommand

/-! ## One step -/

/-- A call that ends within two rounds ends so for the program. -/
theorem call_eq {name : String} {args : List String} {ending : Outcome × Session}
    (h : call (evalScript 2) 2 name args s = some ending) :
    Interp.call (name :: args) s = some ending := by
  have hrounds : 2 ≤ Interp.manyRounds := by decide
  have hwords : callWords (call (evalScript 2) 2) (name :: args) s = some ending := h
  exact callWords_mono hrounds hrounds hwords

/-- A command steers the cursor and changes nothing else, with whatever rounds it is called. -/
theorem call_cursorCommand {c : CursorCommand}
    (hget : s.procedures.get? c.name = some (.command c.command))
    (eval : String → Run Document String) (rounds : Nat) (args : List String) :
    ∃ outcome,
      call eval (rounds + 1) c.name args s =
        some (outcome, s.withCursor ((c.target? args s.host.cursor).getD s.host.cursor)) ∧
      ∀ target, c.target? args s.host.cursor = some target → outcome = .ok target.name := by
  cases htarget : c.target? args s.host.cursor with
  | some target =>
    refine ⟨_, call_of_answer rounds hget (CursorCommand.perform_of_target?_eq_some htarget), ?_⟩
    rintro _ ⟨⟩
    rfl
  | none =>
    obtain ⟨e, hperform⟩ := CursorCommand.perform_of_target?_eq_none htarget
    exact ⟨_, call_of_answer rounds hget hperform, nofun⟩

/-- A procedure without parameters ends as its body does, in a frame of its own. -/
theorem callScripted_of_body {eval : String → Run Document String} {name body value : String}
    {t : Session} (h : eval body s.pushFrame = some (.ok value, t)) :
    callScripted eval name ⟨[], body⟩ [] s = some (.ok value, t.popFrame) := by
  have hframe : Run.outcome (Run.inFrame {} (eval body)) s =
      some (.ok (.ok value), t.popFrame) := by
    rw [Run.outcome, Run.inFrame, h]
  have hbind : ScriptedProcedure.bind ⟨[], body⟩ name [] = .ok [] := rfl
  rw [callScripted, hbind, Run.bind_apply]
  show (Run.outcome (Run.inFrame {} (eval body)) >>= _) s = _
  rw [Run.bind_apply, hframe]
  rfl

theorem call_key (h : s.Steerable) {m : Movement} (hm : m ∈ Movement.all) (rounds : Nat) :
    ∃ value,
      call (evalScript 2) (rounds + 1) (SheetCommand.bindingName m.key) [] s =
        some (.ok value,
          s.withCursor ((m.command.target? m.args s.host.cursor).getD s.host.cursor)) := by
  obtain ⟨target, htarget⟩ := Movement.exists_target? hm s.host.cursor
  -- The script runs in a fresh frame, one level deeper.
  let framed : Session := s.pushFrame
  have hdepth : framed.depth < framed.maxDepth := Nat.lt_of_succ_lt h.depth_le
  obtain ⟨outcome, hcall, houtcome⟩ :=
    @call_cursorCommand { framed with depth := framed.depth + 1 } m.command
      (h.get?_command m.command) (evalScript 1) 0 m.args
  obtain rfl := houtcome target htarget
  have hscript := WordList.evalScript_format 1 (List.cons_ne_nil m.command.name m.args) hdepth
  rw [callWords, hcall] at hscript
  refine ⟨target.name, ?_⟩
  rw [call, Run.get_bind_apply, h.get?_key m hm]
  exact callScripted_of_body hscript

theorem contains_key (h : s.Steerable) {m : Movement} (hm : m ∈ Movement.all) :
    s.procedures.contains (SheetCommand.bindingName m.key) = true := by
  rw [Registry.contains, h.get?_key m hm]
  rfl

/-- Every step ends. It puts the cursor where its command does, and changes nothing else. -/
theorem Steering.after_eq (h : s.Steerable) (step : Steering) :
    step.after s = some (s.withCursor (step.target s.host.cursor)) := by
  cases step with
  | call c args =>
    obtain ⟨outcome, hcall, -⟩ := call_cursorCommand (h.get?_command c) (evalScript 2) 1 args
    rw [after, call_eq hcall]
    rfl
  | press m hm =>
    obtain ⟨value, hcall⟩ := call_key h hm 0
    -- `press` passes its rounds on, less one, to the procedure of the key.
    have hpress : Script.call (evalScript 2) 2 "press" [m.key] s =
        Script.call (evalScript 2) 1 (SheetCommand.bindingName m.key) [] s := by
      rw [Script.call, Run.get_bind_apply, h.get?_press]
      show (if _ = true then Script.call (evalScript 2) 1 (SheetCommand.bindingName m.key) []
        else _ : Run Document String) s = _
      rw [if_pos (contains_key h hm)]
    rw [hcall] at hpress
    rw [after, call_eq hpress]
    rfl
  | key m hm =>
    obtain ⟨value, hcall⟩ := call_key h hm 1
    have houtcome : Run.outcome (Interp.invoke (SheetCommand.bindingName m.key)
        (SheetCommand.noBinding m.key)) s = some (.ok (.ok value), s.withCursor
          ((m.command.target? m.args s.host.cursor).getD s.host.cursor)) := by
      rw [Run.outcome, Interp.invoke, Run.get_bind_apply, if_pos (contains_key h hm), call_eq hcall]
    rw [after, Session.press, Run.bind_apply, houtcome]
    rfl

theorem Steering.fits_target (step : Steering) {cell : CellRef} (hcell : cell.Fits) :
    (step.target cell).Fits := by
  have hcommand : ∀ (c : CursorCommand) (args : List String),
      ((c.target? args cell).getD cell).Fits := by
    intro c args
    cases htarget : c.target? args cell with
    | none => exact hcell
    | some target => exact CursorCommand.fits_of_target?_eq_some hcell htarget
  cases step <;> exact hcommand _ _

theorem Steerable.withCursor (h : s.Steerable) {cell : CellRef} (hcell : cell.Fits) :
    (s.withCursor cell).Steerable :=
  { h with fits := hcell }

/-- Steps one after the other end, and change the cursor only. -/
theorem steer_eq (h : s.Steerable) (steps : List Steering) :
    s.steer steps = some (s.withCursor (steps.foldl Steering.target s.host.cursor)) ∧
      (s.withCursor (steps.foldl Steering.target s.host.cursor)).Steerable := by
  induction steps generalizing s with
  | nil => exact ⟨rfl, h⟩
  | cons step steps ih =>
    rw [steer, List.foldlM_cons, Steering.after_eq h step]
    exact ih (h.withCursor (step.fits_target h.fits))

theorem cursor_of_steer (h : s.Steerable) {steps : List Steering} {t : Session}
    (hsteer : s.steer steps = some t) :
    t.host.cursor = steps.foldl Steering.target s.host.cursor := by
  obtain rfl := Option.some.inj (hsteer.symm.trans (steer_eq h steps).1)
  rfl

/-! ## Going where the cursor is -/

theorem scan_goto_cursor :
    scan true "goto [cursor]" = [.literal "goto", .separator " ", .command "cursor"] := by
  cbv

/-- The nested command stands for the name of the cell under the cursor. -/
theorem evalScript_cursor
    (hget : s.procedures.get? "cursor" = some (.command SheetCommand.cursor))
    (hdepth : s.depth < s.maxDepth) :
    evalScript 3 "cursor" s =
      some (.ok s.host.cursor.name, s.setResult s.host.cursor.name) := by
  have hformat : WordList.format ["cursor"] = "cursor" := by cbv
  let inner : Session := { s with depth := s.depth + 1 }
  have hget : inner.procedures.get? "cursor" = some (.command SheetCommand.cursor) := hget
  have hanswer : SheetCommand.cursor.perform [] inner.host =
      .answer inner.host (.ok s.host.cursor.name) := rfl
  have hcall : call (evalScript 2) 2 "cursor" [] inner = some (.ok s.host.cursor.name, inner) :=
    call_of_answer 1 hget hanswer
  have hscript := WordList.evalScript_format 2 (List.cons_ne_nil "cursor" []) hdepth
  rw [hformat, callWords, hcall] at hscript
  exact hscript

theorem evalScript_goto_cursor (h : s.Steerable) {result : Except ScriptError String}
    (hgoto : SheetCommand.goto.perform [s.host.cursor.name] s.host = .answer s.host result) :
    evalScript 4 "goto [cursor]" s =
      some (result.mapError .error,
        (s.setResult s.host.cursor.name).storing (result.mapError .error)) := by
  have hdepth : s.depth + 1 < s.maxDepth := h.depth_le
  let inner : Session := { s with depth := s.depth + 1 }
  have hcursor : evalScript 3 "cursor" inner =
      some (.ok s.host.cursor.name, inner.setResult s.host.cursor.name) :=
    evalScript_cursor (h.get?_command .cursor) hdepth
  have hcall : call (evalScript 3) 3 "goto" [s.host.cursor.name]
      (inner.setResult s.host.cursor.name) =
        some (result.mapError .error, inner.setResult s.host.cursor.name) :=
    call_of_answer 2 (h.get?_command .goto) hgoto
  have hwords : ((({} : Words).add "goto").close.add s.host.cursor.name).toList =
      ["goto", s.host.cursor.name] := rfl
  rw [evalScript, nested_of_lt (Nat.lt_of_succ_lt hdepth), scan_goto_cursor]
  simp only [runTokens]
  rw [Run.bind_apply, hcursor]
  simp only []
  rw [endCommand_apply (by rw [hwords]; exact List.cons_ne_nil _ _), hwords, callWords, hcall]
  cases result <;> rfl

/-- What a user sees of `goto [cursor]`: how it ends, and the cursor in place. -/
theorem evaluate_goto_cursor (h : s.Steerable) {result : Except ScriptError String}
    (hgoto : SheetCommand.goto.perform [s.host.cursor.name] s.host = .answer s.host result) :
    Interp.evaluate "goto [cursor]" s =
      some (.ok (ReturnCode.ofOutcome (result.mapError .error)),
        s.setResult (Interp.outcomeText (result.mapError .error))) := by
  have hrounds : 4 ≤ Interp.manyRounds := by decide
  have heval : Interp.eval "goto [cursor]" s = _ :=
    evalScript_mono hrounds (evalScript_goto_cursor h hgoto)
  have houtcome : Run.outcome (Interp.eval "goto [cursor]") s =
      some (.ok (result.mapError .error),
        (s.setResult s.host.cursor.name).storing (result.mapError .error)) := by
    rw [Run.outcome, heval]
  rw [Interp.evaluate, Run.bind_apply, houtcome]
  cases result <;> rfl

/-! ## Main result -/

/-- The message of `goto` for a text that names no cell. -/
def refusal (name : String) : String := (SheetCommand.hostError (.invalidCellRef name)).message

theorem evaluate_goto_cursor_of_inSheet (h : s.Steerable) (hcell : s.host.cursor.InSheet) :
    Interp.evaluate "goto [cursor]" s = some (.ok .ok, s.setResult s.host.cursor.name) := by
  have hread := CellRef.parse?_name hcell
  have hgoto : SheetCommand.goto.perform [s.host.cursor.name] s.host =
      .answer s.host (.ok s.host.cursor.name) := by
    simp only [SheetCommand.perform, SheetCommand.cellArgument, hread]
    rfl
  exact evaluate_goto_cursor h hgoto

theorem evaluate_goto_cursor_of_lastColumn (h : s.Steerable)
    (hname : CellRef.parse? s.host.cursor.name = none) :
    Interp.evaluate "goto [cursor]" s =
      some (.ok .error, s.setResult (refusal s.host.cursor.name)) := by
  have hgoto : SheetCommand.goto.perform [s.host.cursor.name] s.host =
      .answer s.host (.error (SheetCommand.hostError (.invalidCellRef s.host.cursor.name))) := by
    simp only [SheetCommand.perform, SheetCommand.cellArgument, hname]
    rfl
  exact evaluate_goto_cursor h hgoto

theorem call_cursor (h : s.Steerable) :
    Interp.call ["cursor"] s = some (.ok s.host.cursor.name, s) := by
  have hanswer : SheetCommand.cursor.perform [] s.host = .answer s.host (.ok s.host.cursor.name) :=
    rfl
  exact call_eq (call_of_answer 1 (h.get?_command .cursor) hanswer)

/-- **The cursor can be named, except in the last column.** Steps that steer the cursor without ever
putting it into the last row end, and change the cursor only. Then `cursor` answers with the name of
its cell. In every column but the last one, the name reads back as the cell, and `goto [cursor]`
succeeds and leaves the cursor in place. In the last column the name reads back as no cell, and
`goto [cursor]` fails. -/
theorem exists_steer_and_goto_cursor (h : s.Steerable) (steps : List Steering)
    (hrows : ∀ front t, front <+: steps → s.steer front = some t →
      t.host.cursor.row < 2 ^ 64 - 1) :
    ∃ t, s.steer steps = some t ∧ t = s.withCursor t.host.cursor ∧
      Interp.call ["cursor"] t = some (.ok t.host.cursor.name, t) ∧
      (t.host.cursor.col < 2 ^ 64 - 1 ∧
          CellRef.parse? t.host.cursor.name = some t.host.cursor ∧
          Interp.evaluate "goto [cursor]" t = some (.ok .ok, t.setResult t.host.cursor.name) ∨
        t.host.cursor.col = 2 ^ 64 - 1 ∧
          CellRef.parse? t.host.cursor.name = none ∧
          Interp.evaluate "goto [cursor]" t =
            some (.ok .error, t.setResult (refusal t.host.cursor.name))) := by
  obtain ⟨hsteer, ht⟩ := steer_eq h steps
  have hrow := hrows steps _ List.prefix_rfl hsteer
  refine ⟨_, hsteer, rfl, call_cursor ht, ?_⟩
  rcases Nat.lt_or_eq_of_le ht.fits.1 with hcol | hcol
  · exact .inl ⟨hcol, CellRef.parse?_name ⟨hcol, hrow⟩,
      evaluate_goto_cursor_of_inSheet ht ⟨hcol, hrow⟩⟩
  · have hname := CellRef.parse?_name_eq_none (Nat.le_of_eq hcol.symm)
    exact .inr ⟨hcol, hname, evaluate_goto_cursor_of_lastColumn ht hname⟩

/-- The cursor goes to `AZ20`, one to the right and one up by keys, far to the right, and stays
there when it is sent nowhere. -/
def roundabout : List Steering :=
  [.call .goto ["az20"], .key ⟨"l", .move, ["1", "0"]⟩ (by decide),
    .press ⟨"Up", .move, ["0", "-1"]⟩ (by decide), .call .move ["9223372036854775807", "0"],
    .call .goto ["nowhere"]]

theorem exists_steer_and_goto_cursor_roundabout :
    (ofDocument .empty).Steerable ∧
    (∀ front t, front <+: roundabout → (ofDocument .empty).steer front = some t →
      t.host.cursor.row < 2 ^ 64 - 1) ∧
    ∃ t, (ofDocument .empty).steer roundabout = some t ∧
      t.host.cursor = ⟨9223372036854775859, 18⟩ ∧
      CellRef.parse? t.host.cursor.name = some t.host.cursor ∧
      Interp.evaluate "goto [cursor]" t = some (.ok .ok, t.setResult t.host.cursor.name) := by
  have hfresh : (ofDocument .empty).Steerable :=
    steerable_ofDocument ⟨by decide, by decide⟩
  have htarget : roundabout.foldl Steering.target ⟨0, 0⟩ = ⟨9223372036854775859, 18⟩ := by cbv
  have hpath : roundabout.inits.map (fun front => (front.foldl Steering.target ⟨0, 0⟩).row) =
      [0, 19, 19, 18, 18, 18] := by
    cbv
  have hlow : ∀ row ∈ roundabout.inits.map fun front => (front.foldl Steering.target ⟨0, 0⟩).row,
      row < 2 ^ 64 - 1 := by
    rw [hpath]
    decide
  have hrows : ∀ front t, front <+: roundabout → (ofDocument .empty).steer front = some t →
      t.host.cursor.row < 2 ^ 64 - 1 := by
    intro front t hfront hsteer
    rw [cursor_of_steer hfresh hsteer]
    exact List.forall_mem_map.1 hlow front ((List.mem_inits front roundabout).2 hfront)
  obtain ⟨t, hsteer, -, -, hnamed⟩ := exists_steer_and_goto_cursor hfresh roundabout hrows
  have hcursor : t.host.cursor = ⟨9223372036854775859, 18⟩ :=
    (cursor_of_steer hfresh hsteer).trans htarget
  refine ⟨hfresh, hrows, t, hsteer, hcursor, ?_⟩
  rcases hnamed with ⟨-, hread, hgoto⟩ | ⟨hcol, -⟩
  · exact ⟨hread, hgoto⟩
  · rw [hcursor] at hcol
    exact absurd hcol (by decide)

/-- Steps to the last column of the first row. -/
def toLastColumn : List Steering :=
  [.call .move ["9223372036854775807", "0"], .call .move ["9223372036854775807", "0"],
    .call .move ["1", "0"]]

/-- In the last column of the first row, `cursor` answers with a name that names no cell. -/
theorem goto_cursor_fails_lastColumn :
    ∃ t, (ofDocument .empty).steer toLastColumn = some t ∧ t.host.cursor = ⟨2 ^ 64 - 1, 0⟩ ∧
      Interp.call ["cursor"] t = some (.ok "GKGWBYLWRXTLPP1", t) ∧
      CellRef.parse? "GKGWBYLWRXTLPP1" = none ∧
      Interp.evaluate "goto [cursor]" t =
        some (.ok .error, t.setResult "Invalid cell reference \"GKGWBYLWRXTLPP1\"") := by
  have hfresh : (ofDocument .empty).Steerable :=
    steerable_ofDocument ⟨by decide, by decide⟩
  have htarget : toLastColumn.foldl Steering.target ⟨0, 0⟩ = ⟨2 ^ 64 - 1, 0⟩ := by cbv
  have hname : CellRef.name ⟨2 ^ 64 - 1, 0⟩ = "GKGWBYLWRXTLPP1" := by cbv
  have hmessage : refusal "GKGWBYLWRXTLPP1" = "Invalid cell reference \"GKGWBYLWRXTLPP1\"" := rfl
  obtain ⟨hsteer, ht⟩ := steer_eq hfresh toLastColumn
  have hcursor : ((ofDocument .empty).withCursor
      (toLastColumn.foldl Steering.target (ofDocument .empty).host.cursor)).host.cursor =
      ⟨2 ^ 64 - 1, 0⟩ := htarget
  have hcall := call_cursor ht
  have hread := CellRef.parse?_name_eq_none (Nat.le_of_eq (congrArg CellRef.col hcursor).symm)
  have hgoto := evaluate_goto_cursor_of_lastColumn ht hread
  rw [hcursor, hname] at hcall hread hgoto
  rw [hmessage] at hgoto
  exact ⟨_, hsteer, hcursor, hcall, hread, hgoto⟩

end Session

end SheetScript
