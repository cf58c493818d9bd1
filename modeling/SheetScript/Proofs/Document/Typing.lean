import Mathlib
import SheetScript.Proofs.Document.History

/-!
# Typing in place

`typeText` stores a formula on trial, looks for a cycle and puts back what was there before.
`onTrial_eq` says that nothing is left of the trial, so typing in place is the same change as
`setText`, and a document that refuses a text stays as it is (`typeText_eq`).

A text is refused exactly when it is a formula with which its cell would depend on itself. The
document was without cycles before, so the cycle that is reported passes the cell
(`typeText_run`).
-/

namespace SheetScript.Document

variable {doc : Document} {ref : CellRef} {input : String} {path : List CellRef}

/-- A trial leaves nothing behind, whether or not the cell was there. -/
theorem onTrial_eq {α : Type} (doc : Document) (ref : CellRef) (cell : Cell) (look : Grid → α) :
    doc.onTrial ref cell look = (look (doc.grid.put ref (some cell)), doc) := by
  have hback : (doc.grid.put ref (some cell)).put ref doc.grid[ref]? = doc.grid := by simp
  unfold onTrial
  show (_, { doc with grid := (doc.grid.put ref (some cell)).put ref doc.grid[ref]? }) = _
  rw [hback]
  rfl

/-- Typing in place leaves the changed document, or an error and the document as it was. -/
theorem typeText_eq (doc : Document) (ref : CellRef) (input : String) :
    doc.typeText ref input =
      match doc.setText ref input with
      | .ok doc' => (.ok (), doc')
      | .error e => (.error e, doc) := by
  unfold typeText setText
  generalize Cell.ofInput input = cell
  by_cases hempty : cell.content.isEmpty = true
  · simp only [hempty, if_true]
  · by_cases hformula : cell.content.isFormula = true
    · have hcycle : doc.cycleWith ref cell = Grid.findCycle (doc.grid.put ref (some cell)) ref :=
        if_pos hformula
      simp only [hempty, hformula, onTrial_eq, hcycle, if_true, Bool.false_eq_true, if_false]
      cases Grid.findCycle (doc.grid.put ref (some cell)) ref <;> rfl
    · have hcycle : doc.cycleWith ref cell = none := if_neg hformula
      simp only [hempty, hformula, hcycle, Bool.false_eq_true, if_false]

theorem typeText_eq_error_iff {e : DocumentError} :
    (doc.typeText ref input).1 = .error e ↔ doc.setText ref input = .error e := by
  rw [typeText_eq]
  cases doc.setText ref input <;> simp

/-- What is left after an error is the document as it was. -/
theorem typeText_of_error {e : DocumentError} (h : doc.setText ref input = .error e) :
    (doc.typeText ref input).2 = doc := by
  rw [typeText_eq, h]

/-! ## The reason to refuse a text -/

/-- Only a formula can close a cycle, and the cycle comes back to its cell. -/
theorem circuit_of_cycleWith (hgrid : doc.grid.Grounded) {cell : Cell}
    (h : doc.cycleWith ref cell = some path) :
    cell.content.isFormula = true ∧ (doc.grid.put ref (some cell)).Circuit ref path := by
  unfold cycleWith at h
  split_ifs at h with hformula
  exact ⟨hformula, hgrid.circuit_of_lasso (Grid.lasso_of_findCycle h)⟩

/-- The only reason to refuse a text is a cycle with the cell that it makes. -/
theorem setText_eq_error_iff (hgrid : doc.grid.Grounded) {e : DocumentError} :
    doc.setText ref input = .error e ↔
      ∃ path, e = .circularDependency path ∧
        doc.cycleWith ref (Cell.ofInput input) = some path := by
  unfold setText
  generalize Cell.ofInput input = cell
  by_cases hempty : cell.content.isEmpty = true
  · have hnone : ∀ path, doc.cycleWith ref cell ≠ some path := by
      intro path hcycle
      have hformula := (circuit_of_cycleWith hgrid hcycle).1
      cases hkind : cell.content <;> rw [hkind] at hempty hformula
      · cases hformula
      all_goals cases hempty
    simp [hempty, hnone]
  · cases hcycle : doc.cycleWith ref cell with
    | none => simp [hempty, hcycle]
    | some path => simp [hempty, hcycle, eq_comm]

/-- A text is refused for a cycle exactly when it is a formula with which its cell would depend on
itself. -/
theorem setText_refused_iff (hgrid : doc.grid.Sound) (ref : CellRef) (input : String) :
    (∃ path, doc.setText ref input = .error (.circularDependency path)) ↔
      (Cell.ofInput input).content.isFormula = true ∧
        (doc.grid.put ref (some (Cell.ofInput input))).Cyclic ref := by
  have hcycle := cycleWith_eq_none_iff hgrid ref (Cell.made_ofInput input)
  simp only [setText_eq_error_iff hgrid.grounded, DocumentError.circularDependency.injEq,
    exists_eq_left']
  constructor
  · intro h
    obtain ⟨path, hpath⟩ := h
    refine ⟨(circuit_of_cycleWith hgrid.grounded hpath).1, ?_⟩
    by_contra hcyc
    rw [hcycle.2 hcyc] at hpath
    cases hpath
  · intro h
    cases hres : doc.cycleWith ref (Cell.ofInput input) with
    | some path => exact ⟨path, rfl⟩
    | none => exact absurd h.2 (hcycle.1 hres)

/-! ## Main result -/

/-- **A text is refused exactly for a cycle, and without a trace.** After any actions, wherever the
cursor is and whatever message waits, typing a text in place fails exactly when the text is a
formula with which its cell would depend on itself. The error then reports a walk along the
precedents, those of the new formula included, from the cell back to the cell, and nothing in the
document has changed. -/
theorem typeText_run (actions : List Action) (cursor : CellRef) (flash : Option String)
    (ref : CellRef) (input : String) :
    let doc : Document := { empty.run actions with cursor, flash }
    let tried := doc.grid.put ref (some (Cell.ofInput input))
    ((∃ path, (doc.typeText ref input).1 = .error (.circularDependency path)) ↔
      (Cell.ofInput input).content.isFormula = true ∧ tried.Cyclic ref) ∧
    ∀ e, (doc.typeText ref input).1 = .error e →
      (∃ path, e = .circularDependency path ∧ tried.Circuit ref path) ∧
        (doc.typeText ref input).2 = doc := by
  intro doc tried
  have hgrid : doc.grid.Sound := (follows_run actions).refines.present ▸
    (follows_run actions).sound.present
  simp only [typeText_eq_error_iff]
  refine ⟨setText_refused_iff hgrid ref input, ?_⟩
  intro e he
  obtain ⟨path, hpath, hfound⟩ := (setText_eq_error_iff hgrid.grounded).1 he
  exact ⟨⟨path, hpath, (circuit_of_cycleWith hgrid.grounded hfound).2⟩, typeText_of_error he⟩

/-- A quoted text, and a formula that reads its cell. -/
def readText : List Action :=
  [.request (.setText ⟨1, 0⟩ "\"a\""), .request (.setText ⟨0, 0⟩ "=B1")]

set_option maxRecDepth 2000 in
/-- In place of the text of `readText`, a formula that reads its reader is refused, and the text
stays. -/
theorem typeText_run_readText :
    let doc : Document := { empty.run readText with cursor := ⟨3, 7⟩, flash := some "ready" }
    ∃ path, doc.typeText ⟨1, 0⟩ "=A1" = (.error (.circularDependency path), doc) ∧
      (doc.grid.put ⟨1, 0⟩ (some (Cell.ofInput "=A1"))).Circuit ⟨1, 0⟩ path := by
  intro doc
  have htext : Cell.ofInput "\"a\"" = ⟨.text "a", [], []⟩ := by cbv
  have hreader : Cell.ofInput "=B1" = ⟨.formula "B1", [.cell ⟨1, 0⟩], [⟨1, 0⟩]⟩ := by cbv
  have hback : Cell.ofInput "=A1" = ⟨.formula "A1", [.cell ⟨0, 0⟩], [⟨0, 0⟩]⟩ := by cbv
  have hreads : doc.grid.precedents ⟨0, 0⟩ = [⟨1, 0⟩] := by
    simp only [doc, readText, run, List.foldl, act, attempt, setText, htext, hreader]
    cbv
  have hfirst : (doc.grid.put ⟨1, 0⟩ (some (Cell.ofInput "=A1"))).ReadBy ⟨1, 0⟩ ⟨0, 0⟩ := by
    rw [Grid.readBy_put_of_ne (by decide), Grid.ReadBy, hreads]
    exact List.mem_cons_self
  have hsecond : (doc.grid.put ⟨1, 0⟩ (some (Cell.ofInput "=A1"))).ReadBy ⟨0, 0⟩ ⟨1, 0⟩ := by
    rw [Grid.ReadBy, Grid.precedents_put_self, hback]
    exact List.mem_cons_self
  have hformula : (Cell.ofInput "=A1").content.isFormula = true := by rw [hback]; rfl
  obtain ⟨hiff, herror⟩ := typeText_run readText ⟨3, 7⟩ (some "ready") ⟨1, 0⟩ "=A1"
  obtain ⟨path, hpath⟩ := hiff.2 ⟨hformula, .tail (.single hfirst) hsecond⟩
  obtain ⟨⟨path', heq, hcircuit⟩, hsame⟩ := herror _ hpath
  cases heq
  exact ⟨path, Prod.ext hpath hsame, hcircuit⟩

end SheetScript.Document
