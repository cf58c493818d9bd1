import Mathlib
import SheetScript.Proofs.Document.Dependents
import SheetScript.Proofs.Document.History
import SheetScript.Proofs.Grid.Valuation

/-!
# The values that a document answers

A document answers values from a store that it fills while reading and thins out at every change.
After any actions, whatever it answers is the value of the present grid (`cellValue_run`), unless
the formulas are nested too deeply to be evaluated at once.

Two facts carry this. Every value in the store is the value of the grid (`Grid.Stores`); a change
drops the values of all cells that depend on the changed one, and the others keep theirs. And
evaluation with a store agrees with the values of the grid, by induction on the levels that are
left (`Sound.agrees_value`).
-/

namespace SheetScript

open Formula Relation

namespace Grid

variable {grid : Grid} {ref : CellRef} {levels : Nat} {cache : ValueCache}

/-- The cell holds a formula. -/
def HoldsFormula (grid : Grid) (ref : CellRef) : Prop :=
  ∃ cell, grid[ref]? = some cell ∧ cell.content.isFormula = true

/-- Cells with formulas, each of which reads the next. -/
structure FormulaChain (grid : Grid) (chain : List CellRef) : Prop where
  formulas : ∀ ref ∈ chain, grid.HoldsFormula ref
  walks : chain.IsChain fun user read => grid.ReadBy read user

/-- More than `levels` formulas are nested, the one at `ref` outermost. -/
def NestedBeyond (grid : Grid) (levels : Nat) (ref : CellRef) : Prop :=
  ∃ chain, grid.FormulaChain chain ∧ chain.head? = some ref ∧ levels < chain.length

theorem nestedBeyond_zero (h : grid.HoldsFormula ref) : grid.NestedBeyond 0 ref :=
  ⟨[ref], ⟨by simpa using h, List.isChain_singleton ref⟩, rfl, Nat.one_pos⟩

theorem NestedBeyond.succ {read : CellRef} (h : grid.NestedBeyond levels read)
    (href : grid.HoldsFormula ref) (hread : grid.ReadBy read ref) :
    grid.NestedBeyond (levels + 1) ref := by
  obtain ⟨chain, hchain, hhead, hlength⟩ := h
  obtain ⟨rest, rfl⟩ : ∃ rest, chain = read :: rest := by
    cases chain with
    | nil => cases hhead
    | cons first rest => exact ⟨rest, by rw [Option.some.inj hhead]⟩
  refine ⟨ref :: read :: rest, ⟨?_, List.isChain_cons_cons.2 ⟨hread, hchain.walks⟩⟩, rfl, ?_⟩
  · exact List.forall_mem_cons.2 ⟨href, hchain.formulas⟩
  · rw [List.length_cons]
    omega

/-- Nested formulas are different cells of a sound grid. -/
theorem FormulaChain.length_le {chain : List CellRef} (h : grid.FormulaChain chain)
    (hgrid : grid.Grounded) : chain.length ≤ grid.size := by
  have hreach : chain.IsChain fun user read => TransGen grid.ReadBy read user :=
    h.walks.imp fun _ _ hread => .single hread
  have : IsTrans CellRef fun user read => TransGen grid.ReadBy read user :=
    ⟨fun _ _ _ hab hbc => hbc.trans hab⟩
  have hnodup : chain.Nodup := by
    refine hreach.pairwise.imp ?_
    rintro user _ hread rfl
    exact hgrid.not_cyclic user hread
  have hsubset : chain ⊆ grid.keys := by
    intro ref href
    obtain ⟨cell, hcell, -⟩ := h.formulas ref href
    rw [Std.ExtTreeMap.mem_keys, Std.ExtTreeMap.mem_iff_isSome_getElem?, hcell]
    rfl
  rw [← Std.ExtTreeMap.length_keys]
  exact (hnodup.subperm hsubset).length_le

/-- The store holds values of formulas of the grid. -/
structure Stores (grid : Grid) (values : CellRef → Except FormulaError Float) (cache : ValueCache) :
    Prop where
  holdsFormula : ∀ (ref : CellRef) (x : Float), cache[ref]? = some x → grid.HoldsFormula ref
  value_eq : ∀ (ref : CellRef) (x : Float), cache[ref]? = some x → values ref = .ok x

variable {values : CellRef → Except FormulaError Float}

theorem stores_empty (grid : Grid) (values : CellRef → Except FormulaError Float) :
    grid.Stores values ∅ := ⟨fun _ _ h => by simp at h, fun _ _ h => by simp at h⟩

theorem Stores.insert (h : grid.Stores values cache) (href : grid.HoldsFormula ref) {x : Float}
    (hx : values ref = .ok x) : grid.Stores values (cache.insert ref x) := by
  have hcases : ∀ (other : CellRef) (y : Float), (cache.insert ref x)[other]? = some y →
      ref = other ∧ x = y ∨ cache[other]? = some y := by
    intro other y hother
    rw [Std.ExtTreeMap.getElem?_insert] at hother
    simp only [Std.LawfulEqCmp.compare_eq_iff_eq] at hother
    split_ifs at hother with heq
    · exact Or.inl ⟨heq, Option.some.inj hother⟩
    · exact Or.inr hother
  refine ⟨fun other y hother => ?_, fun other y hother => ?_⟩
  · rcases hcases other y hother with ⟨rfl, rfl⟩ | hother
    · exact href
    · exact h.holdsFormula other y hother
  · rcases hcases other y hother with ⟨rfl, rfl⟩ | hother
    · exact hx
    · exact h.value_eq other y hother

/-! ## Evaluation with a store -/

/-- Runs over a store are compared with runs over the values of the grid; they may fail with some
extra errors. -/
def storeComparison (grid : Grid) (values : CellRef → Except FormulaError Float)
    (extra : FormulaError → Prop) : Comparison ValueCache where
  inv := grid.Stores values
  shared e := ∀ limit, e ≠ .recursionLimit limit
  extra := extra
  shared_of_isEvaluation _ h _ heq := by
    subst heq
    exact h

/-- The error that formulas nested beyond the levels may give. -/
def TooDeep (grid : Grid) (levels : Nat) (ref : CellRef) (e : FormulaError) : Prop :=
  e = .recursionLimit Document.maxLevels ∧ grid.NestedBeyond levels ref

theorem valueStep_of_not_formula (h : ¬ grid.HoldsFormula ref)
    (inner : Option (CellRef → Lookup ValueCache Float)) :
    ∃ x, grid.valueStep inner ref = pure x ∧ ∀ values, grid.valueFrom values ref = .ok x := by
  unfold valueStep valueFrom
  cases hcell : grid[ref]? with
  | none => exact ⟨0, rfl, fun _ => rfl⟩
  | some cell =>
    dsimp only
    cases hcontent : cell.content with
    | number x => exact ⟨x, rfl, fun _ => rfl⟩
    | empty => exact ⟨0, rfl, fun _ => rfl⟩
    | text => exact ⟨0, rfl, fun _ => rfl⟩
    | formula source => exact absurd ⟨cell, hcell, by rw [hcontent]; rfl⟩ h

/-- A cell with a formula is looked up in the store, then evaluated and stored. -/
theorem valueStep_of_formula {cell : Cell} (hcell : grid[ref]? = some cell)
    (hformula : cell.content.isFormula = true)
    (inner : Option (CellRef → Lookup ValueCache Float)) (cache : ValueCache) :
    grid.valueStep inner ref cache =
      match cache[ref]?, inner with
      | some x, _ => (.ok x, cache)
      | none, none => (.error (.recursionLimit Document.maxLevels), cache)
      | none, some inner =>
        match evaluate .wraps ⟨inner, grid.hasValue⟩ cell.nodes cache with
        | (.ok x, cache) => (.ok x, cache.insert ref x)
        | (.error e, cache) => (.error e, cache) := by
  unfold valueStep
  rw [hcell]
  dsimp only
  cases hcontent : cell.content with
  | formula source =>
    dsimp only
    rw [Lookup.bind_apply]
    show (match cache[ref]?, inner with
      | some value, _ => _
      | none, none => _
      | none, some inner => _ : Lookup ValueCache Float) cache = _
    cases cache[ref]? with
    | some x => rfl
    | none =>
      cases inner with
      | none => rfl
      | some inner =>
        dsimp only
        rw [Lookup.bind_apply]
        rcases evaluate .wraps ⟨inner, grid.hasValue⟩ cell.nodes cache with ⟨_ | _, _⟩ <;> rfl
  | _ => rw [hcontent] at hformula; cases hformula

theorem valueFrom_of_formula {cell : Cell} (hcell : grid[ref]? = some cell)
    (hformula : cell.content.isFormula = true) :
    grid.valueFrom values ref = evaluateWith values grid.hasValue cell.nodes := by
  unfold valueFrom
  rw [hcell]
  dsimp only
  cases hcontent : cell.content with
  | formula source => rfl
  | _ => rw [hcontent] at hformula; cases hformula

theorem agrees_of_extra {α : Type} {post : α → Prop} {run : Lookup ValueCache α}
    {plain : Lookup Unit α} {extra extra' : FormulaError → Prop}
    (h : Agrees (grid.storeComparison values extra) post run plain)
    (hextra : ∀ e, extra e → extra' e) :
    Agrees (grid.storeComparison values extra') post run plain := by
  intro cache hcache
  obtain ⟨hinv, hres⟩ := h cache hcache
  refine ⟨hinv, ?_⟩
  split at hres
  · exact hres
  · exact hres.imp_left (hextra _)

/-- What a formula reads at the levels below agrees with the values of the grid. -/
theorem Sound.sourcesAgree (h : grid.Sound) {cell : Cell} (hcell : grid[ref]? = some cell)
    (hformula : cell.content.isFormula = true) {below : Nat}
    {inner : CellRef → Lookup ValueCache Float}
    (hbelow : ∀ read, Agrees (grid.storeComparison h.value (grid.TooDeep below read))
      (fun _ => True) (inner read) ((CellSource.ofValues h.value grid.hasValue).value read)) :
    SourcesAgree (grid.storeComparison h.value (grid.TooDeep (below + 1) ref))
      (Formula.precedents cell.nodes) ⟨inner, grid.hasValue⟩
      (.ofValues h.value grid.hasValue) where
  value read hmem := agrees_of_extra (hbelow read) fun _ he =>
    ⟨he.1, he.2.succ ⟨cell, hcell, hformula⟩ (h.readBy_of_mem_precedents hcell hmem)⟩
  hasValue _ _ := rfl

/-- Reading a cell with a store agrees with the value of the grid, if reading cells at the levels
below does. -/
theorem Sound.agrees_valueStep (h : grid.Sound)
    {inner : Option (CellRef → Lookup ValueCache Float)}
    (hnone : inner = none → levels = 0)
    (hsome : ∀ f, inner = some f → ∃ below, levels = below + 1 ∧ ∀ read,
      Agrees (grid.storeComparison h.value (grid.TooDeep below read)) (fun _ => True) (f read)
        ((CellSource.ofValues h.value grid.hasValue).value read)) (ref : CellRef) :
    Agrees (grid.storeComparison h.value (grid.TooDeep levels ref)) (fun _ => True)
      (grid.valueStep inner ref) ((CellSource.ofValues h.value grid.hasValue).value ref) := by
  intro cache hcache
  by_cases hformula : grid.HoldsFormula ref
  · have hholds := hformula
    obtain ⟨cell, hcell, hformula⟩ := hformula
    have hvalue : h.value ref = evaluateWith h.value grid.hasValue cell.nodes :=
      (h.isValuation_value ref).trans (valueFrom_of_formula hcell hformula)
    rw [valueStep_of_formula hcell hformula]
    cases hstored : cache[ref]? with
    | some x => exact ⟨hcache, hcache.value_eq ref x hstored, trivial⟩
    | none =>
      -- A value that is not stored: at the last level there is no read, otherwise the formula is
      -- evaluated over the level below.
      cases inner with
      | none =>
        obtain rfl := hnone rfl
        exact ⟨hcache, Or.inl ⟨rfl, nestedBeyond_zero hholds⟩⟩
      | some f =>
        obtain ⟨below, rfl, hbelow⟩ := hsome f rfl
        have hsources := h.sourcesAgree hcell hformula hbelow
        obtain ⟨hinv, hres⟩ := agrees_evaluate hsources cache hcache
        dsimp only
        rcases heval : evaluate .wraps ⟨f, grid.hasValue⟩ cell.nodes cache with ⟨e | x, cache'⟩ <;>
          rw [heval] at hinv hres
        · exact ⟨hinv, hres.imp_right fun hshared => ⟨hshared.1, hvalue.trans hshared.2⟩⟩
        · have hx : h.value ref = .ok x := hvalue.trans hres.1
          exact ⟨hinv.insert hholds hx, hx, trivial⟩
  · obtain ⟨x, hrun, hvalue⟩ := valueStep_of_not_formula hformula inner
    rw [hrun]
    exact ⟨hcache, (h.isValuation_value ref).trans (hvalue h.value), trivial⟩

/-- Reading a cell with a store agrees with the value of the grid, unless formulas are nested beyond
the levels. -/
theorem Sound.agrees_value (h : grid.Sound) (levels : Nat) (ref : CellRef) :
    Agrees (grid.storeComparison h.value (grid.TooDeep levels ref)) (fun _ => True)
      (grid.value levels ref) ((CellSource.ofValues h.value grid.hasValue).value ref) := by
  induction levels generalizing ref with
  | zero =>
    refine h.agrees_valueStep ?_ ?_ ref
    · exact fun _ => rfl
    · exact nofun
  | succ levels ih =>
    show Agrees _ _ (grid.valueStep (some (grid.value levels)) ref) _
    refine h.agrees_valueStep ?_ ?_ ref
    · exact nofun
    · rintro f ⟨⟩
      exact ⟨levels, rfl, ih⟩

/-- After a change, the values that were not dropped are the values of the changed grid. -/
theorem Stores.put {cell : Option Cell} {changed : CellRef} {dependents : Dependents}
    (h : grid.Sound) (h' : (grid.put changed cell).Sound) (hstores : grid.Stores h.value cache)
    (hmirrors : dependents.Mirrors (grid.put changed cell)) :
    (grid.put changed cell).Stores h'.value (dependents.dropStale cache [changed]) := by
  obtain ⟨dropped, hdrops, hreach⟩ := hmirrors.exists_dropped cache changed
  have hkept : ∀ (ref : CellRef) (x : Float),
      (dependents.dropStale cache [changed])[ref]? = some x →
      ref ∉ dropped ∧ cache[ref]? = some x := by
    intro ref x href
    have hmem : ref ∉ dropped := by
      intro hmem
      rw [hdrops.eq_none ref hmem] at href
      cases href
    exact ⟨hmem, hdrops.eq_of_notMem ref hmem ▸ href⟩
  refine ⟨fun ref x href => ?_, fun ref x href => ?_⟩
  · obtain ⟨hmem, href⟩ := hkept ref x href
    obtain ⟨stored, hstored, hformula⟩ := hstores.holdsFormula ref x href
    refine ⟨stored, ?_, hformula⟩
    rw [getElem?_put, if_neg, hstored]
    rintro rfl
    exact hmem (hreach ref .refl)
  · obtain ⟨hmem, href⟩ := hkept ref x href
    rw [h.value_put h' fun hread => hmem (hreach ref hread)]
    exact hstores.value_eq ref x href

end Grid

/-! ## Whole runs -/

namespace Document

/-- The dependents and the store of values belong to the grid, which is sound. -/
structure Current (doc : Document) : Prop where
  sound : doc.grid.Sound
  mirrors : doc.dependents.Mirrors doc.grid
  stores : doc.grid.Stores sound.value doc.cache

variable {doc : Document} {ref : CellRef}

theorem current_empty : empty.Current where
  sound := Grid.sound_empty
  mirrors := Dependents.mirrors_empty
  stores := Grid.stores_empty _ _

theorem Current.replace (h : doc.Current) {cell : Option Cell}
    (hsound : (doc.replace ref cell).grid.Sound) : (doc.replace ref cell).Current where
  sound := hsound
  mirrors := mirrors_replace h.mirrors ref cell
  stores := h.stores.put h.sound hsound (mirrors_replace h.mirrors ref cell)

theorem Current.cellValue (h : doc.Current) (ref : CellRef) : (doc.cellValue ref).2.Current where
  sound := h.sound
  mirrors := h.mirrors
  stores := (h.sound.agrees_value maxLevels ref doc.cache h.stores).1

theorem Current.act {action : Action} (h : doc.Current) (hsound : (doc.act action).grid.Sound) :
    (doc.act action).Current := by
  revert hsound
  refine act_induction (motive := fun doc => doc.grid.Sound → doc.Current) (fun _ => h) ?_ ?_
  · intro request doc' hres hsound
    rcases attempt_eq_ok hres with rfl | ⟨undoStack, redoStack, ref, cell, rfl⟩
    · exact h
    · have hstacks : { doc with undoStack, redoStack }.Current := ⟨h.sound, h.mirrors, h.stores⟩
      exact hstacks.replace hsound
  · exact fun ref _ => h.cellValue ref

theorem current_run (actions : List Action) : (empty.run actions).Current := by
  have h : (∃ hist, (empty.run actions).Follows hist) ∧ (empty.run actions).Current := by
    refine run_induction (motive := fun doc => (∃ hist, doc.Follows hist) ∧ doc.Current)
      ⟨⟨_, follows_empty⟩, current_empty⟩ ?_ actions
    rintro doc action ⟨⟨hist, hfollows⟩, hcurrent⟩
    have hact := hfollows.act action
    exact ⟨⟨_, hact⟩, hcurrent.act (hact.refines.present ▸ hact.sound.present)⟩
  exact h.2

theorem size_act_le (doc : Document) (action : Action) :
    (doc.act action).grid.size ≤ doc.grid.size + 1 := by
  refine act_induction (motive := fun doc' => doc'.grid.size ≤ doc.grid.size + 1)
    (Nat.le_succ _) ?_ ?_
  · intro request doc' hres
    rcases attempt_eq_ok hres with rfl | ⟨undoStack, redoStack, ref, cell, rfl⟩
    · exact Nat.le_succ _
    · cases cell with
      | none => exact Std.ExtTreeMap.size_erase_le.trans (Nat.le_succ _)
      | some cell => exact Std.ExtTreeMap.size_insert_le
  · exact fun ref => Nat.le_succ _

theorem size_run_le (actions : List Action) : (empty.run actions).grid.size ≤ actions.length := by
  have h : ∀ doc : Document, (doc.run actions).grid.size ≤ doc.grid.size + actions.length := by
    induction actions with
    | nil => exact fun doc => Nat.le_refl _
    | cons action actions ih =>
      intro doc
      have hrest := ih (doc.act action)
      have hfirst := doc.size_act_le action
      rw [List.length_cons]
      exact hrest.trans (by omega)
  exact (h empty).trans (Nat.le_of_eq (Nat.zero_add _))

theorem Current.cellValue_fst (h : doc.Current) (ref : CellRef) :
    ((doc.cellValue ref).1 = h.sound.value ref ∧
      ∀ limit, (doc.cellValue ref).1 ≠ .error (.recursionLimit limit)) ∨
    ((doc.cellValue ref).1 = .error (.recursionLimit maxLevels) ∧
      doc.grid.NestedBeyond maxLevels ref) := by
  obtain ⟨-, hres⟩ := h.sound.agrees_value maxLevels ref doc.cache h.stores
  show ((doc.grid.value maxLevels ref doc.cache).1 = h.sound.value ref ∧
      ∀ limit, (doc.grid.value maxLevels ref doc.cache).1 ≠ .error (.recursionLimit limit)) ∨
    ((doc.grid.value maxLevels ref doc.cache).1 = .error (.recursionLimit maxLevels) ∧
      doc.grid.NestedBeyond maxLevels ref)
  split at hres
  next x hx => exact Or.inl ⟨hx.trans hres.1.symm, fun limit heq => by rw [hx] at heq; cases heq⟩
  next e he =>
    rcases hres with ⟨rfl, hnested⟩ | ⟨hshared, hvalue⟩
    · exact Or.inr ⟨he, hnested⟩
    · refine Or.inl ⟨he.trans hvalue.symm, fun limit heq => hshared limit ?_⟩
      exact Except.error.inj (he.symm.trans heq)

/-- **No value is ever stale.** After any actions, the grid has exactly one valuation, the stored
values are its values, and reading a cell answers its value there or fails for the limit of levels.
Reading does not fail so when at most `maxLevels` formulas are nested. -/
theorem cellValue_run (actions : List Action) :
    ∃ values : CellRef → Except FormulaError Float,
      (∀ other, (empty.run actions).grid.IsValuation other ↔ other = values) ∧
      (∀ (ref : CellRef) (x : Float), (empty.run actions).cache[ref]? = some x →
        values ref = .ok x) ∧
      ∀ ref,
        (((empty.run actions).cellValue ref).1 = values ref ∨
          ((empty.run actions).cellValue ref).1 = .error (.recursionLimit 256)) ∧
        ((∀ chain, (empty.run actions).grid.FormulaChain chain → chain.head? = some ref →
            chain.length ≤ 256) →
          ((empty.run actions).cellValue ref).1 = values ref ∧
            ∀ limit, ((empty.run actions).cellValue ref).1 ≠ .error (.recursionLimit limit)) := by
  have h := current_run actions
  refine ⟨h.sound.value, fun other => h.sound.isValuation_iff, h.stores.value_eq, fun ref => ?_⟩
  rcases h.cellValue_fst ref with hvalue | ⟨hlimit, chain, hchain, hhead, hlength⟩
  · exact ⟨Or.inl hvalue.1, fun _ => hvalue⟩
  · exact ⟨Or.inr hlimit, fun hshort => absurd (hshort chain hchain hhead) (Nat.not_le.2 hlength)⟩

/-- A formula is read, then the cell that it reads changes. -/
def readThenEdit : List Action :=
  [.request (.setText ⟨0, 0⟩ "=B1+1"), .cellValue ⟨0, 0⟩, .request (.setText ⟨1, 0⟩ "2")]

/-- Few actions nest few formulas, so the formula of `readThenEdit` has its new value when it is
read again. -/
theorem cellValue_run_readThenEdit :
    (∀ chain, (empty.run readThenEdit).grid.FormulaChain chain → chain.head? = some ⟨0, 0⟩ →
      chain.length ≤ 256) ∧
    ∃ values : CellRef → Except FormulaError Float,
      (empty.run readThenEdit).grid.IsValuation values ∧
        ((empty.run readThenEdit).cellValue ⟨0, 0⟩).1 = values ⟨0, 0⟩ := by
  have hshort : ∀ chain, (empty.run readThenEdit).grid.FormulaChain chain →
      chain.head? = some ⟨0, 0⟩ → chain.length ≤ 256 := by
    intro chain hchain _
    calc chain.length ≤ (empty.run readThenEdit).grid.size :=
          hchain.length_le (current_run readThenEdit).sound.grounded
      _ ≤ 3 := size_run_le readThenEdit
      _ ≤ 256 := Nat.le_add_left 3 253
  obtain ⟨values, hvalues, -, hread⟩ := cellValue_run readThenEdit
  exact ⟨hshort, values, (hvalues values).2 rfl, ((hread ⟨0, 0⟩).2 hshort).1⟩

/-- **Dependents mirror the grid.** After any actions, accepted or refused, the users of a cell are
exactly the stored cells that read it, a cell without users has no entry, and only formulas have
stored values. -/
theorem dependents_run (actions : List Action) :
    (∀ ref user : CellRef, user ∈ (empty.run actions).dependents.usersOf ref ↔
      ∃ cell, (empty.run actions).grid[user]? = some cell ∧ ref ∈ cell.precedents) ∧
    (∀ ref : CellRef, (empty.run actions).dependents[ref]? ≠ some ∅) ∧
    ∀ ref ∈ (empty.run actions).cache,
      ∃ cell, (empty.run actions).grid[ref]? = some cell ∧ cell.content.isFormula = true := by
  have h := current_run actions
  refine ⟨fun ref user => ?_, h.mirrors.noneEmpty, fun ref href => ?_⟩
  · rw [h.mirrors.mem_usersOf, Grid.readBy_iff]
  · exact h.stores.holdsFormula ref _ (Std.ExtTreeMap.getElem?_eq_some_getElem href)

/-- A formula is typed in and read. -/
def readOnce : List Action := [.request (.setText ⟨0, 0⟩ "=B1"), .cellValue ⟨0, 0⟩]

set_option maxRecDepth 2000 in
/-- The value that was read is stored, and belongs to a formula. -/
theorem dependents_run_readOnce :
    (⟨0, 0⟩ : CellRef) ∈ (empty.run readOnce).cache ∧
      ∃ cell, (empty.run readOnce).grid[(⟨0, 0⟩ : CellRef)]? = some cell ∧
        cell.content.isFormula = true := by
  have hcell : Cell.ofInput "=B1" = ⟨.formula "B1", [.cell ⟨1, 0⟩], [⟨1, 0⟩]⟩ := by cbv
  have hstored : (⟨0, 0⟩ : CellRef) ∈ (empty.run readOnce).cache := by
    simp only [readOnce, run, List.foldl, act, attempt, setText, hcell]
    cbv
  exact ⟨hstored, (dependents_run readOnce).2.2 _ hstored⟩

end Document

end SheetScript
