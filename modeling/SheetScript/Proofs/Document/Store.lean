import SheetScript.Proofs.Document.Values
import SheetScript.Proofs.Formula.InStep

/-!
# Reading over a store

Reading a cell takes the values of formulas from a store where it finds them, and stores the ones
that it evaluates. A store is *closed* when it knows all that its formulas read. Reading keeps a
store closed, and what it answers is known to the store afterwards (`settles_value`); a change keeps
it closed, since dropping a value drops the values of all formulas that read it (`Closed.put`).

Over a closed store a cell is answered as over any store within it, except that the smaller store
may leave more formulas to evaluate inside one another than there are levels (`inStep_value`). For
both reads ask for the same cells. Where the larger store has the value at hand, the smaller one
stores nothing on the way that the larger one does not hold (`inStep_known`).
-/

namespace SheetScript

open Formula

namespace Grid

variable {grid : Grid} {ref : CellRef} {x : Float} {levels : Nat} {cache cache' : ValueCache}

/-! ## Stores within stores -/

/-- The second store holds all values of the first one. -/
def Within (cache cache' : ValueCache) : Prop :=
  ∀ (ref : CellRef) (x : Float), cache[ref]? = some x → cache'[ref]? = some x

instance : IsPreorder ValueCache Within where
  refl _ _ _ h := h
  trans _ _ _ h h' ref x href := h' ref x (h ref x href)

theorem getElem?_insert (cache : ValueCache) (ref other : CellRef) (x : Float) :
    (cache.insert ref x)[other]? = if ref = other then some x else cache[other]? := by
  rw [Std.ExtTreeMap.getElem?_insert]
  simp only [Std.LawfulEqCmp.compare_eq_iff_eq]

theorem within_insert (h : ∀ y, cache[ref]? = some y → y = x) :
    Within cache (cache.insert ref x) := by
  intro other y hother
  rw [getElem?_insert]
  split_ifs with heq
  · rw [h y (heq ▸ hother)]
  · exact hother

theorem Within.insert (h : Within cache cache') (ref : CellRef) (x : Float) :
    Within (cache.insert ref x) (cache'.insert ref x) := by
  intro other y hother
  rw [getElem?_insert] at hother ⊢
  split_ifs at hother ⊢
  · exact hother
  · exact h other y hother

theorem Within.insert_left (h : Within cache cache') (href : cache'[ref]? = some x) :
    Within (cache.insert ref x) cache' := by
  intro other y hother
  rw [getElem?_insert] at hother
  split_ifs at hother with heq
  · rwa [← heq, ← Option.some.inj hother]
  · exact h other y hother

theorem Within.insert_right (h : Within cache cache') (href : cache[ref]? = none) (x : Float) :
    Within cache (cache'.insert ref x) := by
  intro other y hother
  rw [getElem?_insert]
  split_ifs with heq
  · rw [← heq, href] at hother
    cases hother
  · exact h other y hother

/-! ## What a store knows -/

/-- The value of a cell as far as the store knows it, without evaluating a formula. -/
def known (grid : Grid) (cache : ValueCache) (ref : CellRef) : Except FormulaError Float :=
  (grid.value 0 ref cache).1

theorem value_of_not_formula (h : ¬ grid.HoldsFormula ref) :
    ∃ x, (∀ values, grid.valueFrom values ref = .ok x) ∧
      ∀ levels cache, grid.value levels ref cache = (.ok x, cache) := by
  obtain ⟨x, -, hx⟩ := valueStep_of_not_formula h none
  refine ⟨x, hx, fun levels cache => ?_⟩
  have hstep : ∀ inner, grid.valueStep inner ref cache = (.ok x, cache) := by
    intro inner
    obtain ⟨y, hrun, hy⟩ := valueStep_of_not_formula h inner
    rw [hrun, ← Except.ok.inj ((hy fun _ => .ok 0).symm.trans (hx fun _ => .ok 0))]
    rfl
  cases levels with
  | zero => exact hstep none
  | succ below => exact hstep (some (grid.value below))

/-- The value that was found for a cell goes into the store. -/
def storing (ref : CellRef) :
    Except FormulaError Float × ValueCache → Except FormulaError Float × ValueCache
  | (.ok x, cache) => (.ok x, cache.insert ref x)
  | (.error e, cache) => (.error e, cache)

/-- A cell with a formula is looked up in the store, then evaluated and stored. -/
theorem value_of_formula {cell : Cell} (hcell : grid[ref]? = some cell)
    (hformula : cell.content.isFormula = true) (levels : Nat) (cache : ValueCache) :
    grid.value levels ref cache =
      match cache[ref]?, levels with
      | some x, _ => (.ok x, cache)
      | none, 0 => (.error (.recursionLimit Document.maxLevels), cache)
      | none, below + 1 =>
        storing ref (evaluate .wraps ⟨grid.value below, grid.hasValue⟩ cell.nodes cache) := by
  cases levels with
  | zero =>
    rw [value, valueStep_of_formula hcell hformula]
    cases cache[ref]? <;> rfl
  | succ below =>
    rw [value, valueStep_of_formula hcell hformula]
    cases cache[ref]? <;> rfl

theorem known_of_formula (h : grid.HoldsFormula ref) :
    grid.known cache ref =
      match cache[ref]? with
      | some x => .ok x
      | none => .error (.recursionLimit Document.maxLevels) := by
  obtain ⟨cell, hcell, hformula⟩ := h
  rw [known, value_of_formula hcell hformula]
  cases cache[ref]? <;> rfl

theorem known_of_stored (h : grid.HoldsFormula ref) (href : cache[ref]? = some x) :
    grid.known cache ref = .ok x := by
  rw [known_of_formula h, href]

/-- What a store knows of a cell depends on the cell and on its stored value alone. -/
theorem known_congr {grid' : Grid} (hcell : grid[ref]? = grid'[ref]?)
    (hcache : cache[ref]? = cache'[ref]?) : grid.known cache ref = grid'.known cache' ref := by
  have hholds : grid.HoldsFormula ref ↔ grid'.HoldsFormula ref := by
    rw [HoldsFormula, HoldsFormula, hcell]
  by_cases hformula : grid.HoldsFormula ref
  · rw [known_of_formula hformula, known_of_formula (hholds.1 hformula), hcache]
  · obtain ⟨x, hx, hvalue⟩ := value_of_not_formula hformula
    obtain ⟨y, hy, hvalue'⟩ := value_of_not_formula (mt hholds.2 hformula)
    have hsame : grid.valueFrom (fun _ => .ok 0) ref = grid'.valueFrom (fun _ => .ok 0) ref := by
      unfold valueFrom
      rw [hcell]
      cases hstored : grid'[ref]? with
      | none => rfl
      | some cell =>
        dsimp only
        cases hcontent : cell.content with
        | formula source =>
          exact absurd ⟨cell, hcell.trans hstored, by rw [hcontent]; rfl⟩ hformula
        | _ => rfl
    have hxy : x = y := Except.ok.inj ((hx _).symm.trans (hsame.trans (hy _)))
    rw [known, known, hvalue, hvalue', hxy]

theorem Within.known (h : Within cache cache') (href : grid.known cache ref = .ok x) :
    grid.known cache' ref = .ok x := by
  by_cases hformula : grid.HoldsFormula ref
  · rw [known_of_formula hformula] at href
    cases hstored : cache[ref]? with
    | none =>
      rw [hstored] at href
      cases href
    | some y =>
      rw [hstored] at href
      cases href
      exact known_of_stored hformula (h ref x hstored)
  · obtain ⟨y, -, hvalue⟩ := value_of_not_formula hformula
    rw [Grid.known, hvalue] at href ⊢
    exact href

/-- A store is closed when it knows what the formulas of its values read. -/
def Closed (grid : Grid) (cache : ValueCache) : Prop :=
  ∀ (ref : CellRef) (x : Float) (cell : Cell), cache[ref]? = some x → grid[ref]? = some cell →
    evaluateWith (grid.known cache) grid.hasValue cell.nodes = .ok x

theorem Within.evaluateWith (h : Within cache cache') {nodes : List Node}
    (hnodes : Formula.evaluateWith (grid.known cache) grid.hasValue nodes = .ok x) :
    Formula.evaluateWith (grid.known cache') grid.hasValue nodes = .ok x := by
  have hstep : ∀ ref, InStep (fun _ _ : Unit => True) (fun _ => True) (fun _ => False)
      ((CellSource.ofValues (grid.known cache) grid.hasValue).value ref)
      ((CellSource.ofValues (grid.known cache') grid.hasValue).value ref) := by
    intro ref _ _ _
    show Together _ _ _ (grid.known cache ref, ()) (grid.known cache' ref, ())
    cases hknown : grid.known cache ref with
    | error e => exact .left trivial
    | ok y =>
      rw [h.known hknown]
      exact .same trivial
  have hends := inStep_evaluate hstep grid.hasValue nodes () () trivial
  rw [evaluate_ofValues, evaluate_ofValues, hnodes] at hends
  generalize Formula.evaluateWith (grid.known cache') grid.hasValue nodes = result at hends
  cases hends with
  | right he => exact he.elim
  | same => rfl

/-- A store stays closed when it takes in the value of a formula that it knows. -/
theorem Closed.insert (h : grid.Closed cache) {cell : Cell} (hcell : grid[ref]? = some cell)
    (hnodes : evaluateWith (grid.known cache) grid.hasValue cell.nodes = .ok x) :
    Within cache (cache.insert ref x) ∧ grid.Closed (cache.insert ref x) := by
  have hwithin : Within cache (cache.insert ref x) := by
    refine within_insert fun y hy => ?_
    exact Except.ok.inj ((h ref y cell hy hcell).symm.trans hnodes)
  refine ⟨hwithin, fun other y stored hother hstored => ?_⟩
  rw [getElem?_insert] at hother
  split_ifs at hother with heq
  · subst heq
    obtain rfl := Option.some.inj (hcell.symm.trans hstored)
    exact hwithin.evaluateWith (Option.some.inj hother ▸ hnodes)
  · exact hwithin.evaluateWith (h other y stored hother hstored)

/-! ## Reading over any store -/

theorem within_evaluate {value : CellRef → Lookup ValueCache Float}
    (h : ∀ ref cache, Within cache (value ref cache).2) (hasValue : CellRef → Bool)
    (nodes : List Node) (cache : ValueCache) :
    Within cache (evaluate .wraps ⟨value, hasValue⟩ nodes cache).2 := by
  -- The evaluation runs in step with itself, over the stores that hold the first one.
  have hstep : ∀ ref, InStep (fun s t => s = t ∧ Within cache s) (fun _ => False)
      (fun _ => False) (value ref) (value ref) := by
    rintro ref s _ ⟨rfl, hs⟩
    exact .same (s := (value ref s).2) ⟨rfl, trans_of Within hs (h ref s)⟩
  have hends := inStep_evaluate hstep hasValue nodes cache cache ⟨rfl, refl_of Within cache⟩
  generalize evaluate .wraps ⟨value, hasValue⟩ nodes cache = ended at hends
  cases hends with
  | left he => exact he.elim
  | right he => exact he.elim
  | same hsame => exact hsame.2

/-- What was evaluated for a cell whose value was not there may be stored. -/
theorem within_storing {ended : Except FormulaError Float × ValueCache} (h : Within cache ended.2)
    (href : cache[ref]? = none) : Within cache (storing ref ended).2 := by
  rcases ended with ⟨e | x, cache'⟩
  · exact h
  · exact h.insert_right href x

/-- Reading a cell only adds values to a store, whether or not the read succeeds. -/
theorem within_value (levels : Nat) (ref : CellRef) (cache : ValueCache) :
    Within cache (grid.value levels ref cache).2 := by
  induction levels using Nat.strong_induction_on generalizing ref cache with
  | _ levels ih =>
    by_cases hformula : grid.HoldsFormula ref
    · obtain ⟨cell, hcell, hcontent⟩ := hformula
      rw [value_of_formula hcell hcontent]
      cases hstored : cache[ref]? with
      | some x => exact refl_of Within cache
      | none =>
        cases levels with
        | zero => exact refl_of Within cache
        | succ below =>
          exact within_storing
            (within_evaluate (ih below (Nat.lt_succ_self below)) grid.hasValue cell.nodes cache)
            hstored
    · obtain ⟨x, -, hvalue⟩ := value_of_not_formula hformula
      rw [hvalue]
      exact refl_of Within cache

/-! ## Reading over a closed store -/

theorem settled_storing {cell : Cell} {ended : Except FormulaError Float × ValueCache}
    (hcell : grid[ref]? = some cell) (hformula : grid.HoldsFormula ref)
    (h : Settled grid.Closed Within (fun t => evaluateWith (grid.known t) grid.hasValue cell.nodes)
      cache ended) :
    Settled grid.Closed Within (grid.known · ref) cache (storing ref ended) := by
  obtain ⟨hkeeps, habove, hfound⟩ := h
  rcases ended with ⟨e | x, cache'⟩
  · exact ⟨hkeeps, habove, nofun⟩
  · obtain ⟨hwithin, hclosed⟩ := hkeeps.insert hcell (hfound x rfl cache' (refl_of Within cache'))
    refine ⟨hclosed, trans_of Within habove hwithin, ?_⟩
    rintro y ⟨⟩ t ht
    exact known_of_stored hformula (ht ref x Std.ExtTreeMap.getElem?_insert_self)

/-- Reading a cell keeps a store closed, keeps its values and stores the value that it answers. -/
theorem settles_value (levels : Nat) (ref : CellRef) :
    Settles grid.Closed Within (grid.known · ref) (grid.value levels ref) := by
  induction levels using Nat.strong_induction_on generalizing ref with
  | _ levels ih =>
    intro cache hclosed
    by_cases hformula : grid.HoldsFormula ref
    · obtain ⟨cell, hcell, hcontent⟩ := id hformula
      rw [value_of_formula hcell hcontent]
      cases hstored : cache[ref]? with
      | some x =>
        refine ⟨hclosed, refl_of Within cache, ?_⟩
        rintro y ⟨⟩ t ht
        exact known_of_stored hformula (ht ref x hstored)
      | none =>
        -- At the last level nothing is found; below it the formula is evaluated over reads that
        -- settle.
        cases levels with
        | zero => exact ⟨hclosed, refl_of Within cache, nofun⟩
        | succ below =>
          exact settled_storing hcell hformula
            (settles_evaluate (ih below (Nat.lt_succ_self below)) grid.hasValue cell.nodes cache
              hclosed)
    · obtain ⟨x, -, hvalue⟩ := value_of_not_formula hformula
      rw [hvalue]
      refine ⟨hclosed, refl_of Within cache, ?_⟩
      rintro y ⟨⟩ t -
      rw [known, hvalue]

/-! ## Reading over two stores -/

/-- Formulas are nested beyond the levels. -/
def IsLimit (e : FormulaError) : Prop := e = .recursionLimit Document.maxLevels

/-- The first store is within the second, and the second is closed. -/
structure WithinClosed (grid : Grid) (cache cache' : ValueCache) : Prop where
  within : Within cache cache'
  closed : grid.Closed cache'

/-- A value that the larger store holds may go into the smaller one. -/
theorem together_storing_left {ended : Except FormulaError Float × ValueCache}
    (href : cache'[ref]? = some x)
    (h : Together (fun cache (_ : Unit) => Within cache cache') IsLimit IsLimit ended (.ok x, ())) :
    Together (fun cache (_ : Unit) => Within cache cache') IsLimit IsLimit (storing ref ended)
      (.ok x, ()) := by
  cases h with
  | left he => exact .left he
  | same hwithin => exact .same (hwithin.insert_left href)

theorem together_storing {ended ended' : Except FormulaError Float × ValueCache}
    (hclosed : grid.Closed (storing ref ended').2)
    (h : Together grid.WithinClosed IsLimit (fun _ => False) ended ended') :
    Together grid.WithinClosed IsLimit (fun _ => False) (storing ref ended)
      (storing ref ended') := by
  cases h with
  | left he => exact .left he
  | right he => exact he.elim
  | @same result _ _ hcaches =>
    cases result with
    | error e => exact .same hcaches
    | ok x => exact .same ⟨hcaches.within.insert ref x, hclosed⟩

/-- Over a store within a closed one, a cell is read with the value that the closed store knows, and
no value beyond the closed store is stored. -/
theorem inStep_known {cache' : ValueCache} (hclosed : grid.Closed cache') (levels : Nat)
    (ref : CellRef) :
    InStep (fun cache _ => Within cache cache') IsLimit IsLimit (grid.value levels ref)
      ((CellSource.ofValues (grid.known cache') grid.hasValue).value ref) := by
  induction levels using Nat.strong_induction_on generalizing ref with
  | _ levels ih =>
    intro cache _ hwithin
    show Together _ _ _ _ (grid.known cache' ref, ())
    by_cases hformula : grid.HoldsFormula ref
    · rw [known_of_formula hformula]
      obtain ⟨cell, hcell, hcontent⟩ := hformula
      rw [value_of_formula hcell hcontent]
      -- A cell that the closed store does not know, it finds to be nested too deeply.
      cases hknown : cache'[ref]? with
      | none => exact .right rfl
      | some y =>
        cases hstored : cache[ref]? with
        | some x =>
          obtain rfl : x = y := Option.some.inj ((hwithin ref x hstored).symm.trans hknown)
          exact .same hwithin
        | none =>
          -- Not stored here: at the last level the read fails for the limit, otherwise it evaluates
          -- the formula as the closed store did.
          cases levels with
          | zero => exact .left rfl
          | succ below =>
            have heval := inStep_evaluate (ih below (Nat.lt_succ_self below)) grid.hasValue
              cell.nodes cache () hwithin
            rw [evaluate_ofValues, hclosed ref y cell hknown hcell] at heval
            exact together_storing_left hknown heval
    · obtain ⟨x, -, hvalue⟩ := value_of_not_formula hformula
      rw [known, hvalue, hvalue]
      exact .same hwithin

/-- A cell whose value the larger store holds is read with that value over the smaller one. -/
theorem WithinClosed.together_value (h : grid.WithinClosed cache cache')
    (hformula : grid.HoldsFormula ref) (href : cache'[ref]? = some x) (levels : Nat) :
    Together grid.WithinClosed IsLimit (fun _ => False) (grid.value levels ref cache)
      (.ok x, cache') := by
  have hread := inStep_known h.closed levels ref cache () h.within
  have hknown : (CellSource.ofValues (grid.known cache') grid.hasValue).value ref () =
      (.ok x, ()) := congrArg (·, ()) (known_of_stored hformula href)
  rw [hknown] at hread
  generalize grid.value levels ref cache = ended at hread
  cases hread with
  | left he => exact .left he
  | same hwithin => exact .same ⟨hwithin, h.closed⟩

/-- Reading a cell over a store and over a closed one that holds more gives the same result, unless
it fails for the limit over the smaller one. -/
theorem inStep_value (levels : Nat) (ref : CellRef) :
    InStep grid.WithinClosed IsLimit (fun _ => False) (grid.value levels ref)
      (grid.value levels ref) := by
  induction levels using Nat.strong_induction_on generalizing ref with
  | _ levels ih =>
    intro cache cache' hcaches
    by_cases hformula : grid.HoldsFormula ref
    · have hclosed := (settles_value levels ref cache' hcaches.closed).keeps
      obtain ⟨cell, hcell, hcontent⟩ := id hformula
      rw [value_of_formula hcell hcontent levels cache'] at hclosed ⊢
      cases hknown : cache'[ref]? with
      | some y => exact hcaches.together_value hformula hknown levels
      | none =>
        have hstored : cache[ref]? = none := by
          cases hstored : cache[ref]? with
          | none => rfl
          | some x => rw [← hknown, hcaches.within ref x hstored]
        rw [value_of_formula hcell hcontent levels cache, hstored]
        rw [hknown] at hclosed
        cases levels with
        | zero => exact .left rfl
        | succ below =>
          exact together_storing hclosed
            (inStep_evaluate (ih below (Nat.lt_succ_self below)) grid.hasValue cell.nodes cache
              cache' hcaches)
    · obtain ⟨x, -, hvalue⟩ := value_of_not_formula hformula
      rw [hvalue, hvalue]
      exact .same hcaches

/-! ## Changes -/

/-- After a change, the store of the values that were not dropped is closed. -/
theorem Closed.put {cell : Option Cell} {changed : CellRef} {dependents : Dependents}
    (h : grid.Closed cache) (h' : (grid.put changed cell).Sound)
    (hmirrors : dependents.Mirrors (grid.put changed cell)) :
    (grid.put changed cell).Closed (dependents.dropStale cache [changed]) := by
  obtain ⟨dropped, hdrops, hchanged, husers⟩ := dependents.exists_dropped cache [changed]
  have hkept : ∀ ref ∉ dropped, (grid.put changed cell)[ref]? = grid[ref]? := by
    intro ref href
    rw [getElem?_put, if_neg]
    rintro rfl
    exact href (hchanged ref List.mem_cons_self)
  intro ref x stored href hstored
  have hmem : ref ∉ dropped := by
    intro hmem
    rw [hdrops.eq_none ref hmem] at href
    cases href
  -- Nothing that a kept formula reads was dropped, or the formula would have been dropped with it.
  have hread : ∀ read ∈ Formula.precedents stored.nodes, read ∉ dropped :=
    fun read hread hdropped => hmem (husers read hdropped ref
      ((hmirrors.mem_usersOf read ref).2 (h'.readBy_of_mem_precedents hstored hread)))
  rw [hdrops.eq_of_notMem ref hmem] at href
  rw [hkept ref hmem] at hstored
  rw [← h ref x stored href hstored]
  refine evaluateWith_congr (fun read hmem => ?_) fun read hmem => ?_
  · exact known_congr (hkept read (hread read hmem)) (hdrops.eq_of_notMem read (hread read hmem))
  · rw [hasValue_eq, hasValue_eq, hkept read (hread read hmem)]

end Grid

end SheetScript
