import Mathlib.Data.List.Infix
import Mathlib.Tactic.Choose
import SheetScript.Formula.Render
import SheetScript.Formula.Value

/-!
# Evaluation as an inquiry

An *inquiry* asks for the values of cells and whether they hold anything, one question after the
other. What it asks next may depend on the answers so far, but not on where they come from.
Evaluating a formula is an inquiry, the same one over every source, and it asks about no cell
outside the precedents of the formula (`exists_inquiry`). So what holds of evaluations over
different sources is proved by induction over an inquiry, without the stack.

The precedents are read off the sequence of nodes, while evaluation finds its ranges on a stack.
`Pushed` ties the two: cells that lie next to each other at the top of the stack were next to each
other in the sequence, because every operation leaves a constant behind.
-/

namespace SheetScript

/-- An error that evaluation raises by itself. -/
def FormulaError.IsEvaluation : FormulaError → Prop
  | .value _ | .reversedRange _ _ | .stackDepth _ => True
  | _ => False

namespace Formula

variable {σ α β γ : Type}

/-- What comes next is not run after an error. -/
theorem Lookup.bind_apply (run : Lookup σ α) (next : α → Lookup σ β) (s : σ) :
    (run >>= next) s =
      match run s with
      | (.ok x, s') => next x s'
      | (.error e, s') => (.error e, s') := by
  show (match run s with | (a, s') => ExceptT.bindCont next a s') = _
  rcases run s with ⟨_ | _, _⟩ <;> rfl

/-! ## Inquiries -/

/-- A computation that asks about cells until it has a result. -/
inductive Inquiry (α : Type) where
  | answer (result : Except FormulaError α)
  /-- Asks for the value of a cell. -/
  | ask (ref : CellRef) (next : Float → Inquiry α)
  /-- Asks whether a cell holds anything. -/
  | look (ref : CellRef) (next : Bool → Inquiry α)

namespace Inquiry

instance : Inhabited (Inquiry α) := ⟨.answer (.error (.stackDepth 0))⟩

/-- Makes the inquiry, with the answers that the source gives. -/
def run (source : CellSource σ) : Inquiry α → Lookup σ α
  | answer result => fun s => (result, s)
  | ask ref next => do (next (← source.value ref)).run source
  | look ref next => (next (source.hasValue ref)).run source

/-- One inquiry, and then the next with its result. -/
def andThen (next : α → Inquiry β) : Inquiry α → Inquiry β
  | answer (.ok x) => next x
  | answer (.error e) => answer (.error e)
  | ask ref rest => ask ref fun x => (rest x).andThen next
  | look ref rest => look ref fun b => (rest b).andThen next

/-- The inquiry asks about the given cells only, `post` holds of the values that it may find, and it
raises errors of evaluation only. -/
inductive Confined (cells : List CellRef) (post : α → Prop) : Inquiry α → Prop
  | ok {x : α} (h : post x) : Confined cells post (.answer (.ok x))
  | error {e : FormulaError} (h : e.IsEvaluation) : Confined cells post (.answer (.error e))
  | ask {ref : CellRef} {next : Float → Inquiry α} (href : ref ∈ cells)
      (h : ∀ x, Confined cells post (next x)) : Confined cells post (.ask ref next)
  | look {ref : CellRef} {next : Bool → Inquiry α} (href : ref ∈ cells)
      (h : ∀ b, Confined cells post (next b)) : Confined cells post (.look ref next)

variable {cells : List CellRef} {post : α → Prop} {post' : β → Prop} {inquiry : Inquiry α}
  {rest : α → Inquiry β}

theorem Confined.andThen (h : inquiry.Confined cells post)
    (hrest : ∀ x, post x → (rest x).Confined cells post') :
    (inquiry.andThen rest).Confined cells post' := by
  induction h with
  | ok hx => exact hrest _ hx
  | error he => exact .error he
  | ask href _ ih => exact .ask href ih
  | look href _ ih => exact .look href ih

theorem Confined.run_andThen (h : inquiry.Confined cells post) {source : CellSource σ}
    {next : α → Lookup σ β} (hrest : ∀ x, post x → (rest x).run source = next x) :
    (inquiry.andThen rest).run source = inquiry.run source >>= next := by
  induction h with
  | ok hx => exact hrest _ hx
  | error => rfl
  | @ask ref after _ _ ih =>
    funext s
    simp only [Inquiry.andThen, run, ih, Lookup.bind_apply]
    rcases source.value ref s with ⟨_ | _, _⟩ <;> rfl
  | look _ _ ih => exact ih _

end Inquiry

/-- Over every source the computation is the same inquiry, about the given cells. -/
def Inquires (cells : List CellRef) (post : α → Prop)
    (body : (σ : Type) → CellSource σ → Lookup σ α) : Prop :=
  ∃ inquiry : Inquiry α, inquiry.Confined cells post ∧
    ∀ (σ : Type) (source : CellSource σ), body σ source = inquiry.run source

section Closure

variable {cells : List CellRef} {post : α → Prop} {post' : β → Prop}

theorem inquires_pure {x : α} (h : post x) : Inquires cells post fun _ _ => pure x :=
  ⟨.answer (.ok x), .ok h, fun _ _ => rfl⟩

theorem inquires_throw {e : FormulaError} (h : e.IsEvaluation) :
    Inquires cells post fun _ _ => throw e :=
  ⟨.answer (.error e), .error h, fun _ _ => rfl⟩

theorem Inquires.bind {body : (σ : Type) → CellSource σ → Lookup σ α}
    {next : α → (σ : Type) → CellSource σ → Lookup σ β} (h : Inquires cells post body)
    (hnext : ∀ x, post x → Inquires cells post' (next x)) :
    Inquires cells post' fun σ source => body σ source >>= fun x => next x σ source := by
  obtain ⟨inquiry, hconfined, hrun⟩ := h
  choose! rest hrest using hnext
  refine ⟨inquiry.andThen rest, hconfined.andThen fun x hx => (hrest x hx).1, fun σ source => ?_⟩
  dsimp only
  rw [hrun, hconfined.run_andThen fun x hx => ((hrest x hx).2 σ source).symm]

theorem inquires_foldlM {step : (σ : Type) → CellSource σ → β → γ → Lookup σ β} {xs : List γ}
    (h : ∀ acc, post' acc → ∀ x ∈ xs, Inquires cells post' fun σ source => step σ source acc x)
    {acc : β} (hacc : post' acc) :
    Inquires cells post' fun σ source => xs.foldlM (step σ source) acc := by
  induction xs generalizing acc with
  | nil => exact inquires_pure hacc
  | cons x xs ih =>
    simp only [List.foldlM_cons]
    refine (h acc hacc x List.mem_cons_self).bind fun acc' hacc' => ih ?_ hacc'
    exact fun acc hacc y hy => h acc hacc y (List.mem_cons_of_mem x hy)

end Closure

/-! ## One step -/

/-- What may be read from a stack lies in `cells`: its cells, and its ranges as a whole. -/
structure Readable (cells : List CellRef) (stack : List Node) : Prop where
  cell : ∀ ref, .cell ref ∈ stack → ref ∈ cells
  range : ∀ first last, [.operator .range, .cell last, .cell first] <:+: stack →
    ∀ ref ∈ rangePrecedents first last, ref ∈ cells

theorem Readable.suffix {cells : List CellRef} {stack rest : List Node}
    (h : Readable cells stack) (hrest : rest <:+ stack) : Readable cells rest :=
  ⟨fun ref href => h.cell ref (hrest.mem href),
    fun first last hrange => h.range first last (hrange.trans hrest.isInfix)⟩

variable {cells : List CellRef} {stack : List Node}

theorem inquires_value {ref : CellRef} (href : ref ∈ cells) :
    Inquires cells (fun _ => True) fun _ source => source.value ref := by
  refine ⟨.ask ref fun x => .answer (.ok x), .ask href fun _ => .ok trivial, fun σ source => ?_⟩
  funext s
  show source.value ref s = _
  rw [Inquiry.run, Lookup.bind_apply]
  rcases source.value ref s with ⟨_ | _, _⟩ <;> rfl

theorem inquires_scalar {node : Node} (hnode : ∀ ref, node = .cell ref → ref ∈ cells) :
    Inquires cells (fun _ => True) fun _ source => scalar source node := by
  cases node with
  | constant value => exact inquires_pure trivial
  | cell ref => exact inquires_value (hnode ref rfl)
  | operator op => cases op <;> exact inquires_throw trivial
  | function f => exact inquires_throw trivial

theorem inquires_pop : Inquires cells (fun r => r.1 :: r.2 = stack) fun _ _ => pop stack := by
  cases stack with
  | nil => exact inquires_throw trivial
  | cons node rest => exact inquires_pure rfl

theorem inquires_popScalar (hstack : Readable cells stack) :
    Inquires cells (fun r => r.2 <:+ stack) fun _ source => popScalar source stack := by
  refine inquires_pop.bind fun ⟨node, rest⟩ hpop => ?_
  subst hpop
  refine (inquires_scalar fun ref href => hstack.cell ref (href ▸ List.mem_cons_self)).bind
    fun _ _ => ?_
  exact inquires_pure (List.suffix_cons node rest)

theorem inquires_popPair (hstack : Readable cells stack) :
    Inquires cells (fun r => r.2 <:+ stack) fun _ source => popPair source stack := by
  refine (inquires_popScalar hstack).bind fun r hr => ?_
  refine (inquires_popScalar (hstack.suffix hr)).bind fun r' hr' => ?_
  exact inquires_pure (hr'.trans hr)

theorem inquires_popCorner :
    Inquires cells (fun r => .cell r.1 :: r.2 = stack) fun _ _ => popCorner stack := by
  refine inquires_pop.bind fun ⟨node, rest⟩ hpop => ?_
  cases node with
  | cell ref => exact inquires_pure hpop
  | _ => exact inquires_throw trivial

theorem ValueFault.isEvaluation_toError (overflow : Overflow) (fault : ValueFault) :
    (fault.toError overflow).IsEvaluation := by
  unfold toError
  split <;> trivial

theorem isEvaluation_of_checkRange {overflow : Overflow} {first last : CellRef}
    {e : FormulaError} (h : checkRange overflow first last = .error e) : e.IsEvaluation := by
  unfold checkRange at h
  split_ifs at h
  · cases h
    trivial
  · split at h
    · cases h
      trivial
    · split_ifs at h
      cases h
      exact ValueFault.isEvaluation_toError overflow _

theorem inquires_popRange (overflow : Overflow) :
    Inquires cells (fun r => [.operator .range, .cell r.1.2, .cell r.1.1] ++ r.2 = stack ∧
      checkRange overflow r.1.1 r.1.2 = .ok ()) fun _ _ => popRange overflow stack := by
  refine inquires_pop.bind fun ⟨node, rest⟩ hpop => ?_
  match node, hpop with
  | .operator .range, hpop =>
    refine inquires_popCorner.bind fun ⟨last, rest₁⟩ hlast => ?_
    refine inquires_popCorner.bind fun ⟨first, rest₂⟩ hfirst => ?_
    dsimp only at hpop hlast hfirst ⊢
    cases hcheck : checkRange overflow first last with
    | ok => exact inquires_pure ⟨by rw [← hpop, ← hlast, ← hfirst]; rfl, hcheck⟩
    | error e => exact inquires_throw (isEvaluation_of_checkRange hcheck)
  | .operator .add, _ | .operator .subtract, _ | .operator .multiply, _ | .operator .divide, _
  | .constant _, _ | .cell _, _ | .function _, _ =>
    exact inquires_throw (ValueFault.isEvaluation_toError overflow _)

/-- A range that may be visited has its corners in order, and a count within the limit. -/
theorem checkRange_eq_ok {overflow : Overflow} {first last : CellRef} :
    checkRange overflow first last = .ok () ↔
      first.col ≤ last.col ∧ first.row ≤ last.row ∧
        ∃ count, CellRef.cellCount overflow first last = some count ∧ count ≤ maxRangeCells := by
  unfold checkRange
  by_cases horder : last.col < first.col ∨ last.row < first.row
  · rw [if_pos horder]
    constructor
    · rintro ⟨⟩
    · omega
  · rw [if_neg horder]
    push Not at horder
    cases hcount : CellRef.cellCount overflow first last with
    | none => simp
    | some count => by_cases hsize : count ≤ maxRangeCells <;> simp [hsize, horder]

/-- A range that may be visited is listed with all its cells. -/
theorem rangePrecedents_of_checkRange {overflow : Overflow} {first last : CellRef}
    (h : checkRange overflow first last = .ok ()) :
    rangePrecedents first last = CellRef.rectangle first last := by
  obtain ⟨hcol, hrow, count, hcount, hsize⟩ := checkRange_eq_ok.1 h
  have hlower : CellRef.lowerCorner first last = first := by
    simp [CellRef.lowerCorner, hcol, hrow]
  have hupper : CellRef.upperCorner first last = last := by
    simp [CellRef.upperCorner, hcol, hrow]
  simp only [rangePrecedents, hlower, hupper, CellRef.cellCount_wraps hcount]
  exact if_pos (decide_eq_true hsize)

theorem inquires_addCell {ref : CellRef} (href : ref ∈ cells) (totals : Float × Nat) :
    Inquires cells (fun _ => True) fun _ source => addCell source totals ref := by
  obtain ⟨inquiry, hconfined, hrun⟩ := (inquires_value href).bind fun x _ =>
    @inquires_pure _ cells (fun _ => True) (totals.1 + x, totals.2 + 1) trivial
  refine ⟨.look ref fun b => if b then inquiry else .answer (.ok totals), .look href ?_, ?_⟩
  · rintro (_ | _)
    · exact .ok trivial
    · exact hconfined
  · intro σ source
    simp only [addCell, Inquiry.run]
    cases source.hasValue ref with
    | false => rfl
    | true => exact hrun σ source

theorem inquires_totals {first last : CellRef}
    (hcells : ∀ ref ∈ CellRef.rectangle first last, ref ∈ cells) :
    Inquires cells (fun _ => True) fun _ source => totals source first last :=
  inquires_foldlM (fun totals _ ref href => inquires_addCell (hcells ref href) totals) trivial

/-- The stack after a node: the node on top of it, or a constant on top of what is left of it. -/
def StepResult (node : Node) (stack result : List Node) : Prop :=
  result = node :: stack ∨ ∃ value rest, result = .constant value :: rest ∧ rest <:+ stack

theorem inquires_evaluateStep (overflow : Overflow) (hstack : Readable cells stack) (node : Node) :
    Inquires cells (StepResult node stack) fun _ source =>
      evaluateStep overflow source stack node := by
  match node with
  | .constant _ | .cell _ | .operator .range => exact inquires_pure (Or.inl rfl)
  | .operator .add | .operator .subtract | .operator .multiply | .operator .divide
  | .function (.extremum _) =>
    exact (inquires_popPair hstack).bind fun r hr => inquires_pure (Or.inr ⟨_, _, rfl, hr⟩)
  | .function (.aggregate kind) =>
    refine (inquires_popRange overflow).bind fun ⟨⟨first, last⟩, rest⟩ ⟨hpop, hcheck⟩ => ?_
    have hcells : ∀ ref ∈ CellRef.rectangle first last, ref ∈ cells := by
      rw [← rangePrecedents_of_checkRange hcheck]
      exact hstack.range first last ⟨[], rest, hpop⟩
    refine (inquires_totals hcells).bind fun _ _ => inquires_pure (Or.inr ⟨_, _, rfl, ?_⟩)
    exact ⟨_, hpop⟩

/-! ## The stack and the sequence -/

/-- A stack made by the nodes that are `done`. Its cells stand there, and cells that follow each
other at its top, or below a range operator, follow each other there. -/
structure Pushed (done stack : List Node) : Prop where
  cell : ∀ ref, .cell ref ∈ stack → .cell ref ∈ done
  top : ∀ ref rest, stack = .cell ref :: rest → [.cell ref] <:+ done
  pair : ∀ first last rest, stack = .cell last :: .cell first :: rest →
    [.cell first, .cell last] <:+ done
  range : ∀ first last, [.operator .range, .cell last, .cell first] <:+: stack →
    [.cell first, .cell last, .operator .range] <:+: done

theorem pushed_nil : Pushed [] [] where
  cell _ h := absurd h List.not_mem_nil
  top _ _ h := nomatch h
  pair _ _ _ h := nomatch h
  range _ _ h := absurd (List.infix_nil.1 h) (List.cons_ne_nil _ _)

theorem suffix_concat {first last : Node} {done : List Node} (h : [first] <:+ done) :
    [first, last] <:+ done ++ [last] := by
  obtain ⟨front, rfl⟩ := h
  exact ⟨front, by simp⟩

theorem Pushed.node {done : List Node} (h : Pushed done stack) (node : Node) :
    Pushed (done ++ [node]) (node :: stack) where
  cell ref href := by
    rcases List.mem_cons.1 href with rfl | href
    · simp
    · exact List.mem_append_left _ (h.cell ref href)
  top ref rest heq := by
    obtain ⟨rfl, -⟩ := List.cons.inj heq
    exact List.suffix_append done _
  pair first last rest heq := by
    obtain ⟨rfl, rfl⟩ := List.cons.inj heq
    exact suffix_concat (h.top first rest rfl)
  range first last hrange := by
    rcases List.infix_cons_iff.1 hrange with hhead | hinner
    · obtain ⟨rfl, rest, rfl⟩ := List.cons_prefix_cons.1 hhead
      obtain ⟨front, rfl⟩ := h.pair first last rest rfl
      exact ⟨front, [], by simp⟩
    · exact (h.range first last hinner).trans (List.prefix_append done _).isInfix

theorem Pushed.constant {done rest : List Node} (h : Pushed done stack) (hrest : rest <:+ stack)
    (node : Node) (value : Float) : Pushed (done ++ [node]) (.constant value :: rest) where
  cell ref href := by
    have href : .cell ref ∈ rest := by simpa using href
    exact List.mem_append_left _ (h.cell ref (hrest.mem href))
  top _ _ heq := nomatch heq
  pair _ _ _ heq := nomatch heq
  range first last hrange := by
    rcases List.infix_cons_iff.1 hrange with hhead | hinner
    · cases (List.cons_prefix_cons.1 hhead).1
    · exact (h.range first last (hinner.trans hrest.isInfix)).trans
        (List.prefix_append done _).isInfix

theorem Pushed.step {done result : List Node} {node : Node} (h : Pushed done stack)
    (hres : StepResult node stack result) : Pushed (done ++ [node]) result := by
  rcases hres with rfl | ⟨value, rest, rfl, hrest⟩
  · exact h.node node
  · exact h.constant hrest node value

/-! ## The precedents -/

theorem corner_mem_rangePrecedents (a b : CellRef) :
    a ∈ rangePrecedents a b ∧ b ∈ rangePrecedents a b := by
  simp only [rangePrecedents]
  split_ifs
  · simp only [CellRef.mem_rectangle, CellRef.lowerCorner, CellRef.upperCorner]
    omega
  · simp

theorem mem_precedents_of_cell {nodes : List Node} {ref : CellRef} (h : .cell ref ∈ nodes) :
    ref ∈ precedents nodes := by
  fun_induction precedents nodes with
  | case1 a b rest ih =>
    rw [List.mem_append]
    rcases List.mem_cons.1 h with heq | h
    · cases heq
      exact Or.inl (corner_mem_rangePrecedents _ _).1
    rcases List.mem_cons.1 h with heq | h
    · cases heq
      exact Or.inl (corner_mem_rangePrecedents _ _).2
    · exact Or.inr (ih (by simpa using h))
  | case2 a rest _ ih =>
    rcases List.mem_cons.1 h with heq | h
    · cases heq
      exact List.mem_cons_self
    · exact List.mem_cons_of_mem _ (ih h)
  | case3 node rest _ hne ih =>
    rcases List.mem_cons.1 h with rfl | h
    · exact absurd rfl (hne ref)
    · exact ih h
  | case4 => cases h

theorem mem_precedents_of_range {nodes : List Node} {first last ref : CellRef}
    (h : [.cell first, .cell last, .operator .range] <:+: nodes)
    (href : ref ∈ rangePrecedents first last) : ref ∈ precedents nodes := by
  fun_induction precedents nodes with
  | case1 a b rest ih =>
    rw [List.mem_append]
    -- The range is this one or a later one; it cannot begin inside this one.
    rcases List.infix_cons_iff.1 h with hhead | h
    · obtain ⟨rfl, rfl⟩ : first = a ∧ last = b := by simpa using hhead
      exact Or.inl href
    rcases List.infix_cons_iff.1 h with hhead | h
    · simp at hhead
    rcases List.infix_cons_iff.1 h with hhead | h
    · simp at hhead
    · exact Or.inr (ih h)
  | case2 a rest hne ih =>
    rcases List.infix_cons_iff.1 h with hhead | h
    · obtain ⟨-, more, rfl⟩ := List.cons_prefix_cons.1 hhead
      exact absurd rfl (hne last more)
    · exact List.mem_cons_of_mem _ (ih h)
  | case3 node rest _ hne ih =>
    rcases List.infix_cons_iff.1 h with hhead | h
    · exact absurd (List.cons_prefix_cons.1 hhead).1.symm (hne first)
    · exact ih h
  | case4 => exact absurd (List.infix_nil.1 h) (List.cons_ne_nil _ _)

theorem Pushed.readable {done nodes : List Node} (h : Pushed done stack)
    (hdone : done <+: nodes) : Readable (precedents nodes) stack where
  cell ref href := mem_precedents_of_cell (hdone.subset (h.cell ref href))
  range first last hrange _ href :=
    mem_precedents_of_range ((h.range first last hrange).trans hdone.isInfix) href

/-! ## Whole runs -/

theorem inquires_run (overflow : Overflow) {nodes done rest : List Node}
    (hnodes : done ++ rest = nodes) (hstack : Pushed done stack) :
    Inquires (precedents nodes) (Pushed nodes) fun _ source =>
      rest.foldlM (evaluateStep overflow source) stack := by
  induction rest generalizing done stack with
  | nil =>
    rw [List.append_nil] at hnodes
    exact inquires_pure (hnodes ▸ hstack)
  | cons node rest ih =>
    simp only [List.foldlM_cons]
    have hread := hstack.readable ⟨node :: rest, hnodes⟩
    refine (inquires_evaluateStep overflow hread node).bind fun result hres => ?_
    exact ih (by rw [← hnodes, List.append_assoc]; rfl) (hstack.step hres)

theorem inquires_evaluate (overflow : Overflow) (nodes : List Node) :
    Inquires (precedents nodes) (fun _ => True) fun _ source =>
      evaluate overflow source nodes := by
  refine (inquires_run overflow rfl pushed_nil).bind fun stack hstack => ?_
  match stack, hstack with
  | [node], hstack =>
    refine inquires_scalar fun ref href => ?_
    exact (hstack.readable List.prefix_rfl).cell ref (by simp [href])
  | [], _ | _ :: _ :: _, _ => exact inquires_throw trivial

/-- **Evaluation is an inquiry about its precedents.** -/
theorem exists_inquiry (overflow : Overflow) (nodes : List Node) :
    ∃ inquiry : Inquiry Float, inquiry.Confined (precedents nodes) (fun _ => True) ∧
      ∀ {σ : Type} (source : CellSource σ),
        evaluate overflow source nodes = inquiry.run source :=
  (inquires_evaluate overflow nodes).imp fun _ ⟨hconfined, hrun⟩ => ⟨hconfined, hrun _⟩

end Formula

end SheetScript
