import SheetScript.Proofs.Script.WordList
import SheetScript.Script.Procedure

/-!
# Arguments bound to parameters

A call of a scripted procedure binds its parameters to the arguments. `bind_eq` says what comes out:
as many arguments as there are parameters are taken, or, if the last parameter collects the further
ones, any number from the others on; the parameters take one argument each, and what is left over
goes into the list.

Nothing is lost on the way (`bind_distributes`): the values of the parameters, with the list split
into its elements again, are the arguments, whatever their characters.
-/

namespace SheetScript.Script.ScriptedProcedure

/-- A call with so many arguments is accepted: there is one for every parameter, or the last
parameter collects the further ones and there is one for every other parameter. -/
def Takes (p : ScriptedProcedure) (count : Nat) : Prop :=
  count = p.params.length ∨ (p.params.getLast? = some restName ∧ p.params.length - 1 ≤ count)

instance (p : ScriptedProcedure) (count : Nat) : Decidable (p.Takes count) :=
  inferInstanceAs (Decidable (_ ∨ _))

/-- The bindings hand over the arguments, all of them and in order. A parameter that collects the
further arguments has a list of them as its value. -/
structure Distributes (p : ScriptedProcedure) (args : List String)
    (bindings : List (String × String)) : Prop where
  names : bindings.map Prod.fst = p.params
  fixed : p.isVariadic = false → bindings.map Prod.snd = args
  variadic : p.isVariadic = true → ∃ front list rest,
    bindings.map Prod.snd = front ++ [list] ∧ WordList.parse list = .ok rest ∧ front ++ rest = args

variable {p : ScriptedProcedure} {args : List String}

/-! ## What is bound -/

/-- The binding of the parameter that collects the further arguments, if there is one. -/
def collected (p : ScriptedProcedure) (rest : List String) : List (String × String) :=
  if p.isVariadic then [(restName, WordList.format rest)] else []

theorem isVariadic_iff : p.isVariadic = true ↔ p.params.getLast? = some restName := by
  rw [isVariadic, beq_iff_eq]

theorem params_of_isVariadic (h : p.isVariadic = true) :
    p.params = p.fixedParams ++ [restName] := by
  rw [fixedParams, if_pos h]
  exact (List.dropLast_append_getLast? restName (isVariadic_iff.1 h)).symm

theorem fixedParams_of_not_isVariadic (h : p.isVariadic = false) : p.fixedParams = p.params := by
  rw [fixedParams, h]
  rfl

theorem takes_iff (count : Nat) :
    p.Takes count ↔
      if p.isVariadic then p.fixedParams.length ≤ count else count = p.fixedParams.length := by
  cases h : p.isVariadic with
  | false =>
    have hlast : p.params.getLast? ≠ some restName := by simp [← isVariadic_iff, h]
    simp [Takes, hlast, fixedParams_of_not_isVariadic h]
  | true =>
    have hlast := isVariadic_iff.1 h
    have hlength := congrArg List.length (params_of_isVariadic h)
    rw [List.length_append, List.length_singleton] at hlength
    simp only [Takes, hlast, if_true, true_and]
    omega

/-- The fixed parameters take the first arguments, and the further ones are collected. -/
theorem bind_eq (p : ScriptedProcedure) (name : String) (args : List String) :
    p.bind name args =
      if p.Takes args.length then
        .ok (p.fixedParams.zip args ++ p.collected (args.drop p.fixedParams.length))
      else .error (.wrongArguments (p.usage name)) := by
  have htakes := @takes_iff p args.length
  unfold bind collected
  cases h : p.isVariadic with
  | false =>
    simp only [h, Bool.false_eq_true, if_false] at htakes
    simp [htakes]
  | true =>
    simp only [h, if_true] at htakes
    simp only [if_true, ← Nat.not_le, ← htakes, ite_not]

/-! ## Nothing is lost -/

theorem distributes_zip_append {front rest : List String}
    (hfront : p.fixedParams.length = front.length) (hrest : p.isVariadic = false → rest = []) :
    p.Distributes (front ++ rest) (p.fixedParams.zip front ++ p.collected rest) where
  names := by
    rw [List.map_append, List.map_fst_zip (Nat.le_of_eq hfront)]
    cases h : p.isVariadic with
    | false => simp [collected, h, fixedParams_of_not_isVariadic h]
    | true => simp [collected, h, ← params_of_isVariadic h]
  fixed h := by
    rw [hrest h, List.map_append, List.map_snd_zip (Nat.le_of_eq hfront.symm)]
    simp [collected, h]
  variadic h := by
    have hlist : WordList.parse (WordList.format rest) = .ok rest := by
      have hscan := WordList.scan_format false rest
      rw [WordList.parse_of_isFixed (hscan ▸ WordList.isFixed_rowTokens rest), hscan,
        WordList.toList_foldl_push rfl]
      rfl
    refine ⟨front, WordList.format rest, rest, ?_, hlist, rfl⟩
    rw [List.map_append, List.map_snd_zip (Nat.le_of_eq hfront.symm)]
    simp [collected, h]

theorem distributes_of_takes (h : p.Takes args.length) :
    p.Distributes args
      (p.fixedParams.zip args ++ p.collected (args.drop p.fixedParams.length)) := by
  rw [takes_iff] at h
  have hlength : p.fixedParams.length ≤ args.length := by
    split at h <;> omega
  have hrest : p.isVariadic = false → args.drop p.fixedParams.length = [] := by
    intro hfixed
    rw [hfixed, if_neg Bool.false_ne_true] at h
    exact List.drop_eq_nil_of_le (Nat.le_of_eq h)
  have hfront : p.fixedParams.length = (args.take p.fixedParams.length).length := by
    rw [List.length_take, Nat.min_eq_left hlength]
  have hzip : p.fixedParams.zip args = p.fixedParams.zip (args.take p.fixedParams.length) := by
    rw [List.zip_eq_zip_take_min, Nat.min_eq_left hlength, List.take_length]
  have hdistributes := distributes_zip_append hfront hrest
  rwa [List.take_append_drop, ← hzip] at hdistributes

/-- **Arguments are bound without loss.** A scripted procedure accepts as many arguments as it has
parameters, or, if the last parameter collects the further arguments, as many as there are other
parameters and more; and no other numbers of arguments. The values that it binds to its parameters
in order, followed by the elements of the list that collects the rest, are exactly the arguments. -/
theorem bind_distributes (p : ScriptedProcedure) (name : String) (args : List String) :
    ((∃ bindings, p.bind name args = .ok bindings) ↔ p.Takes args.length) ∧
      ∀ bindings, p.bind name args = .ok bindings → p.Distributes args bindings := by
  rw [bind_eq]
  by_cases h : p.Takes args.length
  · simp only [if_pos h]
    refine ⟨⟨fun _ => h, fun _ => ⟨_, rfl⟩⟩, ?_⟩
    rintro _ ⟨⟩
    exact distributes_of_takes h
  · simp [h]

/-- A procedure with a parameter called `args` before the one that collects the rest. -/
def collecting : ScriptedProcedure := ⟨["x", "args", "args"], "list $x $args"⟩

/-- Arguments that a list cannot hold as they stand. -/
def riskyArguments : List String := ["", "$x; y", "#z", "\x7b [w]", "\\\n\""]

/-- The procedure accepts them, and the last three go into the list. -/
theorem bind_distributes_collecting :
    ∃ bindings, collecting.bind "f" riskyArguments = .ok bindings ∧
      collecting.Distributes riskyArguments bindings := by
  obtain ⟨haccepts, hdistributes⟩ := bind_distributes collecting "f" riskyArguments
  obtain ⟨bindings, hbind⟩ := haccepts.2 (by decide)
  exact ⟨bindings, hbind, hdistributes bindings hbind⟩

end SheetScript.Script.ScriptedProcedure
