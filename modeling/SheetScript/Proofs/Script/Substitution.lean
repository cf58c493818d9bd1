import SheetScript.Proofs.Script.Joined
import SheetScript.Proofs.Script.Matching

/-!
# Substitution in plain texts

A text is plain when it has no backslash and nothing in it opens a brace, a quote or a nested
command. Substitution scans a plain text as the words of a command, with separators, line ends and
number signs in it. But all that it changes are the names behind dollar signs, each of which gives
way to the value of the variable as it stands (`subst_of_plain`): `expand` says what comes out.

One step takes either a run of characters without a dollar sign, which stays as it is, or a dollar
sign with the name behind it, as far as that goes (`Takes`). So the text that comes out grows at its
end, piece by piece, and the pieces are those of `expand`.
-/

namespace SheetScript.Script

/-! ## What substitution makes of a text -/

/-- A text in which each dollar sign gives way, together with the name behind it, to the value of
that name; the first name without a value otherwise. A dollar sign without a name stays. -/
def expand (value? : String → Option String) : List Char → Except String (List Char)
  | [] => .ok []
  | c :: rest =>
    if c = '$' ∧ rest.takeWhile isNameChar ≠ [] then
      match value? (String.ofList (rest.takeWhile isNameChar)) with
      | some value => (expand value? (rest.dropWhile isNameChar)).map (value.toList ++ ·)
      | none => .error (String.ofList (rest.takeWhile isNameChar))
    else (expand value? rest).map (c :: ·)
termination_by cs => cs.length
decreasing_by
  · exact Nat.lt_succ_of_le (List.dropWhile_suffix _).length_le
  · exact Nat.lt_succ_self _

variable {value? : String → Option String} {c : Char} {cs run name rest : List Char}

@[simp] theorem expand_nil : expand value? [] = .ok [] := by
  rw [expand]

theorem expand_append (h : '$' ∉ run) (rest : List Char) :
    expand value? (run ++ rest) = (expand value? rest).map (run ++ ·) := by
  induction run with
  | nil =>
    rw [List.nil_append]
    cases expand value? rest <;> rfl
  | cons c run ih =>
    rw [List.mem_cons, not_or] at h
    rw [List.cons_append, expand, if_neg fun hc => h.1 hc.1.symm, ih h.2]
    cases expand value? rest <;> rfl

theorem expand_dollar (h : rest.takeWhile isNameChar = []) :
    expand value? ('$' :: rest) = (expand value? rest).map ('$' :: ·) := by
  rw [expand, if_neg fun hc => hc.2 h]

theorem expand_variable (hne : name ≠ []) (hname : ∀ c ∈ name, isNameChar c = true)
    (hrest : ∀ c, rest.head? = some c → isNameChar c = false) :
    expand value? ('$' :: (name ++ rest)) =
      match value? (String.ofList name) with
      | some value => (expand value? rest).map (value.toList ++ ·)
      | none => .error (String.ofList name) := by
  rw [expand, Text.takeWhile_append_of_stop hname hrest, Text.dropWhile_append_of_stop hname hrest,
    if_pos ⟨rfl, hne⟩]

/-! ## Steps in plain texts -/

/-- Nothing in the text is more than a character, a separator or a variable. -/
def Plain (cs : List Char) : Prop := ∀ c ∈ cs, c ∉ ['\\', '{', '"', '[']

theorem Plain.suffix (h : Plain cs) (hrest : rest <:+ cs) : Plain rest :=
  fun c hc => h c (hrest.subset hc)

theorem Plain.notMem (h : Plain cs) : '\\' ∉ cs := fun hc => h _ hc (by decide)

theorem takeSeparator_of_notMem (h : '\\' ∉ cs) (taken : List Char) :
    takeSeparator taken cs = (taken.reverse ++ cs.takeWhile isSpace, cs.dropWhile isSpace) := by
  fun_induction takeSeparator taken cs with
  | case1 => simp at h
  | case2 taken c cs hescape hspace ih =>
    rw [ih fun hc => h (List.mem_cons_of_mem c hc)]
    simp [hspace]
  | case3 taken c cs hescape hspace => simp [hspace]
  | case4 => simp

/-- A character at which a word without quotes ends. -/
def endsBare (c : Char) : Bool := isSpace c || c == '\n' || c == ';' || c == '[' || c == '$'

theorem takeBare_of_notMem (h : '\\' ∉ cs) (taken : List Char) :
    takeBare taken cs =
      (taken.reverse ++ cs.takeWhile (!endsBare ·), cs.dropWhile (!endsBare ·)) := by
  fun_induction takeBare taken cs with
  | case1 => simp at h
  | case2 => simp at h
  | case3 taken c cs hline hescape hstop =>
    have hstop : endsBare c = true := hstop
    simp [hstop]
  | case4 taken c cs hline hescape hstop ih =>
    have hstop : endsBare c = false := by simpa [endsBare] using hstop
    rw [ih fun hc => h (List.mem_cons_of_mem c hc)]
    simp [hstop]
  | case5 => simp

theorem unescape_of_notMem (h : '\\' ∉ cs) : unescape cs = cs := by
  have go : ∀ done, unescape.go cs done = done.reverse ++ cs := by
    induction cs with
    | nil => intro done; simp [unescape.go]
    | cons c cs ih =>
      intro done
      rw [List.mem_cons, not_or] at h
      rw [unescape.go, ih h.2]
      · simp
      · intro d ds hc
        exact absurd hc.symm h.1
  simpa [unescape] using go []

/-- The tokens that substitution puts down as they stand. -/
def verbatimTokens (text : String) : List Token :=
  [.endOfLine text, .separator text, .verbatim text, .literal text]

/-- What is taken off the start of a text, as far as substitution can tell: a token and the rest. -/
inductive Takes : List Char → Token → List Char → Prop
  | text {run rest : List Char} {token : Token} (hrun : '$' ∉ run)
      (htoken : token ∈ verbatimTokens (String.ofList run)) : Takes (run ++ rest) token rest
  | dollar {rest : List Char} (h : rest.takeWhile isNameChar = []) :
      Takes ('$' :: rest) (.verbatim "$") rest
  | name {name rest : List Char} (hne : name ≠ []) (hname : ∀ c ∈ name, isNameChar c = true)
      (hrest : ∀ c, rest.head? = some c → isNameChar c = false) :
      Takes ('$' :: (name ++ rest)) (.variable (String.ofList name)) rest

theorem Takes.suffix {token : Token} (h : Takes cs token rest) : rest <:+ cs := by
  cases h with
  | text => exact List.suffix_append _ _
  | dollar => exact List.suffix_cons _ _
  | name => exact (List.suffix_append _ _).trans (List.suffix_cons _ _)

theorem takes_takeWhile {p : Char → Bool} (hp : p '$' = false) {token : Token}
    (htoken : token ∈ verbatimTokens (String.ofList (cs.takeWhile p))) :
    Takes cs token (cs.dropWhile p) := by
  have hrun : '$' ∉ cs.takeWhile p := by
    intro hc
    rw [List.mem_takeWhile_imp hc] at hp
    cases hp
  have htakes := @Takes.text _ (cs.dropWhile p) _ hrun htoken
  rwa [List.takeWhile_append_dropWhile] at htakes

theorem takes_dollar (after : Place) (rest : List Char) :
    ∃ token rest', Step.dollar after rest = .emit token after rest' ∧
      Takes ('$' :: rest) token rest' := by
  by_cases h : rest.takeWhile isNameChar = []
  · exact ⟨.verbatim "$", rest, by simp [Step.dollar, h], .dollar h⟩
  · refine ⟨.variable (String.ofList (rest.takeWhile isNameChar)), rest.dropWhile isNameChar, ?_, ?_⟩
    · unfold Step.dollar
      split
      next heq => exact absurd heq h
      next => rfl
    · have htakes := @Takes.name _ (rest.dropWhile isNameChar) h
        (fun c hc => List.mem_takeWhile_imp hc) (fun c => Text.not_of_head?_dropWhile)
      rwa [List.takeWhile_append_dropWhile] at htakes

/-- A place outside quotes. -/
def Place.Unquoted (place : Place) : Prop := ∀ started, place ≠ .quoted started

/-- A step outside quotes takes off a token of a plain text and goes on outside quotes. -/
theorem exists_step_of_plain {place : Place} (hplace : place.Unquoted) (h : Plain (c :: rest)) :
    ∃ token after rest', step false place (c :: rest) = .emit token after rest' ∧
      after.Unquoted ∧ Takes (c :: rest) token rest' := by
  have hstep : step false place (c :: rest) = plainStep false place (c :: rest) := by
    cases place with
    | quoted started => exact absurd rfl (hplace started)
    | _ => rfl
  have hc : c ≠ '\\' ∧ c ≠ '{' ∧ c ≠ '"' ∧ c ≠ '[' := by
    simpa using h c List.mem_cons_self
  have hcontinuation : isContinuation c rest = false := by simp [isContinuation, hc.1]
  rw [hstep]
  -- Without the four marks only separators, line ends, variables and bare words are left.
  simp only [plainStep, hcontinuation, Bool.or_false, hc, false_and, if_false, Bool.false_eq_true,
    and_false]
  split
  next =>
    rw [Step.separator, takeSeparator_of_notMem h.notMem]
    refine ⟨_, _, _, rfl, ?_, takes_takeWhile (by decide) (by simp [verbatimTokens])⟩
    split <;> exact fun _ => Place.noConfusion
  split
  next =>
    exact ⟨_, _, _, rfl, fun _ => Place.noConfusion,
      takes_takeWhile (by decide) (by simp [verbatimTokens])⟩
  split
  next hdollar =>
    subst hdollar
    obtain ⟨token, rest', hemit, htakes⟩ := takes_dollar .inWord rest
    exact ⟨token, .inWord, rest', hemit, fun _ => Place.noConfusion, htakes⟩
  next =>
    have hrun : '\\' ∉ (c :: rest).takeWhile (!endsBare ·) :=
      fun hc => h.notMem ((List.takeWhile_prefix _).subset hc)
    rw [Step.bare, takeBare_of_notMem h.notMem]
    refine ⟨_, _, _, rfl, fun _ => Place.noConfusion, takes_takeWhile (by decide) ?_⟩
    simp [verbatimTokens, unescape_of_notMem hrun]

/-! ## Substitution -/

variable {H : Type} [Host H]

/-- How a substitution ends that has put down a text and goes on with another one. -/
def substituted (i : Interp H) (done : String) :
    Except String (List Char) → Option (Except Flow String × Interp H)
  | .ok text => some (.ok (done ++ String.ofList text), i)
  | .error name => some (.error (.error (.undefinedVariable name)), i)

theorem substituted_map (i : Interp H) (done piece : String) (result : Except String (List Char)) :
    substituted i done (result.map (piece.toList ++ ·)) = substituted i (done ++ piece) result := by
  cases result with
  | error name => rfl
  | ok text => simp [substituted, Except.map, String.append_assoc]

theorem lookup_apply (name : String) (i : Interp H) :
    Run.lookup name i = match i.get? name with
      | some value => some (.ok value, i)
      | none => some (.error (.error (.undefinedVariable name)), i) := by
  rw [Run.lookup, Run.get_bind_apply]
  cases i.get? name <;> rfl

/-- Each piece that is taken off is put down at the end. -/
theorem substTokens_of_takes {token : Token} (eval : String → Run H String) (done : String)
    (tokens : List Token) (i : Interp H) (h : Takes cs token rest)
    (ih : ∀ done, substTokens eval done tokens i = substituted i done (expand i.get? rest)) :
    substTokens eval done (token :: tokens) i = substituted i done (expand i.get? cs) := by
  cases h with
  | @text run rest token hrun htoken =>
    have hpiece : substTokens eval done (token :: tokens) i =
        substTokens eval (done ++ String.ofList run) tokens i := by
      simp only [verbatimTokens, List.mem_cons, List.not_mem_nil, or_false] at htoken
      rcases htoken with rfl | rfl | rfl | rfl <;> rfl
    have hmap := substituted_map i done (String.ofList run) (expand i.get? rest)
    rw [String.toList_ofList] at hmap
    rw [hpiece, ih, expand_append hrun, hmap]
  | dollar h =>
    rw [expand_dollar h]
    exact (ih (done ++ "$")).trans (substituted_map i done "$" _).symm
  | @name name rest hne hname hrest =>
    rw [expand_variable hne hname hrest, substTokens, Run.bind_apply, lookup_apply]
    cases i.get? (String.ofList name) with
    | none => rfl
    | some value => exact (ih (done ++ value)).trans (substituted_map i done value _).symm

/-- Substitution in a plain text, from any place outside quotes. -/
theorem substTokens_of_plain (eval : String → Run H String) {place : Place}
    (hplace : place.Unquoted) (h : Plain cs) (done : String) (i : Interp H) :
    substTokens eval done (tokensFrom false place cs) i =
      substituted i done (expand i.get? cs) := by
  induction hlength : cs.length using Nat.strong_induction_on generalizing place cs done with
  | h n ih =>
    subst hlength
    rw [tokensFrom_eq]
    cases cs with
    | nil =>
      have hstep : step false place [] = .finished := by
        cases place with
        | quoted started => exact absurd rfl (hplace started)
        | _ => rfl
      rw [hstep, expand_nil, substituted, String.ofList_nil, String.append_empty]
      rfl
    | cons c rest =>
      obtain ⟨token, after, rest', hstep, hafter, htakes⟩ := exists_step_of_plain hplace h
      have hshorter := length_of_step_eq_emit hstep
      rw [hstep]
      refine substTokens_of_takes eval done _ i htakes fun done => ?_
      exact ih _ hshorter hafter (h.suffix htakes.suffix) done rfl

/-- **Substitution in a plain text.** Each name behind a dollar sign gives way to the value of its
variable, which is not looked at again, and all other characters stay where they are. It fails with
the first name that has no value. -/
theorem subst_of_plain (eval : String → Run H String) {text : String} (h : Plain text.toList)
    (i : Interp H) : subst eval text i = substituted i "" (expand i.get? text.toList) :=
  substTokens_of_plain eval (fun _ => Place.noConfusion) h "" i

end SheetScript.Script
