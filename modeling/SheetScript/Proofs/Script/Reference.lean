import SheetScript.Proofs.Script.Substitution
import SheetScript.Script.Journal

/-!
# References in plain texts

A text is made of characters and of references, which are dollar signs with a name behind them. A
name goes as far as it can, so there is only one way to cut a text into its segments (`exists_cut`,
`Cut.unique`). Substitution in a plain text puts the value of each name in the place of its
reference and leaves all other segments as they are; if some of the names have no value, it fails
with the leftmost one (`subst_of_cut`).

`expand` cuts and replaces at the same time. A text that is cut first gives the same
(`expand_of_cut`), by induction over its segments.
-/

namespace SheetScript.Script

/-! ## Segments -/

/-- A character of a text, or a reference to a variable. -/
inductive Segment where
  | char (c : Char)
  | reference (name : String)
deriving DecidableEq, Repr

/-- The text does not begin with a character of a name. -/
def EndsName (rest : List Char) : Prop := ∀ c, rest.head? = some c → isNameChar c = false

/-- The segments of a text. A dollar sign stands by itself only where no name begins behind it, and
a name ends only where no character of a name follows. -/
inductive Cut : List Char → List Segment → Prop
  | nil : Cut [] []
  | char {c : Char} {rest : List Char} {segments : List Segment} (hc : c = '$' → EndsName rest)
      (hrest : Cut rest segments) : Cut (c :: rest) (.char c :: segments)
  | reference {name rest : List Char} {segments : List Segment} (hne : name ≠ [])
      (hname : ∀ c ∈ name, isNameChar c = true) (hstop : EndsName rest)
      (hrest : Cut rest segments) :
      Cut ('$' :: (name ++ rest)) (.reference (String.ofList name) :: segments)

/-- The names that are referred to, from left to right. -/
def names (segments : List Segment) : List String :=
  segments.filterMap fun
    | .char _ => none
    | .reference name => some name

/-- What a segment becomes, under the values of the variables. -/
def Segment.value (value? : String → Option String) : Segment → String
  | char c => String.singleton c
  | reference name => (value? name).getD ""

variable {value? : String → Option String} {cs name rest : List Char}
  {segments segments' : List Segment}

theorem endsName_iff : EndsName rest ↔ rest.takeWhile isNameChar = [] := by
  cases rest <;> simp [EndsName, List.takeWhile_cons]

theorem not_endsName (hne : name ≠ []) (hname : ∀ c ∈ name, isNameChar c = true) :
    ¬ EndsName (name ++ rest) := by
  obtain ⟨d, tail, rfl⟩ := List.exists_cons_of_ne_nil hne
  intro h
  have hd := hname d List.mem_cons_self
  rw [h d rfl] at hd
  cases hd

theorem exists_cut (cs : List Char) : ∃ segments, Cut cs segments := by
  induction hlength : cs.length using Nat.strong_induction_on generalizing cs with
  | h n ih =>
    subst hlength
    cases cs with
    | nil => exact ⟨[], .nil⟩
    | cons c rest =>
      by_cases hname : c = '$' ∧ rest.takeWhile isNameChar ≠ []
      · obtain ⟨rfl, hne⟩ := hname
        have hshorter : (rest.dropWhile isNameChar).length < ('$' :: rest).length :=
          Nat.lt_succ_of_le (List.dropWhile_suffix _).length_le
        obtain ⟨segments, hsegments⟩ := ih _ hshorter _ rfl
        have hcut := Cut.reference hne (fun c hc => List.mem_takeWhile_imp hc)
          (fun c => Text.not_of_head?_dropWhile) hsegments
        rw [List.takeWhile_append_dropWhile] at hcut
        exact ⟨_, hcut⟩
      · obtain ⟨segments, hsegments⟩ := ih _ (Nat.lt_succ_self _) rest rfl
        refine ⟨.char c :: segments, .char (fun hc => ?_) hsegments⟩
        rw [not_and_not_right] at hname
        exact endsName_iff.2 (hname hc)

/-- There is one way only to cut a text. -/
theorem Cut.unique (h : Cut cs segments) (h' : Cut cs segments') : segments = segments' := by
  induction h generalizing segments' with
  | nil =>
    cases h'
    rfl
  | @char c rest segments hc _ ih =>
    generalize htext : c :: rest = text at h'
    cases h' with
    | nil => cases htext
    | char _ hrest' =>
      cases htext
      rw [ih hrest']
    | reference hne' hname' _ _ =>
      cases htext
      exact absurd (hc rfl) (not_endsName hne' hname')
  | @reference name rest segments hne hname hstop _ ih =>
    generalize htext : '$' :: (name ++ rest) = text at h'
    cases h' with
    | nil => cases htext
    | char hc' _ =>
      cases htext
      exact absurd (hc' rfl) (not_endsName hne hname)
    | @reference name' rest' _ _ hname' hstop' hrest' =>
      have happend : name ++ rest = name' ++ rest' := (List.cons.inj htext).2
      -- Both names are the whole run of name characters behind the sign.
      have hsame : name = name' := by
        rw [← Text.takeWhile_append_of_stop hname hstop, happend,
          Text.takeWhile_append_of_stop hname' hstop']
      subst hsame
      obtain rfl := List.append_cancel_left happend
      rw [ih hrest']

theorem exists_cut_iff (cs : List Char) :
    ∃ segments, ∀ other, Cut cs other ↔ other = segments := by
  obtain ⟨segments, hcut⟩ := exists_cut cs
  exact ⟨segments, fun other => ⟨fun h => h.unique hcut, fun h => h ▸ hcut⟩⟩

/-! ## Replacing -/

/-- The text of the segments with values in place of the references, or the first name without a
value. -/
def replaced (value? : String → Option String) (segments : List Segment) : Except String String :=
  match (names segments).find? fun name => (value? name).isNone with
  | some name => .error name
  | none => .ok (String.join (segments.map (Segment.value value?)))

theorem replaced_char (c : Char) (segments : List Segment) :
    replaced value? (.char c :: segments) =
      (replaced value? segments).map (String.singleton c ++ ·) := by
  simp only [replaced, names, List.filterMap_cons, List.map_cons, Segment.value, String.join_cons]
  split <;> rfl

theorem replaced_reference (name : String) (segments : List Segment) :
    replaced value? (.reference name :: segments) =
      match value? name with
      | some value => (replaced value? segments).map (value ++ ·)
      | none => .error name := by
  cases hvalue : value? name with
  | none => simp [replaced, names, hvalue]
  | some value =>
    have hnames : names (.reference name :: segments) = name :: names segments := rfl
    simp only [replaced, hnames, List.find?_cons, hvalue, Option.isNone_some, List.map_cons,
      Segment.value, Option.getD_some, String.join_cons]
    cases (names segments).find? fun name => (value? name).isNone <;> rfl

theorem expand_of_cut (h : Cut cs segments) :
    expand value? cs = (replaced value? segments).map String.toList := by
  have hmap : ∀ (piece : String) (result : Except String String),
      (result.map String.toList).map (piece.toList ++ ·) =
        (result.map (piece ++ ·)).map String.toList := by
    rintro piece (name | text)
    · rfl
    · simp [Except.map]
  induction h with
  | nil => rw [expand_nil]; rfl
  | @char c rest segments hc _ ih =>
    have hkept : expand value? (c :: rest) = (expand value? rest).map ([c] ++ ·) := by
      by_cases hdollar : c = '$'
      · subst hdollar
        exact expand_dollar (endsName_iff.1 (hc rfl))
      · exact @expand_append value? [c] (by simpa using Ne.symm hdollar) rest
    rw [hkept, ih, replaced_char, ← hmap, String.toList_singleton]
  | @reference name rest segments hne hname hstop _ ih =>
    rw [expand_variable hne hname hstop, ih, replaced_reference]
    cases value? (String.ofList name) with
    | none => rfl
    | some value => exact hmap value _

/-! ## Substitution -/

variable {H : Type} [Host H]

/-- **Substitution keeps a plain text but for its references.** There is one way to cut a plain text
into segments. Whatever evaluates scripts, substitution puts the value of each variable in the place
of its reference, as it stands, and leaves all other characters where they are. If some of the names
have no value, it fails with the leftmost one of them. The interpreter stays as it was. -/
theorem subst_of_cut (eval : String → Run H String) {text : String} (h : Plain text.toList) :
    ∃ segments, (∀ other, Cut text.toList other ↔ other = segments) ∧
      ∀ i : Interp H, subst eval text i =
        match (names segments).find? fun name => (i.get? name).isNone with
        | some name => some (.error (.error (.undefinedVariable name)), i)
        | none => some (.ok (String.join (segments.map (Segment.value i.get?))), i) := by
  obtain ⟨segments, hcut⟩ := exists_cut_iff text.toList
  refine ⟨segments, hcut, fun i => ?_⟩
  rw [subst_of_plain eval h, expand_of_cut ((hcut segments).2 rfl), replaced]
  split
  · rfl
  · simp only [Except.map, substituted, String.empty_append, String.ofList_toList]

/-- An interpreter with a variable whose value looks like a reference and a command. -/
def nestedReference : Interp Journal :=
  ({ host := {} } : Interp Journal).setVariable "x" "$x [x]"

/-- The value is not looked at again, and what stands around it is neither a comment nor the end of
a line or word. -/
theorem subst_of_cut_nestedReference :
    Plain "# $x;\t$ ]".toList ∧
      Interp.subst "# $x;\t$ ]" nestedReference =
        some (.ok "# $x [x];\t$ ]", nestedReference) := by
  have hplain : Plain "# $x;\t$ ]".toList := by
    simp [Plain]
  refine ⟨hplain, ?_⟩
  obtain ⟨segments, hcut, hsubst⟩ := subst_of_cut (H := Journal) Interp.eval hplain
  have hsegments : Cut "# $x;\t$ ]".toList
      [.char '#', .char ' ', .reference "x", .char ';', .char '\t', .char '$', .char ' ',
        .char ']'] := by
    have htext : "# $x;\t$ ]".toList =
        '#' :: ' ' :: '$' :: (['x'] ++ [';', '\t', '$', ' ', ']']) := by
      simp
    have hletter : ∀ {c rest segments}, c ≠ '$' → Cut rest segments →
        Cut (c :: rest) (.char c :: segments) :=
      fun hc => .char fun h => absurd h hc
    have hlone : EndsName [' ', ']'] := endsName_iff.2 rfl
    have hstop : EndsName [';', '\t', '$', ' ', ']'] := endsName_iff.2 rfl
    have hrest : Cut [';', '\t', '$', ' ', ']']
        [.char ';', .char '\t', .char '$', .char ' ', .char ']'] :=
      hletter (by decide) (hletter (by decide) (.char (fun _ => hlone)
        (hletter (by decide) (hletter (by decide) .nil))))
    rw [htext]
    exact hletter (by decide) (hletter (by decide)
      (.reference (List.cons_ne_nil _ _) (List.forall_mem_singleton.2 rfl) hstop hrest))
  rw [Interp.subst, hsubst, ← (hcut _).1 hsegments]
  cbv

end SheetScript.Script
