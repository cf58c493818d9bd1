import Mathlib

/-!
# Byte positions in texts

A text can be cut at byte positions, but only where a character begins or the text ends. `slice`
does so, and anything else is a `Fault`. It finds the middle one of three texts put together, and
nothing else (`slice_eq_ok_iff`).

A character of ASCII is one byte, and all bytes of the others are 128 or more (`encodeChar_cases`).
So a scan for ASCII characters can go byte by byte. It may even jump over one byte where a whole
character should be jumped over, since only the first byte of a character can be ASCII
(`exists_encodeChar_eq_cons`).
-/

namespace SheetScript.Text

open String (utf8Len utf8EncodeChar)

/-- What can go wrong where a text is read by byte positions. -/
inductive Fault where
  /-- A text is cut inside a character, beyond its end, or from a later position to an earlier
  one. -/
  | offBoundary
  /-- A counter goes below zero. -/
  | belowZero
  /-- A loop comes back to a position where it was before, or leaves the text. -/
  | noProgress
  /-- The end is not found in the given number of calls. -/
  | unfinished
deriving DecidableEq, Repr

/-! ## Slices -/

/-- The text between two byte positions. -/
def slice (text : String) (start stop : Nat) : Except Fault String :=
  if String.Pos.Raw.isValid text ⟨start⟩ && String.Pos.Raw.isValid text ⟨stop⟩ && start ≤ stop then
    .ok (String.Pos.Raw.extract text ⟨start⟩ ⟨stop⟩)
  else .error .offBoundary

/-- The text from a byte position on. -/
def sliceFrom (text : String) (start : Nat) : Except Fault String :=
  slice text start text.utf8ByteSize

theorem isValid_append (before after : String) :
    String.Pos.Raw.isValid (before ++ after) ⟨before.utf8ByteSize⟩ = true :=
  String.Pos.Raw.isValid_eq_true_iff.2
    (String.Pos.Raw.isValid_iff_exists_append.2 ⟨before, after, rfl, rfl⟩)

theorem extract_append (before part after : String) :
    String.Pos.Raw.extract (before ++ part ++ after) ⟨before.utf8ByteSize⟩
      ⟨(before ++ part).utf8ByteSize⟩ = part := by
  have h := String.extract_of_valid before.toList part.toList after.toList
  simpa only [String.ofList_append, String.ofList_toList, String.utf8Len_toList,
    ← String.utf8ByteSize_append] using h

/-- A slice is the middle one of three texts. -/
theorem slice_eq_ok_iff {text part : String} {start stop : Nat} :
    slice text start stop = .ok part ↔
      ∃ before after, text = before ++ part ++ after ∧ start = before.utf8ByteSize ∧
        stop = (before ++ part).utf8ByteSize := by
  constructor
  · intro h
    unfold slice at h
    split at h
    next hcut =>
      simp only [Bool.and_eq_true, String.Pos.Raw.isValid_eq_true_iff,
        String.Pos.Raw.isValid_iff_exists_append, String.Pos.Raw.ext_iff, decide_eq_true_eq] at hcut
      obtain ⟨⟨⟨before, rest, hstart, hbefore⟩, ⟨front, after, hstop, hfront⟩⟩, hle⟩ := hcut
      simp only [String.byteIdx_rawEndPos] at hbefore hfront
      subst hbefore hfront
      -- The text before the slice is part of the text before its end.
      obtain ⟨part', rfl⟩ : ∃ part', front = before ++ part' := by
        have hlists : before.toList ++ rest.toList = front.toList ++ after.toList := by
          rw [← String.toList_append, ← String.toList_append, ← hstart, ← hstop]
        obtain ⟨more, hmore, -⟩ | ⟨more, hmore, -⟩ := List.append_eq_append_iff.1 hlists
        · exact ⟨String.ofList more, String.toList_injective (by simpa using hmore)⟩
        · have hsize := congrArg utf8Len hmore
          rw [String.utf8Len_append, String.utf8Len_toList, String.utf8Len_toList] at hsize
          have hnil : more = [] := String.utf8Len_eq_zero.1 (by omega)
          exact ⟨"", String.toList_injective (by simpa [hnil] using hmore.symm)⟩
      subst hstop
      rw [extract_append, Except.ok.injEq] at h
      subst h
      exact ⟨before, after, rfl, rfl, rfl⟩
    next => cases h
  · rintro ⟨before, after, rfl, rfl, rfl⟩
    have hstart :
        String.Pos.Raw.isValid (before ++ part ++ after) ⟨before.utf8ByteSize⟩ = true := by
      rw [String.append_assoc]
      exact isValid_append before (part ++ after)
    have hle : before.utf8ByteSize ≤ (before ++ part).utf8ByteSize := by
      rw [String.utf8ByteSize_append]
      exact Nat.le_add_right _ _
    rw [slice, hstart, isValid_append, decide_eq_true hle, Bool.and_self, Bool.and_self, if_pos rfl,
      extract_append]

theorem slice_append (before part after : List Char) :
    slice (String.ofList (before ++ (part ++ after))) (utf8Len before)
      (utf8Len before + utf8Len part) = .ok (String.ofList part) := by
  refine slice_eq_ok_iff.2 ⟨String.ofList before, String.ofList after, ?_, ?_, ?_⟩
  · rw [← String.ofList_append, ← String.ofList_append, List.append_assoc]
  · rw [String.utf8ByteSize_ofList]
  · rw [← String.ofList_append, String.utf8ByteSize_ofList, String.utf8Len_append]

theorem slice_zero_append (part after : List Char) :
    slice (String.ofList (part ++ after)) 0 (utf8Len part) = .ok (String.ofList part) := by
  simpa using slice_append [] part after

theorem sliceFrom_append (before after : List Char) :
    sliceFrom (String.ofList (before ++ after)) (utf8Len before) = .ok (String.ofList after) := by
  have h := slice_append before after []
  rwa [List.append_nil, ← String.utf8Len_append,
    ← String.utf8ByteSize_ofList (before ++ after)] at h

theorem length_le_utf8Len (cs : List Char) : cs.length ≤ utf8Len cs := by
  induction cs with
  | nil => exact Nat.le_refl 0
  | cons c cs ih =>
    have := Char.utf8Size_pos c
    rw [List.length_cons, String.utf8Len_cons]
    omega

/-! ## Bytes -/

/-- The bytes of a text. -/
def bytes (text : String) : List UInt8 := text.toByteArray.data.toList

theorem bytes_ofList (cs : List Char) : bytes (String.ofList cs) = cs.flatMap utf8EncodeChar := by
  simp [bytes, List.utf8Encode]

/-- A character of ASCII is one byte, its code. All bytes of the others are beyond ASCII. -/
theorem encodeChar_cases (c : Char) :
    utf8EncodeChar c = [c.val.toUInt8] ∧ c.toNat < 128 ∨
      128 ≤ c.toNat ∧ ∀ b ∈ utf8EncodeChar c, 128 ≤ b.toNat := by
  by_cases hc : c.toNat < 128
  · refine .inl ⟨String.utf8EncodeChar_eq_singleton (Char.utf8Size_eq_one_iff.2 ?_), hc⟩
    exact UInt32.le_iff_toNat_le.2 (Nat.le_of_lt_succ hc)
  · refine .inr ⟨Nat.le_of_not_lt hc, ?_⟩
    have hlarge : ¬ c.val.toNat ≤ 127 := fun h => hc (Nat.lt_succ_of_le h)
    simp only [utf8EncodeChar, hlarge, if_false]
    split_ifs <;> simp only [List.forall_mem_cons, List.not_mem_nil, false_imp_iff, implies_true,
      and_true, UInt8.toNat_ofNat'] <;> omega

/-- Behind the first byte of a character there are no bytes of ASCII. -/
theorem exists_encodeChar_eq_cons (c : Char) :
    ∃ b tail, utf8EncodeChar c = b :: tail ∧ (∀ d ∈ tail, 128 ≤ d.toNat) ∧
      tail.length + 1 = c.utf8Size := by
  obtain ⟨b, tail, hc⟩ := List.exists_cons_of_ne_nil (@String.utf8EncodeChar_ne_nil c)
  refine ⟨b, tail, hc, ?_, by rw [← String.length_utf8EncodeChar, hc, List.length_cons]⟩
  rcases encodeChar_cases c with ⟨hascii, -⟩ | ⟨-, hbytes⟩
  · rw [hascii] at hc
    cases hc
    exact fun d hd => absurd hd List.not_mem_nil
  · exact fun d hd => hbytes d (hc ▸ List.mem_cons_of_mem b hd)

end SheetScript.Text
