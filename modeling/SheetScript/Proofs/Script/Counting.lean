import Mathlib
import SheetScript.Proofs.Script.Braces
import SheetScript.Proofs.Script.Reader

/-!
# Counting byte by byte

Counting open braces and brackets over the bytes of a text finds the same end as `takeBraced` and
`takeBracketed` find over its characters (`findEnd_countBrace`, `findEnd_countBracket`). In
particular no counter goes below zero: the count starts with one that is open, and ends with the
one that closes it.

Bytes beyond ASCII leave both counts as they are (`CountsAscii`). So a character counts as one byte
does (`findEnd_cons`). And behind a backslash, where only the first byte of a character is jumped
over, the others do no harm (`findEnd_escaped`).
-/

namespace SheetScript.Script

open Text (Fault)
open String (utf8Len utf8EncodeChar)

variable {cs : List Char} {c : Char}

/-! ## Counting along characters -/

/-- The byte of an ASCII character; for all others, a byte beyond ASCII. -/
def leadByte (c : Char) : UInt8 := if c.toNat < 128 then c.toUInt8 else 128

theorem leadByte_eq_iff {d : Char} (hd : d.toNat < 128) : leadByte c = d.toUInt8 ↔ c = d := by
  have hbyte : ∀ {c : Char}, c.toNat < 128 → c.toUInt8.toNat = c.toNat := by
    intro c hc
    show c.toNat % 256 = c.toNat
    omega
  constructor
  · intro h
    have h := congrArg UInt8.toNat h
    rw [hbyte hd, leadByte] at h
    split at h
    next hc =>
      rw [hbyte hc] at h
      exact Char.toNat_inj.1 h
    next =>
      have : (128 : UInt8).toNat = 128 := rfl
      omega
  · rintro rfl
    rw [leadByte, if_pos hd]

/-- A character of ASCII is its lead byte. All bytes of the others are beyond ASCII, as is their
lead byte. -/
theorem encodeChar_leadByte_cases (c : Char) :
    utf8EncodeChar c = [leadByte c] ∨
      128 ≤ (leadByte c).toNat ∧ ∀ b ∈ utf8EncodeChar c, 128 ≤ b.toNat := by
  rcases Text.encodeChar_cases c with ⟨hbytes, hascii⟩ | ⟨hlarge, hbytes⟩
  · rw [leadByte, if_pos hascii]
    exact .inl hbytes
  · rw [leadByte, if_neg (by omega)]
    exact .inr ⟨by decide, hbytes⟩

theorem ne_toUInt8_of_le {b : UInt8} {d : Char} (hb : 128 ≤ b.toNat) (hd : d.toUInt8.toNat < 128) :
    b ≠ d.toUInt8 := by
  rintro rfl
  omega

/-- A count that bytes beyond ASCII do not change. -/
def CountsAscii {σ : Type} (count : σ → UInt8 → Except Fault (Option σ)) : Prop :=
  ∀ state b, 128 ≤ b.toNat → count state b = .ok (some state)

section

variable {σ : Type} {count : σ → UInt8 → Except Fault (Option σ)} {state state' : σ} {i : Nat}

theorem findEnd_append (h : CountsAscii count) {front : List UInt8}
    (hfront : ∀ b ∈ front, 128 ≤ b.toNat) (state : σ) (i : Nat) (more : List UInt8) :
    findEnd count state i (front ++ more) = findEnd count state (i + front.length) more := by
  induction front generalizing i with
  | nil => rfl
  | cons b front ih =>
    obtain ⟨hb, hfront⟩ := List.forall_mem_cons.1 hfront
    have hescape : b ≠ '\\'.toUInt8 := ne_toUInt8_of_le hb (by decide)
    rw [List.cons_append, findEnd, if_neg hescape, h state b hb, List.length_cons]
    exact (ih hfront (i + 1)).trans (by rw [Nat.add_right_comm, Nat.add_assoc])

/-- A character behind a backslash is passed over, whatever its size. -/
theorem findEnd_escaped (h : CountsAscii count) (state : σ) (i : Nat) (c : Char) (cs : List Char) :
    findEnd count state i (('\\' :: c :: cs).flatMap utf8EncodeChar) =
      findEnd count state (i + (1 + c.utf8Size)) (cs.flatMap utf8EncodeChar) := by
  obtain ⟨b, tail, hc, htail, hsize⟩ := Text.exists_encodeChar_eq_cons c
  have hbackslash : utf8EncodeChar '\\' = ['\\'.toUInt8] := rfl
  rw [List.flatMap_cons, List.flatMap_cons, hbackslash, hc, List.singleton_append, findEnd,
    if_pos rfl, List.cons_append, List.drop_one, List.tail_cons, findEnd_append h htail, ← hsize]
  congr 1
  omega

theorem findEnd_backslash (state : σ) (i : Nat) :
    findEnd count state i (['\\'].flatMap utf8EncodeChar) = .ok none := by
  have hbackslash : ['\\'].flatMap utf8EncodeChar = ['\\'.toUInt8] := rfl
  rw [hbackslash, findEnd, if_pos rfl, List.drop_nil, findEnd]

/-- A character that counts as its first byte does. -/
theorem findEnd_cons (h : CountsAscii count) (hc : c ≠ '\\')
    (hcount : count state (leadByte c) = .ok (some state')) (i : Nat) (cs : List Char) :
    findEnd count state i ((c :: cs).flatMap utf8EncodeChar) =
      findEnd count state' (i + c.utf8Size) (cs.flatMap utf8EncodeChar) := by
  rw [List.flatMap_cons]
  rcases encodeChar_leadByte_cases c with hbytes | ⟨hlarge, hbytes⟩
  · have hescape : leadByte c ≠ '\\'.toUInt8 := mt (leadByte_eq_iff (by decide)).1 hc
    have hsize : c.utf8Size = 1 := by rw [← String.length_utf8EncodeChar, hbytes]; rfl
    rw [hbytes, List.singleton_append, findEnd, if_neg hescape, hcount, hsize]
    rfl
  · rw [h state _ hlarge] at hcount
    cases hcount
    rw [findEnd_append h hbytes, String.length_utf8EncodeChar]

theorem findEnd_last (h : CountsAscii count) (hc : c ≠ '\\')
    (hcount : count state (leadByte c) = .ok none) (i : Nat) (cs : List Char) :
    findEnd count state i ((c :: cs).flatMap utf8EncodeChar) = .ok (some i) := by
  rcases encodeChar_leadByte_cases c with hbytes | ⟨hlarge, -⟩
  · have hescape : leadByte c ≠ '\\'.toUInt8 := mt (leadByte_eq_iff (by decide)).1 hc
    rw [List.flatMap_cons, hbytes, List.singleton_append, findEnd, if_neg hescape, hcount]
    rfl
  · rw [h state _ hlarge] at hcount
    cases hcount

end

/-! ## Braces and brackets -/

theorem countBrace_leadByte (depth : Nat) (c : Char) :
    countBrace depth (leadByte c) =
      if c = '{' then .ok (some (depth + 1))
      else if c = '}' then stillOpen <$> decrement depth
      else .ok (some depth) := by
  simp only [countBrace, leadByte_eq_iff (show '{'.toNat < 128 by decide),
    leadByte_eq_iff (show '}'.toNat < 128 by decide)]

theorem countsAscii_countBrace : CountsAscii countBrace := by
  intro depth b hb
  rw [countBrace, if_neg (ne_toUInt8_of_le hb (by decide)),
    if_neg (ne_toUInt8_of_le hb (by decide))]

theorem countsAscii_countBracket : CountsAscii countBracket := by
  intro state b hb
  rw [countBracket, if_neg (ne_toUInt8_of_le hb (by decide)),
    if_neg (ne_toUInt8_of_le hb (by decide)), if_neg fun h => ne_toUInt8_of_le hb (by decide) h.1,
    if_neg fun h => ne_toUInt8_of_le hb (by decide) h.1]

theorem countBracket_leadByte (state : Brackets) (c : Char) :
    countBracket state (leadByte c) =
      if c = '{' then .ok (some { state with braces := state.braces + 1 })
      else if c = '}' then .ok (some { state with braces := state.braces - 1 })
      else if c = '[' ∧ state.braces = 0 then
        .ok (some { state with brackets := state.brackets + 1 })
      else if c = ']' ∧ state.braces = 0 then
        return (stillOpen (← decrement state.brackets)).map fun brackets => { state with brackets }
      else .ok (some state) := by
  simp only [countBracket, leadByte_eq_iff (show '{'.toNat < 128 by decide),
    leadByte_eq_iff (show '}'.toNat < 128 by decide),
    leadByte_eq_iff (show '['.toNat < 128 by decide),
    leadByte_eq_iff (show ']'.toNat < 128 by decide)]

/-- Brackets inside braces do not count, nor does any other character. -/
theorem countBracket_of_passed {state : Brackets} (hopen : c ≠ '{') (hclose : c ≠ '}')
    (hinside : c = '[' ∨ c = ']' → state.braces ≠ 0) :
    countBracket state (leadByte c) = .ok (some state) := by
  rw [countBracket_leadByte, if_neg hopen, if_neg hclose, if_neg fun h => hinside (.inl h.1) h.2,
    if_neg fun h => hinside (.inr h.1) h.2]

/-- What is not taken behind a backslash may be a backslash, if it is the last character. -/
theorem eq_nil_of_backslash (hescape : ∀ d ds, c = '\\' → cs = d :: ds → False) (hc : c = '\\') :
    cs = [] := by
  cases cs with
  | nil => rfl
  | cons d ds => exact (hescape d ds hc rfl).elim

/-- Counting braces byte by byte finds what `takeBraced` takes. -/
theorem findEnd_countBrace (depth : Nat) (taken cs : List Char) (i : Nat) :
    findEnd countBrace (depth + 1) (i + utf8Len taken) (cs.flatMap utf8EncodeChar) =
      .ok ((takeBraced depth taken cs).map fun found => i + utf8Len found.1) := by
  fun_induction takeBraced depth taken cs with
  | case1 depth taken => rw [List.flatMap_nil, findEnd]; rfl
  | case2 depth taken c cs ih =>
    rw [findEnd_escaped countsAscii_countBrace, ← ih, String.utf8Len_cons, String.utf8Len_cons,
      Nat.add_assoc, Nat.add_assoc]
    rfl
  | case3 depth taken cs ih =>
    rw [findEnd_cons countsAscii_countBrace (by decide) rfl, ← ih]
    rfl
  | case4 taken cs =>
    rw [findEnd_last countsAscii_countBrace (by decide) rfl]
    simp
  | case5 taken cs depth ih =>
    rw [findEnd_cons countsAscii_countBrace (by decide) rfl, ← ih]
    rfl
  | case6 depth taken c cs hescape hopen hclose ih =>
    -- Any other character. A backslash is among them only if the text ends with it.
    by_cases hc : c = '\\'
    · obtain rfl := eq_nil_of_backslash hescape hc
      subst hc
      exact findEnd_backslash _ _
    · have hcount := countBrace_leadByte (depth + 1) c
      rw [if_neg fun h => hopen h, if_neg fun h => hclose h] at hcount
      rw [findEnd_cons countsAscii_countBrace hc hcount, ← ih, String.utf8Len_cons, Nat.add_assoc]

/-- Counting brackets byte by byte finds what `takeBracketed` takes. -/
theorem findEnd_countBracket (depth braces : Nat) (taken cs : List Char) (i : Nat) :
    findEnd countBracket ⟨depth + 1, braces⟩ (i + utf8Len taken) (cs.flatMap utf8EncodeChar) =
      .ok ((takeBracketed depth braces taken cs).map fun found => i + utf8Len found.1) := by
  fun_induction takeBracketed depth braces taken cs with
  | case1 depth braces taken => rw [List.flatMap_nil, findEnd]; rfl
  | case2 depth braces taken c cs ih =>
    -- Behind a backslash, where both passes skip a character.
    rw [findEnd_escaped countsAscii_countBracket, ← ih, String.utf8Len_cons, String.utf8Len_cons,
      Nat.add_assoc, Nat.add_assoc]
    rfl
  | case3 depth braces taken cs ih =>
    rw [findEnd_cons countsAscii_countBracket (by decide) rfl, ← ih]
    rfl
  | case4 depth braces taken cs ih =>
    rw [findEnd_cons countsAscii_countBracket (by decide) rfl, ← ih]
    rfl
  | case5 depth braces taken cs ih =>
    -- An opening bracket counts for both unless it stands in braces.
    by_cases hbraces : braces = 0
    · subst hbraces
      rw [findEnd_cons countsAscii_countBracket (by decide) rfl]
      exact ih
    · have hcount : countBracket ⟨depth + 1, braces⟩ (leadByte '[') =
          .ok (some ⟨depth + 1, braces⟩) :=
        countBracket_of_passed (by decide) (by decide) fun _ => hbraces
      rw [findEnd_cons countsAscii_countBracket (by decide) hcount, ← ih, if_neg hbraces]
      rfl
  | case6 taken cs =>
    rw [findEnd_last countsAscii_countBracket (by decide) rfl]
    simp
  | case7 taken cs depth ih =>
    rw [findEnd_cons countsAscii_countBracket (by decide) rfl, ← ih]
    rfl
  | case8 taken cs braces depth hlast hclose ih =>
    -- A closing bracket that neither of the cases above takes stands in braces.
    have hbraces : braces ≠ 0 := by
      rintro rfl
      cases depth with
      | zero => exact hlast rfl rfl
      | succ depth => exact hclose depth rfl rfl
    have hcount : countBracket ⟨depth + 1, braces⟩ (leadByte ']') =
        .ok (some ⟨depth + 1, braces⟩) :=
      countBracket_of_passed (by decide) (by decide) fun _ => hbraces
    rw [findEnd_cons countsAscii_countBracket (by decide) hcount, ← ih]
    rfl
  | case9 depth braces taken c cs hescape hopen hclose hbracket hend ih =>
    -- Any other character. A backslash is among them only if the text ends with it.
    by_cases hc : c = '\\'
    · obtain rfl := eq_nil_of_backslash hescape hc
      subst hc
      exact findEnd_backslash _ _
    · have hcount : countBracket ⟨depth + 1, braces⟩ (leadByte c) =
          .ok (some ⟨depth + 1, braces⟩) :=
        countBracket_of_passed (fun h => hopen h) (fun h => hclose h)
          fun h => (h.elim (fun h => hbracket h) fun h => hend h).elim
      rw [findEnd_cons countsAscii_countBracket hc hcount, ← ih, String.utf8Len_cons, Nat.add_assoc]

end SheetScript.Script
