import SheetScript.Arithmetic.Token
import SheetScript.Proofs.Text.Character

/-!
# The lexical grammar of expressions

A text is cut at every place into the longest numeral or the longest symbol that stands there, and
blanks between them do not count (`Lexes`). Scanning finds exactly this, unless it meets text that
makes no token (`lexes_iff`).
-/

namespace SheetScript.Arithmetic

/-! ## Tokens and their texts -/

/-- The part of a numeral from the point on. -/
inductive IsFraction : List Char → Prop
  | none : IsFraction []
  | digits {ds : List Char} (h : ∀ d ∈ ds, d.isDigit = true) : IsFraction ('.' :: ds)

/-- The exponent of a numeral; it has a digit at least. -/
inductive IsExponent : List Char → Prop
  | none : IsExponent []
  | digits {e : Char} {sign ds : List Char} (he : e = 'e' ∨ e = 'E')
      (hsign : sign ∈ [[], ['+'], ['-']]) (hds : ∀ d ∈ ds, d.isDigit = true) (hne : ds ≠ []) :
      IsExponent (e :: (sign ++ ds))

/-- Digits with at most one point and an optional exponent. -/
def IsNumeral (text : List Char) : Prop :=
  ∃ whole fraction exponent, text = whole ++ (fraction ++ exponent) ∧
    (∀ d ∈ whole, d.isDigit = true) ∧ IsFraction fraction ∧ IsExponent exponent

/-- The symbols of expressions. -/
def symbols : List (List Char × Token) :=
  [(['=', '='], .operator .equal), (['!', '='], .operator .notEqual),
    (['<', '='], .operator .lessEqual), (['>', '='], .operator .greaterEqual),
    (['&', '&'], .operator .and), (['|', '|'], .operator .or), (['<'], .operator .less),
    (['>'], .operator .greater), (['*'], .operator .multiply), (['/'], .operator .divide),
    (['+'], .operator .add), (['-'], .operator .subtract), (['('], .openParenthesis),
    ([')'], .closeParenthesis)]

/-- The text of a symbol. -/
def IsSymbol (text : List Char) : Prop := ∃ token, (text, token) ∈ symbols

/-- The text at the start of `text ++ rest` is of the given kind, and no longer one is. -/
def Longest (kind : List Char → Prop) (text rest : List Char) : Prop :=
  kind text ∧ ∀ text', kind text' → text' <+: text ++ rest → text'.length ≤ text.length

/-- The text is cut into the tokens. -/
inductive Lexes : List Char → List Token → Prop
  | nil : Lexes [] []
  | blank {c : Char} {cs : List Char} {tokens : List Token} (hc : Text.isBlank c = true)
      (h : Lexes cs tokens) : Lexes (c :: cs) tokens
  | number {c : Char} {text rest : List Char} {value : Float} {tokens : List Token}
      (hc : c.isDigit = true ∨ c = '.') (htext : Longest IsNumeral (c :: text) rest)
      (hvalue : Number.read? (c :: text) = some value) (h : Lexes rest tokens) :
      Lexes (c :: text ++ rest) (.number value :: tokens)
  | symbol {text rest : List Char} {token : Token} {tokens : List Token}
      (htext : Longest IsSymbol text rest)
      (htoken : (text, token) ∈ symbols) (h : Lexes rest tokens) :
      Lexes (text ++ rest) (token :: tokens)

variable {c : Char} {cs text text' rest rest' : List Char} {token : Token} {tokens : List Token}

theorem Longest.unique {kind : List Char → Prop} (h : Longest kind text rest)
    (h' : Longest kind text' rest') (hsame : text ++ rest = text' ++ rest') :
    text = text' ∧ rest = rest' := by
  have hle := h.2 text' h'.1 (hsame ▸ List.prefix_append text' rest')
  have hge := h'.2 text h.1 (hsame ▸ List.prefix_append text rest)
  exact List.append_inj hsame (Nat.le_antisymm hge hle)

/-! ## Numerals -/

theorem takeSign_append (hsign : text ∈ [[], ['+'], ['-']])
    (hrest : ∀ d, rest.head? = some d → d.isDigit = true) : takeSign (text ++ rest) = (text, rest) := by
  simp only [List.mem_cons, List.not_mem_nil, or_false] at hsign
  rcases hsign with rfl | rfl | rfl
  · rw [List.nil_append]
    match rest, hrest with
    | [], _ => rfl
    | d :: rest, hrest =>
      have hd := hrest d rfl
      unfold takeSign
      split
      next heq => cases heq; cases hd
      next heq => cases heq; cases hd
      next => rfl
  · rfl
  · rfl

theorem takeSign_cases (cs : List Char) :
    (takeSign cs).1 ∈ [[], ['+'], ['-']] ∧ (takeSign cs).1 ++ (takeSign cs).2 = cs := by
  unfold takeSign
  split <;> simp

theorem isExponent_takeExponent (cs : List Char) :
    IsExponent (takeExponent cs).1 ∧ (takeExponent cs).1 ++ (takeExponent cs).2 = cs := by
  unfold takeExponent
  split
  next e tail =>
    split
    next he =>
      obtain ⟨hsign, happend⟩ := takeSign_cases tail
      have hdigits := List.takeWhile_append_dropWhile (p := Char.isDigit) (l := (takeSign tail).2)
      split
      next => exact ⟨.none, rfl⟩
      next hne =>
        refine ⟨.digits he hsign (fun d hd => List.mem_takeWhile_imp hd) hne, ?_⟩
        simp only [List.cons_append, List.append_assoc, hdigits, happend]
    next => exact ⟨.none, rfl⟩
  next => exact ⟨.none, rfl⟩

theorem length_le_takeWhile {p : Char → Bool} (h : ∀ d ∈ text, p d = true) (rest : List Char) :
    text.length ≤ ((text ++ rest).takeWhile p).length := by
  rw [List.takeWhile_append_of_pos h, List.length_append]
  exact Nat.le_add_right _ _

theorem length_le_takeExponent (h : IsExponent text) (rest : List Char) :
    text.length ≤ (takeExponent (text ++ rest)).1.length := by
  cases h with
  | none => exact Nat.zero_le _
  | @digits e sign ds he hsign hds hne =>
    have hhead : ∀ d, (ds ++ rest).head? = some d → d.isDigit = true := by
      intro d hd
      obtain ⟨d', ds', rfl⟩ := List.exists_cons_of_ne_nil hne
      obtain rfl : d' = d := by simpa using hd
      exact hds d' List.mem_cons_self
    have hlength := length_le_takeWhile hds rest
    rw [List.cons_append, List.append_assoc, takeExponent, if_pos he, takeSign_append hsign hhead]
    split
    next hnil =>
      rw [hnil, List.length_nil, Nat.le_zero, List.length_eq_zero_iff] at hlength
      exact absurd hlength hne
    next =>
      simp only [List.cons_append, List.length_cons, List.length_append]
      omega

theorem isFraction_takeFraction (cs : List Char) :
    IsFraction (takeFraction cs).1 ∧ (takeFraction cs).1 ++ (takeFraction cs).2 = cs := by
  unfold takeFraction
  split
  next tail =>
    refine ⟨.digits fun d hd => List.mem_takeWhile_imp hd, ?_⟩
    rw [List.cons_append, List.takeWhile_append_dropWhile]
  next => exact ⟨.none, rfl⟩

theorem isNumeral_takeNumber (cs : List Char) :
    IsNumeral (takeNumber cs).1 ∧ (takeNumber cs).1 ++ (takeNumber cs).2 = cs := by
  have hwhole := List.takeWhile_append_dropWhile (p := Char.isDigit) (l := cs)
  obtain ⟨hfraction, hrest⟩ := isFraction_takeFraction (cs.dropWhile Char.isDigit)
  obtain ⟨hexponent, hend⟩ :=
    isExponent_takeExponent (takeFraction (cs.dropWhile Char.isDigit)).2
  refine ⟨⟨_, _, _, List.append_assoc _ _ _, fun d hd => List.mem_takeWhile_imp hd, hfraction,
    hexponent⟩, ?_⟩
  rw [takeNumber]
  simp only [List.append_assoc]
  rw [hend, hrest, hwhole]

theorem not_isDigit_of_isExponent (h : IsExponent text) (hne : text ≠ []) (rest : List Char) :
    ∀ c, (text ++ rest).head? = some c → c.isDigit = false ∧ c ≠ '.' := by
  cases h with
  | none => exact absurd rfl hne
  | digits he =>
    intro c hc
    cases hc
    rcases he with rfl | rfl <;> decide

theorem takeFraction_append (h : IsFraction text)
    (hrest : ∀ c, rest.head? = some c → c.isDigit = false ∧ c ≠ '.') :
    takeFraction (text ++ rest) = (text, rest) := by
  have hstop : ∀ c, rest.head? = some c → c.isDigit = false := fun c hc => (hrest c hc).1
  cases h with
  | none =>
    match rest, hrest with
    | [], _ => rfl
    | c :: rest, hrest =>
      rw [List.nil_append, takeFraction]
      intro tail heq
      cases heq
      exact (hrest '.' rfl).2 rfl
  | @digits ds hds =>
    rw [List.cons_append, takeFraction, Text.takeWhile_append_of_stop hds hstop,
      Text.dropWhile_append_of_stop hds hstop]

theorem length_le_takeFraction (h : IsFraction text) (rest : List Char) :
    text.length ≤ (takeFraction (text ++ rest)).1.length := by
  cases h with
  | none => exact Nat.zero_le _
  | @digits ds hds => exact Nat.succ_le_succ (length_le_takeWhile hds rest)

/-- A numeral is taken as a whole, if not more: each of its parts ends where the next one begins. -/
theorem length_le_takeNumber (h : IsNumeral text) (rest : List Char) :
    text.length ≤ (takeNumber (text ++ rest)).1.length := by
  obtain ⟨whole, fraction, exponent, rfl, hwhole, hfraction, hexponent⟩ := h
  simp only [takeNumber, List.append_assoc, List.length_append]
  -- With an exponent the parts before it are taken exactly; without one the last part may go on.
  by_cases hlast : exponent = []
  · subst hlast
    cases hfraction with
    | none =>
      have := length_le_takeWhile hwhole rest
      simp only [List.nil_append, List.length_nil]
      omega
    | @digits ds hds =>
      have hstop : ∀ c, ('.' :: (ds ++ rest)).head? = some c → c.isDigit = false := by
        intro c hc
        cases hc
        decide
      have := length_le_takeFraction (.digits hds) rest
      simp only [List.nil_append, List.cons_append, List.length_nil] at this ⊢
      rw [Text.takeWhile_append_of_stop hwhole hstop, Text.dropWhile_append_of_stop hwhole hstop]
      omega
  · have hafter := not_isDigit_of_isExponent hexponent hlast rest
    have hstop : ∀ c, (fraction ++ (exponent ++ rest)).head? = some c → c.isDigit = false := by
      intro c hc
      cases hfraction with
      | none => exact (hafter c hc).1
      | digits hds =>
        cases hc
        decide
    have := length_le_takeExponent hexponent rest
    rw [Text.takeWhile_append_of_stop hwhole hstop, Text.dropWhile_append_of_stop hwhole hstop,
      takeFraction_append hfraction hafter]
    dsimp only
    omega

theorem longest_takeNumber (cs : List Char) :
    Longest IsNumeral (takeNumber cs).1 (takeNumber cs).2 := by
  obtain ⟨hnumeral, happend⟩ := isNumeral_takeNumber cs
  refine ⟨hnumeral, ?_⟩
  intro text' htext' hprefix
  obtain ⟨rest', hrest'⟩ := hprefix
  have hle := length_le_takeNumber htext' rest'
  rwa [hrest', happend] at hle

/-! ## Symbols -/

theorem exists_takeSymbol? (h : IsSymbol text) (rest : List Char) :
    ∃ token rest', takeSymbol? (text ++ rest) = some (token, rest') ∧ rest'.length ≤ rest.length := by
  -- A longer symbol may begin like one of these two.
  have hlonger : ∀ c ∈ ['<', '>'], ∃ token rest',
      takeSymbol? (c :: rest) = some (token, rest') ∧ rest'.length ≤ rest.length := by
    intro c hc
    fin_cases hc <;> unfold takeSymbol? <;> split <;> grind
  obtain ⟨token, h⟩ := h
  simp only [symbols, List.mem_cons, Prod.mk.injEq, List.not_mem_nil, or_false] at h
  rcases h with ⟨rfl, -⟩ | ⟨rfl, -⟩ | ⟨rfl, -⟩ | ⟨rfl, -⟩ | ⟨rfl, -⟩ | ⟨rfl, -⟩ | ⟨rfl, -⟩ |
    ⟨rfl, -⟩ | ⟨rfl, -⟩ | ⟨rfl, -⟩ | ⟨rfl, -⟩ | ⟨rfl, -⟩ | ⟨rfl, -⟩ | ⟨rfl, -⟩
  all_goals first
    | exact ⟨_, _, rfl, Nat.le_refl _⟩
    | exact hlonger _ (by simp)

theorem mem_symbols_of_takeSymbol? (h : takeSymbol? cs = some (token, rest)) :
    ∃ text, text ++ rest = cs ∧ (text, token) ∈ symbols := by
  unfold takeSymbol? at h
  split at h <;> cases h
  case h_1 | h_2 | h_3 | h_4 | h_5 | h_6 => exact ⟨[_, _], rfl, by simp [symbols]⟩
  all_goals exact ⟨[_], rfl, by simp [symbols]⟩

theorem longest_of_takeSymbol? (h : takeSymbol? cs = some (token, rest)) :
    ∃ text, text ++ rest = cs ∧ (text, token) ∈ symbols ∧ Longest IsSymbol text rest := by
  obtain ⟨text, rfl, htoken⟩ := mem_symbols_of_takeSymbol? h
  refine ⟨text, rfl, htoken, ⟨token, htoken⟩, ?_⟩
  intro text' htext' hprefix
  obtain ⟨rest', hrest'⟩ := hprefix
  obtain ⟨token'', rest'', htake, hle⟩ := exists_takeSymbol? htext' rest'
  rw [hrest', h] at htake
  cases htake
  have := congrArg List.length hrest'
  simp only [List.length_append] at this
  omega

theorem eq_of_mem_symbols {token' : Token} (h : (text, token) ∈ symbols)
    (h' : (text, token') ∈ symbols) : token = token' := by
  have hnodup : (symbols.map Prod.fst).Nodup := by decide
  exact congrArg Prod.snd (List.inj_on_of_nodup_map hnodup h h' rfl)

theorem takeSymbol?_of_longest (h : Longest IsSymbol text rest) (htoken : (text, token) ∈ symbols) :
    takeSymbol? (text ++ rest) = some (token, rest) := by
  obtain ⟨token', rest', htake, -⟩ := exists_takeSymbol? h.1 rest
  obtain ⟨text', happend, htoken', hlongest⟩ := longest_of_takeSymbol? htake
  obtain ⟨rfl, rfl⟩ := hlongest.unique h happend
  rw [htake, eq_of_mem_symbols htoken htoken']

/-- No symbol starts like a blank or a numeral. -/
theorem exists_cons_of_isSymbol (h : IsSymbol text) :
    ∃ c tail, text = c :: tail ∧ Text.isBlank c = false ∧ (c.isDigit || c == '.') = false := by
  obtain ⟨token, h⟩ := h
  have hall : ∀ text ∈ symbols.map Prod.fst,
      (text.head?.any fun c => !Text.isBlank c && !(c.isDigit || c == '.')) = true := by
    decide
  have htext := hall text (List.mem_map_of_mem h)
  match text, htext with
  | c :: tail, htext => exact ⟨c, tail, rfl, by simpa using htext⟩

/-! ## Scanning -/

theorem takeToken_number {value : Float} (hc : c.isDigit = true ∨ c = '.')
    (htext : Longest IsNumeral (c :: text) rest) (hvalue : Number.read? (c :: text) = some value) :
    takeToken c (text ++ rest) = (.number value, rest) := by
  have hstart : (c.isDigit || c == '.') = true := by simpa using hc
  have htaken := (isNumeral_takeNumber (c :: (text ++ rest))).2
  have hsame := (longest_takeNumber (c :: (text ++ rest))).unique htext htaken
  simp only [takeToken, if_pos hstart, hsame.1, hsame.2, hvalue]

theorem takeToken_symbol (hc : (c.isDigit || c == '.') = false)
    (htext : Longest IsSymbol (c :: text) rest) (htoken : (c :: text, token) ∈ symbols) :
    takeToken c (text ++ rest) = (token, rest) := by
  have htake := takeSymbol?_of_longest htext htoken
  rw [List.cons_append] at htake
  rw [takeToken, if_neg (by simp [hc]), htake, Option.getD_some]

theorem exists_takeNumber_cons (hc : (c.isDigit || c == '.') = true) (rest : List Char) :
    ∃ text rest', takeNumber (c :: rest) = (c :: text, rest') ∧ text ++ rest' = rest := by
  have hlength := @length_takeNumber c rest hc
  have happend := (isNumeral_takeNumber (c :: rest)).2
  match htaken : takeNumber (c :: rest) with
  | ([], rest') =>
    rw [htaken] at hlength happend
    exact absurd (congrArg List.length happend) (Nat.ne_of_lt hlength)
  | (d :: text, rest') =>
    rw [htaken, List.cons_append] at happend
    obtain ⟨rfl, hrest⟩ := List.cons.inj happend
    exact ⟨text, rest', rfl, hrest⟩

/-- What is taken at the start of a text is a token of the grammar, unless it makes no token. -/
theorem lexes_takeToken (h : Lexes (takeToken c rest).2 tokens)
    (hgood : ∀ what, (takeToken c rest).1 ≠ .malformed what) :
    Lexes (c :: rest) ((takeToken c rest).1 :: tokens) := by
  by_cases hc : (c.isDigit || c == '.') = true
  · obtain ⟨text, rest', htaken, rfl⟩ := exists_takeNumber_cons hc rest
    have hlongest := longest_takeNumber (c :: (text ++ rest'))
    rw [htaken] at hlongest
    simp only [takeToken, if_pos hc, htaken] at h hgood ⊢
    cases hvalue : Number.read? (c :: text) with
    | none => exact absurd (by rw [hvalue]) (hgood (.number (String.ofList (c :: text))))
    | some value =>
      rw [hvalue] at h
      exact .number (by simpa using hc) hlongest hvalue h
  · simp only [takeToken, if_neg hc] at h hgood ⊢
    cases htake : takeSymbol? (c :: rest) with
    | none => exact absurd (by rw [htake]; rfl) (hgood (.character c))
    | some taken =>
      rw [htake] at h
      obtain ⟨text, happend, htoken, hlongest⟩ := longest_of_takeSymbol? htake
      rw [← happend]
      exact .symbol hlongest htoken h

theorem lexes_of_trimStart (h : Lexes (Text.trimStart cs) tokens) : Lexes cs tokens := by
  induction cs with
  | nil => exact h
  | cons c cs ih =>
    rw [Text.trimStart, List.dropWhile_cons] at h
    split at h
    next hc => exact .blank hc (ih h)
    next => exact h

theorem scanFrom_of_nil (h : Text.trimStart cs = []) (found : List Token) :
    scanFrom cs found = found.reverse := by
  rw [scanFrom]
  split
  next => rfl
  next heq => cases h.symm.trans heq

theorem scanFrom_of_cons (h : Text.trimStart cs = c :: rest) (found : List Token) :
    scanFrom cs found = scanFrom (takeToken c rest).2 ((takeToken c rest).1 :: found) := by
  rw [scanFrom]
  split
  next heq => cases h.symm.trans heq
  next heq =>
    cases h.symm.trans heq
    rfl

theorem scanFrom_blank (hc : Text.isBlank c = true) (found : List Token) :
    scanFrom (c :: cs) found = scanFrom cs found := by
  have htrim : Text.trimStart (c :: cs) = Text.trimStart cs := List.dropWhile_cons_of_pos hc
  cases hcs : Text.trimStart cs with
  | nil => rw [scanFrom_of_nil hcs, scanFrom_of_nil (htrim.trans hcs)]
  | cons d rest => rw [scanFrom_of_cons hcs, scanFrom_of_cons (htrim.trans hcs)]

theorem scanFrom_cons (hc : Text.isBlank c = false) (found : List Token) :
    scanFrom (c :: cs) found = scanFrom (takeToken c cs).2 ((takeToken c cs).1 :: found) := by
  exact scanFrom_of_cons (List.dropWhile_cons_of_neg (by simp [hc])) found

theorem scanFrom_of_lexes (h : Lexes cs tokens) (found : List Token) :
    scanFrom cs found = found.reverse ++ tokens := by
  induction h generalizing found with
  | nil => rw [scanFrom_of_nil rfl, List.append_nil]
  | blank hc _ ih => rw [scanFrom_blank hc, ih]
  | @number c text rest value tokens hc htext hvalue _ ih =>
    have hblank : Text.isBlank c = false := by
      rcases hc with hc | rfl
      · exact Text.isBlank_of_isAlphanum (Text.isAlphanum_iff.2 (Or.inr hc))
      · decide
    rw [List.cons_append, scanFrom_cons hblank, takeToken_number hc htext hvalue, ih]
    simp
  | @symbol text rest token tokens htext htoken _ ih =>
    obtain ⟨c, tail, rfl, hblank, hc⟩ := exists_cons_of_isSymbol ⟨token, htoken⟩
    rw [List.cons_append, scanFrom_cons hblank, takeToken_symbol hc htext htoken, ih]
    simp

/-- The converse: scanning takes the tokens of the grammar until it meets a fault. -/
theorem lexes_of_scanFrom {found : List Token} (h : ∀ what, .malformed what ∉ scanFrom cs found) :
    ∃ tokens, Lexes cs tokens ∧ scanFrom cs found = found.reverse ++ tokens := by
  fun_induction scanFrom cs found with
  | case1 cs found hcs => exact ⟨[], lexes_of_trimStart (hcs ▸ .nil), (List.append_nil _).symm⟩
  | case2 cs found c rest hcs ih =>
    obtain ⟨tokens, hlexes, htokens⟩ := ih h
    refine ⟨(takeToken c rest).1 :: tokens, lexes_of_trimStart ?_, by simp [htokens]⟩
    rw [hcs]
    refine lexes_takeToken hlexes ?_
    intro what hwhat
    refine h what ?_
    rw [htokens, hwhat]
    simp

theorem number_or_symbol_of_mem (h : Lexes cs tokens) (htoken : token ∈ tokens) :
    (∃ value, token = .number value) ∨ ∃ text, (text, token) ∈ symbols := by
  induction h with
  | nil => cases htoken
  | blank _ _ ih => exact ih htoken
  | number _ _ _ _ ih =>
    rcases List.mem_cons.1 htoken with rfl | htail
    · exact Or.inl ⟨_, rfl⟩
    · exact ih htail
  | symbol _ hsymbol _ ih =>
    rcases List.mem_cons.1 htoken with rfl | htail
    · exact Or.inr ⟨_, hsymbol⟩
    · exact ih htail

/-- The grammar knows no faulty token, and it leaves open which minus signs are signs. -/
theorem notMem_of_lexes (h : Lexes cs tokens) :
    (∀ what, .malformed what ∉ tokens) ∧ .operator .negate ∉ tokens := by
  refine ⟨fun what hmem => ?_, fun hmem => ?_⟩ <;>
    rcases number_or_symbol_of_mem h hmem with ⟨value, heq⟩ | ⟨text, hsymbol⟩
  case refine_1.inl | refine_2.inl => cases heq
  case refine_1.inr | refine_2.inr => simp [symbols] at hsymbol

/-- Scanning without a fault is cutting by the lexical grammar. -/
theorem lexes_iff : Lexes cs tokens ↔ scan cs = tokens ∧ ∀ what, .malformed what ∉ tokens := by
  constructor
  case mp =>
    intro h
    exact ⟨scanFrom_of_lexes h [], (notMem_of_lexes h).1⟩
  case mpr =>
    intro h
    obtain ⟨rfl, hgood⟩ := h
    obtain ⟨tokens, hlexes, htokens⟩ := lexes_of_scanFrom hgood
    rwa [scan, htokens]

end SheetScript.Arithmetic
