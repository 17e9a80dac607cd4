import AddressSpace.Proofs.Json.Dialect

/-!
The lexical grammar of JSON texts: which characters spell strings, numbers and words, and how these and
marks follow each other. Whatever is spelled like that is read as the tokens that it spells, in every
dialect. The readers take more than that, such as the words for numbers that are not finite.
-/

namespace AddressSpace.Json.Grammar

/-! ### Strings -/

-- Characters that stand for themselves.
def Unescaped (c : Char) : Prop :=
  0x20 ≤ c.toNat ∧ c ≠ '"' ∧ c ≠ '\\'

-- The letters of short escapes, and what they stand for.
def escapes : List (Char × Char) :=
  [('"', '"'), ('\\', '\\'), ('/', '/'), ('b', '\x08'), ('f', '\x0c'), ('n', '\n'), ('r', '\r'), ('t', '\t')]

-- What is spelled between quotes. An escape by number is a character of its own, or one half of a pair
-- that makes a character.
inductive Body : List Char → List Char → Prop
  | nil : Body [] []
  | char {c cs t} (h : Unescaped c) : Body cs t → Body (c :: cs) (c :: t)
  | escape {e c cs t} (h : (e, c) ∈ escapes) : Body cs t → Body ('\\' :: e :: cs) (c :: t)
  | number {x₁ x₂ x₃ x₄ n cs t} (h : fourDigits? x₁ x₂ x₃ x₄ = some n) (hn : n < 0xd800 ∨ 0xdfff < n) :
    Body cs t → Body ('\\' :: 'u' :: x₁ :: x₂ :: x₃ :: x₄ :: cs) (Char.ofNat n :: t)
  | pair {x₁ x₂ x₃ x₄ n y₁ y₂ y₃ y₄ m cs t} (h : fourDigits? x₁ x₂ x₃ x₄ = some n)
    (hn : 0xd800 ≤ n ∧ n ≤ 0xdbff) (h' : fourDigits? y₁ y₂ y₃ y₄ = some m) (hm : 0xdc00 ≤ m ∧ m ≤ 0xdfff) :
    Body cs t → Body ('\\' :: 'u' :: x₁ :: x₂ :: x₃ :: x₄ :: '\\' :: 'u' :: y₁ :: y₂ :: y₃ :: y₄ :: cs)
      (Char.ofNat (0x10000 + (n - 0xd800) * 0x400 + (m - 0xdc00)) :: t)

-- Characters with an escape for each quote and each backslash.
def escaped (cs : List Char) : List Char :=
  cs.flatMap fun c => if c = '"' ∨ c = '\\' then ['\\', c] else [c]

theorem body_escaped {cs : List Char} (h : ∀ c ∈ cs, 0x20 ≤ c.toNat) : Body (escaped cs) cs := by
  induction cs
  case nil => exact .nil
  case cons c cs hi =>
    have ⟨hc, hcs⟩ := List.forall_mem_cons.mp h
    by_cases he : c = '"' ∨ c = '\\'
    case pos =>
      have hm : (c, c) ∈ escapes := by rcases he with rfl | rfl <;> decide
      simpa [escaped, he] using Body.escape hm (hi hcs)
    case neg =>
      have ⟨hq, hb⟩ := not_or.mp he
      simpa [escaped, he] using Body.char ⟨hc, hq, hb⟩ (hi hcs)

/-! ### Numbers -/

-- One digit or more.
structure Digits (ds : List Char) : Prop where
  ne_nil : ds ≠ []
  digits : ∀ c ∈ ds, c.isDigit

def digitsOf (ds : List Char) : List Nat :=
  ds.map fun c => c.toNat - '0'.toNat

inductive Sign : List Char → Bool → Prop
  | absent : Sign [] false
  | minus  : Sign ['-'] true

-- A whole part starts with no zero, unless that is all of it.
inductive WholePart : List Char → Prop
  | zero : WholePart ['0']
  | digits {c ds} (h : Digits (c :: ds)) (hz : c ≠ '0') : WholePart (c :: ds)

inductive Fraction : List Char → Option (List Nat) → Prop
  | absent : Fraction [] none
  | digits {ds} (h : Digits ds) : Fraction ('.' :: ds) (some (digitsOf ds))

inductive Exponent : List Char → Option Int → Prop
  | absent : Exponent [] none
  | bare {e ds} (he : e = 'e' ∨ e = 'E') (h : Digits ds) :
    Exponent (e :: ds) (some (Text.ofDigits 10 (digitsOf ds)))
  | plus {e ds} (he : e = 'e' ∨ e = 'E') (h : Digits ds) :
    Exponent (e :: '+' :: ds) (some (Text.ofDigits 10 (digitsOf ds)))
  | minus {e ds} (he : e = 'e' ∨ e = 'E') (h : Digits ds) :
    Exponent (e :: '-' :: ds) (some (-Text.ofDigits 10 (digitsOf ds)))

inductive Numeric : List Char → Numeral → Prop
  | parts {sign whole fraction exponent negative f? e?} (hs : Sign sign negative) (hw : WholePart whole)
    (hf : Fraction fraction f?) (he : Exponent exponent e?) :
    Numeric (sign ++ (whole ++ (fraction ++ exponent))) ⟨negative, digitsOf whole, f?, e?⟩

/-! ### Tokens -/

def literals : List (String × Json) :=
  [("null", .null), ("true", .bool true), ("false", .bool false)]

-- No word or number goes on here.
def Ends (cs : List Char) : Prop :=
  ∀ c ∈ cs.head?, ¬ isBare c

-- Characters that spell tokens. A number stays within the limit of every reader: the strict one counts a sign
-- as one more digit of the whole part.
inductive Lexes : List Char → List Token → Prop
  | nil : Lexes [] []
  | space {c cs ts} (h : isSpace c) : Lexes cs ts → Lexes (c :: cs) ts
  | mark {c token cs ts} (h : Token.mark? c = some token) : Lexes cs ts → Lexes (c :: cs) (token :: ts)
  | string {body t cs ts} (h : Body body t) :
    Lexes cs ts → Lexes ('"' :: (body ++ '"' :: cs)) (.string (Text.ofChars t) :: ts)
  | literal {w v cs ts} (h : (w, v) ∈ literals) (he : Ends cs) :
    Lexes cs ts → Lexes (w.toList ++ cs) (.scalar v :: ts)
  | number {w numeral cs ts} (h : Numeric w numeral) (hn : numeral.width ≤ Text.maxDigits)
    (he : Ends cs) : Lexes cs ts → Lexes (w ++ cs) (.scalar (.number numeral.value) :: ts)

/-! ### Strings are read -/

variable {c e x₁ x₂ x₃ x₄ : Char} {cs t body ds rest w : List Char} {pieces : List Piece} {n : Nat} {u : Text}

theorem scanString_of_unescaped (h : Unescaped c) (hs : scanString cs = some (pieces, rest)) :
    scanString (c :: cs) = some (.char c :: pieces, rest) := by
  have ⟨hc, hq, he⟩ := h
  unfold scanString
  split <;> simp_all

theorem shortEscape?_of_mem (h : (e, c) ∈ escapes) : shortEscape? e = some c ∧ e ≠ 'u' := by
  have ha : escapes.all fun p => shortEscape? p.1 = some p.2 ∧ p.1 ≠ 'u' := by decide
  simpa using List.all_eq_true.mp ha _ h

theorem scanString_of_escape (h : (e, c) ∈ escapes) (hs : scanString cs = some (pieces, rest)) :
    scanString ('\\' :: e :: cs) = some (.char c :: pieces, rest) := by
  have ⟨he, hu⟩ := shortEscape?_of_mem h
  rw [scanString]
  · simp [he, hs]
  · simp [hu]

theorem hexDigit?_lt (h : Text.hexDigit? c = some n) : n < 16 := by
  unfold Text.hexDigit? at h
  grind

theorem fourDigits?_lt (h : fourDigits? x₁ x₂ x₃ x₄ = some n) : n < 0x10000 := by
  simp only [fourDigits?, List.mapM_cons, List.mapM_nil, Option.bind_eq_bind, Option.pure_def, Option.bind_some,
    Option.bind_eq_some_iff, Option.some.injEq] at h
  obtain ⟨_, ⟨_, h₁, _, ⟨_, h₂, _, ⟨_, h₃, _, ⟨_, h₄, rfl⟩, rfl⟩, rfl⟩, rfl⟩, rfl⟩ := h
  have := hexDigit?_lt h₁
  have := hexDigit?_lt h₂
  have := hexDigit?_lt h₃
  have := hexDigit?_lt h₄
  simp only [Text.ofDigits, List.foldl_cons, List.foldl_nil]
  omega

theorem single_of_not_surrogate (h : n < 0x10000) (hn : n < 0xd800 ∨ 0xdfff < n) :
    single false n = some (.char (Char.ofNat n)) := by
  have hs : (isHighSurrogate n || isLowSurrogate n) = false := by
    simp [isHighSurrogate, isLowSurrogate]
    omega
  have hh : ¬ (0xd800 ≤ n ∧ n < 0xe000) := by omega
  have hl : n < 0x110000 := by omega
  simp [single, CodePoint.ofNat?, hs, hh, hl]

theorem assemble_unit (hs : single false n = some (.char c)) (hh : isHighSurrogate n = false)
    (ha : assemble false pieces = some u) : assemble false (.unit n :: pieces) = some (.char c :: u) := by
  unfold assemble
  split <;> simp_all

-- A string is read up to its closing quote.
theorem scanString_of_body (h : Body body t) : ∃ pieces,
    (∀ rest, scanString (body ++ '"' :: rest) = some (pieces, rest))
    ∧ assemble false pieces = some (Text.ofChars t) := by
  induction h
  case nil => exact ⟨[], fun _ => rfl, rfl⟩
  case char c _ _ h _ hi =>
    obtain ⟨pieces, hs, ha⟩ := hi
    refine ⟨.char c :: pieces, fun rest => scanString_of_unescaped h (hs rest), ?_⟩
    simp [assemble, ha, Text.ofChars]
  case escape c _ _ h _ hi =>
    obtain ⟨pieces, hs, ha⟩ := hi
    refine ⟨.char c :: pieces, fun rest => scanString_of_escape h (hs rest), ?_⟩
    simp [assemble, ha, Text.ofChars]
  case number n _ _ h hn _ hi =>
    obtain ⟨pieces, hs, ha⟩ := hi
    have hh : isHighSurrogate n = false := by
      simp [isHighSurrogate]
      omega
    refine ⟨.unit n :: pieces, fun rest => by simp [scanString, h, hs], ?_⟩
    exact assemble_unit (single_of_not_surrogate (fourDigits?_lt h) hn) hh ha
  case pair n _ _ _ _ m _ _ h hn h' hm _ hi =>
    obtain ⟨pieces, hs, ha⟩ := hi
    refine ⟨.unit n :: .unit m :: pieces, fun rest => by simp [scanString, h, h', hs], ?_⟩
    simp [assemble, isHighSurrogate, isLowSurrogate, hn, hm, ha, Text.ofChars]

/-! ### Numbers are read -/

variable {f? : Option (List Nat)} {e? : Option Int} {numeral : Numeral} {fraction exponent : List Char}

theorem Digits.head (h : Digits (c :: ds)) : c.isDigit :=
  h.digits c (.head _)

theorem WholePart.toDigits (h : WholePart w) : Digits w := by
  cases h
  case zero => exact ⟨by simp, by simp⟩
  case digits h _ => exact h

theorem WholePart.exists_cons (h : WholePart w) : ∃ c ds, w = c :: ds ∧ c.isDigit := by
  obtain ⟨c, ds, rfl⟩ := List.exists_cons_of_ne_nil h.toDigits.ne_nil
  exact ⟨c, ds, rfl, h.toDigits.head⟩

theorem Exponent.head (h : Exponent cs e?) : ∀ c ∈ cs.head?, c = 'e' ∨ c = 'E' := by
  cases h <;> simp_all

-- A run of characters of one kind ends where another kind comes next.
theorem run_append {p : Char → Bool} (hd : ∀ c ∈ ds, p c) (hr : ∀ c ∈ rest.head?, ¬ p c) :
    (ds ++ rest).takeWhile p = ds ∧ (ds ++ rest).dropWhile p = rest := by
  rw [List.takeWhile_append_of_pos hd, List.dropWhile_append_of_pos hd]
  cases rest
  case nil  => simp
  case cons => simpa using hr

theorem scanDigits_append (hd : ∀ c ∈ ds, c.isDigit) (hr : ∀ c ∈ rest.head?, ¬ c.isDigit) :
    scanDigits (ds ++ rest) = (digitsOf ds, rest) := by
  have ⟨ht, hd⟩ := run_append hd hr
  simp [scanDigits, ht, hd, digitsOf]

theorem Digits.scan (h : Digits ds) (hr : ∀ c ∈ rest.head?, ¬ c.isDigit) :
    ∃ x xs, digitsOf ds = x :: xs ∧ scanDigits (ds ++ rest) = (x :: xs, rest) := by
  have hn : digitsOf ds ≠ [] := by simpa [digitsOf] using h.ne_nil
  obtain ⟨x, xs, hx⟩ := List.exists_cons_of_ne_nil hn
  exact ⟨x, xs, hx, hx ▸ scanDigits_append h.digits hr⟩

theorem Digits.scan_end (h : Digits ds) : ∃ x xs, digitsOf ds = x :: xs ∧ scanDigits ds = (x :: xs, []) := by
  have hn : ∀ c ∈ ([] : List Char).head?, ¬ c.isDigit := by simp
  simpa using h.scan hn

theorem Digits.scanSign (h : Digits ds) : scanSign ds = (false, ds) := by
  obtain ⟨c, ds, rfl⟩ := List.exists_cons_of_ne_nil h.ne_nil
  have hc := h.head
  unfold Json.scanSign
  split <;> simp_all

theorem scanFraction_of_fraction (h : Fraction cs f?) (hr : ∀ c ∈ rest.head?, ¬ c.isDigit ∧ c ≠ '.') :
    scanFraction (cs ++ rest) = (f?, rest) := by
  cases h
  case absent =>
    cases rest
    case nil => rfl
    case cons c rest =>
      have ⟨_, hc⟩ := hr c rfl
      simp [scanFraction, hc]
  case digits h =>
    obtain ⟨x, xs, hx, hs⟩ := h.scan fun c hc => (hr c hc).left
    simp [scanFraction, hs, hx]

theorem scanExponent_of_exponent (h : Exponent cs e?) : scanExponent cs = (e?, []) := by
  cases h
  case absent => rfl
  case bare he h =>
    obtain ⟨x, xs, hx, hs⟩ := h.scan_end
    simp [scanExponent, h.scanSign, hs, hx, he]
  case plus he h | minus he h =>
    obtain ⟨x, xs, hx, hs⟩ := h.scan_end
    simp [scanExponent, scanSign, hs, hx, he]

theorem scanParts_of_parts {negative : Bool} {whole : List Nat} (hf : Fraction fraction f?)
    (he : Exponent exponent e?) :
    scanNumeral.scanParts negative whole (fraction ++ exponent) = (⟨negative, whole, f?, e?⟩, []) := by
  have hs : scanFraction (fraction ++ exponent) = (f?, exponent) := scanFraction_of_fraction hf fun c hc => by
    rcases he.head c hc with rfl | rfl <;> decide
  simp [scanNumeral.scanParts, hs, scanExponent_of_exponent he]

-- A number behind its sign.
def unsigned (negative : Bool) (cs : List Char) : Option (Numeral × List Char) :=
  match scanDigits cs with
  | ([], _) => none
  | (0 :: _, _) => some (scanNumeral.scanParts negative [0] (cs.drop 1))
  | (whole, rest) => some (scanNumeral.scanParts negative whole rest)

theorem scanNumeral_of_head (h : c ≠ '-') : scanNumeral (c :: cs) = unsigned false (c :: cs) := by
  simp [scanNumeral, h]
  rfl

theorem digit_ne_zero (h : c.isDigit) (hz : c ≠ '0') : c.toNat - '0'.toNat ≠ 0 := by
  have hl : '0'.toNat ≤ c.toNat := by
    simp only [Char.isDigit, Bool.and_eq_true, decide_eq_true_eq] at h
    exact h.left
  have hn : c.toNat ≠ '0'.toNat := fun he => hz (Char.toNat_inj.mp he)
  omega

theorem unsigned_of_wholePart {negative : Bool} (hw : WholePart w) (hr : ∀ c ∈ rest.head?, ¬ c.isDigit) :
    unsigned negative (w ++ rest) = some (scanNumeral.scanParts negative (digitsOf w) rest) := by
  simp only [unsigned, scanDigits_append hw.toDigits.digits hr]
  cases hw
  case zero => simp [digitsOf]
  case digits c cs h hz =>
    obtain ⟨n, hn⟩ := Nat.exists_eq_succ_of_ne_zero (digit_ne_zero h.head hz)
    simp only [digitsOf, List.map_cons, hn]

theorem head_of_parts (hf : Fraction fraction f?) (he : Exponent exponent e?) :
    ∀ c ∈ (fraction ++ exponent).head?, ¬ c.isDigit := by
  intro c hc
  cases hf
  case absent => rcases he.head c hc with rfl | rfl <;> decide
  case digits =>
    cases hc
    decide

theorem scanNumeral_of_numeric (h : Numeric w numeral) : scanNumeral w = some (numeral, []) := by
  cases h
  case parts sign whole fraction exponent negative f? e? hs hw hf he =>
    have hu (b : Bool) :
        unsigned b (whole ++ (fraction ++ exponent)) = some (⟨b, digitsOf whole, f?, e?⟩, []) := by
      rw [unsigned_of_wholePart hw (head_of_parts hf he), scanParts_of_parts hf he]
    cases hs
    case minus => exact hu true
    case absent =>
      obtain ⟨c, ds, rfl, hc⟩ := hw.exists_cons
      refine (scanNumeral_of_head ?_).trans (hu false)
      rintro rfl
      cases hc

theorem isBare_of_isDigit (h : c.isDigit) : isBare c := by
  simp [isBare, Char.isAlphanum, h]

theorem Digits.isBare (h : Digits ds) : ∀ c ∈ ds, isBare c :=
  fun c hc => isBare_of_isDigit (h.digits c hc)

theorem Exponent.isBare (h : Exponent cs e?) : ∀ c ∈ cs, isBare c := by
  have mark {e : Char} (h : e = 'e' ∨ e = 'E') : Json.isBare e := by rcases h with rfl | rfl <;> decide
  cases h
  case absent => simp
  case bare he h => exact List.forall_mem_cons.mpr ⟨mark he, h.isBare⟩
  case plus he h | minus he h =>
    exact List.forall_mem_cons.mpr ⟨mark he, List.forall_mem_cons.mpr ⟨by decide, h.isBare⟩⟩

theorem Fraction.isBare (h : Fraction cs f?) : ∀ c ∈ cs, isBare c := by
  cases h
  case absent   => simp
  case digits h => exact List.forall_mem_cons.mpr ⟨by decide, h.isBare⟩

theorem Sign.isBare {negative : Bool} (h : Sign cs negative) : ∀ c ∈ cs, isBare c := by
  cases h
  case absent => simp
  case minus  => exact List.forall_mem_cons.mpr ⟨by decide, by simp⟩

theorem Numeric.isBare (h : Numeric w numeral) : ∀ c ∈ w, isBare c := by
  cases h
  case parts hs hw hf he =>
    simp only [List.mem_append]
    rintro c (hc | hc | hc | hc)
    · exact hs.isBare c hc
    · exact hw.toDigits.isBare c hc
    · exact hf.isBare c hc
    · exact he.isBare c hc

-- A number starts with a digit, or with a sign and a digit.
theorem Numeric.head (h : Numeric w numeral) : (w.take 2).any Char.isDigit := by
  cases h
  case parts hs hw hf he =>
    obtain ⟨c, ds, rfl, hc⟩ := hw.exists_cons
    cases hs
    case absent => simp [hc]
    case minus  => simp [hc]

theorem Numeric.ne_nil (h : Numeric w numeral) : w ≠ [] := by
  rintro rfl
  cases h.head

/-! ### Tokens are read -/

variable {d : Dialect} {v : Json} {token : Token} {ts : List Token}

theorem word?_of_numeric (h : Numeric w numeral) : word? w = none := by
  have hn {s : String} (hs : (s.toList.take 2).any Char.isDigit = false) : w ≠ s.toList := by
    rintro rfl
    simp [h.head] at hs
  simp (disch := decide) only [word?, hn, if_false]

-- A number is one token, unless its whole part is longer than the dialect allows.
theorem bareToken_eq_of_numeric (h : Numeric w numeral) : bareToken d w =
    if numeral.isOverlong d then .overlong numeral.whole.length else .scalar (.number numeral.value) := by
  simp [bareToken, word?_of_numeric h, scanNumeral_of_numeric h]

theorem bareToken_of_numeric (h : Numeric w numeral) (hn : numeral.width ≤ Text.maxDigits) :
    bareToken d w = .scalar (.number numeral.value) := by
  have hw : numeral.whole.length ≤ Text.maxDigits := Nat.le_trans (Nat.le_add_right _ _) hn
  have ho : numeral.isOverlong d = false := by
    cases hs : d.countsSign <;> simp [Numeral.isOverlong, hs, Nat.not_lt.mpr hn, Nat.not_lt.mpr hw]
  simp [bareToken_eq_of_numeric h, ho]

theorem bareToken_of_literal {w : String} (h : (w, v) ∈ literals) :
    w.toList ≠ [] ∧ (∀ c ∈ w.toList, isBare c) ∧ bareToken d w.toList = .scalar v := by
  simp only [literals, List.mem_cons, Prod.mk.injEq, List.not_mem_nil, or_false] at h
  rcases h with ⟨rfl, rfl⟩ | ⟨rfl, rfl⟩ | ⟨rfl, rfl⟩
  all_goals simp [bareToken, word?, isBare]

-- Characters that start other tokens than words and numbers.
def others : List Char :=
  [' ', '\t', '\n', '\r', '[', ']', '\x7b', '\x7d', ',', ':', '"']

theorem other_of_isBare (h : isBare c) : isSpace c = false ∧ Token.mark? c = none ∧ c ≠ '"' := by
  have hb : others.all fun d => !isBare d := by decide
  have hn : ∀ d ∈ others, c ≠ d := by
    rintro d hd rfl
    simpa [h] using List.all_eq_true.mp hb c hd
  simp only [others, List.forall_mem_cons] at hn
  simp [isSpace, Token.mark?, hn]

theorem not_isSpace_of_mark (h : Token.mark? c = some token) : isSpace c = false := by
  by_contra hs
  simp only [isSpace, Bool.or_eq_true, decide_eq_true_eq, Bool.not_eq_false] at hs
  rcases hs with ((rfl | rfl) | rfl) | rfl <;> cases h

theorem tokens_bare (hw : w ≠ []) (hb : ∀ c ∈ w, isBare c) (he : Ends cs) :
    tokens d (w ++ cs) = bareToken d w :: tokens d cs := by
  obtain ⟨c, w, rfl⟩ := List.exists_cons_of_ne_nil hw
  have ⟨hc, hcs⟩ := List.forall_mem_cons.mp hb
  have ⟨hs, hm, hq⟩ := other_of_isBare hc
  have ⟨ht, hd⟩ := run_append hcs he
  simp [tokens, hs, hm, hq, hc, ht, hd]

theorem tokens_of_lexes (h : Lexes cs ts) : tokens d cs = ts := by
  induction h
  case nil => simp [tokens]
  case space h _ hi => simp [tokens, h, hi]
  case mark h _ hi => simp [tokens, not_isSpace_of_mark h, h, hi]
  case string h _ hi =>
    obtain ⟨pieces, hs, ha⟩ := scanString_of_body h
    have ha : assemble d.halves pieces = some _ := assemble_of_assemble (absurd · Bool.false_ne_true) ha
    rw [tokens_string (hs _) ha, hi]
  case literal h he _ hi =>
    obtain ⟨hw, hb, ht⟩ := bareToken_of_literal (d := d) h
    rw [tokens_bare hw hb he, ht, hi]
  case number h hn he _ hi =>
    rw [tokens_bare h.ne_nil h.isBare he, bareToken_of_numeric h hn, hi]

end AddressSpace.Json.Grammar
