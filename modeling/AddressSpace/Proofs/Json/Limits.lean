import AddressSpace.Proofs.Json.Grammar

/-!
The limits of the strict reader. It refuses texts that files may hold: those that nest too deep, and those
with too many digits in front of a fraction or an exponent.
-/

namespace AddressSpace.Json.Grammar

variable {d : Dialect} {n depth : Nat} {c : Char} {cs w : List Char} {token : Token} {ts : List Token} {v : Json}
variable {stack : List Frame} {numeral : Numeral}

-- The text of an object that holds one value, under the key "x".
def wrapped (cs : List Char) : List Char :=
  '\x7b' :: '"' :: 'x' :: '"' :: ':' :: (cs ++ ['\x7d'])

theorem tokens_wrapped : tokens d (wrapped cs) =
    .openObject :: .string "x" :: .colon :: tokens d (cs ++ ['\x7d']) := by
  have hq : scanString ('x' :: '"' :: ':' :: (cs ++ ['\x7d'])) = some ([.char 'x'], ':' :: (cs ++ ['\x7d'])) := rfl
  have hs : tokens d ('"' :: 'x' :: '"' :: ':' :: (cs ++ ['\x7d'])) =
      .string "x" :: tokens d (':' :: (cs ++ ['\x7d'])) := tokens_string hq rfl
  simp [wrapped, tokens, hs, isSpace, Token.mark?]

/-! ### Nesting -/

-- Arrays in each other, each of which holds the next, up to an empty one.
def arrays : Nat → Json
  | 0 => .arr []
  | n + 1 => .arr [arrays n]

-- Marks that open arrays, and as many that close them.
def brackets {α : Type} (n : Nat) (opening closing : α) : List α :=
  List.replicate (n + 1) opening ++ List.replicate (n + 1) closing

-- An object with arrays in each other.
def nested (n : Nat) : List Char :=
  wrapped (brackets n '[' ']')

theorem lexes_replicate (h : Token.mark? c = some token) (hl : Lexes cs ts) :
    Lexes (List.replicate n c ++ cs) (List.replicate n token ++ ts) := by
  induction n
  case zero      => exact hl
  case succ n hi => exact .mark h hi

theorem lexes_brackets (n : Nat) : Lexes (brackets n '[' ']' ++ ['\x7d'])
    (brackets n .openArray .closeArray ++ [.closeObject]) := by
  have hl := lexes_replicate (n := n + 1) (c := ']') rfl (.mark (c := '\x7d') rfl .nil)
  simpa [brackets] using lexes_replicate (n := n + 1) (c := '[') rfl hl

theorem makes_arrays (n : Nat) : Makes n (brackets n .openArray .closeArray) (.value (arrays n)) := by
  induction n
  case zero      => exact .emptyArray
  case succ n hi =>
    have he : brackets (n + 1) Token.openArray .closeArray =
        .openArray :: (brackets n .openArray .closeArray ++ [.closeArray]) := by
      simp [brackets, List.replicate_succ (n := n + 1), ← List.replicate_succ']
    exact he ▸ .array (.lastItem hi)

theorem spells_nested (n : Nat) : Spells (n + 1) (nested n) (.obj [("x", arrays n)]) := by
  have hx : Unescaped 'x' := ⟨by decide, by decide, by decide⟩
  refine ⟨_, ?_, .object (.lastMember (makes_arrays n))⟩
  exact .mark rfl (.string (.char hx .nil) (.mark rfl (lexes_brackets n)))

-- The array that goes beyond the limit is refused before what it holds is read.
theorem run_openArrays (hd : d.emptyCounts = false) (hs : stack.length ≤ d.maxDepth)
    (hn : d.maxDepth < stack.length + n) :
    run d (.firstItem stack) (List.replicate n .openArray ++ ts) = .error (.tooDeep .array) := by
  induction n generalizing stack
  case zero => omega
  case succ n hi =>
    rw [List.replicate_succ, List.cons_append]
    cases Nat.lt_or_ge stack.length d.maxDepth
    case inl hl =>
      have he : d.enter .array stack = .ok () := enter_eq_ok_iff.mpr hl
      have hs : State.step d (.firstItem stack) .openArray = .ok (.firstItem (.array [] :: stack)) := by
        simp [State.step, State.start, he, hd]
      rw [run_cons hs]
      exact hi hl (by simp only [List.length_cons]; omega)
    case inr hg => simp [run, State.step, Dialect.enter, Nat.not_lt.mpr hg]

-- The object is the first level, and the outermost array is entered once it holds something.
theorem read_nested_of_le (hd : d.emptyCounts = false) (hp : 0 < d.maxDepth) (hn : d.maxDepth ≤ n) :
    read d (nested n) = .error (.tooDeep .array) := by
  have he : d.enter .object [] = .ok () := enter_eq_ok_iff.mpr hp
  have hobject : State.step d (.value []) .openObject = .ok (.firstKey []) := by simp [State.step, State.start, hd]
  have hkey : State.step d (.firstKey []) (.string "x") = .ok (.colon [] [] "x") := by simp [State.step, he]
  have harray : State.step d (.value [.object [] "x"]) .openArray = .ok (.firstItem [.object [] "x"]) := by
    simp [State.step, State.start, hd]
  have hr : run d (.value []) (tokens d (nested n)) = .error (.tooDeep .array) := by
    rw [nested, tokens_wrapped, tokens_of_lexes (lexes_brackets n), brackets, List.replicate_succ, List.append_assoc]
    rw [run_cons hobject, run_cons hkey, run_cons rfl, List.cons_append, run_cons harray]
    exact run_openArrays hd hp (by simp only [List.length_singleton]; omega)
  rw [run] at hr
  simp only [read, hr, Outcome.error_bind]

-- Where the strict reader stops, files go on.
theorem read_nested (h : Dialect.strict.maxDepth ≤ n) (hn : n + 1 < depth) :
    read .strict (nested n) = .error (.tooDeep .array)
    ∧ read (.lenient depth) (nested n) = .ok (.obj [("x", arrays n)]) :=
  ⟨read_nested_of_le rfl (by decide) h, read_lenient_of_spells (spells_nested n) hn⟩

/-! ### Long numbers -/

theorem tokens_wrapped_of_numeric (h : Numeric w numeral) :
    tokens d (wrapped w) = [.openObject, .string "x", .colon, bareToken d w, .closeObject] := by
  have he : Ends ['\x7d'] := by simp [Ends, isBare]
  rw [tokens_wrapped, tokens_bare h.ne_nil h.isBare he, tokens_of_lexes (.mark rfl .nil)]

-- Only the strict reader counts the digits in front of a fraction or an exponent.
theorem read_wrapped_of_long (h : Numeric w numeral) (hw : numeral.isWhole = false)
    (hl : Text.maxDigits < numeral.width) (hd : 0 < depth) :
    read .strict (wrapped w) = .error (.overlong numeral.whole.length)
    ∧ read (.lenient depth) (wrapped w) = .ok (.obj [("x", .number numeral.value)]) := by
  have hs : numeral.isOverlong .strict = true := by simp [Numeral.isOverlong, hl, Dialect.strict]
  have hf : numeral.isOverlong (.lenient depth) = false := by simp [Numeral.isOverlong, hw, Dialect.lenient]
  have he : (Dialect.lenient depth).enter .object [] = .ok () := enter_eq_ok_iff.mpr hd
  have hstart : State.step (.lenient depth) (.value []) .openObject = .ok (.firstKey []) := by
    simp [State.step, State.start, he]
  have hkey : State.step (.lenient depth) (.firstKey []) (.string "x") = .ok (.colon [] [] "x") := by
    simp [State.step, he]
  constructor
  case left =>
    simp only [read, tokens_wrapped_of_numeric h, bareToken_eq_of_numeric h, hs]
    rfl
  case right =>
    simp only [read, tokens_wrapped_of_numeric h, bareToken_eq_of_numeric h, hf, List.foldlM_cons, hstart,
      Outcome.ok_bind, hkey]
    rfl

-- The digits in front of a fraction, one more than their argument says.
def ones (n : Nat) : List Char :=
  List.replicate (n + 1) '1'

theorem numeric_ones (n : Nat) :
    Numeric (ones n ++ ['.', '5']) ⟨false, digitsOf (ones n), some [5], none⟩ := by
  have hd : ∀ c ∈ '1' :: List.replicate n '1', c.isDigit := by simp
  have hw : WholePart (ones n) := .digits ⟨nofun, hd⟩ (by decide)
  have hf : Fraction ['.', '5'] (some [5]) := .digits ⟨nofun, by simp⟩
  exact .parts .absent hw hf .absent

end AddressSpace.Json.Grammar
