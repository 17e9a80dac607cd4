import AddressSpace.Proofs.Json.Lexical

/-!
The grammar of JSON texts: characters spell tokens, and tokens make a value. Main statement: a text that
spells a value within the limits of the strict reader is read as that value.
-/

namespace AddressSpace.Json.Grammar

-- What tokens may make: a value, or the contents of an array or an object.
inductive Content where
  | value (v : Json)
  | items (vs : List Json)
  | members (ms : List (Text × Json))

-- The members of an object after more are put in, in order.
def gathered (os ms : List (Text × Json)) : List (Text × Json) :=
  ms.foldl (fun os m => put m.1 m.2 os) os

-- Tokens that make a value or contents, with a bound on the levels of arrays and objects that hold
-- anything. Of members with the same key, the last one counts.
inductive Makes : Nat → List Token → Content → Prop
  | scalar {n v} : Makes n [.scalar v] (.value v)
  | string {n t} : Makes n [.string t] (.value (.str t))
  | emptyArray {n} : Makes n [.openArray, .closeArray] (.value (.arr []))
  | emptyObject {n} : Makes n [.openObject, .closeObject] (.value (.obj []))
  | array {n ts vs} : Makes n ts (.items vs) →
    Makes (n + 1) (.openArray :: (ts ++ [.closeArray])) (.value (.arr vs))
  | object {n ts ms} : Makes n ts (.members ms) →
    Makes (n + 1) (.openObject :: (ts ++ [.closeObject])) (.value (.obj (gathered [] ms)))
  | lastItem {n ts v} : Makes n ts (.value v) → Makes n ts (.items [v])
  | item {n ts ts' v vs} : Makes n ts (.value v) → Makes n ts' (.items vs) →
    Makes n (ts ++ .comma :: ts') (.items (v :: vs))
  | lastMember {n ts k v} : Makes n ts (.value v) → Makes n (.string k :: .colon :: ts) (.members [(k, v)])
  | member {n ts ts' k v ms} : Makes n ts (.value v) → Makes n ts' (.members ms) →
    Makes n (.string k :: .colon :: (ts ++ .comma :: ts')) (.members ((k, v) :: ms))

-- A text spells a value, with a bound on the levels of the value.
def Spells (depth : Nat) (cs : List Char) (v : Json) : Prop :=
  ∃ ts, Lexes cs ts ∧ Makes depth ts (.value v)

variable {d : Dialect} {n depth : Nat} {cs : List Char} {token : Token} {ts : List Token} {content : Content}
variable {v : Json} {ms : List (Text × Json)} {s s' : State} {stack : List Frame}

theorem Makes.mono {m : Nat} (h : Makes n ts content) (hn : n ≤ m) : Makes m ts content := by
  induction h generalizing m
  case scalar            => exact .scalar
  case string            => exact .string
  case emptyArray        => exact .emptyArray
  case emptyObject       => exact .emptyObject
  case array hi          =>
    obtain ⟨m, rfl⟩ := Nat.exists_eq_add_of_lt hn
    exact .array (hi (by omega))
  case object hi         =>
    obtain ⟨m, rfl⟩ := Nat.exists_eq_add_of_lt hn
    exact .object (hi (by omega))
  case lastItem hi       => exact .lastItem (hi hn)
  case item hi hi'       => exact .item (hi hn) (hi' hn)
  case lastMember hi     => exact .lastMember (hi hn)
  case member hi hi'     => exact .member (hi hn) (hi' hn)

-- A bound on the levels may be greater than need be.
theorem Spells.mono {m : Nat} (h : Spells n cs v) (hn : n ≤ m) : Spells m cs v :=
  have ⟨ts, hl, hm⟩ := h
  ⟨ts, hl, hm.mono hn⟩

theorem Makes.head (h : Makes n ts content) : ∃ token rest, ts = token :: rest ∧ token ≠ .closeArray := by
  induction h
  case lastItem hi => exact hi
  case item hi _ =>
    obtain ⟨token, rest, rfl, ht⟩ := hi
    exact ⟨token, _, rfl, ht⟩
  all_goals exact ⟨_, _, rfl, nofun⟩

theorem Makes.key (h : Makes n ts (.members ms)) : ∃ k rest, ts = .string k :: rest := by
  cases h <;> exact ⟨_, _, rfl⟩

def run (d : Dialect) (s : State) (ts : List Token) : Except Fault State :=
  ts.foldlM (State.step d) s

theorem run_cons (h : s.step d token = .ok s') : run d s (token :: ts) = run d s' ts := by
  simp [run, h]

-- The first item and the first key are read as all others are.
theorem run_firstItem (hl : stack.length < d.maxDepth) (ht : token ≠ .closeArray) :
    run d (.firstItem stack) (token :: ts) = run d (.value (.array [] :: stack)) (token :: ts) := by
  have he : d.enter .array stack = .ok () := enter_eq_ok_iff.mpr hl
  have hs : State.step d (.firstItem stack) token = State.step d (.value (.array [] :: stack)) token := by
    cases token
    case closeArray => exact absurd rfl ht
    all_goals simp [State.step, he]
  simp [run, hs]

theorem run_firstKey {k : Text} (hl : stack.length < d.maxDepth) :
    run d (.firstKey stack) (.string k :: ts) = run d (.key stack []) (.string k :: ts) := by
  have he : d.enter .object stack = .ok () := enter_eq_ok_iff.mpr hl
  simp [run, State.step, he]

-- What the machine does with tokens, as long as there are levels left. Items and members come behind
-- those that the container holds already, and end with the container.
def Runs (d : Dialect) (n : Nat) (ts : List Token) : Content → Prop
  | .value v => ∀ stack rest, stack.length + n ≤ d.maxDepth →
    run d (.value stack) (ts ++ rest) = run d (.after stack v) rest
  | .items vs => ∀ stack us rest, stack.length + 1 + n ≤ d.maxDepth →
    run d (.value (.array us :: stack)) (ts ++ .closeArray :: rest) =
      run d (.after stack (.arr (us.reverse ++ vs))) rest
  | .members ms => ∀ stack os rest, stack.length + 1 + n ≤ d.maxDepth →
    run d (.key stack os) (ts ++ .closeObject :: rest) = run d (.after stack (.obj (gathered os ms))) rest

theorem runs_of_makes (hd : d.emptyCounts = false) (h : Makes n ts content) : Runs d n ts content := by
  have openArray (stack : List Frame) : State.step d (.value stack) .openArray = .ok (.firstItem stack) := by
    simp [State.step, State.start, hd]
  have openObject (stack : List Frame) : State.step d (.value stack) .openObject = .ok (.firstKey stack) := by
    simp [State.step, State.start, hd]
  induction h
  case scalar => exact fun _ _ _ => rfl
  case string => exact fun _ _ _ => rfl
  case emptyArray  => exact fun stack _ _ => (run_cons (openArray stack)).trans (run_cons rfl)
  case emptyObject => exact fun stack _ _ => (run_cons (openObject stack)).trans (run_cons rfl)
  case array n ts vs h hi =>
    intro stack rest hn
    obtain ⟨token, ts, rfl, ht⟩ := h.head
    calc run d (.value stack) (.openArray :: (token :: ts ++ [.closeArray]) ++ rest)
        = run d (.firstItem stack) (token :: (ts ++ .closeArray :: rest)) := by
          simpa using run_cons (openArray stack)
      _ = run d (.value (.array [] :: stack)) (token :: ts ++ .closeArray :: rest) :=
          run_firstItem (by omega) ht
      _ = run d (.after stack (.arr vs)) rest := hi stack [] rest (by omega)
  case object n ts ms h hi =>
    intro stack rest hn
    obtain ⟨k, ts, rfl⟩ := h.key
    calc run d (.value stack) (.openObject :: (.string k :: ts ++ [.closeObject]) ++ rest)
        = run d (.firstKey stack) (.string k :: (ts ++ .closeObject :: rest)) := by
          simpa using run_cons (openObject stack)
      _ = run d (.key stack []) (.string k :: ts ++ .closeObject :: rest) := run_firstKey (by omega)
      _ = run d (.after stack (.obj (gathered [] ms))) rest := hi stack [] rest (by omega)
  case lastItem n ts v _ hi =>
    intro stack us rest hn
    calc run d (.value (.array us :: stack)) (ts ++ .closeArray :: rest)
        = run d (.after (.array us :: stack) v) (.closeArray :: rest) := hi _ _ hn
      _ = run d (.after stack (.arr (us.reverse ++ [v]))) rest := run_cons (by simp [State.step])
  case item n ts ts' v vs _ _ hi hi' =>
    intro stack us rest hn
    calc run d (.value (.array us :: stack)) (ts ++ .comma :: ts' ++ .closeArray :: rest)
        = run d (.after (.array us :: stack) v) (.comma :: (ts' ++ .closeArray :: rest)) := by
          simpa using hi (.array us :: stack) (.comma :: (ts' ++ .closeArray :: rest)) hn
      _ = run d (.value (.array (v :: us) :: stack)) (ts' ++ .closeArray :: rest) := run_cons rfl
      _ = run d (.after stack (.arr (us.reverse ++ v :: vs))) rest := by
          simpa using hi' stack (v :: us) rest hn
  case lastMember n ts k v _ hi =>
    intro stack os rest hn
    calc run d (.key stack os) (.string k :: .colon :: ts ++ .closeObject :: rest)
        = run d (.value (.object os k :: stack)) (ts ++ .closeObject :: rest) :=
          (run_cons rfl).trans (run_cons rfl)
      _ = run d (.after (.object os k :: stack) v) (.closeObject :: rest) := hi _ _ hn
      _ = run d (.after stack (.obj (gathered os [(k, v)]))) rest := run_cons rfl
  case member n ts ts' k v ms _ _ hi hi' =>
    intro stack os rest hn
    calc run d (.key stack os) (.string k :: .colon :: (ts ++ .comma :: ts') ++ .closeObject :: rest)
        = run d (.value (.object os k :: stack)) (ts ++ .comma :: ts' ++ .closeObject :: rest) :=
          (run_cons rfl).trans (run_cons rfl)
      _ = run d (.after (.object os k :: stack) v) (.comma :: (ts' ++ .closeObject :: rest)) := by
          simpa using hi (.object os k :: stack) (.comma :: (ts' ++ .closeObject :: rest)) hn
      _ = run d (.key stack (put k v os)) (ts' ++ .closeObject :: rest) := run_cons rfl
      _ = run d (.after stack (.obj (gathered os ((k, v) :: ms)))) rest := hi' stack (put k v os) rest hn

-- What the grammar spells is read wherever it does not nest too deep.
theorem read_of_spells_of_depth (hd : d.emptyCounts = false) (h : Spells d.maxDepth cs v) : read d cs = .ok v := by
  obtain ⟨ts, hl, hm⟩ := h
  have hr : run d (.value []) (ts ++ []) = run d (.after [] v) [] := runs_of_makes hd hm [] [] (by simp)
  rw [List.append_nil] at hr
  simp only [read, tokens_of_lexes hl]
  exact Outcome.bind_eq_ok_iff.mpr ⟨_, hr, rfl⟩

-- The strict reader reads whatever the grammar spells within its limits.
theorem read_of_spells (h : Spells Dialect.strict.maxDepth cs v) : read .strict cs = .ok v :=
  read_of_spells_of_depth rfl h

-- Files are read wherever they stay below their limit, whether empty containers count or not.
theorem read_lenient_of_spells (h : Spells n cs v) (hn : n < depth) : read (.lenient depth) cs = .ok v := by
  let shallow : Dialect := { Dialect.strict with maxDepth := n }
  have hw : shallow.Within (.lenient depth) := ⟨nofun, nofun, nofun, hn⟩
  exact read_within hw (read_of_spells_of_depth (d := shallow) rfl h)

end AddressSpace.Json.Grammar
