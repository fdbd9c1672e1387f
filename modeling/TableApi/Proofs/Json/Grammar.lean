import TableApi.Json.Parser

/-!
# The tokens of a value

What a written value looks like to the machine of the grammar: `Written.tokens`. The machine takes
the tokens of a value from where a value is due to where that value has been read, and leaves the
stack as it was (`run_tokens`); so every written value is read back from its tokens.
-/

namespace TableApi.Json

mutual

/-- **The tokens of a written value.** -/
def Written.tokens : Written → List Token
  | .null => [.null]
  | .bool b => [.bool b]
  | .number n => [.number n]
  | .string pieces => [.string pieces]
  | .array items => .openArray :: (itemTokens items ++ [.closeArray])
  | .object fields => .openObject :: (fieldTokens fields ++ [.closeObject])

/-- The tokens of elements, with commas between them. -/
def itemTokens : List Written → List Token
  | [] => []
  | [item] => item.tokens
  | item :: items => item.tokens ++ .comma :: itemTokens items

/-- The tokens of fields, with commas between them. -/
def fieldTokens : List (List Piece × Written) → List Token
  | [] => []
  | [(key, value)] => .string key :: .colon :: value.tokens
  | (key, value) :: fields =>
    .string key :: .colon :: (value.tokens ++ .comma :: fieldTokens fields)

end

variable {stack : List Frame}

/-- The machine after these tokens. -/
def ParseState.run (s : ParseState) (ts : List Token) : Option ParseState :=
  ts.foldlM ParseState.step s

namespace ParseState

@[simp] theorem run_nil (s : ParseState) : s.run [] = some s :=
  rfl

@[simp] theorem run_cons (s : ParseState) (t : Token) (ts : List Token) :
    s.run (t :: ts) = (s.step t).bind (·.run ts) :=
  rfl

@[simp] theorem run_append (s : ParseState) (ts us : List Token) :
    s.run (ts ++ us) = (s.run ts).bind (·.run us) :=
  List.foldlM_append

end ParseState

/-- The tokens of a value begin with one that begins a value, and so closes no array. -/
theorem Written.exists_tokens_eq_cons (w : Written) :
    ∃ t ts, w.tokens = t :: ts ∧ t ≠ .closeArray := by
  cases w <;> exact ⟨_, _, rfl, by simp⟩

/-- Where an array has elements, the first one is due as any other. -/
theorem run_firstItem {items : List Written} (hitems : items ≠ []) (rest : List Token) :
    ParseState.run ⟨.firstItem, stack⟩ (itemTokens items ++ rest) =
      ParseState.run ⟨.value, .array [] :: stack⟩ (itemTokens items ++ rest) := by
  obtain ⟨item, items, rfl⟩ := List.exists_cons_of_ne_nil hitems
  obtain ⟨t, ts, htokens, ht⟩ := item.exists_tokens_eq_cons
  have hfirst : ParseState.step ⟨.firstItem, stack⟩ t =
      ParseState.step ⟨.value, .array [] :: stack⟩ t := by
    cases t <;> first | rfl | exact absurd rfl ht
  cases items <;> simp [itemTokens, htokens, hfirst]

/-- Where an object has fields, the first key is due as any other. -/
theorem run_firstKey {fields : List (List Piece × Written)} (hfields : fields ≠ [])
    (rest : List Token) :
    ParseState.run ⟨.firstKey, stack⟩ (fieldTokens fields ++ rest) =
      ParseState.run ⟨.key [], stack⟩ (fieldTokens fields ++ rest) := by
  obtain ⟨⟨key, value⟩, fields, rfl⟩ := List.exists_cons_of_ne_nil hfields
  cases fields <;> simp [fieldTokens, ParseState.step]

-- Induction on the value. Elements and fields are read one by one, so their lemmas carry those that
-- stand before them in the frame.
mutual

/-- **A value is read from its tokens**, whatever is open around it. -/
@[simp] theorem run_tokens (w : Written) (stack : List Frame) :
    ParseState.run ⟨.value, stack⟩ w.tokens = some ⟨.next w, stack⟩ := by
  cases w with
  | null => rfl
  | bool b => rfl
  | number n => rfl
  | string pieces => rfl
  | array items =>
    by_cases hitems : items = []
    · subst hitems
      rfl
    · have hopen : ParseState.step ⟨.value, stack⟩ .openArray = some ⟨.firstItem, stack⟩ := rfl
      rw [Written.tokens, ParseState.run_cons, hopen, Option.bind_some, run_firstItem hitems,
        run_itemTokens items hitems [] stack, List.reverse_nil, List.nil_append]
  | object fields =>
    by_cases hfields : fields = []
    · subst hfields
      rfl
    · have hopen : ParseState.step ⟨.value, stack⟩ .openObject = some ⟨.firstKey, stack⟩ := rfl
      rw [Written.tokens, ParseState.run_cons, hopen, Option.bind_some, run_firstKey hfields,
        run_fieldTokens fields hfields [] stack, List.reverse_nil, List.nil_append]

/-- Elements are added to those that the array has already. -/
theorem run_itemTokens (items : List Written) (hitems : items ≠ []) (before : List Written)
    (stack : List Frame) :
    ParseState.run ⟨.value, .array before :: stack⟩ (itemTokens items ++ [.closeArray]) =
      some ⟨.next (.array (before.reverse ++ items)), stack⟩ := by
  match items with
  | [] => exact absurd rfl hitems
  | [item] => simp [itemTokens, run_tokens item, ParseState.step, afterValue]
  | item :: next :: items =>
    have hsplit : itemTokens (item :: next :: items) ++ [.closeArray] =
        item.tokens ++ .comma :: (itemTokens (next :: items) ++ [.closeArray]) := by
      simp [itemTokens]
    have hcomma : ParseState.step ⟨.next item, .array before :: stack⟩ .comma =
        some ⟨.value, .array (item :: before) :: stack⟩ := rfl
    rw [hsplit, ParseState.run_append, run_tokens item, Option.bind_some, ParseState.run_cons,
      hcomma, Option.bind_some, run_itemTokens (next :: items) (List.cons_ne_nil _ _)]
    simp

/-- Fields are added to those that the object has already. -/
theorem run_fieldTokens (fields : List (List Piece × Written)) (hfields : fields ≠ [])
    (before : List (List Piece × Written)) (stack : List Frame) :
    ParseState.run ⟨.key before, stack⟩ (fieldTokens fields ++ [.closeObject]) =
      some ⟨.next (.object (before.reverse ++ fields)), stack⟩ := by
  match fields with
  | [] => exact absurd rfl hfields
  | [(key, value)] => simp [fieldTokens, run_tokens value, ParseState.step, afterValue]
  | (key, value) :: next :: fields =>
    have hsplit : fieldTokens ((key, value) :: next :: fields) ++ [.closeObject] =
        [.string key, .colon] ++ (value.tokens ++
          .comma :: (fieldTokens (next :: fields) ++ [.closeObject])) := by
      simp [fieldTokens]
    have hkey : ParseState.run ⟨.key before, stack⟩ [.string key, .colon] =
        some ⟨.value, .object before key :: stack⟩ := rfl
    have hcomma : ParseState.step ⟨.next value, .object before key :: stack⟩ .comma =
        some ⟨.key ((key, value) :: before), stack⟩ := rfl
    rw [hsplit, ParseState.run_append, hkey, Option.bind_some, ParseState.run_append,
      run_tokens value, Option.bind_some, ParseState.run_cons, hcomma, Option.bind_some,
      run_fieldTokens (next :: fields) (List.cons_ne_nil _ _)]
    simp

end

/-- **A text with the tokens of a value is that value.** -/
theorem parseWritten?_eq_some {s : List Char} {w : Written} (h : lex? s = some w.tokens) :
    parseWritten? s = some w := by
  have hrun : w.tokens.foldlM ParseState.step ⟨.value, []⟩ = some ⟨.next w, []⟩ := run_tokens w []
  simp [parseWritten?, h, hrun, ParseState.result?]

end TableApi.Json
