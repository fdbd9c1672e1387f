import TableApi.Json.Printer
import TableApi.Proofs.Json.Grammar
import TableApi.Proofs.Json.Numerals

/-!
# Printed values are read back

The compact text of a value is read as the value written in it: `parseWritten?_chars`. A string is
written piece by piece, each character by itself or by an escape (`Piece.ofChar`), and its pieces
give the string back (`stringOf?_piecesOf`). Numbers and words last until another character ends
them, so a text that stands after a value has to start with such a character (`Ends`).
-/

namespace TableApi.Json

/-! ## What is written -/

/-- How a character is written in a string: a control character without a short escape as its code
unit, and any other as a character. -/
def Piece.ofChar (c : Char) : Piece :=
  if c.toNat < 0x20 ∧ c ∉ ['\x08', '\x0c', '\n', '\r', '\t'] then .unit c.toNat else .char c

/-- A string as the printer writes it. -/
def piecesOf (s : String) : List Piece :=
  s.toList.map Piece.ofChar

mutual

/-- **A value as the printer writes it**, if the texts of its numbers are numerals. -/
def written? : Json → Option Written
  | .null => some .null
  | .bool b => some (.bool b)
  | .number n => (Numeral.ofChars? n.text.toList).map .number
  | .string s => some (.string (piecesOf s))
  | .array items => (itemsWritten? items).map .array
  | .object fields => (fieldsWritten? fields).map .object

/-- Elements as the printer writes them. -/
def itemsWritten? : List Json → Option (List Written)
  | [] => some []
  | item :: items => do
    let w ← written? item
    let ws ← itemsWritten? items
    pure (w :: ws)

/-- Fields as the printer writes them. -/
def fieldsWritten? : List (String × Json) → Option (List (List Piece × Written))
  | [] => some []
  | (key, value) :: fields => do
    let w ← written? value
    let ws ← fieldsWritten? fields
    pure ((piecesOf key, w) :: ws)

end

theorem itemsWritten?_cons {item : Json} {items : List Json} {ws : List Written} :
    itemsWritten? (item :: items) = some ws ↔
      ∃ w, item.written? = some w ∧ ∃ us, itemsWritten? items = some us ∧ w :: us = ws := by
  simp [itemsWritten?, Option.bind_eq_some_iff]

theorem fieldsWritten?_cons {key : String} {value : Json} {fields : List (String × Json)}
    {ws : List (List Piece × Written)} : fieldsWritten? ((key, value) :: fields) = some ws ↔
      ∃ w, value.written? = some w ∧
        ∃ us, fieldsWritten? fields = some us ∧ (piecesOf key, w) :: us = ws := by
  simp [fieldsWritten?, Option.bind_eq_some_iff]

/-- A code unit that is no surrogate is a character. -/
theorem decodePieces?_unit {n : Nat} (h : n < 0xD800) (rest : List Piece) :
    decodePieces? (.unit n :: rest) = (decodePieces? rest).map (Char.ofNat n :: ·) := by
  rw [decodePieces?.eq_def]
  simp [h]

/-- **Pieces of a string give the string back.** -/
@[simp] theorem stringOf?_piecesOf (s : String) : stringOf? (piecesOf s) = some s := by
  have hdecode : ∀ cs : List Char, decodePieces? (cs.map Piece.ofChar) = some cs := by
    intro cs
    induction cs with
    | nil => rfl
    | cons c cs ih =>
      rw [List.map_cons, Piece.ofChar]
      split
      · next hcontrol =>
        rw [decodePieces?_unit (by omega), ih, Char.ofNat_toNat]
        rfl
      · rw [decodePieces?, ih]
        rfl
  rw [stringOf?, piecesOf, hdecode, Option.map_some, String.ofList_toList]

/-! ## The lexer -/

variable {found : List Token} {rest : List Char}

/-- The text ends a number or a word that stands before it. -/
def Ends (rest : List Char) : Prop :=
  ∀ c ∈ rest.head?, isNumberChar c = false ∧ c.isLower = false

@[simp] theorem ends_nil : Ends [] := by
  simp [Ends]

theorem signs_of_ofSign? {c : Char} {t : Token} (h : Token.ofSign? c = some t) :
    c ∈ ['[', ']', '\x7b', '\x7d', ',', ':'] := by
  by_contra hc
  simp only [List.mem_cons, List.not_mem_nil, or_false, not_or] at hc
  simp [Token.ofSign?, hc] at h

/-- A character that stands alone ends what is before it. -/
theorem ends_sign {c : Char} {t : Token} (h : Token.ofSign? c = some t) : Ends (c :: rest) := by
  have hsigns : ∀ c ∈ ['[', ']', '\x7b', '\x7d', ',', ':'],
      isNumberChar c = false ∧ c.isLower = false := by
    decide
  simpa [Ends] using hsigns c (signs_of_ofSign? h)

/-- A character that stands alone is its token. -/
theorem lexFrom_sign {c : Char} {t : Token} (h : Token.ofSign? c = some t) :
    lexFrom found .between (c :: rest) = lexFrom (t :: found) .between rest := by
  have hsigns : ∀ c ∈ ['[', ']', '\x7b', '\x7d', ',', ':'],
      isTokenBlank c = false ∧ c ≠ '"' ∧ ¬(c.isDigit = true ∨ c = '-') ∧ c.isLower = false := by
    decide
  obtain ⟨hblank, hquote, hnumber, hword⟩ := hsigns c (signs_of_ofSign? h)
  have hstep : LexState.between.step c = some ([t], .between) := by
    rw [LexState.step, LexState.start, if_neg (by simp [hblank]), if_neg hquote, if_neg hnumber,
      if_neg (by simp [hword]), h, Option.map_some]
  rw [lexFrom, hstep]
  rfl

/-- What was gathered is a token as soon as another character ends it. -/
theorem lexFrom_ended {state : LexState} {ts : List Token} (hfinish : state.finish? = some ts)
    (hends : ∀ c ∈ rest.head?,
      state.step c = (LexState.start c).map fun (us, after) => (ts ++ us, after)) :
    lexFrom found state rest = lexFrom (ts.reverse ++ found) .between rest := by
  cases rest with
  | nil =>
    have hbetween : LexState.between.finish? = some [] := rfl
    simp [lexFrom, hfinish, hbetween]
  | cons c rest =>
    have hstep : LexState.between.step c = LexState.start c := rfl
    rw [lexFrom, lexFrom, hends c rfl, hstep]
    cases LexState.start c <;> simp

theorem lexFrom_number {s : List Char} (hs : ∀ c ∈ s, isNumberChar c = true)
    (gathered : List Char) : lexFrom found (.number gathered) (s ++ rest) =
      lexFrom found (.number (s.reverse ++ gathered)) rest := by
  induction s generalizing gathered with
  | nil => rfl
  | cons c s ih =>
    obtain ⟨hc, hs⟩ := List.forall_mem_cons.1 hs
    have hstep : (LexState.number gathered).step c = some ([], .number (c :: gathered)) := by
      simp [LexState.step, hc]
    rw [List.cons_append, lexFrom, hstep]
    simpa using ih hs (c :: gathered)

/-- **The text of a number is its token.** -/
theorem lexFrom_numeral {s : List Char} {n : Numeral} (h : Numeral.ofChars? s = some n)
    (hends : Ends rest) : lexFrom found .between (s ++ rest) =
      lexFrom (.number n :: found) .between rest := by
  obtain ⟨⟨c, hhead, hc⟩, hall⟩ := Numeral.chars_of_ofChars? h
  obtain ⟨s, rfl⟩ := List.head?_eq_some_iff.1 hhead
  have hstart : LexState.between.step c = some ([], .number [c]) := by
    have hblank : isTokenBlank c = false := by
      simp only [isTokenBlank, Bool.or_eq_false_iff, beq_eq_false_iff_ne]
      refine ⟨⟨⟨?_, ?_⟩, ?_⟩, ?_⟩ <;> rintro rfl <;> simp at hc
    have hquote : c ≠ '"' := by
      rintro rfl
      simp at hc
    rw [LexState.step, LexState.start, if_neg (by simp [hblank]), if_neg hquote, if_pos hc]
  have hfinish : (LexState.number (s.reverse ++ [c])).finish? = some [.number n] := by
    simp [LexState.finish?, h]
  rw [List.cons_append, lexFrom, hstart]
  refine (lexFrom_number (List.forall_mem_cons.1 hall).2 [c]).trans
    (lexFrom_ended hfinish fun d hd => ?_)
  have hother : isNumberChar d = false := (hends d hd).1
  simp only [LexState.step, hother, List.reverse_append, List.reverse_reverse,
    List.reverse_singleton, List.singleton_append, h]
  cases LexState.start d <;> rfl

/-- **A word is its token.** -/
theorem lexFrom_word {word : List Char} {t : Token} (h : Token.ofWord? word = some t)
    (hends : Ends rest) : lexFrom found .between (word ++ rest) =
      lexFrom (t :: found) .between rest := by
  have hgather : lexFrom found .between (word ++ rest) =
      lexFrom found (.word word.reverse) rest := by
    unfold Token.ofWord? at h
    split at h
    · next hword => subst hword; rfl
    split at h
    · next hword => subst hword; rfl
    split at h
    · next hword => subst hword; rfl
    · cases h
  have hfinish : (LexState.word word.reverse).finish? = some [t] := by
    simp [LexState.finish?, h]
  refine hgather.trans (lexFrom_ended hfinish fun d hd => ?_)
  have hother : d.isLower = false := (hends d hd).2
  simp only [LexState.step, hother, List.reverse_reverse, h]
  cases LexState.start d <;> rfl

/-- The digits of a code unit below 256 are read as that code unit. -/
theorem lexFrom_codeUnit (pieces : List Piece) {n : Nat} (hn : n < 256) :
    lexFrom found (.string pieces)
      (['\\', 'u', '0', '0', hexDigit (n / 16), hexDigit (n % 16)] ++ rest) =
      lexFrom found (.string (.unit n :: pieces)) rest := by
  have hdigit : ∀ d < 16, hexValue? (hexDigit d) = some d := by decide
  have hhigh := hdigit (n / 16) (by omega)
  have hlow := hdigit (n % 16) (Nat.mod_lt _ (by omega))
  have hsum : n / 16 * 16 + n % 16 = n := by omega
  have hzero : hexValue? '0' = some 0 := rfl
  simp [lexFrom, LexState.step, hzero, hhigh, hlow, hsum]

/-- A character of a string is read as its piece. -/
theorem lexFrom_escapeChar (pieces : List Piece) (c : Char) :
    lexFrom found (.string pieces) (escapeChar c ++ rest) =
      lexFrom found (.string (Piece.ofChar c :: pieces)) rest := by
  by_cases hshort : c ∈ ['"', '\\', '\x08', '\x0c', '\n', '\r', '\t']
  · simp only [List.mem_cons, List.not_mem_nil, or_false] at hshort
    rcases hshort with rfl | rfl | rfl | rfl | rfl | rfl | rfl <;> rfl
  simp only [List.mem_cons, List.not_mem_nil, or_false, not_or] at hshort
  obtain ⟨hquote, hback, hother⟩ := hshort
  by_cases hcontrol : c.toNat < 0x20
  · have hchars : escapeChar c =
        ['\\', 'u', '0', '0', hexDigit (c.toNat / 16), hexDigit (c.toNat % 16)] := by
      simp [escapeChar, hquote, hback, hother, hcontrol]
    have hpiece : Piece.ofChar c = .unit c.toNat := by
      simp [Piece.ofChar, hother, hcontrol]
    rw [hchars, hpiece]
    exact lexFrom_codeUnit pieces (by omega)
  · have hchars : escapeChar c = [c] := by
      simp [escapeChar, hquote, hback, hother, hcontrol]
    have hpiece : Piece.ofChar c = .char c := by
      simp [Piece.ofChar, hcontrol]
    have hstep : (LexState.string pieces).step c = some ([], .string (.char c :: pieces)) := by
      rw [LexState.step, if_neg hquote, if_neg hback, if_neg hcontrol]
    rw [hchars, hpiece, List.singleton_append, lexFrom, hstep]
    rfl

/-- **A printed string is its token.** -/
theorem lexFrom_quoted (s : String) : lexFrom found .between (quoted s ++ rest) =
    lexFrom (.string (piecesOf s) :: found) .between rest := by
  have hpieces : ∀ (cs : List Char) (before : List Piece),
      lexFrom found (.string before) (cs.flatMap escapeChar ++ '"' :: rest) =
        lexFrom found (.string ((cs.map Piece.ofChar).reverse ++ before)) ('"' :: rest) := by
    intro cs
    induction cs with
    | nil => exact fun before => rfl
    | cons c cs ih =>
      intro before
      rw [List.flatMap_cons, List.append_assoc, lexFrom_escapeChar, ih]
      simp
  have hopen : lexFrom found .between (quoted s ++ rest) =
      lexFrom found (.string []) (s.toList.flatMap escapeChar ++ '"' :: rest) := by
    rw [quoted, List.cons_append, List.append_assoc]
    rfl
  have hclose : lexFrom found (.string ((piecesOf s).reverse ++ [])) ('"' :: rest) =
      lexFrom (.string (piecesOf s) :: found) .between rest := by
    simp [lexFrom, LexState.step]
  rw [hopen, hpieces]
  exact hclose

/-! ## Values -/

-- Induction on the value. The tokens that were found stand last first, so those of the value come
-- before them in reverse.
mutual

/-- **A printed value is its tokens.** -/
theorem lexFrom_chars (v : Json) {w : Written} (h : v.written? = some w) (found : List Token)
    {rest : List Char} (hends : Ends rest) : lexFrom found .between (v.chars ++ rest) =
      lexFrom (w.tokens.reverse ++ found) .between rest := by
  match v with
  | .null =>
    obtain rfl := Option.some.inj h
    exact lexFrom_word rfl hends
  | .bool true =>
    obtain rfl := Option.some.inj h
    exact lexFrom_word rfl hends
  | .bool false =>
    obtain rfl := Option.some.inj h
    exact lexFrom_word rfl hends
  | .number n =>
    obtain ⟨m, hm, rfl⟩ := Option.map_eq_some_iff.1 h
    exact lexFrom_numeral hm hends
  | .string s =>
    obtain rfl := Option.some.inj h
    exact lexFrom_quoted s
  | .array items =>
    obtain ⟨ws, hws, rfl⟩ := Option.map_eq_some_iff.1 h
    rw [chars, List.cons_append, List.append_assoc, List.singleton_append,
      lexFrom_sign (t := .openArray) rfl, lexFrom_itemChars items hws _ (ends_sign rfl),
      lexFrom_sign (t := .closeArray) rfl]
    simp [Written.tokens]
  | .object fields =>
    obtain ⟨ws, hws, rfl⟩ := Option.map_eq_some_iff.1 h
    rw [chars, List.cons_append, List.append_assoc, List.singleton_append,
      lexFrom_sign (t := .openObject) rfl, lexFrom_fieldChars fields hws _ (ends_sign rfl),
      lexFrom_sign (t := .closeObject) rfl]
    simp [Written.tokens]

theorem lexFrom_itemChars (items : List Json) {ws : List Written}
    (h : itemsWritten? items = some ws) (found : List Token) {rest : List Char}
    (hends : Ends rest) : lexFrom found .between (itemChars items ++ rest) =
      lexFrom ((itemTokens ws).reverse ++ found) .between rest := by
  match items with
  | [] =>
    obtain rfl := Option.some.inj h
    rfl
  | [item] =>
    obtain ⟨w, hw, us, hus, rfl⟩ := itemsWritten?_cons.1 h
    obtain rfl := Option.some.inj hus
    exact lexFrom_chars item hw found hends
  | item :: next :: items =>
    obtain ⟨w, hw, us, hus, rfl⟩ := itemsWritten?_cons.1 h
    obtain ⟨u, -, vs, -, rfl⟩ := itemsWritten?_cons.1 hus
    rw [itemChars, List.append_assoc, List.cons_append, lexFrom_chars item hw found (ends_sign rfl),
      lexFrom_sign (t := .comma) rfl, lexFrom_itemChars (next :: items) hus _ hends]
    · simp [itemTokens]
    · simp

theorem lexFrom_fieldChars (fields : List (String × Json)) {ws : List (List Piece × Written)}
    (h : fieldsWritten? fields = some ws) (found : List Token) {rest : List Char}
    (hends : Ends rest) : lexFrom found .between (fieldChars fields ++ rest) =
      lexFrom ((fieldTokens ws).reverse ++ found) .between rest := by
  match fields with
  | [] =>
    obtain rfl := Option.some.inj h
    rfl
  | [(key, value)] =>
    obtain ⟨w, hw, us, hus, rfl⟩ := fieldsWritten?_cons.1 h
    obtain rfl := Option.some.inj hus
    rw [fieldChars, List.append_assoc, lexFrom_quoted, List.cons_append,
      lexFrom_sign (t := .colon) rfl, lexFrom_chars value hw _ hends]
    simp [fieldTokens]
  | (key, value) :: next :: fields =>
    obtain ⟨w, hw, us, hus, rfl⟩ := fieldsWritten?_cons.1 h
    obtain ⟨u, -, vs, -, rfl⟩ := fieldsWritten?_cons.1 hus
    rw [fieldChars, List.append_assoc, lexFrom_quoted, List.cons_append,
      lexFrom_sign (t := .colon) rfl, List.append_assoc, List.cons_append,
      lexFrom_chars value hw _ (ends_sign rfl), lexFrom_sign (t := .comma) rfl,
      lexFrom_fieldChars (next :: fields) hus _ hends]
    · simp [fieldTokens]
    · simp

end

/-- **Printed values are read back** as they are written. -/
theorem parseWritten?_chars {v : Json} {w : Written} (h : v.written? = some w) :
    parseWritten? v.chars = some w := by
  refine parseWritten?_eq_some ?_
  have hlex := lexFrom_chars v h [] ends_nil
  rw [lex?, ← List.append_nil v.chars, hlex]
  simp [lexFrom, LexState.finish?]

end TableApi.Json
