import TableApi.Proofs.Filter.Keys

/-!
# Keys as literals

Keys come from paths and bodies, so any text can be one. What the condition on keys makes of them
(`equality_literals`):

* A key is written bare if it is a number (`IsNumeral`), and otherwise as a literal that holds it
  without its quotes and backslashes (`KeyLiteral`). Nothing else of any key stands outside quotes,
  as the scanner of `Sql.marks?` reads the condition (`Sql.outside?`).
* A literal is read back (`Sql.readLiteral?`) as the key exactly where the key had neither a quote
  nor a backslash.

The digits of a number are those of every script. So a number that is no number to a database stands
in the condition bare too (`equality_foreign_digit`).
-/

namespace TableApi

namespace Sql

variable {d : Dialect}

/-! ## What stands outside quotes -/

theorem unquoted_plain_append {s : List Char} (hne : s ≠ []) (hs : ∀ c ∈ s, c ∉ quoteSigns)
    (t : List Char) : Unquoted (s ++ t) := by
  obtain ⟨c, s, rfl⟩ := List.exists_cons_of_ne_nil hne
  exact unquoted_cons (hs c (List.mem_cons_self ..)) _

/-- The character of a mark outside quotes. -/
def Mark.code? : Mark → Option Char
  | .code c => some c
  | .quoted _ => none

/-- **What stands outside quotes**, if every quote of the text is closed. -/
def outside? (d : Dialect) (s : List Char) : Option (List Char) :=
  (marks? d .code s).map (·.filterMap Mark.code?)

theorem outside?_quoted {s t : List Char} (hs : IsQuoted d s) (ht : Unquoted t) :
    outside? d (s ++ t) = outside? d t := by
  have hnone : (s.map Mark.quoted).filterMap Mark.code? = [] := by
    simp [List.filterMap_map, Function.comp_def, Mark.code?]
  rw [outside?, marks?_append hs ht, Option.map_map, outside?]
  congr 1
  funext ms
  rw [Function.comp_apply, List.filterMap_append, hnone, List.nil_append]

/-- All of a text without quote signs does. -/
theorem outside?_plain {s : List Char} (hs : ∀ c ∈ s, c ∉ quoteSigns) (t : List Char) :
    outside? d (s ++ t) = (outside? d t).map (s ++ ·) := by
  have hall : (s.map Mark.code).filterMap Mark.code? = s := by
    simp [List.filterMap_map, Function.comp_def, Mark.code?]
  rw [outside?, marks?_plain_append d hs, Option.map_map, outside?, Option.map_map]
  congr 1
  funext ms
  rw [Function.comp_apply, List.filterMap_append, hall]
  rfl

/-! ## Reading a literal -/

/-- What a backslash that escapes makes of the next character. -/
def unescaped : Char → List Char
  | '0' => ['\x00']
  | 'b' => ['\x08']
  | 'n' => ['\n']
  | 'r' => ['\r']
  | 't' => ['\t']
  | 'Z' => ['\x1a']
  | '%' => ['\\', '%']
  | '_' => ['\\', '_']
  | c => [c]

/-- What is read up to the quote that ends a literal, which must end the text too. A doubled quote
is one quote. -/
def readRest? (d : Dialect) : List Char → Option (List Char)
  | [] => none
  | [c] => if c = '\'' then some [] else none
  | c :: next :: rest =>
    if c = '\'' then if next = '\'' then (readRest? d rest).map ('\'' :: ·) else none
    else if d.escapes .single ∧ c = '\\' then (readRest? d rest).map (unescaped next ++ ·)
    else (readRest? d (next :: rest)).map (c :: ·)

/-- **The text that a literal stands for.** -/
def readLiteral? (d : Dialect) : List Char → Option (List Char)
  | '\'' :: rest => readRest? d rest
  | _ => none

/-- A text without quotes and backslashes is read as it is. -/
theorem readRest?_append {s : List Char} (h : ∀ c ∈ s, c ≠ '\'' ∧ c ≠ '\\') :
    readRest? d (s ++ ['\'']) = some s := by
  induction s with
  | nil => rfl
  | cons c s ih =>
    obtain ⟨⟨hquote, hslash⟩, hs⟩ := List.forall_mem_cons.1 h
    -- what follows the character has at least the quote at its end
    obtain ⟨next, rest, hrest⟩ := List.exists_cons_of_ne_nil (l := s ++ ['\'']) (by simp)
    rw [List.cons_append, hrest, readRest?, if_neg hquote, if_neg fun hescape => hslash hescape.2,
      ← hrest, ih hs]
    rfl

end Sql

namespace Filter

open Sql

variable {d : Dialect}

/-! ## Numbers -/

/-- One or more digits. -/
def IsDigits (digit : Char → Bool) (s : List Char) : Prop :=
  s ≠ [] ∧ ∀ c ∈ s, digit c = true

/-- **A decimal number**: an optional minus, digits, and optionally a point and digits. -/
def IsNumeral (digit : Char → Bool) (s : List Char) : Prop :=
  ∃ sign whole fraction, s = sign ++ whole ++ fraction ∧ (sign = [] ∨ sign = ['-']) ∧
    IsDigits digit whole ∧
      (fraction = [] ∨ ∃ digits, fraction = '.' :: digits ∧ IsDigits digit digits)

theorem isDecimalDigits_iff {s : List Char} :
    isDecimalDigits s = true ↔ IsDigits Text.isDecimalDigit s := by
  rw [isDecimalDigits, IsDigits, Bool.and_eq_true, List.all_eq_true]
  simp

/-- A number without its sign: the point, if there is one, is the first one. -/
theorem isNumber_unsigned {s : List Char} :
    (match Text.cutAt '.' s with
      | some (whole, fraction) => isDecimalDigits whole && isDecimalDigits fraction
      | none => isDecimalDigits s) = true ↔
      ∃ whole fraction, s = whole ++ fraction ∧ IsDigits Text.isDecimalDigit whole ∧
        (fraction = [] ∨
          ∃ digits, fraction = '.' :: digits ∧ IsDigits Text.isDecimalDigit digits) := by
  have hpoint : ∀ {digits}, IsDigits Text.isDecimalDigit digits → '.' ∉ digits := by
    intro digits hdigits hmem
    exact absurd (hdigits.2 _ hmem) (by decide)
  constructor
  · intro h
    split at h
    · next whole fraction hcut =>
      obtain ⟨hwhole, hfraction⟩ := Bool.and_eq_true_iff.1 h
      exact ⟨whole, '.' :: fraction, (Text.cutAt_eq_some hcut).1, isDecimalDigits_iff.1 hwhole,
        .inr ⟨fraction, rfl, isDecimalDigits_iff.1 hfraction⟩⟩
    · exact ⟨s, [], by simp, isDecimalDigits_iff.1 h, .inl rfl⟩
  · rintro ⟨whole, fraction, rfl, hwhole, rfl | ⟨digits, rfl, hdigits⟩⟩
    · rw [List.append_nil, Text.cutAt_eq_none.2 (hpoint hwhole)]
      exact isDecimalDigits_iff.2 hwhole
    · rw [Text.cutAt_append (hpoint hwhole)]
      exact Bool.and_eq_true_iff.2 ⟨isDecimalDigits_iff.2 hwhole, isDecimalDigits_iff.2 hdigits⟩

/-- **What is classified as a number** is a decimal number in the digits of any scripts. -/
theorem isNumber_iff {s : List Char} :
    isNumber s = true ↔ IsNumeral Text.isDecimalDigit s := by
  have hminus : ∀ {whole : List Char} (rest : List Char), IsDigits Text.isDecimalDigit whole →
      (whole ++ rest).head? ≠ some '-' := by
    rintro whole rest ⟨hne, hdigits⟩ hhead
    obtain ⟨c, whole, rfl⟩ := List.exists_cons_of_ne_nil hne
    obtain rfl : c = '-' := by simpa using hhead
    exact absurd (hdigits '-' (List.mem_cons_self ..)) (by decide)
  rw [isNumber]
  refine isNumber_unsigned.trans ⟨?_, ?_⟩
  · rintro ⟨whole, fraction, hs, hwhole, hfraction⟩
    split at hs
    · next hhead =>
      obtain ⟨rest, rfl⟩ : ∃ rest, s = '-' :: rest := List.head?_eq_some_iff.1 hhead
      refine ⟨['-'], whole, fraction, ?_, .inr rfl, hwhole, hfraction⟩
      rw [List.append_assoc, ← hs]
      rfl
    · exact ⟨[], whole, fraction, hs, .inl rfl, hwhole, hfraction⟩
  · rintro ⟨sign, whole, fraction, rfl, rfl | rfl, hwhole, hfraction⟩
    · rw [List.nil_append, if_neg (hminus fraction hwhole)]
      exact ⟨whole, fraction, rfl, hwhole, hfraction⟩
    · exact ⟨whole, fraction, rfl, hwhole, hfraction⟩

instance (s : List Char) : Decidable (IsNumeral Text.isDecimalDigit s) :=
  decidable_of_iff _ isNumber_iff

/-- A number in digits that are digits of another kind too. -/
theorem IsNumeral.mono {digit digit' : Char → Bool} {s : List Char} (h : IsNumeral digit s)
    (hdigits : ∀ c ∈ s, digit c = true → digit' c = true) : IsNumeral digit' s := by
  have hmono : ∀ {part}, part ⊆ s → IsDigits digit part → IsDigits digit' part :=
    fun hsub hpart => ⟨hpart.1, fun c hc => hdigits c (hsub hc) (hpart.2 c hc)⟩
  obtain ⟨sign, whole, fraction, rfl, hsign, hwhole, hfraction⟩ := h
  refine ⟨sign, whole, fraction, rfl, hsign, hmono (by simp) hwhole, ?_⟩
  rcases hfraction with hnone | ⟨digits, rfl, hfraction⟩
  · exact .inl hnone
  · have hsub : digits ⊆ sign ++ whole ++ '.' :: digits :=
      List.subset_append_of_subset_right _ (List.subset_cons_self ..)
    exact .inr ⟨digits, rfl, hmono hsub hfraction⟩

theorem IsNumeral.exists_digit {digit : Char → Bool} {s : List Char} (h : IsNumeral digit s) :
    ∃ c ∈ s, digit c = true := by
  obtain ⟨sign, whole, fraction, rfl, -, ⟨hne, hdigits⟩, -⟩ := h
  obtain ⟨c, whole, rfl⟩ := List.exists_cons_of_ne_nil hne
  exact ⟨c, by simp, hdigits c (List.mem_cons_self ..)⟩

/-- **Where no digit of another script occurs**, a number is one in ASCII digits. -/
theorem isNumeral_iff_of_digits {s : List Char}
    (h : ∀ c ∈ s, Text.isDecimalDigit c = true → c.isDigit = true) :
    IsNumeral Text.isDecimalDigit s ↔ IsNumeral Char.isDigit s :=
  ⟨fun hs => hs.mono h, fun hs => hs.mono fun _ _ => Text.isDecimalDigit_of_isDigit⟩

theorem quoteSigns_not_mem_of_isNumber {s : List Char} (h : isNumber s = true) :
    ∀ c ∈ s, c ∉ quoteSigns := by
  have hsigns : ∀ x ∈ quoteSigns, x ∈ nonDigits ∧ x ≠ '-' := by decide
  have hrest := number_avoids h
  intro c hc hmem
  obtain ⟨hnondigit, hminus⟩ := hsigns c hmem
  split at hrest
  · next hhead =>
    obtain ⟨rest, rfl⟩ : ∃ rest, s = '-' :: rest := List.head?_eq_some_iff.1 hhead
    rcases List.mem_cons.1 hc with rfl | hc
    · exact hminus rfl
    · exact hrest c hc hnondigit
  · exact hrest c hc hnondigit

/-! ## Literals -/

/-- A key in quotes, without its own quotes and backslashes. -/
def quotedKey (value : String) : String :=
  "'" ++ String.ofList (value.toList.filter fun c => c ≠ '\'' ∧ c ≠ '\\') ++ "'"

/-- **How a key is written**: a number as it is, and any other text in quotes. -/
inductive KeyLiteral (value : String) : String → Prop
  | number (h : IsNumeral Text.isDecimalDigit value.toList) : KeyLiteral value value
  | text (h : ¬IsNumeral Text.isDecimalDigit value.toList) : KeyLiteral value (quotedKey value)

/-- What of a key stands outside quotes: all of a number, nothing of any other text. -/
def bareKey (value : String) : String :=
  if IsNumeral Text.isDecimalDigit value.toList then value else ""

/-- One literal after an equals sign, or several in a list. -/
def oneOf : List String → String
  | [literal] => " = " ++ literal
  | literals => " IN (" ++ ",".intercalate literals ++ ")"

theorem literal_eq_quotedKey (d : Dialect) (value : String) :
    literal d value = quotedKey value := by
  have hkept : literalText '\'' value.toList =
      value.toList.filter fun c => c ≠ '\'' ∧ c ≠ '\\' := by
    refine List.filter_congr fun c _ => ?_
    by_cases hquote : c = '\'' <;> by_cases hslash : c = '\\' <;> simp [hquote, hslash]
  rw [literal, Dialect.valueQuote, hkept, quotedKey, ← String.toList_inj]
  simp

/-- **A key in the condition is written so.** -/
theorem keyLiteral_keyValue (d : Dialect) (value : String) :
    KeyLiteral value (keyValue d value) := by
  rw [keyValue, keyOperand]
  split
  · next h => exact .number (isNumber_iff.1 h)
  · next h =>
    have htext : (Operand.text value).value d .values = quotedKey value :=
      literal_eq_quotedKey d value
    rw [htext]
    exact .text fun hnumeral => h (isNumber_iff.2 hnumeral)

/-- **A literal is read back as the key exactly where nothing of the key was dropped.** -/
theorem readLiteral?_quotedKey {value : String} :
    readLiteral? d (quotedKey value).toList = some value.toList ↔
      '\'' ∉ value.toList ∧ '\\' ∉ value.toList := by
  have hread : readLiteral? d (quotedKey value).toList =
      some (value.toList.filter fun c => c ≠ '\'' ∧ c ≠ '\\') := by
    have htext : (quotedKey value).toList =
        '\'' :: ((value.toList.filter fun c => c ≠ '\'' ∧ c ≠ '\\') ++ ['\'']) := by
      simp [quotedKey]
    rw [htext]
    exact readRest?_append fun c hc => by simpa using (List.mem_filter.1 hc).2
  rw [hread, Option.some_inj, List.filter_eq_self]
  constructor
  · intro hall
    have hnot : ∀ c ∈ value.toList, c ≠ '\'' ∧ c ≠ '\\' := fun c hc => by simpa using hall c hc
    exact ⟨fun hmem => (hnot _ hmem).1 rfl, fun hmem => (hnot _ hmem).2 rfl⟩
  · rintro ⟨hquote, hslash⟩ c hc
    have hne : c ≠ '\'' ∧ c ≠ '\\' := ⟨fun h => hquote (h ▸ hc), fun h => hslash (h ▸ hc)⟩
    simpa using hne

/-! ## The condition as it is read -/

/-- What of a key in the condition stands outside quotes. -/
theorem outside?_keyValue (value : String) {t : List Char} (ht : Unquoted t) :
    outside? d ((keyValue d value).toList ++ t) =
      (outside? d t).map ((bareKey value).toList ++ ·) := by
  rw [keyValue, keyOperand, bareKey]
  split
  · next h =>
    rw [if_pos (isNumber_iff.1 h)]
    exact outside?_plain (quoteSigns_not_mem_of_isNumber h) t
  · next h =>
    rw [if_neg fun hnumeral => h (isNumber_iff.2 hnumeral)]
    exact (outside?_quoted (isQuoted_literal d value) ht).trans (by simp)

/-- What of a list of keys does: the commas, and the numbers. -/
theorem outside?_keyValues (values : List String) {t : List Char} (ht : Unquoted t) :
    outside? d ((",".intercalate (values.map (keyValue d))).toList ++ t) =
      (outside? d t).map ((",".intercalate (values.map bareKey)).toList ++ ·) := by
  induction values with
  | nil => simp [String.intercalate]
  | cons value values ih =>
    cases values with
    | nil =>
      rw [List.map_singleton, List.map_singleton, String.intercalate_singleton,
        String.intercalate_singleton]
      exact outside?_keyValue value ht
    | cons next values =>
      rw [List.map_cons, List.map_cons, String.intercalate_cons_cons, List.map_cons, List.map_cons,
        String.intercalate_cons_cons]
      simp only [String.toList_append, List.append_assoc]
      rw [outside?_keyValue value
          (unquoted_plain_append (s := ",".toList) (by decide) (by decide) _),
        outside?_plain (s := ",".toList) (by decide)]
      rw [List.map_cons, List.map_cons] at ih
      rw [ih, Option.map_map, Option.map_map]
      rfl

theorem outside?_names (table column : String) {t : List Char} (ht : Unquoted t) :
    outside? d ((d.quoteIdent table ++ "." ++ d.quoteIdent column).toList ++ t) =
      (outside? d t).map (".".toList ++ ·) := by
  simp only [String.toList_append, List.append_assoc]
  rw [outside?_quoted (isQuoted_quoteIdent d table)
      (unquoted_plain_append (s := ".".toList) (by decide) (by decide) _),
    outside?_plain (s := ".".toList) (by decide),
    outside?_quoted (isQuoted_quoteIdent d column) ht]

/-- What of the comparison with keys does: all but the keys that are no numbers. -/
theorem outside?_oneOf {values : List String} (hne : values ≠ []) :
    outside? d (oneOf (values.map (keyValue d))).toList =
      some (oneOf (values.map bareKey)).toList := by
  have hend : outside? d [] = some [] := rfl
  match values, hne with
  | [value], _ =>
    have hvalue := outside?_keyValue (d := d) value (t := []) (by simp [Unquoted])
    rw [List.append_nil, hend] at hvalue
    have hequals := outside?_plain (d := d) (s := " = ".toList) (by decide)
      (keyValue d value).toList
    rw [hvalue] at hequals
    simpa [oneOf] using hequals
  | first :: second :: rest, _ =>
    have hclose := outside?_plain (d := d) (s := ")".toList) (by decide) []
    have hvalues := outside?_keyValues (d := d) (first :: second :: rest) (t := ")".toList)
      (unquoted_cons (by decide) _)
    have hopen := outside?_plain (d := d) (s := " IN (".toList) (by decide)
      ((",".intercalate ((first :: second :: rest).map (keyValue d))).toList ++ ")".toList)
    rw [List.append_nil, hend] at hclose
    rw [hvalues, hclose] at hopen
    simpa [oneOf] using hopen

theorem unquoted_oneOf (literals : List String) : Unquoted (oneOf literals).toList := by
  match literals with
  | [_] | [] | _ :: _ :: _ =>
    simp only [oneOf, String.toList_append, List.append_assoc]
    exact unquoted_plain_append (by decide) (by decide) _

/-- The condition on keys compares the column with them. -/
theorem keysCondition_eq (d : Dialect) (table column : String) (values : List String) :
    keysCondition d table column values =
      d.quoteIdent table ++ "." ++ d.quoteIdent column ++ oneOf (values.map (keyValue d)) := by
  match values with
  | [] => rfl
  | [value] => rfl
  | first :: second :: rest => rfl

/-- **What stands outside quotes in the condition on keys.** -/
theorem outside?_keysCondition (table column : String) {values : List String}
    (hne : values ≠ []) :
    outside? d (keysCondition d table column values).toList =
      some ("." ++ oneOf (values.map bareKey)).toList := by
  have hnames := outside?_names (d := d) table column
    (unquoted_oneOf (values.map (keyValue d)))
  rw [outside?_oneOf hne] at hnames
  rw [keysCondition_eq, String.toList_append, hnames, String.toList_append]
  rfl

/-- **Keys in SQL**, whatever texts they are. In a dialect that writes filters there is a condition
for any keys: the column, and one literal for each key. Numbers stand in it bare, and nothing else
of any key does. A literal in quotes is read back as the key exactly where the key had neither
quotes nor backslashes. A number is one in ASCII digits, if no other digits occur in it. -/
theorem equality_literals (hd : d.supportsFilters = true) (table column : String)
    {values : List String} (hne : values ≠ []) :
    ∃ literals sql, equality d table column values = .ok sql ∧
      List.Forall₂ KeyLiteral values literals ∧
      sql = d.quoteIdent table ++ "." ++ d.quoteIdent column ++ oneOf literals ∧
      outside? d sql.toList = some ("." ++ oneOf (values.map bareKey)).toList ∧
      ∀ value ∈ values,
        (readLiteral? d (quotedKey value).toList = some value.toList ↔
          '\'' ∉ value.toList ∧ '\\' ∉ value.toList) ∧
        ((∀ c ∈ value.toList, Text.isDecimalDigit c = true → c.isDigit = true) →
          (IsNumeral Text.isDecimalDigit value.toList ↔ IsNumeral Char.isDigit value.toList)) := by
  have hwritten : List.Forall₂ KeyLiteral values (values.map (keyValue d)) :=
    List.forall₂_map_right_iff.2 (List.forall₂_same.2 fun value _ => keyLiteral_keyValue d value)
  exact ⟨values.map (keyValue d), keysCondition d table column values,
    equality_eq_ok.2 ⟨hd, hne, rfl⟩, hwritten, keysCondition_eq d table column values,
    outside?_keysCondition table column hne,
    fun value _ => ⟨readLiteral?_quotedKey, isNumeral_iff_of_digits⟩⟩

theorem equality_literals_mysql :
    (Dialect.mysql.supportsFilters = true ∧ ["-3.5", "O'Hara", "7 or 1=1"] ≠ []) ∧
      ∃ literals sql,
        equality .mysql "users" "id" ["-3.5", "O'Hara", "7 or 1=1"] = .ok sql ∧
          List.Forall₂ KeyLiteral ["-3.5", "O'Hara", "7 or 1=1"] literals ∧
          sql = "`users`.`id`" ++ oneOf literals ∧
          sql = "`users`.`id` IN (-3.5,'OHara','7 or 1=1')" ∧
          outside? .mysql sql.toList = some ". IN (-3.5,,)".toList := by
  obtain ⟨literals, sql, hequality, hliterals, hsql, houtside, -⟩ :=
    @equality_literals .mysql rfl "users" "id" ["-3.5", "O'Hara", "7 or 1=1"] (by decide)
  have heval : equality .mysql "users" "id" ["-3.5", "O'Hara", "7 or 1=1"] =
      .ok "`users`.`id` IN (-3.5,'OHara','7 or 1=1')" := by decide +kernel
  have htext : sql = "`users`.`id` IN (-3.5,'OHara','7 or 1=1')" := by
    rw [heval] at hequality
    exact (Except.ok.inj hequality).symm
  have hbare : ("." ++ oneOf (["-3.5", "O'Hara", "7 or 1=1"].map bareKey)).toList =
      ". IN (-3.5,,)".toList := by decide +kernel
  rw [hbare] at houtside
  exact ⟨⟨rfl, by decide⟩, literals, sql, hequality, hliterals, hsql, htext, houtside⟩

/-- A digit that a database does not read as one stands outside quotes, though it is no number. -/
theorem equality_foreign_digit :
    ¬IsNumeral Char.isDigit "\u0663".toList ∧
      equality .sqlite "t" "id" ["\u0663"] = .ok "\"t\".\"id\" = \u0663" ∧
      "\"t\".\"id\" = \u0663" ≠ "\"t\".\"id\"" ++ oneOf [quotedKey "\u0663"] ∧
      outside? .sqlite "\"t\".\"id\" = \u0663".toList = some ". = \u0663".toList := by
  refine ⟨fun h => ?_, by decide +kernel, by decide +kernel, by decide +kernel⟩
  obtain ⟨c, hc, hdigit⟩ := h.exists_digit
  obtain rfl : c = '\u0663' := by simpa using hc
  exact absurd hdigit (by decide)

end Filter

end TableApi
