import Mathlib.Data.List.Forall2
import TableApi.Proofs.Text.Chars
import TableApi.Text.Percent

/-!
# Reading back what was encoded

The bytes of a text are read back as the text (`Utf8.decodeLossy_encode`). In an encoded text every
character stands for itself or is written as the codes of its bytes, in digits of either case; only
some characters have to be written so (`Percent.Coded`). As long as the percent sign is one of them,
decoding gives the text (`Percent.Coded.decode_eq`).
-/

namespace TableApi.Text

/-! ## Bytes -/

namespace Utf8

variable {b : UInt8} {p : Unfinished}

/-- The byte that begins a character of two. -/
theorem ofByte_two (hlo : 0xC2 ≤ b.toNat) (hhi : b.toNat < 0xE0) :
    Lead.ofByte b = .opens { value := b.toNat - 0xC0, owed := 1 } := by
  rw [Lead.ofByte, if_neg (by omega), if_neg (by omega), if_pos hhi]

/-- The byte that begins a character of three. Two of them narrow the next byte. -/
theorem ofByte_three (hlo : 0xE0 ≤ b.toNat) (hhi : b.toNat < 0xF0) :
    Lead.ofByte b = .opens
      { value := b.toNat - 0xE0, owed := 2, lo := if b.toNat = 0xE0 then 0xA0 else 0x80,
        hi := if b.toNat = 0xED then 0x9F else 0xBF } := by
  rw [Lead.ofByte, if_neg (by omega), if_neg (by omega), if_neg (by omega)]
  by_cases hfirst : b.toNat = 0xE0
  · simp [hfirst]
  · by_cases hsurrogates : b.toNat = 0xED
    · simp [hsurrogates]
    · simp [hfirst, hsurrogates, hhi]

/-- The byte that begins a character of four. Two of them narrow the next byte. -/
theorem ofByte_four (hlo : 0xF0 ≤ b.toNat) (hhi : b.toNat < 0xF5) :
    Lead.ofByte b = .opens
      { value := b.toNat - 0xF0, owed := 3, lo := if b.toNat = 0xF0 then 0x90 else 0x80,
        hi := if b.toNat = 0xF4 then 0x8F else 0xBF } := by
  have hpast : ¬b.toNat = 0xE0 ∧ ¬b.toNat = 0xED := by omega
  rw [Lead.ofByte, if_neg (by omega), if_neg (by omega), if_neg (by omega)]
  by_cases hfirst : b.toNat = 0xF0
  · simp [hfirst]
  · by_cases hlast : b.toNat = 0xF4
    · simp [hlast]
    · have hmiddle : b.toNat < 0xF4 := by omega
      simp [hfirst, hlast, hpast, Nat.not_lt.2 hlo, hmiddle]

/-- A byte that begins a character of several. -/
theorem pieces_opens (h : Lead.ofByte b = .opens p) (rest : List UInt8) :
    pieces none (b :: rest) = pieces (some p) rest := by
  rw [pieces, step, h]
  rfl

theorem pieces_further (hlo : p.lo ≤ b.toNat) (hhi : b.toNat ≤ p.hi) (howed : 1 < p.owed)
    (rest : List UInt8) :
    pieces (some p) (b :: rest) =
      pieces (some { value := p.value * 64 + (b.toNat - 0x80), owed := p.owed - 1 }) rest := by
  simp [pieces, step, hlo, hhi, Nat.not_le.2 howed]

theorem pieces_last (hlo : p.lo ≤ b.toNat) (hhi : b.toNat ≤ p.hi) (howed : p.owed ≤ 1)
    (rest : List UInt8) :
    pieces (some p) (b :: rest) =
      some (Char.ofNat (p.value * 64 + (b.toNat - 0x80))) :: pieces none rest := by
  simp [pieces, step, hlo, hhi, howed]

/-- **The bytes of a character** are read back as the character. -/
@[simp] theorem pieces_encodeChar (c : Char) (rest : List UInt8) :
    pieces none (String.utf8EncodeChar c ++ rest) = some c :: pieces none rest := by
  have hbyte : ∀ n, n < 256 → (UInt8.ofNat n).toNat = n := fun n => UInt8.toNat_ofNat_of_lt'
  have hvalid : c.val.toNat < 0xD800 ∨ 0xDFFF < c.val.toNat ∧ c.val.toNat < 0x110000 := c.valid
  have hc : Char.ofNat c.val.toNat = c := Char.ofNat_toNat c
  rw [String.utf8EncodeChar]
  generalize c.val.toNat = v at hvalid hc
  subst hc
  have hlast : (UInt8.ofNat (v % 64 + 128)).toNat = v % 64 + 128 := hbyte _ (by omega)
  have hthird : (UInt8.ofNat (v / 64 % 64 + 128)).toNat = v / 64 % 64 + 128 := hbyte _ (by omega)
  by_cases hone : v ≤ 127
  · have hfirst : (UInt8.ofNat v).toNat = v := hbyte _ (by omega)
    have hwhole : v < 0x80 := by omega
    rw [if_pos hone, List.singleton_append, pieces, step, Lead.ofByte, hfirst, if_pos hwhole]
    rfl
  by_cases htwo : v ≤ 2047
  · have hfirst : (UInt8.ofNat (v / 64 % 32 + 192)).toNat = v / 64 % 32 + 192 := hbyte _ (by omega)
    rw [if_neg hone, if_pos htwo, List.cons_append, List.singleton_append,
      pieces_opens (ofByte_two (by omega) (by omega)),
      pieces_last (by dsimp only; omega) (by dsimp only; omega) (Nat.le_refl 1), hfirst, hlast]
    have hv : (v / 64 % 32 + 192 - 0xC0) * 64 + (v % 64 + 128 - 0x80) = v := by omega
    rw [hv]
  by_cases hthree : v ≤ 65535
  · have hfirst : (UInt8.ofNat (v / 4096 % 16 + 224)).toNat = v / 4096 % 16 + 224 :=
      hbyte _ (by omega)
    rw [if_neg hone, if_neg htwo, if_pos hthree]
    simp only [List.cons_append, List.nil_append]
    rw [pieces_opens (ofByte_three (by omega) (by omega)),
      pieces_further (by dsimp only; split <;> omega) (by dsimp only; split <;> omega) (by simp),
      pieces_last (by dsimp only; omega) (by dsimp only; omega) (Nat.le_refl 1), hfirst, hthird,
      hlast]
    have hv : ((v / 4096 % 16 + 224 - 0xE0) * 64 + (v / 64 % 64 + 128 - 0x80)) * 64 +
        (v % 64 + 128 - 0x80) = v := by omega
    rw [hv]
  · have hfirst : (UInt8.ofNat (v / 262144 % 8 + 240)).toNat = v / 262144 % 8 + 240 :=
      hbyte _ (by omega)
    have hsecond : (UInt8.ofNat (v / 4096 % 64 + 128)).toNat = v / 4096 % 64 + 128 :=
      hbyte _ (by omega)
    rw [if_neg hone, if_neg htwo, if_neg hthree]
    simp only [List.cons_append, List.nil_append]
    rw [pieces_opens (ofByte_four (by omega) (by omega)),
      pieces_further (by dsimp only; split <;> omega) (by dsimp only; split <;> omega) (by simp),
      pieces_further (by dsimp only; omega) (by dsimp only; omega) (by simp),
      pieces_last (by dsimp only; omega) (by dsimp only; omega) (Nat.le_refl 1), hfirst, hsecond,
      hthird, hlast]
    have hv : (((v / 262144 % 8 + 240 - 0xF0) * 64 + (v / 4096 % 64 + 128 - 0x80)) * 64 +
        (v / 64 % 64 + 128 - 0x80)) * 64 + (v % 64 + 128 - 0x80) = v := by omega
    rw [hv]

/-- **The bytes of a text are read back as the text.** -/
@[simp] theorem decodeLossy_encode (s : List Char) : decodeLossy (encode s) = s := by
  have hpieces : pieces none (encode s) = s.map some := by
    induction s with
    | nil => rfl
    | cons c s ih => rw [encode, List.flatMap_cons, pieces_encodeChar, List.map_cons, ← ih, encode]
  rw [decodeLossy, hpieces, List.map_map]
  exact List.map_id s

end Utf8

/-! ## Codes -/

namespace Percent

/-- **A hexadecimal digit** of either case. -/
def IsHexDigit (n : Nat) (c : Char) : Prop :=
  c ∈ [Nat.digitChar n, (Nat.digitChar n).toUpper]

instance (n : Nat) (c : Char) : Decidable (IsHexDigit n c) :=
  inferInstanceAs (Decidable (c ∈ _))

/-- **The code of a byte**: a percent sign and its two digits. -/
def IsCode (b : UInt8) (s : List Char) : Prop :=
  ∃ high low, IsHexDigit (b.toNat / 16) high ∧ IsHexDigit (b.toNat % 16) low ∧ s = ['%', high, low]

/-- **An encoded text.** Every character is written as it is, unless it is one of the reserved ones,
or as the codes of its bytes. -/
inductive Coded (reserved : List Char) : List Char → List Char → Prop
  | nil : Coded reserved [] []
  | plain {c : Char} {s t : List Char} (hc : c ∉ reserved) (h : Coded reserved s t) :
    Coded reserved (c :: s) (c :: t)
  | code {c : Char} {codes : List (List Char)} {s t : List Char}
    (hc : List.Forall₂ IsCode (String.utf8EncodeChar c) codes) (h : Coded reserved s t) :
    Coded reserved (c :: s) (codes.flatten ++ t)

variable {reserved : List Char}

theorem Coded.mono {reserved' s t : List Char} (h : Coded reserved s t)
    (hsub : reserved' ⊆ reserved) : Coded reserved' s t := by
  induction h with
  | nil => exact .nil
  | plain hc _ ih => exact .plain (fun hmem => hc (hsub hmem)) ih
  | code hc _ ih => exact .code hc ih

theorem Coded.append {s s' t t' : List Char} (h : Coded reserved s t) (h' : Coded reserved s' t') :
    Coded reserved (s ++ s') (t ++ t') := by
  induction h with
  | nil => exact h'
  | plain hc _ ih => exact .plain hc ih
  | code hc _ ih =>
    rw [List.append_assoc]
    exact .code hc ih

/-- Texts with a mark between them, which need not be written as a code. -/
theorem Coded.intercalate {mark : Char} (hmark : mark ∉ reserved) {xs ys : List (List Char)}
    (h : List.Forall₂ (Coded reserved) xs ys) :
    Coded reserved ([mark].intercalate xs) ([mark].intercalate ys) := by
  induction h with
  | nil => exact .nil
  | @cons x y xs ys hx hrest ih =>
    cases hrest with
    | nil => simpa using hx
    | cons hx' hrest =>
      rw [List.intercalate_cons_cons, List.intercalate_cons_cons]
      exact (hx.append (.plain hmark .nil)).append ih

/-- A text without reserved characters may stand as it is. -/
theorem coded_self {s : List Char} (h : ∀ c ∈ s, c ∉ reserved) : Coded reserved s s := by
  induction s with
  | nil => exact .nil
  | cons c s ih =>
    obtain ⟨hc, hs⟩ := List.forall_mem_cons.1 h
    exact .plain hc (ih hs)

/-- The code of a character of one byte. -/
theorem Coded.byte {c high low : Char} {b : UInt8} {s t : List Char}
    (hc : String.utf8EncodeChar c = [b]) (hhigh : IsHexDigit (b.toNat / 16) high)
    (hlow : IsHexDigit (b.toNat % 16) low) (h : Coded reserved s t) :
    Coded reserved (c :: s) ('%' :: high :: low :: t) := by
  have hcode : List.Forall₂ IsCode (String.utf8EncodeChar c) [['%', high, low]] := by
    rw [hc]
    exact .cons ⟨high, low, hhigh, hlow, rfl⟩ .nil
  exact .code hcode h

/-- The digits are bytes of these values. -/
theorem hexDigits_spec : ∀ n < 16, ∀ c ∈ [Nat.digitChar n, (Nat.digitChar n).toUpper],
    String.utf8EncodeChar c = [UInt8.ofNat c.toNat] ∧
      hexValue? (UInt8.ofNat c.toNat) = some (UInt8.ofNat n) ∧ c.isAlphanum = true := by
  decide

/-- **A code is read as its byte.** -/
theorem decodeBytes_code {b : UInt8} {s : List Char} (h : IsCode b s) (rest : List UInt8) :
    decodeBytes (Utf8.encode s ++ rest) = b :: decodeBytes rest := by
  obtain ⟨high, low, hhigh, hlow, rfl⟩ := h
  have hb : b.toNat < 256 := b.toNat_lt
  obtain ⟨hhighByte, hhighValue, -⟩ := hexDigits_spec _ (by omega) high hhigh
  obtain ⟨hlowByte, hlowValue, -⟩ := hexDigits_spec _ (by omega) low hlow
  have hsum : UInt8.ofNat (b.toNat / 16) * 16 + UInt8.ofNat (b.toNat % 16) = b := by
    apply UInt8.toNat_inj.1
    simp only [UInt8.toNat_add, UInt8.toNat_mul, UInt8.toNat_ofNat', UInt8.reduceToNat]
    omega
  have hbytes : Utf8.encode ['%', high, low] =
      [37, UInt8.ofNat high.toNat, UInt8.ofNat low.toNat] := by
    simp only [Utf8.encode, List.flatMap_cons, List.flatMap_nil, hhighByte, hlowByte]
    rfl
  rw [hbytes]
  simp only [List.cons_append, List.nil_append]
  rw [decodeBytes, if_pos rfl, hhighValue, hlowValue]
  simp [hsum]

/-- A byte that is no percent sign stands for itself. -/
theorem decodeBytes_cons {b : UInt8} (hb : b ≠ 37) (rest : List UInt8) :
    decodeBytes (b :: rest) = b :: decodeBytes rest := by
  match rest with
  | [] => rfl
  | [_] => rfl
  | _ :: _ :: _ => rw [decodeBytes, if_neg hb]

/-- No byte of a character is a percent sign, unless the character is one. -/
theorem ne_of_mem_utf8EncodeChar {c : Char} (hc : c ≠ '%') :
    ∀ b ∈ String.utf8EncodeChar c, b ≠ 37 := by
  have hval : c.val.toNat ≠ 37 := fun h => hc (Char.toNat_inj.1 h)
  have hbyte : ∀ n, n < 256 → n ≠ 37 → UInt8.ofNat n ≠ 37 := by
    intro n hn hne h
    have htoNat : (UInt8.ofNat n).toNat = n := UInt8.toNat_ofNat_of_lt' hn
    rw [h] at htoNat
    exact hne htoNat.symm
  intro b hb
  rw [String.utf8EncodeChar] at hb
  generalize c.val.toNat = v at hval hb
  split at hb
  · obtain rfl := List.mem_singleton.1 hb
    exact hbyte v (by omega) hval
  split at hb
  · simp only [List.mem_cons, List.not_mem_nil, or_false] at hb
    rcases hb with rfl | rfl <;> exact hbyte _ (by omega) (by omega)
  split at hb
  · simp only [List.mem_cons, List.not_mem_nil, or_false] at hb
    rcases hb with rfl | rfl | rfl <;> exact hbyte _ (by omega) (by omega)
  · simp only [List.mem_cons, List.not_mem_nil, or_false] at hb
    rcases hb with rfl | rfl | rfl | rfl <;> exact hbyte _ (by omega) (by omega)

/-- Bytes that are no percent signs stand for themselves. -/
theorem decodeBytes_plain {bytes : List UInt8} (h : ∀ b ∈ bytes, b ≠ 37) (rest : List UInt8) :
    decodeBytes (bytes ++ rest) = bytes ++ decodeBytes rest := by
  induction bytes with
  | nil => rfl
  | cons b bytes ih =>
    obtain ⟨hb, hbytes⟩ := List.forall_mem_cons.1 h
    rw [List.cons_append, decodeBytes_cons hb, ih hbytes, List.cons_append]

theorem decodeBytes_codes {bytes : List UInt8} {codes : List (List Char)}
    (h : List.Forall₂ IsCode bytes codes) (rest : List UInt8) :
    decodeBytes (Utf8.encode codes.flatten ++ rest) = bytes ++ decodeBytes rest := by
  induction h with
  | nil => rfl
  | cons hcode _ ih =>
    rw [List.flatten_cons, Utf8.encode, List.flatMap_append, List.append_assoc]
    exact (decodeBytes_code hcode _).trans (congrArg _ ih)

/-- **An encoded text is decoded character by character.** -/
theorem Coded.decodeBytes_append {s t : List Char} (h : Coded reserved s t)
    (hpercent : '%' ∈ reserved) (rest : List UInt8) :
    decodeBytes (Utf8.encode t ++ rest) = Utf8.encode s ++ decodeBytes rest := by
  induction h with
  | nil => rfl
  | @plain c s t hc _ ih =>
    have hne : c ≠ '%' := fun heq => hc (heq ▸ hpercent)
    rw [Utf8.encode, Utf8.encode, List.flatMap_cons, List.flatMap_cons, List.append_assoc,
      List.append_assoc, decodeBytes_plain (ne_of_mem_utf8EncodeChar hne)]
    exact congrArg _ ih
  | code hcodes _ ih =>
    rw [Utf8.encode, Utf8.encode, List.flatMap_append, List.flatMap_cons, List.append_assoc,
      List.append_assoc]
    exact (decodeBytes_codes hcodes _).trans (congrArg _ ih)

/-- **An encoded text is decoded as the text.** -/
theorem Coded.decode_eq {s t : List Char} (h : Coded reserved s t) (hpercent : '%' ∈ reserved) :
    decode t = s := by
  have hbytes := h.decodeBytes_append hpercent []
  rw [List.append_nil, decodeBytes, List.append_nil] at hbytes
  rw [decode, hbytes, Utf8.decodeLossy_encode]

/-- Reserved characters do not stand in an encoded text, unless they are part of codes. -/
theorem Coded.not_mem {s t : List Char} (h : Coded reserved s t) {c : Char} (hc : c ∈ reserved)
    (hpercent : c ≠ '%') (hdigit : c.isAlphanum = false) : c ∉ t := by
  have hcode : ∀ {b s}, IsCode b s → c ∉ s := by
    rintro b s ⟨high, low, hhigh, hlow, rfl⟩ hmem
    have hb : b.toNat < 256 := b.toNat_lt
    obtain ⟨-, -, hhighDigit⟩ := hexDigits_spec _ (by omega) high hhigh
    obtain ⟨-, -, hlowDigit⟩ := hexDigits_spec _ (by omega) low hlow
    simp only [List.mem_cons, List.not_mem_nil, or_false] at hmem
    rcases hmem with rfl | rfl | rfl
    · exact hpercent rfl
    · simp [hdigit] at hhighDigit
    · simp [hdigit] at hlowDigit
  induction h with
  | nil => exact List.not_mem_nil
  | plain hplain _ ih =>
    rw [List.mem_cons, not_or]
    exact ⟨fun heq => hplain (heq ▸ hc), ih⟩
  | code hcodes _ ih =>
    rw [List.mem_append, List.mem_flatten, not_or]
    refine ⟨?_, ih⟩
    rintro ⟨code, hmem, hin⟩
    obtain ⟨k, hk, rfl⟩ := List.getElem_of_mem hmem
    exact hcode (hcodes.get (hcodes.length_eq ▸ hk) hk) hin

/-- The code of a byte, in capital digits. -/
def codeOf (b : UInt8) : List Char :=
  ['%', (Nat.digitChar (b.toNat / 16)).toUpper, (Nat.digitChar (b.toNat % 16)).toUpper]

/-- **The text in codes**, but for its plain characters. -/
def encode (plain : Char → Bool) (s : List Char) : List Char :=
  s.flatMap fun c => if plain c then [c] else ((String.utf8EncodeChar c).map codeOf).flatten

/-- It is a code of the text, if no reserved character is plain. -/
theorem coded_encode {plain : Char → Bool} (h : ∀ c ∈ reserved, plain c = false)
    (s : List Char) : Coded reserved s (encode plain s) := by
  induction s with
  | nil => exact .nil
  | cons c s ih =>
    rw [encode, List.flatMap_cons, ← encode]
    by_cases hc : plain c = true
    · rw [if_pos hc]
      refine .plain (fun hmem => ?_) ih
      simp [h c hmem] at hc
    · have hcodes : List.Forall₂ IsCode (String.utf8EncodeChar c)
          ((String.utf8EncodeChar c).map codeOf) := by
        refine List.forall₂_map_right_iff.2 (List.forall₂_same.2 fun b _ => ?_)
        exact ⟨_, _, List.mem_cons_of_mem _ (List.mem_singleton_self _),
          List.mem_cons_of_mem _ (List.mem_singleton_self _), rfl⟩
      rw [if_neg hc]
      exact .code hcodes ih

end Percent

end TableApi.Text
