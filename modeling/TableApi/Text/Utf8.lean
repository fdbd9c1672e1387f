/-!
# UTF-8

Characters to bytes and back. The decoder is a machine that reads one byte at a time: between
characters, or inside one with so many bytes owed and a range for the next of them. A byte outside
that range ends the character as malformed and is read again as the start of the next one, so each
malformed stretch (a maximal beginning of a valid sequence, or a single stray byte) is reported
once. `decodeLossy` writes the replacement character for it, `decode?` refuses the text.
-/

namespace TableApi.Text.Utf8

/-- The bytes of a text. -/
def encode (s : List Char) : List UInt8 :=
  s.flatMap String.utf8EncodeChar

/-- **A character in progress.** -/
structure Unfinished where
  /-- The bits read so far. -/
  value : Nat
  /-- How many bytes are still owed. -/
  owed : Nat
  /-- Least value of the next byte. -/
  lo : Nat := 0x80
  /-- Greatest value of the next byte. -/
  hi : Nat := 0xBF

/-- What a first byte begins: a whole character, a character in progress, or nothing. -/
inductive Lead
  | whole (c : Char)
  | opens (p : Unfinished)
  | stray

/-- The byte as the first of a character. The ranges of the second byte leave out overlong forms,
surrogates and everything above the last code point. -/
def Lead.ofByte (b : UInt8) : Lead :=
  let n := b.toNat
  if n < 0x80 then .whole (Char.ofNat n)
  else if n < 0xC2 then .stray
  else if n < 0xE0 then .opens { value := n - 0xC0, owed := 1 }
  else if n == 0xE0 then .opens { value := 0, owed := 2, lo := 0xA0 }
  else if n == 0xED then .opens { value := 0xD, owed := 2, hi := 0x9F }
  else if n < 0xF0 then .opens { value := n - 0xE0, owed := 2 }
  else if n == 0xF0 then .opens { value := 0, owed := 3, lo := 0x90 }
  else if n < 0xF4 then .opens { value := n - 0xF0, owed := 3 }
  else if n == 0xF4 then .opens { value := 4, owed := 3, hi := 0x8F }
  else .stray

/-- What is reported for a first byte, and the state after it. -/
def Lead.report : Lead → List (Option Char) × Option Unfinished
  | .whole c => ([some c], none)
  | .opens p => ([], some p)
  | .stray => ([none], none)

/-- One byte read in a state: what it completes, and the state after it. -/
def step (state : Option Unfinished) (b : UInt8) : List (Option Char) × Option Unfinished :=
  match state with
  | none => (Lead.ofByte b).report
  | some p =>
    if p.lo ≤ b.toNat && b.toNat ≤ p.hi then
      let value := p.value * 64 + (b.toNat - 0x80)
      if p.owed ≤ 1 then ([some (Char.ofNat value)], none)
      else ([], some { value := value, owed := p.owed - 1 })
    else
      let (cs, state) := (Lead.ofByte b).report
      (none :: cs, state)

/-- The characters of a byte sequence read from a state, `none` for each malformed stretch. -/
def pieces (state : Option Unfinished) : List UInt8 → List (Option Char)
  | [] => if state.isSome then [none] else []
  | b :: bytes =>
    let (cs, state) := step state b
    cs ++ pieces state bytes

/-- The text with the replacement character for each malformed stretch. -/
def decodeLossy (bytes : List UInt8) : List Char :=
  (pieces none bytes).map (·.getD '\ufffd')

/-- The text, if no stretch is malformed. -/
def decode? (bytes : List UInt8) : Option (List Char) :=
  (pieces none bytes).mapM id

example : decodeLossy [0x61, 0xE2, 0x82, 0xF0, 0x9F, 0x98, 0x80, 0xC0, 0x80] =
    ['a', '\ufffd', '😀', '\ufffd', '\ufffd'] := by decide

end TableApi.Text.Utf8
