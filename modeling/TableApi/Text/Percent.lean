import TableApi.Text.Utf8

/-!
# Percent encoding

A percent sign and two hexadecimal digits stand for a byte; a percent sign without them stands for
itself. The bytes are then read as UTF-8, a malformed stretch as the replacement character.
-/

namespace TableApi.Text.Percent

/-- The value of a hexadecimal digit of either case. -/
def hexValue? (b : UInt8) : Option UInt8 :=
  if 48 ≤ b && b ≤ 57 then some (b - 48)
  else if 65 ≤ b && b ≤ 70 then some (b - 55)
  else if 97 ≤ b && b ≤ 102 then some (b - 87)
  else none

/-- The bytes that an encoded byte sequence stands for. -/
def decodeBytes : List UInt8 → List UInt8
  | [] => []
  | [a] => [a]
  | [a, b] => [a, b]
  | a :: b :: c :: rest =>
    match if a = 37 then (hexValue? b).bind fun h => (hexValue? c).map (h * 16 + ·) else none with
    | some byte => byte :: decodeBytes rest
    | none => a :: decodeBytes (b :: c :: rest)

/-- The text that an encoded text stands for. -/
def decode (s : List Char) : List Char :=
  Utf8.decodeLossy (decodeBytes (Utf8.encode s))

example : decode "a%2Cb%zz%".toList = "a,b%zz%".toList := by decide

end TableApi.Text.Percent
