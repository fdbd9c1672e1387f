import TableApi.Text.CaseTable

/-!
# Upper and lower case

The full case maps of the character standard: one character may become several, and a capital
sigma that ends a word becomes the final sigma. Words of the program itself (opcodes, joiners) are
compared by `sameLetters`, which folds the ASCII letters and nothing else.
-/

namespace TableApi.Text

/-- Whether the run has the character of this code point. -/
def CaseRun.contains (r : CaseRun) (n : Nat) : Bool :=
  r.first ≤ n && n ≤ r.last && (n - r.first) % r.step == 0

/-- The character that a member of the run maps to. -/
def CaseRun.shifted (r : CaseRun) (n : Nat) : Char :=
  Char.ofNat ((n : Int) + r.shift).toNat

/-- One character through a case map beyond ASCII: an expansion, a run, or itself. -/
def mapCase (expansions : List (Char × List Char)) (runs : List CaseRun) (c : Char) : List Char :=
  match expansions.lookup c with
  | some cs => cs
  | none =>
    match runs.find? (·.contains c.toNat) with
    | some r => [r.shifted c.toNat]
    | none => [c]

/-- Upper case of one character. -/
def upperChar (c : Char) : List Char :=
  if c.toNat < 128 then [c.toUpper] else mapCase upperExpansions upperRuns c

/-- Lower case of one character, whatever stands around it. -/
def lowerChar (c : Char) : List Char :=
  if c.toNat < 128 then [c.toLower] else mapCase lowerExpansions lowerRuns c

/-- The character carries case. -/
def isCased (c : Char) : Bool :=
  casedRanges.any fun (a, b) => a ≤ c.toNat && c.toNat ≤ b

/-- The character is looked through when a letter's neighbour is sought. -/
def isCaseIgnorable (c : Char) : Bool :=
  caseIgnorableRanges.any fun (a, b) => a ≤ c.toNat && c.toNat ≤ b

/-- The first character that is not looked through carries case. -/
def meetsCased (s : List Char) : Bool :=
  (s.dropWhile isCaseIgnorable).head?.any isCased

/-- **Lower case in context.** `before` holds the characters already passed, last first. A capital
sigma with a letter before it and none after it becomes the final sigma. -/
def lowerAfter (before : List Char) : List Char → List Char
  | [] => []
  | c :: rest =>
    (if c = 'Σ' then [if meetsCased before && !meetsCased rest then 'ς' else 'σ'] else lowerChar c)
      ++ lowerAfter (c :: before) rest

/-- Lower case of a text. -/
def lower (s : List Char) : List Char :=
  lowerAfter [] s

/-- Upper case of a text. -/
def upper (s : List Char) : List Char :=
  s.flatMap upperChar

/-- Lower case of a string. -/
def lowered (s : String) : String :=
  String.ofList (lower s.toList)

/-- Upper case of a string. -/
def uppered (s : String) : String :=
  String.ofList (upper s.toList)

/-- **Same letters.** The strings agree once the ASCII letters are folded to lower case. -/
def sameLetters (a b : String) : Bool :=
  a.toList.map Char.toLower == b.toList.map Char.toLower

example : uppered "poſt ß" = "POST SS" := by decide +kernel
example : lowered "ΟΔΟΣ Σ" = "οδος σ" := by decide +kernel

end TableApi.Text
