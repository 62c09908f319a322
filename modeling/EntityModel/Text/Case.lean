import EntityModel.Text.CaseTable

/-!
# Upper and lower case

Full case mapping of characters and texts: a character may become several (`ß` gives `SS`), and in
a text a capital sigma that ends a word becomes the final form `ς`. Main definitions: `upper` and
`lower` for characters, `upperText` and `lowerText` for texts.
-/

namespace EntityModel.Text

def inRanges (ranges : List (Nat × Nat)) (n : Nat) : Bool :=
  ranges.any fun (first, last) => first ≤ n && n ≤ last

/-- Membership in a list of runs that step by a stride. -/
def inRuns (runs : List (Nat × Nat × Nat)) (n : Nat) : Bool :=
  runs.any fun (first, last, stride) => first ≤ n && n ≤ last && (n - first) % stride == 0

/-- The offset that the run holding `n` adds to it. -/
def offsetIn (runs : List (Nat × Nat × Nat × Int)) (n : Nat) : Option Int :=
  (runs.find? fun (first, last, stride, _) =>
    first ≤ n && n ≤ last && (n - first) % stride == 0).map fun (_, _, _, offset) => offset

def isUpper (c : Char) : Bool := inRuns CaseTable.uppercase c.toNat

def isLower (c : Char) : Bool := inRuns CaseTable.lowercase c.toNat

/-- Characters that have case: upper, lower or title case. -/
def isCased (c : Char) : Bool :=
  isUpper c || isLower c || inRanges CaseTable.titlecase c.toNat

/-- Characters that are looked through when the end of a cased word is sought. -/
def isCaseIgnorable (c : Char) : Bool := inRanges CaseTable.caseIgnorable c.toNat

/-- The case mapping given by a table of offsets and one of expansions. -/
def mapCase (offsets : List (Nat × Nat × Nat × Int)) (expansions : List (Nat × List Nat))
    (c : Char) : List Char :=
  match expansions.lookup c.toNat with
  | some codes => codes.map Char.ofNat
  | none => match offsetIn offsets c.toNat with
    | some offset => [Char.ofNat (c.toNat + offset).toNat]
    | none => [c]

def upper (c : Char) : List Char := mapCase CaseTable.upperOffsets CaseTable.upperExpansions c

/-- The lower case of a character, whatever stands beside it. -/
def lower (c : Char) : List Char := mapCase CaseTable.lowerOffsets CaseTable.lowerExpansions c

/-- The upper case of a text, character by character. -/
def upperText (text : List Char) : List Char := text.flatMap upper

/-- Whether a cased character is the first that is not looked through. -/
def startsCased (text : List Char) : Bool :=
  match text.dropWhile isCaseIgnorable with
  | c :: _ => isCased c
  | [] => false

/-- The lower case of a text, given the characters before it, nearest first. -/
def lowerAfter (before : List Char) : List Char → List Char
  | [] => []
  | c :: rest =>
    (if c = 'Σ' then [if startsCased before && !startsCased rest then 'ς' else 'σ'] else lower c)
      ++ lowerAfter (c :: before) rest

/-- The lower case of a text. A capital sigma at the end of a word takes its final form. -/
def lowerText (text : List Char) : List Char := lowerAfter [] text

end EntityModel.Text
