import WireSchema.Text.Case.Table

/-! Upper and lower case of all Unicode letters. A character may have several characters as its
upper or lower case, and a sigma at the end of a word has a lower case of its own. -/
namespace WireSchema.Text

def inRanges (ranges : List (Nat × Nat)) (c : Char) : Bool :=
  ranges.any fun r => r.1 ≤ c.toNat && c.toNat ≤ r.2

def inRuns (runs : List Run) (c : Char) : Bool := runs.any (·.contains c.toNat)

def isAscii (c : Char) : Bool := c.toNat < 0x80

def isAlphanumeric (c : Char) : Bool :=
  if isAscii c then c.isAlphanum else inRanges alphanumericRanges c

def isUppercase (c : Char) : Bool := if isAscii c then c.isUpper else inRuns uppercaseRuns c

def isLowercase (c : Char) : Bool := if isAscii c then c.isLower else inRuns lowercaseRuns c

def isCased (c : Char) : Bool := isUppercase c || isLowercase c || inRuns titlecaseRuns c

def isCaseIgnorable (c : Char) : Bool := inRanges caseIgnorableRanges c

def caseMap (shifts : List Shift) (expansions : List (Nat × List Nat)) (c : Char) : List Char :=
  match shifts.find? (·.run.contains c.toNat) with
  | some s => [Char.ofNat (c.toNat + s.distance).toNat]
  | none =>
    match expansions.lookup c.toNat with
    | some image => image.map Char.ofNat
    | none => [c]

def lower (c : Char) : List Char :=
  if isAscii c then [c.toLower] else caseMap lowerShifts lowerExpansions c

def upper (c : Char) : List Char :=
  if isAscii c then [c.toUpper] else caseMap upperShifts upperExpansions c

def nextIsCased (s : List Char) : Bool :=
  match s.dropWhile isCaseIgnorable with
  | c :: _ => isCased c
  | [] => false

/-- The lower case of a text, where `before` is the text in front of it in reverse. A capital sigma
is final if a letter stands before it and none behind it. -/
def lowerFrom (before : List Char) : List Char → List Char
  | [] => []
  | 'Σ' :: rest =>
    let image := if nextIsCased before && !nextIsCased rest then 'ς' else 'σ'
    image :: lowerFrom ('Σ' :: before) rest
  | c :: rest => lower c ++ lowerFrom (c :: before) rest

def toLower (s : List Char) : List Char := lowerFrom [] s

def capitalize : List Char → List Char
  | [] => []
  | c :: rest => upper c ++ rest

def asciiLower (s : String) : String := s.map Char.toLower

end WireSchema.Text
