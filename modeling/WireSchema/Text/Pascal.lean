import WireSchema.Text.Case

/-! Names in Pascal case. A text is cut into words at everything that is neither letter nor digit,
and within such a part where a capital follows a small letter or starts a word after capitals. This
convention comes from outside: names are only compared with each other, and no theorem uses how a
text is cut or cased. What is proved of names holds for any other function in its place. -/
namespace WireSchema.Text

inductive LetterCase where
  | neither
  | lower
  | upper
  deriving DecidableEq

def LetterCase.after (now : LetterCase) (c : Char) : LetterCase :=
  if isLowercase c then .lower else if isUppercase c then .upper else now

/-- The words of a part without separators; `word` is the current one in reverse. -/
def splitCase (now : LetterCase) (word : List Char) : List Char → List (List Char)
  | [] => []
  | [c] => [(c :: word).reverse]
  | c :: d :: rest =>
    if now.after c = .lower ∧ isUppercase d then
      (c :: word).reverse :: splitCase .neither [] (d :: rest)
    else if now = .upper ∧ isUppercase c ∧ isLowercase d then
      word.reverse :: splitCase .neither [c] (d :: rest)
    else splitCase (now.after c) (c :: word) (d :: rest)

def splitParts : List Char → List (List Char)
  | [] => [[]]
  | c :: rest =>
    if isAlphanumeric c then
      match splitParts rest with
      | part :: parts => (c :: part) :: parts
      | [] => [[c]]
    else [] :: splitParts rest

def words (s : List Char) : List (List Char) := (splitParts s).flatMap (splitCase .neither [])

/-- The lower case of the inside of a word; a sigma is final only as its last letter. -/
def lowerWord : List Char → List Char
  | [] => []
  | ['Σ'] => ['ς']
  | c :: rest => lower c ++ lowerWord rest

def pascalWord : List Char → List Char
  | [] => []
  | c :: rest => upper c ++ lowerWord rest

def pascal (s : List Char) : List Char := (words s).flatMap pascalWord

end WireSchema.Text
