/-
# The forms of identifiers

What the patterns of the release scripts for a version and for an identifier come down to when they
must match the whole text.
-/
import Supplementary.Python.Str

namespace Supplementary.PyStr

def isDigit (c : Nat) : Bool := 48 ≤ c && c ≤ 57

/-- `[A-Z]`. -/
def isUpper (c : Nat) : Bool := 65 ≤ c && c ≤ 90

/-- `[a-z]`. -/
def isLower (c : Nat) : Bool := 97 ≤ c && c ≤ 122

/-- `[0-9a-f]{n}`. -/
def isHex (n : Nat) (s : PyStr) : Bool :=
  s.length = n && s.codePoints.all fun c => isDigit c || (97 ≤ c && c ≤ 102)

/-- `0|[1-9][0-9]*`. -/
def isNumeral : List Nat → Bool
  | [] => false
  | [48] => true
  | c :: rest => c ≠ 48 && isDigit c && rest.all isDigit

/-- Three numerals with points between them. -/
def isSemver (s : PyStr) : Bool :=
  let parts := s.split '.'
  parts.length = 3 && parts.all fun part => isNumeral part.codePoints

/-- `start[first][rest]{low,high}`. -/
def isToken (start : PyStr) (first rest : Nat → Bool) (low : Nat) (high : Option Nat) (s : PyStr) :
    Bool :=
  match s.codePoints.drop start.length with
  | c :: tail => s.startsWith start && first c && decide (low ≤ tail.length) &&
      high.all (fun n => decide (tail.length ≤ n)) && tail.all rest
  | [] => false

/-- `[A-Z0-9]`. -/
def isCapital (c : Nat) : Bool := isUpper c || isDigit c

/-- `[A-Z0-9._-]`. -/
def isEvidenceChar (c : Nat) : Bool := isCapital c || c = 46 || c = 95 || c = 45

/-- `MLX90-[A-Z0-9][A-Z0-9._-]{2,high}`. -/
def isEvidence (high : Nat) : PyStr → Bool := isToken "MLX90-" isCapital isEvidenceChar 2 (some high)

end Supplementary.PyStr
