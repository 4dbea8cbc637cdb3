/-
# Lower case

What `str.lower` gives for a character depends on the character alone, but for a capital sigma, which
has two small letters.  With the two taken as one (`oneSigma`), the lower case of a text is put
together from that of its parts.
-/
import Supplementary.Python.Split

namespace Supplementary.PyStr

/-- `str.lower`: what the Unicode tables give for a character, and for a capital sigma whether it
ends a word, which depends on what is before it and after it. -/
structure Lowering where
  point : Nat → List Nat
  isFinal : (before after : List Nat) → Bool
  newline : point 10 = [10]

/-- `text.lower()`; `before` is what precedes, backwards. -/
def Lowering.lowerFrom (L : Lowering) : (before : List Nat) → List Nat → List Nat
  | _, [] => []
  | before, c :: rest =>
    (if c = 0x3a3 then [if L.isFinal before rest then 0x3c2 else 0x3c3] else L.point c) ++
      L.lowerFrom (c :: before) rest

def Lowering.lower (L : Lowering) (s : PyStr) : List Nat := L.lowerFrom [] s.codePoints

/-- The lower case of ASCII. -/
def asciiLowering : Lowering where
  point c := if 65 ≤ c && c ≤ 90 then [c + 32] else [c]
  isFinal _ _ := false
  newline := rfl

variable {L : Lowering}

/-- The two small letters of a capital sigma as one; no other difference is between the lower case of
a text and that of its parts. -/
def oneSigma (c : Nat) : Nat := if c = 0x3c2 then 0x3c3 else c

theorem lowerFrom_oneSigma (before text : List Nat) :
    (L.lowerFrom before text).map oneSigma =
      text.flatMap fun c => (if c = 0x3a3 then [0x3c3] else L.point c).map oneSigma := by
  induction text generalizing before with
  | nil => rfl
  | cons c rest ih =>
    rw [Lowering.lowerFrom, List.map_append, ih, List.flatMap_cons]
    congr 1
    by_cases hc : c = 0x3a3
    · cases L.isFinal before rest <;> simp [hc, oneSigma]
    · simp [hc]

theorem lower_append_oneSigma (s t : PyStr) :
    (L.lower (s ++ t)).map oneSigma = (L.lower s).map oneSigma ++ (L.lower t).map oneSigma := by
  simp only [Lowering.lower, lowerFrom_oneSigma, codePoints_append, List.flatMap_append]

end Supplementary.PyStr
