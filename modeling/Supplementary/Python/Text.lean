/-
# String methods

The `str` methods that the protocol code calls, on code points.
-/
import Supplementary.Python.Str

namespace Supplementary.PyStr

/-- `text.count(part)`: occurrences that do not overlap; the empty text occurs at every end.
`skip` is what is left of the occurrence found last. -/
def countFrom (part : List Nat) : (skip : Nat) → List Nat → Nat
  | _, [] => 0
  | skip + 1, _ :: rest => countFrom part skip rest
  | 0, c :: rest =>
    if part.isPrefixOf (c :: rest) then 1 + countFrom part (part.length - 1) rest
    else countFrom part 0 rest

def count (s part : PyStr) : Nat :=
  if part.codePoints = [] then s.length + 1 else countFrom part.codePoints 0 s.codePoints

/-- `part in text`. -/
def contains (s part : PyStr) : Bool := 0 < s.count part

/-- The segments between occurrences of a separator, from the left; `segment` is the one that is
being read, backwards. -/
def segmentsFrom (separator : List Nat) : (skip : Nat) → (segment : List Nat) → List Nat → List PyStr
  | _, segment, [] => [⟨segment.reverse⟩]
  | skip + 1, segment, _ :: rest => segmentsFrom separator skip segment rest
  | 0, segment, c :: rest =>
    if separator.isPrefixOf (c :: rest) then
      ⟨segment.reverse⟩ :: segmentsFrom separator (separator.length - 1) [] rest
    else segmentsFrom separator 0 (c :: segment) rest

/-- `text.split(separator)` for a separator that is not empty. -/
def segments (s separator : PyStr) : List PyStr := segmentsFrom separator.codePoints 0 [] s.codePoints

/-- `separator.join(parts)`. -/
def join (separator : PyStr) : List PyStr → PyStr
  | [] => ⟨[]⟩
  | [s] => s
  | s :: rest => s ++ separator ++ join separator rest

/-- `text.replace(old, new)` for an old text that is not empty. -/
def replace (s old new : PyStr) : PyStr := join new (s.segments old)

/-- `text.partition(":")`, or `none` if there is no colon. -/
def partitionColon (s : PyStr) : Option (PyStr × PyStr) :=
  match s.codePoints.span (· ≠ 58) with
  | (field, _ :: value) => some (⟨field⟩, ⟨value⟩)
  | (_, []) => none

/-- `text.partition(separator)`: what stands before the first separator, and what after it. -/
def breakOn (s separator : PyStr) : PyStr × Option PyStr :=
  match s.segments separator with
  | before :: after :: rest => (before, some (join separator (after :: rest)))
  | _ => (s, none)

/-- `text.split(separator)[-1]`. -/
def lastSegment (s separator : PyStr) : PyStr := (s.segments separator).getLastD s

/-- The characters that end a line for `str.splitlines`. -/
def isLineEnd (c : Nat) : Bool :=
  (10 ≤ c && c ≤ 13) || (28 ≤ c && c ≤ 30) || c = 0x85 || c = 0x2028 || c = 0x2029

/-- `text.splitlines()`; `line` is the one that is being read, backwards. -/
def linesFrom : (line : List Nat) → List Nat → List PyStr
  | [], [] => []
  | line, [] => [⟨line.reverse⟩]
  | line, 13 :: 10 :: rest => ⟨line.reverse⟩ :: linesFrom [] rest
  | line, c :: rest =>
    if isLineEnd c then ⟨line.reverse⟩ :: linesFrom [] rest else linesFrom (c :: line) rest

def splitLines (s : PyStr) : List PyStr := linesFrom [] s.codePoints

/-- `char.isspace()`. -/
def isSpace (c : Nat) : Bool :=
  (9 ≤ c && c ≤ 13) || (28 ≤ c && c ≤ 32) || c = 0x85 || c = 0xa0 || c = 0x1680 ||
    (0x2000 ≤ c && c ≤ 0x200a) || c = 0x2028 || c = 0x2029 || c = 0x202f || c = 0x205f || c = 0x3000

/-- `bool(text.strip())`. -/
def hasText (s : PyStr) : Bool := s.codePoints.any fun c => !isSpace c

/-- `str(n)`. -/
def ofInt (n : Int) : PyStr := ofString (toString n)

/-- `sorted(texts)`. -/
def sorted (texts : List PyStr) : List PyStr := texts.insertionSort fun s t => s.le t

theorem pairwise_sorted (texts : List PyStr) : (sorted texts).Pairwise PyStr.le := by
  have : Std.Total PyStr.le := ⟨fun s t => List.le_total s.codePoints t.codePoints⟩
  have : IsTrans PyStr PyStr.le := ⟨fun s t u h h' => List.le_trans h h'⟩
  exact List.pairwise_insertionSort PyStr.le texts

/-- The same texts are sorted in one way. -/
theorem sorted_congr {texts texts' : List PyStr} (h : texts.Perm texts') :
    sorted texts = sorted texts' := by
  have hperm : (sorted texts).Perm (sorted texts') :=
    ((List.perm_insertionSort _ _).trans h).trans (List.perm_insertionSort _ _).symm
  refine hperm.eq_of_pairwise ?_ (pairwise_sorted _) (pairwise_sorted _)
  intro s t _ _ hst hts
  have hsame := List.le_antisymm hst hts
  cases s
  cases t
  exact congrArg PyStr.mk hsame

example : (segments "a: b\n\nc" "\n\n", count "ababa" "aba", replace "x\r\ny" "\r\n" "\n") =
    (([("a: b" : String), "c"] : List PyStr), 1, ("x\ny" : PyStr)) := by decide +kernel

end Supplementary.PyStr
