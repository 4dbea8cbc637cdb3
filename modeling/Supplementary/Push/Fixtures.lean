/-
# Documented fixtures in a text

A manifest documents lines of files, by their number and digest, that look like secrets and are
none.  `mask_documented_secret_fixture_lines` replaces them in a whole text, of a file or of a diff;
`filtered_scan_chunks` does the same to chunks of a text and keeps of a line no more than its first
characters, its digest and a spooled copy.
-/
import Supplementary.Push.Lines
import Supplementary.Roles.Policy

namespace Supplementary.Push

open PyStr
open Supplementary.Roles (purePosixPath pathParts pathAsPosix)

/-- What the two filters raise. -/
inductive FixtureError
  | runtimeError (message : PyStr)
  | valueError
  | unicodeError
  deriving DecidableEq

/-! ## 1. `unquote_diff_path` -/

/-- `escapes`. -/
def escapes (c : Nat) : Option UInt8 :=
  match c with
  | 97 => some 7
  | 98 => some 8
  | 116 => some 9
  | 110 => some 10
  | 118 => some 11
  | 102 => some 12
  | 114 => some 13
  | 34 => some 34
  | 92 => some 92
  | _ => none

def isOctal (c : Nat) : Bool := 48 ≤ c && c ≤ 55

/-- `decoded.append(int(octal, 8))`: an octet, or `ValueError`. -/
def octalOctet (a b c : Nat) : Except FixtureError UInt8 :=
  let value := ((a - 48) * 8 + (b - 48)) * 8 + (c - 48)
  if value < 256 then .ok value.toUInt8 else .error .valueError

/-- The loop over the payload of a quoted path. -/
def unquoted : List Nat → Except FixtureError Bytes
  | [] => .ok []
  | [92] => .error (.runtimeError "diff path ends in escape")
  | 92 :: c :: rest =>
    match escapes c with
    | some octet => do .ok (octet :: (← unquoted rest))
    | none =>
      if !isOctal c then .error (.runtimeError "diff path escape is unsafe")
      else
        match rest with
        | d :: e :: rest =>
          if isOctal d && isOctal e then do
            let octet ← octalOctet c d e
            .ok (octet :: (← unquoted rest))
          else .error (.runtimeError "diff path octal is invalid")
        | _ => .error (.runtimeError "diff path octal is invalid")
  | c :: rest =>
    match utf8EncodePoint c with
    | some octets => do .ok (octets ++ (← unquoted rest))
    | none => .error .unicodeError

/-- A path below the root of a repository. -/
def isSafePath (path : PyStr) : Bool :=
  path ≠ "" && !path.startsWith "/" && !path.codePoints.contains 92 &&
    path.codePoints.all (fun c => 0x20 ≤ c && c ≠ 0x7f) &&
    pathAsPosix (purePosixPath path) = path &&
    (pathParts (purePosixPath path)).all fun part =>
      !(["", ".", "..", ".git"] : List PyStr).contains part

/-- `unquote_diff_path(value, prefix)`. -/
def unquoteDiffPath (value side : PyStr) : Except FixtureError (Option PyStr) :=
  if value = "/dev/null" then .ok none
  else do
    let pathValue ← if value.startsWith "\"" then
        if value.length < 2 || !value.endsWith "\"" then
          .error (.runtimeError "malformed quoted diff path")
        else do
          let decoded ← unquoted (value.codePoints.drop 1).dropLast
          match utf8Decode decoded with
          | some points => .ok ⟨points⟩
          | none => .error (.runtimeError "diff path is not UTF-8")
      else if value.codePoints.any isSpace then
        .error (.runtimeError "diff path contains whitespace")
      else .ok value
    if !pathValue.startsWith (side ++ "/") then
      .error (.runtimeError "diff path prefix is invalid")
    else
      let path : PyStr := ⟨pathValue.codePoints.drop (side.length + 1)⟩
      if isSafePath path then .ok (some path) else .error (.runtimeError "diff path is unsafe")

/-! ## 2. Hunk headers -/

/-- The decimal digits of Unicode, with their values. -/
abbrev Digits := Nat → Option Nat

/-- `\d+`: the digits and what follows them. -/
def eatNumber (digits : Digits) (text : List Nat) : Option (List Nat × List Nat) :=
  match text.takeWhile fun c => (digits c).isSome with
  | [] => none
  | number => some (number, text.dropWhile fun c => (digits c).isSome)

/-- `(?:,\d+)?`. -/
def eatCount (digits : Digits) : List Nat → List Nat
  | 44 :: rest => ((eatNumber digits rest).map Prod.snd).getD (44 :: rest)
  | text => text

def eat (literal : PyStr) (text : List Nat) : Option (List Nat) :=
  if literal.codePoints.isPrefixOf text then some (text.drop literal.length) else none

/-- The groups of `^@@ -(\d+)(?:,\d+)? \+(\d+)(?:,\d+)? @@`. -/
def hunkGroups (digits : Digits) (line : PyStr) : Option (List Nat × List Nat) := do
  let (old, text) ← eatNumber digits (← eat "@@ -" line.codePoints)
  let (new, text) ← eatNumber digits (← eat " +" (eatCount digits text))
  let _ ← eat " @@" (eatCount digits text)
  return (old, new)

/-- `int` of digits. -/
def intOf (digits : Digits) (number : List Nat) : Except FixtureError Nat :=
  if 4300 < number.length then .error .valueError
  else .ok (number.foldl (fun n c => 10 * n + (digits c).getD 0) 0)

/-! ## 3. The manifest -/

/-- What `parse_secret_fixture_manifest` makes of a manifest: by path and line number the digest of
the line.  No path is empty. -/
structure FixtureManifest where
  files : List (PyStr × List (Nat × PyStr))
  path_ne : ∀ file ∈ files, file.1 ≠ ""

/-- `documented.get(path, {})`. -/
def FixtureManifest.linesOf (documented : FixtureManifest) (path : PyStr) : List (Nat × PyStr) :=
  (documented.files.find? fun file => file.1 = path).elim [] Prod.snd

/-- `documented.get(path, {}).get(line_number)`. -/
def FixtureManifest.digestAt (documented : FixtureManifest) (path : PyStr) (lineNumber : Nat) :
    Option PyStr :=
  ((documented.linesOf path).find? fun line => line.1 = lineNumber).map Prod.snd

/-- `sha256_text` and the digits of `\d`. -/
structure Tables where
  sha256Text : PyStr → PyStr
  digits : Digits

def fixturePlaceholder : PyStr := "DOCUMENTED_SYNTHETIC_FIXTURE"

/-! ## 4. The whole text -/

section

variable (T : Tables) (documented : FixtureManifest)

/-- `documented_secret_fixture_matches`. -/
def documentedSecretFixtureMatches (path : Option PyStr) (lineNumber : Nat) (line : PyStr) : Bool :=
  match path with
  | none => false
  | some path => (documented.digestAt path lineNumber).any (T.sha256Text line = ·)

/-- The variables of the loop over the lines of a diff. -/
structure Hunks where
  oldPath : Option PyStr := none
  newPath : Option PyStr := none
  oldNumber : Nat := 0
  newNumber : Nat := 0
  inHunk : Bool := false

/-- `left or right` for two paths. -/
def orPath (left right : Option PyStr) : Option PyStr :=
  if left.any fun path => !path.codePoints.isEmpty then left else right

/-- `left or right` for two numbers. -/
def orNumber (left right : Nat) : Nat := if left ≠ 0 then left else right

/-- Where a line of a hunk stands, and the counters behind it. -/
def Hunks.pass (h : Hunks) (line : PyStr) : (Option PyStr × Nat) × Hunks :=
  if line.startsWith "+" then ((h.newPath, h.newNumber), { h with newNumber := h.newNumber + 1 })
  else if line.startsWith "-" then
    ((h.oldPath, h.oldNumber), { h with oldNumber := h.oldNumber + 1 })
  else ((orPath h.oldPath h.newPath, orNumber h.oldNumber h.newNumber),
    { h with oldNumber := h.oldNumber + 1, newNumber := h.newNumber + 1 })

/-- `line[:1] in {"+", "-", " "}`. -/
def isHunkLine (line : PyStr) : Bool :=
  line.startsWith "+" || line.startsWith "-" || line.startsWith " "

/-- `line[n:]`. -/
def sliceFrom (n : Nat) (line : PyStr) : PyStr := ⟨line.codePoints.drop n⟩

/-- One line of `mask_documented_secret_fixture_diff`: what is written for it, and the state. -/
def maskDiffLine (h : Hunks) (line : PyStr) : Except FixtureError (PyStr × Hunks) :=
  if line.startsWith "diff --git " then
    .ok (line, { h with oldPath := none, newPath := none, inHunk := false })
  else if !h.inHunk && line.startsWith "--- " then do
    let path ← unquoteDiffPath (sliceFrom 4 line) "a"
    .ok (line, { h with oldPath := path })
  else if !h.inHunk && line.startsWith "+++ " then do
    let path ← unquoteDiffPath (sliceFrom 4 line) "b"
    .ok (line, { h with newPath := path })
  else if line.startsWith "@@" then
    if h.oldPath = none ∧ h.newPath = none then
      .error (.runtimeError "planned diff hunk has no governed file path")
    else
      match hunkGroups T.digits line with
      | none => .error (.runtimeError "planned diff has a malformed hunk header")
      | some (old, new) => do
        let old ← intOf T.digits old
        let new ← intOf T.digits new
        .ok (line, { h with oldNumber := old, newNumber := new, inHunk := true })
  else if h.inHunk && isHunkLine line then
    let (place, h') := h.pass line
    .ok (if documentedSecretFixtureMatches T documented place.1 place.2 (sliceFrom 1 line)
      then fixturePlaceholder else line, h')
  else .ok (line, h)

/-- The lines, one after the other. -/
def maskDiffLines : Hunks → List PyStr → Except FixtureError (List PyStr)
  | _, [] => .ok []
  | h, line :: rest => do
    let (masked, h') ← maskDiffLine T documented h line
    .ok (masked :: (← maskDiffLines h' rest))

/-- The lines of a file, from a line number on. -/
def maskFileLines (path : Option PyStr) : (lineNumber : Nat) → List PyStr → List PyStr
  | _, [] => []
  | lineNumber, line :: rest =>
    (if documentedSecretFixtureMatches T documented path lineNumber line then fixturePlaceholder
      else line) :: maskFileLines path (lineNumber + 1) rest

/-- The lines that `mask_documented_secret_fixture_lines` gives, of a file or of a diff. -/
def maskedLines (path : Option PyStr) (diff : Bool) (value : PyStr) :
    Except FixtureError (List PyStr) :=
  if diff then maskDiffLines T documented {} value.splitLines
  else .ok (maskFileLines T documented path 1 value.splitLines)

/-- `mask_documented_secret_fixture_lines`. -/
def maskDocumentedSecretFixtureLines (path : Option PyStr) (diff : Bool) (value : PyStr) :
    Except FixtureError PyStr :=
  if diff && documented.files = [] || !diff && documented.linesOf (path.getD "") = [] then .ok value
  else do .ok (PyStr.join "\n" (← maskedLines T documented path diff value))

end

/-! ## 5. Where a line stands -/

section

variable {T : Tables} {documented : FixtureManifest}

/-- The file and the number of a line of a diff, if it is a line of a hunk, and the state behind it:
what a diff says by itself, whatever is documented. -/
def trackDiffLine (T : Tables) (h : Hunks) (line : PyStr) :
    Except FixtureError (Option (Option PyStr × Nat) × Hunks) :=
  if line.startsWith "diff --git " then
    .ok (none, { h with oldPath := none, newPath := none, inHunk := false })
  else if !h.inHunk && line.startsWith "--- " then
    (unquoteDiffPath (sliceFrom 4 line) "a").map fun path => (none, { h with oldPath := path })
  else if !h.inHunk && line.startsWith "+++ " then
    (unquoteDiffPath (sliceFrom 4 line) "b").map fun path => (none, { h with newPath := path })
  else if line.startsWith "@@" then
    if h.oldPath = none ∧ h.newPath = none then
      .error (.runtimeError "planned diff hunk has no governed file path")
    else
      match hunkGroups T.digits line with
      | none => .error (.runtimeError "planned diff has a malformed hunk header")
      | some (old, new) => do
        let old ← intOf T.digits old
        let new ← intOf T.digits new
        .ok (none, { h with oldNumber := old, newNumber := new, inHunk := true })
  else if h.inHunk && isHunkLine line then .ok (some (h.pass line).1, (h.pass line).2)
  else .ok (none, h)

/-- What is written for a line that stands at a place; a line of a diff begins with its sign. -/
def maskAt (T : Tables) (documented : FixtureManifest) (diff : Bool) (line : PyStr)
    (place : Option (Option PyStr × Nat)) : PyStr :=
  if place.any fun p => documentedSecretFixtureMatches T documented p.1 p.2
      (if diff then sliceFrom 1 line else line) then fixturePlaceholder else line

/-- Masking a line of a diff is looking up where it stands. -/
theorem maskDiffLine_eq (h : Hunks) (line : PyStr) : maskDiffLine T documented h line =
    (trackDiffLine T h line).map fun r => (maskAt T documented true line r.1, r.2) := by
  unfold maskDiffLine trackDiffLine
  split
  · rfl
  split
  · cases unquoteDiffPath (sliceFrom 4 line) "a" <;> rfl
  split
  · cases unquoteDiffPath (sliceFrom 4 line) "b" <;> rfl
  split
  · split
    · rfl
    · split
      · rfl
      · next old new _ =>
        cases intOf T.digits old with
        | error e => rfl
        | ok a => cases intOf T.digits new <;> rfl
  split <;> rfl

/-- Where the lines of a diff stand. -/
def trackDiffLines (T : Tables) :
    Hunks → List PyStr → Except FixtureError (List (Option (Option PyStr × Nat)))
  | _, [] => .ok []
  | h, line :: rest => do
    let (place, h') ← trackDiffLine T h line
    .ok (place :: (← trackDiffLines T h' rest))

theorem maskDiffLines_eq (h : Hunks) (lines : List PyStr) : maskDiffLines T documented h lines =
    (trackDiffLines T h lines).map (List.zipWith (maskAt T documented true) lines) := by
  induction lines generalizing h with
  | nil => rfl
  | cons line lines ih =>
    rw [maskDiffLines, trackDiffLines, maskDiffLine_eq]
    cases trackDiffLine T h line with
    | error e => rfl
    | ok r =>
      have hrest := ih r.2
      simp only [Except.map, ok_bind, hrest]
      cases trackDiffLines T r.2 lines <;> rfl

theorem trackDiffLines_length {h : Hunks} {lines : List PyStr}
    {places : List (Option (Option PyStr × Nat))} (htrack : trackDiffLines T h lines = .ok places) :
    places.length = lines.length := by
  induction lines generalizing h places with
  | nil =>
    cases htrack
    rfl
  | cons line lines ih =>
    obtain ⟨r, -, htrack⟩ := bind_eq_ok.mp htrack
    obtain ⟨rest, hrest, htrack⟩ := bind_eq_ok.mp htrack
    cases htrack
    rw [List.length_cons, List.length_cons, ih hrest]

/-- Where the lines of a text stand, of a diff or of the file at the path. -/
def placesOf (T : Tables) (path : Option PyStr) (diff : Bool) (lines : List PyStr) :
    Except FixtureError (List (Option (Option PyStr × Nat))) :=
  if diff then trackDiffLines T {} lines
  else .ok (lines.mapIdx fun i _ => some (path, i + 1))

theorem maskFileLines_eq (path : Option PyStr) (lineNumber : Nat) (lines : List PyStr) :
    maskFileLines T documented path lineNumber lines = List.zipWith (maskAt T documented false) lines
      (lines.mapIdx fun i _ => some (path, i + lineNumber)) := by
  induction lines generalizing lineNumber with
  | nil => rfl
  | cons line lines ih =>
    rw [maskFileLines, ih, List.mapIdx_cons, List.zipWith_cons_cons, Nat.zero_add]
    simp only [Nat.add_assoc, Nat.add_comm 1]
    rfl

/-- The masked lines are the lines, each looked up where it stands. -/
theorem maskedLines_eq (path : Option PyStr) (diff : Bool) (value : PyStr) :
    maskedLines T documented path diff value = (placesOf T path diff value.splitLines).map
      (List.zipWith (maskAt T documented diff) value.splitLines) := by
  cases diff with
  | false => exact congrArg _ (maskFileLines_eq path 1 value.splitLines)
  | true => exact maskDiffLines_eq {} value.splitLines

end

end Supplementary.Push
