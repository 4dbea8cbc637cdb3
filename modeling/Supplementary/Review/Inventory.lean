/-
# The diff inventory

`inventory` parses a complete `git diff --binary --full-index --no-renames` payload into file
records and hunks, and fails on every byte it does not recognise.  The source walks the lines by
index, with the byte offset of each line in a table; the model carries the lines still to read
and their offset together (`Cursor`), and only `Cursor.advance` moves it.

So the facts the partitioner rests on come from one relation, `Cursor.Reaches`: what a parser
consumed is a run of whole lines, and the offset moved by exactly their bytes.  From it the file
records tile the payload, and every file starts on the `d` of its `diff --git` line, which is
why no cut at a file boundary can fall inside a character.
-/
import Supplementary.Review.Kernel

namespace Supplementary.Review

open Supplementary

/-! ## 1. Quoted paths -/

/-- The one-character escapes of Git's C-quoted paths. -/
def pathEscape (b : UInt8) : Option UInt8 :=
  ([(97, 7), (98, 8), (116, 9), (110, 10), (118, 11), (102, 12), (114, 13), (34, 34), (92, 92)] :
    List (UInt8 × UInt8)).lookup b

/-- `re.fullmatch(rb"[0-3][0-7]{2}", octal)`. -/
def isOctal (a b c : UInt8) : Bool :=
  48 ≤ a && a ≤ 51 && 48 ≤ b && b ≤ 55 && 48 ≤ c && c ≤ 55

/-- The loop over the characters between the quotes. -/
def unquote : Bytes → Py Bytes
  | [] => .ok []
  | 92 :: [] => .error (.reviewError "path-escape")
  | 92 :: e :: rest =>
    match pathEscape e with
    | some b => do .ok (b :: (← unquote rest))
    | none =>
      match rest with
      | b :: c :: rest =>
        if isOctal e b c then do
          .ok (((e.toNat - 48) * 64 + (b.toNat - 48) * 8 + (c.toNat - 48)).toUInt8 ::
            (← unquote rest))
        else .error (.reviewError "path-escape")
      | _ => .error (.reviewError "path-escape")
  | b :: rest => do .ok (b :: (← unquote rest))

/-- `path_value(raw, side)`, where `side` is `a/` or `b/`. -/
def pathValue (raw side : Bytes) : Py PyStr := do
  require (0 < raw.length ∧ raw.length ≤ 32768) "path-length"
  let raw ←
    if raw.head? = some 34 then do
      require (raw.getLast? = some 34) "path-quote"
      unquote (raw.drop 1).dropLast
    else .ok raw
  require (side.isPrefixOf raw = true) "path-prefix"
  let raw := raw.drop side.length
  require (0 ∉ raw) "binary-input"
  match utf8Decode raw with
  | none => .error (.reviewError "non-utf8-input")
  | some points => do
    let name : PyStr := ⟨points⟩
    validatePath name
    .ok name

/-! ## 2. The cursor -/

/-- The lines still to read (`lines[i:]`) and the byte offset of the first (`starts[i]`). -/
structure Cursor where
  lines : List Bytes
  offset : Nat

namespace Cursor

/-- `i += 1`. -/
def advance : Cursor → Cursor
  | ⟨[], offset⟩ => ⟨[], offset⟩
  | ⟨line :: lines, offset⟩ => ⟨lines, offset + line.length⟩

/-- `i < len(lines) and lines[i].startswith(marker)`. -/
def startsWith (c : Cursor) (marker : Bytes) : Bool :=
  match c.lines with
  | [] => false
  | line :: _ => marker.isPrefixOf line

/-- `lines[i][drop:-1]`. -/
def field (c : Cursor) (drop : Nat) : Bytes := ((c.lines.headD []).drop drop).dropLast

end Cursor

/-- `[line + b"\n" for line in payload.split(b"\n")[:-1]]`. -/
def linesOf (payload : Bytes) : List Bytes :=
  (payload.splitOn 10).dropLast.map (· ++ [10])

/-! ## 3. Records -/

/-- The three values of `operation`. -/
inductive Operation
  | modify
  | add
  | delete
  deriving DecidableEq, Repr

/-- A hunk entry of the manifest; `stop` is the source's `end`. -/
structure Hunk where
  start : Nat
  stop : Nat
  oldStart : Nat
  oldCount : Nat
  newStart : Nat
  newCount : Nat
  deriving DecidableEq, Repr

/-- A file entry of the manifest. -/
structure FileRecord where
  path : PyStr
  operation : Operation
  oldBlob : Bytes
  newBlob : Bytes
  oldMode : Option Bytes
  newMode : Option Bytes
  start : Nat
  stop : Nat
  hunks : List Hunk
  deriving DecidableEq, Repr

/-! ## 4. Mode headers -/

/-- The `field` of a mode header line. -/
inductive ModeField
  | old
  | new
  | add
  | delete
  deriving DecidableEq, Repr

/-- What the mode loop accumulates. -/
structure Modes where
  old : Option Bytes := none
  new : Option Bytes := none
  operation : Operation := .modify
  fields : List ModeField := []

/-- One iteration of the mode loop: the header is optional, its order is not. -/
def modeHeader (marker : Bytes) (field : ModeField) (m : Modes) (c : Cursor) :
    Py (Modes × Cursor) :=
  if c.startsWith marker then do
    let mode := c.field marker.length
    require (mode = bytes "100644" ∨ mode = bytes "100755") "unsupported-mode"
    let m := { m with fields := m.fields ++ [field] }
    let m := match field with
      | .old => { m with old := some mode }
      | .new => { m with new := some mode }
      | .add => { m with new := some mode, operation := .add }
      | .delete => { m with old := some mode, operation := .delete }
    .ok (m, c.advance)
  else .ok (m, c)

def modeHeaders (c : Cursor) : Py (Modes × Cursor) := do
  let (m, c) ← modeHeader (bytes "old mode ") .old {} c
  let (m, c) ← modeHeader (bytes "new mode ") .new m c
  let (m, c) ← modeHeader (bytes "new file mode ") .add m c
  modeHeader (bytes "deleted file mode ") .delete m c

/-! ## 5. The index line -/

/-- `INDEX.fullmatch(line)`: the two blobs and the optional mode. -/
def indexRecord (line : Bytes) : Option (Bytes × Bytes × Option Bytes) :=
  let old := (line.drop 6).take 40
  let new := (line.drop 48).take 40
  let tail := line.drop 88
  if (bytes "index ").isPrefixOf line ∧ old.length = 40 ∧ old.all isHex ∧
      (line.drop 46).take 2 = bytes ".." ∧ new.length = 40 ∧ new.all isHex then
    if tail = [10] then some (old, new, none)
    else if tail = bytes " 100644" ++ [10] then some (old, new, some (bytes "100644"))
    else if tail = bytes " 100755" ++ [10] then some (old, new, some (bytes "100755"))
    else none
  else none

/-- `"0" * 40`. -/
def zeroBlob : Bytes := List.replicate 40 48

/-- The blob of the empty file. -/
def emptyBlob : Bytes := bytes "e69de29bb2d1d6434b8b29ae775ad8c2e48c5391"

/-! ## 6. Hunks -/

/-- `(\d+)(?:,(\d+))?`: the start, the count if written, and what follows.  A comma must be
followed by digits: what the pattern asks for after the optional count is a blank. -/
def rangeOf (raw : Bytes) : Option (Bytes × Option Bytes × Bytes) :=
  let start := raw.takeWhile isDigit
  let rest := raw.dropWhile isDigit
  if start = [] then none
  else match rest with
    | 44 :: more =>
      let count := more.takeWhile isDigit
      if count = [] then none else some (start, some count, more.dropWhile isDigit)
    | _ => some (start, none, rest)

/-- The text after a literal, if the text starts with it. -/
def afterLiteral (literal raw : Bytes) : Option Bytes :=
  if literal.isPrefixOf raw then some (raw.drop literal.length) else none

/-- `HUNK.fullmatch(line)`: old start and count, new start and count. -/
def hunkRecord (line : Bytes) : Option (Bytes × Option Bytes × Bytes × Option Bytes) := do
  let rest ← afterLiteral (bytes "@@ -") line
  let (oldStart, oldCount, rest) ← rangeOf rest
  let rest ← afterLiteral (bytes " +") rest
  let (newStart, newCount, rest) ← rangeOf rest
  let rest ← afterLiteral (bytes " @@") rest
  if rest.getLast? = some 10 ∧ 10 ∉ rest.dropLast then
    some (oldStart, oldCount, newStart, newCount)
  else none

/-- The marker line Git writes after a last line without a newline. -/
def noNewline : Bytes := bytes "\\ No newline at end of file" ++ [10]

/-- One line of a hunk's body: its tag decides which of the two counts it uses up. -/
def hunkLine (line : Bytes) (oldLeft newLeft : Int) : Py (Int × Int) := do
  let tag := line.take 1
  require (tag = bytes " " ∨ tag = bytes "-" ∨ tag = bytes "+") "malformed-hunk-line"
  let oldLeft := if tag = bytes " " ∨ tag = bytes "-" then oldLeft - 1 else oldLeft
  let newLeft := if tag = bytes " " ∨ tag = bytes "+" then newLeft - 1 else newLeft
  require (0 ≤ oldLeft ∧ 0 ≤ newLeft) "hunk-count"
  .ok (oldLeft, newLeft)

/-- `while old_left or new_left`: the lines of one hunk's body.  A marker line counts with the
line before it. -/
def hunkBody (offset : Nat) (oldLeft newLeft : Int) : List Bytes → Py Cursor
  | [] => if oldLeft = 0 ∧ newLeft = 0 then .ok ⟨[], offset⟩
    else .error (.reviewError "truncated-hunk")
  | [line] => if oldLeft = 0 ∧ newLeft = 0 then .ok ⟨[line], offset⟩
    else do
      let (oldLeft, newLeft) ← hunkLine line oldLeft newLeft
      hunkBody (offset + line.length) oldLeft newLeft []
  | line :: marker :: rest => if oldLeft = 0 ∧ newLeft = 0 then .ok ⟨line :: marker :: rest, offset⟩
    else do
      let (oldLeft, newLeft) ← hunkLine line oldLeft newLeft
      if marker = noNewline then
        hunkBody (offset + line.length + marker.length) oldLeft newLeft rest
      else hunkBody (offset + line.length) oldLeft newLeft (marker :: rest)

/-- One hunk, and where it leaves `previous_old` and `previous_new`. -/
def hunkAt (c : Cursor) (previousOld previousNew : Int) : Py (Hunk × Cursor) := do
  match hunkRecord (c.lines.headD []) with
  | none => .error (.reviewError "malformed-hunk")
  | some (oldStart, oldCount, newStart, newCount) => do
    let oldStart ← intOfDigits oldStart
    let oldCount ← intOfDigits (oldCount.getD (bytes "1"))
    let newStart ← intOfDigits newStart
    let newCount ← intOfDigits (newCount.getD (bytes "1"))
    require (previousOld ≤ oldStart ∧ previousNew ≤ newStart) "hunk-order"
    require (0 < oldCount + newCount) "empty-hunk"
    let body := c.advance
    let after ← hunkBody body.offset oldCount newCount body.lines
    .ok ({ start := c.offset, stop := after.offset, oldStart, oldCount, newStart, newCount }, after)

/-- `while i < len(lines) and lines[i].startswith(b"@@ ")`.  Every hunk takes a line, so as many
rounds as there are lines are enough: the loop never leaves for want of rounds. -/
def hunksFrom : Nat → Cursor → (previousOld previousNew : Int) → Py (List Hunk × Cursor)
  | 0, c, _, _ => .ok ([], c)
  | rounds + 1, c, previousOld, previousNew =>
    if c.startsWith (bytes "@@ ") then do
      let (hunk, c) ← hunkAt c previousOld previousNew
      let (hunks, c) ← hunksFrom rounds c (hunk.oldStart + hunk.oldCount)
        (hunk.newStart + hunk.newCount)
      .ok (hunk :: hunks, c)
    else .ok ([], c)

/-! ## 7. File records -/

/-- A `---` or `+++` line: `/dev/null` on the absent side, else the record's own path. -/
def fileMarker (marker side : Bytes) (isAbsent : Bool) (path : PyStr) : Py Unit := do
  if isAbsent then require (marker = bytes "/dev/null") "file-marker-path"
  else
    let marker := if marker.getLast? = some 9 then marker.dropLast else marker
    require ((← pathValue marker side) = path) "file-marker-path"

/-- The part of a record after its index line: markers and hunks, or Git's empty add/delete. -/
def hunksOf (c : Cursor) (operation : Operation) (oldBlob newBlob : Bytes) (path : PyStr) :
    Py (List Hunk × Cursor) :=
  if c.startsWith (bytes "--- ") then do
    require (c.advance.startsWith (bytes "+++ ") = true) "file-markers"
    fileMarker (c.field 4) (bytes "a/") (operation = .add) path
    fileMarker (c.advance.field 4) (bytes "b/") (operation = .delete) path
    let c := c.advance.advance
    let (hunks, c) ← hunksFrom c.lines.length c (-1) (-1)
    require (hunks ≠ []) "missing-hunk"
    .ok (hunks, c)
  else do
    require ((operation = .add ∧ newBlob = emptyBlob) ∨
      (operation = .delete ∧ oldBlob = emptyBlob)) "binary-or-unsupported-record"
    .ok ([], c)

/-- The header line: under `--no-renames` the two encoded paths have equal length, so the
midpoint separates them whatever they contain. -/
def headerPath (c : Cursor) : Py PyStr := do
  let header := c.field 11
  let midpoint := header.length / 2
  require (header.length % 2 = 1 ∧ header[midpoint]? = some 32) "malformed-path-header"
  let oldPath ← pathValue (header.take midpoint) (bytes "a/")
  let newPath ← pathValue (header.drop (midpoint + 1)) (bytes "b/")
  require (oldPath = newPath) "rename-record"
  .ok oldPath

/-- One iteration of `inventory`'s loop. -/
def fileRecord (c : Cursor) (seen : List PyStr) : Py (FileRecord × Cursor) := do
  let start := c.offset
  require (c.startsWith (bytes "diff --git ") = true) "malformed-file-header"
  let path ← headerPath c
  require (path ∉ seen) "duplicate-path"
  let (m, c) ← modeHeaders c.advance
  require (m.fields = [] ∨ m.fields = [.old, .new] ∨ m.fields = [.add] ∨ m.fields = [.delete])
    "contradictory-mode-headers"
  require (m.fields ≠ [.old, .new] ∨ m.old ≠ m.new) "unchanged-mode-headers"
  require (c.lines ≠ []) "missing-index"
  match indexRecord (c.lines.headD []) with
  | none => .error (.reviewError "missing-full-index-or-unsupported-change")
  | some (oldBlob, newBlob, mode) => do
    require (mode = none ∨ (m.old = none ∧ m.new = none)) "ambiguous-mode"
    let oldMode := if mode = none then m.old else mode
    let newMode := if mode = none then m.new else mode
    require ((oldMode ≠ none ∨ m.operation = .add) ∧ (newMode ≠ none ∨ m.operation = .delete))
      "missing-mode"
    require ((oldBlob = zeroBlob ↔ m.operation = .add) ∧ (newBlob = zeroBlob ↔ m.operation = .delete))
      "blob-operation-mismatch"
    let (hunks, c) ← hunksOf c.advance m.operation oldBlob newBlob path
    require (c.lines = [] ∨ c.startsWith (bytes "diff --git ") = true) "binary-or-trailing-record"
    .ok ({ path, operation := m.operation, oldBlob, newBlob, oldMode, newMode, start,
           stop := c.offset, hunks }, c)

/-- `while i < len(lines)`; like `hunksFrom`, with rounds to spare. -/
def filesFrom : Nat → Cursor → List PyStr → Py (List FileRecord × Cursor)
  | 0, c, _ => .ok ([], c)
  | rounds + 1, c, seen =>
    if c.lines = [] then .ok ([], c)
    else do
      let (file, c) ← fileRecord c seen
      let (files, c) ← filesFrom rounds c (file.path :: seen)
      .ok (file :: files, c)

/-- `inventory(payload)`. -/
def inventory (payload : Bytes) : Py (List FileRecord) := do
  text payload
  require (0 < payload.length ∧ payload.length ≤ maxTotalBytes ∧ payload.getLast? = some 10)
    "diff-boundary"
  let lines := linesOf payload
  let (files, _) ← filesFrom lines.length ⟨lines, 0⟩ []
  .ok files

end Supplementary.Review
