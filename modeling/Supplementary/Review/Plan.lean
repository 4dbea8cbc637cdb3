/-
# The review plan

`plan` validates its inputs, inventories the diff, turns the file, hunk and semantic-group
boundaries into preferred cuts and indivisible ranges, partitions, and checks that the frozen
budgets cover one review for each unit and one integration review.  It returns the manifest, in
which every unit lists the part of each file and hunk it holds, together with the chunks.

The manifest's spans are each unit's range clipped to a file, so that they tile the file is the
library's `Tiles.clips` at the units' ranges (`plan_spec`).
-/
import Supplementary.Review.Partition

namespace Supplementary.Review

open Supplementary Tiling

/-! ## 1. Preferred cuts and indivisible ranges -/

/-- File boundaries, and the hunk boundaries of the files no unit can hold. -/
def recordBoundaries (files : List FileRecord) : List Nat :=
  files.map FileRecord.stop ++ files.flatMap fun file =>
    if maxUnitBytes < file.stop - file.start then file.hunks.map Hunk.stop else []

/-- `by_path[path]`, checked.  The inventory's paths are distinct, so the first record of a path
is the one the dict holds. -/
def recordOf (files : List FileRecord) (path : PyStr) : Py FileRecord :=
  match files.find? fun file => file.path = path with
  | none => .error (.reviewError "missing-semantic-group-path")
  | some file => .ok file

/-- The range of one group: the smallest start and the largest end of its records. -/
def groupRange (files : List FileRecord) (group : List PyStr) : Py (Nat × Nat) := do
  match ← group.mapM (recordOf files) with
  | [] => .error (.valueError "min() arg is an empty sequence")
  | file :: rest =>
    .ok (rest.foldl (fun m f => min m f.start) file.start,
      rest.foldl (fun m f => max m f.stop) file.stop)

/-- The order `sorted` puts pairs in. -/
def rangeLe (p q : Nat × Nat) : Prop := p.1 < q.1 ∨ (p.1 = q.1 ∧ p.2 ≤ q.2)

instance : DecidableRel rangeLe := fun p q =>
  inferInstanceAs (Decidable (p.1 < q.1 ∨ (p.1 = q.1 ∧ p.2 ≤ q.2)))

/-- The merge loop; `merged` is the source's list with its last element first. -/
def mergeRanges (merged : List (Nat × Nat)) (boundaries : List Nat) :
    List (Nat × Nat) → Py (List (Nat × Nat) × List Nat)
  | [] => .ok (merged.reverse, boundaries)
  | range :: rest => do
    let merged := absorb merged range
    let top := merged.headD range
    require (top.2 - top.1 ≤ maxUnitBytes) "semantic-group-over-limit"
    mergeRanges merged (boundaries ++ [top.1, top.2]) rest

/-! ## 2. The manifest -/

/-- The part of one file that lies in a unit. -/
structure Span where
  file : Nat
  start : Nat
  stop : Nat
  hunks : List Nat
  deriving DecidableEq

/-- A unit entry of the manifest. -/
structure ReviewUnit where
  ordinal : Nat
  start : Nat
  stop : Nat
  bytes : Nat
  sha256 : PyStr
  spans : List Span

structure Manifest where
  binding : Value
  assets : Assets
  policy : Policy
  policySha256 : PyStr
  totalBytes : Nat
  diffSha256 : PyStr
  files : List FileRecord
  units : List ReviewUnit

/-- `[n for n, h in enumerate(hunks) if start < h["end"] and end > h["start"]]`, from number
`n` on. -/
def hunksIn (start stop : Nat) : Nat → List Hunk → List Nat
  | _, [] => []
  | n, hunk :: hunks =>
    if start < hunk.stop ∧ hunk.start < stop then n :: hunksIn start stop (n + 1) hunks
    else hunksIn start stop (n + 1) hunks

/-- The spans of the unit `[start, stop)`, for the files from `number` on. -/
def spansIn (start stop : Nat) : Nat → List FileRecord → List Span
  | _, [] => []
  | number, file :: files =>
    if start < file.stop ∧ file.start < stop then
      { file := number, start := max start file.start, stop := min stop file.stop,
        hunks := hunksIn start stop 0 file.hunks } :: spansIn start stop (number + 1) files
    else spansIn start stop (number + 1) files

/-- The units of the chunks from `number` on, which begin at byte `start`. -/
def unitsFrom (rt : Runtime) (files : List FileRecord) : (number start : Nat) → List Bytes →
    List ReviewUnit
  | _, _, [] => []
  | number, start, chunk :: chunks =>
    let stop := start + chunk.length
    { ordinal := number, start, stop, bytes := chunk.length, sha256 := rt.sha256 chunk,
      spans := spansIn start stop 0 files } :: unitsFrom rt files (number + 1) stop chunks

/-! ## 3. The manifest as JSON -/

def ofAscii (raw : Bytes) : Value := .str ⟨raw.map UInt8.toNat⟩

def Operation.toValue : Operation → Value
  | .modify => .str "modify"
  | .add => .str "add"
  | .delete => .str "delete"

def Hunk.toValue (h : Hunk) : Value := .dict [("start", .int h.start), ("end", .int h.stop),
  ("old_start", .int h.oldStart), ("old_count", .int h.oldCount), ("new_start", .int h.newStart),
  ("new_count", .int h.newCount)]

def FileRecord.toValue (f : FileRecord) : Value := .dict [("path", .str f.path),
  ("operation", f.operation.toValue), ("old_blob", ofAscii f.oldBlob),
  ("new_blob", ofAscii f.newBlob), ("old_mode", (f.oldMode.map ofAscii).getD .none),
  ("new_mode", (f.newMode.map ofAscii).getD .none), ("start", .int f.start),
  ("end", .int f.stop), ("hunks", .list (f.hunks.map Hunk.toValue))]

def Span.toValue (s : Span) : Value := .dict [("file", .int s.file), ("start", .int s.start),
  ("end", .int s.stop), ("hunks", .list (s.hunks.map fun n => .int n))]

def ReviewUnit.toValue (u : ReviewUnit) : Value := .dict [("ordinal", .int u.ordinal),
  ("start", .int u.start), ("end", .int u.stop), ("bytes", .int u.bytes),
  ("sha256", .str u.sha256), ("spans", .list (u.spans.map Span.toValue))]

def Manifest.toValue (m : Manifest) : Value := .dict [("version", .str version),
  ("binding", m.binding), ("assets", m.assets.toValue),
  ("policy", .dict [("value", m.policy.value), ("sha256", .str m.policySha256)]),
  ("total_bytes", .int m.totalBytes), ("diff_sha256", .str m.diffSha256),
  ("files", .list (m.files.map FileRecord.toValue)),
  ("units", .list (m.units.map ReviewUnit.toValue))]

/-- `json.loads(canonical(manifest))`: two surrogates in the prompt version are joined; every
other string is checked text and comes back as it was. -/
def Manifest.reload (m : Manifest) : Manifest :=
  { m with assets := { m.assets with promptVersion := m.assets.promptVersion.reload } }

/-! ## 4. The plan -/

/-- The two budget checks: `reviews` counts one review for each unit and one integration
review. -/
def admitReviews (limits : Policy) (reviews : Nat) : Py Unit := do
  require (reviews * limits.perReviewSeconds.1 ≤ limits.maxReviewSeconds.1) "time-admission"
  require (reviews * limits.perReviewCostMicrousd.1 ≤ limits.maxCostMicrousd.1) "cost-admission"

/-- `plan(payload, binding, prompt, prompt_version, limits)`. -/
def plan (rt : Runtime) (payload : Bytes) (binding : Value) (prompt : Bytes)
    (promptVersion : PyStr) (limits : Value) : Py (Manifest × List Bytes) := do
  validateBinding binding
  let policy ← validatePolicy rt limits
  require (0 < payload.length ∧ (payload.length : Int) ≤ policy.maxTotalBytes.1) "candidate-budget"
  let files ← inventory payload
  let grouped ← policy.semanticGroups.mapM (groupRange files)
  let (groups, boundaries) ←
    mergeRanges [] (recordBoundaries files) (grouped.insertionSort rangeLe)
  let chunks ← partition payload boundaries (.int policy.maxUnits.1) groups
  admitReviews policy (chunks.length + 1)
  let assets ← assets rt prompt promptVersion
  let policyText ← canonical rt limits
  let manifest : Manifest :=
    { binding, assets, policy, policySha256 := rt.sha256 policyText, totalBytes := payload.length,
      diffSha256 := rt.sha256 payload, files, units := unitsFrom rt files 0 0 chunks }
  let _ ← canonical rt manifest.toValue
  .ok (manifest.reload, chunks)

end Supplementary.Review
