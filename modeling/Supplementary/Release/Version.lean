/-
# The version of a release

`release-version.py` derives the version of a release from the changelog fragments of the reviewed
checkout: their categories give the impact, and the impact advances the version of `galaxy.yml`.  A
checkout is the tree of its commit, from paths to blobs; `Tools` is what is used of PyYAML, of
`hashlib` and of `re`.
-/
import Supplementary.Python.Access
import Supplementary.Python.Token
import Supplementary.Python.Yaml
import Mathlib.Data.List.Dedup

namespace Supplementary.Release

open Supplementary PyStr

/-! ## 1. Checkouts -/

inductive Kind
  | file
  | symlink
  | gitlink
  deriving DecidableEq

/-- What a tree holds under a path. -/
structure Blob where
  kind : Kind
  executable : Bool
  content : Bytes
  deriving DecidableEq

/-- The paths of a commit, as `os.fsdecode` gives them, with their blobs. -/
abbrev Tree := List (PyStr × Blob)

structure Tools where
  /-- `yaml.load` of the text of a file; a repeated key raises. -/
  loadYaml : Bytes → Py Yaml
  /-- `load_json_bytes`, which refuses what is not canonical JSON of an object. -/
  loadDocument : Bytes → Py Value
  /-- `hashlib.sha256(raw).hexdigest()`. -/
  sha256 : Bytes → PyStr
  /-- `text.isdigit()`. -/
  isdigit : PyStr → Bool
  /-- What `version:` lines a `galaxy.yml` has, by the pattern of the promotion checks. -/
  galaxyVersions : Bytes → Py (List PyStr)

/-- The content of a regular file. -/
def readFile (tree : Tree) (path : PyStr) : Option Bytes :=
  match lookup tree path with
  | some ⟨.file, _, content⟩ => some content
  | _ => none

/-- `if not condition: raise VersionError(message)`, a `ValueError`. -/
def require (condition : Prop) [Decidable condition] (message : String) : Py Unit :=
  raiseUnless (.valueError message) condition

@[simp] theorem require_eq_ok {condition : Prop} [Decidable condition] {message : String}
    {u : Unit} : require condition message = .ok u ↔ condition := raiseUnless_eq_ok

/-! ## 2. Versions -/

abbrev Version := Nat × Nat × Nat

/-- `text.strip()`. -/
def strip (s : PyStr) : PyStr :=
  ⟨((s.codePoints.dropWhile isSpace).reverse.dropWhile isSpace).reverse⟩

/-- The digits at which `int` and `str` give up. -/
def maxDigits : Nat := 4300

def parseInt (digits : PyStr) : Py Nat := do
  raiseUnless (.valueError "Exceeds the limit for integer string conversion")
    (digits.length ≤ maxDigits)
  return digits.codePoints.foldl (fun n d => 10 * n + (d - 48)) 0

def renderInt (n : Nat) : Py PyStr := do
  let digits := ofInt n
  raiseUnless (.valueError "Exceeds the limit for integer string conversion")
    (digits.length ≤ maxDigits)
  return digits

/-- `parse_stable_version(value)`; the text of a value that is no text has never the form. -/
def parseStableVersion (value : Option PyStr) (label : String) : Py Version :=
  match value with
  | some s =>
    if isSemver (strip s) then
      match (strip s).split '.' with
      | [major, minor, patch] => do
        return (← parseInt major, ← parseInt minor, ← parseInt patch)
      | _ => .error (.valueError s!"{label} must be stable semantic versioning")
    else .error (.valueError s!"{label} must be stable semantic versioning")
  | none => .error (.valueError s!"{label} must be stable semantic versioning")

/-- `".".join(map(str, version))`. -/
def renderVersion (version : Version) : Py PyStr := do
  let major ← renderInt version.1
  let minor ← renderInt version.2.1
  let patch ← renderInt version.2.2
  return join "." [major, minor, patch]

def impacts : List PyStr := ["major", "minor", "patch"]

def nextVersion (current : Version) (impact : PyStr) : Py Version :=
  if impact = "major" then .ok (current.1 + 1, 0, 0)
  else if impact = "minor" then .ok (current.1, current.2.1 + 1, 0)
  else if impact = "patch" then .ok (current.1, current.2.1, current.2.2 + 1)
  else .error (.valueError "unsupported release impact")

theorem impact_of_nextVersion {current next : Version} {impact : PyStr}
    (h : nextVersion current impact = .ok next) : impact ∈ impacts := by
  unfold nextVersion at h
  by_cases hmajor : impact = "major"
  · simp [impacts, hmajor]
  · by_cases hminor : impact = "minor"
    · simp [impacts, hminor]
    · by_cases hpatch : impact = "patch"
      · simp [impacts, hpatch]
      · simp [hmajor, hminor, hpatch] at h

/-! ## 3. Fragments -/

def impactCategories : PyStr → List PyStr := fun impact =>
  if impact = "major" then ["breaking_changes", "major_changes", "removed_features"]
  else if impact = "minor" then ["deprecated_features", "minor_changes"]
  else if impact = "patch" then ["bugfixes", "security_fixes"]
  else []

def neutralCategories : List PyStr := ["known_issues", "release_summary", "trivial"]

def knownCategories : List PyStr := impacts.flatMap impactCategories ++ neutralCategories

def maxFragmentBytes : Nat := 1024 * 1024

def maxJsonBytes : Nat := 1024 * 1024

def fragmentsRoot : PyStr := "changelogs/fragments/"

/-- The suffix of the name is `.yml` or `.yaml` in some case, after a stem. -/
def hasYamlSuffix (name : PyStr) : Bool :=
  let lower : PyStr := ⟨name.codePoints.map fun c => if isUpper c then c + 32 else c⟩
  (lower.endsWith ".yml" && 4 < lower.length) || (lower.endsWith ".yaml" && 5 < lower.length)

/-- `_load_yaml(path)`. -/
def loadFragment (tools : Tools) (tree : Tree) (name : PyStr) : Py Fields :=
  match readFile tree (fragmentsRoot ++ name) with
  | none => .error (.valueError "unsafe changelog fragment")
  | some content => do
    require (content.length ≤ maxFragmentBytes) "oversized changelog fragment"
    match tools.loadYaml content with
    | .error _ => .error (.valueError "cannot parse changelog fragment")
    | .ok value => match value.orElse (.dict []) with
      | .dict payload => return payload
      | _ => .error (.valueError "changelog fragment must be a mapping")

/-- The entries of a category: a list of texts that are not blank. -/
def hasEntries : Yaml → Bool
  | .list entries => !entries.isEmpty && entries.all fun e => e.isStrOf hasText
  | _ => false

/-- The categories of a fragment that count for the impact. -/
def observedCategories (payload : Fields) : Py (List PyStr) := do
  let entries := items payload
  require (entries.all fun e => e.1 ∈ knownCategories.map Key.str)
    "unknown changelog impact categories"
  require (entries ≠ []) "empty changelog fragment"
  require (entries.all fun e => hasEntries e.2)
    "changelog category must contain nonempty text entries"
  return knownCategories.filter fun c => c ∉ neutralCategories ∧ hasField payload c

/-- `_derive_impact_from_paths(paths)`: the impact and the names of the fragments. -/
def deriveImpactFromPaths (tools : Tools) (tree : Tree) (names : List PyStr) : Py PyStr := do
  require (names.length ≤ 256) "more than 256 changelog fragments require an explicit split release"
  require (names ≠ []) "no reviewed changelog fragments exist"
  let observed ← names.mapM fun name => do
    let payload ← loadFragment tools tree name
    observedCategories payload
  match impacts.find? fun impact => observed.flatten.any (· ∈ impactCategories impact) with
  | some impact => return impact
  | none => .error (.valueError
      "changelog fragments have no explicit semantic-version impact category")

/-- The names directly under the directory of the fragments. -/
def fragmentNames (tree : Tree) : List PyStr :=
  (tree.filterMap fun e =>
    if e.1.startsWith fragmentsRoot then
      (PyStr.segments ⟨e.1.codePoints.drop fragmentsRoot.length⟩ "/").head?
    else none).dedup

/-- `derive_impact(fragments_root)`. -/
def deriveImpact (tools : Tools) (tree : Tree) : Py (PyStr × List PyStr) := do
  let names := fragmentNames tree
  require (names ≠ []) "unsafe changelog fragment directory"
  let candidates := sorted (names.filter hasYamlSuffix)
  require (candidates.all fun name => (readFile tree (fragmentsRoot ++ name)).isSome)
    "unsafe changelog fragment"
  let impact ← deriveImpactFromPaths tools tree candidates
  return (impact, candidates)

/-! ## 4. The resolution -/

/-- The immutable intake binding of a Security release. -/
structure Binding where
  chainId : PyStr
  evidenceId : PyStr
  metadataPath : PyStr
  metadataSha256 : PyStr
  intakeReceiptPath : PyStr
  intakeReceiptSha256 : PyStr
  candidateDiffSha256 : PyStr
  changelogFragmentPath : PyStr
  changelogFragmentSha256 : PyStr

/-- `load_release_security_binding(root, current, target)` of the base checkout. -/
abbrev Bindings := (currentVersion targetVersion : PyStr) → Py (Option Binding)

structure Resolution where
  currentVersion : PyStr
  impact : PyStr
  version : PyStr
  /-- The names of the fragments with their digests. -/
  fragments : List (PyStr × PyStr)

/-- The fragment that the binding names, which is directly under the directory of the fragments. -/
def boundFragment (binding : Binding) : Py PyStr := do
  let name : PyStr := ⟨binding.changelogFragmentPath.codePoints.drop fragmentsRoot.length⟩
  require (binding.changelogFragmentPath.startsWith fragmentsRoot ∧ ¬ name.contains "/")
    "Security changelog fragment is outside the configured fragment directory"
  require (hasYamlSuffix name) "Security changelog fragment must use a .yml or .yaml extension"
  return name

/-- The impact of a release and its fragments: of all, or of the one that is bound. -/
def resolveImpact (tools : Tools) (tree : Tree) (bindings : Bindings) (current : PyStr)
    (securityTarget : Option PyStr) : Py (PyStr × List PyStr) :=
  match securityTarget with
  | none => deriveImpact tools tree
  | some target => do
    let selected ← parseStableVersion (some target) "Security target version"
    let selected ← renderVersion selected
    match ← bindings current selected with
    | none => .error (.valueError "Security target has no complete immutable intake binding")
    | some binding => do
      let name ← boundFragment binding
      let impact ← deriveImpactFromPaths tools tree [name]
      require (impact = "patch") "Security release fragment must resolve to patch impact"
      return (impact, [name])

/-- `_fragment_digests(fragments_root, names)`. -/
def fragmentDigests (tools : Tools) (tree : Tree) (names : List PyStr) :
    Py (List (PyStr × PyStr)) :=
  names.mapM fun name => match readFile tree (fragmentsRoot ++ name) with
    | some content => .ok (name, tools.sha256 content)
    | none => .error .osError

/-- The mapping in `galaxy.yml`. -/
def loadGalaxy (tools : Tools) (tree : Tree) : Py Fields :=
  match readFile tree "galaxy.yml" with
  | none => .error (.valueError "unsafe collection metadata")
  | some content => do
    require (content.length ≤ maxFragmentBytes) "unsafe collection metadata"
    match tools.loadYaml content with
    | .error _ => .error (.valueError "cannot parse collection metadata")
    | .ok value => match value.orElse (.dict []) with
      | .dict fields => return fields
      | _ => .error (.valueError "galaxy.yml must be a mapping")

/-- A Security target is the reviewed version. -/
def checkTarget (securityTarget : Option PyStr) (expected : Version) : Py Unit :=
  match securityTarget with
  | none => .ok ()
  | some target => do
    let selected ← parseStableVersion (some target) "Security target version"
    require (selected = expected) "Security target does not equal the reviewed patch release"

/-- `resolve_version(galaxy_path, fragments_root, security_target=...)`, with no version
requested. -/
def resolveVersion (tools : Tools) (tree : Tree) (bindings : Bindings)
    (securityTarget : Option PyStr) : Py Resolution := do
  let galaxy ← loadGalaxy tools tree
  let version := match field galaxy "version" with
    | .str s => some s
    | _ => none
  let current ← parseStableVersion version "galaxy.yml version"
  let currentVersion ← renderVersion current
  let (impact, names) ← resolveImpact tools tree bindings currentVersion securityTarget
  let expected ← nextVersion current impact
  checkTarget securityTarget expected
  let selected ← renderVersion expected
  let digests ← fragmentDigests tools tree names
  return ⟨currentVersion, impact, selected, digests⟩

end Supplementary.Release
