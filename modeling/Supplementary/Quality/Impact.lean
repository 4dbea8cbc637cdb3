/-
# The selection of quality profiles

`scripts/select-quality-impact.py`: which of the three profiles a change set selects.  A registry
gives each family of paths its profiles; the changed paths come from the arguments or from
`git diff --name-only`, and the one file of dependencies is not classified by its path but by the
entries that differ between the base and the checkout (`dependencyImpact`).

`select` reads its inputs (`changedFilesOf`, `impactOf`) and leaves the decision to the pure function
`selection`, so that everything below is read off one equation, `select_eq_ok`.
-/
import Supplementary.Python.Split
import Supplementary.Receipt.Request
import Supplementary.Review.Quoting
import Supplementary.Roles.Policy

namespace Supplementary.Quality

open Supplementary PyStr
open Supplementary.Roles (purePosixPath pathParts pathAsPosix)
open Supplementary.Receipt (shown)

/-! ## 1. Registries -/

inductive Profile
  | applicationAcceptance
  | heavy
  | tiny
  deriving DecidableEq, Repr

/-- The members of `PROFILES`. -/
def Profile.ofText (s : PyStr) : Option Profile :=
  if s = "tiny" then some .tiny
  else if s = "heavy" then some .heavy
  else if s = "application_acceptance" then some .applicationAcceptance
  else none

/-- `FamilyPolicy`, as `_registry` lets it through. -/
structure FamilyPolicy where
  profiles : List Profile
  pathPrefixes : List PyStr
  acceptance : Profile.applicationAcceptance ∈ profiles → Profile.heavy ∈ profiles

/-- The families by their names, and the safe prefixes. -/
structure Registry where
  families : List (PyStr × FamilyPolicy)
  safe : List PyStr

/-- `text.strip()`. -/
def strip (s : PyStr) : PyStr :=
  ⟨((s.codePoints.dropWhile isSpace).reverse.dropWhile isSpace).reverse⟩

/-- The path has a root or steps out of the tree. -/
def leavesTree (s : PyStr) : Prop := (purePosixPath s).1 ≠ "" ∨ (".." : PyStr) ∈ pathParts (purePosixPath s)

instance (s : PyStr) : Decidable (leavesTree s) := by
  unfold leavesTree
  infer_instance

def unsafePrefix (pathPrefix : PyStr) : PyError :=
  .valueError ("unsafe safe Fast-Lane path prefix: " ++ shown pathPrefix.repr)

/-- The checks on one safe prefix. -/
def checkSafePrefix (pathPrefix : PyStr) : Py Unit := do
  raiseUnless (unsafePrefix pathPrefix) (0 ∉ pathPrefix.codePoints)
  raiseUnless (unsafePrefix pathPrefix)
    (pathPrefix = strip pathPrefix ∧ pathPrefix ≠ "" ∧ pathPrefix ≠ "." ∧ ¬ leavesTree pathPrefix)

/-- `policy.get("profiles")` checked against `PROFILES`; a set is built first, which an item that
cannot be hashed prevents. -/
def readProfiles (name : PyStr) (value : Yaml) : Py (List Profile) :=
  let unsupported := .valueError ("quality impact family " ++ shown name.repr ++
    " has unsupported profiles")
  match value with
  | .list [] => .error unsupported
  | .list xs =>
    if xs.any fun x => x.key?.isNone then .error .typeError
    else match (Yaml.textsOf xs).bind fun texts => texts.mapM Profile.ofText with
      | some profiles => .ok profiles
      | none => .error unsupported
  | _ => .error unsupported

/-- One item of `families.items()`. -/
def readFamily : Key × Yaml → Py (PyStr × FamilyPolicy)
  | (.str name, .dict policy) => do
    let profiles ← readProfiles name (field policy "profiles")
    if h : Profile.applicationAcceptance ∈ profiles → Profile.heavy ∈ profiles then
      match (field policy "path_prefixes").strings? with
      | some (first :: rest) => .ok (name, ⟨profiles, first :: rest, h⟩)
      | _ => .error (.valueError ("quality impact family " ++ shown name.repr ++
          " requires path prefixes"))
    else .error (.valueError ("quality impact family " ++ shown name.repr ++
      " requires heavy when it declares application_acceptance"))
  | _ => .error (.valueError "quality impact family entries must be mappings")

/-- `_registry`, after the file is parsed. -/
def registryOf (payload : Yaml) : Py Registry :=
  match payload with
  | .dict fields => do
    raiseUnless (.valueError "quality impact registry must use schema version 2")
      ((field fields "schema_version").equalsInt 2 = true)
    match field fields "families", (field fields "safe_fast_lane_path_prefixes").strings? with
    | .dict (first :: rest), some safe => do
      safe.forM checkSafePrefix
      return ⟨← (items (first :: rest)).mapM readFamily, safe⟩
    | .dict (_ :: _), none =>
      .error (.valueError "quality impact registry must declare safe Fast-Lane path prefixes")
    | _, _ => .error (.valueError "quality impact registry must declare at least one family")
  | _ => .error (.valueError "quality impact registry must use schema version 2")

/-! ## 2. Changed paths -/

/-- What the script reads: files, Git, and the YAML parser. -/
structure World where
  /-- `Path(path).read_text(encoding="utf-8")`. -/
  readText : PyStr → Py PyStr
  /-- The output of `git diff --name-only --diff-filter=ACDMRTUXB base...head`. -/
  diff : (base head : PyStr) → Py PyStr
  /-- The output of `git show base:meta/source-dependencies.yml`. -/
  showInventory : (base : PyStr) → Py PyStr
  /-- `yaml.safe_load(text)`. -/
  load : PyStr → Py Yaml
  /-- The errors of `load` that are a `yaml.YAMLError`. -/
  isYamlError : PyError → Bool

structure Arguments where
  eventName : PyStr
  baseSha : PyStr
  headSha : PyStr
  baseRef : PyStr
  headRef : PyStr
  registry : PyStr
  changedFile : List PyStr
  baseDependencyInventory : PyStr

/-- `_registry(path)`. -/
def readRegistry (w : World) (path : PyStr) : Py Registry := do
  registryOf (← w.load (← w.readText path))

def zeroSha : PyStr := ⟨List.replicate 40 48⟩

/-- `SHA.fullmatch`. -/
def isSha (s : PyStr) : Bool :=
  s.length = 40 && s.codePoints.all fun c => (48 ≤ c && c ≤ 57) || (97 ≤ c && c ≤ 102)

/-- One path of `_normalized_paths`. -/
def normalizedPath (raw : PyStr) : Py PyStr :=
  let rendered := pathAsPosix (purePosixPath (strip raw))
  if rendered = "" ∨ rendered = "." ∨ leavesTree (strip raw) then
    .error (.valueError ("unsafe changed path: " ++ shown raw.repr))
  else .ok rendered

def normalizedPaths (paths : List PyStr) : Py (List PyStr) := do
  return sorted (← paths.mapM normalizedPath).dedup

def gitChangedFiles (w : World) (baseSha headSha : PyStr) : Py (List PyStr) := do
  raiseUnless (.valueError "head SHA must be a full lowercase Git object ID") (isSha headSha = true)
  if baseSha = zeroSha then return []
  raiseUnless (.valueError "base SHA must be a full lowercase Git object ID") (isSha baseSha = true)
  normalizedPaths (← w.diff baseSha headSha).splitLines

/-- `full_matrix`, before an unavailable base is added to it. -/
def isFullMatrix (args : Arguments) : Bool :=
  args.eventName = "workflow_dispatch" ||
  (args.eventName = "push" &&
    (args.headRef = "refs/heads/main" || args.headRef.startsWith "refs/tags/")) ||
  (args.eventName = "pull_request" && args.baseRef = "main" &&
    (args.headRef = "develop" || args.headRef.startsWith "release/v"))

def indeterminatePush (args : Arguments) : Bool :=
  args.eventName = "push" && args.baseSha = zeroSha

/-- `changed_files`. -/
def changedFilesOf (w : World) (args : Arguments) : Py (List PyStr) := do
  let given ← normalizedPaths args.changedFile
  if given = [] ∧ isFullMatrix args = false ∧ indeterminatePush args = false then
    gitChangedFiles w args.baseSha args.headSha
  else return given

/-! ## 3. Dependencies -/

/-- `DEPENDENCY_INVENTORY`. -/
def dependencyInventory : PyStr := "meta/source-dependencies.yml"

/-- `_matches(path, prefix)`. -/
def matchesPath (path pathPrefix : PyStr) : Bool := path = pathPrefix || path.startsWith pathPrefix

/-- The path lies under a prefix of the family. -/
def FamilyPolicy.claims (policy : FamilyPolicy) (path : PyStr) : Bool :=
  policy.pathPrefixes.any (matchesPath path)

/-- The entries of an inventory: each key with its item and the locations of it. -/
abbrev Entries := List (PyStr × Yaml × List PyStr)

/-- One item of a section with locations. -/
def addEntry (heading identityKey : PyStr) (entries : Entries) (item : Yaml) : Py Entries :=
  let malformed := .valueError ("source dependency inventory " ++ shown heading ++
    " entry is malformed")
  let duplicate := .valueError ("source dependency inventory " ++ shown heading ++
    " has duplicate or malformed entries")
  match item with
  | .dict fields =>
    match field fields identityKey with
    | .str identity =>
      let key := heading ++ ":" ++ (identity.breakOn "@").1
      match (field fields "locations").strings? with
      | some locations =>
        if key ∈ entries.map Prod.fst then .error duplicate
        else do return entries ++ [(key, item, ← normalizedPaths locations)]
      | none => .error duplicate
    | _ => .error malformed
  | _ => .error malformed

/-- One collection, which has no location. -/
def addCollection (entries : Entries) (item : Yaml) : Py Entries :=
  let malformed := .valueError "source dependency inventory collection entry is malformed"
  match item with
  | .dict fields =>
    match field fields "name" with
    | .str name =>
      let key := "collections:" ++ name
      if key ∈ entries.map Prod.fst then
        .error (.valueError "source dependency inventory has duplicate collection entries")
      else .ok (entries ++ [(key, item, [])])
    | _ => .error malformed
  | _ => .error malformed

def listOr (e : PyError) : Yaml → Py (List Yaml)
  | .list xs => .ok xs
  | _ => .error e

/-- `_inventory_entries`, after the text is parsed. -/
def inventoryEntries (payload : Yaml) : Py Entries :=
  match payload with
  | .dict fields => do
    raiseUnless (.valueError "source dependency inventory is malformed")
      ((field fields "schema_version").equalsInt 1 = true)
    let entries ← ([("container_images", "reference"), ("derived_images", "reference"),
        ("external_products", "name")] : List (PyStr × PyStr)).foldlM
      (fun entries row => do
        let values ← listOr (.valueError ("source dependency inventory " ++ shown row.1 ++
          " is malformed")) (field fields row.1)
        values.foldlM (addEntry row.1 row.2) entries) []
    let values ← listOr (.valueError "source dependency inventory collections are malformed")
      (field fields "collections")
    values.foldlM addCollection entries
  | _ => .error (.valueError "source dependency inventory is malformed")

/-- `_base_inventory(args)`. -/
def baseInventory (w : World) (args : Arguments) : Py PyStr := do
  if args.baseDependencyInventory ≠ "" then w.readText args.baseDependencyInventory
  else
    raiseUnless (.valueError "source dependency base SHA is unavailable")
      (isSha args.baseSha = true)
    w.showInventory args.baseSha

/-- The inventories of the base and of the checkout. -/
def readInventories (w : World) (args : Arguments) : Py (Entries × Entries) := do
  let before ← inventoryEntries (← w.load (← baseInventory w args))
  let after ← inventoryEntries (← w.load (← w.readText dependencyInventory))
  return (before, after)

/-- What `_dependency_impact` returns. -/
structure Impact where
  profiles : List Profile
  affected : List PyStr
  keys : List PyStr
  unknown : Bool
  requiresFastLane : Bool

/-- The impact of an inventory that did not change. -/
def noImpact : Impact := ⟨[], [], [], false, false⟩

/-- `previous == current`. -/
def sameEntry : Option (Yaml × List PyStr) → Option (Yaml × List PyStr) → Bool
  | none, none => true
  | some x, some y => x.1.pyEq y.1 && x.2 = y.2
  | _, _ => false

/-- The locations of a key, before and after. -/
def locationsOf (before after : Entries) (key : PyStr) : List PyStr :=
  sorted ((((lookup before key).map Prod.snd).getD [] ++
    ((lookup after key).map Prod.snd).getD []).dedup)

/-- `entry_profiles`. -/
def profilesAt (families : List (PyStr × FamilyPolicy)) (locations : List PyStr) : List Profile :=
  locations.flatMap fun location =>
    families.flatMap fun family =>
      if family.2.claims location then family.2.profiles else []

/-- One turn of the loop over the keys. -/
def addKey (families : List (PyStr × FamilyPolicy)) (before after : Entries) (impact : Impact)
    (key : PyStr) : Impact :=
  if sameEntry (lookup before key) (lookup after key) then impact
  else
    let locations := locationsOf before after key
    let entryProfiles := profilesAt families locations
    if locations = [] then
      { impact with keys := impact.keys ++ [key], requiresFastLane := true }
    else
      { impact with
        keys := impact.keys ++ [key]
        affected := impact.affected ++ locations
        profiles := impact.profiles ++ entryProfiles
        requiresFastLane := impact.requiresFastLane || entryProfiles = [] }

/-- The keys of either inventory. -/
def keysOf (before after : Entries) : List PyStr :=
  sorted ((before.map Prod.fst ++ after.map Prod.fst).dedup)

/-- `except (OSError, subprocess.CalledProcessError, ValueError, yaml.YAMLError)`. -/
def isCaught (w : World) (e : PyError) : Bool :=
  e.isValueError || e = .osError || w.isYamlError e || match e with
    | .calledProcessError _ => true
    | _ => false

/-- `_dependency_impact(args, families)`. -/
def dependencyImpact (w : World) (args : Arguments) (families : List (PyStr × FamilyPolicy)) :
    Py Impact :=
  match readInventories w args with
  | .ok (before, after) =>
    let impact := (keysOf before after).foldl (addKey families before after) noImpact
    .ok { impact with affected := sorted impact.affected.dedup }
  | .error e => if isCaught w e then .ok ⟨[], [], [], true, true⟩ else .error e

/-! ## 4. The selection -/

/-- The document that `select` returns, without its two constant fields. -/
structure Selection where
  fullMatrix : Bool
  unknownImpact : Bool
  keycloakRequired : Bool
  profiles : Profile → Bool
  runtimeEvidenceRequired : Bool
  families : List (PyStr × Bool)
  changedFiles : List PyStr
  affectedFiles : List PyStr
  dependencyKeys : List PyStr
  unknownFiles : List PyStr
  reason : PyStr

/-- The impact of the inventory, where it is among the changed files. -/
def impactOf (w : World) (args : Arguments) (families : List (PyStr × FamilyPolicy))
    (changedFiles : List PyStr) : Py Impact :=
  if dependencyInventory ∈ changedFiles ∧ isFullMatrix args = false ∧
      indeterminatePush args = false then
    dependencyImpact w args families
  else .ok noImpact

/-- `direct_files`. -/
def directFiles (changedFiles : List PyStr) : List PyStr :=
  changedFiles.filter fun path => path ≠ dependencyInventory

/-- `unknown_files`. -/
def unknownFiles (registry : Registry) (changedFiles : List PyStr) : List PyStr :=
  (directFiles changedFiles).filter fun path =>
    !(registry.families.any fun family => family.2.claims path) &&
      !(registry.safe.any (matchesPath path))

/-- `selected_profiles`. -/
def selectedProfiles (args : Arguments) (registry : Registry) (changedFiles : List PyStr)
    (impact : Impact) : List Profile :=
  if isFullMatrix args || indeterminatePush args then [.applicationAcceptance, .heavy, .tiny]
  else
    registry.families.flatMap (fun family =>
      if (directFiles changedFiles).any family.2.claims then family.2.profiles else []) ++
    impact.profiles ++
    if unknownFiles registry changedFiles ≠ [] ∨ impact.unknown = true ∨
        impact.requiresFastLane = true then [.tiny]
    else []

/-- The rest of `select`, with its inputs read. -/
def selection (args : Arguments) (registry : Registry) (changedFiles : List PyStr)
    (impact : Impact) : Selection :=
  let affectedByFamily := registry.families.map fun family =>
    (family.1, (directFiles changedFiles).filter family.2.claims)
  let unknown := unknownFiles registry changedFiles
  let unknownImpact := unknown ≠ [] || impact.unknown
  let profiles (p : Profile) : Bool := p ∈ selectedProfiles args registry changedFiles impact
  let affectedFiles := sorted ((affectedByFamily.flatMap Prod.snd ++ impact.affected).dedup)
  { fullMatrix := isFullMatrix args || indeterminatePush args
    unknownImpact := unknownImpact
    keycloakRequired := profiles .applicationAcceptance && profiles .heavy && profiles .tiny
    profiles := profiles
    runtimeEvidenceRequired := profiles .heavy || profiles .applicationAcceptance
    families := affectedByFamily.map fun row => (row.1, row.2 ≠ [])
    changedFiles := changedFiles
    affectedFiles := affectedFiles
    dependencyKeys := impact.keys
    unknownFiles := unknown
    reason :=
      if isFullMatrix args then "complete protected validation event"
      else if indeterminatePush args then
        "push base is unavailable; fail closed to complete validation"
      else if unknownImpact then
        "unclassified change; fail closed to the unprivileged Tiny Fast Lane"
      else if affectedFiles ≠ [] then "declared quality family or dependency location changed"
      else "no registered quality family or dependency location changed" }

/-- `select(args)`. -/
def select (w : World) (args : Arguments) : Py Selection := do
  let registry ← readRegistry w args.registry
  let changedFiles ← changedFilesOf w args
  let impact ← impactOf w args registry.families changedFiles
  return selection args registry changedFiles impact

end Supplementary.Quality
