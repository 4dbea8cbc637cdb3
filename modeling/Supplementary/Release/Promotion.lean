/-
# The promotion of a prepared release

`verify_release_promotion` and `normal_release_proof.preparation` accept a head commit as a prepared
release.  Both verify its receipt and require an App commit on top of the base; what they know of
the two trees is which paths differ, and how.
-/
import Supplementary.Release.Receipt

namespace Supplementary.Release

open Supplementary PyStr

/-! ## 1. Two trees -/

/-- `git diff --name-status --no-renames`: the status of a path. -/
def diffStatus (base head : Tree) (path : PyStr) : Option PyStr :=
  match lookup base path, lookup head path with
  | none, none => none
  | none, some _ => some "A"
  | some _, none => some "D"
  | some b, some h => if b = h then none else if b.kind = h.kind then some "M" else some "T"

/-- The changed paths, sorted, with their statuses. -/
def nameStatus (base head : Tree) : List (PyStr × PyStr) :=
  (sorted ((base ++ head).map Prod.fst).dedup).filterMap fun path =>
    (diffStatus base head path).map fun status => (status, path)

/-- `changed_paths(root, base_sha, head_sha)`. -/
def changedPaths (base head : Tree) : Py (List (PyStr × PyStr)) := do
  let changes := nameStatus base head
  require (changes.all fun e => (utf8Encode e.2).isSome) "non-UTF-8 promotion path"
  require (changes.all fun e => e.2 ≠ "" && !e.2.startsWith "/") "unsupported path"
  require (changes ≠ []) "empty diff"
  return changes

/-- What `git show` says of a commit. -/
structure Commit where
  tree : Tree
  parents : List PyStr
  author : PyStr
  committer : PyStr
  message : PyStr

/-- A repository: its commits by revision, and which of them are ancestors of which. -/
structure Repository where
  commit : PyStr → Option Commit
  isAncestor : PyStr → PyStr → Bool

/-- A revision that `git` does not know fails. -/
def Repository.show (repository : Repository) (revision : PyStr) : Py Commit :=
  match repository.commit revision with
  | some commit => .ok commit
  | none => .error (.valueError "git show failed")

def appIdentity : PyStr := releaseAppLogin ++ " <" ++ releaseAppEmail ++ ">"

def requireAppCommit (repository : Repository) (baseSha headSha message : PyStr) : Py Unit := do
  let commit ← repository.show headSha
  require (commit.parents = [baseSha]) "parent mismatch"
  require (commit.author = appIdentity) "author is not the release App"
  require (commit.committer = appIdentity) "committer is not the release App"
  require (commit.message = message) "message mismatch"

def preparationReceipt : PyStr := "changelogs/release-preparation.json"

def releaseGeneratedPaths : List PyStr :=
  ["CHANGELOG.rst", "changelogs/.plugin-cache.yaml", "changelogs/changelog.yaml",
    preparationReceipt, "galaxy.yml"]

def prepareMessage (version : PyStr) : PyStr := "chore(release): prepare v" ++ version

/-- `changed.get(path)`. -/
def statusOf (changes : List (PyStr × PyStr)) (path : PyStr) : Option PyStr :=
  lookup (changes.map fun e => (e.2, e.1)) path

def fragmentPath (fragment : PyStr × PyStr) : PyStr := fragmentsRoot ++ fragment.1

/-- The generated state is there, no other path but the fragments has changed, and each fragment is
deleted. -/
def checkChanges (changes : List (PyStr × PyStr)) (fragments : List (PyStr × PyStr)) : Py Unit := do
  require ((statusOf changes preparationReceipt).isSome ∧ (statusOf changes "galaxy.yml").isSome)
    "generated state missing"
  require (changes.all fun e => e.2 ∈ releaseGeneratedPaths ++ fragments.map fragmentPath)
    "non-generated release paths"
  require (fragments.all fun f => statusOf changes (fragmentPath f) = some ("D" : PyStr))
    "fragments not consumed"

/-! ## 2. The two verifiers -/

/-- `RELEASE_BRANCH.fullmatch(head_ref)`: the version of a release branch. -/
def releaseVersion (headRef : PyStr) : Option PyStr :=
  let version : PyStr := ⟨headRef.codePoints.drop 9⟩
  if headRef.startsWith "release/v" ∧ isSemver version then some version else none

/-- `galaxy_version(head_root / "galaxy.yml")`. -/
def galaxyVersion (tools : Tools) (tree : Tree) : Py PyStr :=
  match readFile tree "galaxy.yml" with
  | none => .error (.valueError "galaxy.yml invalid")
  | some content => do
    match ← tools.galaxyVersions content with
    | [version] => return version
    | _ => .error (.valueError "ambiguous galaxy version")

structure Promotion where
  mode : PyStr
  headRef : PyStr
  headSha : PyStr
  version : PyStr

/-- The receipt of a commit: a bounded regular file with canonical JSON. -/
def loadReceipt (tools : Tools) (tree : Tree) : Py Value :=
  match readFile tree preparationReceipt with
  | none => .error (.valueError "release preparation receipt must be a regular non-symlink file")
  | some content => do
    require (content.length ≤ maxJsonBytes) "release preparation receipt exceeds its bound"
    tools.loadDocument content

/-- The checks of `verify_release_promotion` on the receipt. -/
def checkPromotion (tools : Tools) (bindings : Bindings) (repository : Repository)
    (receipt : Value) (baseSha headSha headRef : PyStr) : Py Promotion :=
  match releaseVersion headRef with
  | none => .error (.valueError "branch malformed")
  | some version => do
    let (_, fragments) ← verifyPreparationReceipt tools bindings receipt producerRepository
      producerRepositoryId baseSha version
    let mode := (str? (receipt.get "release_mode")).getD ""
    require (mode = "normal" ∨ mode = "security") "unsupported mode"
    let head ← repository.show headSha
    let declared ← galaxyVersion tools head.tree
    require (declared = version) "branch/version mismatch"
    let base ← repository.show baseSha
    let changes ← changedPaths base.tree head.tree
    checkChanges changes fragments
    require (changes.all fun e => !e.2.startsWith ".lit/security-") "Security bindings changed"
    requireAppCommit repository baseSha headSha (prepareMessage version)
    return ⟨mode, headRef, headSha, version⟩

/-- `verify_release_promotion`: the promotion, with the receipt that the head holds.  `bindings` is
the Security binding of the base checkout. -/
def verifyReleasePromotion (tools : Tools) (bindings : Bindings) (repository : Repository)
    (baseSha headSha headRef : PyStr) : Py (Value × Promotion) := do
  require (releaseVersion headRef).isSome "branch malformed"
  let head ← repository.show headSha
  let receipt ← loadReceipt tools head.tree
  let promotion ← checkPromotion tools bindings repository receipt baseSha headSha headRef
  return (receipt, promotion)

/-- The digest of a fragment is that of the file at the base. -/
def checkDigest (tools : Tools) (base : Tree) (fragment : PyStr × PyStr) : Py Unit :=
  match lookup base (fragmentPath fragment) with
  | none => .error (.valueError "git show failed")
  | some blob => require (tools.sha256 blob.content = fragment.2) "fragment-digest-drift"

/-- The one version that the `galaxy.yml` of a commit declares. -/
def checkDeclared (tools : Tools) (tree : Tree) (expected : Option PyStr) : Py Unit :=
  match lookup tree "galaxy.yml" with
  | none => .error (.valueError "git show failed")
  | some blob => do
    let observed ← tools.galaxyVersions blob.content
    require (observed.map some = [expected]) "release-version-drift"

/-- The checks of `normal_release_proof.preparation` on the receipt. -/
def checkPreparation (tools : Tools) (bindings : Bindings) (repository : Repository)
    (receipt : Value)
    (baseSha headSha workflowSource expectedRepository expectedRepositoryId : PyStr) :
    Py Unit := do
  require (Value.pyEq (receipt.get "schema_version") (.int 3) ∧
    (receipt.get "release_mode").isText "normal") "normal-two-stage-schema-required"
  let version := (str? (receipt.get "next_version")).getD ""
  require (((receipt.get "workflow").get "source_sha").isText workflowSource)
    "preparation-workflow-source-drift"
  let (_, fragments) ← verifyPreparationReceipt tools bindings receipt expectedRepository
    expectedRepositoryId baseSha version
  requireAppCommit repository baseSha headSha (prepareMessage version)
  require (repository.isAncestor workflowSource baseSha)
    "workflow-source-not-in-content-ancestry"
  let base ← repository.show baseSha
  let head ← repository.show headSha
  let changes ← changedPaths base.tree head.tree
  checkChanges changes fragments
  require (changes.all fun e => e.1 ∈ (["A", "M", "D"] : List PyStr)) "release-path-type-change"
  fragments.forM (checkDigest tools base.tree)
  let source ← repository.show workflowSource
  checkDeclared tools base.tree (str? (receipt.get "current_version"))
  checkDeclared tools source.tree (str? (receipt.get "current_version"))
  checkDeclared tools head.tree (some version)

/-- `normal_release_proof.preparation`: the receipt that the head holds. -/
def preparation (tools : Tools) (bindings : Bindings) (repository : Repository)
    (baseSha headSha workflowSource expectedRepository expectedRepositoryId : PyStr) :
    Py Value := do
  require (isRevision baseSha ∧ isRevision headSha ∧ isRevision workflowSource) "invalid-revision"
  let head ← repository.show headSha
  let receipt ← loadReceipt tools head.tree
  checkPreparation tools bindings repository receipt baseSha headSha workflowSource
    expectedRepository expectedRepositoryId
  return receipt

end Supplementary.Release
