/-
# The release comes back to develop

`verify_release_back_sync.py` accepts a commit that brings a published release back to develop.
`verify` takes a commit of the release App, `verify_published_baseline_import` a reviewed import.  Both
let a fragment go only if the release consumed it.  The import holds the fragment of develop against
the one that was consumed, and compares modes with contents; `verify` reads contents only, and takes a
deleted fragment as consumed whatever develop has made of it (`back_sync_keeps`).
-/
import Supplementary.Release.Export

namespace Supplementary.Release

open Supplementary PyStr

/-! ## 1. What `git` says -/

/-- A repository with its references. -/
structure History where
  /-- `not root.is_symlink() and root.is_dir()`. -/
  isRoot : Bool
  commit : PyStr → Option Commit
  /-- `git rev-parse --verify ref^{commit}`. -/
  ref : PyStr → Py PyStr
  /-- `git rev-parse revision^{tree}`. -/
  treeId : PyStr → Py PyStr
  mergeBase : PyStr → PyStr → Py PyStr
  isAncestor : PyStr → PyStr → Bool
  /-- What `git show revision:path` prints where there is no file: nothing, if it exits with 128. -/
  showOther : PyStr → PyStr → Py (Option Bytes)

/-- What is read of Python's library. -/
structure Reader where
  /-- `json.loads(raw.decode("utf-8"))`. -/
  loads : Bytes → Py Value
  /-- The same, with `unique_json_object`. -/
  loadsUnique : Bytes → Py Value
  sha256 : Bytes → PyStr
  /-- `str(value)`. -/
  str : Value → PyStr
  isdigit : PyStr → Bool

/-- A commit that `git` is asked for. -/
def History.at (h : History) (revision : PyStr) : Py Commit :=
  match h.commit revision with
  | some commit => .ok commit
  | none => .error (.valueError "git failed")

/-- `require_sha(root, value, label)`. -/
def History.requireSha (h : History) (value : PyStr) : Py Commit := do
  require (isRevision value) "not a commit SHA"
  h.at value

/-- One entry of the diff. -/
def checkChange (e : PyStr × PyStr) : Py (PyStr × PyStr) := do
  require (utf8Encode e.2).isSome "non-UTF-8 back-sync path"
  require (e.2 ≠ "" ∧ e.2.startsWith "/" = false) "unsupported path"
  return e

/-- `changes(root, base, head)`. -/
def changes (base head : Tree) : Py (List (PyStr × PyStr)) := do
  let result ← (nameStatus base head).mapM checkChange
  require (result ≠ []) "empty diff"
  return result

/-- `object_bytes(root, revision, path)`. -/
def History.objectBytes (h : History) (revision path : PyStr) : Py (Option Bytes) :=
  match h.commit revision with
  | none => .ok none
  | some commit =>
    match lookup commit.tree path with
    | some ⟨.file, _, content⟩ | some ⟨.symlink, _, content⟩ => .ok (some content)
    | some ⟨.gitlink, _, _⟩ | none => h.showOther revision path

/-! ## 2. Versions -/

/-- `stable_version(value, label)`. -/
def stableVersion (value : PyStr) : Py Version := do
  require (isSemver value) "not a stable semantic version"
  match value.split '.' with
  | [major, minor, patch] => return (← parseInt major, ← parseInt minor, ← parseInt patch)
  | _ => .error (.valueError "not a stable semantic version")

/-- The order of two version tuples. -/
def isLater (v w : Version) : Bool :=
  w.1 < v.1 || (w.1 = v.1 && (w.2.1 < v.2.1 || (w.2.1 = v.2.1 && w.2.2 < v.2.2)))

/-- A match of `version:\s*["']?([^\s"']+)` at the start of a line. -/
def versionAt (line : List Nat) : Option PyStr :=
  if (PyStr.ofString "version:").codePoints.isPrefixOf line then
    let rest := (line.drop 8).dropWhile isSpace
    let rest := if rest.head? = some 34 || rest.head? = some 39 then rest.drop 1 else rest
    let value := rest.takeWhile fun c => !isSpace c && c ≠ 34 && c ≠ 39
    if value = [] then none else some ⟨value⟩
  else none

/-- What follows each start of a line. -/
def lineStarts : List Nat → List (List Nat)
  | [] => []
  | c :: rest => if c = 10 then rest :: lineStarts rest else lineStarts rest

/-- `collection_version(root, revision, label)`. -/
def History.collectionVersion (h : History) (revision : PyStr) : Py Version := do
  match ← h.objectBytes revision "galaxy.yml" with
  | none => .error (.valueError "galaxy.yml is missing")
  | some raw =>
    match utf8Decode raw with
    | none => .error (.valueError "galaxy.yml is not UTF-8")
    | some text =>
      match (text :: lineStarts text).findSome? versionAt with
      | none => .error (.valueError "galaxy.yml has no version")
      | some version => stableVersion version

/-! ## 3. `verify` -/

/-- `require_same_path(root, release_sha, head_sha, path)`. -/
def History.requireSamePath (h : History) (releaseSha headSha path : PyStr) : Py Unit := do
  require ((← h.objectBytes releaseSha path) = (← h.objectBytes headSha path))
    "back-sync/release mismatch"

/-- `load_object(root, revision, path, label)`. -/
def History.loadObject (h : History) (read : Reader) (revision path : PyStr) : Py Value := do
  match ← h.objectBytes revision path with
  | none => .error (.valueError "object is missing")
  | some raw => do
    let value ← read.loads raw
    require (value.isDict = true) "must be a JSON object"
    return value

/-- The App, who is author and committer. -/
def requireApp (commit : Commit) : Py Unit := do
  require (strip commit.author = appIdentity) "author is not the release App"
  require (strip commit.committer = appIdentity) "committer is not the release App"

/-- The develop parent of the head: of a merge the first, of a repair the tip itself. -/
def History.developBase (h : History) (developTip releaseSha : PyStr) (head : Commit) : Py PyStr :=
  match head.parents with
  | [base] => do
    require (base = developTip) "tree-state repair is not based on the exact develop tip"
    require (h.isAncestor releaseSha base) "tree-state repair lacks release ancestry"
    return base
  | [base, second] => do
    require (second = releaseSha) "release parent mismatch"
    return base
  | _ => .error (.valueError "release parent mismatch")

def metadataOf (version : PyStr) : PyStr := ".lit/security-releases/" ++ version ++ ".json"

def intakeOf (version : PyStr) : PyStr := ".lit/security-release-intakes/" ++ version ++ ".json"

/-- The pair of a Security release that may come with it, once its identity is confirmed. -/
def History.securityPair (h : History) (read : Reader) (releaseSha version securityVersion evidenceId :
    PyStr) : Py (List PyStr) :=
  if securityVersion ≠ "" then do
    require (securityVersion = version ∧ PyStr.isEvidence 127 evidenceId = true) "invalid identity"
    let metadata ← h.loadObject read releaseSha (metadataOf version)
    let intake ← h.loadObject read releaseSha (intakeOf version)
    require ((metadata.get "evidenceId").isText evidenceId) "Security metadata evidenceId differs"
    require (((intake.get "request").get "evidenceId").isText evidenceId) "intake receipt differs"
    return [metadataOf version, intakeOf version]
  else do
    require (evidenceId = "") "unexpected evidenceId"
    return []

/-- The fragments that the release deleted. -/
def deletedFragments (released : List (PyStr × PyStr)) : List PyStr :=
  (released.filter fun e => e.1 = ("D" : PyStr) && e.2.startsWith fragmentsRoot).map Prod.snd

/-- One entry of the diff from develop to the head. -/
def checkTransition (allowed deleted : List PyStr) (e : PyStr × PyStr) : Py Unit :=
  if e.2.startsWith fragmentsRoot then
    require (e.1 = ("D" : PyStr) ∧ e.2 ∈ deleted) "unauthorized fragment transition"
  else require (e.2 ∈ allowed) "non-release path"

/-- A deleted fragment is not at the head. -/
def History.checkDeleted (h : History) (headSha path : PyStr) : Py Unit := do
  require ((← h.objectBytes headSha path) = none) "released fragment remains"

structure SyncArguments where
  developTip : PyStr
  releaseSha : PyStr
  headSha : PyStr
  tag : PyStr
  securityVersion : PyStr
  evidenceId : PyStr

/-- `verify(root, develop_tip, release_sha, head_sha, tag, security_version, evidence_id)`. -/
def verify (h : History) (read : Reader) (args : SyncArguments) : Py Unit := do
  require (h.isRoot = true) "invalid repository root"
  let _ ← h.requireSha args.developTip
  let release ← h.requireSha args.releaseSha
  let head ← h.requireSha args.headSha
  let version : PyStr := ⟨args.tag.codePoints.drop 1⟩
  require (args.tag.startsWith "v" ∧ isSemver version) "invalid release tag"
  let current ← h.collectionVersion args.developTip
  require (isLater current (← stableVersion version) = false)
    "develop already contains a newer release"
  let developBase ← h.developBase args.developTip args.releaseSha head
  require (h.isAncestor developBase args.developTip) "first parent is not an ancestor"
  requireApp head
  require (strip head.message = "chore: sync " ++ args.tag ++ " release back to develop")
    "message mismatch"
  match release.parents with
  | [releaseBase, _] => do
    let base ← h.at releaseBase
    let released ← changes base.tree release.tree
    let deleted := deletedFragments released
    let pair ← h.securityPair read args.releaseSha version args.securityVersion args.evidenceId
    let develop ← h.at developBase
    let changed ← changes develop.tree head.tree
    changed.forM (checkTransition (releaseGeneratedPaths ++ pair) deleted)
    (releaseGeneratedPaths ++ pair).forM (h.requireSamePath args.releaseSha args.headSha)
    deleted.forM (h.checkDeleted args.headSha)
  | _ => .error (.valueError "release is not a two-parent merge")

/-! ## 4. `verify_published_baseline_import` -/

/-- The files of a tree that `ls-tree -r` lists for a pathspec. -/
def isListed (paths : List PyStr) (path : PyStr) : Bool :=
  paths.any fun p => path = p || path.startsWith (if p.endsWith "/" then p else p ++ "/")

/-- `tree_files(root, revision, *paths)`: regular files that are not executable. -/
def treeFiles (tree : Tree) (paths : List PyStr) : Py Tree := do
  let files := tree.filter fun e => isListed paths e.1
  raiseUnless .unicodeError (files.all fun e => (utf8Encode e.1).isSome)
  require (files.all fun e => e.2.kind = .file && !e.2.executable)
    "published import requires regular non-executable files"
  return files

/-- The equality of two dicts. -/
def sameFiles (files others : Tree) : Bool :=
  (files.map Prod.fst ++ others.map Prod.fst).all fun path => lookup files path = lookup others path

/-- The version of an import branch, which is that of the tag. -/
def importVersion (branch tag : PyStr) : Option PyStr :=
  let rest := branch.codePoints.drop 19
  let version : PyStr := ⟨rest.take (rest.length - 11)⟩
  if branch = "reconcile/release-v" ++ version ++ "-to-develop" ∧ isSemver version ∧
    tag = "v" ++ version then some version else none

/-- The commits that a reference may name. -/
def History.requireRef (h : History) (ref expected : PyStr) : Py Unit := do
  require ((← h.ref ref) = expected) "published import ref mismatch"

/-- A merged push has the previous tip as its first parent and the reviewed tree. -/
def History.requireMergedPush (h : History) (developTip headSha : PyStr) (head : Commit) : Py Unit :=
  match head.parents with
  | [first, second] => do
    require (first = developTip)
      "published import push does not merge the exact previous Develop tip"
    require ((← h.treeId headSha) = (← h.treeId second))
      "published import push differs from reviewed PR head tree"
  | _ => .error (.valueError "published import push does not merge the exact previous Develop tip")

/-- The fields that the receipt of a published release must have. -/
def isPublished (read : Reader) (receipt : Value) (version base : PyStr) : Bool :=
  let workflow := receipt.get "workflow"
  let expected : List (PyStr × PyStr) := [("event", "push"), ("git_ref", "refs/heads/main"),
    ("path", ".github/workflows/release-prepare.yml"),
    ("ref", producerRepository ++ "/.github/workflows/release-prepare.yml@refs/heads/main"),
    ("source_sha", base), ("run_attempt", "1")]
  (receipt.get "schema_version").pyEq (.int 2) &&
    (receipt.get "repository").isText producerRepository &&
    (receipt.get "repository_id").isText producerRepositoryId &&
    (receipt.get "base_sha").isText base && (receipt.get "next_version").isText version &&
    (receipt.get "release_mode").isText "normal" && (receipt.get "security").isNone &&
    (receipt.get "chain_id").isNone && workflow.isDict &&
    expected.all (fun e => (workflow.get e.1).isText e.2) &&
    read.isdigit (read.str (workflow.getD "run_id" (.str ""))) &&
    (receipt.get "preparer").pyEq (.dict [("login", .str releaseAppLogin),
      ("account_id", .str "307565056"), ("email", .str releaseAppEmail)])

/-- The loop over the fragments of the receipt: what the release consumed, as its base has it. -/
def consume (h : History) (read : Reader) (baseSha : PyStr) (base : Tree) :
    (consumed : Tree) → List Value → Py Tree
  | consumed, [] => .ok consumed
  | consumed, fragment :: fragments => do
    require (fragment.isDict = true ∧ fragment.hasKeys ["path", "sha256"] = true)
      "invalid consumed fragment receipt"
    let path := fragmentsRoot ++ read.str (fragment.get "path")
    require (isFragmentPath path = true ∧ lookup consumed path = none)
      "invalid or duplicate consumed fragment path"
    match ← h.objectBytes baseSha path with
    | none => .error (.valueError "consumed fragment digest mismatch")
    | some original => do
      require ((fragment.get "sha256").isText (read.sha256 original))
        "consumed fragment digest mismatch"
      match lookup (← treeFiles base [path]) path with
      | none => .error .keyError
      | some entry => consume h read baseSha base (consumed ++ [(path, entry)]) fragments

/-- One fragment of develop: what was consumed, or still there. -/
def checkDevelopFile (consumed headFiles : Tree) (e : PyStr × Blob) : Py Unit :=
  match lookup consumed e.1 with
  | some entry => require (e.2 = entry) "consumed fragment changed on Develop"
  | none => require (lookup headFiles e.1 = some e.2)
      "unconsumed Develop fragment changed or missing"

/-- A file of the working tree, as the last loop sees it. -/
structure Local where
  isUnsafe : Bool
  content : Option Bytes

/-- One path of the working tree. -/
def History.checkLocal (h : History) (headSha : PyStr) (worktree : PyStr → Local) (path : PyStr) :
    Py Unit := do
  let expected ← h.objectBytes headSha path
  require ((worktree path).isUnsafe = false) "unsafe import working-tree mode"
  require ((worktree path).content = expected) "uncommitted import path differs"

structure ImportArguments where
  developTip : PyStr
  releaseSha : PyStr
  headSha : PyStr
  tag : PyStr
  branch : PyStr
  /-- The working tree, if it is to be checked. -/
  worktree : Option (PyStr → Local)
  mergedPush : Bool

/-- The checks on the published commit and its preparation, up to the receipt. -/
def checkPreparationCommit (tag base : PyStr) (prepared : Commit) : Py Unit := do
  require (prepared.parents = [base]) "published release preparation parent mismatch"
  require (strip prepared.author = appIdentity) "published release preparation is not the release App"
  require (strip prepared.committer = appIdentity)
    "published release preparation is not the release App"
  require (strip prepared.message = "chore(release): prepare " ++ tag)
    "published release preparation message mismatch"

/-- The list of consumed fragments of a receipt. -/
def fragmentsOf (receipt : Value) : Py (List Value) :=
  match receipt.get "fragments" with
  | .list fragments => do
    require (fragments ≠ []) "published release receipt has no consumed fragments"
    return fragments
  | _ => .error (.valueError "published release receipt has no consumed fragments")

/-- The generated files: all there at the release, and with the same modes and blobs elsewhere. -/
def checkGenerated (release prepared head : Tree) : Py Unit := do
  let mainFiles ← treeFiles release releaseGeneratedPaths
  require (mainFiles.all (fun e => e.1 ∈ releaseGeneratedPaths) ∧
    releaseGeneratedPaths.all fun path => (lookup mainFiles path).isSome)
    "published release files are missing"
  [prepared, head].forM fun tree => do
    require (sameFiles (← treeFiles tree releaseGeneratedPaths) mainFiles = true)
      "published release file mode/blob mismatch"

/-- The release deletes what it consumed, and changes nothing else but the generated files. -/
def checkReleased (released : List (PyStr × PyStr)) (consumed : Tree) : Py Unit :=
  require ((released.all fun e => e.1 ≠ ("D" : PyStr) || (lookup consumed e.2).isSome) ∧
    (consumed.all fun e => (("D" : PyStr), e.1) ∈ released) ∧
    released.all fun e => e.2 ∈ releaseGeneratedPaths ||
      (e.1 = ("D" : PyStr) && (lookup consumed e.2).isSome))
    "published release diff differs from consumed fragment receipt"

/-- The fragments of develop and of the head. -/
def checkFragments (develop head consumed : Tree) : Py (Tree × Tree) := do
  let developFiles ← treeFiles develop [fragmentsRoot]
  let headFiles ← treeFiles head [fragmentsRoot]
  developFiles.forM (checkDevelopFile consumed headFiles)
  require (headFiles.all fun e => (lookup consumed e.1).isNone)
    "consumed release fragment remains in import"
  require (headFiles.all fun e => (lookup developFiles e.1).isSome || isFragmentPath e.1)
    "invalid new unreleased fragment"
  return (developFiles, headFiles)

/-- The references, and a merged push. -/
def checkReferences (h : History) (args : ImportArguments) (head : Commit) : Py Unit := do
  h.requireRef "refs/remotes/origin/main" args.releaseSha
  h.requireRef "refs/remotes/origin/develop" (if args.mergedPush then args.headSha
    else args.developTip)
  h.requireRef ("refs/tags/" ++ args.tag) args.releaseSha
  if args.mergedPush then h.requireMergedPush args.developTip args.headSha head else return ()

/-- The versions of the release and of develop, and the ancestry of the head. -/
def checkVersions (h : History) (args : ImportArguments) (version : Version) : Py Unit := do
  require ((← h.collectionVersion args.releaseSha) = version) "Main version differs from import branch"
  require (isLater version (← h.collectionVersion args.developTip) = true)
    "published import must advance the protected Develop version"
  [args.developTip, args.releaseSha].forM fun ancestor => do
    require ((← h.mergeBase ancestor args.headSha) = ancestor)
      "published import lacks protected Main/Develop ancestry"

/-- The receipt of the published release. -/
def publishedReceipt (h : History) (read : Reader) (releaseSha baseSha name : PyStr)
    (version : Version) : Py Value := do
  let receipt ← match ← h.objectBytes releaseSha preparationReceipt with
    | some raw => read.loadsUnique raw
    | none => .error .attributeError
  require (receipt.isDict = true) "published release receipt must be an object"
  require (isPublished read receipt name baseSha = true)
    "foreign or inconsistent published release receipt"
  let current ← stableVersion (read.str (receipt.get "current_version"))
  let baseVersion ← h.collectionVersion baseSha
  require (current = baseVersion ∧ isLater version baseVersion = true)
    "published release receipt version mismatch"
  return receipt

/-- The paths of the working tree, if it is to be checked. -/
def checkWorktree (h : History) (args : ImportArguments) (paths : List PyStr) : Py Unit :=
  match args.worktree with
  | none => .ok ()
  | some worktree => paths.forM (h.checkLocal args.headSha worktree)

/-- `verify_published_baseline_import(root, develop_tip, release_sha, head_sha, tag, branch,
check_worktree, merged_push)`. -/
def verifyPublishedBaselineImport (h : History) (read : Reader) (args : ImportArguments) :
    Py Unit := do
  require (h.isRoot = true) "invalid repository root"
  match importVersion args.branch args.tag with
  | none => .error (.valueError "invalid published baseline import branch/tag")
  | some name => do
    let develop ← h.requireSha args.developTip
    let release ← h.requireSha args.releaseSha
    let head ← h.requireSha args.headSha
    checkReferences h args head
    let version ← stableVersion name
    checkVersions h args version
    match release.parents with
    | [baseSha, preparedSha] => do
      let prepared ← h.at preparedSha
      checkPreparationCommit args.tag baseSha prepared
      checkGenerated release.tree prepared.tree head.tree
      let changed ← changes develop.tree head.tree
      require (changed.all fun e => e.2 ≠ ("CHANGELOG.md" : PyStr))
        "unpublished generated changelog path: CHANGELOG.md"
      let receipt ← publishedReceipt h read args.releaseSha baseSha name version
      let base ← h.at baseSha
      let consumed ← consume h read baseSha base.tree [] (← fragmentsOf receipt)
      let released ← changes base.tree release.tree
      checkReleased released consumed
      let (developFiles, headFiles) ← checkFragments develop.tree head.tree consumed
      checkWorktree h args
        (releaseGeneratedPaths ++ developFiles.map Prod.fst ++ headFiles.map Prod.fst)
    | _ => .error (.valueError "published Main is not a two-parent release merge")

/-! ## 5. What a back-sync has to keep -/

/-- The release, its first parent, and the head. -/
structure Synced (h : History) (releaseSha headSha : PyStr) (base release head : Commit) : Prop where
  base : ∃ baseSha second, release.parents = [baseSha, second] ∧ h.commit baseSha = some base
  release : h.commit releaseSha = some release
  head : h.commit headSha = some head

/-- A fragment that the release deleted. -/
def IsReleased (base release : Tree) (path : PyStr) : Prop :=
  path.startsWith fragmentsRoot = true ∧ diffStatus base release path = some ("D" : PyStr)

/-- Every fragment of develop is at the head as it was, or the release deleted it and develop has what
the release consumed. -/
def Kept (base release develop head : Tree) : Prop :=
  ∀ path blob, path.startsWith fragmentsRoot = true → lookup develop path = some blob →
    blob.kind ≠ .gitlink → lookup head path = some blob ∨
      (IsReleased base release path ∧ (lookup base path).map Blob.content = some blob.content)

/-- The generated files of the head are those of the release, with their modes. -/
def SameGenerated (release head : Tree) : Prop :=
  ∀ path ∈ releaseGeneratedPaths, lookup head path = lookup release path

/-- All other paths of the head are those of develop. -/
def SameElsewhere (version : PyStr) (base release develop head : Tree) : Prop :=
  ∀ path, path ∉ releaseGeneratedPaths → path ≠ metadataOf version → path ≠ intakeOf version →
    ¬ IsReleased base release path → lookup head path = lookup develop path

/-- Develop has no other content in a fragment that the release deleted. -/
def Unedited (base release develop : Tree) : Prop :=
  ∀ path blob, IsReleased base release path → lookup develop path = some blob →
    blob.kind ≠ .gitlink → (lookup base path).map Blob.content = some blob.content

/-- The mode of an entry; for a submodule the commit belongs to it. -/
def fileMode (blob : Blob) : Kind × Bool × Bytes :=
  (blob.kind, blob.executable, if blob.kind = .gitlink then blob.content else [])

/-- The generated files of the head have the modes of the release. -/
def SameModes (release head : Tree) : Prop :=
  ∀ path ∈ releaseGeneratedPaths,
    (lookup head path).map fileMode = (lookup release path).map fileMode

/-! ## 6. What the checks leave -/

section

variable {h : History} {read : Reader} {base release develop head : Tree} {path : PyStr}

theorem changes_eq_ok {result : List (PyStr × PyStr)} (hc : changes base head = .ok result) :
    result = nameStatus base head := by
  simp only [changes, bind_eq_ok, require_eq_ok, pure_eq_ok] at hc
  obtain ⟨_, hread, _, -, rfl⟩ := hc
  have hforall := mapM_eq_ok hread
  clear hread
  generalize nameStatus base head = entries at hforall
  induction hforall with
  | nil => rfl
  | cons hfirst _ ih =>
    simp only [checkChange, bind_eq_ok, pure_eq_ok] at hfirst
    obtain ⟨_, -, _, -, rfl⟩ := hfirst
    rw [ih]

theorem mem_deletedFragments : path ∈ deletedFragments (nameStatus base release) ↔
    IsReleased base release path := by
  simp only [deletedFragments, List.mem_map, List.mem_filter, Prod.exists, exists_eq_right,
    Bool.and_eq_true, decide_eq_true_eq, mem_nameStatus, IsReleased]
  constructor
  · rintro ⟨status, hstatus, rfl, hstarts⟩
    exact ⟨hstarts, hstatus⟩
  · rintro ⟨hstarts, hstatus⟩
    exact ⟨"D", hstatus, rfl, hstarts⟩

theorem objectBytes_of_file {revision : PyStr} {commit : Commit} {blob : Blob}
    (hcommit : h.commit revision = some commit) (hblob : lookup commit.tree path = some blob)
    (hkind : blob.kind ≠ .gitlink) : h.objectBytes revision path = .ok (some blob.content) := by
  obtain ⟨kind, executable, content⟩ := blob
  cases kind with
  | file => simp only [History.objectBytes, hcommit, hblob]
  | symlink => simp only [History.objectBytes, hcommit, hblob]
  | gitlink => exact absurd rfl hkind

/-- A path that the diff may have: a deleted fragment, or an allowed path. -/
theorem transition_of_checked {allowed deleted : List PyStr}
    (hc : (nameStatus develop head).forM (checkTransition allowed deleted) = .ok ()) (path : PyStr) :
    lookup head path = lookup develop path ∨
      (path.startsWith fragmentsRoot = true ∧ lookup head path = none ∧ path ∈ deleted) ∨
      (path.startsWith fragmentsRoot = false ∧ path ∈ allowed) := by
  cases hstatus : diffStatus develop head path with
  | none => exact Or.inl (diffStatus_eq_none hstatus)
  | some status =>
    have hchecked := forM_eq_ok.mp hc _ (mem_nameStatus.mpr hstatus)
    unfold checkTransition at hchecked
    split at hchecked
    · next hstarts =>
      obtain ⟨hdeleted, hmem⟩ := require_eq_ok.mp hchecked
      dsimp only at hdeleted
      rw [hdeleted] at hstatus
      exact Or.inr (Or.inl ⟨hstarts, (diffStatus_deleted hstatus).2, hmem⟩)
    · next hstarts =>
      rw [require_eq_ok] at hchecked
      exact Or.inr (Or.inr ⟨Bool.eq_false_iff.mpr hstarts, hchecked⟩)

end

/-! ## 7. `verify` -/

section

variable {h : History} {read : Reader} {args : SyncArguments}
variable {base release develop head : Tree}

theorem at_eq_ok {revision : PyStr} {commit : Commit} :
    h.at revision = .ok commit ↔ h.commit revision = some commit := by
  unfold History.at
  cases h.commit revision with
  | none => simp
  | some c => simp

theorem developBase_of_ok {developTip releaseSha developBase : PyStr} {commit : Commit}
    (hc : h.developBase developTip releaseSha commit = .ok developBase) :
    commit.parents.head? = some developBase := by
  unfold History.developBase at hc
  split at hc
  · next hparents =>
    simp only [bind_eq_ok, pure_eq_ok] at hc
    obtain ⟨_, -, _, -, rfl⟩ := hc
    rw [hparents]
    rfl
  · next hparents =>
    simp only [bind_eq_ok, pure_eq_ok] at hc
    obtain ⟨_, -, rfl⟩ := hc
    rw [hparents]
    rfl
  · cases hc

theorem pair_of_ok {releaseSha version securityVersion evidenceId : PyStr} {pair : List PyStr}
    (hc : h.securityPair read releaseSha version securityVersion evidenceId = .ok pair) :
    ∀ path ∈ pair, path = metadataOf version ∨ path = intakeOf version := by
  intro path hpath
  unfold History.securityPair at hc
  split at hc
  · simp only [bind_eq_ok, pure_eq_ok] at hc
    obtain ⟨_, -, _, -, _, -, _, -, _, -, rfl⟩ := hc
    simpa only [List.mem_cons, List.not_mem_nil, or_false] using hpath
  · simp only [bind_eq_ok, pure_eq_ok] at hc
    obtain ⟨_, -, rfl⟩ := hc
    cases hpath

/-- **What `verify` has checked when it returns.** -/
theorem of_verifyBackSync (hc : verify h read args = .ok ()) : ∃ base release develop head pair,
    Synced h args.releaseSha args.headSha base release head ∧
      (∃ developSha, head.parents.head? = some developSha ∧ h.commit developSha = some develop) ∧
      (∀ path ∈ pair, path = metadataOf ⟨args.tag.codePoints.drop 1⟩ ∨
        path = intakeOf ⟨args.tag.codePoints.drop 1⟩) ∧
      (nameStatus develop.tree head.tree).forM (checkTransition (releaseGeneratedPaths ++ pair)
        (deletedFragments (nameStatus base.tree release.tree))) = .ok () ∧
      (∀ path ∈ releaseGeneratedPaths, ∃ raw, h.objectBytes args.releaseSha path = .ok raw ∧
        h.objectBytes args.headSha path = .ok raw) ∧
      ∀ path, IsReleased base.tree release.tree path →
        h.objectBytes args.headSha path = .ok none := by
  simp only [verify, bind_eq_ok, History.requireSha, at_eq_ok] at hc
  obtain ⟨_, -, _, -, release, ⟨_, -, hrelease⟩, head, ⟨_, -, hhead⟩, _, -, _, -, _, -, _, -,
    developBase, hbase, _, -, _, -, _, -, hc⟩ := hc
  split at hc
  · next releaseBase second hparents =>
    simp only [bind_eq_ok, at_eq_ok] at hc
    obtain ⟨base, hreleaseBase, released, hreleased, pair, hpair, develop, hdevelop, changed, hchanged,
      _, htransitions, _, hsame, hgone⟩ := hc
    rw [changes_eq_ok hreleased] at htransitions hgone
    rw [changes_eq_ok hchanged] at htransitions
    refine ⟨base, release, develop, head, pair, ⟨⟨releaseBase, second, hparents, hreleaseBase⟩,
      hrelease, hhead⟩, ⟨developBase, developBase_of_ok hbase, hdevelop⟩, pair_of_ok hpair,
      htransitions, ?_, ?_⟩
    · intro path hpath
      have hchecked := forM_eq_ok.mp hsame path (List.mem_append_left _ hpath)
      simp only [History.requireSamePath, bind_eq_ok, require_eq_ok] at hchecked
      obtain ⟨raw, hraw, other, hother, hequal⟩ := hchecked
      exact ⟨raw, hraw, by rw [hequal]; exact hother⟩
    · intro path hpath
      have hchecked := forM_eq_ok.mp hgone path (mem_deletedFragments.mpr hpath)
      simp only [History.checkDeleted, bind_eq_ok, require_eq_ok] at hchecked
      obtain ⟨raw, hraw, rfl⟩ := hchecked
      exact hraw
  · cases hc

/-- Same modes and the same bytes are the same files. -/
theorem sameGenerated_iff {releaseSha headSha : PyStr} {releaseCommit headCommit : Commit}
    (hrelease : h.commit releaseSha = some releaseCommit)
    (hhead : h.commit headSha = some headCommit)
    (hsame : ∀ path ∈ releaseGeneratedPaths, ∃ raw, h.objectBytes releaseSha path = .ok raw ∧
      h.objectBytes headSha path = .ok raw) :
    SameGenerated releaseCommit.tree headCommit.tree ↔
      SameModes releaseCommit.tree headCommit.tree := by
  constructor
  · intro hgenerated path hpath
    rw [hgenerated path hpath]
  · intro hmodes path hpath
    have hmode := hmodes path hpath
    obtain ⟨raw, hfirst, hsecond⟩ := hsame path hpath
    cases hr : lookup releaseCommit.tree path with
    | none =>
      rw [hr, Option.map_none, Option.map_eq_none_iff] at hmode
      exact hmode
    | some released =>
      rw [hr, Option.map_some, Option.map_eq_some_iff] at hmode
      obtain ⟨found, hfound, hequal⟩ := hmode
      obtain ⟨hkind, hrest⟩ := Prod.mk.inj hequal
      obtain ⟨hexecutable, hlink⟩ := Prod.mk.inj hrest
      have hcontent : found.content = released.content := by
        by_cases hgit : released.kind = .gitlink
        · rwa [if_pos (hkind.trans hgit), if_pos hgit] at hlink
        · have hgit' : found.kind ≠ .gitlink := by
            rw [hkind]
            exact hgit
          rw [objectBytes_of_file hrelease hr hgit] at hfirst
          rw [objectBytes_of_file hhead hfound hgit', ← hfirst] at hsecond
          exact Option.some.inj (Except.ok.inj hsecond)
      rw [hfound]
      obtain ⟨_, _, _⟩ := found
      obtain ⟨_, _, _⟩ := released
      dsimp only at hkind hexecutable hcontent
      rw [hkind, hexecutable, hcontent]

/-- What the checked diff and the absent fragments say of the fragments of develop. -/
theorem kept_iff {pair : List PyStr} {headSha : PyStr} {headCommit : Commit}
    (hhead : h.commit headSha = some headCommit)
    (htransition : (nameStatus develop headCommit.tree).forM (checkTransition
      (releaseGeneratedPaths ++ pair) (deletedFragments (nameStatus base release))) = .ok ())
    (hgone : ∀ path, IsReleased base release path → h.objectBytes headSha path = .ok none) :
    Kept base release develop headCommit.tree ↔ Unedited base release develop := by
  constructor
  · intro hkept path blob hreleased hblob hkind
    rcases hkept path blob hreleased.1 hblob hkind with hsame | ⟨-, hcontent⟩
    · have hbytes := objectBytes_of_file hhead hsame hkind
      rw [hgone path hreleased] at hbytes
      cases hbytes
    · exact hcontent
  · intro hunedited path blob hstarts hblob hkind
    rcases transition_of_checked htransition path with hsame | ⟨-, -, hdeleted⟩ | ⟨hother, -⟩
    · exact Or.inl (hsame.trans hblob)
    · have hreleased := mem_deletedFragments.mp hdeleted
      exact Or.inr ⟨hreleased, hunedited path blob hreleased hblob hkind⟩
    · rw [hstarts] at hother
      cases hother

theorem sameElsewhere_of {pair : List PyStr} {version : PyStr}
    (hpair : ∀ path ∈ pair, path = metadataOf version ∨ path = intakeOf version)
    (htransition : (nameStatus develop head).forM (checkTransition (releaseGeneratedPaths ++ pair)
      (deletedFragments (nameStatus base release))) = .ok ()) :
    SameElsewhere version base release develop head := by
  intro path hgenerated hmetadata hintake hreleased
  rcases transition_of_checked htransition path with hsame | ⟨-, -, hdeleted⟩ | ⟨-, hallowed⟩
  · exact hsame
  · exact absurd (mem_deletedFragments.mp hdeleted) hreleased
  · rcases List.mem_append.mp hallowed with h | h
    · exact absurd h hgenerated
    · rcases hpair path h with h | h
      · exact absurd h hmetadata
      · exact absurd h hintake

end

/-! ## 8. The published import -/

section

variable {h : History} {read : Reader} {base release develop head : Tree}

theorem treeFiles_eq_ok {tree files : Tree} {paths : List PyStr}
    (hc : treeFiles tree paths = .ok files) (path : PyStr) :
    lookup files path = if isListed paths path then lookup tree path else none := by
  simp only [treeFiles, bind_eq_ok, pure_eq_ok] at hc
  obtain ⟨_, -, _, -, rfl⟩ := hc
  exact lookup_filter (isListed paths) path

theorem lookup_append_singleton {tree : Tree} {key path : PyStr} {entry : Blob} :
    lookup (tree ++ [(key, entry)]) path = if key = path then some entry else lookup tree path := by
  induction tree with
  | nil => rfl
  | cons e tree ih =>
    rw [List.cons_append, lookup, ih, lookup]
    split
    · rfl
    · rfl

theorem isListed_of_mem {paths : List PyStr} {path : PyStr} (hpath : path ∈ paths) :
    isListed paths path = true := by
  refine List.any_eq_true.mpr ⟨path, hpath, ?_⟩
  rw [decide_eq_true rfl, Bool.true_or]

theorem isListed_fragment {path : PyStr} (hstarts : path.startsWith fragmentsRoot = true) :
    isListed [fragmentsRoot] path = true := by
  refine List.any_eq_true.mpr ⟨fragmentsRoot, List.mem_singleton_self _, ?_⟩
  have hslash : fragmentsRoot.endsWith "/" = true := by decide +kernel
  rw [if_pos hslash, hstarts, Bool.or_true]

theorem lookup_of_sameFiles {files others : Tree} (hsame : sameFiles files others = true)
    (path : PyStr) : lookup files path = lookup others path := by
  by_cases hpath : path ∈ files.map Prod.fst ++ others.map Prod.fst
  · exact of_decide_eq_true (List.all_eq_true.mp hsame path hpath)
  · rw [List.mem_append, not_or] at hpath
    have hfirst : lookup files path = none := by
      rw [← Option.not_isSome_iff_eq_none, lookup_isSome]
      exact hpath.1
    have hsecond : lookup others path = none := by
      rw [← Option.not_isSome_iff_eq_none, lookup_isSome]
      exact hpath.2
    rw [hfirst, hsecond]

/-- **The generated files of the head have the modes and the blobs of the release.** -/
theorem sameGenerated_of_checked {prepared : Tree}
    (hc : checkGenerated release prepared head = .ok ()) : SameGenerated release head := by
  simp only [checkGenerated, bind_eq_ok, require_eq_ok] at hc
  obtain ⟨mainFiles, hmain, _, -, hloop⟩ := hc
  have hhead := forM_eq_ok.mp hloop head (List.mem_cons_of_mem _ (List.mem_singleton_self _))
  simp only [bind_eq_ok, require_eq_ok] at hhead
  obtain ⟨files, hfiles, hsame⟩ := hhead
  intro path hpath
  have hlisted := isListed_of_mem hpath
  have hequal := lookup_of_sameFiles hsame path
  rw [treeFiles_eq_ok hfiles, treeFiles_eq_ok hmain, if_pos hlisted, if_pos hlisted] at hequal
  exact hequal

/-- **What was consumed is what the base of the release has.** -/
theorem consume_spec {baseSha : PyStr} {fragments : List Value} {consumed result : Tree}
    (hc : consume h read baseSha base consumed fragments = .ok result)
    (hbefore : ∀ path entry, lookup consumed path = some entry → lookup base path = some entry) :
    ∀ path entry, lookup result path = some entry → lookup base path = some entry := by
  induction fragments generalizing consumed with
  | nil =>
    rw [consume] at hc
    rwa [← Except.ok.inj hc]
  | cons fragment fragments ih =>
    simp only [consume, bind_eq_ok] at hc
    obtain ⟨_, -, _, -, raw, -, hc⟩ := hc
    split at hc
    · cases hc
    · simp only [bind_eq_ok] at hc
      obtain ⟨_, -, files, hfiles, hc⟩ := hc
      split at hc
      · cases hc
      · next entry hentry =>
        refine ih hc ?_
        intro path entry' hlookup
        rw [treeFiles_eq_ok hfiles, if_pos (isListed_of_mem (List.mem_singleton_self _))] at hentry
        rw [lookup_append_singleton] at hlookup
        split at hlookup
        · next hpath =>
          rw [← hpath, hentry]
          exact hlookup
        · exact hbefore path entry' hlookup

/-- **A fragment of develop is at the head as it was, or was consumed as it is.** -/
theorem kept_of_checked {consumed developFiles headFiles : Tree}
    (hconsumed : ∀ path entry, lookup consumed path = some entry → lookup base path = some entry)
    (hreleased : checkReleased (nameStatus base release) consumed = .ok ())
    (hc : checkFragments develop head consumed = .ok (developFiles, headFiles)) :
    Kept base release develop head := by
  simp only [checkFragments, bind_eq_ok, pure_eq_ok] at hc
  obtain ⟨files, hfiles, others, hothers, _, hloop, _, -, _, -, -⟩ := hc
  intro path blob hstarts hblob _
  have hlookup : lookup files path = some blob := by
    rw [treeFiles_eq_ok hfiles, if_pos (isListed_fragment hstarts)]
    exact hblob
  have hchecked := forM_eq_ok.mp hloop _ (mem_of_lookup hlookup)
  unfold checkDevelopFile at hchecked
  split at hchecked
  · next entry hentry =>
    rw [require_eq_ok] at hchecked
    dsimp only at hchecked hentry
    have hbase := hconsumed path entry hentry
    rw [checkReleased, require_eq_ok] at hreleased
    have hdeleted := List.all_eq_true.mp hreleased.2.1 _ (mem_of_lookup hentry)
    have hstatus := mem_nameStatus.mp (of_decide_eq_true hdeleted)
    refine Or.inr ⟨⟨hstarts, hstatus⟩, ?_⟩
    rw [hbase, hchecked]
    rfl
  · rw [require_eq_ok, treeFiles_eq_ok hothers] at hchecked
    dsimp only at hchecked
    rw [if_pos (isListed_fragment hstarts)] at hchecked
    exact Or.inl hchecked

/-- **What the import has checked when it returns.** -/
theorem of_verifyImport {args : ImportArguments}
    (hc : verifyPublishedBaselineImport h read args = .ok ()) : ∃ base release develop head,
    Synced h args.releaseSha args.headSha base release head ∧
      h.commit args.developTip = some develop ∧
      Kept base.tree release.tree develop.tree head.tree ∧
      SameGenerated release.tree head.tree := by
  rw [verifyPublishedBaselineImport, bind_eq_ok] at hc
  obtain ⟨_, -, hc⟩ := hc
  split at hc
  · cases hc
  · simp only [bind_eq_ok, History.requireSha, at_eq_ok] at hc
    obtain ⟨develop, ⟨_, -, hdevelop⟩, release, ⟨_, -, hrelease⟩, head, ⟨_, -, hhead⟩, _, -, _, -, _, -,
      hc⟩ := hc
    split at hc
    · next baseSha preparedSha hparents =>
      simp only [bind_eq_ok, at_eq_ok] at hc
      obtain ⟨prepared, -, _, -, _, hgenerated, changed, -, _, -, receipt, -, base, hbase, fragments,
        -, consumed, hconsumed, released, hreleased, _, hchecked, files, hfiles, -⟩ := hc
      rw [changes_eq_ok hreleased] at hchecked
      have hspec := consume_spec hconsumed (fun path entry h => by cases h)
      exact ⟨base, release, develop, head, ⟨⟨baseSha, preparedSha, hparents, hbase⟩, hrelease, hhead⟩,
        hdevelop, kept_of_checked hspec hchecked hfiles, sameGenerated_of_checked hgenerated⟩
    · cases hc

end

/-! ## 9. What a back-sync keeps -/

/-- **An accepted back-sync keeps all but what the release owns; it keeps the text of the fragments
and the modes of the generated files exactly where develop has not edited a consumed fragment and the
head brings no other mode.  An accepted import keeps both.** -/
theorem back_sync_keeps (h : History) (read : Reader) :
    (∀ args, verify h read args = .ok () → ∃ base release develop head,
      Synced h args.releaseSha args.headSha base release head ∧
        (∃ developSha, head.parents.head? = some developSha ∧ h.commit developSha = some develop) ∧
        SameElsewhere ⟨args.tag.codePoints.drop 1⟩ base.tree release.tree develop.tree head.tree ∧
        (Kept base.tree release.tree develop.tree head.tree ∧ SameGenerated release.tree head.tree ↔
          Unedited base.tree release.tree develop.tree ∧ SameModes release.tree head.tree)) ∧
      ∀ args, verifyPublishedBaselineImport h read args = .ok () → ∃ base release develop head,
        Synced h args.releaseSha args.headSha base release head ∧
          h.commit args.developTip = some develop ∧
          Kept base.tree release.tree develop.tree head.tree ∧
          SameGenerated release.tree head.tree := by
  refine ⟨?_, fun args hc => of_verifyImport hc⟩
  intro args hc
  obtain ⟨base, release, develop, head, pair, hsynced, hdevelop, hpair, htransition, hsame, hgone⟩ :=
    of_verifyBackSync hc
  have hkept := kept_iff hsynced.head htransition hgone
  have hgenerated := sameGenerated_iff hsynced.release hsynced.head hsame
  exact ⟨base, release, develop, head, hsynced, hdevelop, sameElsewhere_of hpair htransition,
    and_congr hkept hgenerated⟩

def commitId (c : Nat) : PyStr := ⟨List.replicate 40 c⟩

def galaxyAt (version : String) : PyStr × Blob :=
  ("galaxy.yml", ⟨.file, false, bytes ("version: " ++ version ++ "\n")⟩)

def editedFragment : PyStr := "changelogs/fragments/a.yml"

/-- Version 1.0.1 consumes a fragment of 1.0.0, for which develop has the given text. -/
def sampleHistory (onDevelop : Bytes) : History where
  isRoot := true
  commit sha :=
    if sha = commitId 97 then
      some ⟨[galaxyAt "1.0.0", (editedFragment, ⟨.file, false, bytes "x"⟩)], [], "", "", ""⟩
    else if sha = commitId 99 then some ⟨[galaxyAt "1.0.1"], [commitId 97, commitId 98], "", "", ""⟩
    else if sha = commitId 100 then
      some ⟨[galaxyAt "1.0.0", (editedFragment, ⟨.file, false, onDevelop⟩)], [commitId 97], "", "", ""⟩
    else if sha = commitId 101 then some ⟨[galaxyAt "1.0.1"], [commitId 100, commitId 99], appIdentity,
      appIdentity, "chore: sync v1.0.1 release back to develop\n"⟩
    else none
  ref _ := .error .osError
  treeId _ := .error .osError
  mergeBase _ _ := .error .osError
  isAncestor _ _ := true
  showOther _ _ := .ok none

def sampleReader : Reader where
  loads _ := .error .jsonDecodeError
  loadsUnique _ := .error .jsonDecodeError
  sha256 _ := ""
  str _ := ""
  isdigit _ := false

def sampleArguments : SyncArguments := ⟨commitId 100, commitId 99, commitId 101, "v1.0.1", "", ""⟩

theorem verify_sample : verify (sampleHistory (bytes "x")) sampleReader sampleArguments = .ok () := by
  decide +kernel

theorem back_sync_keeps_sample : ∃ base release develop head : Commit,
    Synced (sampleHistory (bytes "x")) (commitId 99) (commitId 101) base release head ∧
      (∃ developSha, head.parents.head? = some developSha ∧
        (sampleHistory (bytes "x")).commit developSha = some develop) ∧
      SameElsewhere ⟨(PyStr.ofString "v1.0.1").codePoints.drop 1⟩ base.tree release.tree develop.tree
        head.tree ∧
      (Kept base.tree release.tree develop.tree head.tree ∧ SameGenerated release.tree head.tree ↔
        Unedited base.tree release.tree develop.tree ∧ SameModes release.tree head.tree) :=
  (back_sync_keeps (sampleHistory (bytes "x")) sampleReader).1 sampleArguments verify_sample

/-- **Develop edits the fragment after the release was cut, and the back-sync takes it away.** -/
theorem edited_fragment_lost : ¬ ∀ h read args base release develop head,
    verify h read args = .ok () → Synced h args.releaseSha args.headSha base release head →
      (∃ developSha, head.parents.head? = some developSha ∧ h.commit developSha = some develop) →
      Kept base.tree release.tree develop.tree head.tree := by
  intro hclaim
  have hkept := hclaim (sampleHistory (bytes "y")) sampleReader sampleArguments _ _ _ _
    (by decide +kernel) ⟨⟨commitId 97, commitId 98, rfl, rfl⟩, rfl, rfl⟩ ⟨commitId 100, rfl, rfl⟩
  rcases hkept editedFragment ⟨.file, false, bytes "y"⟩ (by decide +kernel) (by decide +kernel)
    (by decide) with h | ⟨-, h⟩
  · exact absurd h (by decide +kernel)
  · exact absurd h (by decide +kernel)

end Supplementary.Release
