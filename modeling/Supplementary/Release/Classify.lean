/-
# The classification of a push

`classify-security-release.py` decides whether a push to main is a Security release.  It asks four
things in order: which markers the push adds or modifies, whether it adds a single recovery receipt,
which version a changed preparation receipt names, and which version the commit message prepares.
Where none of them answers, the push is a normal release.

`git diff` detects renames unless `--no-renames` is given, and the query for the markers neither gives
it nor asks for anything but `A` and `M`.  `marker_classified`: a marker that the query reports is
classified or the push refused; one that it hides, behind a rename or a change of the file type, leaves
the push to the other three, and without them the push is normal.
-/
import Supplementary.Push.Untracked
import Supplementary.Release.Prepared
import Supplementary.Security.Contract

namespace Supplementary.Release

open Supplementary PyStr

/-! ## 1. What `git` and the checkout say -/

/-- A checkout, as `pathlib` sees it. -/
structure Root where
  /-- `path.exists() or path.is_symlink()`. -/
  isThere : PyStr → Bool
  /-- `is_regular_file_beneath(root, path)`. -/
  isRegularFile : PyStr → Bool
  readBytes : PyStr → Py Bytes

/-- Every path of the commit is there. -/
def Root.Holds (root : Root) (tree : Tree) : Prop :=
  ∀ path, (lookup tree path).isSome → root.isThere path = true

/-- The repository: its commits, the renames that `git` detects between two trees (the path that went
and the path that came), and the octets of a path. -/
structure Git where
  tree : PyStr → Option Tree
  renames : Tree → Tree → List (PyStr × PyStr)
  fsencode : PyStr → Bytes

/-- What `security_release_contract` does with files. -/
structure Contract where
  rt : Runtime
  loadJsonFile : Root → PyStr → Py Value
  /-- The `evidence_id` of `load_security_binding(source, version, checked_at)`. -/
  loadSecurityBinding : Root → PyStr → Int → Py (Option PyStr)

/-- A path or what lies beneath it, as a pathspec selects it. -/
def isBeneath (directory path : PyStr) : Bool :=
  path = directory || path.startsWith (directory ++ "/")

def beneath (directory : PyStr) (tree : Tree) : Tree := tree.filter fun e => isBeneath directory e.1

/-- Plain characters of a path; all others make `git` quote it. -/
def isPlain (c : Nat) : Bool := 32 ≤ c && c ≤ 126 && c ≠ 34 && c ≠ 92

/-- A path as `git diff` prints it without `-z`. -/
def Git.spelled (git : Git) (path : PyStr) : PyStr :=
  if path.codePoints.all isPlain then path else Push.quoted (git.fsencode path)

/-- An added path that `git` pairs with a deleted one has the status `R`. -/
def Git.isRenamed (git : Git) (base head : Tree) (path : PyStr) : Bool :=
  (git.renames base head).any fun pair =>
    pair.2 = path && diffStatus base head pair.1 = some ("D" : PyStr) &&
      diffStatus base head path = some ("A" : PyStr)

/-- The paths of `git diff --name-only --diff-filter=AM`. -/
def Git.addedOrModified (git : Git) (base head : Tree) : List PyStr :=
  ((nameStatus base head).filter fun e =>
    e.1 = ("A" : PyStr) && !git.isRenamed base head e.2 || e.1 = ("M" : PyStr)).map Prod.snd

/-- The lines that `git diff --name-only` prints. -/
def Git.lines (git : Git) (paths : List PyStr) : List PyStr :=
  (ofLines (paths.map git.spelled)).splitLines

/-! ## 2. Forms -/

/-- `[0-9]+\.[0-9]+\.[0-9]+`. -/
def isDotted (s : PyStr) : Bool :=
  let parts := s.split '.'
  parts.length = 3 && parts.all fun part => part.codePoints ≠ [] && part.codePoints.all PyStr.isDigit

/-- The dotted digits between a text and another. -/
def dottedBetween (before after s : PyStr) : Option PyStr :=
  let rest := s.codePoints.drop before.length
  let version : PyStr := ⟨rest.take (rest.length - after.length)⟩
  if s = before ++ version ++ after ∧ isDotted version then some version else none

def markers : PyStr := ".lit/security-releases"

def intakes : PyStr := ".lit/security-release-intakes"

/-- `METADATA_PATH.fullmatch(path)`: the version of a marker. -/
def metadataVersion : PyStr → Option PyStr := dottedBetween (markers ++ "/") ".json"

/-- `INTAKE_PATH.fullmatch(path)`. -/
def intakeVersion : PyStr → Option PyStr := dottedBetween (intakes ++ "/") ".json"

/-- `SECURITY_BRANCH.fullmatch(head_ref)`: the evidence of an intake branch. -/
def branchEvidence (headRef : PyStr) : Option PyStr :=
  let evidence : PyStr := ⟨headRef.codePoints.drop 17⟩
  if headRef.startsWith "security-release/" ∧ PyStr.isEvidence 127 evidence then some evidence
  else none

/-- `RELEASE_BRANCH.fullmatch(head_ref)`. -/
def branchVersion : PyStr → Option PyStr := dottedBetween "release/v" ""

/-- `PREPARE_TITLE.search(message)`: the version of the first line that prepares one. -/
def preparedVersion (message : PyStr) : Option PyStr :=
  (message.segments "\n").findSome? (dottedBetween "chore(release): prepare v" "")

/-! ## 3. The script -/

structure Classification where
  securityRelease : Bool
  evidenceId : PyStr
  version : PyStr
  recoveryReceipt : Bool
  deriving DecidableEq

/-- `Classification(False)`. -/
def normal : Classification := ⟨false, "", "", false⟩

structure Arguments where
  eventKind : PyStr
  version : PyStr
  evidenceId : PyStr
  baseRef : PyStr
  headRef : PyStr
  baseSha : PyStr
  headSha : PyStr
  ref : PyStr
  commitMessage : PyStr
  bindingRoot : Option Root

section

variable (git : Git) (contract : Contract)

def markerPath (version : PyStr) : PyStr := markers ++ "/" ++ version ++ ".json"

def intakePath (version : PyStr) : PyStr := intakes ++ "/" ++ version ++ ".json"

/-- The marker, the intake receipt and the profiles of the binding are those of the checkout. -/
def checkBound (root source : Root) (version : PyStr) : Py Unit :=
  ([markerPath version, intakePath version, ".lit/security-release-profiles.json"] : List PyStr).forM
    fun relative => do
      require (root.isRegularFile relative ∧ source.isRegularFile relative)
        "binding differs from its pre-consumption base"
      require ((← root.readBytes relative) = (← source.readBytes relative))
        "binding differs from its pre-consumption base"

/-- `classify_version(root, version, expected_evidence_id, checked_at, binding_root)`. -/
def classifyVersion (root : Root) (version expectedEvidenceId : PyStr) (checkedAt : Int)
    (bindingRoot : Option Root) : Py Classification := do
  require (isSemver version) "invalid version"
  let metadataExists := root.isThere (markerPath version)
  require (metadataExists = root.isThere (intakePath version)) "partial marker"
  if metadataExists = false then
    require (expectedEvidenceId = "") "Security binding missing"
    return normal
  else
    bindingRoot.forM fun source => checkBound root source version
    match ← contract.loadSecurityBinding (bindingRoot.getD root) version checkedAt with
    | none => .error (.valueError "binding unavailable")
    | some evidenceId => do
      require (expectedEvidenceId = "" ∨ evidenceId = expectedEvidenceId) "evidenceId does not match"
      return ⟨true, evidenceId, version, false⟩

/-- The two trees of a diff; `git` fails on a revision it does not know. -/
def Git.trees (baseSha headSha : PyStr) : Py (Tree × Tree) := do
  require (isRevision baseSha) "base SHA is invalid"
  require (isRevision headSha) "head SHA is invalid"
  match git.tree baseSha, git.tree headSha with
  | some base, some head => .ok (base, head)
  | _, _ => .error (.calledProcessError [])

/-- `changed_security_versions(root, base_sha, head_sha)`. -/
def changedSecurityVersions (baseSha headSha : PyStr) : Py (List PyStr) := do
  let (base, head) ← git.trees baseSha headSha
  let paths := git.addedOrModified (beneath markers base) (beneath markers head)
  let versions ← (git.lines paths).mapM fun raw =>
    match metadataVersion raw with
    | some version => .ok version
    | none => .error (.valueError "invalid metadata path")
  require (versions.length ≤ 1 ∧ versions.Nodup) "multiple metadata files"
  return versions

/-- `changed_recovery_receipt_version(root, base_sha, head_sha)`; the diff is empty but for one
entry, or nothing is recovered. -/
def changedRecoveryReceiptVersion (baseSha headSha : PyStr) : Py (Option PyStr) := do
  let (base, head) ← git.trees baseSha headSha
  match nameStatus base head with
  | [(status, path)] => do
    require (utf8Encode path).isSome "recovery receipt diff is not canonical UTF-8"
    return if status = ("A" : PyStr) then intakeVersion path else none
  | _ => return none

/-- `changed_preparation_version(root, base_sha, head_sha)`. -/
def changedPreparationVersion (root : Root) (baseSha headSha : PyStr) : Py (Option PyStr) := do
  let (base, head) ← git.trees baseSha headSha
  let changed := nameStatus (beneath preparationReceipt base) (beneath preparationReceipt head)
  let paths := (git.lines (changed.map Prod.snd)).filter fun line => line ≠ ("" : PyStr)
  if paths = [] then return none
  else do
    require (paths = [preparationReceipt]) "ambiguous change"
    let receipt ← contract.loadJsonFile root preparationReceipt
    let raw ← root.readBytes preparationReceipt
    require (raw = (← Security.canonicalDocumentBytes contract.rt receipt)) "receipt not canonical"
    match receipt.get "next_version" with
    | .str version => do
      require (isSemver version) "invalid next version"
      return some version
    | _ => .error (.valueError "invalid next version")

/-- The fields in which the request and the verified intake must name the recovery. -/
def isBound (request verified : Value) (version evidenceId baseSha : PyStr) : Bool :=
  Security.isRecoveryRequest request && (request.get "baseSha").isText baseSha &&
    (verified.get "baseSha").isText baseSha && (request.get "fixedVersion").isText version &&
    (verified.get "fixedVersion").isText version && (request.get "evidenceId").isText evidenceId &&
    (verified.get "evidenceId").isText evidenceId &&
    (verified.get "branch").isText ("security-release/" ++ evidenceId)

/-- `classify_recovery_receipt(root, version, evidence_id, base_sha, checked_at)`. -/
def classifyRecoveryReceipt (root : Root) (version evidenceId baseSha : PyStr) (checkedAt : Int) :
    Py Classification := do
  let receipt ← contract.loadJsonFile root (intakePath version)
  let raw ← root.readBytes (intakePath version)
  require (raw = (← Security.canonicalDocumentBytes contract.rt receipt))
    "Security recovery intake receipt is not canonical"
  Security.verifyIntakeReceipt contract.rt receipt checkedAt
  let request := receipt.get "request"
  let expected := if evidenceId ≠ "" then evidenceId else Security.textOf (request.get "evidenceId")
  require (isBound request (receipt.get "verified") version expected baseSha = true)
    "Security recovery receipt binding mismatch"
  let classified ← classifyVersion contract root version expected checkedAt none
  return ⟨true, classified.evidenceId, classified.version, true⟩

/-- `classify(args, root, checked_at)` for a pull request. -/
def classifyPullRequest (args : Arguments) (root : Root) (checkedAt : Int) : Py Classification :=
  if args.baseRef ≠ "main" then .ok normal
  else match branchVersion args.headRef, branchEvidence args.headRef with
  | some version, _ =>
    classifyVersion contract root version args.evidenceId checkedAt args.bindingRoot
  | none, none => .ok normal
  | none, some evidence => do
    match ← changedSecurityVersions git args.baseSha args.headSha with
    | [version] => classifyVersion contract root version evidence checkedAt none
    | _ => do
      match ← changedRecoveryReceiptVersion git args.baseSha args.headSha with
      | none => .error (.valueError "metadata mismatch")
      | some version =>
        classifyRecoveryReceipt contract root version evidence args.baseSha checkedAt

/-- `classify(args, root, checked_at)` for a push. -/
def classifyPush (args : Arguments) (root : Root) (checkedAt : Int) : Py Classification :=
  if args.ref ≠ "refs/heads/main" then .ok normal
  else do
    match ← changedSecurityVersions git args.baseSha args.headSha with
    | version :: _ =>
      classifyVersion contract root version args.evidenceId checkedAt args.bindingRoot
    | [] => do
      match ← changedRecoveryReceiptVersion git args.baseSha args.headSha with
      | some version =>
        classifyRecoveryReceipt contract root version args.evidenceId args.baseSha checkedAt
      | none => do
        match ← changedPreparationVersion git contract root args.baseSha args.headSha with
        | some version =>
          classifyVersion contract root version args.evidenceId checkedAt args.bindingRoot
        | none =>
          match preparedVersion args.commitMessage with
          | some version =>
            classifyVersion contract root version args.evidenceId checkedAt args.bindingRoot
          | none => return normal

/-- `classify(args, root, checked_at)`. -/
def classify (args : Arguments) (root : Root) (checkedAt : Int) : Py Classification :=
  if args.eventKind = "version" then
    if args.version = "" then do
      require (args.evidenceId = "") "evidenceId needs a version"
      return normal
    else classifyVersion contract root args.version args.evidenceId checkedAt args.bindingRoot
  else if args.eventKind = "pull_request" then classifyPullRequest git contract args root checkedAt
  else if args.eventKind = "push" then classifyPush git contract args root checkedAt
  else .error (.valueError "unsupported event kind")

end

/-! ## 4. What the queries answer -/

theorem lookup_beneath (directory : PyStr) (tree : Tree) (path : PyStr) :
    lookup (beneath directory tree) path =
      if isBeneath directory path then lookup tree path else none :=
  lookup_filter (isBeneath directory) path

theorem diffStatus_beneath (directory : PyStr) (base head : Tree) (path : PyStr) :
    diffStatus (beneath directory base) (beneath directory head) path =
      if isBeneath directory path then diffStatus base head path else none := by
  unfold diffStatus
  rw [lookup_beneath, lookup_beneath]
  by_cases hpath : isBeneath directory path = true
  · simp only [hpath, if_true]
  · simp only [hpath, Bool.false_eq_true, if_false]

section

variable {git : Git} {base head : Tree} {path : PyStr}

theorem mem_addedOrModified : path ∈ git.addedOrModified base head ↔
    diffStatus base head path = some ("A" : PyStr) ∧ git.isRenamed base head path = false ∨
      diffStatus base head path = some ("M" : PyStr) := by
  simp only [Git.addedOrModified, List.mem_map, List.mem_filter, Prod.exists, exists_eq_right,
    Bool.or_eq_true, Bool.and_eq_true, decide_eq_true_eq, Bool.not_eq_true', mem_nameStatus]
  constructor
  · rintro ⟨status, hstatus, ⟨rfl, hrenamed⟩ | rfl⟩
    · exact Or.inl ⟨hstatus, hrenamed⟩
    · exact Or.inr hstatus
  · rintro (⟨hstatus, hrenamed⟩ | hstatus)
    · exact ⟨"A", hstatus, Or.inl ⟨rfl, hrenamed⟩⟩
    · exact ⟨"M", hstatus, Or.inr rfl⟩

/-- What is printed of a path is printable. -/
theorem printable_spelled (git : Git) (path : PyStr) :
    ∀ c ∈ (git.spelled path).codePoints, 32 ≤ c ∧ c ≤ 126 := by
  intro c hc
  unfold Git.spelled at hc
  split at hc
  · next hplain =>
    have hc' := List.all_eq_true.mp hplain c hc
    simp only [isPlain, Bool.and_eq_true, decide_eq_true_eq] at hc'
    exact hc'.1.1
  · exact Push.printable_quoted _ c hc

/-- Every path is printed on a line of its own. -/
theorem lines_eq (git : Git) (paths : List PyStr) : git.lines paths = paths.map git.spelled := by
  refine splitLines_ofLines ?_
  intro line hline c hc
  obtain ⟨path, -, rfl⟩ := List.mem_map.mp hline
  obtain ⟨hlow, hhigh⟩ := printable_spelled git path c hc
  simp only [isLineEnd, Bool.or_eq_false_iff, Bool.and_eq_false_iff, decide_eq_false_iff_not]
  omega

theorem dottedBetween_eq_some {before after s version : PyStr}
    (h : dottedBetween before after s = some version) : s = before ++ version ++ after := by
  simp only [dottedBetween, Option.ite_none_right_eq_some, Option.some.injEq] at h
  obtain ⟨⟨heq, -⟩, hversion⟩ := h
  rw [← hversion]
  exact heq

/-- The line of a marker is its path: a quoted path is none. -/
theorem metadataVersion_spelled {version : PyStr}
    (h : metadataVersion (git.spelled path) = some version) :
    path = markerPath version ∧ metadataVersion path = some version := by
  have hspelled := dottedBetween_eq_some h
  have hplain : git.spelled path = path := by
    unfold Git.spelled at hspelled ⊢
    split
    · rfl
    · next hquoted =>
      rw [if_neg hquoted] at hspelled
      have hfirst := congrArg (fun s : PyStr => s.codePoints.head?) hspelled
      exact absurd (Option.some.inj hfirst) (by decide)
  rw [hplain] at h hspelled
  exact ⟨hspelled, h⟩

theorem trees_eq_ok {baseSha headSha : PyStr} (hbaseSha : isRevision baseSha = true)
    (hheadSha : isRevision headSha = true) (hbase : git.tree baseSha = some base)
    (hhead : git.tree headSha = some head) : git.trees baseSha headSha = .ok (base, head) := by
  simp only [Git.trees, require, raiseUnless_of hbaseSha, raiseUnless_of hheadSha, hbase, hhead,
    ok_bind]

/-- What the push adds or modifies under the markers. -/
def Git.reported (git : Git) (base head : Tree) : List PyStr :=
  git.addedOrModified (beneath markers base) (beneath markers head)

/-- **A reported marker is the only one, or the query raises.** -/
theorem versions_of_reported {baseSha headSha : PyStr} {versions : List PyStr}
    (htrees : git.trees baseSha headSha = .ok (base, head))
    (hpath : path ∈ git.reported base head)
    (h : changedSecurityVersions git baseSha headSha = .ok versions) :
    ∃ version, versions = [version] ∧ path = markerPath version ∧
      metadataVersion path = some version := by
  rw [changedSecurityVersions, htrees, ok_bind, bind_eq_ok] at h
  obtain ⟨read, hread, h⟩ := h
  rw [bind_eq_ok] at h
  obtain ⟨_, hcount, h⟩ := h
  rw [require_eq_ok] at hcount
  rw [pure_eq_ok] at h
  subst h
  have hforall := mapM_eq_ok hread
  rw [lines_eq] at hforall
  have hlength := hforall.length_eq
  rw [List.length_map] at hlength
  obtain ⟨only, honly⟩ : ∃ only, git.reported base head = [only] := by
    refine List.length_eq_one_iff.mp ?_
    have hpos := List.length_pos_of_mem hpath
    have hle := hlength.trans_le hcount.1
    exact Nat.le_antisymm hle hpos
  rw [honly, List.mem_singleton] at hpath
  subst hpath
  rw [Git.reported] at honly
  rw [honly, List.map_singleton] at hforall
  obtain ⟨version, hversion, hread⟩ : ∃ version, metadataVersion (git.spelled path) = some version ∧
      read = [version] := by
    cases hforall with
    | cons hfirst hrest =>
      cases hrest
      cases hmatch : metadataVersion (git.spelled path) with
      | none =>
        rw [hmatch] at hfirst
        cases hfirst
      | some version =>
        rw [hmatch] at hfirst
        exact ⟨version, rfl, by rw [Except.ok.inj hfirst]⟩
  obtain ⟨hmarker, hmetadata⟩ := metadataVersion_spelled hversion
  exact ⟨version, hread, hmarker, hmetadata⟩

end

/-! ## 5. A changed marker -/

/-- A file below the markers that the push brings, or changes in its content or its file type. -/
structure Changed (base head : Tree) (path : PyStr) : Prop where
  beneath : path.startsWith (markers ++ "/") = true
  changed : ∃ blob, lookup head path = some blob ∧
    ∀ before, lookup base path = some before → before.content ≠ blob.content ∨ before.kind ≠ blob.kind

/-- The marker is no end of a detected rename, and a file of the same type as before. -/
def Reported (git : Git) (base head : Tree) (path : PyStr) : Prop :=
  git.isRenamed (Release.beneath markers base) (Release.beneath markers head) path = false ∧
    ∀ before blob, lookup base path = some before → lookup head path = some blob →
      before.kind = blob.kind

/-- The call fails, or answers with the version of the marker. -/
def Classified (result : Py Classification) (path : PyStr) : Prop :=
  ∀ c, result = .ok c → c.securityRelease = true ∧ metadataVersion path = some c.version

/-- A push to main from one commit to another; the checkout is the second. -/
structure IsPush (git : Git) (args : Arguments) (root : Root) (base head : Tree) : Prop where
  eventKind : args.eventKind = "push"
  ref : args.ref = "refs/heads/main"
  baseSha : isRevision args.baseSha = true
  headSha : isRevision args.headSha = true
  root : root.Holds head
  base : git.tree args.baseSha = some base
  head : git.tree args.headSha = some head

/-- Nothing but the marker itself says that the push is a Security release: no other marker is
reported, the preparation receipt is as before and the message prepares no version. -/
structure Quiet (git : Git) (args : Arguments) (base head : Tree) (path : PyStr) : Prop where
  markers : ∀ other ∈ git.reported base head, other = path
  receipt : ∀ other, isBeneath preparationReceipt other = true → diffStatus base head other = none
  title : preparedVersion args.commitMessage = none
  text : (utf8Encode path).isSome = true

section

variable {git : Git} {contract : Contract} {args : Arguments} {root : Root} {base head : Tree}
variable {path : PyStr} {checkedAt : Int}

theorem Changed.isBeneath (h : Changed base head path) : isBeneath markers path = true := by
  rw [Release.isBeneath, h.beneath, Bool.or_true]

/-- **The query lists exactly the markers that are reported.** -/
theorem Changed.mem_reported (h : Changed base head path) :
    path ∈ git.reported base head ↔ Reported git base head path := by
  obtain ⟨blob, hblob, hchanged⟩ := h.changed
  rw [Git.reported, mem_addedOrModified, diffStatus_beneath, if_pos h.isBeneath, Reported]
  cases hbefore : lookup base path with
  | none =>
    have hstatus : diffStatus base head path = some ("A" : PyStr) := by
      simp only [diffStatus, hbefore, hblob]
    rw [hstatus]
    constructor
    · rintro (⟨-, hrenamed⟩ | hmodified)
      · exact ⟨hrenamed, fun _ _ hb _ => by cases hb⟩
      · exact absurd (Option.some.inj hmodified) (by decide)
    · rintro ⟨hrenamed, -⟩
      exact Or.inl ⟨rfl, hrenamed⟩
  | some before =>
    have hne : before ≠ blob := by
      rintro rfl
      rcases hchanged before hbefore with hcontent | hkind
      · exact hcontent rfl
      · exact hkind rfl
    have hrenamed : git.isRenamed (Release.beneath Release.markers base)
        (Release.beneath Release.markers head) path = false := by
      rw [Git.isRenamed, List.any_eq_false]
      intro pair _
      have hadded : diffStatus (Release.beneath Release.markers base)
          (Release.beneath Release.markers head) path ≠ some ("A" : PyStr) := by
        rw [diffStatus_beneath, if_pos h.isBeneath]
        simp only [diffStatus, hbefore, hblob, hne, if_false]
        split
        · intro h
          exact absurd (Option.some.inj h) (by decide)
        · intro h
          exact absurd (Option.some.inj h) (by decide)
      rw [decide_eq_false hadded, Bool.and_false]
      exact Bool.noConfusion
    by_cases hkind : before.kind = blob.kind
    · have hstatus : diffStatus base head path = some ("M" : PyStr) := by
        simp only [diffStatus, hbefore, hblob, hne, hkind, if_false, if_true]
      refine ⟨fun _ => ⟨hrenamed, ?_⟩, fun _ => Or.inr hstatus⟩
      intro b t hb ht
      rw [← Option.some.inj hb, ← Option.some.inj (hblob.symm.trans ht)]
      exact hkind
    · have hstatus : diffStatus base head path = some ("T" : PyStr) := by
        simp only [diffStatus, hbefore, hblob, hne, hkind, if_false]
      rw [hstatus]
      constructor
      · rintro (⟨hadded, -⟩ | hmodified)
        · exact absurd (Option.some.inj hadded) (by decide)
        · exact absurd (Option.some.inj hmodified) (by decide)
      · rintro ⟨-, hsame⟩
        exact absurd (hsame before blob rfl hblob) hkind

/-- A version whose marker is there is a Security release, or the call raises. -/
theorem classifyVersion_of_isThere {version expectedEvidenceId : PyStr} {bindingRoot : Option Root}
    {c : Classification} (hthere : root.isThere (markerPath version) = true)
    (h : classifyVersion contract root version expectedEvidenceId checkedAt bindingRoot = .ok c) :
    c.securityRelease = true ∧ c.version = version := by
  rw [classifyVersion, bind_eq_ok] at h
  obtain ⟨_, -, h⟩ := h
  rw [bind_eq_ok] at h
  obtain ⟨_, -, h⟩ := h
  rw [hthere, if_neg Bool.noConfusion, bind_eq_ok] at h
  obtain ⟨_, -, h⟩ := h
  rw [bind_eq_ok] at h
  obtain ⟨binding, -, h⟩ := h
  cases binding with
  | none => cases h
  | some evidenceId =>
    rw [bind_eq_ok] at h
    obtain ⟨_, -, h⟩ := h
    rw [pure_eq_ok] at h
    rw [← h]
    exact ⟨rfl, rfl⟩

/-- Where the query lists the marker, the push is classified by it. -/
theorem classified_of_reported (hpush : IsPush git args root base head)
    (hpath : Changed base head path) (hreported : Reported git base head path) :
    Classified (classify git contract args root checkedAt) path := by
  intro c hc
  have htrees : git.trees args.baseSha args.headSha = .ok (base, head) :=
    trees_eq_ok hpush.baseSha hpush.headSha hpush.base hpush.head
  have hkind : classify git contract args root checkedAt =
      classifyPush git contract args root checkedAt := by
    rw [classify, hpush.eventKind, if_neg (by decide), if_neg (by decide), if_pos rfl]
  rw [hkind, classifyPush, if_neg (not_not.mpr hpush.ref), bind_eq_ok] at hc
  obtain ⟨versions, hversions, hc⟩ := hc
  obtain ⟨version, rfl, hmarker, hmetadata⟩ :=
    versions_of_reported htrees (hpath.mem_reported.mpr hreported) hversions
  obtain ⟨blob, hblob, -⟩ := hpath.changed
  have hthere : root.isThere (markerPath version) = true := by
    rw [← hmarker]
    exact hpush.root path (by rw [hblob]; rfl)
  obtain ⟨hsecurity, hversion⟩ := classifyVersion_of_isThere hthere hc
  exact ⟨hsecurity, by rw [hversion]; exact hmetadata⟩

/-- The one entry of a diff that has the marker is no recovery receipt. -/
theorem recovery_of_changed (htrees : git.trees args.baseSha args.headSha = .ok (base, head))
    (hpath : Changed base head path) (htext : (utf8Encode path).isSome = true) :
    changedRecoveryReceiptVersion git args.baseSha args.headSha = .ok none := by
  have hapart : intakeVersion path = none := by
    obtain ⟨rest, hrest⟩ := startsWith_iff.mp hpath.beneath
    rw [Option.eq_none_iff_forall_ne_some]
    intro version hversion
    have hintake := dottedBetween_eq_some hversion
    rw [hrest] at hintake
    have hpoint := congrArg (fun s : PyStr => s.codePoints[21]?) hintake
    exact absurd (Option.some.inj hpoint) (by decide)
  obtain ⟨status, hstatus⟩ : ∃ status, diffStatus base head path = some status := by
    obtain ⟨blob, hblob, hchanged⟩ := hpath.changed
    rw [← Option.isSome_iff_exists, ← Option.ne_none_iff_isSome]
    intro hnone
    have hsame := (diffStatus_eq_none hnone).symm.trans hblob
    rcases hchanged blob hsame with h | h
    · exact h rfl
    · exact h rfl
  have hlisted : (status, path) ∈ nameStatus base head := mem_nameStatus.mpr hstatus
  rw [changedRecoveryReceiptVersion, htrees, ok_bind]
  simp only []
  split
  · next only heq =>
    rw [heq, List.mem_singleton] at hlisted
    obtain ⟨rfl, rfl⟩ := Prod.mk.inj hlisted
    rw [require, raiseUnless_of htext, ok_bind, hapart, ite_self]
    rfl
  · rfl

/-- **A hidden marker leaves the push normal, where nothing else speaks.** -/
theorem normal_of_hidden (hpush : IsPush git args root base head) (hpath : Changed base head path)
    (hquiet : Quiet git args base head path) (hhidden : ¬ Reported git base head path) :
    classify git contract args root checkedAt = .ok normal := by
  have htrees : git.trees args.baseSha args.headSha = .ok (base, head) :=
    trees_eq_ok hpush.baseSha hpush.headSha hpush.base hpush.head
  have hnone : git.reported base head = [] := by
    refine List.eq_nil_iff_forall_not_mem.mpr ?_
    intro other hother
    have hsame := hquiet.markers other hother
    rw [hsame] at hother
    exact hhidden (hpath.mem_reported.mp hother)
  have hversions : changedSecurityVersions git args.baseSha args.headSha = .ok [] := by
    rw [Git.reported] at hnone
    rw [changedSecurityVersions, htrees, ok_bind]
    simp only []
    rw [hnone]
    rfl
  have hprepared : changedPreparationVersion git contract root args.baseSha args.headSha =
      .ok none := by
    have hreceipt : nameStatus (Release.beneath preparationReceipt base)
        (Release.beneath preparationReceipt head) = [] := by
      refine List.eq_nil_iff_forall_not_mem.mpr ?_
      rintro ⟨status, other⟩ hother
      rw [mem_nameStatus, diffStatus_beneath] at hother
      split at hother
      · next hother' =>
        rw [hquiet.receipt other hother'] at hother
        cases hother
      · cases hother
    rw [changedPreparationVersion, htrees, ok_bind]
    simp only []
    rw [hreceipt]
    rfl
  rw [classify, hpush.eventKind, if_neg (by decide), if_neg (by decide), if_pos rfl, classifyPush,
    if_neg (not_not.mpr hpush.ref), hversions, ok_bind]
  simp only []
  rw [recovery_of_changed htrees hpath hquiet.text, ok_bind]
  simp only []
  rw [hprepared, ok_bind]
  simp only [hquiet.title]
  rfl

/-- **A changed marker is classified where the query reports it, and where nothing else speaks for it
only there.** -/
theorem marker_classified (hpush : IsPush git args root base head)
    (hpath : Changed base head path) :
    (Reported git base head path → Classified (classify git contract args root checkedAt) path) ∧
      (Quiet git args base head path →
        (Classified (classify git contract args root checkedAt) path ↔
          Reported git base head path)) := by
  refine ⟨classified_of_reported hpush hpath, fun hquiet => ⟨?_, classified_of_reported hpush hpath⟩⟩
  intro hclassified
  by_contra hhidden
  have hnormal := hclassified normal (normal_of_hidden hpush hpath hquiet hhidden)
  exact absurd hnormal.1 (by decide)

end

/-! ## 6. A marker behind a rename -/

/-- A deleted path and an added one with the same content are a rename. -/
def exactRenames (base head : Tree) : List (PyStr × PyStr) :=
  base.flatMap fun old => (head.filter fun new => new.2.content = old.2.content).map fun new =>
    (old.1, new.1)

/-- The checkout of a tree. -/
def checkedOut (tree : Tree) : Root where
  isThere path := (lookup tree path).isSome
  isRegularFile path := (readFile tree path).isSome
  readBytes path := match readFile tree path with
    | some content => .ok content
    | none => .error .osError

def shaOf (c : Nat) : PyStr := ⟨List.replicate 40 c⟩

def markerBlob : Blob := ⟨.file, false, [123, 125]⟩

/-- The second commit has the marker under another version, with the same content. -/
def earlierMarker : Tree := [(".lit/security-releases/1.0.0.json", markerBlob)]

def laterMarker : Tree := [(".lit/security-releases/1.0.1.json", markerBlob)]

def twoCommits (base head : Tree) : Git where
  tree sha := if sha = shaOf 97 then some base else if sha = shaOf 98 then some head else none
  renames := exactRenames
  fsencode s := s.codePoints.map Nat.toUInt8

def pushArguments : Arguments :=
  ⟨"push", "", "", "", "", shaOf 97, shaOf 98, "refs/heads/main", "", none⟩

def plainContract : Contract where
  rt := Security.sampleInterpreter
  loadJsonFile _ _ := .error .osError
  loadSecurityBinding _ _ _ := .ok (some "MLX90-SAMPLE")

theorem isPush_sample (base head : Tree) :
    IsPush (twoCommits base head) pushArguments (checkedOut head) base head where
  eventKind := rfl
  ref := rfl
  baseSha := by decide +kernel
  headSha := by decide +kernel
  root := fun _ h => h
  base := rfl
  head := rfl

theorem marker_classified_sample : Classified (classify (twoCommits [] laterMarker) plainContract
    pushArguments (checkedOut laterMarker) 0) ".lit/security-releases/1.0.1.json" :=
  (marker_classified (isPush_sample [] laterMarker)
    ⟨by decide +kernel, markerBlob, by decide +kernel, fun _ h => by cases h⟩).1
    ⟨by decide +kernel, fun _ _ h => by cases h⟩

/-- **The marker of 1.0.0 becomes that of 1.0.1, and the push is a normal release.** -/
theorem renamed_not_classified : ¬ ∀ git contract args root base head path checkedAt,
    IsPush git args root base head → Changed base head path →
      Classified (classify git contract args root checkedAt) path := by
  intro h
  have hpath : Changed earlierMarker laterMarker ".lit/security-releases/1.0.1.json" := by
    refine ⟨by decide +kernel, markerBlob, by decide +kernel, ?_⟩
    intro before hbefore
    have hnone : lookup earlierMarker ".lit/security-releases/1.0.1.json" = none := by
      decide +kernel
    rw [hnone] at hbefore
    cases hbefore
  have hresult : (classify (twoCommits earlierMarker laterMarker) plainContract pushArguments
      (checkedOut laterMarker) 0) = .ok normal := by
    rfl
  have hclassified := h _ plainContract _ _ _ _ _ 0 (isPush_sample earlierMarker laterMarker) hpath
    normal hresult
  exact absurd hclassified.1 (by decide)

end Supplementary.Release
