/-
# What an accepted preparation is

The receipt of an accepted preparation agrees with itself and with the two trees: its version is its
own current version advanced by its own impact, its fragments are deleted, and nothing else but the
generated paths has changed.  That the impact and the list of fragments are those of the reviewed
fragments is not asked again: an App commit with another impact is accepted.
-/
import Supplementary.Release.Promotion

namespace Supplementary.Release

open Supplementary PyStr

/-! ## 1. The receipt -/

/-- The receipt's version is its current version, advanced by its impact. -/
structure Advanced (receipt : Value) (version : PyStr) : Prop where
  next : receipt.get "next_version" = .str version
  derived : ∃ current impact next, receipt.get "impact" = .str impact ∧ impact ∈ impacts ∧
    parseStableVersion (str? (receipt.get "current_version")) "receipt current version" =
      .ok current ∧
    nextVersion current impact = .ok next ∧ renderVersion next = .ok version

/-- The fragments are distinct, sorted names of YAML files with digests. -/
structure Listed (receipt : Value) (fragments : List (PyStr × PyStr)) : Prop where
  read : readFragments receipt = .ok fragments
  some : fragments ≠ []
  bounded : fragments.length ≤ 256
  sorted : fragments.map Prod.fst = sorted (fragments.map Prod.fst).dedup
  form : ∀ f ∈ fragments, hasYamlSuffix f.1 = true ∧ ¬ f.1.contains "/" = true ∧
    PyStr.isHex 64 f.2 = true

theorem str?_eq_some {value : Value} {s : PyStr} : str? value = some s ↔ value = .str s := by
  cases value <;> simp [str?]

theorem listed_of_read {receipt : Value} {fragments : List (PyStr × PyStr)}
    (h : readFragments receipt = .ok fragments) : Listed receipt fragments := by
  have hread := h
  unfold readFragments at h
  split at h
  · next values heq =>
    simp only [bind_eq_ok, require_eq_ok, pure_eq_ok] at h
    obtain ⟨-, ⟨hne, hlen⟩, read, hmap, -, hsorted, rfl⟩ := h
    have hall := mapM_eq_ok hmap
    refine ⟨hread, ?_, hall.length_eq ▸ hlen, hsorted, ?_⟩
    · rintro rfl
      cases hall
      exact hne rfl
    · intro f hf
      obtain ⟨value, -, hvalue⟩ := mem_of_mapM hmap hf
      simp only [readFragment, bind_eq_ok, require_eq_ok] at hvalue
      obtain ⟨-, -, hvalue⟩ := hvalue
      split at hvalue
      · simp only [bind_eq_ok, require_eq_ok, pure_eq_ok] at hvalue
        obtain ⟨-, ⟨hslash, hsuffix, hhex⟩, rfl⟩ := hvalue
        exact ⟨hsuffix, hslash, hhex⟩
      · cases hvalue
  · cases h

theorem advanced_of_check {receipt : Value} {version : PyStr}
    (h : checkVersion receipt version = .ok ()) : Advanced receipt version := by
  simp only [checkVersion, bind_eq_ok] at h
  obtain ⟨current, hcurrent, h⟩ := h
  split at h
  · cases h
  · next impact himpact =>
    simp only [bind_eq_ok, require_eq_ok] at h
    obtain ⟨next, hnext, calculated, hrender, -, -, hcalculated, hexpected⟩ := h
    rw [hcalculated, Option.some.injEq] at hexpected
    subst hexpected
    exact ⟨str?_eq_some.mp hcalculated, current, impact, next, str?_eq_some.mp himpact,
      impact_of_nextVersion hnext, hcurrent, hnext, hrender⟩

/-- A Security receipt lists the fragment of the binding of its base. -/
structure Bound (bindings : Bindings) (receipt : Value) (version : PyStr)
    (fragments : List (PyStr × PyStr)) (binding : Option Binding) : Prop where
  found : ∃ current, receipt.get "current_version" = .str current ∧
    bindings current version = .ok binding
  mode : receipt.get "release_mode" = .str (if binding.isSome then "security" else "normal")
  fragment : ∀ b ∈ binding, lookup fragments (baseName b.changelogFragmentPath) =
    some (bareDigest b.changelogFragmentSha256)

theorem of_verify {tools : Tools} {bindings : Bindings} {receipt : Value}
    {repository repositoryId baseSha version : PyStr} {binding : Option Binding}
    {fragments : List (PyStr × PyStr)}
    (h : verifyPreparationReceipt tools bindings receipt repository repositoryId baseSha version =
      .ok (binding, fragments)) :
    Advanced receipt version ∧ Listed receipt fragments ∧
      Bound bindings receipt version fragments binding := by
  simp only [verifyPreparationReceipt, bind_eq_ok] at h
  obtain ⟨-, -, h⟩ := h
  split at h
  · cases h
  · simp only [bind_eq_ok, require_eq_ok, pure_eq_ok, Prod.mk.injEq] at h
    obtain ⟨-, -, -, -, -, -, ⟨⟩, hversion, found, hfound, ⟨⟩, hmode, read, hread, ⟨⟩, hbound, -, -,
      rfl, rfl⟩ := h
    have hadvanced := advanced_of_check hversion
    obtain ⟨current, hcurrent⟩ : ∃ current, receipt.get "current_version" = .str current := by
      obtain ⟨_, _, _, -, -, hparse, -⟩ := hadvanced.derived
      cases hstr : str? (receipt.get "current_version") with
      | none =>
        rw [hstr] at hparse
        cases hparse
      | some current => exact ⟨current, str?_eq_some.mp hstr⟩
    refine ⟨hadvanced, listed_of_read hread, ⟨current, hcurrent, ?_⟩, ?_, ?_⟩
    · rwa [hcurrent] at hfound
    · cases found with
      | none =>
        simp only [checkMode, bind_eq_ok, require_eq_ok] at hmode
        exact Value.isText_iff.mp hmode.choose_spec.1
      | some b =>
        simp only [checkMode, bind_eq_ok, require_eq_ok] at hmode
        exact Value.isText_iff.mp hmode.choose_spec.1
    · intro b hb
      cases found with
      | none => cases hb
      | some b' =>
        cases hb
        simpa [checkBoundFragment] using hbound

/-! ## 2. The trees -/

/-- The fragments are deleted, and nothing else but the generated paths differs. -/
structure Consumed (base head : Tree) (fragments : List (PyStr × PyStr)) : Prop where
  deleted : ∀ f ∈ fragments, (lookup base (fragmentPath f)).isSome = true ∧
    lookup head (fragmentPath f) = none
  rest : ∀ path, path ∉ releaseGeneratedPaths → path ∉ fragments.map fragmentPath →
    lookup head path = lookup base path

theorem lookup_filter {tree : Tree} (keep : PyStr → Bool) (path : PyStr) :
    lookup (tree.filter fun e => keep e.1) path = if keep path then lookup tree path else none := by
  induction tree with
  | nil => exact (ite_self none).symm
  | cons e tree ih =>
    obtain ⟨key, blob⟩ := e
    rw [List.filter_cons, lookup]
    by_cases hsame : key = path
    · subst hsame
      split
      · next hkey =>
        rw [lookup, ih]
        simp only [hkey, if_true]
      · next hkey =>
        rw [ih]
        simp only [hkey, Bool.false_eq_true, if_false]
    · rw [if_neg hsame, Option.or_none]
      split
      · rw [lookup, if_neg hsame, Option.or_none, ih]
      · exact ih

theorem diffStatus_eq_none {base head : Tree} {path : PyStr}
    (h : diffStatus base head path = none) :
    lookup head path = lookup base path := by
  unfold diffStatus at h
  split at h
  · next hb hh => rw [hb, hh]
  · cases h
  · cases h
  · next b t hb hh =>
    by_cases heq : b = t
    · rw [hb, hh, heq]
    · rw [if_neg heq] at h
      split at h <;> cases h

theorem diffStatus_deleted {base head : Tree} {path : PyStr}
    (h : diffStatus base head path = some ("D" : PyStr)) :
    (lookup base path).isSome = true ∧ lookup head path = none := by
  unfold diffStatus at h
  split at h
  · cases h
  · exact absurd (Option.some.inj h) (by decide)
  · next hb hh => exact ⟨by rw [hb]; rfl, hh⟩
  · split at h
    · cases h
    · split at h <;> exact absurd (Option.some.inj h) (by decide)

/-- A path that differs is among the changes. -/
theorem mem_nameStatus {base head : Tree} {path status : PyStr} :
    (status, path) ∈ nameStatus base head ↔ diffStatus base head path = some status := by
  simp only [nameStatus, List.mem_filterMap, Option.map_eq_some_iff, Prod.mk.injEq]
  constructor
  · rintro ⟨_, -, _, h, rfl, rfl⟩
    exact h
  · intro h
    refine ⟨path, ?_, status, h, rfl, rfl⟩
    rw [sorted, List.mem_insertionSort, List.mem_dedup, List.map_append, List.mem_append,
      ← lookup_isSome, ← lookup_isSome]
    unfold diffStatus at h
    split at h
    · cases h
    · next _ hh => exact Or.inr (by rw [hh]; rfl)
    · next hb _ => exact Or.inl (by rw [hb]; rfl)
    · next hb _ => exact Or.inl (by rw [hb]; rfl)

theorem mem_of_statusOf {changes : List (PyStr × PyStr)} {path status : PyStr}
    (h : statusOf changes path = some status) : (status, path) ∈ changes := by
  unfold statusOf at h
  induction changes with
  | nil => cases h
  | cons e changes ih =>
    rw [List.map_cons, lookup, Option.or_eq_some_iff] at h
    rcases h with h | ⟨-, h⟩
    · exact List.mem_cons_of_mem _ (ih h)
    · by_cases heq : e.2 = path
      · simp only [heq, if_true, Option.some.injEq] at h
        subst h heq
        exact List.mem_cons_self ..
      · simp [heq] at h

theorem consumed_of_check {base head : Tree} {changes fragments : List (PyStr × PyStr)}
    (hchanges : changedPaths base head = .ok changes)
    (hcheck : checkChanges changes fragments = .ok ()) : Consumed base head fragments := by
  simp only [changedPaths, bind_eq_ok, require_eq_ok, pure_eq_ok] at hchanges
  obtain ⟨-, -, -, -, -, -, rfl⟩ := hchanges
  simp only [checkChanges, bind_eq_ok, require_eq_ok, List.all_eq_true, decide_eq_true_eq] at hcheck
  obtain ⟨-, -, -, hallowed, hdeleted⟩ := hcheck
  refine ⟨fun f hf => ?_, fun path hgenerated hfragment => ?_⟩
  · exact diffStatus_deleted (mem_nameStatus.mp (mem_of_statusOf (hdeleted f hf)))
  · cases hstatus : diffStatus base head path with
    | none => exact diffStatus_eq_none hstatus
    | some status =>
      rcases List.mem_append.mp (hallowed _ (mem_nameStatus.mpr hstatus)) with h | h
      · exact absurd h hgenerated
      · exact absurd h hfragment

/-! ## 3. The two verifiers -/

/-- The receipt agrees with itself, with the binding and with the two trees. -/
structure Prepared (bindings : Bindings) (repository : Repository) (receipt : Value)
    (baseSha headSha : PyStr) (base head : Commit) (version : PyStr)
    (fragments : List (PyStr × PyStr)) (binding : Option Binding) : Prop where
  base_eq : repository.commit baseSha = some base
  head_eq : repository.commit headSha = some head
  advanced : Advanced receipt version
  listed : Listed receipt fragments
  bound : Bound bindings receipt version fragments binding
  consumed : Consumed base.tree head.tree fragments

section Verifiers

variable {tools : Tools} {bindings : Bindings} {repository : Repository} {receipt : Value}
  {baseSha headSha : PyStr}

theorem show_eq_ok {revision : PyStr} {commit : Commit} :
    repository.show revision = .ok commit ↔ repository.commit revision = some commit := by
  unfold Repository.show
  cases repository.commit revision <;> simp

/-- The receipt and the revisions determine all but the binding. -/
theorem Prepared.unique {base base' head head' : Commit} {version version' : PyStr}
    {fragments fragments' : List (PyStr × PyStr)} {binding binding' : Option Binding}
    (h : Prepared bindings repository receipt baseSha headSha base head version fragments binding)
    (h' : Prepared bindings repository receipt baseSha headSha base' head' version' fragments'
      binding') : base = base' ∧ head = head' ∧ version = version' ∧ fragments = fragments' := by
  refine ⟨?_, ?_, ?_, ?_⟩
  · exact Option.some.inj (h.base_eq.symm.trans h'.base_eq)
  · exact Option.some.inj (h.head_eq.symm.trans h'.head_eq)
  · exact Value.str.inj (h.advanced.next.symm.trans h'.advanced.next)
  · exact Except.ok.inj (h.listed.read.symm.trans h'.listed.read)

theorem of_checkPromotion {headRef : PyStr} {promotion : Promotion}
    (h : checkPromotion tools bindings repository receipt baseSha headSha headRef =
      .ok promotion) :
    ∃ base head version fragments binding,
      Prepared bindings repository receipt baseSha headSha base head version fragments binding ∧
        releaseVersion headRef = some version ∧ galaxyVersion tools head.tree = .ok version := by
  unfold checkPromotion at h
  split at h
  · cases h
  · next version hversion =>
    simp only [bind_eq_ok, require_eq_ok, show_eq_ok] at h
    obtain ⟨⟨binding, fragments⟩, hverify, -, -, head, hhead, declared, hdeclared, -, rfl, base,
      hbase, changes, hchanges, ⟨⟩, hcheck, -⟩ := h
    obtain ⟨hadvanced, hlisted, hbound⟩ := of_verify hverify
    exact ⟨base, head, declared, fragments, binding,
      ⟨hbase, hhead, hadvanced, hlisted, hbound, consumed_of_check hchanges hcheck⟩, hversion,
      hdeclared⟩

theorem of_promotion {headRef : PyStr} {promotion : Promotion}
    (h : verifyReleasePromotion tools bindings repository baseSha headSha headRef =
      .ok (receipt, promotion)) :
    ∃ base head version fragments binding,
      Prepared bindings repository receipt baseSha headSha base head version fragments binding ∧
        releaseVersion headRef = some version ∧ galaxyVersion tools head.tree = .ok version := by
  simp only [verifyReleasePromotion, bind_eq_ok, pure_eq_ok, Prod.mk.injEq] at h
  obtain ⟨-, -, -, -, _, -, _, hcheck, rfl, rfl⟩ := h
  exact of_checkPromotion hcheck

theorem loadReceipt_of {tree : Tree} {content : Bytes}
    (hread : readFile tree preparationReceipt = some content)
    (hbound : content.length ≤ maxJsonBytes) (hload : tools.loadDocument content = .ok receipt) :
    loadReceipt tools tree = .ok receipt := by
  rw [loadReceipt, hread, ← hload]
  simp only [require, raiseUnless, if_pos hbound, ok_bind]

theorem verify_of_load {headRef : PyStr} {head : Commit} {promotion : Promotion}
    (hbranch : (releaseVersion headRef).isSome = true)
    (hhead : repository.commit headSha = some head)
    (hload : loadReceipt tools head.tree = .ok receipt)
    (hcheck : checkPromotion tools bindings repository receipt baseSha headSha headRef =
      .ok promotion) :
    verifyReleasePromotion tools bindings repository baseSha headSha headRef =
      .ok (receipt, promotion) := by
  rw [verifyReleasePromotion, require, raiseUnless_of hbranch, ok_bind, show_eq_ok.mpr hhead,
    ok_bind, hload, ok_bind, hcheck]
  rfl

/-- The fragment is at the base, with its digest. -/
def HasDigest (tools : Tools) (base : Tree) (fragment : PyStr × PyStr) : Prop :=
  ∃ blob, lookup base (fragmentPath fragment) = some blob ∧ tools.sha256 blob.content = fragment.2

theorem hasDigest_of_check {base : Tree} {fragment : PyStr × PyStr}
    (h : checkDigest tools base fragment = .ok ()) : HasDigest tools base fragment := by
  unfold checkDigest at h
  split at h
  · cases h
  · next blob heq => exact ⟨blob, heq, by simpa using h⟩

/-- The `galaxy.yml` of the tree declares the version. -/
def Declares (tools : Tools) (tree : Tree) (version : Value) : Prop :=
  ∃ blob text, lookup tree "galaxy.yml" = some blob ∧ version = .str text ∧
    tools.galaxyVersions blob.content = .ok [text]

theorem declares_of_check {tree : Tree} {value : Value}
    (h : checkDeclared tools tree (str? value) = .ok ()) : Declares tools tree value := by
  unfold checkDeclared at h
  split at h
  · cases h
  · next blob heq =>
    simp only [bind_eq_ok, require_eq_ok] at h
    obtain ⟨observed, hobserved, hmap⟩ := h
    cases observed with
    | nil => cases hmap
    | cons text rest =>
      simp only [List.map_cons, List.cons.injEq, List.map_eq_nil_iff] at hmap
      obtain ⟨htext, rfl⟩ := hmap
      exact ⟨blob, text, heq, str?_eq_some.mp htext.symm, hobserved⟩

theorem of_preparation {workflowSource name id : PyStr}
    (h : preparation tools bindings repository baseSha headSha workflowSource name id =
      .ok receipt) :
    ∃ base head version fragments binding,
      Prepared bindings repository receipt baseSha headSha base head version fragments binding ∧
        (∀ f ∈ fragments, HasDigest tools base.tree f) ∧
        Declares tools base.tree (receipt.get "current_version") := by
  simp only [preparation, checkPreparation, bind_eq_ok, require_eq_ok, show_eq_ok, forM_eq_ok,
    pure_eq_ok] at h
  obtain ⟨-, -, -, -, _, -, -, ⟨-, -, -, -, ⟨binding, fragments⟩, hverify, -, -, -, -, base, hbase,
    head, hhead, changes, hchanges, ⟨⟩, hcheck, -, -, ⟨⟩, hdigests, source, -, ⟨⟩, hdeclared, -⟩,
    rfl⟩ := h
  obtain ⟨hadvanced, hlisted, hbound⟩ := of_verify hverify
  exact ⟨base, head, _, fragments, binding,
    ⟨hbase, hhead, hadvanced, hlisted, hbound, consumed_of_check hchanges hcheck⟩,
    fun f hf => hasDigest_of_check (hdigests f hf), declares_of_check hdeclared⟩

end Verifiers

/-- One of the two verifiers accepts the receipt. -/
def Accepts (tools : Tools) (bindings : Bindings) (repository : Repository) (receipt : Value)
    (baseSha headSha : PyStr) : Prop :=
  (∃ headRef promotion, verifyReleasePromotion tools bindings repository baseSha headSha headRef =
    .ok (receipt, promotion)) ∨
  ∃ workflowSource name id, preparation tools bindings repository baseSha headSha workflowSource
    name id = .ok receipt

/-- **An accepted receipt agrees with itself, with the Security binding of the base and with the two
trees**; of a promotion its version is that of the branch and of the head, of a preparation its
digests and its current version are those of the base. -/
theorem accepted_receipt (tools : Tools) (bindings : Bindings) (repository : Repository)
    (receipt : Value) (baseSha headSha : PyStr)
    (h : Accepts tools bindings repository receipt baseSha headSha) :
    ∃ base head version fragments binding,
      Prepared bindings repository receipt baseSha headSha base head version fragments binding ∧
      (∀ headRef promotion,
        verifyReleasePromotion tools bindings repository baseSha headSha headRef =
          .ok (receipt, promotion) →
        releaseVersion headRef = some version ∧ galaxyVersion tools head.tree = .ok version) ∧
      ∀ workflowSource name id, preparation tools bindings repository baseSha headSha workflowSource
          name id = .ok receipt →
        (∀ f ∈ fragments, HasDigest tools base.tree f) ∧
          Declares tools base.tree (receipt.get "current_version") := by
  obtain ⟨base, head, version, fragments, binding, hprepared⟩ :
      ∃ base head version fragments binding,
      Prepared bindings repository receipt baseSha headSha base head version fragments binding := by
    rcases h with ⟨_, _, h⟩ | ⟨_, _, _, h⟩
    · obtain ⟨base, head, version, fragments, binding, hprepared, -⟩ := of_promotion h
      exact ⟨base, head, version, fragments, binding, hprepared⟩
    · obtain ⟨base, head, version, fragments, binding, hprepared, -⟩ := of_preparation h
      exact ⟨base, head, version, fragments, binding, hprepared⟩
  refine ⟨base, head, version, fragments, binding, hprepared, ?_, ?_⟩
  · intro headRef promotion hverify
    obtain ⟨_, _, _, _, _, hprepared', hbranch, hgalaxy⟩ := of_promotion hverify
    obtain ⟨-, rfl, rfl, -⟩ := hprepared.unique hprepared'
    exact ⟨hbranch, hgalaxy⟩
  · intro workflowSource name id hpreparation
    obtain ⟨_, _, _, _, _, hprepared', hdigests, hdeclared⟩ := of_preparation hpreparation
    obtain ⟨rfl, -, -, rfl⟩ := hprepared.unique hprepared'
    exact ⟨hdigests, hdeclared⟩

/-! ## 4. An impact that is not derived -/

/-- What the receipt says is what `resolve_version` computes from the base. -/
def Derived (tools : Tools) (bindings : Bindings) (base head : Tree) (receipt : Value) : Prop :=
  ∃ resolution, resolveVersion tools base bindings
      (if (receipt.get "release_mode").isText "security" then str? (receipt.get "next_version")
        else none) = .ok resolution ∧
    receipt.get "impact" = .str resolution.impact ∧
    receipt.get "next_version" = .str resolution.version ∧
    readFragments receipt = .ok resolution.fragments ∧
    Consumed base head resolution.fragments

def sampleFragment : Bytes := bytes "---\nbugfixes:\n  - Fix.\n"

def sampleGalaxy (version : String) : Bytes := bytes ("version: " ++ version ++ "\n")

def sampleBase : PyStr := ⟨List.replicate 40 97⟩

/-- A receipt that calls a bug fix a major change. -/
@[irreducible] def sampleReceipt : Value :=
  .dict [("schema_version", .int 3), ("repository", .str producerRepository),
    ("repository_id", .str producerRepositoryId), ("base_sha", .str sampleBase),
    ("release_mode", .str "normal"), ("chain_id", .none), ("security", .none),
    ("current_version", .str "1.0.0"), ("impact", .str "major"), ("next_version", .str "2.0.0"),
    ("fragments", .list [.dict [("path", .str "fix.yml"),
      ("sha256", .str "634bfc55b23f1d8213f88813b5b8f49b24319d6715e8738e927e39c22778e3db")]]),
    ("preparer", releasePreparer),
    ("workflow", .dict [("path", .str ".github/workflows/release-prepare.yml"),
      ("ref", .str (producerRepository ++
        "/.github/workflows/release-prepare.yml@refs/heads/main")),
      ("source_sha", .str sampleBase), ("run_id", .str "1"), ("run_attempt", .str "1"),
      ("event", .str "push"), ("git_ref", .str "refs/heads/main"),
      ("actor", .str releaseAppLogin)]),
    ("content_base", .dict [("ref", .str "refs/heads/develop"), ("sha", .str sampleBase)]),
    ("publication", .dict [("github_release", .bool true), ("galaxy", .bool true)])]

/-- Its canonical JSON. -/
@[irreducible] def sampleReceiptText : Bytes :=
  match dumps jsonFloat 9 sampleReceipt with
  | .ok raw => raw ++ [10]
  | .error _ => []

/-- A reader that knows one document. -/
def loadOnly (known : Bytes) (value : Value) (content : Bytes) : Py Value :=
  if content = known then .ok value else .error (.valueError "JSON")

theorem loadOnly_self (known : Bytes) (value : Value) : loadOnly known value known = .ok value :=
  if_pos rfl

/-- The tools, as they behave on the files of the sample. -/
def sampleTools : Tools where
  loadYaml content :=
    if content = sampleFragment then
      .ok (.dict [(.str "bugfixes", .list [.str "Fix."])])
    else if content = sampleGalaxy "1.0.0" then .ok (.dict [(.str "version", .str "1.0.0")])
    else if content = sampleGalaxy "2.0.0" then .ok (.dict [(.str "version", .str "2.0.0")])
    else .error (.valueError "YAML")
  loadDocument := loadOnly sampleReceiptText sampleReceipt
  sha256 content :=
    if content = sampleFragment then
      "634bfc55b23f1d8213f88813b5b8f49b24319d6715e8738e927e39c22778e3db"
    else ""
  isdigit s := s.codePoints ≠ [] && s.codePoints.all PyStr.isDigit
  galaxyVersions content :=
    if content = sampleGalaxy "1.0.0" then .ok ["1.0.0"]
    else if content = sampleGalaxy "2.0.0" then .ok ["2.0.0"]
    else .ok []

def sampleHead : PyStr := ⟨List.replicate 40 98⟩

def regular (content : Bytes) : Blob := ⟨.file, false, content⟩

def baseCommit : Commit where
  tree := [("galaxy.yml", regular (sampleGalaxy "1.0.0")),
    ("changelogs/fragments/fix.yml", regular sampleFragment)]
  parents := []
  author := ""
  committer := ""
  message := ""

def headCommit : Commit where
  tree := [("galaxy.yml", regular (sampleGalaxy "2.0.0")),
    (preparationReceipt, regular sampleReceiptText)]
  parents := [sampleBase]
  author := appIdentity
  committer := appIdentity
  message := prepareMessage "2.0.0"

def sampleRepository : Repository where
  commit revision := if revision = sampleBase then some baseCommit
    else if revision = sampleHead then some headCommit else none
  isAncestor _ _ := true

theorem sampleBase_ne : sampleHead ≠ sampleBase := by decide +kernel

theorem commit_sampleBase : sampleRepository.commit sampleBase = some baseCommit := by
  change (if sampleBase = sampleBase then some baseCommit else
    if sampleBase = sampleHead then some headCommit else none) = some baseCommit
  rw [if_pos rfl]

theorem commit_sampleHead : sampleRepository.commit sampleHead = some headCommit := by
  change (if sampleHead = sampleBase then some baseCommit else
    if sampleHead = sampleHead then some headCommit else none) = some headCommit
  rw [if_neg sampleBase_ne, if_pos rfl]

theorem loadDocument_sample : sampleTools.loadDocument sampleReceiptText = .ok sampleReceipt :=
  loadOnly_self sampleReceiptText sampleReceipt

theorem readFile_last (path : PyStr) (content : Bytes) (first : PyStr × Blob) :
    readFile [first, (path, regular content)] path = some content := by
  simp [readFile, lookup, regular]

theorem accepts_sample : Accepts sampleTools (fun _ _ => .ok none) sampleRepository sampleReceipt
    sampleBase sampleHead := by
  have hok : (checkPromotion sampleTools (fun _ _ => .ok none) sampleRepository sampleReceipt
      sampleBase sampleHead "release/v2.0.0").isOk = true := by decide +kernel
  have hread : readFile headCommit.tree preparationReceipt = some sampleReceiptText :=
    readFile_last ..
  have hbound : sampleReceiptText.length ≤ maxJsonBytes := by decide +kernel
  have hload : loadReceipt sampleTools headCommit.tree = .ok sampleReceipt :=
    loadReceipt_of hread hbound loadDocument_sample
  obtain ⟨promotion, hcheck⟩ := exists_of_isOk hok
  have hbranch : (releaseVersion "release/v2.0.0").isSome = true := by decide +kernel
  have hverify : verifyReleasePromotion sampleTools (fun _ _ => .ok none) sampleRepository
      sampleBase sampleHead "release/v2.0.0" = .ok (sampleReceipt, promotion) :=
    verify_of_load hbranch commit_sampleHead hload hcheck
  exact Or.inl ⟨"release/v2.0.0", promotion, hverify⟩

theorem accepted_receipt_sample : ∃ base head version fragments binding,
    Prepared (fun _ _ => .ok none) sampleRepository sampleReceipt sampleBase sampleHead base head
      version fragments binding := by
  obtain ⟨base, head, version, fragments, binding, h, -⟩ := accepted_receipt sampleTools
    (fun _ _ => .ok none) sampleRepository sampleReceipt sampleBase sampleHead accepts_sample
  exact ⟨base, head, version, fragments, binding, h⟩

/-- Neither verifier derives the impact again. -/
theorem impact_not_derived : ¬ ∀ tools bindings repository receipt baseSha headSha base head,
    Accepts tools bindings repository receipt baseSha headSha →
      repository.commit baseSha = some base → repository.commit headSha = some head →
        Derived tools bindings base.tree head.tree receipt := by
  intro h
  obtain ⟨resolution, hresolve, himpact, -⟩ := h sampleTools (fun _ _ => .ok none) sampleRepository
    sampleReceipt sampleBase sampleHead baseCommit headCommit accepts_sample commit_sampleBase
    commit_sampleHead
  have hpatch : (resolveVersion sampleTools baseCommit.tree (fun _ _ => .ok none)
      (if (sampleReceipt.get "release_mode").isText "security" then
        str? (sampleReceipt.get "next_version") else none)).map (fun r => r.impact) =
      .ok "patch" := by decide +kernel
  rw [hresolve] at hpatch
  have hmajor : str? (sampleReceipt.get "impact") = some ("major" : PyStr) := by decide +kernel
  rw [himpact] at hmajor
  have heq : ("patch" : PyStr) = "major" :=
    (Except.ok.inj hpatch).symm.trans (Option.some.inj hmajor)
  exact absurd heq (by decide)

end Supplementary.Release
