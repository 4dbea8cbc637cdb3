/-
# The manifest of the staging, as it is received

`validate_nexus_manifest` reads what `stage` has written before a validation of the candidate is asked
for.  It takes the repository's URL apart again, and what it finds there has to be what the first reading
of the configured URL has left: `urlsplit_rebuilt`.  `staged_accepted`: so what is refused of a staging
is a candidate that has another name than a stable version of this collection, and nothing else.

A manifest is the value that its file holds; the file is refused where it is not the canonical text of it.
-/
import Supplementary.Nexus.Exact
import Supplementary.Python.Split
import Supplementary.Receipt.Request
import Mathlib.Data.List.TakeWhile

namespace Supplementary.Nexus

open Supplementary PyStr Effects

/-! ## 1. `validate_nexus_manifest` -/

def collectionPrefix : List Nat := ("lit-supplementary-" : PyStr).codePoints

/-- `ARTIFACT_RE.fullmatch(artifact_name)` of the receiver. -/
def isCollectionArtifact (name : PyStr) : Bool :=
  let s := name.codePoints
  let stem := s.take (s.length - archiveSuffix.length)
  archiveSuffix.isSuffixOf s && collectionPrefix.isPrefixOf stem &&
    Receipt.isVersion ⟨stem.drop collectionPrefix.length⟩

/-- `DIGEST_RE.fullmatch(artifact_digest)`. -/
def isDigest (s : PyStr) : Bool :=
  s.startsWith "sha256:" && PyStr.isHex 64 ⟨s.codePoints.drop 7⟩

/-- `urllib.parse.urlsplit(value)`, whose `ValueError` is not caught here. -/
def received (platform : Platform) (value : PyStr) : Py Caller.SplitResult :=
  match urlsplit platform value with
  | .ok parts => .ok parts
  | .error _ => .error (.valueError "URL")

/-- The conditions on the URL of the repository. -/
def isBoundTo (name : PyStr) (parts : Caller.SplitResult) : Bool :=
  parts.scheme = ("https" : PyStr).codePoints && parts.hostname ≠ [] && !parts.hasUserinfo &&
    parts.query = [] && parts.fragment = [] &&
    (⟨parts.path⟩ : PyStr).endsWith ("/repository/" ++ name) &&
    !(⟨parts.path⟩ : PyStr).contains "//" &&
    (parts.path.splitOn 47).all fun part => part ≠ [46] && part ≠ [46, 46]

/-- The checks of `manifest["repository"]`: its URL, and the parts of it. -/
def validateRepository (platform : Platform) (repository : Value) : Py (PyStr × Caller.SplitResult) := do
  let name ← Receipt.string (repository.get "name") "manifest.repository.name"
  Receipt.require ((repository.get "format").isText "ansiblegalaxy" = true ∧
      (repository.get "type").isText "hosted" = true ∧ isRepository name = true)
    "Nexus repository is not a native hosted Ansible Galaxy repository"
  let url ← Receipt.string (repository.get "url") "manifest.repository.url"
  let parts ← received platform url
  Receipt.require (isBoundTo name parts = true) "Nexus repository URL is not bound to its repository name"
  return (url, parts)

/-- The checks of `manifest["artifact"]` and `manifest["readback"]`. -/
def validateArtifact (platform : Platform) (url : PyStr) (parts : Caller.SplitResult)
    (artifact readback : Value) : Py Unit := do
  let name ← Receipt.string (artifact.get "name") "manifest.artifact.name"
  let digest ← Receipt.string (artifact.get "sha256") "manifest.artifact.sha256"
  let size ← Receipt.positiveInteger (artifact.get "size") "manifest.artifact.size"
  let remote ← Receipt.string (artifact.get "url") "manifest.artifact.url"
  Receipt.require (isCollectionArtifact name = true ∧ isDigest digest = true)
    "Nexus artifact identity is invalid"
  Receipt.require (remote = url ++ artifactSuffix ++ name)
    "Nexus artifact URL differs from the native Galaxy v3 endpoint"
  let remoteParts ← received platform remote
  Receipt.require (remoteParts.scheme = parts.scheme ∧ remoteParts.netloc = parts.netloc ∧
      remoteParts.query = [] ∧ remoteParts.fragment = [])
    "Nexus artifact URL origin differs from the configured repository"
  Receipt.sameJson platform.rt readback
    (.dict [("sha256", .str digest), ("size", .int size), ("verified", .bool true)])
    "Nexus readback does not exactly match the staged artifact"

/-- `validate_nexus_manifest(path)`. -/
def validateNexusManifest (platform : Platform) (manifest : Value) : Py Value := do
  Receipt.exactKeys manifest ["apiVersion", "kind", "repository", "artifact", "readback", "uploaded"]
    "manifest"
  Receipt.require ((manifest.get "apiVersion").isText "lit.mlx90.nexus-stage/v1" = true ∧
      (manifest.get "kind").isText "NexusGalaxyV3Stage" = true)
    "Nexus staging manifest schema is unsupported"
  Receipt.require ((manifest.get "uploaded").isBool = true) "Nexus staging uploaded flag must be boolean"
  let repository := manifest.get "repository"
  let artifact := manifest.get "artifact"
  let readback := manifest.get "readback"
  Receipt.require (repository.isDict = true ∧ artifact.isDict = true ∧ readback.isDict = true)
    "Nexus staging manifest sections must be objects"
  Receipt.exactKeys repository ["format", "name", "type", "url"] "manifest.repository"
  Receipt.exactKeys artifact ["name", "sha256", "size", "url"] "manifest.artifact"
  Receipt.exactKeys readback ["sha256", "size", "verified"] "manifest.readback"
  let (url, parts) ← validateRepository platform repository
  validateArtifact platform url parts artifact readback
  return manifest

/-! ## 2. URLs that are put together again -/

/-- The parts of a URL with a host: what separates the parts is in none of them. -/
structure Separated (platform : Platform) (netloc path : List Nat) : Prop where
  host : ∀ c ∈ netloc, c ≠ 47 ∧ c ≠ 63 ∧ c ≠ 35
  query : 63 ∉ path
  fragment : 35 ∉ path
  clean : ∀ c ∈ netloc ++ path, c ≠ 9 ∧ c ≠ 10 ∧ c ≠ 13
  brackets : (91 ∈ netloc ↔ 93 ∈ netloc) ∧ (91 ∈ netloc → platform.isIpLiteral netloc = true)
  normal : platform.isNormalNetloc netloc = true
  rooted : ∀ c ∈ path.head?, c = 47

variable {platform : Platform} {netloc path s : List Nat} {c : Nat}

theorem partitionAt_fst : (Caller.partitionAt c s).1 = s.takeWhile (· ≠ c) := by
  rw [Caller.partitionAt, List.span_eq_takeWhile_dropWhile]
  split
  · next heq => exact (Prod.mk.inj heq).1.symm
  · next heq => exact (Prod.mk.inj heq).1.symm

theorem partitionAt_of_not_mem (h : c ∉ s) : Caller.partitionAt c s = (s, none) := by
  have hall : ∀ x ∈ s, decide (x ≠ c) = true := fun x hx => decide_eq_true fun heq => h (heq ▸ hx)
  rw [Caller.partitionAt, List.span_eq_takeWhile_dropWhile, List.takeWhile_eq_self_iff.mpr hall,
    List.dropWhile_eq_nil_iff.mpr hall]

/-- Where a path follows, the host ends. -/
theorem span_host (h : Separated platform netloc path) :
    (netloc ++ path).span (fun c => c ≠ 47 ∧ c ≠ 63 ∧ c ≠ 35) = (netloc, path) := by
  have hall : ∀ c ∈ netloc, decide (c ≠ 47 ∧ c ≠ 63 ∧ c ≠ 35) = true := fun c hc =>
    decide_eq_true (h.host c hc)
  rw [List.span_eq_takeWhile_dropWhile, List.takeWhile_append_of_pos hall, List.dropWhile_append_of_pos hall]
  cases path with
  | nil => simp
  | cons c rest =>
    cases h.rooted c rfl
    simp

/-- **A URL that was put together has the parts it was put together of.** -/
theorem urlsplit_rebuilt (h : Separated platform netloc path) :
    urlsplit platform ("https://" ++ ⟨netloc⟩ ++ ⟨path⟩) =
      .ok ⟨("https" : PyStr).codePoints, netloc, path, [], []⟩ := by
  have hdrop : ("https://" ++ ⟨netloc⟩ ++ ⟨path⟩ : PyStr).codePoints.dropWhile (· ≤ 32) =
      ("https://" : PyStr).codePoints ++ (netloc ++ path) := by
    rw [codePoints_append, codePoints_append, List.append_assoc]
    rfl
  have hcleaned : ((("https://" ++ ⟨netloc⟩ ++ ⟨path⟩ : PyStr).codePoints.dropWhile (· ≤ 32)).filter
      fun c => c ≠ 9 ∧ c ≠ 10 ∧ c ≠ 13) = ("https://" : PyStr).codePoints ++ (netloc ++ path) := by
    rw [hdrop, List.filter_append, List.filter_eq_self.mpr fun c hc => decide_eq_true (h.clean c hc)]
    rfl
  have hscheme : Caller.splitScheme (("https://" : PyStr).codePoints ++ (netloc ++ path)) =
      (("https" : PyStr).codePoints, 47 :: 47 :: (netloc ++ path)) := rfl
  have hparts : Caller.urlsplit platform.toPlatform (("https://" : PyStr).codePoints ++ (netloc ++ path)) =
      .ok ⟨("https" : PyStr).codePoints, netloc, path, [], []⟩ := by
    simp only [Caller.urlsplit, hscheme, span_host h, partitionAt_of_not_mem h.fragment,
      partitionAt_of_not_mem h.query, Caller.hold, raiseUnless_of h.brackets]
    rfl
  simp only [urlsplit, hcleaned, hparts, h.normal, if_true]

theorem splitScheme_subset {url : List Nat} : (Caller.splitScheme url).2 ⊆ url := by
  rw [Caller.splitScheme]
  split
  · next scheme rest heq =>
    split
    · rw [Caller.partitionAt, List.span_eq_takeWhile_dropWhile] at heq
      split at heq
      · next hspan =>
        cases heq
        have hdrop := (Prod.mk.inj hspan).2
        exact fun c hc => (List.dropWhile_sublist _).subset (hdrop ▸ List.mem_cons_of_mem _ hc)
      · cases heq
    · exact List.Subset.refl _
  · exact List.Subset.refl _

/-- What follows the host starts with one of its ends. -/
theorem head_takeWhile {p : Nat → Bool} {rest : List Nat} (hp : ∀ c, p c = false → c = 47 ∨ c = 63 ∨ c = 35) :
    ∀ c ∈ (((rest.dropWhile p).takeWhile (· ≠ 35)).takeWhile (· ≠ 63)).head?, c = 47 := by
  intro c hc
  have hfirst := List.head?_dropWhile_not p rest
  cases hdrop : rest.dropWhile p with
  | nil =>
    rw [hdrop] at hc
    cases hc
  | cons d tail =>
    rw [hdrop] at hc hfirst
    rcases hp d hfirst with rfl | rfl | rfl
    · exact (Option.some.inj hc).symm
    · cases hc
    · cases hc

theorem separated_of_rest {rest : List Nat} (hclean : ∀ c ∈ rest, c ≠ 9 ∧ c ≠ 10 ∧ c ≠ 13)
    (hnetloc : rest.takeWhile (fun c => c ≠ 47 ∧ c ≠ 63 ∧ c ≠ 35) = netloc)
    (hpath : ((rest.dropWhile fun c => c ≠ 47 ∧ c ≠ 63 ∧ c ≠ 35).takeWhile (· ≠ 35)).takeWhile (· ≠ 63) =
      path)
    (hbrackets : (91 ∈ netloc ↔ 93 ∈ netloc) ∧ (91 ∈ netloc → platform.isIpLiteral netloc = true))
    (hnormal : platform.isNormalNetloc netloc = true) : Separated platform netloc path := by
  subst hnetloc hpath
  refine ⟨fun c hc => ?_, fun h => ?_, fun h => ?_, fun c hc => ?_, hbrackets, hnormal, ?_⟩
  · simpa using List.mem_takeWhile_imp hc
  · simpa using List.mem_takeWhile_imp h
  · simpa using List.mem_takeWhile_imp ((List.takeWhile_sublist _).subset h)
  · rcases List.mem_append.mp hc with hc | hc
    · exact hclean c ((List.takeWhile_sublist _).subset hc)
    · have htail := (List.takeWhile_sublist _).subset ((List.takeWhile_sublist _).subset hc)
      exact hclean c ((List.dropWhile_sublist _).subset htail)
  · refine head_takeWhile fun c hc => ?_
    have hends := of_decide_eq_false hc
    omega

/-- The parts of a URL with a host are separated. -/
theorem separated_of_urlsplit {value : PyStr} {parts : Caller.SplitResult}
    (h : urlsplit platform value = .ok parts) (hhost : parts.netloc ≠ []) :
    Separated platform parts.netloc parts.path := by
  simp only [urlsplit] at h
  split at h
  · next parts' hsplit =>
    split at h
    · next hnormal =>
      cases h
      have hclean : ∀ c ∈ (Caller.splitScheme ((value.codePoints.dropWhile (· ≤ 32)).filter
          fun c => c ≠ 9 ∧ c ≠ 10 ∧ c ≠ 13)).2, c ≠ 9 ∧ c ≠ 10 ∧ c ≠ 13 := fun c hc =>
        of_decide_eq_true (List.mem_filter.mp (splitScheme_subset hc)).2
      simp only [Caller.urlsplit] at hsplit
      split at hsplit
      · next rest heq =>
        rw [heq] at hclean
        rcases bind_eq_ok.mp hsplit with ⟨_, hbrackets, hsplit⟩
        cases hsplit
        refine separated_of_rest (fun c hc => hclean c (List.mem_cons_of_mem _ (List.mem_cons_of_mem _ hc)))
          ?_ ?_ (raiseUnless_eq_ok.mp hbrackets) hnormal
        · rw [List.span_eq_takeWhile_dropWhile]
        · rw [partitionAt_fst, partitionAt_fst, List.span_eq_takeWhile_dropWhile]
      · rcases bind_eq_ok.mp hsplit with ⟨_, -, hsplit⟩
        cases hsplit
        exact absurd rfl hhost
    · cases h
  · cases h

/-! ## 3. The URL of the repository -/

theorem trimmed_eq (path : List Nat) : ∃ slashes, path = trimmed path ++ slashes ∧ ∀ c ∈ slashes, c = 47 := by
  refine ⟨(path.reverse.takeWhile (· = 47)).reverse, ?_, fun c hc => ?_⟩
  · rw [trimmed, ← List.reverse_append, List.takeWhile_append_dropWhile, List.reverse_reverse]
  · simpa using List.mem_takeWhile_imp (List.mem_reverse.mp hc)

/-- What is not in a text is not in the beginning of it. -/
theorem countFrom_eq_zero {part front back : List Nat} (h : countFrom part 0 (front ++ back) = 0) :
    countFrom part 0 front = 0 := by
  induction front with
  | nil => rfl
  | cons c rest ih =>
    rw [List.cons_append, countFrom] at h
    rw [countFrom]
    split at h
    · omega
    · next hlong =>
      rw [if_neg fun hshort => hlong ?_]
      · exact ih h
      · rw [List.isPrefixOf_iff_prefix] at hshort ⊢
        exact hshort.trans (List.prefix_append (c :: rest) back)

theorem contains_front {front back : List Nat} {part : PyStr} (hpart : part.codePoints ≠ [])
    (h : (⟨front ++ back⟩ : PyStr).contains part = false) : (⟨front⟩ : PyStr).contains part = false := by
  simp only [contains, count, if_neg hpart, decide_eq_false_iff_not, Nat.not_lt, Nat.le_zero] at h ⊢
  exact countFrom_eq_zero h

/-- The segments of a path without the slashes at its end are segments of it. -/
theorem mem_segments {front slashes part : List Nat} (hslashes : ∀ c ∈ slashes, c = 47)
    (h : part ∈ front.splitOn 47) : part ∈ (front ++ slashes).splitOn 47 := by
  cases slashes with
  | nil => rwa [List.append_nil]
  | cons c rest =>
    cases hslashes c List.mem_cons_self
    rw [List.splitOn, List.splitOnP_append_cons _ _ (by rfl)]
    exact List.mem_append_left _ h

theorem hostname_congr (left right : Caller.SplitResult) (h : left.netloc = right.netloc) :
    left.hostname = right.hostname := by
  simp only [Caller.SplitResult.hostname, Caller.SplitResult.hostinfo, h]

theorem netloc_ne_nil {parts : Caller.SplitResult} (h : parts.hostname ≠ []) : parts.netloc ≠ [] := by
  intro hnil
  rw [hostname_congr parts ⟨[], [], [], [], []⟩ hnil] at h
  exact h rfl

theorem demand_eq_ok {condition : Prop} [Decidable condition] {message : PyStr} {u : Unit} :
    demand condition message = .ok u ↔ condition := by
  unfold demand
  split
  · next h => exact ⟨fun _ => h, fun _ => rfl⟩
  · next h => exact ⟨fun hok => (by cases hok), fun hcondition => absurd hcondition h⟩

theorem Separated.front {front slashes : List Nat} (h : Separated platform netloc (front ++ slashes)) :
    Separated platform netloc front := by
  refine ⟨h.host, fun hc => h.query (List.mem_append_left _ hc),
    fun hc => h.fragment (List.mem_append_left _ hc), fun c hc => h.clean c ?_, h.brackets, h.normal,
    fun c hc => h.rooted c ?_⟩
  · rw [← List.append_assoc]
    exact List.mem_append_left _ hc
  · cases front with
    | nil => cases hc
    | cons d rest => exact hc

/-- **The repository's URL is read as it was written.** -/
theorem repositoryUrl_eq_ok {value repository url : PyStr}
    (h : repositoryUrl platform value repository = .ok url) :
    isRepository repository = true ∧ ∃ netloc path, url = "https://" ++ ⟨netloc⟩ ++ ⟨path⟩ ∧
      Separated platform netloc path ∧
      isBoundTo repository ⟨("https" : PyStr).codePoints, netloc, path, [], []⟩ = true := by
  rcases bind_eq_ok.mp h with ⟨_, hname, h⟩
  rcases bind_eq_ok.mp h with ⟨_, -, h⟩
  rcases bind_eq_ok.mp h with ⟨parts, hparts, h⟩
  rcases bind_eq_ok.mp h with ⟨_, hplain, h⟩
  rcases bind_eq_ok.mp h with ⟨_, hends, h⟩
  cases h
  rw [demand_eq_ok] at hname hplain hends
  simp only [isPlainHttps, Bool.and_eq_true, decide_eq_true_eq, Bool.not_eq_true', List.all_eq_true] at hplain
  rcases hplain with ⟨⟨⟨⟨⟨⟨⟨⟨-, hhost⟩, huser⟩, -⟩, -⟩, -⟩, hslashes⟩, -⟩, hdots⟩
  have hseparated := separated_of_urlsplit hparts (netloc_ne_nil hhost)
  rcases trimmed_eq parts.path with ⟨slashes, heq, hall⟩
  rw [heq] at hseparated hslashes hdots
  refine ⟨hname, parts.netloc, trimmed parts.path, rfl, hseparated.front, ?_⟩
  simp only [isBoundTo, Bool.and_eq_true, decide_eq_true_eq, Bool.not_eq_true', List.all_eq_true]
  refine ⟨⟨⟨⟨⟨⟨⟨trivial, ?_⟩, huser⟩, trivial⟩, trivial⟩, hends⟩, ?_⟩, fun part hpart => ?_⟩
  · exact fun hnil => hhost ((hostname_congr parts _ rfl).trans hnil)
  · exact contains_front (by decide) hslashes
  · exact hdots part (mem_segments hall hpart)

/-! ## 4. The artifact -/

/-- The characters of a name that is taken. -/
def isPlain (c : Nat) : Bool := isLowerAlnum c || c = 45 || c = 46 || c = 95

theorem plain_spec {c : Nat} (h : isPlain c = true) :
    isSpace c = false ∧ c ≠ 63 ∧ c ≠ 35 ∧ c ≠ 9 ∧ c ≠ 10 ∧ c ≠ 13 := by
  simp only [isPlain, isLowerAlnum, isLower, PyStr.isDigit, Bool.or_eq_true, Bool.and_eq_true,
    decide_eq_true_eq] at h
  refine ⟨?_, by omega, by omega, by omega, by omega, by omega⟩
  simp only [isSpace, Bool.or_eq_false_iff, Bool.and_eq_false_iff, decide_eq_false_iff_not]
  omega

theorem plain_of_isNumeral {s : List Nat} (h : isNumeral s = true) {c : Nat} (hc : c ∈ s) :
    isPlain c = true := by
  have hdigit : PyStr.isDigit c = true := by
    unfold isNumeral at h
    split at h
    · cases hc
    · cases List.mem_singleton.mp hc
      rfl
    · next d rest _ =>
      simp only [Bool.and_eq_true, List.all_eq_true] at h
      rcases List.mem_cons.mp hc with rfl | hc
      · exact h.1.2
      · exact h.2 c hc
  simp [isPlain, isLowerAlnum, hdigit]

theorem plain_of_isRepository {s : PyStr} (h : isRepository s = true) :
    s.codePoints ≠ [] ∧ ∀ c ∈ s.codePoints, isPlain c = true := by
  unfold isRepository at h
  split at h
  · cases h
  · next c rest heq =>
    simp only [Bool.and_eq_true, List.all_eq_true, Bool.or_eq_true, decide_eq_true_eq] at h
    rw [heq]
    refine ⟨List.cons_ne_nil _ _, fun d hd => ?_⟩
    rcases List.mem_cons.mp hd with rfl | hd
    · simp [isPlain, h.1.1]
    · have hrest := h.2 d hd
      simp only [isPlain, Bool.or_eq_true, decide_eq_true_eq]
      tauto

theorem plain_of_isCollectionArtifact {name : PyStr} (h : isCollectionArtifact name = true) :
    name.codePoints ≠ [] ∧ ∀ c ∈ name.codePoints, isPlain c = true := by
  simp only [isCollectionArtifact, Bool.and_eq_true, List.isSuffixOf_iff_suffix,
    List.isPrefixOf_iff_prefix] at h
  rcases h with ⟨⟨hsuffix, hprefix⟩, hversion⟩
  have hname := List.suffix_iff_eq_append.mp hsuffix
  have hstem := List.prefix_iff_eq_append.mp hprefix
  have hplain : ∀ c ∈ collectionPrefix ++ archiveSuffix, isPlain c = true := by decide
  refine ⟨fun hnil => ?_, fun c hc => ?_⟩
  · rw [hnil] at hsuffix
    exact absurd (List.suffix_nil.mp hsuffix) (by decide)
  · rw [← hname] at hc
    rcases List.mem_append.mp hc with hc | hc
    · rw [← hstem] at hc
      rcases List.mem_append.mp hc with hc | hc
      · exact hplain c (List.mem_append_left _ hc)
      · simp only [Receipt.isVersion, isSemver, split, Bool.and_eq_true, List.all_eq_true] at hversion
        rcases mem_splitOn 46 hc with rfl | ⟨part, hpart, hmem⟩
        · rfl
        · exact plain_of_isNumeral (hversion.2 ⟨part⟩ (List.mem_map_of_mem hpart)) hmem
    · exact hplain c (List.mem_append_right _ hc)

/-- A text without space at its ends. -/
theorem string_of_ends {s : PyStr} {label : String} (hne : s.codePoints ≠ [])
    (hfirst : ∀ c ∈ s.codePoints.head?, isSpace c = false)
    (hlast : ∀ c ∈ s.codePoints.getLast?, isSpace c = false) : Receipt.string (.str s) label = .ok s := by
  have htrimmed : Receipt.isTrimmed s = true := by
    rw [Receipt.isTrimmed, Bool.and_eq_true, Option.all_eq_true, Option.all_eq_true]
    exact ⟨fun c hc => by rw [hfirst c hc]; rfl, fun c hc => by rw [hlast c hc]; rfl⟩
  simp only [Receipt.string, Receipt.require, raiseUnless_of (And.intro hne htrimmed)]
  rfl

theorem string_of_plain {s : PyStr} {label : String}
    (h : s.codePoints ≠ [] ∧ ∀ c ∈ s.codePoints, isPlain c = true) : Receipt.string (.str s) label = .ok s :=
  string_of_ends h.1 (fun c hc => (plain_spec (h.2 c (List.mem_of_mem_head? hc))).1)
    fun c hc => (plain_spec (h.2 c (List.mem_of_mem_getLast? hc))).1

/-- A URL that ends in a plain text. -/
theorem string_of_url {front name : PyStr} {label : String}
    (h : name.codePoints ≠ [] ∧ ∀ c ∈ name.codePoints, isPlain c = true) :
    Receipt.string (.str ("https://" ++ front ++ name)) label = .ok ("https://" ++ front ++ name) := by
  refine string_of_ends ?_ (fun c hc => ?_) fun c hc => ?_
  · exact List.append_ne_nil_of_right_ne_nil _ h.1
  · cases hc
    rfl
  · rw [codePoints_append, List.getLast?_append_of_ne_nil _ h.1] at hc
    exact (plain_spec (h.2 c (List.mem_of_mem_getLast? hc))).1

theorem Separated.extend {name : PyStr} (h : Separated platform netloc path) (hne : path ≠ [])
    (hname : ∀ c ∈ name.codePoints, isPlain c = true) :
    Separated platform netloc (path ++ (artifactSuffix ++ name).codePoints) := by
  have hsuffix : ∀ c ∈ artifactSuffix.codePoints, isPlain c = true ∨ c = 47 := by decide
  have hrest : ∀ c ∈ (artifactSuffix ++ name).codePoints,
      c ≠ 63 ∧ c ≠ 35 ∧ c ≠ 9 ∧ c ≠ 10 ∧ c ≠ 13 := fun c hc => by
    rcases List.mem_append.mp hc with hc | hc
    · rcases hsuffix c hc with hplain | rfl
      · exact (plain_spec hplain).2
      · decide
    · exact (plain_spec (hname c hc)).2
  refine ⟨h.host, fun hc => ?_, fun hc => ?_, fun c hc => ?_, h.brackets, h.normal, fun c hc => ?_⟩
  · rcases List.mem_append.mp hc with hc | hc
    · exact h.query hc
    · exact (hrest 63 hc).1 rfl
  · rcases List.mem_append.mp hc with hc | hc
    · exact h.fragment hc
    · exact (hrest 35 hc).2.1 rfl
  · rw [← List.append_assoc] at hc
    rcases List.mem_append.mp hc with hc | hc
    · exact h.clean c hc
    · exact (hrest c hc).2.2
  · refine h.rooted c ?_
    rwa [List.head?_append_of_ne_nil _ hne] at hc

theorem isDigest_hexdigest (message : Bytes) : isDigest ("sha256:" ++ Sha256.hexdigest message) = true := by
  have hstart : ("sha256:" ++ Sha256.hexdigest message).startsWith "sha256:" = true :=
    startsWith_iff.mpr ⟨_, rfl⟩
  have hdrop : (⟨("sha256:" ++ Sha256.hexdigest message).codePoints.drop 7⟩ : PyStr) =
      Sha256.hexdigest message := rfl
  rw [isDigest, hstart, hdrop, Bool.true_and, PyStr.isHex, Bool.and_eq_true, List.all_eq_true]
  refine ⟨decide_eq_true (Sha256.length_hexdigest message), fun c hc => ?_⟩
  have hdigit := Sha256.hexdigest_digits hc
  simp only [PyStr.isDigit, Bool.or_eq_true, Bool.and_eq_true, decide_eq_true_eq]
  omega

theorem string_of_digest {message : Bytes} {label : String} :
    Receipt.string (.str ("sha256:" ++ Sha256.hexdigest message)) label =
      .ok ("sha256:" ++ Sha256.hexdigest message) := by
  have hstart : ∀ c ∈ ("sha256:" : PyStr).codePoints, isSpace c = false := by decide
  have hspace : ∀ c ∈ ("sha256:" ++ Sha256.hexdigest message).codePoints, isSpace c = false := fun c hc => by
    rcases List.mem_append.mp hc with hc | hc
    · exact hstart c hc
    · have hdigit := Sha256.hexdigest_digits hc
      simp only [isSpace, Bool.or_eq_false_iff, Bool.and_eq_false_iff, decide_eq_false_iff_not]
      omega
  exact string_of_ends (List.cons_ne_nil _ _) (fun c hc => hspace c (List.mem_of_mem_head? hc))
    fun c hc => hspace c (List.mem_of_mem_getLast? hc)

theorem jsonInt_of_lt {n : Nat} (h : n < 10 ^ 9) : ∃ text, jsonInt n = .ok text := by
  have hlength : (bytes (toString (n : Int).natAbs)).length ≤ 9 := by
    rw [Int.natAbs_natCast, bytes, List.length_map, String.length_toList]
    exact (Nat.length_repr_le_iff (by decide)).mpr h
  exact ⟨_, if_neg (by omega)⟩

theorem canonical_readback {rt : Runtime} {digest : PyStr} {size : Nat} (hdepth : 0 < rt.maxDepth)
    (hsize : size ≤ maxCandidateBytes) :
    ∃ text, canonical rt (.dict [("sha256", .str digest), ("size", .int size), ("verified", .bool true)]) =
      .ok text := by
  have hlt : size < 10 ^ 9 := Nat.lt_of_le_of_lt hsize (by decide)
  rcases jsonInt_of_lt hlt with ⟨text, htext⟩
  rcases Nat.exists_eq_succ_of_ne_zero (Nat.pos_iff_ne_zero.mp hdepth) with ⟨depth, heq⟩
  rw [canonical, heq]
  simp only [dumps, dumpsEntries, htext]
  exact ⟨_, rfl⟩

/-! ## 5. What is received -/

variable {candidate : Candidate} {baseUrl repository username password : PyStr} {s : Staging}

/-- What `prepare` has checked. -/
theorem prepare_checks (h : prepare platform candidate baseUrl repository username password = .ok s) :
    s.repository = repository ∧ 0 < candidate.content.length ∧
      candidate.content.length ≤ maxCandidateBytes := by
  rcases bind_eq_ok.mp h with ⟨⟨size, digest⟩, hcandidate, h⟩
  rcases bind_eq_ok.mp h with ⟨url, -, h⟩
  rcases bind_eq_ok.mp h with ⟨remote, -, h⟩
  rcases bind_eq_ok.mp h with ⟨header, -, h⟩
  cases h
  rcases bind_eq_ok.mp hcandidate with ⟨_, -, hcandidate⟩
  rcases bind_eq_ok.mp hcandidate with ⟨_, -, hcandidate⟩
  rcases bind_eq_ok.mp hcandidate with ⟨_, hsize, -⟩
  exact ⟨rfl, demand_eq_ok.mp hsize⟩

theorem received_rebuilt (h : Separated platform netloc path) :
    received platform ("https://" ++ ⟨netloc⟩ ++ ⟨path⟩) =
      .ok ⟨("https" : PyStr).codePoints, netloc, path, [], []⟩ := by
  rw [received, urlsplit_rebuilt h]

/-- Of the payload the sections are left to check. -/
theorem validate_payload (uploaded : Bool) :
    validateNexusManifest platform (payload s uploaded) = (do
      let (url, parts) ← validateRepository platform ((payload s uploaded).get "repository")
      validateArtifact platform url parts ((payload s uploaded).get "artifact")
        ((payload s uploaded).get "readback")
      return payload s uploaded) := by
  have hkeys : (payload s uploaded).hasKeys
      ["apiVersion", "kind", "repository", "artifact", "readback", "uploaded"] = true := rfl
  have hschema : ((payload s uploaded).get "apiVersion").isText "lit.mlx90.nexus-stage/v1" = true ∧
      ((payload s uploaded).get "kind").isText "NexusGalaxyV3Stage" = true := ⟨rfl, rfl⟩
  have hflag : ((payload s uploaded).get "uploaded").isBool = true := rfl
  have hdicts : ((payload s uploaded).get "repository").isDict = true ∧
      ((payload s uploaded).get "artifact").isDict = true ∧
      ((payload s uploaded).get "readback").isDict = true := ⟨rfl, rfl, rfl⟩
  have hrepository : ((payload s uploaded).get "repository").hasKeys ["format", "name", "type", "url"] =
      true := rfl
  have hartifact : ((payload s uploaded).get "artifact").hasKeys ["name", "sha256", "size", "url"] =
      true := rfl
  have hreadback : ((payload s uploaded).get "readback").hasKeys ["sha256", "size", "verified"] =
      true := rfl
  simp only [validateNexusManifest, Receipt.exactKeys, Receipt.require, raiseUnless_of hkeys,
    raiseUnless_of hschema, raiseUnless_of hflag, raiseUnless_of hdicts, raiseUnless_of hrepository,
    raiseUnless_of hartifact, raiseUnless_of hreadback]
  rfl

/-- The section of the repository passes: its URL has the parts it was made of. -/
theorem validateRepository_payload (hurl : repositoryUrl platform baseUrl repository = .ok s.url)
    (hname : s.repository = repository) (uploaded : Bool) :
    ∃ netloc path, s.url = "https://" ++ ⟨netloc⟩ ++ ⟨path⟩ ∧ path ≠ [] ∧
      Separated platform netloc path ∧
      validateRepository platform ((payload s uploaded).get "repository") =
        .ok (s.url, ⟨("https" : PyStr).codePoints, netloc, path, [], []⟩) := by
  rcases repositoryUrl_eq_ok hurl with ⟨hrepository, netloc, path, heq, hseparated, hbound⟩
  have hplain := plain_of_isRepository hrepository
  have hends := hbound
  simp only [isBoundTo, Bool.and_eq_true] at hends
  rcases List.isSuffixOf_iff_suffix.mp hends.1.1.2 with ⟨before, hpath⟩
  have hfront : s.url = "https://" ++ (⟨netloc⟩ ++ ⟨before⟩ ++ "/repository/") ++ repository := by
    have hpath' : path = before ++ ("/repository/" ++ repository).codePoints := hpath.symm
    rw [heq, hpath']
    refine PyStr.ext ?_
    simp only [codePoints_append, List.append_assoc]
  refine ⟨netloc, path, heq, ?_, hseparated, ?_⟩
  · rintro rfl
    exact absurd (List.append_eq_nil_iff.mp hpath).2 (List.append_ne_nil_of_right_ne_nil _ hplain.1)
  · have hgetName : ((payload s uploaded).get "repository").get "name" = .str repository := hname ▸ rfl
    have hgetUrl : ((payload s uploaded).get "repository").get "url" = .str s.url := rfl
    have hkind : (((payload s uploaded).get "repository").get "format").isText "ansiblegalaxy" = true ∧
        (((payload s uploaded).get "repository").get "type").isText "hosted" = true ∧
        isRepository repository = true := ⟨rfl, rfl, hrepository⟩
    have hstring : Receipt.string (.str s.url) "manifest.repository.url" = .ok s.url := by
      rw [hfront]
      exact string_of_url hplain
    have hreceived : received platform s.url = .ok ⟨("https" : PyStr).codePoints, netloc, path, [], []⟩ := by
      rw [heq]
      exact received_rebuilt hseparated
    simp only [validateRepository, hgetName, hgetUrl, string_of_plain hplain, hstring, hreceived,
      Receipt.require, raiseUnless_of hkind, ok_bind, raiseUnless_of hbound]
    rfl

/-- The section of the artifact passes if the artifact has a name of the collection. -/
theorem validateArtifact_payload
    (hs : prepare platform candidate baseUrl repository username password = .ok s)
    (hdepth : 0 < platform.rt.maxDepth) (hurl : s.url = "https://" ++ ⟨netloc⟩ ++ ⟨path⟩) (hne : path ≠ [])
    (hseparated : Separated platform netloc path) (hname : isCollectionArtifact candidate.name = true)
    (uploaded : Bool) :
    validateArtifact platform s.url ⟨("https" : PyStr).codePoints, netloc, path, [], []⟩
      ((payload s uploaded).get "artifact") ((payload s uploaded).get "readback") = .ok () := by
  rcases prepare_eq_ok hs with ⟨hcandidate, hsize, hdigest, hremote, -⟩
  rcases prepare_checks hs with ⟨-, hpositive, hbounded⟩
  have hplain := plain_of_isCollectionArtifact hname
  have hat : s.remote = s.url ++ artifactSuffix ++ candidate.name := by
    rcases bind_eq_ok.mp hremote with ⟨_, -, hremote⟩
    exact (Except.ok.inj hremote).symm
  have hrebuilt : s.remote =
      "https://" ++ ⟨netloc⟩ ++ ⟨path ++ (artifactSuffix ++ candidate.name).codePoints⟩ := by
    rw [hat, hurl]
    refine PyStr.ext ?_
    simp only [codePoints_append, List.append_assoc]
  have hfront : s.remote = "https://" ++ (⟨netloc⟩ ++ ⟨path⟩ ++ artifactSuffix) ++ candidate.name := by
    rw [hat, hurl]
    refine PyStr.ext ?_
    simp only [codePoints_append, List.append_assoc]
  have hgetName : ((payload s uploaded).get "artifact").get "name" = .str candidate.name := hcandidate ▸ rfl
  have hgetDigest : ((payload s uploaded).get "artifact").get "sha256" =
      .str ("sha256:" ++ Sha256.hexdigest candidate.content) := hdigest ▸ rfl
  have hgetSize : ((payload s uploaded).get "artifact").get "size" = .int s.size := rfl
  have hgetUrl : ((payload s uploaded).get "artifact").get "url" = .str s.remote := rfl
  have hstring : Receipt.string (.str s.remote) "manifest.artifact.url" = .ok s.remote := by
    rw [hfront]
    exact string_of_url hplain
  have hreceived : received platform s.remote = .ok ⟨("https" : PyStr).codePoints, netloc,
      path ++ (artifactSuffix ++ candidate.name).codePoints, [], []⟩ := by
    rw [hrebuilt]
    exact received_rebuilt (hseparated.extend hne hplain.2)
  have hint : Receipt.positiveInteger (.int s.size) "manifest.artifact.size" = .ok s.size :=
    Receipt.positiveInteger_eq_ok.mpr ⟨rfl, by omega⟩
  have hidentity : isCollectionArtifact candidate.name = true ∧
      isDigest ("sha256:" ++ Sha256.hexdigest candidate.content) = true := ⟨hname, isDigest_hexdigest _⟩
  have hreadback : (payload s uploaded).get "readback" =
      .dict [("sha256", .str ("sha256:" ++ Sha256.hexdigest candidate.content)), ("size", .int s.size),
        ("verified", .bool true)] := hdigest ▸ rfl
  rcases @canonical_readback platform.rt ("sha256:" ++ Sha256.hexdigest candidate.content) s.size hdepth
    (hsize ▸ hbounded) with ⟨text, htext⟩
  simp only [validateArtifact, hgetName, hgetDigest, hgetSize, hgetUrl, string_of_plain hplain,
    string_of_digest, hint, hstring, Receipt.require, raiseUnless_of hidentity, raiseUnless_of hat,
    hreceived, hreadback, Receipt.sameJson, htext, ok_bind, and_self, raiseUnless_of trivial]

/-- A request that is built from the payload. -/
theorem request_of_payload {rt : Runtime} {c : Receipt.Candidate} {controllerSha : PyStr}
    {r : Receipt.Request} {uploaded : Bool}
    (h : Receipt.buildRequest rt (payload s uploaded) c controllerSha = .ok r) :
    s.candidate.name = "lit-supplementary-" ++ c.version ++ ".tar.gz" ∧
      r.value.get "candidate" = .dict [("name", .str s.candidate.name),
        ("sha256", .str ("sha256:" ++ s.digest)), ("size", .int s.size), ("version", .str c.version),
        ("nexus", .dict [("repository", .str s.repository), ("repositoryUrl", .str s.url),
          ("url", .str s.remote)])] := by
  have hsection : (payload s uploaded).item "artifact" = .ok ((payload s uploaded).get "artifact") := rfl
  have hname : ((payload s uploaded).get "artifact").item "name" = .ok (.str s.candidate.name) := rfl
  rcases bind_eq_ok.mp h with ⟨_, -, h⟩
  rcases bind_eq_ok.mp h with ⟨_, -, h⟩
  rcases bind_eq_ok.mp h with ⟨_, -, h⟩
  rcases bind_eq_ok.mp h with ⟨_, -, h⟩
  rcases bind_eq_ok.mp h with ⟨_, -, h⟩
  rcases bind_eq_ok.mp h with ⟨artifact, hartifact, h⟩
  cases hsection.symm.trans hartifact
  rcases bind_eq_ok.mp h with ⟨name, hitem, h⟩
  cases hname.symm.trans hitem
  rcases bind_eq_ok.mp h with ⟨_, hversion, h⟩
  rcases bind_eq_ok.mp h with ⟨_, hrequested, h⟩
  have hlisted : Receipt.requestCandidate c (payload s uploaded) ((payload s uploaded).get "artifact") =
      .ok _ := rfl
  cases hlisted.symm.trans hrequested
  rcases bind_eq_ok.mp h with ⟨json, -, h⟩
  cases h
  exact ⟨Value.str.inj (Value.isText_iff.mp (Receipt.require_eq_ok.mp hversion)), rfl⟩

/-- **What is staged is received.**  Whatever a staging returns is accepted as a manifest if and only if the
candidate has the name of a stable version of this collection; and a validation that is asked for with it
is one of this candidate, by its name, size and digest, at the URL that it was staged to. -/
theorem staged_accepted (hs : prepare platform candidate baseUrl repository username password = .ok s)
    (hdepth : 0 < platform.rt.maxDepth) {tr : History} {v : Value} {u : Unit}
    (hend : Ends (stage platform candidate baseUrl repository username password) () tr (.ok v) u) :
    (validateNexusManifest platform v = .ok v ↔ isCollectionArtifact candidate.name = true) ∧
      ∀ rt c controllerSha r, Receipt.buildRequest rt v c controllerSha = .ok r →
        candidate.name = "lit-supplementary-" ++ c.version ++ ".tar.gz" ∧
        r.value.get "candidate" = .dict [("name", .str candidate.name),
          ("sha256", .str ("sha256:" ++ Sha256.hexdigest candidate.content)),
          ("size", .int candidate.content.length), ("version", .str c.version),
          ("nexus", .dict [("repository", .str repository), ("repositoryUrl", .str s.url),
            ("url", .str s.remote)])] := by
  have hstart : Clear 0 [] ([] : History) := ⟨⟨rfl, rfl, rfl⟩, rfl⟩
  rcases ((tracks_stage hs [] () hstart).2 tr _ u hend).staged v rfl with ⟨-, uploaded, rfl, -⟩
  rcases prepare_eq_ok hs with ⟨hcandidate, hsize, hdigest, -, hurl⟩
  have hname := (prepare_checks hs).1
  refine ⟨⟨fun haccepted => ?_, fun hcollection => ?_⟩, fun rt c controllerSha r hrequest => ?_⟩
  · rw [validate_payload] at haccepted
    rcases bind_eq_ok.mp haccepted with ⟨⟨url, parts⟩, -, haccepted⟩
    rcases bind_eq_ok.mp haccepted with ⟨_, hartifact, -⟩
    rcases bind_eq_ok.mp hartifact with ⟨name, hstring, hartifact⟩
    rcases bind_eq_ok.mp hartifact with ⟨_, -, hartifact⟩
    rcases bind_eq_ok.mp hartifact with ⟨_, -, hartifact⟩
    rcases bind_eq_ok.mp hartifact with ⟨_, -, hartifact⟩
    rcases bind_eq_ok.mp hartifact with ⟨_, hidentity, -⟩
    cases (Receipt.string_eq_ok hstring : Value.str s.candidate.name = .str name)
    exact hcandidate ▸ (Receipt.require_eq_ok.mp hidentity).1
  · rcases validateRepository_payload hurl hname uploaded with
      ⟨netloc, path, heq, hne, hseparated, hrepository⟩
    rw [validate_payload, hrepository]
    have hartifact := validateArtifact_payload hs hdepth heq hne hseparated hcollection uploaded
    rw [ok_bind]
    dsimp only
    rw [hartifact]
    rfl
  · rcases request_of_payload hrequest with ⟨htext, hcandidateSection⟩
    rw [← hcandidate, hcandidateSection, hdigest, hsize, hname, hcandidate]
    exact ⟨hcandidate ▸ htext, rfl⟩

theorem staged_accepted_sample : ∃ s tr v, samplePrepared = .ok s ∧ Ends sampleStage () tr (.ok v) () ∧
    validateNexusManifest samplePlatform v = .ok v ∧ ∀ rt c controllerSha r,
      Receipt.buildRequest rt v c controllerSha = .ok r → (r.value.get "candidate").get "size" = .int 3 := by
  have hruns := sample_runs
  rw [Bool.and_eq_true] at hruns
  rcases exists_of_isOk hruns.1 with ⟨s, hs⟩
  rcases exists_of_isOk hruns.2 with ⟨v, hv⟩
  rcases @ends_result _ _ _ _ _ sampleStage () sampleAnswer with ⟨u, hends⟩
  rw [hv] at hends
  rcases staged_accepted hs (by decide) hends with ⟨haccepted, hrequested⟩
  refine ⟨s, _, v, hs, hends, haccepted.mpr (by decide +kernel), fun rt c controllerSha r hrequest => ?_⟩
  rw [(hrequested rt c controllerSha r hrequest).2]
  rfl

end Supplementary.Nexus
