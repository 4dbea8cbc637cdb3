/-
# The exported release data

`release_readiness_data.export` writes the blobs of a commit that its resolver reads: `galaxy.yml` and
the YAML files directly under `changelogs/fragments`.  It goes by the paths of the blobs, the resolver
by the names in a directory, so that a directory with a YAML suffix, which the resolver refuses in a
checkout, is not exported (`export_agrees`).
-/
import Supplementary.Release.Prepared
import Supplementary.Python.Split
import Mathlib.Data.List.TakeWhile

namespace Supplementary.Release

open Supplementary PyStr

/-! ## 1. `resolve_version` with a requested version -/

/-- `selected`, for the requested version. -/
def selectVersion (requested : PyStr) (expected : Version) : Py Version :=
  if requested = "" then .ok expected
  else do
    let selected ← parseStableVersion (some requested) "requested version"
    require (selected = expected) "requested version does not equal the reviewed release"
    return selected

/-- `resolve_version(galaxy_path, fragments_root, requested)`. -/
def resolveRequested (tools : Tools) (tree : Tree) (requested : PyStr) : Py Resolution := do
  let galaxy ← loadGalaxy tools tree
  let version := match field galaxy "version" with
    | .str s => some s
    | _ => none
  let current ← parseStableVersion version "galaxy.yml version"
  let currentVersion ← renderVersion current
  let (impact, names) ← deriveImpact tools tree
  let expected ← nextVersion current impact
  let selected ← selectVersion requested expected
  let version ← renderVersion selected
  let digests ← fragmentDigests tools tree names
  return ⟨currentVersion, impact, version, digests⟩

/-- Where nothing is requested. -/
theorem resolveRequested_empty (tools : Tools) (tree : Tree) (bindings : Bindings) :
    resolveRequested tools tree "" = resolveVersion tools tree bindings none := by
  rfl

/-! ## 2. `export` -/

def maxBytes : Nat := 1024 * 1024

def maxFragments : Nat := 256

def galaxyPath : PyStr := "galaxy.yml"

/-- `-- galaxy.yml changelogs/fragments`. -/
def isGoverned (path : PyStr) : Bool :=
  path = galaxyPath || path.startsWith (galaxyPath ++ "/") || path = "changelogs/fragments" ||
    path.startsWith fragmentsRoot

/-- The octets of a character of a path, as `os.fsencode` gives them. -/
def pathOctets (c : Nat) : Nat :=
  if 0xdc80 ≤ c ∧ c ≤ 0xdcff then 1 else ((utf8EncodePoint c).getD []).length

/-- The octets of a record of `ls-tree -z`: mode, kind, object, path. -/
def recordLength (e : PyStr × Blob) : Nat :=
  6 + 1 + (if e.2.kind = .gitlink then 6 else 4) + 1 + 40 + 1 + (e.1.codePoints.map pathOctets).sum + 1

/-- `path.lower().endswith((".yml", ".yaml"))`. -/
def isYamlPath (path : PyStr) : Bool :=
  let lower : PyStr := ⟨path.codePoints.map fun c => if isUpper c then c + 32 else c⟩
  lower.endsWith ".yml" || lower.endsWith ".yaml"

/-- `[A-Za-z0-9][A-Za-z0-9._-]*\.ya?ml`. -/
def isFragmentName (name : PyStr) : Bool :=
  (name.codePoints.head?.any isAlnum) &&
    (name.codePoints.all fun c => isAlnum c || c = 46 || c = 95 || c = 45) &&
    (name.endsWith ".yml" || name.endsWith ".yaml")

/-- `changelogs/fragments/[A-Za-z0-9][A-Za-z0-9._-]*\.ya?ml`. -/
def isFragmentPath (path : PyStr) : Bool :=
  path.startsWith fragmentsRoot && isFragmentName ⟨path.codePoints.drop fragmentsRoot.length⟩

/-- One record: what is selected of it, if it is. -/
def selectRecord (e : PyStr × Blob) : Py (Option (PyStr × Bytes)) := do
  -- `raw_path.decode("utf-8")`
  raiseUnless .unicodeError (e.1.codePoints.all fun c => !(0xd800 ≤ c && c ≤ 0xdfff))
  if e.1 ≠ galaxyPath ∧ isYamlPath e.1 = false then return none
  else
    raiseUnless (.valueError "unsafe fragment path") (e.1 = galaxyPath ∨ isFragmentPath e.1)
    raiseUnless (.valueError "regular release data blob required") (e.2.kind = .file)
    raiseUnless (.valueError "release data blob exceeds limit") (e.2.content.length ≤ maxBytes)
    return some (e.1, e.2.content)

/-- A file that `export` writes. -/
def written (e : PyStr × Bytes) : PyStr × Blob := (e.1, ⟨.file, false, e.2⟩)

/-- `export(revision, destination)`: the files in the destination. -/
def exportTree (tree : Tree) : Py Tree := do
  let listing := tree.filter fun e => isGoverned e.1
  raiseUnless (.valueError "release Git object output exceeds limit")
    ((listing.map recordLength).sum ≤ maxBytes)
  let records ← listing.mapM selectRecord
  let selected := records.filterMap id
  raiseUnless (.valueError "release metadata or fragment count invalid")
    ((selected.filter fun e => e.1 = galaxyPath).length = 1 ∧ selected.length ≤ maxFragments + 1)
  return selected.map written

/-! ## 3. A checkout -/

/-- What Git guarantees of a tree: a path is there once, and nothing is below a blob. -/
structure IsTree (tree : Tree) : Prop where
  nodup : (tree.map Prod.fst).Nodup
  apart : ∀ p ∈ tree.map Prod.fst, ∀ q ∈ tree.map Prod.fst, q.startsWith (p ++ "/") = false

/-- `changelogs` is a symbolic link. -/
def LinksAway (tree : Tree) : Prop := (lookup tree "changelogs").any (fun b => b.kind = .symlink) = true

instance (tree : Tree) : Decidable (LinksAway tree) := by
  unfold LinksAway
  infer_instance

/-- The files of a plain checkout, by the paths under which the resolver finds them: where `changelogs`
is a link, what lies behind it is found as well, in the repository or outside. -/
def checkout (tree behind : Tree) : Tree :=
  if LinksAway tree then tree ++ behind.filter fun e => e.1.startsWith "changelogs/" else tree

/-- A directory of fragments has a name like that of a fragment. -/
def HidesDirectory (tree : Tree) : Prop :=
  ∃ name rest : PyStr, fragmentsRoot ++ name ++ "/" ++ rest ∈ tree.map Prod.fst ∧
    hasYamlSuffix name = true ∧ 47 ∉ name.codePoints

/-! ## 4. The names -/

theorem segmentsFrom_head (segment text : List Nat) :
    (segmentsFrom [47] 0 segment text).head? =
      some ⟨segment.reverse ++ text.takeWhile fun c => c ≠ 47⟩ := by
  induction text generalizing segment with
  | nil => simp [segmentsFrom]
  | cons c text ih =>
    rw [segmentsFrom]
    by_cases hc : c = 47
    · subst hc
      simp
    · rw [if_neg (by simp [Ne.symm hc]), ih]
      simp [hc]

/-- The first name below the directory of the fragments. -/
def nameOf (path : PyStr) : PyStr :=
  ⟨(path.codePoints.drop fragmentsRoot.length).takeWhile fun c => c ≠ 47⟩

theorem mem_fragmentNames {tree : Tree} {name : PyStr} : name ∈ fragmentNames tree ↔
    ∃ path ∈ tree.map Prod.fst, path.startsWith fragmentsRoot = true ∧ nameOf path = name := by
  have hhead (path : PyStr) :
      (segments ⟨path.codePoints.drop fragmentsRoot.length⟩ "/").head? = some (nameOf path) :=
    segmentsFrom_head [] _
  rw [fragmentNames, List.mem_dedup, List.mem_filterMap]
  constructor
  · rintro ⟨e, he, hname⟩
    split_ifs at hname with hstarts
    rw [hhead] at hname
    exact ⟨e.1, List.mem_map_of_mem he, hstarts, Option.some.inj hname⟩
  · rintro ⟨path, hpath, hstarts, hname⟩
    obtain ⟨e, he, rfl⟩ := List.mem_map.mp hpath
    refine ⟨e, he, ?_⟩
    rw [if_pos hstarts, hhead, hname]

/-- A path below the directory is the one of its name, or is in a directory of that name. -/
theorem path_cases {path : PyStr} (h : path.startsWith fragmentsRoot = true) :
    path = fragmentsRoot ++ nameOf path ∨ ∃ rest, path = fragmentsRoot ++ nameOf path ++ "/" ++ rest := by
  obtain ⟨⟨rest⟩, rfl⟩ := startsWith_iff.mp h
  have hname : nameOf (fragmentsRoot ++ ⟨rest⟩) = ⟨rest.takeWhile fun c => c ≠ 47⟩ := by
    rw [nameOf, codePoints_append, PyStr.length, List.drop_left]
  rw [hname]
  have hsplit := List.takeWhile_append_dropWhile (p := fun c : Nat => decide (c ≠ 47)) (l := rest)
  cases hrest : rest.dropWhile (fun c => decide (c ≠ 47)) with
  | nil =>
    rw [hrest, List.append_nil] at hsplit
    exact Or.inl (by rw [hsplit])
  | cons c tail =>
    have hc : c = 47 := by
      have hne : rest.dropWhile (fun c => decide (c ≠ 47)) ≠ [] := by
        rw [hrest]
        exact List.cons_ne_nil _ _
      have hnot := List.head_dropWhile_not (fun c : Nat => decide (c ≠ 47)) hne
      simpa only [hrest, List.head_cons, decide_eq_false_iff_not, not_not] using hnot
    refine Or.inr ⟨⟨tail⟩, ?_⟩
    rw [hrest, hc] at hsplit
    refine ext ?_
    simp only [codePoints_append, List.append_assoc]
    exact congrArg _ hsplit.symm

theorem nameOf_join {name rest : PyStr} (h : 47 ∉ name.codePoints) :
    nameOf (fragmentsRoot ++ name) = name ∧ nameOf (fragmentsRoot ++ name ++ "/" ++ rest) = name := by
  have hall : ∀ c ∈ name.codePoints, decide (c ≠ 47) = true := by
    intro c hc
    rw [decide_eq_true_eq]
    rintro rfl
    exact h hc
  constructor
  · refine ext ?_
    rw [nameOf, codePoints_append, PyStr.length, List.drop_left]
    exact List.takeWhile_eq_self_iff.mpr hall
  · refine ext ?_
    simp only [nameOf, codePoints_append, PyStr.length, List.append_assoc, List.drop_left]
    rw [List.takeWhile_append_of_pos hall]
    have hslash : (ofString "/").codePoints = [47] := rfl
    rw [hslash]
    simp

/-- A name with the suffix of a fragment, after any directory. -/
theorem isYamlPath_of_suffix {path name : PyStr} (h : hasYamlSuffix name = true) :
    isYamlPath (path ++ name) = true := by
  have hends {suffix : PyStr} (hname : (⟨name.codePoints.map fun c =>
      if isUpper c then c + 32 else c⟩ : PyStr).endsWith suffix = true) :
      (⟨(path ++ name).codePoints.map fun c => if isUpper c then c + 32 else c⟩ : PyStr).endsWith
        suffix = true := by
    rw [endsWith, List.isSuffixOf_iff_suffix] at hname ⊢
    rw [codePoints_append, List.map_append]
    exact hname.trans (List.suffix_append _ _)
  unfold hasYamlSuffix at h
  dsimp only at h
  unfold isYamlPath
  dsimp only
  rw [Bool.or_eq_true] at h ⊢
  rcases h with h | h
  · exact Or.inl (hends (Bool.and_eq_true _ _ ▸ h).1)
  · exact Or.inr (hends (Bool.and_eq_true _ _ ▸ h).1)

/-! ## 5. What is selected -/

section

variable {tree out : Tree} {tools : Tools}

theorem selectRecord_eq_some {e : PyStr × Blob} {path : PyStr} {content : Bytes}
    (h : selectRecord e = .ok (some (path, content))) : e.1 = path ∧ e.2.kind = .file ∧
      e.2.content = content ∧ (path = galaxyPath ∨ isFragmentPath path = true) := by
  unfold selectRecord at h
  obtain ⟨-, -, h⟩ := bind_eq_ok.mp h
  split_ifs at h
  · cases h
  · simp only [bind_eq_ok, raiseUnless_eq_ok] at h
    obtain ⟨-, hpath, -, hkind, -, -, h⟩ := h
    cases h
    exact ⟨rfl, hkind, rfl, hpath⟩

theorem selectRecord_of_yaml {e : PyStr × Blob} {r : Option (PyStr × Bytes)}
    (h : selectRecord e = .ok r) (hpath : e.1 = galaxyPath ∨ isYamlPath e.1 = true) :
    r = some (e.1, e.2.content) ∧ e.2.kind = .file := by
  unfold selectRecord at h
  obtain ⟨-, -, h⟩ := bind_eq_ok.mp h
  rw [if_neg] at h
  · simp only [bind_eq_ok, raiseUnless_eq_ok] at h
    obtain ⟨-, -, -, hkind, -, -, h⟩ := h
    cases h
    exact ⟨rfl, hkind⟩
  · rintro ⟨hne, hplain⟩
    rcases hpath with hpath | hpath
    · exact hne hpath
    · rw [hpath] at hplain
      cases hplain

/-- What is exported are blobs of the commit, by their paths. -/
theorem mem_exported (h : exportTree tree = .ok out) {e : PyStr × Blob} (he : e ∈ out) :
    ∃ blob, (e.1, blob) ∈ tree ∧ blob.kind = .file ∧ e.2 = ⟨.file, false, blob.content⟩ ∧
      (e.1 = galaxyPath ∨ isFragmentPath e.1 = true) := by
  simp only [exportTree, bind_eq_ok, raiseUnless_eq_ok] at h
  obtain ⟨-, -, records, hrecords, -, -, h⟩ := h
  cases h
  obtain ⟨⟨path, content⟩, hselected, rfl⟩ := List.mem_map.mp he
  obtain ⟨r, hr, heq⟩ := List.mem_filterMap.mp hselected
  obtain ⟨⟨path', blob⟩, hblob, hselect⟩ := mem_of_mapM hrecords hr
  rw [id_eq] at heq
  subst heq
  obtain ⟨rfl, hkind, rfl, hpath⟩ := selectRecord_eq_some hselect
  exact ⟨blob, List.mem_of_mem_filter hblob, hkind, rfl, hpath⟩

/-- A governed blob with a name of a fragment is exported. -/
theorem exported_of_mem (h : exportTree tree = .ok out) {path : PyStr} {blob : Blob}
    (hmem : (path, blob) ∈ tree) (hgoverned : isGoverned path = true)
    (hpath : path = galaxyPath ∨ isYamlPath path = true) :
    blob.kind = .file ∧ (path, ⟨.file, false, blob.content⟩) ∈ out := by
  simp only [exportTree, bind_eq_ok, raiseUnless_eq_ok] at h
  obtain ⟨-, -, records, hrecords, -, -, h⟩ := h
  cases h
  obtain ⟨r, hr, hselect⟩ := exists_of_forall₂ (mapM_eq_ok hrecords)
    (List.mem_filter.mpr ⟨hmem, hgoverned⟩)
  obtain ⟨rfl, hkind⟩ := selectRecord_of_yaml hselect hpath
  exact ⟨hkind, List.mem_map.mpr ⟨_, List.mem_filterMap.mpr ⟨_, hr, rfl⟩, rfl⟩⟩

/-- A governed file is read alike in both places. -/
theorem readFile_exported (htree : IsTree tree) (h : exportTree tree = .ok out) {path : PyStr}
    (hgoverned : isGoverned path = true) (hpath : path = galaxyPath ∨ isYamlPath path = true) :
    readFile out path = readFile tree path := by
  unfold readFile
  cases hout : lookup out path with
  | some b =>
    obtain ⟨blob, hblob, hkind, hb, -⟩ := mem_exported h (mem_of_lookup hout)
    have htreePath : lookup tree path = some blob := lookup_of_mem htree.nodup hblob
    obtain ⟨kind, executable, content⟩ := blob
    obtain rfl : kind = .file := hkind
    obtain rfl : b = ⟨.file, false, content⟩ := hb
    rw [htreePath]
  | none =>
    cases htreePath : lookup tree path with
    | none => rfl
    | some blob =>
      obtain ⟨-, hmem⟩ := exported_of_mem h (mem_of_lookup htreePath) hgoverned hpath
      have hsome := lookup_isSome.mpr (List.mem_map.mpr ⟨_, hmem, rfl⟩)
      rw [hout] at hsome
      cases hsome

theorem fragmentsRoot_governed (name : PyStr) : isGoverned (fragmentsRoot ++ name) = true := by
  rw [isGoverned, startsWith_iff.mpr ⟨name, rfl⟩, Bool.or_true]

/-- Where no directory has the name of a fragment, the names of the fragments are the same. -/
theorem mem_names_exported (h : exportTree tree = .ok out) (hhides : ¬ HidesDirectory tree)
    {name : PyStr} (hsuffix : hasYamlSuffix name = true) :
    name ∈ fragmentNames out ↔ name ∈ fragmentNames tree := by
  rw [mem_fragmentNames, mem_fragmentNames]
  constructor
  · rintro ⟨path, hpath, hstarts, hname⟩
    obtain ⟨e, he, rfl⟩ := List.mem_map.mp hpath
    obtain ⟨blob, hblob, -⟩ := mem_exported h he
    exact ⟨e.1, List.mem_map.mpr ⟨_, hblob, rfl⟩, hstarts, hname⟩
  · rintro ⟨path, hpath, hstarts, rfl⟩
    have hslash : 47 ∉ (nameOf path).codePoints := by
      intro hmem
      have hne := List.mem_takeWhile_imp hmem
      simp at hne
    rcases path_cases hstarts with hplain | ⟨rest, hnested⟩
    · obtain ⟨e, he, rfl⟩ := List.mem_map.mp hpath
      have hyaml : isYamlPath e.1 = true := by
        rw [hplain]
        exact isYamlPath_of_suffix hsuffix
      have hgoverned : isGoverned e.1 = true := by
        rw [hplain]
        exact fragmentsRoot_governed _
      obtain ⟨-, hout⟩ := exported_of_mem h he hgoverned (Or.inr hyaml)
      exact ⟨e.1, List.mem_map.mpr ⟨_, hout, rfl⟩, hstarts, rfl⟩
    · exact absurd ⟨nameOf path, rest, hnested ▸ hpath, hsuffix, hslash⟩ hhides

/-- The fragments that the resolver takes, in its order. -/
def candidates (tree : Tree) : List PyStr := sorted ((fragmentNames tree).filter hasYamlSuffix)

theorem mem_candidates {name : PyStr} : name ∈ candidates tree ↔
    name ∈ fragmentNames tree ∧ hasYamlSuffix name = true := by
  rw [candidates, sorted, List.mem_insertionSort, List.mem_filter]

theorem candidates_exported (h : exportTree tree = .ok out) (hhides : ¬ HidesDirectory tree) :
    candidates out = candidates tree := by
  refine sorted_congr ?_
  have hnodup (tree : Tree) : ((fragmentNames tree).filter hasYamlSuffix).Nodup :=
    (List.nodup_dedup _).filter _
  rw [List.perm_ext_iff_of_nodup (hnodup out) (hnodup tree)]
  intro name
  rw [List.mem_filter, List.mem_filter]
  exact and_congr_left fun hsuffix => mem_names_exported h hhides hsuffix

end

/-! ## 6. The two resolutions -/

theorem toOption_bind {α β : Type} (x : Py α) (f : α → Py β) :
    (x >>= f).toOption = x.toOption.bind fun a => (f a).toOption := by
  cases x <;> rfl

theorem mapM_congr {α β : Type} {f g : α → Py β} {xs : List α} (h : ∀ x ∈ xs, f x = g x) :
    xs.mapM f = xs.mapM g := by
  induction xs with
  | nil => rfl
  | cons x xs ih =>
    obtain ⟨hx, hrest⟩ := List.forall_mem_cons.mp h
    rw [List.mapM_cons, List.mapM_cons, hx, ih hrest]

section

variable {tools : Tools} {tree out : Tree}

/-- What is read of the fragments. -/
def SameFragments (tree out : Tree) (names : List PyStr) : Prop :=
  ∀ name ∈ names, readFile out (fragmentsRoot ++ name) = readFile tree (fragmentsRoot ++ name)

theorem deriveImpactFromPaths_congr {names : List PyStr} (h : SameFragments tree out names) :
    deriveImpactFromPaths tools out names = deriveImpactFromPaths tools tree names := by
  have hload : ∀ name ∈ names, loadFragment tools out name = loadFragment tools tree name := by
    intro name hname
    rw [loadFragment, loadFragment, h name hname]
  have hobserved : (names.mapM fun name => loadFragment tools out name >>= observedCategories) =
      names.mapM fun name => loadFragment tools tree name >>= observedCategories :=
    mapM_congr fun name hname => by rw [hload name hname]
  unfold deriveImpactFromPaths
  rw [hobserved]

/-- The candidates decide, whatever else there is. -/
theorem deriveImpact_toOption (tools : Tools) (tree : Tree) : (deriveImpact tools tree).toOption =
    if (candidates tree).all fun name => (readFile tree (fragmentsRoot ++ name)).isSome then
      (deriveImpactFromPaths tools tree (candidates tree)).toOption.map (·, candidates tree)
    else none := by
  have hguard {condition : Prop} [Decidable condition] (message : String) {α : Type} (rest : Py α) :
      (require condition message >>= fun _ => rest).toOption =
        if condition then rest.toOption else none := by
    by_cases h : condition
    · rw [if_pos h, (require_eq_ok (u := ())).mpr h, ok_bind]
    · rw [if_neg h, require, raiseUnless, if_neg h]
      rfl
  by_cases hnames : fragmentNames tree = []
  · have hempty : candidates tree = [] := by
      rw [candidates, hnames]
      rfl
    have hnone : deriveImpactFromPaths tools tree [] =
        .error (.valueError "no reviewed changelog fragments exist") := rfl
    rw [deriveImpact]
    dsimp only
    rw [hguard, if_neg (not_not_intro hnames), hempty, hnone]
    rfl
  · rw [deriveImpact]
    dsimp only
    rw [hguard, if_pos hnames, hguard]
    change (if (candidates tree).all _ = true then (deriveImpactFromPaths tools tree (candidates tree) >>=
      fun impact => pure (impact, candidates tree)).toOption else none) = _
    split_ifs
    · cases deriveImpactFromPaths tools tree (candidates tree) <;> rfl
    · rfl

/-- Where the same is read, the same is resolved. -/
theorem resolveRequested_congr {requested : PyStr}
    (hgalaxy : readFile out galaxyPath = readFile tree galaxyPath)
    (hcandidates : candidates out = candidates tree)
    (hsame : SameFragments tree out (candidates tree)) :
    (resolveRequested tools out requested).toOption =
      (resolveRequested tools tree requested).toOption := by
  have hload : loadGalaxy tools out = loadGalaxy tools tree := by
    have hread : readFile out "galaxy.yml" = readFile tree "galaxy.yml" := hgalaxy
    simp only [loadGalaxy, hread]
  have hreadable : ((candidates tree).all fun name => (readFile out (fragmentsRoot ++ name)).isSome) =
      (candidates tree).all fun name => (readFile tree (fragmentsRoot ++ name)).isSome := by
    rw [Bool.eq_iff_iff, List.all_eq_true, List.all_eq_true]
    exact forall₂_congr fun name hname => by rw [hsame name hname]
  have hderive : (deriveImpact tools out).toOption = (deriveImpact tools tree).toOption := by
    rw [deriveImpact_toOption, deriveImpact_toOption, hcandidates, deriveImpactFromPaths_congr hsame,
      hreadable]
  have hnames {r : PyStr × List PyStr} (h : (deriveImpact tools tree).toOption = some r) :
      r.2 = candidates tree := by
    rw [deriveImpact_toOption] at h
    split_ifs at h
    obtain ⟨impact, -, rfl⟩ := Option.map_eq_some_iff.mp h
    rfl
  have hdigests : fragmentDigests tools out (candidates tree) =
      fragmentDigests tools tree (candidates tree) :=
    mapM_congr fun name hname => by rw [hsame name hname]
  simp only [resolveRequested, toOption_bind, hload, hderive]
  refine Option.bind_congr fun galaxy _ => Option.bind_congr fun current _ =>
    Option.bind_congr fun currentVersion _ => Option.bind_congr fun r hr => ?_
  rw [hnames hr, hdigests]

/-- A directory with the name of a fragment stops the resolver. -/
theorem resolve_of_hidesDirectory (htree : IsTree tree) (h : HidesDirectory tree)
    (requested : PyStr) : (resolveRequested tools tree requested).toOption = none := by
  obtain ⟨name, rest, hpath, hsuffix, hslash⟩ := h
  have hmem : name ∈ candidates tree := by
    refine mem_candidates.mpr ⟨mem_fragmentNames.mpr ⟨_, hpath, ?_, (nameOf_join hslash).2⟩, hsuffix⟩
    refine startsWith_iff.mpr ⟨name ++ "/" ++ rest, ext ?_⟩
    simp only [codePoints_append, List.append_assoc]
  have hread : readFile tree (fragmentsRoot ++ name) = none := by
    have hlookup : lookup tree (fragmentsRoot ++ name) = none := by
      rw [← Option.not_isSome_iff_eq_none, lookup_isSome]
      intro hblob
      have hapart := htree.apart _ hblob _ hpath
      rw [startsWith_iff.mpr ⟨rest, rfl⟩] at hapart
      cases hapart
    rw [readFile, hlookup]
  have hderive : (deriveImpact tools tree).toOption = none := by
    rw [deriveImpact_toOption, if_neg]
    intro hall
    have hsome := List.all_eq_true.mp hall name hmem
    rw [hread] at hsome
    cases hsome
  simp only [resolveRequested, toOption_bind, hderive, Option.bind_none]
  simp

/-- Where `changelogs` is a link, nothing but `galaxy.yml` is exported. -/
theorem resolve_of_linksAway (htree : IsTree tree) (h : LinksAway tree)
    (hexport : exportTree tree = .ok out) (requested : PyStr) :
    (resolveRequested tools out requested).toOption = none := by
  have hnone : candidates out = [] := by
    rw [List.eq_nil_iff_forall_not_mem]
    intro name hname
    obtain ⟨path, hpath, hstarts, -⟩ := mem_fragmentNames.mp (mem_candidates.mp hname).1
    obtain ⟨e, he, rfl⟩ := List.mem_map.mp hpath
    obtain ⟨blob, hblob, -⟩ := mem_exported hexport he
    have hlink : ("changelogs" : PyStr) ∈ tree.map Prod.fst := by
      rw [← lookup_isSome]
      unfold LinksAway at h
      cases hlookup : lookup tree "changelogs" with
      | none =>
        rw [hlookup] at h
        cases h
      | some b => rfl
    have hapart := htree.apart _ hlink _ (List.mem_map.mpr ⟨_, hblob, rfl⟩)
    obtain ⟨rest, hrest⟩ := startsWith_iff.mp hstarts
    have hbelow : e.1.startsWith (("changelogs" : PyStr) ++ "/") = true := by
      refine startsWith_iff.mpr ⟨("fragments/" : PyStr) ++ rest, ?_⟩
      rw [hrest]
      exact ext rfl
    rw [hbelow] at hapart
    cases hapart
  have hderive : (deriveImpact tools out).toOption = none := by
    rw [deriveImpact_toOption, hnone]
    rfl
  simp only [resolveRequested, toOption_bind, hderive, Option.bind_none]
  simp

/-- The two results are equal, or there is none on either side. -/
def Agrees (tools : Tools) (out seen : Tree) (requested : PyStr) : Prop :=
  (resolveRequested tools out requested).toOption = (resolveRequested tools seen requested).toOption

/-- **The exported data give the version of the checkout, unless a directory has the name of a fragment
or `changelogs` is a link**; then one of the two gives none. -/
theorem export_agrees {behind : Tree} (htree : IsTree tree) (hexport : exportTree tree = .ok out)
    (requested : PyStr) :
    (¬ HidesDirectory tree ∧ ¬ LinksAway tree → Agrees tools out (checkout tree behind) requested) ∧
    (HidesDirectory tree ∨ LinksAway tree → (Agrees tools out (checkout tree behind) requested ↔
      (resolveRequested tools out requested).toOption = none ∧
        (resolveRequested tools (checkout tree behind) requested).toOption = none)) := by
  constructor
  · rintro ⟨hhides, hlinks⟩
    rw [checkout, if_neg hlinks]
    refine resolveRequested_congr ?_ (candidates_exported hexport hhides) ?_
    · exact readFile_exported htree hexport (by decide) (Or.inl rfl)
    · intro name hname
      exact readFile_exported htree hexport (fragmentsRoot_governed name)
        (Or.inr (isYamlPath_of_suffix (mem_candidates.mp hname).2))
  · intro h
    constructor
    · intro hagrees
      by_cases hlinks : LinksAway tree
      · have hout : (resolveRequested tools out requested).toOption = none :=
          resolve_of_linksAway htree hlinks hexport requested
        exact ⟨hout, hagrees.symm.trans hout⟩
      · have hseen : (resolveRequested tools (checkout tree behind) requested).toOption = none := by
          rw [checkout, if_neg hlinks]
          exact resolve_of_hidesDirectory htree (h.resolve_right hlinks) requested
        exact ⟨hagrees.trans hseen, hseen⟩
    · rintro ⟨hout, hseen⟩
      exact hout.trans hseen.symm

end

/-- A collection with one fragment. -/
def sampleTree : Tree :=
  [("galaxy.yml", regular (sampleGalaxy "1.0.0")), ("changelogs/fragments/a.yml", regular sampleFragment)]

theorem isTree_sampleTree : IsTree sampleTree := ⟨by decide, by decide⟩

theorem export_agrees_sample :
    (¬ HidesDirectory sampleTree ∧ ¬ LinksAway sampleTree →
      Agrees sampleTools sampleTree (checkout sampleTree []) "1.0.1") ∧
    (HidesDirectory sampleTree ∨ LinksAway sampleTree →
      (Agrees sampleTools sampleTree (checkout sampleTree []) "1.0.1" ↔
        (resolveRequested sampleTools sampleTree "1.0.1").toOption = none ∧
          (resolveRequested sampleTools (checkout sampleTree []) "1.0.1").toOption = none)) :=
  export_agrees isTree_sampleTree (by decide +kernel) "1.0.1"

/-- The same with a directory `b.yml` that holds no YAML file. -/
def hiddenTree : Tree := (("changelogs/fragments/b.yml/notes.txt" : PyStr), regular []) :: sampleTree

/-- The directory is not exported, so that the export has a version and the checkout none. -/
theorem directory_not_exported : IsTree hiddenTree ∧ exportTree hiddenTree = .ok sampleTree ∧
    ¬ Agrees sampleTools sampleTree (checkout hiddenTree []) "" := by
  refine ⟨⟨by decide, by decide⟩, by decide +kernel, ?_⟩
  intro hagrees
  have hout : (resolveRequested sampleTools sampleTree "").toOption.isSome = true := by decide +kernel
  have hseen : (resolveRequested sampleTools (checkout hiddenTree []) "").toOption.isSome = false := by
    decide +kernel
  rw [Agrees] at hagrees
  rw [hagrees, hseen] at hout
  cases hout

end Supplementary.Release
