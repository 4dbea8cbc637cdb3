/-
# No changed family escapes

What `select` returns, read off its inputs.  A path that Git lists under its own name selects every
profile of every family it lies under; more changed paths never take a profile away; the acceptance
profile never comes without the heavy one; a path of no family and no safe prefix selects the tiny
profile and no other.  The file of dependencies is the exception: it is not classified by its path,
its entries are.

`Comparison` is what Git says about two commits: with rename detection the old name of a renamed
file is not listed, and a name with a byte that is quoted is listed as a C string.  Neither is
promised anything here.
-/
import Supplementary.Quality.Impact

namespace Supplementary.Quality

open Supplementary PyStr
open Supplementary.Roles (purePosixPath pathParts pathAsPosix)

/-! ## 1. Paths -/

/-- The components of the text are names: none is empty, `.` or `..`. -/
def IsTreePath (s : PyStr) : Prop := ∀ part ∈ s.segments "/", part ≠ "" ∧ part ≠ "." ∧ part ≠ ".."

/-- `text == text.strip()`. -/
def IsTrimmed (s : PyStr) : Prop :=
  (∀ c ∈ s.codePoints.head?, isSpace c = false) ∧ ∀ c ∈ s.codePoints.getLast?, isSpace c = false

theorem dropWhile_of_head {points : List Nat} (h : ∀ c ∈ points.head?, isSpace c = false) :
    points.dropWhile isSpace = points := by
  cases points with
  | nil => rfl
  | cons c points => simp [h c (by simp)]

theorem strip_of_isTrimmed {s : PyStr} (h : IsTrimmed s) : strip s = s := by
  have hlast : ∀ c ∈ s.codePoints.reverse.head?, isSpace c = false := by
    rw [List.head?_reverse]
    exact h.2
  apply PyStr.ext
  simp only [strip]
  rw [dropWhile_of_head h.1, dropWhile_of_head hlast, List.reverse_reverse]

theorem purePosixPath_of_isTreePath {s : PyStr} (h : IsTreePath s) :
    purePosixPath s = ((⟨[]⟩ : PyStr), s.segments "/") := by
  have hroot : s.startsWith "/" = false := by
    rw [Bool.eq_false_iff]
    intro hstart
    obtain ⟨rest, hrest⟩ := List.isPrefixOf_iff_prefix.mp hstart
    have hs : s = (⟨[]⟩ : PyStr) ++ ⟨[47]⟩ ++ ⟨rest⟩ := PyStr.ext hrest.symm
    have hmem : (⟨[]⟩ : PyStr) ∈ s.segments ⟨[47]⟩ := by
      rw [hs, segments_of_append List.not_mem_nil]
      exact List.mem_cons_self
    exact (h _ hmem).1 rfl
  have hdouble : s.startsWith "//" = false := by
    rw [Bool.eq_false_iff] at hroot ⊢
    intro hstart
    refine hroot ?_
    have hshort : PyStr.codePoints "/" <+: PyStr.codePoints "//" := ⟨[47], rfl⟩
    exact List.isPrefixOf_iff_prefix.mpr (hshort.trans (List.isPrefixOf_iff_prefix.mp hstart))
  have hparts : (s.segments "/").filter (fun part : PyStr => part ≠ "" && part ≠ ".") =
      s.segments "/" := by
    rw [List.filter_eq_self]
    intro part hpart
    have hname := h part hpart
    simp [hname.1, hname.2.1]
  rw [purePosixPath, hparts, hroot, hdouble]
  rfl

theorem pathParts_of_isTreePath {s : PyStr} (h : IsTreePath s) :
    pathParts (purePosixPath s) = s.segments "/" := by
  rw [purePosixPath_of_isTreePath h, pathParts]
  exact if_pos rfl

/-- A name of the tree is its own normalized path. -/
theorem normalizedPath_of_isTreePath {s : PyStr} (h : IsTreePath s) (htrimmed : IsTrimmed s) :
    normalizedPath s = .ok s := by
  have hne : s.segments "/" ≠ [] := segmentsFrom_ne_nil
  have hrendered : pathAsPosix (purePosixPath s) = s := by
    rw [pathAsPosix, pathParts_of_isTreePath h, if_neg hne, purePosixPath_of_isTreePath h]
    exact join_segments s (List.cons_ne_nil _ _)
  have hempty : s ≠ "" := by
    rintro rfl
    exact (h "" (by decide)).1 rfl
  have hdot : s ≠ "." := by
    rintro rfl
    exact (h "." (by decide)).2.1 rfl
  have hinside : ¬ leavesTree s := by
    rw [leavesTree, pathParts_of_isTreePath h, purePosixPath_of_isTreePath h]
    rintro (hroot | hparent)
    · exact hroot rfl
    · exact (h _ hparent).2.2 rfl
  simp only [normalizedPath, strip_of_isTrimmed htrimmed, hrendered]
  rw [if_neg]
  rintro (h' | h' | h')
  · exact hempty h'
  · exact hdot h'
  · exact hinside h'

theorem mem_normalizedPaths {paths files : List PyStr} (h : normalizedPaths paths = .ok files)
    {s : PyStr} (hs : s ∈ paths) {t : PyStr} (ht : normalizedPath s = .ok t) : t ∈ files := by
  obtain ⟨rendered, hrendered, hsorted⟩ := bind_eq_ok.mp h
  cases hsorted
  obtain ⟨t', ht', hst⟩ := exists_of_forall₂ (mapM_eq_ok hrendered) hs
  rw [ht] at hst
  cases hst
  rw [sorted, List.mem_insertionSort, List.mem_dedup]
  exact ht'

/-! ## 2. What Git lists -/

/-- A path of a tree, as the text that stands for its bytes when all of them are ASCII. -/
def textOf (path : Bytes) : PyStr := ⟨path.map UInt8.toNat⟩

/-- Two commits compared with rename detection, and the names that `git diff --name-only` lists. -/
structure Comparison where
  /-- The mode and content of each path in the merge base, and in the head. -/
  before : Bytes → Option Bytes
  after : Bytes → Option Bytes
  /-- The old and new names of the renamed files. -/
  renames : List (Bytes × Bytes)
  names : List Bytes
  isTreePath : ∀ path, before path ≠ none ∨ after path ≠ none → IsTreePath (textOf path)
  renamed : ∀ old new, (old, new) ∈ renames →
    before old ≠ none ∧ after old = none ∧ before new = none ∧ after new ≠ none
  listed : ∀ path, path ∈ names ↔ before path ≠ after path ∧ path ∉ renames.map Prod.fst

namespace Comparison

/-- What the command prints: the names, each as Git spells it, on a line of its own. -/
def output (c : Comparison) : PyStr :=
  ofLines (c.names.map fun path => textOf ((Review.Quoting.git true).spell path))

/-- The path changed, is not the old name of a renamed file, has no byte that Git quotes and no
blank at either end. -/
def Shows (c : Comparison) (path : Bytes) : Prop :=
  c.before path ≠ c.after path ∧ path ∉ c.renames.map Prod.fst ∧
    path.any (Review.Quoting.git true).quotes = false ∧ IsTrimmed (textOf path)

end Comparison

/-- A printable ASCII character. -/
def IsPrintable (b : UInt8) : Prop := 32 ≤ b.toNat ∧ b.toNat < 127

instance (b : UInt8) : Decidable (IsPrintable b) := inferInstanceAs (Decidable (_ ∧ _))

theorem IsPrintable.not_isLineEnd {b : UInt8} (h : IsPrintable b) : isLineEnd b.toNat = false := by
  obtain ⟨hlow, hhigh⟩ := h
  simp only [isLineEnd, Bool.or_eq_false_iff, Bool.and_eq_false_iff, decide_eq_false_iff_not]
  omega

theorem isPrintable_of_not_quotes {b : UInt8} (h : (Review.Quoting.git true).quotes b = false) :
    IsPrintable b := by
  simp only [Review.Quoting.git, Bool.or_eq_false_iff, Bool.true_and, decide_eq_false_iff_not,
    UInt8.lt_iff_toNat_lt, UInt8.le_iff_toNat_le, ← UInt8.toNat_inj] at h
  obtain ⟨⟨⟨⟨hlow, -⟩, -⟩, hdelete⟩, hhigh⟩ := h
  change ¬ b.toNat < 32 at hlow
  change ¬ b.toNat = 127 at hdelete
  change ¬ 128 ≤ b.toNat at hhigh
  exact ⟨by omega, by omega⟩

theorem isPrintable_escapeOf {b letter : UInt8} (h : Review.escapeOf b = some letter) :
    IsPrintable letter := by
  obtain ⟨before, after, htable, -⟩ := List.lookup_eq_some_iff.mp h
  have hrow : (b, letter) ∈ ([(7, 97), (8, 98), (9, 116), (10, 110), (11, 118), (12, 102),
      (13, 114), (34, 34), (92, 92)] : List (UInt8 × UInt8)) := by
    rw [htable]
    simp
  simp only [List.mem_cons, Prod.mk.injEq, List.not_mem_nil, or_false] at hrow
  rcases hrow with ⟨-, rfl⟩ | ⟨-, rfl⟩ | ⟨-, rfl⟩ | ⟨-, rfl⟩ | ⟨-, rfl⟩ | ⟨-, rfl⟩ | ⟨-, rfl⟩ |
    ⟨-, rfl⟩ | ⟨-, rfl⟩ <;> decide

theorem isPrintable_octalEscape {b x : UInt8} (hx : x ∈ Review.octalEscape b) : IsPrintable x := by
  have hdigit : ∀ n, n < 8 → IsPrintable (48 + n).toUInt8 := by
    intro n hn
    rw [IsPrintable, toNat_toUInt8 (by omega)]
    omega
  have hb := b.toNat_lt
  simp only [Review.octalEscape, List.mem_cons, List.not_mem_nil, or_false] at hx
  rcases hx with rfl | rfl | rfl | rfl
  · decide
  · exact hdigit _ (by omega)
  · exact hdigit _ (by omega)
  · exact hdigit _ (by omega)

theorem isPrintable_spelled {path : Bytes} :
    ∀ b ∈ (Review.Quoting.git true).spell path, IsPrintable b := by
  intro b hb
  rw [Review.Quoting.spell] at hb
  split at hb
  · simp only [List.mem_cons, List.mem_append, List.mem_flatMap, List.not_mem_nil, or_false] at hb
    rcases hb with rfl | ⟨x, -, hx⟩ | rfl
    · decide
    · rw [Review.Quoting.spellByte] at hx
      split at hx
      · split at hx
        · next letter hletter =>
          rcases List.mem_cons.mp hx with rfl | hx
          · decide
          · rw [List.mem_singleton.mp hx]
            exact isPrintable_escapeOf hletter
        · exact isPrintable_octalEscape hx
      · next hplain =>
        rw [List.mem_singleton.mp hx]
        exact isPrintable_of_not_quotes (Bool.eq_false_iff.mpr hplain)
    · decide
  · next hplain =>
    refine isPrintable_of_not_quotes ?_
    rw [Bool.eq_false_iff]
    intro hquoted
    exact hplain (List.any_eq_true.mpr ⟨b, hb, hquoted⟩)

theorem Comparison.splitLines_output (c : Comparison) : c.output.splitLines =
    c.names.map fun path => textOf ((Review.Quoting.git true).spell path) := by
  refine splitLines_ofLines ?_
  intro line hline x hx
  obtain ⟨path, -, rfl⟩ := List.mem_map.mp hline
  obtain ⟨b, hb, rfl⟩ := List.mem_map.mp hx
  exact (isPrintable_spelled b hb).not_isLineEnd

theorem Comparison.Shows.mem {c : Comparison} {path : Bytes} (h : c.Shows path) {files : List PyStr}
    (hfiles : normalizedPaths c.output.splitLines = .ok files) : textOf path ∈ files := by
  obtain ⟨hchanged, hrenamed, hplain, htrimmed⟩ := h
  have hspell : (Review.Quoting.git true).spell path = path := by
    rw [Review.Quoting.spell, if_neg (by simp [hplain])]
  have hline : textOf path ∈ c.output.splitLines := by
    rw [c.splitLines_output]
    refine List.mem_map.mpr ⟨path, (c.listed path).mpr ⟨hchanged, hrenamed⟩, ?_⟩
    rw [hspell]
  have htree : IsTreePath (textOf path) := by
    refine c.isTreePath path ?_
    by_contra hnone
    push Not at hnone
    exact hchanged (hnone.1.trans hnone.2.symm)
  exact mem_normalizedPaths hfiles hline (normalizedPath_of_isTreePath htree htrimmed)

/-! ## 3. The impact of the inventory -/

section

variable {families : List (PyStr × FamilyPolicy)} {before after : Entries}

/-- The acceptance profile only with the heavy one. -/
def Backed (profiles : List Profile) : Prop :=
  Profile.applicationAcceptance ∈ profiles → Profile.heavy ∈ profiles

theorem Backed.append {ps qs : List Profile} (hp : Backed ps) (hq : Backed qs) :
    Backed (ps ++ qs) := by
  intro h
  rw [List.mem_append] at h ⊢
  exact h.imp hp hq

theorem Backed.flatMap {α : Type} {f : α → List Profile} {xs : List α} (h : ∀ x, Backed (f x)) :
    Backed (xs.flatMap f) := by
  intro hmem
  obtain ⟨x, hx, hp⟩ := List.mem_flatMap.mp hmem
  exact List.mem_flatMap.mpr ⟨x, hx, h x hp⟩

theorem backed_family (policy : FamilyPolicy) (condition : Bool) :
    Backed (if condition then policy.profiles else []) := by
  cases condition
  · exact fun h => absurd h List.not_mem_nil
  · exact policy.acceptance

theorem backed_profilesAt (locations : List PyStr) : Backed (profilesAt families locations) :=
  Backed.flatMap fun _ => Backed.flatMap fun family => backed_family family.2 _

theorem mem_profilesAt {locations : List PyStr} {location : PyStr} (hlocation : location ∈ locations)
    {family : PyStr × FamilyPolicy} (hfamily : family ∈ families)
    (hclaims : family.2.claims location = true) {p : Profile} (hp : p ∈ family.2.profiles) :
    p ∈ profilesAt families locations := by
  refine List.mem_flatMap.mpr ⟨location, hlocation, List.mem_flatMap.mpr ⟨family, hfamily, ?_⟩⟩
  rw [if_pos hclaims]
  exact hp

/-- What one key adds: nothing if its entries agree, else the profiles at its locations. -/
theorem addKey_profiles (impact : Impact) (key : PyStr) :
    (addKey families before after impact key).profiles = impact.profiles ++
      if sameEntry (lookup before key) (lookup after key) then []
      else profilesAt families (locationsOf before after key) := by
  rw [addKey]
  split
  · simp
  · simp only
    split
    · next hnone => simp [hnone, profilesAt]
    · rfl

theorem foldl_addKey_profiles (keys : List PyStr) (impact : Impact) :
    (keys.foldl (addKey families before after) impact).profiles = impact.profiles ++
      keys.flatMap fun key => if sameEntry (lookup before key) (lookup after key) then []
        else profilesAt families (locationsOf before after key) := by
  induction keys generalizing impact with
  | nil => simp
  | cons key keys ih => rw [List.foldl_cons, ih, addKey_profiles, List.flatMap_cons,
      List.append_assoc]

variable {w : World} {args : Arguments} {impact : Impact}

theorem backed_dependencyImpact (h : dependencyImpact w args families = .ok impact) :
    Backed impact.profiles := by
  rw [dependencyImpact] at h
  split at h
  · cases h
    simp only [foldl_addKey_profiles]
    refine Backed.append (fun hmem => absurd hmem List.not_mem_nil) (Backed.flatMap fun key => ?_)
    split
    · exact fun hmem => absurd hmem List.not_mem_nil
    · exact backed_profilesAt _
  · split at h
    · cases h
      exact fun hmem => absurd hmem List.not_mem_nil
    · cases h

theorem mem_dependencyImpact (h : dependencyImpact w args families = .ok impact)
    (hread : readInventories w args = .ok (before, after)) {key : PyStr}
    (hkey : key ∈ keysOf before after)
    (hdiffers : sameEntry (lookup before key) (lookup after key) = false) {p : Profile}
    (hp : p ∈ profilesAt families (locationsOf before after key)) : p ∈ impact.profiles := by
  rw [dependencyImpact, hread] at h
  cases h
  simp only [foldl_addKey_profiles]
  refine List.mem_append_right _ (List.mem_flatMap.mpr ⟨key, hkey, ?_⟩)
  rw [hdiffers, if_neg (by simp)]
  exact hp

end

/-! ## 4. The selection -/

section

variable {w : World} {args : Arguments} {registry : Registry} {r : Selection}

theorem select_eq_ok : select w args = .ok r ↔ ∃ registry changedFiles impact,
    readRegistry w args.registry = .ok registry ∧ changedFilesOf w args = .ok changedFiles ∧
      impactOf w args registry.families changedFiles = .ok impact ∧
      selection args registry changedFiles impact = r := by
  simp only [select, bind_eq_ok, pure_eq_ok]
  constructor
  · rintro ⟨registry, hregistry, files, hfiles, impact, himpact, hr⟩
    exact ⟨registry, files, impact, hregistry, hfiles, himpact, hr⟩
  · rintro ⟨registry, files, impact, hregistry, hfiles, himpact, hr⟩
    exact ⟨registry, hregistry, files, hfiles, impact, himpact, hr⟩

/-- The inputs of a selection by a known registry. -/
theorem inputs_of_select (hregistry : readRegistry w args.registry = .ok registry)
    (h : select w args = .ok r) : ∃ impact, changedFilesOf w args = .ok r.changedFiles ∧
      impactOf w args registry.families r.changedFiles = .ok impact ∧
      r = selection args registry r.changedFiles impact := by
  obtain ⟨registry', files, impact, hregistry', hfiles, himpact, rfl⟩ := select_eq_ok.mp h
  rw [hregistry] at hregistry'
  cases hregistry'
  exact ⟨impact, hfiles, himpact, rfl⟩

theorem mem_directFiles {files : List PyStr} {path : PyStr} :
    path ∈ directFiles files ↔ path ∈ files ∧ path ≠ dependencyInventory := by
  simp [directFiles]

/-- The path lies under no family and no safe prefix. -/
def IsUnmatched (registry : Registry) (path : PyStr) : Prop :=
  (∀ family ∈ registry.families, family.2.claims path = false) ∧
    ∀ pathPrefix ∈ registry.safe, matchesPath path pathPrefix = false

theorem mem_unknownFiles {files : List PyStr} {path : PyStr} :
    path ∈ unknownFiles registry files ↔
      path ∈ files ∧ path ≠ dependencyInventory ∧ IsUnmatched registry path := by
  rw [unknownFiles, List.mem_filter, mem_directFiles, and_assoc, Bool.and_eq_true,
    Bool.not_eq_true', Bool.not_eq_true', List.any_eq_false, List.any_eq_false, IsUnmatched]
  simp only [Bool.not_eq_true]

/-- **The decision.**  What a profile is selected for, on an event that does not select them all. -/
theorem mem_selectedProfiles (hfull : (isFullMatrix args || indeterminatePush args) = false)
    {files : List PyStr} {impact : Impact} {p : Profile} :
    p ∈ selectedProfiles args registry files impact ↔
      (∃ path ∈ directFiles files, ∃ family ∈ registry.families,
        family.2.claims path = true ∧ p ∈ family.2.profiles) ∨
      p ∈ impact.profiles ∨
      p = .tiny ∧ ((∃ path, path ∈ unknownFiles registry files) ∨ impact.unknown = true ∨
        impact.requiresFastLane = true) := by
  rw [selectedProfiles, hfull, if_neg (by simp), List.mem_append, List.mem_append, or_assoc]
  refine or_congr ?_ (or_congr Iff.rfl ?_)
  · rw [List.mem_flatMap]
    constructor
    · rintro ⟨family, hfamily, hp⟩
      split at hp
      · next hany =>
        obtain ⟨path, hpath, hclaims⟩ := List.any_eq_true.mp hany
        exact ⟨path, hpath, family, hfamily, hclaims, hp⟩
      · exact absurd hp List.not_mem_nil
    · rintro ⟨path, hpath, family, hfamily, hclaims, hp⟩
      refine ⟨family, hfamily, ?_⟩
      rw [if_pos (List.any_eq_true.mpr ⟨path, hpath, hclaims⟩)]
      exact hp
  · have hne : unknownFiles registry files ≠ [] ↔ ∃ path, path ∈ unknownFiles registry files :=
      ⟨List.exists_mem_of_ne_nil _, fun ⟨_, h⟩ => List.ne_nil_of_mem h⟩
    rw [← hne]
    split
    · next hcond => simp [hcond]
    · next hcond => simp [hcond]

theorem selects_iff {files : List PyStr} {impact : Impact} {p : Profile} :
    (selection args registry files impact).profiles p = true ↔
      p ∈ selectedProfiles args registry files impact := by
  simp [selection]

theorem selects_of_full (hfull : (isFullMatrix args || indeterminatePush args) = true)
    {files : List PyStr} {impact : Impact} (p : Profile) :
    p ∈ selectedProfiles args registry files impact := by
  rw [selectedProfiles, if_pos hfull]
  cases p <;> simp

theorem impactOf_eq_ok {files : List PyStr} {impact : Impact}
    (h : impactOf w args registry.families files = .ok impact) :
    impact = noImpact ∨ dependencyInventory ∈ files ∧
      dependencyImpact w args registry.families = .ok impact := by
  rw [impactOf] at h
  split at h
  · next hcond => exact .inr ⟨hcond.1, h⟩
  · cases h
    exact .inl rfl

theorem backed_selectedProfiles {files : List PyStr} {impact : Impact}
    (himpact : impactOf w args registry.families files = .ok impact) :
    Backed (selectedProfiles args registry files impact) := by
  by_cases hfull : (isFullMatrix args || indeterminatePush args) = true
  · exact fun _ => selects_of_full hfull _
  · rw [Bool.not_eq_true] at hfull
    have himpact' : Backed impact.profiles := by
      rcases impactOf_eq_ok himpact with rfl | ⟨-, hread⟩
      · exact fun hmem => absurd hmem List.not_mem_nil
      · exact backed_dependencyImpact hread
    intro h
    rw [mem_selectedProfiles hfull] at h ⊢
    rcases h with ⟨path, hpath, family, hfamily, hclaims, hp⟩ | hp | ⟨hp, -⟩
    · exact .inl ⟨path, hpath, family, hfamily, hclaims, family.2.acceptance hp⟩
    · exact .inr (.inl (himpact' hp))
    · cases hp

/-- More changed files take no profile away. -/
theorem selectedProfiles_mono {args' : Arguments}
    (hevent : isFullMatrix args' = isFullMatrix args)
    (hpush : indeterminatePush args' = indeterminatePush args) {files files' : List PyStr}
    (hfiles : ∀ path ∈ files, path ∈ files') {impact impact' : Impact}
    (himpact : impact = noImpact ∨ impact = impact') {p : Profile}
    (h : p ∈ selectedProfiles args registry files impact) :
    p ∈ selectedProfiles args' registry files' impact' := by
  by_cases hfull : (isFullMatrix args || indeterminatePush args) = true
  · exact selects_of_full (by rw [hevent, hpush, hfull]) p
  · rw [Bool.not_eq_true] at hfull
    have hdirect : ∀ path ∈ directFiles files, path ∈ directFiles files' := by
      intro path hpath
      rw [mem_directFiles] at hpath ⊢
      exact ⟨hfiles path hpath.1, hpath.2⟩
    have hunknown : ∀ path ∈ unknownFiles registry files, path ∈ unknownFiles registry files' := by
      intro path hpath
      rw [mem_unknownFiles] at hpath ⊢
      exact ⟨hfiles path hpath.1, hpath.2⟩
    rw [mem_selectedProfiles (by rw [hevent, hpush, hfull])]
    rw [mem_selectedProfiles hfull] at h
    rcases h with ⟨path, hpath, hfamily⟩ | hp | ⟨htiny, ⟨path, hpath⟩ | himpacted⟩
    · exact .inl ⟨path, hdirect path hpath, hfamily⟩
    · rcases himpact with rfl | rfl
      · exact absurd hp List.not_mem_nil
      · exact .inr (.inl hp)
    · exact .inr (.inr ⟨htiny, .inl ⟨path, hunknown path hpath⟩⟩)
    · rcases himpact with rfl | rfl
      · rcases himpacted with hunknown' | hlane
        · cases hunknown'
        · cases hlane
      · exact .inr (.inr ⟨htiny, .inr himpacted⟩)

/-- The world with another answer of `git diff`, asked for other files. -/
theorem select_mono (hregistry : readRegistry w args.registry = .ok registry)
    {diff : PyStr → PyStr → Py PyStr} {files : List PyStr} {r' : Selection}
    (h : select w args = .ok r)
    (h' : select { w with diff := diff } { args with changedFile := files } = .ok r')
    (hfiles : ∀ path ∈ r.changedFiles, path ∈ r'.changedFiles) {p : Profile}
    (hp : r.profiles p = true) : r'.profiles p = true := by
  obtain ⟨impact, -, himpact, hr⟩ := inputs_of_select hregistry h
  have hregistry' : readRegistry { w with diff := diff }
      ({ args with changedFile := files } : Arguments).registry = .ok registry := hregistry
  obtain ⟨impact', -, himpact', hr'⟩ := inputs_of_select hregistry' h'
  have hsame : impact = noImpact ∨ impact = impact' := by
    rcases impactOf_eq_ok himpact with hnone | ⟨hmem, hread⟩
    · exact .inl hnone
    · by_cases hevent : isFullMatrix args = false ∧ indeterminatePush args = false
      · rw [impactOf, if_pos ⟨hfiles _ hmem, hevent⟩] at himpact'
        have hread' : dependencyImpact w args registry.families = .ok impact' := himpact'
        rw [hread] at hread'
        cases hread'
        exact .inr rfl
      · rw [impactOf, if_neg (fun hcond => hevent hcond.2)] at himpact
        cases himpact
        exact .inl rfl
  rw [hr, selects_iff] at hp
  rw [hr', selects_iff]
  exact selectedProfiles_mono rfl rfl hfiles hsame hp

theorem changedFilesOf_git (hgiven : args.changedFile = []) (hevent : isFullMatrix args = false)
    (hhead : isSha args.headSha = true) (hbase : isSha args.baseSha = true)
    (hzero : args.baseSha ≠ zeroSha) {output : PyStr}
    (hdiff : w.diff args.baseSha args.headSha = .ok output) :
    changedFilesOf w args = normalizedPaths output.splitLines := by
  have hpush : indeterminatePush args = false := by simp [indeterminatePush, hzero]
  have hnone : normalizedPaths [] = .ok [] := rfl
  rw [changedFilesOf, hgiven, hnone, ok_bind, if_pos ⟨rfl, hevent, hpush⟩, gitChangedFiles,
    raiseUnless_of hhead, ok_bind, if_neg hzero, raiseUnless_of hbase]
  simp only [ok_bind, hdiff]

/-- **No changed family escapes.**  For a registry that `_registry` accepts and an event that does
not select everything: `select` returns what Git lists classified, and each path shown selects the
profiles of its families; more changed files take nothing away; the acceptance profile comes with
the heavy one; a path of no family and no safe prefix selects the tiny profile, and the heavy one
is owed to a family or to the inventory, whose entries are classified by where they are declared. -/
theorem no_family_escapes (hregistry : readRegistry w args.registry = .ok registry)
    (hevent : isFullMatrix args = false) :
    (∀ c : Comparison, args.changedFile = [] → isSha args.headSha = true →
      isSha args.baseSha = true → args.baseSha ≠ zeroSha →
      w.diff args.baseSha args.headSha = .ok c.output →
        (∀ files impact, normalizedPaths c.output.splitLines = .ok files →
          impactOf w args registry.families files = .ok impact → ∃ r, select w args = .ok r) ∧
        ∀ r, select w args = .ok r → ∀ path, c.Shows path →
          textOf path ∈ r.changedFiles ∧ (textOf path ≠ dependencyInventory →
            ∀ family ∈ registry.families, family.2.claims (textOf path) = true →
              ∀ p ∈ family.2.profiles, r.profiles p = true)) ∧
    (∀ diff files r r', select w args = .ok r →
      select { w with diff := diff } { args with changedFile := files } = .ok r' →
      (∀ path ∈ r.changedFiles, path ∈ r'.changedFiles) →
        ∀ p, r.profiles p = true → r'.profiles p = true) ∧
    ∀ r, select w args = .ok r →
      (r.profiles .applicationAcceptance = true → r.profiles .heavy = true) ∧
      (∀ path ∈ r.changedFiles, path ≠ dependencyInventory → IsUnmatched registry path →
        r.profiles .tiny = true) ∧
      (r.fullMatrix = false → r.profiles .heavy = true → ∃ path ∈ r.changedFiles,
        path = dependencyInventory ∨ ∃ family ∈ registry.families,
          family.2.claims path = true ∧ .heavy ∈ family.2.profiles) ∧
      (r.fullMatrix = false → dependencyInventory ∈ r.changedFiles → ∀ before after,
        readInventories w args = .ok (before, after) → ∀ key ∈ keysOf before after,
          sameEntry (lookup before key) (lookup after key) = false →
          ∀ location ∈ locationsOf before after key, ∀ family ∈ registry.families,
            family.2.claims location = true → ∀ p ∈ family.2.profiles, r.profiles p = true) := by
  refine ⟨?_, ?_, ?_⟩
  · intro c hgiven hhead hbase hzero hdiff
    have hchanged := changedFilesOf_git hgiven hevent hhead hbase hzero hdiff
    have hfull : (isFullMatrix args || indeterminatePush args) = false := by
      simp [hevent, indeterminatePush, hzero]
    constructor
    · intro files impact hfiles himpact
      exact ⟨_, select_eq_ok.mpr
        ⟨registry, files, impact, hregistry, hchanged.trans hfiles, himpact, rfl⟩⟩
    · intro r hr path hshows
      obtain ⟨impact, hfiles, -, hselection⟩ := inputs_of_select hregistry hr
      have hmem := hshows.mem (hchanged.symm.trans hfiles)
      refine ⟨hmem, fun hinventory family hfamily hclaims p hp => ?_⟩
      rw [hselection, selects_iff, mem_selectedProfiles hfull]
      exact .inl ⟨_, mem_directFiles.mpr ⟨hmem, hinventory⟩, family, hfamily, hclaims, hp⟩
  · intro diff files r r' h h' hfiles p hp
    exact select_mono hregistry h h' hfiles hp
  · intro r hr
    obtain ⟨impact, -, himpact, hselection⟩ := inputs_of_select hregistry hr
    generalize r.changedFiles = files at himpact hselection ⊢
    subst hselection
    simp only [selects_iff]
    refine ⟨backed_selectedProfiles himpact, ?_, ?_, ?_⟩
    · intro path hpath hinventory hunmatched
      by_cases hfull : (isFullMatrix args || indeterminatePush args) = true
      · exact selects_of_full hfull _
      · rw [mem_selectedProfiles (Bool.not_eq_true _ ▸ hfull)]
        exact .inr (.inr ⟨rfl, .inl ⟨path, mem_unknownFiles.mpr ⟨hpath, hinventory, hunmatched⟩⟩⟩)
    · intro hfull hheavy
      rw [mem_selectedProfiles hfull] at hheavy
      rcases hheavy with ⟨path, hpath, family, hfamily, hclaims, hp⟩ | hp | ⟨hp, -⟩
      · exact ⟨path, (mem_directFiles.mp hpath).1, .inr ⟨family, hfamily, hclaims, hp⟩⟩
      · rcases impactOf_eq_ok himpact with rfl | ⟨hmem, -⟩
        · exact absurd hp List.not_mem_nil
        · exact ⟨_, hmem, .inl rfl⟩
      · cases hp
    · intro hfull hmem before after hread key hkey hdiffers location hlocation family hfamily
        hclaims p hp
      have hevents : isFullMatrix args = false ∧ indeterminatePush args = false :=
        Bool.or_eq_false_iff.mp hfull
      rw [impactOf, if_pos ⟨hmem, hevents⟩] at himpact
      rw [mem_selectedProfiles hfull]
      exact .inr (.inl (mem_dependencyImpact himpact hread hkey hdiffers
        (mem_profilesAt hlocation hfamily hclaims hp)))

end

/-! ## 5. Instances -/

/-- A registry whose one family has a prefix. -/
def sampleDocument (pathPrefix : PyStr) : Yaml :=
  .dict [(.str "schema_version", .int 2),
    (.str "safe_fast_lane_path_prefixes", .list [.str "docs/"]),
    (.str "families", .dict [(.str "central", .dict [
      (.str "profiles", .list [.str "tiny", .str "heavy", .str "application_acceptance"]),
      (.str "path_prefixes", .list [.str pathPrefix])])])]

def sampleRegistry (pathPrefix : PyStr) : Registry :=
  ⟨[("central", ⟨[.tiny, .heavy, .applicationAcceptance], [pathPrefix], fun _ => by simp⟩)],
    ["docs/"]⟩

/-- An inventory without entries. -/
def emptyInventory : Yaml :=
  .dict [(.str "schema_version", .int 1), (.str "container_images", .list []),
    (.str "derived_images", .list []), (.str "external_products", .list []),
    (.str "collections", .list [])]

/-- One file is added or changed and no entry of the inventory is. -/
def sampleComparison (path : Bytes) (old : Option Bytes) (htree : IsTreePath (textOf path))
    (hold : old ≠ some [1]) : Comparison where
  before name := if name = path then old else none
  after name := if name = path then some [1] else none
  renames := []
  names := [path]
  isTreePath := by
    intro name h
    by_cases hname : name = path
    · rw [hname]
      exact htree
    · simp [hname] at h
  renamed := by
    intro _ _ h
    cases h
  listed := by
    intro name
    by_cases hname : name = path
    · simp [hname, hold]
    · simp [hname]

def sampleWorld (pathPrefix output : PyStr) : World where
  readText path := .ok path
  diff _ _ := .ok output
  showInventory _ := .ok dependencyInventory
  load text := .ok (if text = dependencyInventory then emptyInventory else sampleDocument pathPrefix)
  isYamlError _ := false

def sampleArguments : Arguments where
  eventName := "pull_request"
  baseSha := ⟨List.replicate 40 97⟩
  headSha := ⟨List.replicate 40 98⟩
  baseRef := "develop"
  headRef := "feature/example"
  registry := "meta/quality-impact.yml"
  changedFile := []
  baseDependencyInventory := ""

theorem readRegistry_sample (pathPrefix output : PyStr) :
    readRegistry (sampleWorld pathPrefix output) sampleArguments.registry =
      .ok (sampleRegistry pathPrefix) := rfl

theorem isTreePath_sample : IsTreePath (textOf (bytes "roles/samba/a")) := by
  have hparts : (textOf (bytes "roles/samba/a")).segments "/" =
      ([("roles" : String), "samba", "a"] : List PyStr) := by decide
  rw [IsTreePath, hparts]
  decide

def addedComparison : Comparison :=
  sampleComparison (bytes "roles/samba/a") none isTreePath_sample (by simp)

/-- An added file of the family selects the heavy profile. -/
theorem no_family_escapes_sample :
    ∃ r, select (sampleWorld "roles/samba/" addedComparison.output) sampleArguments = .ok r ∧
      r.profiles .heavy = true := by
  have hmain := (no_family_escapes (readRegistry_sample "roles/samba/" addedComparison.output)
    (by decide)).1 addedComparison rfl (by decide) (by decide) (by decide) rfl
  obtain ⟨r, hr⟩ := hmain.1 ["roles/samba/a"] noImpact rfl rfl
  have hshows : addedComparison.Shows (bytes "roles/samba/a") := by
    refine ⟨by simp [addedComparison, sampleComparison], List.not_mem_nil, by decide, ?_⟩
    constructor <;> decide
  refine ⟨r, hr, ?_⟩
  exact (hmain.2 r hr _ hshows).2 (by decide) _ (List.mem_cons_self ..) (by decide) _ (by decide)

theorem isTreePath_inventory : IsTreePath (textOf (bytes "meta/source-dependencies.yml")) := by
  have hparts : (textOf (bytes "meta/source-dependencies.yml")).segments "/" =
      ([("meta" : String), "source-dependencies.yml"] : List PyStr) := by decide
  rw [IsTreePath, hparts]
  decide

/-- The file of dependencies is changed. -/
def inventoryComparison : Comparison :=
  sampleComparison (bytes "meta/source-dependencies.yml") (some [0]) isTreePath_inventory (by simp)

/-- A changed inventory whose entries stayed selects nothing: not the profiles of a family it lies
under, and not the tiny one where it lies under no family and no safe prefix. -/
theorem inventory_exempt :
    (inventoryComparison.Shows (bytes "meta/source-dependencies.yml") ∧
      textOf (bytes "meta/source-dependencies.yml") = dependencyInventory) ∧
    (∃ r, select (sampleWorld "meta/" inventoryComparison.output) sampleArguments = .ok r ∧
      (∃ family ∈ (sampleRegistry "meta/").families,
        family.2.claims dependencyInventory = true ∧ .heavy ∈ family.2.profiles) ∧
      r.profiles .heavy = false) ∧
    ∃ r, select (sampleWorld "roles/" inventoryComparison.output) sampleArguments = .ok r ∧
      IsUnmatched (sampleRegistry "roles/") dependencyInventory ∧ r.profiles .tiny = false := by
  refine ⟨⟨⟨by simp [inventoryComparison, sampleComparison], List.not_mem_nil, by decide, ?_⟩, rfl⟩,
    ⟨_, rfl, ⟨_, List.mem_cons_self .., by decide, by decide⟩, rfl⟩, ⟨_, rfl, ?_, rfl⟩⟩
  · constructor <;> decide
  · constructor <;> decide

end Supplementary.Quality
