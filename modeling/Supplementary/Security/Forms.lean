/-
# One form inside another

Two stages that write the same pattern with another bound, or with another class of characters,
agree on a text of the one exactly when it is short enough, or has none of the characters that the
other leaves out.
-/
import Supplementary.Python.Split
import Supplementary.Security.Publication
import Supplementary.Receipt.Request

namespace Supplementary.Security

open Supplementary PyStr

/-! ## 1. Tokens -/

section

variable {start s : PyStr} {first rest : Nat → Bool} {low : Nat} {high : Option Nat}

theorem isToken_iff : isToken start first rest low high s = true ↔
    ∃ c tail, s.codePoints = start.codePoints ++ c :: tail ∧ first c = true ∧ low ≤ tail.length ∧
      (∀ n ∈ high, tail.length ≤ n) ∧ ∀ x ∈ tail, rest x = true := by
  unfold isToken
  constructor
  · intro h
    split at h
    · next c tail hdrop =>
      simp only [Bool.and_eq_true, decide_eq_true_eq, Option.all_eq_true, List.all_eq_true,
        PyStr.startsWith, List.isPrefixOf_iff_prefix] at h
      obtain ⟨⟨⟨⟨⟨after, hafter⟩, hfirst⟩, hlow⟩, hhigh⟩, hrest⟩ := h
      refine ⟨c, tail, ?_, hfirst, hlow, hhigh, hrest⟩
      rw [← hafter, PyStr.length, List.drop_left] at hdrop
      rw [← hafter, hdrop]
    · cases h
  · rintro ⟨c, tail, heq, hfirst, hlow, hhigh, hrest⟩
    have hdrop : s.codePoints.drop start.length = c :: tail := by
      rw [heq, PyStr.length, List.drop_left]
    rw [hdrop]
    simp only [Bool.and_eq_true, decide_eq_true_eq, Option.all_eq_true, List.all_eq_true,
      PyStr.startsWith, List.isPrefixOf_iff_prefix]
    exact ⟨⟨⟨⟨⟨c :: tail, heq.symm⟩, hfirst⟩, hlow⟩, hhigh⟩, hrest⟩

end

/-! ## 2. Evidence identifiers -/

section

variable {id : PyStr}

theorem isEvidence_iff {high : Nat} : isEvidence high id = true ↔ ∃ c tail,
    id.codePoints = (ofString "MLX90-").codePoints ++ c :: tail ∧ isCapital c = true ∧
      2 ≤ tail.length ∧ tail.length ≤ high ∧ ∀ x ∈ tail, isEvidenceChar x = true := by
  simp [isEvidence, isToken_iff]

/-- The receipt script admits those of at most 128 characters. -/
theorem receipt_evidence_iff (h : isEvidenceId id = true) :
    Receipt.isEvidenceId id = true ↔ id.length ≤ 128 := by
  obtain ⟨c, tail, heq, hfirst, hlow, hhigh, hrest⟩ := isEvidence_iff.mp h
  have hlength : id.length = 7 + tail.length := by
    rw [PyStr.length, heq, List.length_append, List.length_cons]
    change 6 + (tail.length + 1) = _
    omega
  constructor
  · intro h'
    obtain ⟨c', tail', heq', -, -, hhigh', -⟩ := isEvidence_iff.mp h'
    rw [heq, List.append_cancel_left_eq, List.cons.injEq] at heq'
    obtain ⟨-, rfl⟩ := heq'
    omega
  · intro hshort
    exact isEvidence_iff.mpr ⟨c, tail, heq, hfirst, hlow, by omega, hrest⟩

/-- So does the evidence generator, which counts the whole identifier. -/
theorem generator_evidence_iff (h : isEvidenceId id = true) :
    Evidence.isEvidenceId id = true ↔ id.length ≤ 128 := by
  obtain ⟨c, tail, heq, hfirst, hlow, hhigh, hrest⟩ := isEvidence_iff.mp h
  have hpoints : id.codePoints = 77 :: ([76, 88, 57, 48, 45] ++ c :: tail) := heq
  have hlength : id.length = 1 + ([76, 88, 57, 48, 45] ++ c :: tail).length := by
    rw [PyStr.length, hpoints, List.length_cons, Nat.add_comm]
  constructor
  · intro h'
    obtain ⟨c', tail', heq', -, -, hhigh', -⟩ := isToken_iff.mp h'
    rw [hpoints] at heq'
    obtain ⟨-, rfl⟩ := List.cons.inj heq'
    have hshort := hhigh' 127 rfl
    omega
  · intro hshort
    refine isToken_iff.mpr ⟨77, _, hpoints, rfl, ?_, ?_, ?_⟩
    · simp
    · rintro _ ⟨⟩
      omega
    · rw [List.forall_mem_append]
      refine ⟨by decide, List.forall_mem_cons.mpr ⟨?_, hrest⟩⟩
      simp [isEvidenceChar, hfirst]

end

/-! ## 3. Profiles -/

theorem isLowerAlnum_iff {c : Nat} (h : isAlnum c = true) :
    Evidence.isLowerAlnum c = true ↔ isUpper c = false := by
  simp only [isAlnum, Bool.or_eq_true] at h
  simp only [Evidence.isLowerAlnum, Bool.or_eq_true]
  simp only [isUpper, isLower, PyStr.isDigit, Bool.and_eq_true, decide_eq_true_eq,
    Bool.and_eq_false_iff, decide_eq_false_iff_not] at h ⊢
  omega

theorem isLowerPathChar_iff {c : Nat} (h : isPathChar c = true) :
    Evidence.isLowerPathChar c = true ↔ isUpper c = false := by
  simp only [isPathChar, isAlnum, Evidence.isLowerPathChar, Evidence.isLowerAlnum, isUpper, isLower,
    PyStr.isDigit, Bool.or_eq_true, Bool.and_eq_true, decide_eq_true_eq,
    Bool.and_eq_false_iff, decide_eq_false_iff_not] at h ⊢
  omega

/-- The evidence generator admits the profiles without a capital letter. -/
theorem generator_profile_iff {profile : PyStr} (h : isProfile profile = true) :
    Evidence.isProfileId profile = true ↔ ∀ c ∈ profile.codePoints, isUpper c = false := by
  obtain ⟨c, tail, heq, hfirst, hlow, -, hrest⟩ := isToken_iff.mp h
  have hpoints : profile.codePoints = c :: tail := heq
  rw [hpoints, List.forall_mem_cons, ← isLowerAlnum_iff hfirst]
  constructor
  · intro h'
    obtain ⟨c', tail', heq', hfirst', -, -, hrest'⟩ := isToken_iff.mp h'
    rw [heq] at heq'
    obtain ⟨rfl, rfl⟩ := List.cons.inj heq'
    exact ⟨hfirst', fun x hx => (isLowerPathChar_iff (hrest x hx)).mp (hrest' x hx)⟩
  · rintro ⟨hfirst', htail⟩
    refine isToken_iff.mpr ⟨c, tail, heq, hfirst', by omega, nofun, fun x hx => ?_⟩
    exact (isLowerPathChar_iff (hrest x hx)).mpr (htail x hx)

/-! ## 4. Versions -/

theorem isDigit_of_isNumeral {points : List Nat} (h : isNumeral points = true) :
    ∀ c ∈ points, PyStr.isDigit c = true := by
  unfold isNumeral at h
  split at h
  · cases h
  · exact List.forall_mem_singleton.mpr rfl
  · simp only [Bool.and_eq_true, List.all_eq_true] at h
    exact List.forall_mem_cons.mpr ⟨h.1.2, h.2⟩

/-- A version is made of digits and points. -/
theorem nameChar_of_isSemver {version : PyStr} (h : isSemver version = true) :
    ∀ c ∈ version.codePoints, Handoff.isNameChar c = true := by
  simp only [isSemver, Bool.and_eq_true, List.all_eq_true] at h
  intro c hc
  rcases mem_splitOn '.'.toNat hc with rfl | ⟨part, hpart, hmem⟩
  · decide
  · have hnumeral := h.2 ⟨part⟩ (List.mem_map.mpr ⟨part, hpart, rfl⟩)
    have hdigit := isDigit_of_isNumeral hnumeral c hmem
    simp [Handoff.isNameChar, isAlnum, hdigit]

/-- The hand-off admits the name of the archive of a version of at most 175 characters. -/
theorem handoff_name_iff {version : PyStr} (h : isSemver version = true) :
    Handoff.isName (Handoff.archiveName version) = true ↔ version.length ≤ 175 := by
  have hpoints : (Handoff.archiveName version).codePoints =
      108 :: ((ofString "it-supplementary-").codePoints ++ version.codePoints ++
        (ofString ".tar.gz").codePoints) := rfl
  have hlength : ((ofString "it-supplementary-").codePoints ++ version.codePoints ++
      (ofString ".tar.gz").codePoints).length = version.length + 24 := by
    rw [List.length_append, List.length_append, PyStr.length]
    change 17 + version.codePoints.length + 7 = _
    omega
  constructor
  · intro h'
    obtain ⟨c', tail', heq', -, -, hhigh', -⟩ := isToken_iff.mp h'
    rw [hpoints] at heq'
    obtain ⟨-, rfl⟩ := List.cons.inj heq'
    have hshort := hhigh' 199 rfl
    omega
  · intro hshort
    refine isToken_iff.mpr ⟨108, _, hpoints, rfl, Nat.zero_le _, ?_, ?_⟩
    · rintro _ ⟨⟩
      omega
    · rw [List.forall_mem_append, List.forall_mem_append]
      exact ⟨⟨by decide, nameChar_of_isSemver h⟩, by decide⟩

end Supplementary.Security
