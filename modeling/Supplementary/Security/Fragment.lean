/-
# The Security fragment

The fragment of the changelog that a Security release adds is a text of a fixed form: a line for each
entry, with the entry as a JSON string literal.  The writer makes it from the entries, and the reader
accepts only what the writer would make of the entries that it has read.

`fragment_inverse`: the two are inverse.  The reader splits at every line end that Python knows, and
the writer escapes them all.
-/
import Supplementary.Python.Literal
import Supplementary.Python.Split
import Supplementary.Security.Intake

namespace Supplementary.Security

open Supplementary PyStr

/-! ## 1. The two functions -/

/-- `MAX_SECURITY_FRAGMENT_BYTES`. -/
def maxSecurityFragmentBytes : Nat := 1024 * 1024

/-- `json.dumps(entry, ensure_ascii=True)`. -/
def literal (entry : PyStr) : PyStr := ⟨Json.points (jsonString entry)⟩

/-- `text.encode("utf-8")`. -/
def encode (text : PyStr) : Py Bytes :=
  match text.utf8Encode with
  | some octets => .ok octets
  | none => .error .unicodeError

/-- `canonical_security_fragment_bytes(entries)`. -/
def canonicalSecurityFragmentBytes : Value → Py Bytes
  | .list entries => do
    require (1 ≤ entries.length ∧ entries.length ≤ 64)
      "security_fixes entries must be a list containing 1..64 items"
    let validatedEntries ← entries.mapM (requireString · "security_fixes entry")
    let lines := (["---", "security_fixes:"] : List PyStr) ++
      validatedEntries.map fun entry => ("  - " : PyStr) ++ literal entry
    let raw ← encode (.join "\n" lines ++ "\n")
    require (raw.length ≤ maxSecurityFragmentBytes) "security_fixes fragment exceeds 1048576 bytes"
    .ok raw
  | _ => .error (.valueError "security_fixes entries must be a list containing 1..64 items")

/-- One entry of the fragment.  An object in its place is refused whether it repeats a key or not,
and so is a constant that is no JSON. -/
def readEntry (rt : Runtime) (label : String) (line : PyStr) : Py PyStr := do
  require (line.startsWith "  - " = true)
    s!"{label} must use canonical repository security_fixes YAML"
  let hooks : Json.Hooks :=
    { duplicate := .valueError s!"{label} security_fixes entries must be strings",
      constant := some (.valueError s!"{label} has invalid scalar") }
  match Json.loads rt hooks ⟨line.codePoints.drop 4⟩ with
  | .ok (.str entry) => requireString (.str entry) s!"{label} security_fixes entry"
  | .ok _ => .error (.valueError s!"{label} security_fixes entries must be strings")
  | .error .jsonDecodeError =>
    .error (.valueError s!"{label} contains an invalid quoted YAML scalar")
  | .error e => .error e

/-- `validate_security_fragment(raw, label)`, by the list under its only key. -/
def validateSecurityFragment (rt : Runtime) (raw : Bytes) (label : String) : Py (List PyStr) := do
  require (raw.length ≤ maxSecurityFragmentBytes) s!"{label} exceeds 1048576 bytes"
  match utf8Decode raw with
  | none => .error (.valueError s!"{label} is not valid UTF-8 YAML")
  | some text => do
    let lines := (PyStr.mk text).splitLines
    require (3 ≤ lines.length ∧ lines.take 2 = (["---", "security_fixes:"] : List PyStr))
      s!"{label} must use canonical repository security_fixes YAML"
    let entries ← (lines.drop 2).mapM (readEntry rt label)
    require (entries ≠ [] ∧ entries.length ≤ 64)
      s!"{label} must contain 1..64 non-empty trimmed security_fixes entries"
    require (raw = (← canonicalSecurityFragmentBytes (.list (entries.map .str))))
      s!"{label} must be canonical repository YAML with one trailing newline"
    .ok entries

/-! ## 2. What the writer writes -/

section

variable {entries : List PyStr} {raw : Bytes} {rt : Runtime} {label : String}

/-- The lines of a fragment. -/
def fragmentLines (entries : List PyStr) : List PyStr :=
  (["---", "security_fixes:"] : List PyStr) ++ entries.map fun entry => ("  - " : PyStr) ++ literal entry

/-- What the lines are made of: printable ASCII. -/
theorem printable_fragmentLines :
    ∀ line ∈ fragmentLines entries, ∀ c ∈ line.codePoints, 32 ≤ c ∧ c ≤ 126 := by
  intro line hline
  rw [fragmentLines, List.mem_append] at hline
  rcases hline with hline | hline
  · simp only [List.mem_cons, List.not_mem_nil, or_false] at hline
    rcases hline with rfl | rfl
    · decide
    · decide
  · obtain ⟨entry, -, rfl⟩ := List.mem_map.mp hline
    rw [codePoints_append, List.forall_mem_append]
    refine ⟨by decide, fun c hc => ?_⟩
    obtain ⟨b, hb, rfl⟩ := List.mem_map.mp hc
    exact Json.printable_jsonString entry b hb

theorem lineEnd_of_printable {c : Nat} (h : 32 ≤ c ∧ c ≤ 126) : isLineEnd c = false := by
  simp only [isLineEnd, Bool.or_eq_false_iff, Bool.and_eq_false_iff, decide_eq_false_iff_not]
  omega

/-- What an accepted string is: the string that was handed in. -/
theorem requireString_eq_ok {s t : PyStr} :
    requireString (.str s) label = .ok t ↔ s = t ∧ isTrimmed s = true ∧ isSingleLine s = true := by
  simp only [requireString, bind_eq_ok, require_eq_ok, pure_eq_ok]
  constructor
  · rintro ⟨_, htrimmed, _, hline, heq⟩
    exact ⟨heq, htrimmed, hline⟩
  · rintro ⟨heq, htrimmed, hline⟩
    exact ⟨(), htrimmed, (), hline, heq⟩

/-- What a written fragment is. -/
theorem canonical_eq_ok (h : canonicalSecurityFragmentBytes (.list (entries.map .str)) = .ok raw) :
    (1 ≤ entries.length ∧ entries.length ≤ 64) ∧
      (∀ s ∈ entries, isTrimmed s = true ∧ isSingleLine s = true) ∧
      (ofLines (fragmentLines entries)).utf8Encode = some raw ∧
      raw.length ≤ maxSecurityFragmentBytes := by
  simp only [canonicalSecurityFragmentBytes, bind_eq_ok, require_eq_ok, List.length_map] at h
  obtain ⟨_, hcount, validated, hvalidated, octets, hencode, _, hlength, ⟨⟩⟩ := h
  have hall := mapM_eq_ok hvalidated
  rw [List.forall₂_map_left_iff] at hall
  have hsame : validated = entries ∧ ∀ s ∈ entries, isTrimmed s = true ∧ isSingleLine s = true := by
    clear hcount hvalidated hencode
    induction hall with
    | nil => exact ⟨rfl, List.forall_mem_nil _⟩
    | cons hone _ ih =>
      obtain ⟨rfl, hform⟩ := requireString_eq_ok.mp hone
      exact ⟨congrArg _ ih.1, List.forall_mem_cons.mpr ⟨hform, ih.2⟩⟩
  obtain ⟨rfl, hforms⟩ := hsame
  refine ⟨hcount, hforms, ?_, hlength⟩
  have htext : join "\n" (fragmentLines validated) ++ ("\n" : PyStr) =
      ofLines (fragmentLines validated) := join_newline (by simp [fragmentLines])
  unfold encode at hencode
  split at hencode
  · next hsome =>
    cases hencode
    rw [← htext]
    exact hsome
  · cases hencode

/-! ## 3. Reading it back -/

/-- The line of an entry is read as this entry. -/
theorem readEntry_line {entry : PyStr} (hscalar : Json.IsScalar entry)
    (hform : isTrimmed entry = true ∧ isSingleLine entry = true) :
    readEntry rt label ("  - " ++ literal entry) = .ok entry := by
  have hstart : ((("  - " : PyStr) ++ literal entry).startsWith "  - ") = true :=
    List.isPrefixOf_iff_prefix.mpr ⟨(literal entry).codePoints, rfl⟩
  have hdrop : (("  - " : PyStr) ++ literal entry).codePoints.drop 4 =
      (literal entry).codePoints := rfl
  simp only [readEntry, require, raiseUnless_of hstart, ok_bind]
  rw [hdrop, literal, Json.loads_jsonString _ _ hscalar.isText, hscalar.reload]
  exact requireString_eq_ok.mpr ⟨rfl, hform⟩

theorem validate_of_canonical (hscalar : ∀ s ∈ entries, Json.IsScalar s)
    (h : canonicalSecurityFragmentBytes (.list (entries.map .str)) = .ok raw) :
    validateSecurityFragment rt raw label = .ok entries := by
  obtain ⟨hcount, hforms, hencode, hlength⟩ := canonical_eq_ok h
  have htext : (ofLines (fragmentLines entries)).IsText := by
    intro c hc
    obtain ⟨line, hline, hmem⟩ := List.mem_flatMap.mp hc
    rcases List.mem_append.mp hmem with hmem | hmem
    · have hbound := (printable_fragmentLines line hline c hmem).2
      omega
    · rw [List.mem_singleton.mp hmem]
      omega
  have hdecode := utf8Decode_utf8Encode htext hencode
  have hlines : (PyStr.mk (ofLines (fragmentLines entries)).codePoints).splitLines =
      fragmentLines entries := splitLines_ofLines fun line hline c hc =>
    lineEnd_of_printable (printable_fragmentLines line hline c hc)
  have hread : (entries.map fun entry => ("  - " : PyStr) ++ literal entry).mapM
      (readEntry rt label) = .ok entries := by
    clear hcount hencode hlength hlines hdecode htext h
    induction entries with
    | nil => rfl
    | cons entry entries ih =>
      rw [List.map_cons, List.mapM_cons, readEntry_line (hscalar entry List.mem_cons_self)
        (hforms entry List.mem_cons_self), ok_bind,
        ih (fun s hs => hscalar s (List.mem_cons_of_mem _ hs))
          fun s hs => hforms s (List.mem_cons_of_mem _ hs)]
      rfl
  simp only [validateSecurityFragment, hdecode, hlines, bind_eq_ok, require_eq_ok]
  refine ⟨(), hlength, (), ⟨?_, rfl⟩, entries, hread, (), ⟨?_, hcount.2⟩, raw, h, (), rfl, rfl⟩
  · simp only [fragmentLines, List.length_append, List.length_cons, List.length_nil,
      List.length_map]
    omega
  · rintro rfl
    exact absurd hcount.1 (by decide)

theorem canonical_of_validate (h : validateSecurityFragment rt raw label = .ok entries) :
    canonicalSecurityFragmentBytes (.list (entries.map .str)) = .ok raw := by
  simp only [validateSecurityFragment, bind_eq_ok, require_eq_ok] at h
  obtain ⟨_, -, h⟩ := h
  split at h
  · cases h
  · simp only [bind_eq_ok, require_eq_ok] at h
    obtain ⟨_, -, entries', -, _, -, raw', hcanonical, _, rfl, ⟨⟩⟩ := h
    exact hcanonical

end

/-- **The fragment's writer and reader are inverse.**  What is written for entries of scalar values
is read as these entries; what is read is what is written for the entries it is read as, so that no
two fragments are read as the same entries. -/
theorem fragment_inverse (rt : Runtime) (label label' : String) :
    (∀ entries raw, (∀ s ∈ entries, Json.IsScalar s) →
      canonicalSecurityFragmentBytes (.list (entries.map .str)) = .ok raw →
        validateSecurityFragment rt raw label = .ok entries) ∧
    (∀ raw entries, validateSecurityFragment rt raw label = .ok entries →
      canonicalSecurityFragmentBytes (.list (entries.map .str)) = .ok raw) ∧
    ∀ raw raw' entries, validateSecurityFragment rt raw label = .ok entries →
      validateSecurityFragment rt raw' label' = .ok entries → raw = raw' := by
  refine ⟨fun entries raw hscalar h => validate_of_canonical hscalar h,
    fun raw entries h => canonical_of_validate h, fun raw raw' entries h h' => ?_⟩
  have hsame := (canonical_of_validate h).symm.trans (canonical_of_validate h')
  exact Except.ok.inj hsame

/-- An entry with a line end, a quote and a character beyond the basic plane, and one without. -/
def sampleEntries : List PyStr := [⟨[65, 0x2028, 34, 0x1f512]⟩, "Fix."]

theorem fragment_inverse_sample (rt : Runtime) : ∃ raw,
    canonicalSecurityFragmentBytes (.list (sampleEntries.map .str)) = .ok raw ∧
      validateSecurityFragment rt raw "fragment" = .ok sampleEntries := by
  have hok : (canonicalSecurityFragmentBytes (.list (sampleEntries.map .str))).isOk = true := by
    decide +kernel
  obtain ⟨raw, hraw⟩ := exists_of_isOk hok
  have hscalar : ∀ s ∈ sampleEntries, Json.IsScalar s := by
    intro s hs c hc
    have hall : sampleEntries.all (fun s => s.codePoints.all fun c =>
        decide (c ≤ 0x10ffff ∧ ¬ (0xd800 ≤ c ∧ c ≤ 0xdfff))) = true := by decide +kernel
    exact of_decide_eq_true (List.all_eq_true.mp (List.all_eq_true.mp hall s hs) c hc)
  exact ⟨raw, hraw, (fragment_inverse rt "fragment" "fragment").1 sampleEntries raw hscalar hraw⟩

end Supplementary.Security
