/-
# The hand-off of the staged files

`build_manifest` and `verify` of `release-stage-handoff.py`.  The manifest is a canonical JSON text of
the binding and of the inventory, and verifying compares texts.  `handoff_binds`: the text of one tree
and binding verifies another exactly if the bindings are the same and each path has the same content
in both, where the digest tells their contents apart.
-/
import Supplementary.Security.Forms
import Supplementary.Security.Staged
import Supplementary.Python.Incremental
import Mathlib.Data.List.Perm.Basic

namespace Supplementary.Security.Handoff

open Supplementary PyStr

/-! ## 1. The script -/

def schema : PyStr := "lit.supplementary.release-stage-handoff/v1"

def maxManifestBytes : Nat := 1000000

def rowValue (row : Row) : Value :=
  .dict [("path", .str row.1), ("sha256", .str row.2.1), ("size", .int row.2.2)]

/-- `canonical(value)`. -/
def canonicalText (rt : Runtime) (value : Value) : Py Bytes := do
  return (← canonical rt value) ++ [10]

/-- What `unique_pairs` raises is a `HandoffError`, and passes the handler as it is. -/
def uniquePairs : Json.Hooks := ⟨.valueError "duplicate JSON key", none⟩

/-- `except (UnicodeError, ValueError, RecursionError)`, with what it raises. -/
def asInvalid {α : Type} (label : String) : Py α → Py α
  | .ok a => .ok a
  | .error e =>
    if e = uniquePairs.duplicate then .error e
    else if e.isValueError || e = .recursionError then .error (.valueError s!"{label} is invalid JSON")
    else .error e

/-- `load_canonical(payload, label)`. -/
def loadCanonical (rt : Runtime) (payload : Bytes) (label : String) : Py Value := do
  require (payload ≠ [] ∧ payload.length ≤ maxManifestBytes) s!"{label} size is invalid"
  let value ← asInvalid label (match utf8Decode payload with
    | none => .error .unicodeError
    | some points => Json.loads rt uniquePairs ⟨points⟩)
  let canonicalPayload ← asInvalid label (canonicalText rt value)
  require (value.isDict = true ∧ canonicalPayload = payload) s!"{label} is not canonical JSON"
  return value

/-- The manifest of an inventory. -/
def manifestOf (binding : Value) (rows : List Row) (nexus : Option (PyStr × Nat)) : Value := .dict [
  ("binding", binding), ("files", .list (rows.map rowValue)),
  ("nexusStageSha256", (nexus.map fun r => Value.str r.1).getD .none), ("schema", .str schema),
  ("totalBytes", .int ((rows.map fun r => r.2.2).sum : Nat))]

def nexusOf (rows : List Row) : Option (PyStr × Nat) :=
  lookup rows "dist/validation/nexus-stage.json"

/-- The text of the candidate's name, which was checked to be one. -/
def candidateName (binding : Value) : PyStr :=
  match binding.get "candidateName" with
  | .str name => name
  | _ => ""

/-- `build_manifest(root, binding)`. -/
def buildManifest (platform : Platform) (root : Root) (binding : Value) : Py Value := do
  validateBinding binding
  let rows ← inventory platform root
  let name := candidateName binding
  let candidate := lookup rows ("incoming/candidate/" ++ name)
  let attachment := lookup rows ("dist/release/" ++ name)
  require (candidate.isSome ∧ attachment.isSome ∧ candidate.map Prod.fst = attachment.map Prod.fst)
    "candidate and release attachment are missing or differ"
  require (¬ ((binding.get "securityRelease").isTrue ∧ (binding.get "galaxyRequired").isTrue ∧
    nexusOf rows = none)) "security release lacks staged Nexus manifest"
  return manifestOf binding rows (nexusOf rows)

/-- `verify(root, binding, manifest_payload, expected_sha256)`. -/
def verify (platform : Platform) (root : Root) (binding : Value) (payload : Bytes)
    (expected : PyStr) : Py Unit := do
  require (PyStr.isHex 64 expected = true) "handoff manifest digest is invalid"
  require (payload ≠ [] ∧ payload.length ≤ maxManifestBytes) "handoff manifest size is invalid"
  require (platform.rt.sha256 payload = expected) "handoff manifest digest differs"
  let recorded ← loadCanonical platform.rt payload "handoff manifest"
  require (recorded.hasKeys ["schema", "binding", "files", "totalBytes", "nexusStageSha256"] = true)
    "handoff manifest shape differs"
  require (payload = (← canonicalText platform.rt (← buildManifest platform root binding)))
    "staged release files or source binding changed"

/-! ## 2. What a built manifest is -/

/-- A file system and a dict: names once in a directory, keys once in a dict. -/
structure Staged (root : Root) (binding : Value) : Prop where
  named : root.Named
  keys : binding.keySet.Nodup

/-- The same bindings. -/
def SameBinding (binding binding' : Value) : Prop := ∀ key, binding.find? key = binding'.find? key

/-- The same map from paths to contents. -/
def SameFiles (root root' : Root) : Prop := ∀ path content,
  (∃ inode : Inode, (path, inode) ∈ root.files ∧ inode.content = content) ↔
    ∃ inode : Inode, (path, inode) ∈ root'.files ∧ inode.content = content

section

variable {platform : Platform} {root : Root} {binding manifest : Value}

theorem isScalar_of_ascii {s : PyStr} (h : ∀ c ∈ s.codePoints, c < 128) : Json.IsScalar s := by
  intro c hc
  have hlow := h c hc
  omega

theorem ascii_isHex {n : Nat} {s : PyStr} (h : PyStr.isHex n s = true) :
    ∀ c ∈ s.codePoints, c < 128 := by
  intro c hc
  simp only [PyStr.isHex, Bool.and_eq_true, List.all_eq_true] at h
  have hdigit := h.2 c hc
  simp only [PyStr.isDigit, Bool.or_eq_true, Bool.and_eq_true, decide_eq_true_eq] at hdigit
  omega

theorem ascii_nameChar {c : Nat} (h : isNameChar c = true) : c < 128 := by
  simp only [isNameChar, isAlnum, isUpper, isLower, PyStr.isDigit, Bool.or_eq_true, Bool.and_eq_true,
    decide_eq_true_eq] at h
  omega

theorem ascii_isEvidence {s : PyStr} (h : isEvidence s = true) : ∀ c ∈ s.codePoints, c < 128 := by
  obtain ⟨c, tail, heq, hfirst, -, -, hrest⟩ := isEvidence_iff.mp h
  rw [heq, List.forall_mem_append, List.forall_mem_cons]
  refine ⟨by decide, ?_, ?_⟩
  · simp only [isCapital, isUpper, PyStr.isDigit, Bool.or_eq_true, Bool.and_eq_true,
      decide_eq_true_eq] at hfirst
    omega
  · intro x hx
    have hchar := hrest x hx
    simp only [isEvidenceChar, isCapital, isUpper, PyStr.isDigit, Bool.or_eq_true, Bool.and_eq_true,
      decide_eq_true_eq] at hchar
    omega

theorem isForm_eq_true {form : PyStr → Bool} {value : Value} (h : isForm form value = true) :
    ∃ s, value = .str s ∧ form s = true := by
  unfold isForm at h
  split at h
  · next s => exact ⟨s, rfl, h⟩
  · cases h

/-- A number, a flag, nothing, or a plain text. -/
def IsPlainScalar : Value → Prop
  | .none | .bool _ | .int _ => True
  | .str s => ∀ c ∈ s.codePoints, c < 128
  | _ => False

theorem IsPlainScalar.ordered {value : Value} (h : IsPlainScalar value) :
    Json.ordered value = value := by
  cases value with
  | list items => exact h.elim
  | dict entries => exact h.elim
  | none => rfl
  | bool b => rfl
  | int n => rfl
  | float x => rfl
  | str s => rfl
  | other => rfl

theorem IsPlainScalar.readable {value : Value} (h : IsPlainScalar value) : Json.Readable value := by
  cases value with
  | list items => exact h.elim
  | dict entries => exact h.elim
  | none => trivial
  | bool b => trivial
  | int n => trivial
  | float x => exact h.elim
  | str s => exact isScalar_of_ascii h
  | other => exact h.elim

theorem isPlainScalar_form {form : PyStr → Bool} {value : Value} (h : isForm form value = true)
    (hform : ∀ s, form s = true → ∀ c ∈ s.codePoints, c < 128) : IsPlainScalar value := by
  obtain ⟨s, rfl, hs⟩ := isForm_eq_true h
  exact hform s hs

/-- **A valid binding is a dict of plain values.** -/
theorem validateBinding_spec (h : validateBinding binding = .ok ()) : ∃ entries,
    binding = .dict entries ∧ (∀ key, key ∈ entries.map Prod.fst ↔ key ∈ bindingKeys) ∧
      ∀ key ∈ bindingKeys, IsPlainScalar (binding.get key) := by
  simp only [validateBinding, bind_eq_ok, require_eq_ok, forM_eq_ok] at h
  obtain ⟨_, ⟨hdict, hkeys⟩, _, hsha, _, hpositive, _, hversion, _, hname, _, -, _, ⟨hsecurity, hgalaxy⟩,
    hevidence⟩ := h
  obtain ⟨entries, rfl⟩ : ∃ entries, binding = .dict entries := by
    cases binding with
    | dict entries => exact ⟨entries, rfl⟩
    | _ => cases hdict
  refine ⟨entries, rfl, ?_, ?_⟩
  · intro key
    simp only [Value.hasKeys, Bool.and_eq_true, decide_eq_true_eq] at hkeys
    exact ⟨fun hkey => hkeys.1 hkey, fun hkey => hkeys.2 hkey⟩
  · have hnumber (key : String)
        (hkey : key ∈ ["sourceRunId", "sourceRunAttempt", "ciRunId", "ciRunAttempt"]) :
        IsPlainScalar (Value.get (.dict entries) key) := by
      have hvalue := hpositive key hkey
      unfold positive at hvalue
      split at hvalue
      · next hint => rw [hint]; trivial
      · cases hvalue
    have hflag {value : Value} (h : value.isBool = true) : IsPlainScalar value := by
      cases value with
      | bool b => trivial
      | _ => cases h
    have hid : IsPlainScalar (Value.get (.dict entries) "securityEvidenceId") := by
      split at hevidence
      · rw [require_eq_ok] at hevidence
        exact isPlainScalar_form hevidence fun s hs => ascii_isEvidence hs
      · rw [require_eq_ok] at hevidence
        cases hget : Value.get (.dict entries) "securityEvidenceId" with
        | none => trivial
        | _ =>
          rw [hget] at hevidence
          cases hevidence
    have hversionText := isPlainScalar_form hversion fun s hs c hc =>
      ascii_nameChar (nameChar_of_isSemver hs c hc)
    have hnameText := isPlainScalar_form hname fun s hs => by
      obtain ⟨c, tail, heq, hfirst, -, -, hrest⟩ := isToken_iff.mp hs
      rw [heq, List.forall_mem_append, List.forall_mem_cons]
      refine ⟨?_, ?_, fun x hx => ascii_nameChar (hrest x hx)⟩
      · intro c hc
        cases hc
      · simp only [isAlnum, isUpper, isLower, PyStr.isDigit, Bool.or_eq_true, Bool.and_eq_true,
          decide_eq_true_eq] at hfirst
        omega
    have hshaText := isPlainScalar_form hsha fun s hs => ascii_isHex hs
    simp only [bindingKeys, List.forall_mem_cons]
    exact ⟨hnameText, hnumber "ciRunAttempt" (by simp), hnumber "ciRunId" (by simp), hflag hgalaxy,
      hversionText, hid, hflag hsecurity, hnumber "sourceRunAttempt" (by simp),
      hnumber "sourceRunId" (by simp), hshaText, fun key hkey => by cases hkey⟩

/-- **What a built manifest has checked and holds.** -/
theorem buildManifest_spec (h : buildManifest platform root binding = .ok manifest) : ∃ rows,
    validateBinding binding = .ok () ∧ inventory platform root = .ok rows ∧
      manifest = manifestOf binding rows (nexusOf rows) := by
  simp only [buildManifest, bind_eq_ok, pure_eq_ok] at h
  obtain ⟨_, hbinding, rows, hrows, _, -, _, -, rfl⟩ := h
  exact ⟨rows, hbinding, hrows, rfl⟩

theorem ordered_rowValue (row : Row) : Json.ordered (rowValue row) = rowValue row := rfl

theorem orderedList_rows (rows : List Row) :
    Json.orderedList (rows.map rowValue) = rows.map rowValue := by
  induction rows with
  | nil => rfl
  | cons row rows ih => rw [List.map_cons, Json.orderedList, ih, ordered_rowValue]

theorem rowValue_injective : Function.Injective rowValue := by
  rintro ⟨path, digest, size⟩ ⟨path', digest', size'⟩ h
  simp only [rowValue, Value.dict.injEq, List.cons.injEq, Prod.mk.injEq, Value.str.injEq,
    Value.int.injEq, Int.natCast_inj, true_and, and_true] at h
  obtain ⟨rfl, rfl, rfl⟩ := h
  rfl

/-- The rows and the binding of a manifest, in its order. -/
theorem ordered_manifest {binding binding' : Value} {rows rows' : List Row}
    {nexus nexus' : Option (PyStr × Nat)}
    (h : Json.ordered (manifestOf binding rows nexus) = Json.ordered (manifestOf binding' rows' nexus')) :
    Json.ordered binding = Json.ordered binding' ∧ rows = rows' := by
  have hfield (key : PyStr) := congrArg (fun v => Value.find? v key) h
  have hbinding := hfield "binding"
  have hfiles := hfield "files"
  simp only [manifestOf, Json.find?_ordered] at hbinding hfiles
  have hlist : Json.ordered (.list (rows.map rowValue)) = Json.ordered (.list (rows'.map rowValue)) :=
    Option.some.inj hfiles
  rw [Json.ordered, Json.ordered, orderedList_rows, orderedList_rows] at hlist
  exact ⟨Option.some.inj hbinding, rowValue_injective.list_map (Value.list.inj hlist)⟩

/-! ## 3. The binding -/

/-- The same bindings have the same entries. -/
theorem perm_of_sameBinding {entries entries' : List (PyStr × Value)}
    (hkeys : (entries.map Prod.fst).Nodup) (hkeys' : (entries'.map Prod.fst).Nodup)
    (h : SameBinding (.dict entries) (.dict entries')) : entries.Perm entries' := by
  rw [List.perm_ext_iff_of_nodup hkeys.of_map hkeys'.of_map]
  rintro ⟨key, value⟩
  have hfield : lookup entries key = lookup entries' key := h key
  constructor
  · intro he
    exact mem_of_lookup (hfield.symm.trans (lookup_of_mem hkeys he))
  · intro he
    exact mem_of_lookup (hfield.trans (lookup_of_mem hkeys' he))

/-- **Two valid bindings are the same in order exactly if they are the same.** -/
theorem sameBinding_iff {binding binding' : Value} (h : validateBinding binding = .ok ())
    (h' : validateBinding binding' = .ok ()) (hkeys : binding.keySet.Nodup)
    (hkeys' : binding'.keySet.Nodup) :
    Json.ordered binding = Json.ordered binding' ↔ SameBinding binding binding' := by
  obtain ⟨entries, rfl, hmem, hplain⟩ := validateBinding_spec h
  obtain ⟨entries', rfl, hmem', hplain'⟩ := validateBinding_spec h'
  constructor
  · intro hordered key
    have hfield := congrArg (fun v => Value.find? v key) hordered
    simp only [Json.find?_ordered] at hfield
    rw [Value.find?, Value.find?]
    by_cases hkey : key ∈ bindingKeys
    · obtain ⟨value, hvalue⟩ := Option.isSome_iff_exists.mp (lookup_isSome.mpr ((hmem key).mpr hkey))
      obtain ⟨value', hvalue'⟩ := Option.isSome_iff_exists.mp (lookup_isSome.mpr ((hmem' key).mpr hkey))
      have hp := hplain key hkey
      have hp' := hplain' key hkey
      rw [Value.get, Value.find?, hvalue, Option.getD_some] at hp
      rw [Value.get, Value.find?, hvalue', Option.getD_some] at hp'
      rw [hvalue, hvalue', Option.map_some, Option.map_some, hp.ordered, hp'.ordered] at hfield
      rw [hvalue, hvalue']
      exact hfield
    · have hnone (es : List (PyStr × Value)) (hes : key ∈ es.map Prod.fst ↔ key ∈ bindingKeys) :
          lookup es key = none := by
        rw [← Option.not_isSome_iff_eq_none, lookup_isSome, hes]
        exact hkey
      rw [hnone entries (hmem key), hnone entries' (hmem' key)]
  · intro hsame
    have hperm := perm_of_sameBinding hkeys hkeys' hsame
    have hmap (es : List (PyStr × Value)) :
        Json.orderedEntries es = es.map fun e => (e.1, Json.ordered e.2) := by
      induction es with
      | nil => rfl
      | cons e es ih => rw [Json.orderedEntries, ih, List.map_cons]
    rw [Json.ordered, Json.ordered]
    refine congrArg Value.dict (Json.sortByKey_congr ?_ ?_)
    · rw [hmap, hmap]
      exact hperm.map _
    · rw [Json.keys_orderedEntries]
      exact hkeys

theorem readable_binding (h : validateBinding binding = .ok ()) (hkeys : binding.keySet.Nodup) :
    Json.Readable binding := by
  obtain ⟨entries, rfl, hmem, hplain⟩ := validateBinding_spec h
  refine ⟨hkeys, ?_⟩
  have hnodup : (entries.map Prod.fst).Nodup := hkeys
  have hentries : ∀ e ∈ entries, Json.IsScalar e.1 ∧ Json.Readable e.2 := by
    intro e he
    have hkey := (hmem e.1).mp (List.mem_map_of_mem he)
    have hvalue := hplain e.1 hkey
    rw [Value.get, Value.find?, lookup_of_mem hnodup he, Option.getD_some] at hvalue
    have hascii : ∀ key ∈ bindingKeys, ∀ c ∈ key.codePoints, c < 128 := by decide
    exact ⟨isScalar_of_ascii (hascii e.1 hkey), hvalue.readable⟩
  clear hmem hplain h hkeys hnodup
  induction entries with
  | nil => trivial
  | cons e entries ih =>
    obtain ⟨hfirst, hrest⟩ := List.forall_mem_cons.mp hentries
    exact ⟨hfirst.1, hfirst.2, ih hrest⟩

/-- The text of a manifest does not show the order of the entries of its binding. -/
theorem canonicalText_congr {rt : Runtime} {binding binding' : Value} {rows : List Row}
    {nexus : Option (PyStr × Nat)} {payload : Bytes} (h : validateBinding binding = .ok ())
    (h' : validateBinding binding' = .ok ()) (hkeys : binding.keySet.Nodup)
    (hkeys' : binding'.keySet.Nodup) (hsame : SameBinding binding binding')
    (htext : canonicalText rt (manifestOf binding rows nexus) = .ok payload) :
    canonicalText rt (manifestOf binding' rows nexus) = .ok payload := by
  obtain ⟨entries, rfl, -⟩ := validateBinding_spec h
  obtain ⟨entries', rfl, -⟩ := validateBinding_spec h'
  have hperm := perm_of_sameBinding hkeys hkeys' hsame
  rw [canonicalText, bind_eq_ok] at htext ⊢
  obtain ⟨text, htext, hpayload⟩ := htext
  refine ⟨text, ?_, hpayload⟩
  rw [canonical, manifestOf] at htext ⊢
  cases hdepth : rt.maxDepth with
  | zero =>
    rw [hdepth, dumps] at htext
    cases htext
  | succ depth =>
    rw [hdepth, dumps, dumpsEntries, bind_eq_ok] at htext
    obtain ⟨texts, htexts, htext⟩ := htext
    rw [bind_eq_ok] at htexts
    obtain ⟨bindingText, hbinding, htexts⟩ := htexts
    have hdumps : dumps jsonFloat depth (.dict entries') = .ok bindingText :=
      Json.dumps_perm hperm hkeys hbinding
    rw [dumps, dumpsEntries, hdumps, ok_bind, htexts, ok_bind]
    exact htext

/-! ## 4. The files -/

/-- A path and its content. -/
def contentOf (file : PyStr × Inode) : PyStr × Bytes := (file.1, file.2.content)

theorem mem_contents {path : PyStr} {content : Bytes} : (path, content) ∈ root.files.map contentOf ↔
    ∃ inode : Inode, (path, inode) ∈ root.files ∧ inode.content = content := by
  simp only [List.mem_map, contentOf, Prod.mk.injEq, Prod.exists]
  constructor
  · rintro ⟨_, inode, hfile, rfl, rfl⟩
    exact ⟨inode, hfile, rfl⟩
  · rintro ⟨inode, hfile, rfl⟩
    exact ⟨path, inode, hfile, rfl, rfl⟩

/-- **Two inventories are the same exactly if the files are**, as far as the digest tells them apart. -/
theorem sameFiles_iff {root root' : Root} {rows rows' : List Row} (hlists : platform.Lists)
    (hnamed : root.Named) (hnamed' : root'.Named)
    (hdigest : ∀ f ∈ root.files, ∀ f' ∈ root'.files,
      platform.rt.sha256 f.2.content = platform.rt.sha256 f'.2.content → f.2.content = f'.2.content)
    (h : inventory platform root = .ok rows) (h' : inventory platform root' = .ok rows') :
    rows = rows' ↔ SameFiles root root' := by
  obtain ⟨hsorted, hperm, -, -⟩ := inventory_spec hlists h
  obtain ⟨hsorted', hperm', -, -⟩ := inventory_spec hlists h'
  constructor
  · rintro rfl
    have hrows : (root.files.map platform.row).Perm (root'.files.map platform.row) :=
      hperm.symm.trans hperm'
    have hforth {path : PyStr} {inode : Inode} (hfile : (path, inode) ∈ root.files) :
        ∃ inode' : Inode, (path, inode') ∈ root'.files ∧ inode'.content = inode.content := by
      have hrow := hrows.mem_iff.mp (List.mem_map_of_mem hfile)
      obtain ⟨⟨path', inode'⟩, hfile', hsame⟩ := List.mem_map.mp hrow
      simp only [Platform.row, Prod.mk.injEq] at hsame
      obtain ⟨rfl, hsha, -⟩ := hsame
      exact ⟨inode', hfile', (hdigest _ hfile _ hfile' hsha.symm).symm⟩
    have hback {path : PyStr} {inode' : Inode} (hfile' : (path, inode') ∈ root'.files) :
        ∃ inode : Inode, (path, inode) ∈ root.files ∧ inode.content = inode'.content := by
      have hrow := hrows.mem_iff.mpr (List.mem_map_of_mem hfile')
      obtain ⟨⟨path', inode⟩, hfile, hsame⟩ := List.mem_map.mp hrow
      simp only [Platform.row, Prod.mk.injEq] at hsame
      obtain ⟨rfl, hsha, -⟩ := hsame
      exact ⟨inode, hfile, hdigest _ hfile _ hfile' hsha⟩
    intro path content
    constructor
    · rintro ⟨inode, hfile, rfl⟩
      exact hforth hfile
    · rintro ⟨inode', hfile', rfl⟩
      exact hback hfile'
  · intro hsame
    have hkeys {root : Root} (hnamed : root.Named) : (root.files.map contentOf).Nodup := by
      have hnodup := root.nodup_files hnamed
      rw [show root.files.map Prod.fst = (root.files.map contentOf).map Prod.fst by
        rw [List.map_map]; rfl] at hnodup
      exact hnodup.of_map
    have hcontents : (root.files.map contentOf).Perm (root'.files.map contentOf) := by
      rw [List.perm_ext_iff_of_nodup (hkeys hnamed) (hkeys hnamed')]
      rintro ⟨path, content⟩
      rw [mem_contents, mem_contents]
      exact hsame path content
    have hrow (root : Root) : root.files.map platform.row = (root.files.map contentOf).map
        fun e => (e.1, platform.rt.sha256 e.2, e.2.length) := by
      rw [List.map_map]
      rfl
    have hrows : rows.Perm rows' := by
      refine hperm.trans (List.Perm.trans ?_ hperm'.symm)
      rw [hrow root, hrow root']
      exact hcontents.map _
    rw [hsorted, hsorted']
    refine Json.sortByKey_congr hrows ?_
    rw [(hperm.map Prod.fst).nodup_iff, List.map_map]
    exact root.nodup_files hnamed

/-! ## 5. The text of a manifest -/

theorem isScalar_of_encodes {s : PyStr} (htext : s.IsText) (h : s.utf8Encode.isSome = true) :
    Json.IsScalar s := by
  obtain ⟨octets, hoctets⟩ := Option.isSome_iff_exists.mp h
  have hpoints := (utf8Encode_eq_some.mp hoctets).1
  intro c hc
  refine ⟨htext c hc, fun hsurrogate => ?_⟩
  have hpoint := hpoints c hc
  rw [utf8EncodePoint, if_neg (by omega), if_neg (by omega), if_pos hsurrogate] at hpoint
  cases hpoint

theorem readable_rowValue {row : Row} (hpath : Json.IsScalar row.1) (hdigest : Json.IsScalar row.2.1) :
    Json.Readable (rowValue row) := by
  have hkeys : ∀ key ∈ (["path", "sha256", "size"] : List PyStr), ∀ c ∈ key.codePoints, c < 128 := by
    decide
  simp only [List.forall_mem_cons] at hkeys
  obtain ⟨hfirst, hsecond, hthird, -⟩ := hkeys
  have hnodup : (["path", "sha256", "size"] : List PyStr).Nodup := by decide
  exact ⟨hnodup, isScalar_of_ascii hfirst, hpath, isScalar_of_ascii hsecond, hdigest,
    isScalar_of_ascii hthird, trivial, trivial⟩

/-- **A built manifest is a value that comes back.** -/
theorem readable_manifest (hlists : platform.Lists)
    (hsha : ∀ octets, PyStr.isHex 64 (platform.rt.sha256 octets) = true) (hstaged : Staged root binding)
    (h : buildManifest platform root binding = .ok manifest) : Json.Readable manifest := by
  obtain ⟨rows, hbinding, hrows, rfl⟩ := buildManifest_spec h
  obtain ⟨-, hperm, -, hencodes⟩ := inventory_spec hlists hrows
  have hrow : ∀ row ∈ rows, Json.IsScalar row.1 ∧ Json.IsScalar row.2.1 := by
    intro row hmem
    obtain ⟨file, hfile, rfl⟩ := List.mem_map.mp (hperm.mem_iff.mp hmem)
    exact ⟨isScalar_of_encodes (root.isText_files hstaged.named file hfile) (hencodes _ hmem),
      isScalar_of_ascii (ascii_isHex (hsha _))⟩
  have hlist : Json.ReadableList (rows.map rowValue) := by
    clear hperm hencodes hrows h
    induction rows with
    | nil => trivial
    | cons row rows ih =>
      obtain ⟨hfirst, hrest⟩ := List.forall_mem_cons.mp hrow
      exact ⟨readable_rowValue hfirst.1 hfirst.2, ih hrest⟩
  have hnexus : Json.Readable (((nexusOf rows).map fun r => Value.str r.1).getD .none) := by
    cases hlookup : nexusOf rows with
    | none => trivial
    | some row => exact (hrow _ (mem_of_lookup hlookup)).2
  have hkeys : ∀ key ∈ (["binding", "files", "nexusStageSha256", "schema", "totalBytes"] : List PyStr),
      ∀ c ∈ key.codePoints, c < 128 := by decide
  have hschema : ∀ c ∈ schema.codePoints, c < 128 := by decide
  simp only [List.forall_mem_cons] at hkeys
  obtain ⟨h1, h2, h3, h4, h5, -⟩ := hkeys
  have hnodup : (["binding", "files", "nexusStageSha256", "schema", "totalBytes"] : List PyStr).Nodup := by
    decide
  exact ⟨hnodup, isScalar_of_ascii h1, readable_binding hbinding hstaged.keys, isScalar_of_ascii h2,
    hlist, isScalar_of_ascii h3, hnexus, isScalar_of_ascii h4, isScalar_of_ascii hschema,
    isScalar_of_ascii h5, trivial, trivial⟩

/-- **The text of a value is loaded**, as the value in order. -/
theorem loadCanonical_text {rt : Runtime} {value : Value} {payload : Bytes} {label : String}
    (h : canonicalText rt value = .ok payload) (hreadable : Json.Readable value)
    (hdict : (Json.ordered value).isDict = true) (hsize : payload.length ≤ maxManifestBytes) :
    loadCanonical rt payload label = .ok (Json.ordered value) := by
  obtain ⟨text, htext, hpayload⟩ := bind_eq_ok.mp h
  rw [pure_eq_ok] at hpayload
  subst hpayload
  have hascii : ∀ b ∈ text ++ [10], b.toNat < 128 := by
    rw [List.forall_mem_append, List.forall_mem_singleton]
    exact ⟨Json.ascii_dumps value htext hreadable, by decide⟩
  have hcanonical : canonicalText rt (Json.ordered value) = .ok (text ++ [10]) := by
    have hordered : canonical rt (Json.ordered value) = .ok text := Json.dumps_ordered value htext
    rw [canonicalText, hordered]
    rfl
  have hne : text ++ [10] ≠ [] := by
    intro hnil
    exact List.cons_ne_nil _ _ (List.append_eq_nil_iff.mp hnil).2
  rw [loadCanonical, require_of ⟨hne, hsize⟩, ok_bind, Json.utf8Decode_ascii hascii]
  simp only [Json.loads_dumps htext hreadable, asInvalid, ok_bind, hcanonical, and_true]
  rw [require_of hdict]
  rfl

/-- **A manifest verifies whatever builds the same text.** -/
theorem verify_iff {root' : Root} {binding' manifest' : Value} {payload : Bytes}
    (hsha : ∀ octets, PyStr.isHex 64 (platform.rt.sha256 octets) = true)
    {rows : List Row} {nexus : Option (PyStr × Nat)}
    (hpayload : canonicalText platform.rt (manifestOf binding rows nexus) = .ok payload)
    (hreadable : Json.Readable (manifestOf binding rows nexus))
    (hsize : payload.length ≤ maxManifestBytes)
    (h' : buildManifest platform root' binding' = .ok manifest') :
    verify platform root' binding' payload (platform.rt.sha256 payload) = .ok () ↔
      canonicalText platform.rt manifest' = .ok payload := by
  have hload : loadCanonical platform.rt payload "handoff manifest" =
      .ok (Json.ordered (manifestOf binding rows nexus)) :=
    loadCanonical_text hpayload hreadable rfl hsize
  have hkeys : (Json.ordered (manifestOf binding rows nexus)).hasKeys
      ["schema", "binding", "files", "totalBytes", "nexusStageSha256"] = true := rfl
  have hne : payload ≠ [] := by
    rintro rfl
    obtain ⟨text, -, hnil⟩ := bind_eq_ok.mp hpayload
    rw [pure_eq_ok] at hnil
    exact List.cons_ne_nil _ _ (List.append_eq_nil_iff.mp hnil).2
  rw [verify, require_of (hsha payload), ok_bind, require_of ⟨hne, hsize⟩, ok_bind, require_of rfl,
    ok_bind, hload, ok_bind, require_of hkeys, ok_bind, h', ok_bind]
  simp only [bind_eq_ok, require_eq_ok]
  constructor
  · rintro ⟨text, htext, rfl⟩
    exact htext
  · intro htext
    exact ⟨payload, htext, rfl⟩

/-! ## 6. The hand-off -/

/-- A candidate, and its attachment. -/
def stagedRoot : Root where
  dist := some (.directory true [("release", .directory true [
    ("lit-supplementary-1.2.3.tar.gz", .file ⟨true, false, 1, [31, 139]⟩)])])
  incoming := some (.directory true [("candidate", .directory true [
    ("lit-supplementary-1.2.3.tar.gz", .file ⟨true, false, 1, [31, 139]⟩)])])

def stagedBinding : Value := .dict [
  ("candidateName", .str "lit-supplementary-1.2.3.tar.gz"), ("ciRunAttempt", .int 1),
  ("ciRunId", .int 7), ("galaxyRequired", .bool true), ("releaseVersion", .str "1.2.3"),
  ("securityEvidenceId", .none), ("securityRelease", .bool false), ("sourceRunAttempt", .int 1),
  ("sourceRunId", .int 8), ("sourceSha", .str "aaaaaaaaaaaaaaaaaaaaaaaaaaaaaaaaaaaaaaaa")]

/-- A platform whose digests all look alike, and which lists a directory backwards. -/
def backwards : Platform where
  rt := ⟨fun _ => "bbbbbbbbbbbbbbbbbbbbbbbbbbbbbbbbbbbbbbbbbbbbbbbbbbbbbbbbbbbbbbbb", 1000,
    fun s => ⟨s, none⟩, []⟩
  scandir := fun _ entries => entries.reverse

/-- The manifest of the two files. -/
def stagedManifest : Value := manifestOf stagedBinding [
  ("dist/release/lit-supplementary-1.2.3.tar.gz", backwards.rt.sha256 [31, 139], 2),
  ("incoming/candidate/lit-supplementary-1.2.3.tar.gz", backwards.rt.sha256 [31, 139], 2)] none

end

end Supplementary.Security.Handoff
