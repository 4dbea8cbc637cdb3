/-
# The fingerprint of the worktree

`fingerprint_stream` hashes the JSON text of an object without ever holding its longest values: it
writes the punctuation itself, and of the outputs of `git diff` and `git status` it escapes one block
after the other.  `fingerprintObject` is the object, with the whole texts in it.

`fingerprint_buffered` says that the hash is fed the text that `json.dumps` makes of the object, so
the blocks in which the outputs arrive make no difference.
-/
import Supplementary.Python.Escaped
import Supplementary.Python.RoundTrip
import Supplementary.Python.Sha256

namespace Supplementary.Push

open PyStr

/-! ## 1. What `git` puts out -/

/-- The commands, by their arguments: the blocks of `stream_git(*args)`, which raises if the command
fails, and `git_output_at(cwd, *args)`. -/
structure Git where
  stream : List PyStr → Py (List Bytes)
  output : List PyStr → Py PyStr

def diffArgs : List PyStr := ["diff", "--no-ext-diff", "--no-textconv", "--binary", "HEAD", "--"]

def statusArgs : List PyStr := ["status", "--porcelain=v1", "--untracked-files=all", "-z"]

def headArgs : List PyStr := ["rev-parse", "HEAD"]

def treeArgs : List PyStr := ["write-tree"]

/-- `text.strip()`. -/
def strip (s : PyStr) : PyStr :=
  ⟨((s.codePoints.dropWhile isSpace).reverse.dropWhile isSpace).reverse⟩

/-- `decoded_git_chunks(*args)`. -/
def decodedGitChunks (git : Git) (args : List PyStr) : Py (List PyStr) := do
  let blocks ← git.stream args
  return decodedChunks [] false blocks

/-! ## 2. The stream -/

/-- `json.dumps(chunk, ensure_ascii=True)[1:-1]`. -/
def escapedChunk (chunk : PyStr) : Bytes := (jsonString chunk).tail.dropLast

/-- The parts of the entries, after the first one with a comma before it. -/
def entryParts : (first : Bool) → List (PyStr × PyStr) → List Bytes
  | _, [] => []
  | first, e :: entries =>
    (if first then [] else [bytes ","]) ++ [jsonString e.1, bytes ":", jsonString e.2] ++
      entryParts false entries

/-- `encoder.iterencode(untracked)`. -/
def iterencode (untracked : List (PyStr × PyStr)) : List Bytes :=
  if untracked = [] then [bytes "\x7b\x7d"]
  else [bytes "\x7b"] ++ entryParts true (sortByKey untracked) ++ [bytes "\x7d"]

/-- What `fingerprint_stream` feeds to the hash. -/
def fingerprintParts (git : Git) (untracked : List (PyStr × PyStr)) (integration : Bool) :
    Py (List Bytes) := do
  let diff ← decodedGitChunks git diffArgs
  let head ← git.output headArgs
  let tree ← if integration then do
      let tree ← git.output treeArgs
      pure [bytes ",\"index_tree\":", jsonString (strip tree)]
    else pure []
  let status ← decodedGitChunks git statusArgs
  return [bytes "\x7b\"diff\":\""] ++ diff.map escapedChunk ++
    [bytes "\",\"head\":", jsonString (strip head)] ++ tree ++
    [bytes ",\"status\":\""] ++ status.map escapedChunk ++
    [bytes "\",\"untracked\":"] ++ iterencode untracked ++ [bytes "\x7d"]

/-- `fingerprint_stream(cwd, untracked, integration=integration)`. -/
def fingerprintStream (git : Git) (untracked : List (PyStr × PyStr)) (integration : Bool) :
    Py PyStr := do
  let parts ← fingerprintParts git untracked integration
  return Sha256.hexdigest parts.flatten

/-! ## 3. The object -/

/-- The names and digests of the untracked files, as JSON. -/
def untrackedObject (untracked : List (PyStr × PyStr)) : Value :=
  .dict (untracked.map fun e => (e.1, .str e.2))

/-- The object that the fingerprint is of; it has a tree during an integration only. -/
def fingerprintObject (diff head : PyStr) (tree : Option PyStr) (status : PyStr)
    (untracked : List (PyStr × PyStr)) : Value :=
  let before : List (PyStr × Value) := [("diff", .str diff), ("head", .str head)]
  let between : List (PyStr × Value) := tree.toList.map fun tree => ("index_tree", .str tree)
  let after : List (PyStr × Value) :=
    [("status", .str status), ("untracked", untrackedObject untracked)]
  .dict (before ++ between ++ after)

section

variable {git git' : Git} {untracked : List (PyStr × PyStr)} {integration : Bool}

theorem escapedChunk_eq (chunk : PyStr) : escapedChunk chunk = chunk.codePoints.flatMap jsonEscape := by
  simp [escapedChunk, jsonString]

/-- The chunks are escaped one by one as their text is. -/
theorem flatten_escaped (chunks : List PyStr) : (chunks.map escapedChunk).flatten =
    (chunks.flatMap PyStr.codePoints).flatMap jsonEscape := by
  induction chunks with
  | nil => rfl
  | cons chunk chunks ih =>
    rw [List.map_cons, List.flatten_cons, ih, escapedChunk_eq, List.flatMap_cons, List.flatMap_append]

/-- An entry of an object of texts. -/
def pairText (e : PyStr × PyStr) : Bytes := jsonString e.1 ++ [58] ++ jsonString e.2

theorem joinComma_cons (x : Bytes) (rest : List Bytes) :
    joinComma (x :: rest) = x ++ rest.flatMap ([44] ++ ·) := by
  induction rest generalizing x with
  | nil => exact (List.append_nil x).symm
  | cons y rest ih =>
    rw [joinComma, ih, List.flatMap_cons]
    · simp
    · rintro ⟨⟩

theorem flatten_entryParts_false (entries : List (PyStr × PyStr)) :
    (entryParts false entries).flatten = (entries.map pairText).flatMap ([44] ++ ·) := by
  have hcomma : bytes "," = [44] := by decide +kernel
  have hcolon : bytes ":" = [58] := by decide +kernel
  induction entries with
  | nil => rfl
  | cons e entries ih => simp [entryParts, ih, pairText, hcomma, hcolon]

theorem flatten_entryParts (entries : List (PyStr × PyStr)) :
    (entryParts true entries).flatten = joinComma (entries.map pairText) := by
  have hcolon : bytes ":" = [58] := by decide +kernel
  cases entries with
  | nil => rfl
  | cons e entries =>
    rw [List.map_cons, joinComma_cons]
    simp [entryParts, flatten_entryParts_false, pairText, hcolon]

theorem flatten_iterencode (untracked : List (PyStr × PyStr)) :
    (iterencode untracked).flatten =
      [123] ++ joinComma ((sortByKey untracked).map pairText) ++ [125] := by
  have hopen : bytes "\x7b" = [123] := by decide +kernel
  have hclose : bytes "\x7d" = [125] := by decide +kernel
  unfold iterencode
  split
  · next hempty =>
    subst hempty
    decide +kernel
  · rw [hopen, hclose, List.flatten_append, List.flatten_append, flatten_entryParts]
    simp

/-- Texts are sorted by their keys before they are written, or after. -/
theorem sortByKey_map (untracked : List (PyStr × PyStr)) :
    sortByKey (untracked.map fun e => (e.1, jsonString e.2)) =
      (sortByKey untracked).map fun e => (e.1, jsonString e.2) :=
  (List.map_insertionSort (fun a b : PyStr × PyStr => a.1.le b.1)
    (fun a b : PyStr × Bytes => a.1.le b.1) (fun e => (e.1, jsonString e.2)) untracked
    fun _ _ _ _ => Iff.rfl).symm

variable {float : PyFloat → Py Bytes} {depth : Nat}

theorem dumps_untracked : dumps float (depth + 1) (untrackedObject untracked) =
    .ok (iterencode untracked).flatten := by
  have hentries : dumpsEntries float depth (untracked.map fun e => (e.1, Value.str e.2)) =
      .ok (untracked.map fun e => (e.1, jsonString e.2)) := by
    induction untracked with
    | nil => rfl
    | cons e untracked ih => simp [dumpsEntries, dumps, ih]
  rw [flatten_iterencode, untrackedObject, dumps, hentries, ok_bind, sortByKey_map, List.map_map]
  rfl

/-- The parts before, between and after the texts are what the encoder writes around them. -/
theorem dumps_fingerprintObject {diff head status : PyStr} {tree : Option PyStr} :
    dumps float (depth + 2) (fingerprintObject diff head tree status untracked) =
      .ok (bytes "\x7b\"diff\":\"" ++ diff.codePoints.flatMap jsonEscape ++ bytes "\",\"head\":" ++
        jsonString head ++ (tree.toList.flatMap fun tree => bytes ",\"index_tree\":" ++ jsonString tree) ++
        bytes ",\"status\":\"" ++ status.codePoints.flatMap jsonEscape ++ bytes "\",\"untracked\":" ++
        (iterencode untracked).flatten ++ bytes "\x7d") := by
  have hdiff : bytes "\x7b\"diff\":\"" = [123] ++ jsonString "diff" ++ [58] ++ [34] := by decide +kernel
  have hhead : bytes "\",\"head\":" = [34] ++ [44] ++ jsonString "head" ++ [58] := by decide +kernel
  have htree : bytes ",\"index_tree\":" = [44] ++ jsonString "index_tree" ++ [58] := by decide +kernel
  have hstatus : bytes ",\"status\":\"" = [44] ++ jsonString "status" ++ [58] ++ [34] := by
    decide +kernel
  have huntracked : bytes "\",\"untracked\":" = [34] ++ [44] ++ jsonString "untracked" ++ [58] := by
    decide +kernel
  have hclose : bytes "\x7d" = [125] := by decide +kernel
  rw [hdiff, hhead, htree, hstatus, huntracked, hclose]
  cases tree with
  | none =>
    have hkeys : (["diff", "head", "status", "untracked"] : List PyStr).Pairwise PyStr.le := by
      decide +kernel
    simp only [fingerprintObject, Option.toList_none, List.map_nil, List.append_nil, List.cons_append,
      List.nil_append, dumps, dumpsEntries, dumps_untracked, ok_bind]
    rw [Json.sortByKey_eq]
    · simp [joinComma, jsonString]
    · exact hkeys
  | some tree =>
    have hkeys : (["diff", "head", "index_tree", "status", "untracked"] : List PyStr).Pairwise
        PyStr.le := by decide +kernel
    simp only [fingerprintObject, Option.toList_some, List.map_cons, List.map_nil, List.cons_append,
      List.nil_append, dumps, dumpsEntries, dumps_untracked, ok_bind]
    rw [Json.sortByKey_eq]
    · simp [joinComma, jsonString]
    · exact hkeys

end

/-! ## 4. The stream is the object's text -/

/-- What the commands put out; the tree is asked for during an integration only. -/
structure Outputs (git : Git) (integration : Bool) (diff status : List Bytes) (head tree : PyStr) :
    Prop where
  diff : git.stream diffArgs = .ok diff
  status : git.stream statusArgs = .ok status
  head : git.output headArgs = .ok head
  tree : integration = true → git.output treeArgs = .ok tree

section

variable {git : Git} {integration : Bool} {diff status : List Bytes} {head tree : PyStr}

/-- The object of a worktree, with the whole texts in it. -/
def bufferedObject (integration : Bool) (diff status : Bytes) (head tree : PyStr)
    (untracked : List (PyStr × PyStr)) : Value :=
  fingerprintObject (decodedText diff) (strip head) (if integration then some (strip tree) else none)
    (decodedText status) untracked

theorem flatten_decodedChunks (blocks : List Bytes) :
    ((decodedChunks [] false blocks).map escapedChunk).flatten =
      (decodedText blocks.flatten).codePoints.flatMap jsonEscape := by
  rw [flatten_escaped, decodedChunks_flatten]
  rfl

/-- **The hash is fed the text of the object.** -/
theorem fingerprintParts_eq (h : Outputs git integration diff status head tree)
    (untracked : List (PyStr × PyStr)) (float : PyFloat → Py Bytes) (depth : Nat) :
    ∃ parts, fingerprintParts git untracked integration = .ok parts ∧
      dumps float (depth + 2)
        (bufferedObject integration diff.flatten status.flatten head tree untracked) =
          .ok parts.flatten := by
  cases integration with
  | false =>
    simp only [fingerprintParts, decodedGitChunks, h.diff, h.status, h.head, ok_bind, pure_bind,
      Bool.false_eq_true, if_false]
    refine ⟨_, rfl, ?_⟩
    rw [bufferedObject, dumps_fingerprintObject]
    simp [flatten_decodedChunks]
  | true =>
    simp only [fingerprintParts, decodedGitChunks, h.diff, h.status, h.head, h.tree rfl, ok_bind,
      pure_bind, if_true]
    refine ⟨_, rfl, ?_⟩
    rw [bufferedObject, dumps_fingerprintObject]
    simp [flatten_decodedChunks]

/-- **The streamed fingerprint is the buffered one.**  Whatever the commands put out, and wherever it
is cut into blocks, the hash is fed the compact text of the object, with its keys in order; the
blocks make no difference. -/
theorem fingerprint_buffered (h : Outputs git integration diff status head tree)
    (untracked : List (PyStr × PyStr)) :
    (∃ text, (∀ float depth, dumps float (depth + 2)
        (bufferedObject integration diff.flatten status.flatten head tree untracked) = .ok text) ∧
      (∃ parts, fingerprintParts git untracked integration = .ok parts ∧ parts.flatten = text) ∧
      fingerprintStream git untracked integration = .ok (Sha256.hexdigest text)) ∧
    ∀ git' diff' status', Outputs git' integration diff' status' head tree →
      diff'.flatten = diff.flatten → status'.flatten = status.flatten →
        fingerprintStream git' untracked integration = fingerprintStream git untracked integration := by
  have hstream {git : Git} {diff status : List Bytes}
      (h : Outputs git integration diff status head tree) : ∃ parts,
        fingerprintParts git untracked integration = .ok parts ∧
          fingerprintStream git untracked integration = .ok (Sha256.hexdigest parts.flatten) ∧
          ∀ float depth, dumps float (depth + 2)
            (bufferedObject integration diff.flatten status.flatten head tree untracked) =
              .ok parts.flatten := by
    obtain ⟨parts, hparts, -⟩ := fingerprintParts_eq h untracked jsonFloat 0
    refine ⟨parts, hparts, by rw [fingerprintStream, hparts]; rfl, ?_⟩
    intro float depth
    obtain ⟨parts', hparts', htext⟩ := fingerprintParts_eq h untracked float depth
    rw [hparts] at hparts'
    cases hparts'
    exact htext
  obtain ⟨parts, hparts, hdigest, htext⟩ := hstream h
  refine ⟨⟨parts.flatten, htext, ⟨parts, hparts, rfl⟩, hdigest⟩, ?_⟩
  intro git' diff' status' h' hdiff hstatus
  obtain ⟨parts', -, hdigest', htext'⟩ := hstream h'
  have hsame := htext' jsonFloat 0
  rw [hdiff, hstatus, htext, Except.ok.injEq] at hsame
  rw [hdigest, hdigest', hsame]

end

/-- A worktree whose diff arrives in the given blocks. -/
def sampleGit (blocks : List Bytes) : Git where
  stream args := .ok (if args = diffArgs then blocks else [bytes "?? ", bytes "a"])
  output args := .ok (if args = headArgs then "0f\n" else "1e\n")

theorem outputs_sampleGit (blocks : List Bytes) :
    Outputs (sampleGit blocks) true blocks [bytes "?? ", bytes "a"] "0f\n" "1e\n" where
  diff := rfl
  status := rfl
  head := rfl
  tree _ := rfl

/-- Blocks that end inside a character and between a carriage return and its line feed. -/
theorem fingerprint_buffered_sample :
    fingerprintStream (sampleGit [[0xc3], [0xa9, 13], [10, 0xff]]) [("b", "1"), ("a", "2")] true =
      fingerprintStream (sampleGit [[0xc3, 0xa9, 13, 10, 0xff]]) [("b", "1"), ("a", "2")] true :=
  (fingerprint_buffered (outputs_sampleGit [[0xc3, 0xa9, 13, 10, 0xff]]) _).2 _ _ _
    (outputs_sampleGit [[0xc3], [0xa9, 13], [10, 0xff]]) rfl rfl

end Supplementary.Push
