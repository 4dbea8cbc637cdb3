/-
# The patch of an untracked file

`spool_untracked_patch` writes the patch that adds an untracked file, streaming: it reads the spooled
file twice, once to count the lines for the hunk's header and once to write them.
`render_untracked_patch` renders the same patch from the whole text.  `readBack` is the reader of
unified diffs that both write for.

`faithful_iff` says that the two write the same bytes and that the reader finds the file in them, byte
for byte, whatever separators it holds and wherever its blocks end.  The one obstacle is the name:
`quote_diff_path` spells a byte that is no UTF-8 by its octal digits, but only in a name that it
quotes for another reason, and a name left bare with such a byte has no encoding.
-/
import Supplementary.Push.Lines
import Supplementary.Python.Incremental
import Supplementary.Python.Sha256
import Supplementary.Review.Grammar

namespace Supplementary.Push

open PyStr

/-! ## 1. What is raised -/

/-- What the two functions raise. -/
inductive PatchError
  | runtimeError (message : PyStr)
  /-- `UnicodeEncodeError`, from a surrogate. -/
  | unicodeError
  deriving DecidableEq

/-- `text.encode("utf-8")`. -/
def encode (s : PyStr) : Except PatchError Bytes :=
  match s.utf8Encode with
  | some octets => .ok octets
  | none => .error .unicodeError

/-! ## 2. `quote_diff_path` -/

/-- `[\s"\\\x00-\x1f\x7f-\xff]`. -/
def needsQuote (c : Nat) : Bool :=
  isSpace c || c = 34 || c = 92 || c ≤ 0x1f || (0x7f ≤ c && c ≤ 0xff)

/-- One code point under `errors="surrogateescape"`: the surrogate that stands for an octet is that
octet. -/
def escapedPoint (v : Nat) : Option Bytes :=
  if 0xdc80 ≤ v ∧ v ≤ 0xdcff then some [(v - 0xdc00).toUInt8] else utf8EncodePoint v

/-- `value.encode("utf-8", errors="surrogateescape")`. -/
def encodeEscaped (s : PyStr) : Except PatchError Bytes :=
  match s.codePoints.mapM escapedPoint with
  | some parts => .ok parts.flatten
  | none => .error .unicodeError

/-- An octal digit. -/
def octalDigit (n : Nat) : Nat := 48 + n % 8

/-- The spelling of an octet; the last is `f"\\{byte:03o}"`. -/
def spellOctet (b : UInt8) : List Nat :=
  if b = 92 then [92, 92]
  else if b = 34 then [92, 34]
  else if b = 9 then [92, 116]
  else if b = 10 then [92, 110]
  else if b = 13 then [92, 114]
  else if 0x20 ≤ b ∧ b ≤ 0x7e then [b.toNat]
  else [92, octalDigit (b.toNat / 64), octalDigit (b.toNat / 8), octalDigit b.toNat]

/-- `'"' + "".join(escaped) + '"'`. -/
def quoted (encoded : Bytes) : PyStr := "\"" ++ ⟨encoded.flatMap spellOctet⟩ ++ "\""

/-- `quote_diff_path(side, name)`. -/
def quoteDiffPath (side name : PyStr) : Except PatchError PyStr :=
  let value := side ++ "/" ++ name
  if value.codePoints.any needsQuote then do
    let encoded ← encodeEscaped value
    return quoted encoded
  else .ok value

/-! ## 3. `render_untracked_patch` -/

/-- `"100755" if mode & 0o111 else "100644"`. -/
def fileMode (mode : Nat) : PyStr := if mode &&& 0o111 ≠ 0 then "100755" else "100644"

/-- The lines that every patch begins with. -/
def headLines (oldPath newPath : PyStr) (mode : Nat) : PyStr :=
  "diff --git " ++ oldPath ++ " " ++ newPath ++ "\nnew file mode " ++ fileMode mode ++ "\n"

/-- The files that the hunk is about. -/
def fileLines (newPath : PyStr) : PyStr := "--- /dev/null\n+++ " ++ newPath ++ "\n"

/-- The header of the hunk. -/
def hunkHeader (lines : Nat) : PyStr := "@@ -0,0 +1," ++ ofInt lines ++ " @@\n"

/-- What stands for an empty file. -/
def indexLine : PyStr := "index 0000000..e69de29\n"

/-- The line after a `+` line without a newline of its own. -/
def marker : PyStr := "\\ No newline at end of file\n"

/-- What `render_untracked_patch` makes of a line. -/
def renderLine (line : PyStr) : PyStr :=
  if line.endsWith "\n" then "+" ++ line else "+" ++ line ++ "\n" ++ marker

/-- `render_untracked_patch(name, payload, mode)`. -/
def renderUntrackedPatch (name : PyStr) (payload : Bytes) (mode : Nat) : Except PatchError PyStr :=
  if 0 ∈ payload then .error (.runtimeError ("binary untracked path: " ++ name))
  else
    match utf8Decode payload with
    | none => .error (.runtimeError ("non-UTF-8 untracked path: " ++ name))
    | some points => do
      let oldPath ← quoteDiffPath "a" name
      let newPath ← quoteDiffPath "b" name
      if points = [] then
        return headLines oldPath newPath mode ++ indexLine
      let lines := splitLinesKeepEnds ⟨points⟩
      let files := headLines oldPath newPath mode ++ fileLines newPath
      if lines = [] then return files
      return files ++ hunkHeader lines.length ++
        ⟨lines.flatMap fun line => (renderLine line).codePoints⟩

/-! ## 4. `spool_untracked_patch` -/

/-- The loop that spools the file; a block with a NUL is refused. -/
def spoolBlocks (name : PyStr) : List Bytes → Except PatchError Bytes
  | [] => .ok []
  | block :: blocks =>
    if 0 ∈ block then
      .error (.runtimeError ("local review refused for binary untracked path: " ++ name))
    else do return block ++ (← spoolBlocks name blocks)

/-- `split_text_fragments(raw.text_chunks())` for a spool of those bytes that is read in those blocks:
the blocks are decoded, their size and digest compared with the spool's, and last what the decoder
holds back. -/
def textFragments (raw : Bytes) (blocks : List Bytes) : Except PatchError (List Fragment) :=
  match decodeBlocks [] blocks with
  | none => .error .unicodeError
  | some (texts, held) =>
    if blocks.flatten.length ≠ raw.length ∨ Sha256.hexdigest blocks.flatten ≠ Sha256.hexdigest raw then
      .error (.runtimeError "private patch spool changed after construction")
    else
      match utf8Decode held with
      | none => .error .unicodeError
      | some last => .ok (splitTextFragments false (texts ++ [⟨last⟩]))

/-- `except UnicodeError as exc: raise RuntimeError(...) from exc`. -/
def orNotUtf8 {α : Type} (name : PyStr) : Except PatchError α → Except PatchError α
  | .error .unicodeError =>
    .error (.runtimeError ("local review refused for non-UTF-8 untracked path: " ++ name))
  | x => x

/-- The first pass: the lines, and the one that is `partial`. -/
def countLines : (lines : Nat) → (isPartial : Bool) → List Fragment → Nat
  | lines, isPartial, [] => lines + isPartial.toNat
  | lines, _, (_, none) :: rest => countLines lines true rest
  | lines, _, (_, some _) :: rest => countLines (lines + 1) false rest

/-- What is written after a separator. -/
def markAfter (ending : PyStr) : Except PatchError Bytes :=
  if ending.endsWith "\n" then .ok [] else encode ("\n" ++ marker)

/-- The second pass. -/
def writeLines : (beginning : Bool) → List Fragment → Except PatchError Bytes
  | beginning, [] => if beginning then .ok [] else encode ("\n" ++ marker)
  | beginning, (fragment, none) :: rest => do
    let octets ← encode fragment
    return (if beginning then [43] else []) ++ octets ++ (← writeLines false rest)
  | beginning, (fragment, some ending) :: rest => do
    let octets ← encode fragment
    let separator ← encode ending
    let mark ← markAfter ending
    return (if beginning then [43] else []) ++ octets ++ separator ++ mark ++
      (← writeLines true rest)

/-- `spool_untracked_patch(name, patch)` for a file of that mode: what is written to `patch`, and the
digest and size it returns.  `read` are the blocks of the file, `counted` and `written` those of the
spool in the two passes. -/
def spoolUntrackedPatch (name : PyStr) (mode : Nat) (read counted written : List Bytes) :
    Except PatchError (Bytes × PyStr × Nat) := do
  let raw ← spoolBlocks name read
  let lines := countLines 0 false (← orNotUtf8 name (textFragments raw counted))
  let oldPath ← quoteDiffPath "a" name
  let newPath ← quoteDiffPath "b" name
  let header := headLines oldPath newPath mode ++
    if raw.length = 0 then indexLine else fileLines newPath ++ hunkHeader lines
  let head ← encode header
  let body ← writeLines true (← textFragments raw written)
  return (head ++ body, Sha256.hexdigest raw, raw.length)

/-! ## 5. The reader of unified diffs -/

/-- What the lines of a hunk contribute to the new file: each `+` line its text, less its newline when
the marker follows. -/
def contributions : List Bytes → List Bytes
  | [] => []
  | line :: rest =>
    if line.head? = some 43 then
      (if rest.head? = some (asciiBytes marker) then line.tail.dropLast else line.tail) ::
        contributions rest
    else contributions rest

/-- The header of the hunk and the lines after it. -/
def hunkOf (patch : Bytes) : Option (Bytes × List Bytes) :=
  match (Review.linesOf patch).dropWhile fun line => !(bytes "@@ ").isPrefixOf line with
  | [] => none
  | header :: body => some (header, body)

/-- The new file. -/
def readBack (patch : Bytes) : Bytes :=
  match hunkOf patch with
  | none => []
  | some (_, body) => (contributions body).flatten

/-! ## 6. The two passes -/

/-- What both writers make of a line. -/
def renderFragment (l : Fragment) : PyStr :=
  match l.2 with
  | none => "+" ++ l.1 ++ ("\n" ++ marker)
  | some ending => "+" ++ l.1 ++ ending ++ if ending.endsWith "\n" then ("" : PyStr) else "\n" ++ marker

/-- The body of the patch. -/
def bodyOf (lines : List Fragment) : Bytes := lines.flatMap fun l => (renderFragment l).octets

theorem encode_eq_ok {s : PyStr} {octets : Bytes} :
    encode s = .ok octets ↔ s.IsEncodable ∧ s.octets = octets := by
  rw [← utf8Encode_eq_some, encode]
  cases s.utf8Encode <;> simp

theorem encode_of {s : PyStr} (h : s.IsEncodable) : encode s = .ok s.octets :=
  encode_eq_ok.mpr ⟨h, rfl⟩

theorem isSome_utf8EncodePoint {v : Nat} :
    (utf8EncodePoint v).isSome = true ↔ ¬ (0xd800 ≤ v ∧ v ≤ 0xdfff) := by
  unfold utf8EncodePoint
  split_ifs <;> simp <;> omega

/-- A Lean string holds no surrogate. -/
theorem isEncodable_ofString (s : String) : (PyStr.ofString s).IsEncodable := by
  intro v hv
  obtain ⟨c, _, rfl⟩ := List.mem_map.mp hv
  have hvalid := c.valid
  simp only [UInt32.isValidChar, Nat.isValidChar] at hvalid
  rw [isSome_utf8EncodePoint]
  simp only [Char.toNat]
  omega

theorem isEncodable_marker : ("\n" ++ marker : PyStr).IsEncodable :=
  isEncodable_append.mpr ⟨isEncodable_ofString _, isEncodable_ofString _⟩

theorem markAfter_eq (ending : PyStr) : markAfter ending =
    .ok (if ending.endsWith "\n" then ("" : PyStr) else "\n" ++ marker).octets := by
  unfold markAfter
  split
  · rfl
  · exact encode_of isEncodable_marker

theorem countLines_eq (fragments : List Fragment) (lines : Nat) :
    countLines lines false fragments = lines + (merged none fragments).length ∧
      ∀ line, countLines lines true fragments = lines + (merged (some line) fragments).length := by
  induction fragments generalizing lines with
  | nil => exact ⟨rfl, fun _ => rfl⟩
  | cons l fragments ih =>
    obtain ⟨fragment, ending⟩ := l
    cases ending with
    | none =>
      simp only [countLines, merged_none_cons]
      exact ⟨(ih lines).2 _, fun _ => (ih lines).2 _⟩
    | some ending =>
      simp only [countLines, merged_some_cons, List.length_cons, (ih (lines + 1)).1]
      constructor
      · omega
      · intro _
        omega

/-- The second pass writes the lines; from the middle of one, what is left of it. -/
theorem writeLines_eq {fragments : List Fragment}
    (h : ∀ l ∈ fragments, l.1.IsEncodable ∧ ∀ ending ∈ l.2, ending.IsEncodable) :
    writeLines true fragments = .ok (bodyOf (merged none fragments)) ∧
      ∀ line : List Nat, ∃ octets, writeLines false fragments = .ok octets ∧
        bodyOf (merged (some line) fragments) = 43 :: ((⟨line⟩ : PyStr).octets ++ octets) := by
  induction fragments with
  | nil =>
    refine ⟨rfl, fun line => ⟨_, encode_of isEncodable_marker, ?_⟩⟩
    simp [bodyOf, merged, renderFragment, octets_append]
    rfl
  | cons l fragments ih =>
    obtain ⟨fragment, ending⟩ := l
    obtain ⟨⟨hfragment, hending⟩, hrest⟩ := List.forall_mem_cons.mp h
    obtain ⟨hwhole, hpart⟩ := ih hrest
    cases ending with
    | none =>
      simp only [writeLines, encode_of hfragment, ok_bind, merged_none_cons]
      constructor
      · obtain ⟨octets, hoctets, hbody⟩ := hpart fragment.codePoints
        simp [hoctets, hbody]
      · intro line
        obtain ⟨octets, hoctets, hbody⟩ := hpart (line ++ fragment.codePoints)
        refine ⟨fragment.octets ++ octets, by simp [hoctets], ?_⟩
        rw [Option.getD_some, hbody]
        simp [PyStr.octets]
    | some ending =>
      simp only [writeLines, encode_of hfragment, encode_of (hending ending rfl), markAfter_eq,
        hwhole, ok_bind, merged_some_cons]
      constructor
      · simp [bodyOf, renderFragment, octets_append]
        rfl
      · intro line
        refine ⟨_, rfl, ?_⟩
        have hline : (⟨line ++ fragment.codePoints⟩ : PyStr).octets =
            (⟨line⟩ : PyStr).octets ++ fragment.octets := octets_append ⟨line⟩ fragment
        simp [bodyOf, renderFragment, octets_append, hline]
        rfl

/-! ## 7. The spelling of a name -/

/-- The name has a spelling with an encoding: without a surrogate, or quoted with surrogates that
stand for octets only. -/
def Spellable (name : PyStr) : Prop :=
  ∀ c ∈ name.codePoints, 0xd800 ≤ c → c ≤ 0xdfff →
    name.codePoints.any needsQuote = true ∧ 0xdc80 ≤ c ∧ c ≤ 0xdcff

instance (name : PyStr) : Decidable (Spellable name) := by
  unfold Spellable
  infer_instance

theorem isSome_escapedPoint {v : Nat} :
    (escapedPoint v).isSome = true ↔ (0xd800 ≤ v → v ≤ 0xdfff → 0xdc80 ≤ v ∧ v ≤ 0xdcff) := by
  unfold escapedPoint
  split_ifs with h
  · simp [h]
  · rw [isSome_utf8EncodePoint]
    omega

/-- An octet is spelled in printable ASCII. -/
theorem spellOctet_printable : ∀ b, ∀ c ∈ spellOctet b, 32 ≤ c ∧ c ≤ 126 :=
  forall_byte (by decide +kernel)

/-- Only a newline is encoded with its octet. -/
theorem eq_newline_of_mem {v : Nat} {octets : Bytes} (h : utf8EncodePoint v = some octets)
    (hmem : 10 ∈ octets) : v = 10 := by
  have hbyte {n : Nat} (hn : n < 256) (h : 10 = n.toUInt8) : n = 10 := by
    have hnat := congrArg UInt8.toNat h
    rw [toNat_toUInt8 hn] at hnat
    exact hnat.symm
  unfold utf8EncodePoint at h
  split_ifs at h
  · cases h
    exact hbyte (by omega) (List.mem_singleton.mp hmem)
  · cases h
    simp only [List.mem_cons, List.not_mem_nil, or_false] at hmem
    rcases hmem with hmem | hmem
    · have hlow := hbyte (by omega) hmem
      omega
    · have hlow := hbyte (by omega) hmem
      omega
  · cases h
    simp only [List.mem_cons, List.not_mem_nil, or_false] at hmem
    rcases hmem with hmem | hmem | hmem
    · have hlow := hbyte (by omega) hmem
      omega
    · have hlow := hbyte (by omega) hmem
      omega
    · have hlow := hbyte (by omega) hmem
      omega
  · cases h
    simp only [List.mem_cons, List.not_mem_nil, or_false] at hmem
    rcases hmem with hmem | hmem | hmem | hmem
    · have hlow := hbyte (by omega) hmem
      omega
    · have hlow := hbyte (by omega) hmem
      omega
    · have hlow := hbyte (by omega) hmem
      omega
    · have hlow := hbyte (by omega) hmem
      omega

theorem newline_mem_octets {s : PyStr} (h : 10 ∈ s.octets) : 10 ∈ s.codePoints := by
  obtain ⟨v, hv, hmem⟩ := List.mem_flatMap.mp h
  cases hoctets : utf8EncodePoint v with
  | none =>
    rw [hoctets] at hmem
    cases hmem
  | some octets =>
    rw [hoctets] at hmem
    exact eq_newline_of_mem hoctets hmem ▸ hv

theorem isSome_mapM {α β : Type} {f : α → Option β} {xs : List α} :
    (xs.mapM f).isSome = true ↔ ∀ x ∈ xs, (f x).isSome = true := by
  induction xs with
  | nil => simp
  | cons x xs ih =>
    rw [List.forall_mem_cons, ← ih, List.mapM_cons]
    cases f x <;> cases xs.mapM f <;> simp

theorem encodeEscaped_isOk {s : PyStr} : (∃ octets, encodeEscaped s = .ok octets) ↔
    ∀ c ∈ s.codePoints, 0xd800 ≤ c → c ≤ 0xdfff → 0xdc80 ≤ c ∧ c ≤ 0xdcff := by
  simp only [← isSome_escapedPoint, ← isSome_mapM]
  unfold encodeEscaped
  cases s.codePoints.mapM escapedPoint <;> simp

/-- What stands between the quotes, and the quotes, is printable ASCII. -/
theorem printable_quoted (encoded : Bytes) :
    ∀ c ∈ (quoted encoded).codePoints, 32 ≤ c ∧ c ≤ 126 := by
  have hquote : (PyStr.ofString "\"").codePoints = [34] := rfl
  simp only [quoted, codePoints_append, hquote, List.forall_mem_append, List.mem_singleton, forall_eq]
  refine ⟨⟨by omega, ?_⟩, by omega⟩
  intro c hc
  obtain ⟨b, _, hb⟩ := List.mem_flatMap.mp hc
  exact spellOctet_printable b c hb

/-- A spelled name has an encoding exactly when it is spellable, and spans no line. -/
theorem quoteDiffPath_spec {side : PyStr} (hside : side = "a" ∨ side = "b") (name : PyStr) :
    (Spellable name → ∃ text, quoteDiffPath side name = .ok text ∧ text.IsEncodable) ∧
      ∀ text, quoteDiffPath side name = .ok text →
        (text.IsEncodable → Spellable name) ∧ 10 ∉ text.codePoints := by
  obtain ⟨letter, hletter, hplain, hlow⟩ : ∃ letter, side.codePoints = [letter] ∧
      needsQuote letter = false ∧ letter < 0xd800 := by
    rcases hside with rfl | rfl
    · exact ⟨97, rfl, rfl, by omega⟩
    · exact ⟨98, rfl, rfl, by omega⟩
  have hvalue : (side ++ "/" ++ name).codePoints = letter :: 47 :: name.codePoints := by
    simp [hletter, ofString]
  have hany : (side ++ "/" ++ name).codePoints.any needsQuote = name.codePoints.any needsQuote := by
    rw [hvalue, List.any_cons, List.any_cons, hplain]
    rfl
  have hall {p : Nat → Prop} (h : ∀ c, c < 0xd800 → p c) :
      (∀ c ∈ (side ++ "/" ++ name).codePoints, p c) ↔ ∀ c ∈ name.codePoints, p c := by
    rw [hvalue, List.forall_mem_cons, List.forall_mem_cons]
    exact ⟨fun hp => hp.2.2, fun hp => ⟨h _ hlow, h 47 (by omega), hp⟩⟩
  cases hquoted : name.codePoints.any needsQuote with
  | true =>
    have hspellable : Spellable name ↔ ∃ octets, encodeEscaped (side ++ "/" ++ name) = .ok octets := by
      rw [encodeEscaped_isOk, hall (fun c hc _ _ => by omega)]
      simp only [Spellable, hquoted, true_and]
    have hquote : quoteDiffPath side name =
        encodeEscaped (side ++ "/" ++ name) >>= fun encoded => pure (quoted encoded) := by
      rw [quoteDiffPath, if_pos (hany.trans hquoted)]
    rw [hquote, hspellable]
    constructor
    · rintro ⟨encoded, hencoded⟩
      refine ⟨_, by rw [hencoded]; rfl, fun c hc => ?_⟩
      have hprintable := printable_quoted encoded c hc
      rw [isSome_utf8EncodePoint]
      omega
    · intro text htext
      obtain ⟨encoded, hencoded, htext⟩ := bind_eq_ok.mp htext
      cases htext
      refine ⟨fun _ => ⟨encoded, hencoded⟩, fun hmem => ?_⟩
      have hprintable := printable_quoted encoded 10 hmem
      omega
  | false =>
    have hspellable : Spellable name ↔ (side ++ "/" ++ name).IsEncodable := by
      simp only [Spellable, IsEncodable, isSome_utf8EncodePoint, hquoted]
      rw [hall fun c hc => by omega]
      refine forall₂_congr fun c _ => ?_
      simp only [Bool.false_eq_true, false_and]
      tauto
    have hquote : quoteDiffPath side name = .ok (side ++ "/" ++ name) := by
      rw [quoteDiffPath, if_neg (by rw [hany, hquoted]; simp)]
    rw [hquote, hspellable]
    constructor
    · intro h
      exact ⟨_, rfl, h⟩
    · intro text htext
      cases htext
      refine ⟨id, fun hmem => ?_⟩
      have hnewline : (side ++ "/" ++ name).codePoints.any needsQuote = true :=
        List.any_eq_true.mpr ⟨10, hmem, rfl⟩
      rw [hany, hquoted] at hnewline
      cases hnewline

/-! ## 8. What is written -/

/-- The patch, from the two spelled names and the lines of the file. -/
def patchText (oldPath newPath : PyStr) (mode : Nat) (lines : List Fragment) : PyStr :=
  headLines oldPath newPath mode ++
    if lines = [] then indexLine
    else fileLines newPath ++ hunkHeader lines.length ++
      ⟨lines.flatMap fun l => (renderFragment l).codePoints⟩

theorem digits_ofInt (n : Nat) : ∀ c ∈ (ofInt n).codePoints, 48 ≤ c ∧ c ≤ 57 := by
  intro c hc
  have hrepr : (ofInt n).codePoints = (Nat.toDigits 10 n).map Char.toNat := by
    rw [← Nat.toList_repr]
    rfl
  rw [hrepr] at hc
  obtain ⟨d, hd, rfl⟩ := List.mem_map.mp hc
  have hdigit := Nat.isDigit_of_mem_toDigits (by omega) (by omega) hd
  rw [Char.isDigit, Bool.and_eq_true, decide_eq_true_eq, decide_eq_true_eq, ge_iff_le,
    UInt32.le_iff_toNat_le, UInt32.le_iff_toNat_le] at hdigit
  exact hdigit

theorem isEncodable_headLines {oldPath newPath : PyStr} (hold : oldPath.IsEncodable)
    (hnew : newPath.IsEncodable) (mode : Nat) : (headLines oldPath newPath mode).IsEncodable := by
  unfold headLines fileMode
  split <;> simp only [isEncodable_append, isEncodable_ofString, hold, hnew, and_self]

theorem isEncodable_fileLines {newPath : PyStr} (hnew : newPath.IsEncodable) :
    (fileLines newPath).IsEncodable := by
  simp only [fileLines, isEncodable_append, isEncodable_ofString, hnew, and_self]

theorem isEncodable_hunkHeader (n : Nat) : (hunkHeader n).IsEncodable := by
  simp only [hunkHeader, isEncodable_append, ofInt, isEncodable_ofString, and_self]

/-- A spool of the bytes of a text is read as its lines, wherever its blocks end. -/
theorem textFragments_of_decode {raw : Bytes} {blocks : List Bytes} {points : List Nat}
    (h : utf8Decode raw = some points) (hblocks : blocks.flatten = raw) :
    ∃ fragments, textFragments raw blocks = .ok fragments ∧
      merged none fragments = endedLines ⟨points⟩ ∧
      ∀ l ∈ fragments, l.1.IsEncodable ∧ ∀ ending ∈ l.2, ending.IsEncodable := by
  subst hblocks
  obtain ⟨texts, held, last, htexts, hlast, hpoints⟩ := @decodeBlocks_spec [] blocks points h
  have hchunks : (texts ++ [(⟨last⟩ : PyStr)]).flatMap codePoints = points := by
    simpa using hpoints
  have hencodable : ∀ c ∈ points, (utf8EncodePoint c).isSome = true :=
    (utf8Encode_eq_some.mp (utf8Encode_of_decode h)).1
  refine ⟨splitTextFragments false (texts ++ [⟨last⟩]), ?_, ?_, ?_⟩
  · simp [textFragments, htexts, hlast]
  · rw [merged_splitTextFragments, hchunks]
  · intro l hl
    have hmem : ∀ c ∈ (whole l).codePoints, (utf8EncodePoint c).isSome = true := by
      intro c hc
      refine hencodable c ?_
      rw [← hchunks, ← textOf_splitTextFragments]
      exact List.mem_flatMap.mpr ⟨l, hl, hc⟩
    have hboth : l.1.IsEncodable ∧ (l.2.getD "").IsEncodable := isEncodable_append.mp hmem
    refine ⟨hboth.1, fun ending hending => ?_⟩
    rw [Option.mem_def.mp hending] at hboth
    exact hboth.2

theorem spoolBlocks_of {name : PyStr} {blocks : List Bytes} (h : 0 ∉ blocks.flatten) :
    spoolBlocks name blocks = .ok blocks.flatten := by
  induction blocks with
  | nil => rfl
  | cons block blocks ih =>
    rw [List.flatten_cons, List.mem_append, not_or] at h
    rw [spoolBlocks, if_neg h.1, ih h.2]
    rfl

theorem endsWith_newline {s : PyStr} :
    s.endsWith "\n" = true ↔ ∃ text, s.codePoints = text ++ [10] := by
  change List.isSuffixOf [10] s.codePoints = true ↔ _
  rw [List.isSuffixOf_iff_suffix]
  exact ⟨fun ⟨text, h⟩ => ⟨text, h.symm⟩, fun ⟨text, h⟩ => ⟨text, h.symm⟩⟩

theorem endsWith_of_append {s t : PyStr} (ht : t.codePoints ≠ []) :
    (s ++ t).endsWith "\n" = t.endsWith "\n" := by
  rw [Bool.eq_iff_iff, endsWith_newline, endsWith_newline]
  obtain ⟨init, last, hlast⟩ := (List.eq_nil_or_concat' t.codePoints).resolve_left ht
  rw [codePoints_append, hlast]
  constructor
  · rintro ⟨text, h⟩
    rw [← List.append_assoc] at h
    exact ⟨init, by rw [(List.append_inj' h rfl).2]⟩
  · rintro ⟨text, h⟩
    exact ⟨s.codePoints ++ init, by rw [List.append_assoc, (List.append_inj' h rfl).2]⟩

theorem IsEnded.ending_ne_nil {l : Fragment} (h : IsEnded l) {ending : PyStr}
    (hending : l.2 = some ending) : ending.codePoints ≠ [] := by
  rcases h.ending with hnone | hpair | ⟨c, _, hc⟩
  · rw [hnone] at hending
    cases hending
  · rw [hpair] at hending
    cases hending
    exact List.cons_ne_nil _ _
  · rw [hc] at hending
    cases hending
    exact List.cons_ne_nil _ _

/-- Only what ends a line decides what follows it. -/
theorem renderLine_whole {l : Fragment} (h : IsEnded l) :
    renderLine (whole l) = renderFragment l := by
  obtain ⟨text, ending⟩ := l
  cases ending with
  | none =>
    have hopen : (whole (text, none)).endsWith "\n" = false := by
      rw [Bool.eq_false_iff, Ne, endsWith_newline]
      rintro ⟨init, hinit⟩
      have hmem : 10 ∈ text.codePoints := by
        rw [whole, codePoints_append] at hinit
        rw [show text.codePoints = init ++ [10] by simpa [ofString] using hinit]
        simp
      have hend := h.text 10 hmem
      cases hend
    rw [renderLine, if_neg (by simp [hopen])]
    apply ext
    simp [renderFragment, whole, ofString]
  | some ending =>
    have hends : (whole (text, some ending)).endsWith "\n" = ending.endsWith "\n" :=
      endsWith_of_append (h.ending_ne_nil rfl)
    rw [renderLine, hends, renderFragment]
    by_cases hnewline : ending.endsWith "\n" = true
    · simp only [hnewline, if_true]
      apply ext
      simp [whole, ofString]
    · simp only [hnewline, if_false, Bool.false_eq_true]
      apply ext
      simp [whole, ofString]

/-! ## 9. The two writers -/

section Writers

variable {name oldPath newPath : PyStr} {payload : Bytes} {points : List Nat} {mode : Nat}

theorem lines_eq_nil_iff : endedLines ⟨points⟩ = [] ↔ points = [] := by
  have htext := textOf_endedLinesFrom [] points
  constructor
  · intro h
    rw [endedLines] at h
    rw [h] at htext
    exact htext.symm
  · rintro rfl
    rfl

theorem renderUntrackedPatch_eq (hnul : 0 ∉ payload) (h : utf8Decode payload = some points)
    (hold : quoteDiffPath "a" name = .ok oldPath) (hnew : quoteDiffPath "b" name = .ok newPath) :
    renderUntrackedPatch name payload mode =
      .ok (patchText oldPath newPath mode (endedLines ⟨points⟩)) := by
  have hrender : (splitLinesKeepEnds ⟨points⟩).flatMap (fun line => (renderLine line).codePoints) =
      (endedLines ⟨points⟩).flatMap fun l => (renderFragment l).codePoints := by
    rw [splitLinesKeepEnds, List.flatMap_map]
    exact List.flatMap_congr fun l hl => by
      rw [renderLine_whole (isEnded_of_mem (by simp) l hl)]
  have hlines : splitLinesKeepEnds ⟨points⟩ = [] ↔ points = [] := by
    rw [splitLinesKeepEnds, List.map_eq_nil_iff, lines_eq_nil_iff]
  rw [renderUntrackedPatch, if_neg hnul, h]
  simp only [hold, hnew, ok_bind, hlines, hrender, patchText, lines_eq_nil_iff]
  split
  · rfl
  · simp only [splitLinesKeepEnds, List.length_map]
    apply congrArg
    apply ext
    simp

theorem isEncodable_patchText (h : utf8Decode payload = some points) (heold : oldPath.IsEncodable)
    (henew : newPath.IsEncodable) :
    (patchText oldPath newPath mode (endedLines ⟨points⟩)).IsEncodable := by
  have hpoints : (⟨points⟩ : PyStr).IsEncodable :=
    (utf8Encode_eq_some.mp (utf8Encode_of_decode h)).1
  have hline : ∀ l ∈ endedLines ⟨points⟩, (renderFragment l).IsEncodable := by
    intro l hl
    have hwhole : (whole l).IsEncodable := by
      intro c hc
      refine hpoints c ?_
      have htext : textOf (endedLines ⟨points⟩) = points := textOf_endedLinesFrom [] points
      rw [← htext]
      exact List.mem_flatMap.mpr ⟨l, hl, hc⟩
    rw [whole, isEncodable_append] at hwhole
    unfold renderFragment
    cases hending : l.2 with
    | none => simp only [isEncodable_append, isEncodable_ofString, hwhole.1, marker, and_self]
    | some ending =>
      rw [hending, Option.getD_some] at hwhole
      simp only [isEncodable_append, isEncodable_ofString, hwhole, and_self, true_and]
      split <;> simp only [isEncodable_append, isEncodable_ofString, marker, and_self]
  rw [patchText, isEncodable_append]
  refine ⟨isEncodable_headLines heold henew mode, ?_⟩
  split
  · exact isEncodable_ofString _
  · rw [isEncodable_append, isEncodable_append]
    refine ⟨⟨isEncodable_fileLines henew, isEncodable_hunkHeader _⟩, fun c hc => ?_⟩
    obtain ⟨l, hl, hmem⟩ := List.mem_flatMap.mp hc
    exact hline l hl c hmem

theorem octets_patchText : (patchText oldPath newPath mode (endedLines ⟨points⟩)).octets =
    (headLines oldPath newPath mode ++ if points = [] then indexLine
      else fileLines newPath ++ hunkHeader (endedLines ⟨points⟩).length).octets ++
      bodyOf (endedLines ⟨points⟩) := by
  have hbody (lines : List Fragment) :
      (⟨lines.flatMap fun l => (renderFragment l).codePoints⟩ : PyStr).octets = bodyOf lines := by
    simp [PyStr.octets, bodyOf, List.flatMap_assoc]
  simp only [patchText, lines_eq_nil_iff]
  split
  · next hnil => simp [hnil, bodyOf, endedLines, endedLinesFrom]
  · simp only [octets_append, hbody, List.append_assoc]

theorem spoolUntrackedPatch_eq {read counted written : List Bytes} (hnul : 0 ∉ payload)
    (h : utf8Decode payload = some points) (hread : read.flatten = payload)
    (hcounted : counted.flatten = payload) (hwritten : written.flatten = payload)
    (hold : quoteDiffPath "a" name = .ok oldPath) (hnew : quoteDiffPath "b" name = .ok newPath)
    (heold : oldPath.IsEncodable) (henew : newPath.IsEncodable) :
    spoolUntrackedPatch name mode read counted written =
      .ok ((patchText oldPath newPath mode (endedLines ⟨points⟩)).octets,
        Sha256.hexdigest payload, payload.length) := by
  obtain ⟨fragments, hfragments, hmerged, _⟩ := textFragments_of_decode h hcounted
  obtain ⟨fragments', hfragments', hmerged', hencodable⟩ := textFragments_of_decode h hwritten
  have hcount : countLines 0 false fragments = (endedLines ⟨points⟩).length := by
    rw [(countLines_eq fragments 0).1, hmerged, Nat.zero_add]
  have hbody : writeLines true fragments' = .ok (bodyOf (endedLines ⟨points⟩)) := by
    rw [(writeLines_eq hencodable).1, hmerged']
  have hempty : payload.length = 0 ↔ points = [] := by
    rw [List.length_eq_zero_iff]
    constructor
    · rintro rfl
      cases h
      rfl
    · rintro rfl
      have hencode := utf8Encode_of_decode h
      cases hencode
      rfl
  have hspool : spoolBlocks name read = .ok payload := by
    subst hread
    exact spoolBlocks_of hnul
  have hhead : (headLines oldPath newPath mode ++ if points = [] then indexLine
      else fileLines newPath ++ hunkHeader (endedLines ⟨points⟩).length).IsEncodable := by
    refine isEncodable_append.mpr ⟨isEncodable_headLines heold henew mode, ?_⟩
    split
    · exact isEncodable_ofString _
    · exact isEncodable_append.mpr ⟨isEncodable_fileLines henew, isEncodable_hunkHeader _⟩
  simp only [spoolUntrackedPatch, hspool, hfragments, orNotUtf8, hcount, hold, hnew, hempty,
    encode_of hhead, hfragments', hbody, ok_bind, octets_patchText]
  rfl

end Writers

/-! ## 10. Reading back -/

/-- Lines of text as lines of bytes. -/
def lined (texts : List PyStr) : List Bytes := texts.map fun s : PyStr => (s ++ "\n").octets

theorem octets_newline (s : PyStr) : (s ++ "\n").octets = s.octets ++ [10] := octets_append s "\n"

theorem octets_plus (s : PyStr) : ("+" ++ s).octets = 43 :: s.octets := octets_append "+" s

theorem linesOf_lined {texts : List PyStr} (h : ∀ s ∈ texts, 10 ∉ s.codePoints) :
    Review.linesOf (lined texts).flatten = lined texts := by
  refine Review.linesOf_flatten fun line hline => ?_
  obtain ⟨s, hs, rfl⟩ := List.mem_map.mp hline
  exact ⟨s.octets, octets_newline s, fun hmem => h s hs (newline_mem_octets hmem)⟩

/-- The marker without its newline. -/
def markerText : PyStr := "\\ No newline at end of file"

/-- What ends in the body for one line of the file, without the newlines. -/
def bodyTexts (l : Fragment) : List PyStr :=
  match l.2 with
  | none => ["+" ++ l.1, markerText]
  | some ending =>
    if ending.endsWith "\n" then ["+" ++ (l.1 ++ ⟨ending.codePoints.dropLast⟩)]
    else ["+" ++ (l.1 ++ ending), markerText]

/-- A separator is a newline after something else, or holds none. -/
theorem IsEnded.separator {l : Fragment} (h : IsEnded l) {ending : PyStr}
    (hending : l.2 = some ending) :
    (ending.endsWith "\n" = true → ending = ⟨ending.codePoints.dropLast⟩ ++ "\n" ∧
      10 ∉ ending.codePoints.dropLast) ∧
      (ending.endsWith "\n" = false → 10 ∉ ending.codePoints) := by
  rcases h.ending with hnone | hpair | ⟨c, _, hc⟩
  · rw [hnone] at hending
    cases hending
  · rw [hpair] at hending
    cases hending
    exact ⟨fun _ => ⟨rfl, by decide⟩, fun hfalse => by cases hfalse⟩
  · rw [hc] at hending
    cases hending
    by_cases hnewline : c = 10
    · subst hnewline
      exact ⟨fun _ => ⟨rfl, by decide⟩, fun hfalse => by cases hfalse⟩
    · refine ⟨fun hends => ?_, fun _ => by simpa using Ne.symm hnewline⟩
      obtain ⟨text, htext⟩ := endsWith_newline.mp hends
      have hlast := congrArg List.getLast? htext
      simp only [List.getLast?_singleton, List.getLast?_concat, Option.some.injEq] at hlast
      exact absurd hlast hnewline

/-- What is seen of a fixed text. -/
theorem newline_notMem {s : PyStr} (h : s.codePoints.contains 10 = false) : 10 ∉ s.codePoints := by
  simpa using h

theorem newline_notMem_plus {s : PyStr} (h : 10 ∉ s.codePoints) : 10 ∉ ("+" ++ s).codePoints := by
  rw [codePoints_append, List.mem_append, not_or]
  exact ⟨by decide, h⟩

theorem newline_notMem_bodyTexts {l : Fragment} (h : IsEnded l) :
    ∀ s ∈ bodyTexts l, 10 ∉ s.codePoints := by
  have htext : 10 ∉ l.1.codePoints := fun hmem => by cases h.text 10 hmem
  have hmarker : 10 ∉ markerText.codePoints := newline_notMem rfl
  obtain ⟨text, ending⟩ := l
  cases ending with
  | none =>
    intro s hs
    rcases List.mem_pair.mp hs with rfl | rfl
    · exact newline_notMem_plus htext
    · exact hmarker
  | some ending =>
    obtain ⟨hyes, hno⟩ := h.separator rfl
    have hboth {s : PyStr} (hs : 10 ∉ s.codePoints) : 10 ∉ (text ++ s).codePoints := by
      rw [codePoints_append, List.mem_append, not_or]
      exact ⟨htext, hs⟩
    simp only [bodyTexts]
    by_cases hends : ending.endsWith "\n" = true
    · rw [if_pos hends]
      intro s hs
      rw [List.mem_singleton.mp hs]
      exact newline_notMem_plus (hboth (hyes hends).2)
    · rw [if_neg hends]
      intro s hs
      rcases List.mem_pair.mp hs with rfl | rfl
      · exact newline_notMem_plus (hboth (hno (by simpa using hends)))
      · exact hmarker

/-- The bytes of the body are those lines. -/
theorem flatten_bodyTexts {l : Fragment} (h : IsEnded l) :
    (lined (bodyTexts l)).flatten = (renderFragment l).octets := by
  have hmarker : marker = markerText ++ "\n" := rfl
  obtain ⟨text, ending⟩ := l
  cases ending with
  | none => simp [bodyTexts, renderFragment, lined, octets_append, hmarker]
  | some ending =>
    simp only [bodyTexts, renderFragment]
    by_cases hends : ending.endsWith "\n" = true
    · have hsplit := congrArg PyStr.octets ((h.separator rfl).1 hends).1
      rw [octets_append] at hsplit
      simp only [if_pos hends, lined, List.map_cons, List.map_nil, List.flatten_cons,
        List.flatten_nil, octets_append, List.append_assoc, hsplit]
      rfl
    · simp only [if_neg hends, lined, List.map_cons, List.map_nil, List.flatten_cons,
        List.flatten_nil, octets_append, List.append_assoc, hmarker, List.append_nil]

theorem octets_marker : asciiBytes marker = (markerText ++ "\n" : PyStr).octets := rfl

/-- A line of the file is what the reader makes of its lines: a marker that follows is its own. -/
theorem contributions_bodyTexts {l : Fragment} (h : IsEnded l) {rest : List Bytes}
    (hrest : ∀ line ∈ rest.head?, line.head? = some 43) :
    contributions (lined (bodyTexts l) ++ rest) = (whole l).octets :: contributions rest := by
  have hmarked (s : PyStr) : contributions (lined ["+" ++ s, markerText] ++ rest) =
      s.octets :: contributions rest := by
    have hhead : (asciiBytes marker).head? ≠ some 43 := by
      change some (92 : UInt8) ≠ some 43
      decide
    simp only [lined, List.map_cons, List.map_nil, List.cons_append, List.nil_append]
    rw [contributions, octets_newline ("+" ++ s), octets_plus, ← octets_marker, List.cons_append,
      if_pos List.head?_cons, List.head?_cons, if_pos rfl, contributions, if_neg hhead,
      List.tail_cons, List.dropLast_concat]
  have hunmarked (s : PyStr) : contributions (lined ["+" ++ s] ++ rest) =
      (s ++ "\n").octets :: contributions rest := by
    have hother : rest.head? ≠ some (asciiBytes marker) := by
      intro hmarker
      have hplus : some (92 : UInt8) = some 43 := hrest _ hmarker
      cases hplus
    simp only [lined, List.map_cons, List.map_nil, List.cons_append, List.nil_append]
    rw [contributions, octets_newline ("+" ++ s), octets_plus, List.cons_append,
      if_pos List.head?_cons, if_neg hother, List.tail_cons, octets_newline]
  obtain ⟨text, ending⟩ := l
  cases ending with
  | none =>
    have hwhole : whole (text, none) = text := ext (by simp [whole, ofString])
    rw [hwhole]
    exact hmarked text
  | some ending =>
    simp only [bodyTexts]
    by_cases hends : ending.endsWith "\n" = true
    · rw [if_pos hends, hunmarked]
      have hwhole : text ++ ⟨ending.codePoints.dropLast⟩ ++ "\n" = whole (text, some ending) := by
        have hsplit := congrArg codePoints ((h.separator rfl).1 hends).1
        apply ext
        simp only [codePoints_append, whole, Option.getD_some, List.append_assoc] at hsplit ⊢
        rw [← hsplit]
      rw [hwhole]
    · rw [if_neg hends, hmarked]
      rfl

theorem contributions_body {lines : List Fragment} (h : ∀ l ∈ lines, IsEnded l) :
    contributions (lines.flatMap fun l => lined (bodyTexts l)) =
      lines.map fun l => (whole l).octets := by
  induction lines with
  | nil => rfl
  | cons l lines ih =>
    obtain ⟨hl, hlines⟩ := List.forall_mem_cons.mp h
    rw [List.flatMap_cons, contributions_bodyTexts hl, ih hlines, List.map_cons]
    -- the next line of the file begins with a plus as well
    cases lines with
    | nil => simp
    | cons next lines =>
      obtain ⟨s, more, hs⟩ : ∃ (s : PyStr) (more : List PyStr),
          bodyTexts next = (PyStr.ofString "+" ++ s) :: more := by
        unfold bodyTexts
        split
        · exact ⟨_, _, rfl⟩
        · split <;> exact ⟨_, _, rfl⟩
      intro line hline
      simp only [List.flatMap_cons, hs, lined, List.map_cons, List.cons_append, List.head?_cons,
        Option.mem_some_iff] at hline
      rw [← hline, octets_newline, octets_plus]
      rfl

section Reader

variable {oldPath newPath : PyStr} {mode : Nat}

/-- The lines before the hunk. -/
def headTexts (oldPath newPath : PyStr) (mode : Nat) : List PyStr :=
  ["diff --git " ++ oldPath ++ " " ++ newPath, "new file mode " ++ fileMode mode]

def fileTexts (newPath : PyStr) : List PyStr := ["--- /dev/null", "+++ " ++ newPath]

def hunkText (lines : Nat) : PyStr := "@@ -0,0 +1," ++ ofInt lines ++ " @@"

def indexText : PyStr := "index 0000000..e69de29"

theorem flatten_headTexts :
    (lined (headTexts oldPath newPath mode)).flatten = (headLines oldPath newPath mode).octets := by
  have hmode : (PyStr.ofString "\nnew file mode ").octets =
      (PyStr.ofString "\n").octets ++ (PyStr.ofString "new file mode ").octets :=
    octets_append "\n" "new file mode "
  simp [lined, headTexts, headLines, octets_append, hmode]

theorem flatten_fileTexts : (lined (fileTexts newPath)).flatten = (fileLines newPath).octets := by
  have hfiles : (PyStr.ofString "--- /dev/null\n+++ ").octets =
      (PyStr.ofString "--- /dev/null").octets ++ (PyStr.ofString "\n").octets ++
        (PyStr.ofString "+++ ").octets := by
    rw [← octets_append, ← octets_append]
    rfl
  simp [lined, fileTexts, fileLines, octets_append, hfiles]

theorem octets_hunkText (lines : Nat) :
    (hunkText lines ++ "\n").octets = (hunkHeader lines).octets := by
  have hclosing : (PyStr.ofString " @@\n").octets =
      (PyStr.ofString " @@").octets ++ (PyStr.ofString "\n").octets := octets_append " @@" "\n"
  simp [hunkText, hunkHeader, octets_append, hclosing]

theorem newline_notMem_headTexts (hold : 10 ∉ oldPath.codePoints) (hnew : 10 ∉ newPath.codePoints) :
    ∀ s ∈ headTexts oldPath newPath mode, 10 ∉ s.codePoints := by
  have hmode : 10 ∉ ("new file mode " ++ fileMode mode).codePoints := by
    unfold fileMode
    split <;> exact newline_notMem rfl
  intro s hs
  rcases List.mem_pair.mp hs with rfl | rfl
  · simp only [codePoints_append, List.mem_append, not_or]
    exact ⟨⟨⟨newline_notMem rfl, hold⟩, newline_notMem rfl⟩, hnew⟩
  · exact hmode

theorem newline_notMem_fileTexts (hnew : 10 ∉ newPath.codePoints) :
    ∀ s ∈ fileTexts newPath, 10 ∉ s.codePoints := by
  intro s hs
  rcases List.mem_pair.mp hs with rfl | rfl
  · exact newline_notMem rfl
  · simp only [codePoints_append, List.mem_append, not_or]
    exact ⟨newline_notMem rfl, hnew⟩

theorem newline_notMem_hunkText (lines : Nat) : 10 ∉ (hunkText lines).codePoints := by
  simp only [hunkText, codePoints_append, List.mem_append, not_or]
  refine ⟨⟨newline_notMem rfl, fun hmem => ?_⟩, newline_notMem rfl⟩
  have hdigit := digits_ofInt lines 10 hmem
  omega

/-- No line before the hunk looks like its header. -/
theorem notHeader_headTexts : ∀ line ∈ lined (headTexts oldPath newPath mode),
    (!(bytes "@@ ").isPrefixOf line) = true := by
  intro line hline
  simp only [lined, headTexts, List.map_cons, List.map_nil] at hline
  rcases List.mem_pair.mp hline with rfl | rfl <;> rfl

theorem notHeader_fileTexts : ∀ line ∈ lined (fileTexts newPath),
    (!(bytes "@@ ").isPrefixOf line) = true := by
  intro line hline
  simp only [lined, fileTexts, List.map_cons, List.map_nil] at hline
  rcases List.mem_pair.mp hline with rfl | rfl <;> rfl

/-- What is read back of the patch of a file with lines. -/
theorem hunkOf_patchText {lines : List Fragment} (hlines : ∀ l ∈ lines, IsEnded l) (hne : lines ≠ [])
    (hold : 10 ∉ oldPath.codePoints) (hnew : 10 ∉ newPath.codePoints) :
    hunkOf (patchText oldPath newPath mode lines).octets =
      some ((hunkHeader lines.length).octets, lines.flatMap fun l => lined (bodyTexts l)) := by
  have hbody : (⟨lines.flatMap fun l => (renderFragment l).codePoints⟩ : PyStr).octets =
      (lined (lines.flatMap bodyTexts)).flatten := by
    have hl : ∀ l ∈ lines, (renderFragment l).octets = (lined (bodyTexts l)).flatten :=
      fun l hl => (flatten_bodyTexts (hlines l hl)).symm
    calc (⟨lines.flatMap fun l => (renderFragment l).codePoints⟩ : PyStr).octets
      _ = lines.flatMap fun l => (renderFragment l).octets := by
        simp [PyStr.octets, List.flatMap_assoc]
      _ = lines.flatMap fun l => (lined (bodyTexts l)).flatten := List.flatMap_congr hl
      _ = (lined (lines.flatMap bodyTexts)).flatten := by
        simp [lined, List.flatMap, List.flatten_flatten, Function.comp_def]
  have hpatch : (patchText oldPath newPath mode lines).octets =
      (lined (headTexts oldPath newPath mode ++ fileTexts newPath ++ hunkText lines.length ::
        lines.flatMap bodyTexts)).flatten := by
    rw [patchText, if_neg hne]
    simp only [octets_append, hbody, ← flatten_headTexts, ← flatten_fileTexts, ← octets_hunkText,
      lined, List.map_append, List.map_cons, List.flatten_append, List.flatten_cons,
      List.append_assoc]
  have hwithout : ∀ s ∈ headTexts oldPath newPath mode ++ fileTexts newPath ++
      hunkText lines.length :: lines.flatMap bodyTexts, 10 ∉ s.codePoints := by
    simp only [List.forall_mem_append, List.forall_mem_cons]
    refine ⟨⟨newline_notMem_headTexts hold hnew, newline_notMem_fileTexts hnew⟩,
      newline_notMem_hunkText _, fun s hs => ?_⟩
    obtain ⟨l, hl, hmem⟩ := List.mem_flatMap.mp hs
    exact newline_notMem_bodyTexts (hlines l hl) s hmem
  have hskipped : ∀ line ∈ lined (headTexts oldPath newPath mode ++ fileTexts newPath),
      (!(bytes "@@ ").isPrefixOf line) = true := by
    rw [lined, List.map_append]
    exact List.forall_mem_append.mpr ⟨notHeader_headTexts, notHeader_fileTexts⟩
  have hlined : lined (headTexts oldPath newPath mode ++ fileTexts newPath ++
      hunkText lines.length :: lines.flatMap bodyTexts) =
        lined (headTexts oldPath newPath mode ++ fileTexts newPath) ++
          (hunkHeader lines.length).octets :: lines.flatMap fun l => lined (bodyTexts l) := by
    rw [← octets_hunkText]
    simp [lined, List.map_flatMap]
  have hheader : (!(bytes "@@ ").isPrefixOf (hunkHeader lines.length).octets) = false := rfl
  rw [hunkOf, hpatch, linesOf_lined hwithout, hlined, List.dropWhile_append_of_pos hskipped,
    List.dropWhile_cons_of_neg (by simp [hheader])]

theorem hunkOf_patchText_nil (hold : 10 ∉ oldPath.codePoints) (hnew : 10 ∉ newPath.codePoints) :
    hunkOf (patchText oldPath newPath mode []).octets = none := by
  have hindex : indexLine.octets = (indexText ++ "\n").octets := rfl
  have hpatch : (patchText oldPath newPath mode []).octets =
      (lined (headTexts oldPath newPath mode ++ [indexText])).flatten := by
    rw [patchText, if_pos rfl, octets_append, ← flatten_headTexts, hindex]
    simp [lined]
  have hwithout : ∀ s ∈ headTexts oldPath newPath mode ++ [indexText], 10 ∉ s.codePoints := by
    refine List.forall_mem_append.mpr ⟨newline_notMem_headTexts hold hnew, ?_⟩
    intro s hs
    rw [List.mem_singleton.mp hs]
    exact newline_notMem rfl
  have hskipped : ∀ line ∈ lined (headTexts oldPath newPath mode ++ [indexText]),
      (!(bytes "@@ ").isPrefixOf line) = true := by
    rw [lined, List.map_append]
    refine List.forall_mem_append.mpr ⟨notHeader_headTexts, ?_⟩
    intro line hline
    rw [List.mem_singleton.mp hline]
    rfl
  rw [hunkOf, hpatch, linesOf_lined hwithout, List.dropWhile_eq_nil_iff.mpr hskipped]

/-- What the unified-diff reader makes of a patch for the file. -/
structure WritesBack (payload patch : Bytes) : Prop where
  readBack : readBack patch = payload
  /-- The header counts the `+` lines. -/
  counted : ∀ header body, hunkOf patch = some (header, body) →
    header = (hunkHeader (contributions body).length).octets

theorem writesBack_patchText {payload : Bytes} {points : List Nat}
    (h : utf8Decode payload = some points) (hold : 10 ∉ oldPath.codePoints)
    (hnew : 10 ∉ newPath.codePoints) :
    WritesBack payload (patchText oldPath newPath mode (endedLines ⟨points⟩)).octets := by
  have hpayload : (⟨points⟩ : PyStr).octets = payload :=
    (utf8Encode_eq_some.mp (utf8Encode_of_decode h)).2
  by_cases hnil : points = []
  · have hlines : endedLines ⟨points⟩ = [] := lines_eq_nil_iff.mpr hnil
    rw [hlines]
    refine ⟨?_, fun header body hhunk => ?_⟩
    · rw [readBack, hunkOf_patchText_nil hold hnew, ← hpayload, hnil]
      rfl
    · rw [hunkOf_patchText_nil hold hnew] at hhunk
      cases hhunk
  · have hended : ∀ l ∈ endedLines ⟨points⟩, IsEnded l := isEnded_of_mem (by simp)
    have hhunk := @hunkOf_patchText oldPath newPath mode _ hended (lines_eq_nil_iff.not.mpr hnil)
      hold hnew
    refine ⟨?_, fun header body hheader => ?_⟩
    · have htext : textOf (endedLines ⟨points⟩) = points := textOf_endedLinesFrom [] points
      have hwhole (lines : List Fragment) : (lines.map fun l => (whole l).octets).flatten =
          (⟨textOf lines⟩ : PyStr).octets := by
        rw [← List.flatMap_def]
        simp only [PyStr.octets, textOf, List.flatMap_assoc]
      rw [readBack, hhunk]
      simp only [contributions_body hended, hwhole, htext, hpayload]
    · rw [hhunk] at hheader
      cases hheader
      rw [contributions_body hended, List.length_map]

end Reader

/-! ## 11. The main result -/

/-- The blocks in which a file is read: none is empty, since an empty read ends the loop. -/
structure Cut (payload : Bytes) where
  blocks : List Bytes
  nonempty : ∀ block ∈ blocks, block ≠ []
  flatten : blocks.flatten = payload

/-- The two functions write the same bytes, and the file is read back of them. -/
def Faithful (name : PyStr) (mode : Nat) (payload : Bytes) (read counted written : Cut payload) :
    Prop :=
  ∃ text patch, renderUntrackedPatch name payload mode = .ok text ∧
    text.utf8Encode = some patch ∧
    spoolUntrackedPatch name mode read.blocks counted.blocks written.blocks =
      .ok (patch, Sha256.hexdigest payload, payload.length) ∧
    WritesBack payload patch

/-- **The patch of an untracked file** is written faithfully exactly when its name has a spelling. -/
theorem faithful_iff {name : PyStr} {mode : Nat} {payload : Bytes} (hnul : 0 ∉ payload)
    (hutf8 : (utf8Decode payload).isSome = true) (read counted written : Cut payload) :
    Faithful name mode payload read counted written ↔ Spellable name := by
  obtain ⟨points, h⟩ := Option.isSome_iff_exists.mp hutf8
  obtain ⟨hspellOld, hcheckOld⟩ := quoteDiffPath_spec (Or.inl rfl : ("a" : PyStr) = "a" ∨ _) name
  obtain ⟨hspellNew, hcheckNew⟩ := quoteDiffPath_spec (Or.inr rfl : ("b" : PyStr) = "a" ∨ _) name
  constructor
  · rintro ⟨text, patch, hrender, hpatch, _, _⟩
    have hquoted : ∃ oldPath newPath, quoteDiffPath "a" name = .ok oldPath ∧
        quoteDiffPath "b" name = .ok newPath := by
      have hrun := hrender
      rw [renderUntrackedPatch, if_neg hnul, h] at hrun
      obtain ⟨oldPath, hold, hrun⟩ := bind_eq_ok.mp hrun
      obtain ⟨newPath, hnew, _⟩ := bind_eq_ok.mp hrun
      exact ⟨oldPath, newPath, hold, hnew⟩
    obtain ⟨oldPath, newPath, hold, hnew⟩ := hquoted
    rw [renderUntrackedPatch_eq hnul h hold hnew] at hrender
    cases hrender
    have hencodable := (utf8Encode_eq_some.mp hpatch).1
    simp only [patchText, headLines, isEncodable_append] at hencodable
    exact (hcheckOld oldPath hold).1 (by tauto)
  · intro hspellable
    obtain ⟨oldPath, hold, heold⟩ := hspellOld hspellable
    obtain ⟨newPath, hnew, henew⟩ := hspellNew hspellable
    refine ⟨_, _, renderUntrackedPatch_eq hnul h hold hnew,
      utf8Encode_eq_some.mpr ⟨isEncodable_patchText h heold henew, rfl⟩,
      spoolUntrackedPatch_eq hnul h read.flatten counted.flatten written.flatten hold hnew heold
        henew,
      writesBack_patchText h (hcheckOld oldPath hold).2 (hcheckNew newPath hnew).2⟩

/-- A file in one block. -/
def Cut.one (payload : Bytes) (h : payload ≠ []) : Cut payload :=
  ⟨[payload], by simpa using h, by simp⟩

/-- A text with separators of one, two and three kinds, the last cut inside its character. -/
theorem faithful_sample : Faithful "notes.txt" 0o644 [97, 13, 10, 98, 12, 99, 0xc2, 0x85]
    ⟨[[97, 13, 10, 98, 12, 99, 0xc2], [0x85]], by decide, by decide⟩
    ⟨[[97, 13], [10, 98, 12, 99, 0xc2], [0x85]], by decide, by decide⟩
    (Cut.one _ (by decide)) :=
  (faithful_iff (by decide) (by decide +kernel) _ _ _).mpr (by decide +kernel)

/-- A name with an octet that is no UTF-8 and nothing to quote: neither patch has an encoding. -/
theorem bare_surrogate_refused :
    ¬ ∀ name mode payload, 0 ∉ payload → (utf8Decode payload).isSome = true →
      ∀ read counted written, Faithful name mode payload read counted written := by
  intro h
  obtain ⟨text, patch, hrender, hpatch, _, _⟩ :=
    h ⟨[98, 0xdcff]⟩ 0o644 [97] (by decide) (by decide +kernel) (Cut.one _ (by decide))
      (Cut.one _ (by decide)) (Cut.one _ (by decide))
  have hnone : (renderUntrackedPatch ⟨[98, 0xdcff]⟩ [97] 0o644).toOption.bind PyStr.utf8Encode =
      none := by decide +kernel
  rw [hrender] at hnone
  rw [show (Except.ok text : Except PatchError PyStr).toOption = some text from rfl,
    Option.bind_some, hpatch] at hnone
  cases hnone

end Supplementary.Push
