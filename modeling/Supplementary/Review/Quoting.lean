/-
# Header paths and how Git spells them

A `diff --git` line holds two spellings of one path: the bytes themselves, or a C string when some
byte needs a quote.  Which bytes get one depends on the writer's configuration, so `Quoting` leaves
it open and asks only what the split rests on: the bytes that would be misread are quoted, and the
letters of the two prefixes are treated alike.

Both spellings then have one length and the midpoint of the line falls between them, whatever the
path contains.  `path_value` inverts a spelling; the one thing in the way is its bound, which is on
the spelling and not on the path.
-/
import Supplementary.Review.Grammar
import Supplementary.Python.Utf8

namespace Supplementary.Review

open Supplementary Tiling

/-! ## 1. Spellings -/

/-- The letter of a one-character escape. -/
def escapeOf (b : UInt8) : Option UInt8 :=
  ([(7, 97), (8, 98), (9, 116), (10, 110), (11, 118), (12, 102), (13, 114), (34, 34), (92, 92)] :
    List (UInt8 × UInt8)).lookup b

/-- A backslash and three octal digits. -/
def octalEscape (b : UInt8) : Bytes :=
  [92, (48 + b.toNat / 64).toUInt8, (48 + b.toNat / 8 % 8).toUInt8, (48 + b.toNat % 8).toUInt8]

/-- Which bytes a writer of headers quotes. -/
structure Quoting where
  quotes : UInt8 → Bool
  /-- Controls, the quote and the backslash. -/
  needed : ∀ b, b < 32 ∨ b = 34 ∨ b = 92 ∨ b = 127 → quotes b = true
  /-- The letters of `a/` and `b/`. -/
  sides : quotes 97 = quotes 98

namespace Quoting

/-- Git's own choice, by its `core.quotePath`. -/
def git (quotePath : Bool) : Quoting where
  quotes b := b < 32 || b = 34 || b = 92 || b = 127 || (quotePath && 128 ≤ b)
  needed := by
    intro b h
    rcases h with h | rfl | rfl | rfl
    · simp [h]
    · rfl
    · rfl
    · rfl
  sides := by cases quotePath <;> rfl

def spellByte (q : Quoting) (b : UInt8) : Bytes :=
  if q.quotes b then
    match escapeOf b with
    | some letter => [92, letter]
    | none => octalEscape b
  else [b]

/-- The spelling of a byte string: itself when no byte is quoted, else a C string. -/
def spell (q : Quoting) (raw : Bytes) : Bytes :=
  if raw.any q.quotes then 34 :: (raw.flatMap q.spellByte ++ [34]) else raw

/-- `a/path b/path`, each side spelled. -/
def header (q : Quoting) (raw : Bytes) : Bytes :=
  q.spell (bytes "a/" ++ raw) ++ 32 :: q.spell (bytes "b/" ++ raw)

/-- The line a record begins with. -/
def headerLine (q : Quoting) (raw : Bytes) : Bytes := bytes "diff --git " ++ q.header raw ++ [10]

end Quoting

/-! ## 2. Reading a byte back -/

theorem pathEscape_escapeOf : ∀ b letter, escapeOf b = some letter → pathEscape letter = some b := by
  have h : ∀ b, ∀ letter ∈ escapeOf b, pathEscape letter = some b :=
    forall_byte (by decide +kernel)
  exact fun b letter hb => h b letter hb

/-- Octal digits are no letters of escapes and denote the byte they were written for. -/
theorem octalEscape_digits : ∀ b : UInt8,
    pathEscape (48 + b.toNat / 64).toUInt8 = none ∧
      isOctal (48 + b.toNat / 64).toUInt8 (48 + b.toNat / 8 % 8).toUInt8
        (48 + b.toNat % 8).toUInt8 = true ∧
      (((48 + b.toNat / 64).toUInt8.toNat - 48) * 64 +
        ((48 + b.toNat / 8 % 8).toUInt8.toNat - 48) * 8 +
        ((48 + b.toNat % 8).toUInt8.toNat - 48)).toUInt8 = b :=
  forall_byte (by decide +kernel)

/-- A byte other than a backslash stands for itself. -/
theorem unquote_plain {b : UInt8} (h : b ≠ 92) (rest : Bytes) :
    unquote (b :: rest) = (unquote rest).map (b :: ·) := by
  rw [unquote.eq_def]
  split
  · next heq => cases heq
  · next heq => exact absurd (List.cons.inj heq).1 h
  · next heq => exact absurd (List.cons.inj heq).1 h
  · next heq =>
    obtain ⟨rfl, rfl⟩ := List.cons.inj heq
    cases unquote rest <;> rfl

theorem Quoting.unquote_spellByte (q : Quoting) (b : UInt8) (rest : Bytes) :
    unquote (q.spellByte b ++ rest) = (unquote rest).map (b :: ·) := by
  unfold Quoting.spellByte
  split
  · split
    · next letter hletter =>
      rw [List.cons_append, List.singleton_append, unquote.eq_def]
      simp only [pathEscape_escapeOf b letter hletter]
      cases unquote rest <;> rfl
    · next hnone =>
      obtain ⟨hplain, hoctal, hvalue⟩ := octalEscape_digits b
      simp only [octalEscape, List.cons_append, List.nil_append]
      rw [unquote.eq_def]
      simp only [hplain, hoctal, hvalue, if_true]
      cases unquote rest <;> rfl
  · next hplain =>
    refine unquote_plain ?_ rest
    rintro rfl
    exact hplain (q.needed 92 (by simp))

theorem Quoting.unquote_flatMap (q : Quoting) (raw : Bytes) :
    unquote (raw.flatMap q.spellByte) = .ok raw := by
  induction raw with
  | nil => rfl
  | cons b raw ih =>
    rw [List.flatMap_cons, q.unquote_spellByte, ih]
    rfl

/-- **A spelling is read back.** -/
theorem Quoting.unquoted_spell (q : Quoting) (raw : Bytes) : unquoted (q.spell raw) = .ok raw := by
  unfold Quoting.spell unquoted
  split
  · rw [if_pos (by rfl), require_of (by rw [← List.cons_append, List.getLast?_concat])]
    simp only [List.drop_succ_cons, List.drop_zero, List.dropLast_concat]
    exact q.unquote_flatMap raw
  · next hplain =>
    refine if_neg ?_
    intro hquote
    refine hplain (List.any_eq_true.mpr ⟨34, List.mem_of_mem_head? hquote, ?_⟩)
    exact q.needed 34 (by simp)

/-! ## 3. The midpoint -/

theorem Quoting.spellByte_side (q : Quoting) :
    (q.spellByte 97).length = (q.spellByte 98).length := by
  unfold Quoting.spellByte
  rw [q.sides]
  split <;> rfl

/-- The two sides are spelled in equally many bytes. -/
theorem Quoting.length_spell (q : Quoting) (raw : Bytes) :
    (q.spell (bytes "b/" ++ raw)).length = (q.spell (bytes "a/" ++ raw)).length := by
  have ha : bytes "a/" = [97, 47] := rfl
  have hb : bytes "b/" = [98, 47] := rfl
  have hside := q.spellByte_side
  unfold Quoting.spell
  rw [ha, hb]
  simp only [List.cons_append, List.nil_append, List.any_cons, ← q.sides, List.flatMap_cons]
  split
  · simp only [List.length_cons, List.length_append, hside]
  · rfl

/-- **The split.**  The middle byte of the header is the blank between the two spellings. -/
theorem Quoting.header_splits (q : Quoting) (raw : Bytes) :
    (q.header raw).length % 2 = 1 ∧ (q.header raw)[(q.header raw).length / 2]? = some 32 ∧
      (q.header raw).take ((q.header raw).length / 2) = q.spell (bytes "a/" ++ raw) ∧
      (q.header raw).drop ((q.header raw).length / 2 + 1) = q.spell (bytes "b/" ++ raw) := by
  have hlen := q.length_spell raw
  have htotal : (q.header raw).length = 2 * (q.spell (bytes "a/" ++ raw)).length + 1 := by
    simp only [Quoting.header, List.length_append, List.length_cons]
    omega
  have hmid : (q.header raw).length / 2 = (q.spell (bytes "a/" ++ raw)).length := by omega
  rw [hmid]
  refine ⟨by omega, ?_, ?_, ?_⟩
  · rw [Quoting.header, List.getElem?_append_right le_rfl]
    simp
  · rw [Quoting.header, List.take_left]
  · have hblank : (q.spell (bytes "a/" ++ raw)).length + 1 =
        (q.spell (bytes "a/" ++ raw) ++ [32]).length := by simp
    rw [Quoting.header, List.append_cons, hblank]
    exact List.drop_left

/-- No spelling breaks the line. -/
theorem Quoting.newline_notMem_spell (q : Quoting) (raw : Bytes) : 10 ∉ q.spell raw := by
  have hquoted : q.quotes 10 = true := q.needed 10 (by decide)
  have hbyte : ∀ b, 10 ∉ q.spellByte b := by
    intro b
    unfold Quoting.spellByte
    split
    · split
      · next letter hletter =>
        have h : ∀ b, ∀ letter ∈ escapeOf b, letter ≠ 10 := forall_byte (by decide +kernel)
        have := h b letter hletter
        simp [this.symm]
      · have h : ∀ b, 10 ∉ octalEscape b := forall_byte (by decide +kernel)
        exact h b
    · next hplain =>
      intro hmem
      rw [← List.mem_singleton.mp hmem] at hplain
      exact hplain hquoted
  unfold Quoting.spell
  split
  · intro hmem
    simp only [List.mem_cons, List.mem_append, List.mem_flatMap, List.not_mem_nil, or_false] at hmem
    rcases hmem with h | ⟨b, -, h⟩ | h
    · exact absurd h (by decide)
    · exact hbyte b h
    · exact absurd h (by decide)
  · next hplain =>
    intro hmem
    exact hplain (List.any_eq_true.mpr ⟨10, hmem, hquoted⟩)

theorem Quoting.isLine_headerLine (q : Quoting) (raw : Bytes) : IsLine (q.headerLine raw) := by
  refine ⟨bytes "diff --git " ++ q.header raw, rfl, fun hmem => ?_⟩
  simp only [Quoting.header, List.mem_append, List.mem_cons] at hmem
  rcases hmem with h | h | h | h
  · exact absurd h (by decide)
  · exact q.newline_notMem_spell _ h
  · exact absurd h (by decide)
  · exact q.newline_notMem_spell _ h

/-! ## 4. Reading the path back -/

theorem validatePath_eq_ok {path : PyStr} {raw : Bytes} {u : Unit} (h : validatePath path = .ok u)
    (hraw : path.utf8Encode = some raw) : 0 ∉ raw := by
  unfold validatePath at h
  rw [hraw] at h
  simp only [bind_eq_ok] at h
  obtain ⟨_, -, _, htext, -⟩ := h
  exact (text_eq_ok htext).1

/-- What `path_value` makes of one spelled side. -/
theorem Quoting.pathValue_spell (q : Quoting) {path : PyStr} {raw : Bytes} (htext : path.IsText)
    (hpath : validatePath path = .ok ()) (hraw : path.utf8Encode = some raw) (side : Bytes)
    (hside : side ≠ []) :
    pathValue (q.spell (side ++ raw)) side =
      if (q.spell (side ++ raw)).length ≤ 32768 then .ok path
      else .error (.reviewError "path-length") := by
  have hplain : plainValue side (side ++ raw) = .ok path := by
    have hprefix : side.isPrefixOf (side ++ raw) = true := by
      rw [List.isPrefixOf_iff_prefix]
      exact List.prefix_append side raw
    rw [plainValue, require_of hprefix, List.drop_left]
    simp only [ok_bind, require_of (validatePath_eq_ok hpath hraw),
      utf8Decode_utf8Encode htext hraw]
    rw [hpath]
    rfl
  have hpos : 0 < (q.spell (side ++ raw)).length := by
    unfold Quoting.spell
    split
    · simp
    · rw [List.length_append]
      have := List.length_pos_iff.mpr hside
      omega
  rw [pathValue_eq, q.unquoted_spell]
  split
  · next hle =>
    rw [require_of ⟨hpos, hle⟩]
    exact hplain
  · next hlong =>
    rw [require_of_not (fun h => hlong h.2)]
    rfl

/-- **The header.** -/
theorem Quoting.headerPath_headerLine (q : Quoting) {path : PyStr} {raw : Bytes}
    (htext : path.IsText) (hpath : validatePath path = .ok ())
    (hraw : path.utf8Encode = some raw) {c : Cursor} (hline : c.lines.head? = some (q.headerLine raw)) :
    headerPath c = if (q.spell (bytes "a/" ++ raw)).length ≤ 32768 then .ok path
      else .error (.reviewError "path-length") := by
  have hfield : c.field 11 = q.header raw := by
    have hdrop : (q.headerLine raw).drop 11 = q.header raw ++ [10] := by
      rw [Quoting.headerLine, List.append_assoc]
      exact List.drop_left' (by rfl)
    rw [Cursor.field, List.headD_eq_head?_getD, hline, Option.getD_some, hdrop,
      List.dropLast_concat]
  obtain ⟨hodd, hblank, hold, hnew⟩ := q.header_splits raw
  have ha := q.pathValue_spell htext hpath hraw (bytes "a/") (by decide)
  have hb := q.pathValue_spell htext hpath hraw (bytes "b/") (by decide)
  rw [q.length_spell raw] at hb
  rw [headerPath, hfield]
  simp only [require_of (And.intro hodd hblank), ok_bind, hold, hnew, ha, hb]
  split
  · simp only [ok_bind]
    rfl
  · rfl

/-! ## 5. Records -/

theorem Quoting.startsWith_headerLine (q : Quoting) {raw : Bytes} {c : Cursor}
    (hline : c.lines.head? = some (q.headerLine raw)) :
    c.startsWith (bytes "diff --git ") = true := by
  obtain ⟨lines, offset⟩ := c
  cases lines with
  | nil => cases hline
  | cons line lines =>
    obtain rfl : line = q.headerLine raw := by simpa using hline
    simp only [Cursor.startsWith, List.isPrefixOf_iff_prefix, Quoting.headerLine]
    rw [List.append_assoc]
    exact List.prefix_append _ _

theorem lines_ne_nil_of_head {c : Cursor} {line : Bytes} (h : c.lines.head? = some line) :
    c.lines ≠ [] := by
  intro hnil
  rw [hnil] at h
  cases h

/-- A record whose header cannot be read ends the inventory with that error. -/
theorem Quoting.filesFrom_error (q : Quoting) {raw : Bytes} {c : Cursor} {e : PyError}
    (hline : c.lines.head? = some (q.headerLine raw)) (seen : List PyStr) (rounds : Nat)
    (h : (headerPath c >>= fun path => require (path ∉ seen) "duplicate-path") = .error e) :
    filesFrom (rounds + 1) c seen = .error e := by
  have hrecord : fileRecord c seen = .error e := by
    rw [fileRecord, require_of (q.startsWith_headerLine hline)]
    simp only [ok_bind]
    cases hpath : headerPath c with
    | error e' =>
      rw [hpath] at h
      cases h
      rfl
    | ok path =>
      rw [hpath] at h
      simp only [ok_bind] at h ⊢
      rw [h]
      rfl
  rw [filesFrom, if_neg (lines_ne_nil_of_head hline), hrecord]
  rfl

/-- The path of an accepted record is the one its first line spells. -/
theorem Quoting.path_of_inventory (q : Quoting) {path : PyStr} {raw : Bytes} (htext : path.IsText)
    (hpath : validatePath path = .ok ()) (hraw : path.utf8Encode = some raw) {payload : Bytes}
    {files : List FileRecord} (h : inventory payload = .ok files) {file : FileRecord}
    (hfile : file ∈ files)
    (hline : (linesOf (slice payload file.start file.stop)).head? = some (q.headerLine raw)) :
    file.path = path := by
  obtain ⟨header, modes, index, markers, body, hlines, -, hheader, -⟩ :=
    (((inventory_recognises payload).2.2 files h).records file hfile).lines
  rw [hlines, List.head?_cons, Option.some.injEq] at hline
  have hread := q.headerPath_headerLine htext hpath hraw (c := ⟨[header], 0⟩) (by simp [hline])
  rw [hheader] at hread
  split at hread
  · exact Except.ok.inj hread
  · cases hread

/-- What a header line of `path` does for the inventory. -/
structure ReadBack (q : Quoting) (path : PyStr) (raw : Bytes) : Prop where
  paths : pathValue (q.spell (bytes "a/" ++ raw)) (bytes "a/") = .ok path ∧
    pathValue (q.spell (bytes "b/" ++ raw)) (bytes "b/") = .ok path
  header : ∀ c : Cursor, c.lines.head? = some (q.headerLine raw) → headerPath c = .ok path
  /-- No other path has this line. -/
  own : ∀ (q' : Quoting) (path' : PyStr) (raw' : Bytes), path'.IsText →
    validatePath path' = .ok () → path'.utf8Encode = some raw' →
    q.headerLine raw = q'.headerLine raw' → path = path'
  /-- The record is filed under the path. -/
  record : ∀ payload files, inventory payload = .ok files → ∀ file ∈ files,
    (linesOf (slice payload file.start file.stop)).head? = some (q.headerLine raw) →
      file.path = path
  /-- After a record of the path, however that one was spelled, this line is refused. -/
  duplicate : ∀ (c : Cursor) (seen : List PyStr) (rounds : Nat),
    c.lines.head? = some (q.headerLine raw) → path ∈ seen →
      filesFrom (rounds + 1) c seen = .error (.reviewError "duplicate-path")
  /-- An accepted payload has one record for all spellings. -/
  once : ∀ (q' : Quoting) payload files, inventory payload = .ok files → ∀ f ∈ files, ∀ g ∈ files,
    (linesOf (slice payload f.start f.stop)).head? = some (q.headerLine raw) →
    (linesOf (slice payload g.start g.stop)).head? = some (q'.headerLine raw) → f = g

theorem Quoting.readBack (q : Quoting) {path : PyStr} {raw : Bytes} (htext : path.IsText)
    (hpath : validatePath path = .ok ()) (hraw : path.utf8Encode = some raw)
    (hshort : (q.spell (bytes "a/" ++ raw)).length ≤ 32768) : ReadBack q path raw := by
  have hheader : ∀ c : Cursor, c.lines.head? = some (q.headerLine raw) →
      headerPath c = .ok path := by
    intro c hline
    rw [q.headerPath_headerLine htext hpath hraw hline, if_pos hshort]
  refine ⟨⟨?_, ?_⟩, hheader, ?_, ?_, ?_, ?_⟩
  · rw [q.pathValue_spell htext hpath hraw _ (by decide), if_pos hshort]
  · rw [q.pathValue_spell htext hpath hraw _ (by decide), q.length_spell, if_pos hshort]
  · intro q' path' raw' htext' hpath' hraw' hline
    have hread := hheader ⟨[q.headerLine raw], 0⟩ rfl
    rw [q'.headerPath_headerLine htext' hpath' hraw' (by rw [hline]; rfl)] at hread
    split at hread
    · exact (Except.ok.inj hread).symm
    · cases hread
  · intro payload files h file hfile hline
    exact q.path_of_inventory htext hpath hraw h hfile hline
  · intro c seen rounds hline hseen
    refine q.filesFrom_error hline seen rounds ?_
    rw [hheader c hline, ok_bind, require_of_not (not_not.mpr hseen)]
  · intro q' payload files h f hf g hg hfline hgline
    have hdistinct := ((inventory_recognises payload).2.2 files h).distinct
    refine List.inj_on_of_nodup_map hdistinct hf hg ?_
    rw [q.path_of_inventory htext hpath hraw h hf hfline,
      q'.path_of_inventory htext hpath hraw h hg hgline]

/-- **Headers are read back.**  Whatever the path contains, its header is one line, the midpoint
separates the two spellings, and both are read as the path, unless a spelling is longer than the
bound on paths. -/
theorem header_read_back (q : Quoting) (path : PyStr) (raw : Bytes) (htext : path.IsText)
    (hpath : validatePath path = .ok ()) (hraw : path.utf8Encode = some raw) :
    IsLine (q.headerLine raw) ∧
    ((q.header raw).length % 2 = 1 ∧ (q.header raw)[(q.header raw).length / 2]? = some 32 ∧
      (q.header raw).take ((q.header raw).length / 2) = q.spell (bytes "a/" ++ raw) ∧
      (q.header raw).drop ((q.header raw).length / 2 + 1) = q.spell (bytes "b/" ++ raw)) ∧
    ((q.spell (bytes "a/" ++ raw)).length ≤ 32768 → ReadBack q path raw) ∧
    (32768 < (q.spell (bytes "a/" ++ raw)).length →
      ∀ (c : Cursor) (seen : List PyStr) (rounds : Nat),
        c.lines.head? = some (q.headerLine raw) →
          filesFrom (rounds + 1) c seen = .error (.reviewError "path-length")) := by
  refine ⟨q.isLine_headerLine raw, q.header_splits raw, q.readBack htext hpath hraw, ?_⟩
  intro hlong c seen rounds hline
  refine q.filesFrom_error hline seen rounds ?_
  rw [q.headerPath_headerLine htext hpath hraw hline, if_neg (by omega)]
  rfl

/-- A name with a quote, a blank, the other side's prefix and a letter that is no ASCII. -/
theorem header_read_back_sample :
    ReadBack (Quoting.git true) "x\" b/é" (bytes "x\" b/" ++ [195, 169]) := by
  have htext : PyStr.IsText "x\" b/é" := by
    unfold PyStr.IsText
    decide +kernel
  have hpath : validatePath "x\" b/é" = .ok () := by decide +kernel
  have hraw : PyStr.utf8Encode "x\" b/é" = some (bytes "x\" b/" ++ [195, 169]) := by decide +kernel
  exact (header_read_back (Quoting.git true) "x\" b/é" (bytes "x\" b/" ++ [195, 169]) htext hpath
    hraw).2.2.1 (by decide +kernel)

/-! ## 6. The longest names -/

theorem Quoting.length_le_spell (q : Quoting) (raw : Bytes) : raw.length ≤ (q.spell raw).length := by
  have hbyte : ∀ b, 1 ≤ (q.spellByte b).length := by
    intro b
    unfold Quoting.spellByte
    split
    · split <;> simp [octalEscape]
    · simp
  have hflat : raw.length ≤ (raw.flatMap q.spellByte).length := by
    induction raw with
    | nil => exact le_rfl
    | cons b raw ih =>
      have := hbyte b
      rw [List.flatMap_cons, List.length_cons, List.length_append]
      omega
  unfold Quoting.spell
  split
  · simp only [List.length_cons, List.length_append]
    omega
  · exact le_rfl

/-- A path of one repeated letter. -/
def letters (n : Nat) : PyStr := ⟨List.replicate n 120⟩

theorem utf8Encode_letters (n : Nat) : (letters n).utf8Encode = some (List.replicate n 120) := by
  have hparts : (List.replicate n 120).mapM utf8EncodePoint = some (List.replicate n [120]) := by
    induction n with
    | zero => rfl
    | succ n ih =>
      rw [List.replicate_succ, List.mapM_cons, ih]
      rfl
  rw [PyStr.utf8Encode, letters, hparts, Option.map_some, List.flatten_replicate_singleton]

theorem validatePath_letters {n : Nat} (h : 4 < n ∧ n ≤ 32768) :
    validatePath (letters n) = .ok () := by
  have htext : (letters n).IsText := by
    intro c hc
    rw [List.eq_of_mem_replicate hc]
    decide
  have hnul : 0 ∉ List.replicate n (120 : UInt8) := by
    intro hmem
    exact absurd (List.eq_of_mem_replicate hmem) (by decide)
  have hdecode := utf8Decode_utf8Encode htext (utf8Encode_letters n)
  have hslash : (letters n).startsWith "/" = false := by
    obtain ⟨m, rfl⟩ : ∃ m, n = m + 1 := ⟨n - 1, by omega⟩
    rfl
  have hsplit : (letters n).split '/' = [letters n] := by
    have hmem : '/'.toNat ∉ List.replicate n 120 := by
      intro hmem
      exact absurd (List.eq_of_mem_replicate hmem) (by decide)
    rw [PyStr.split, letters, List.splitOn_eq_singleton hmem]
    rfl
  have hname : ∀ part ∈ (letters n).split '/',
      part ∉ ([("" : String), ".", "..", ".git"] : List PyStr) := by
    intro part hpart hmem
    rw [hsplit, List.mem_singleton] at hpart
    have hlong : part.codePoints.length = n := by rw [hpart, letters, List.length_replicate]
    have hbound : ∀ p ∈ ([("" : String), ".", "..", ".git"] : List PyStr),
        p.codePoints.length ≤ 4 := by decide
    have := hbound part hmem
    omega
  unfold validatePath text
  rw [utf8Encode_letters]
  simp only [List.length_replicate, require_of (show 0 < n ∧ n ≤ 32768 by omega), ok_bind,
    require_of hnul, hdecode, Option.isSome_some]
  exact require_of ⟨hslash, hname⟩

/-- A path may have 32768 bytes, but then neither spelling of it is read. -/
theorem longest_path_refused : validatePath (letters 32768) = .ok () ∧
    (letters 32768).utf8Encode = some (List.replicate 32768 120) ∧
    headerPath ⟨[(Quoting.git true).headerLine (List.replicate 32768 120)], 0⟩ =
      .error (.reviewError "path-length") := by
  have htext : (letters 32768).IsText := by
    intro c hc
    rw [List.eq_of_mem_replicate hc]
    decide
  have hpath : validatePath (letters 32768) = .ok () := validatePath_letters (by decide)
  have hlong := (Quoting.git true).length_le_spell (bytes "a/" ++ List.replicate 32768 120)
  rw [List.length_append, List.length_replicate] at hlong
  have hside : (bytes "a/").length = 2 := rfl
  refine ⟨hpath, utf8Encode_letters 32768, ?_⟩
  rw [(Quoting.git true).headerPath_headerLine htext hpath (utf8Encode_letters 32768) rfl,
    if_neg (by omega)]

end Supplementary.Review
