/-
# What the inventory's records cover

Every parser of `Inventory.lean` moves the cursor over whole lines (`Cursor.Reaches`), and the
positions it writes into a record are cursor offsets.  So the hunks of a file tile the part of it
that holds hunks, the files tile the payload, and the byte at every file boundary is the `d` of a
header (`inventory_spec`).
-/
import Supplementary.Review.Inventory
import Supplementary.Lib.Tiling

namespace Supplementary.Review

open Supplementary Tiling

/-! ## 1. Reaching a later cursor -/

namespace Cursor

/-- `c'` lies whole lines after `c`. -/
def Reaches (c c' : Cursor) : Prop :=
  ∃ taken : List Bytes, c.lines = taken ++ c'.lines ∧
    c'.offset = c.offset + taken.flatten.length

/-- No line is empty: each ends with its newline. -/
def Full (c : Cursor) : Prop := ∀ line ∈ c.lines, line ≠ []

theorem Reaches.refl (c : Cursor) : c.Reaches c := ⟨[], by simp⟩

theorem Reaches.trans {c d e : Cursor} (h₁ : c.Reaches d) (h₂ : d.Reaches e) : c.Reaches e := by
  obtain ⟨t₁, hl₁, ho₁⟩ := h₁
  obtain ⟨t₂, hl₂, ho₂⟩ := h₂
  refine ⟨t₁ ++ t₂, by rw [hl₁, hl₂, List.append_assoc], ?_⟩
  rw [ho₂, ho₁, List.flatten_append, List.length_append, Nat.add_assoc]

theorem reaches_advance (c : Cursor) : c.Reaches c.advance := by
  rcases c with ⟨_ | ⟨line, lines⟩, offset⟩
  · exact Reaches.refl _
  · exact ⟨[line], by simp [advance], by simp [advance]⟩

theorem Reaches.full {c c' : Cursor} (h : c.Reaches c') (hf : c.Full) : c'.Full := by
  obtain ⟨taken, hl, -⟩ := h
  intro line hline
  exact hf line (by rw [hl]; exact List.mem_append_right _ hline)

theorem Reaches.offset_le {c c' : Cursor} (h : c.Reaches c') : c.offset ≤ c'.offset := by
  obtain ⟨taken, -, ho⟩ := h
  omega

theorem Reaches.length_le {c c' : Cursor} (h : c.Reaches c') :
    c'.lines.length ≤ c.lines.length := by
  obtain ⟨taken, hl, -⟩ := h
  rw [hl, List.length_append]
  omega

/-- A line that starts with something is there. -/
theorem lines_ne_nil {c : Cursor} {marker : Bytes} (h : c.startsWith marker = true) :
    c.lines ≠ [] := by
  intro hnil
  simp [startsWith, hnil] at h

theorem offset_lt_advance {c : Cursor} (hf : c.Full) (hne : c.lines ≠ []) :
    c.offset < c.advance.offset := by
  rcases c with ⟨_ | ⟨line, lines⟩, offset⟩
  · exact absurd rfl hne
  · have hline : line ≠ [] := hf line (by simp)
    have := List.length_pos_of_ne_nil hline
    simp only [advance]
    omega

theorem length_advance_lt {c : Cursor} (hne : c.lines ≠ []) :
    c.advance.lines.length < c.lines.length := by
  rcases c with ⟨_ | ⟨line, lines⟩, offset⟩
  · exact absurd rfl hne
  · simp [advance]

/-- The cursor stands at byte `offset` of the payload, with the rest of it in its lines. -/
structure At (payload : Bytes) (c : Cursor) : Prop where
  rest : payload.drop c.offset = c.lines.flatten
  le : c.offset ≤ payload.length

theorem Reaches.at {payload : Bytes} {c c' : Cursor} (h : c.Reaches c') (hat : At payload c) :
    At payload c' := by
  obtain ⟨taken, hl, ho⟩ := h
  have hrest : payload.drop c.offset = taken.flatten ++ c'.lines.flatten := by
    rw [hat.rest, hl, List.flatten_append]
  have hlen := congrArg List.length hrest
  simp only [List.length_drop, List.length_append] at hlen
  have := hat.le
  refine ⟨?_, by omega⟩
  rw [ho, ← List.drop_drop, hrest, List.drop_left]

/-- A cursor without lines stands at the end of the payload. -/
theorem At.eq_length {payload : Bytes} {c : Cursor} (hat : At payload c) (h : c.lines = []) :
    c.offset = payload.length := by
  have hrest := hat.rest
  rw [h, List.flatten_nil, List.drop_eq_nil_iff] at hrest
  exact le_antisymm hat.le hrest

/-- The payload's byte at a cursor is the first byte of the line there. -/
theorem At.getElem? {payload : Bytes} {c : Cursor} (hat : At payload c) {b : UInt8}
    {marker : Bytes} (h : c.startsWith (b :: marker) = true) : payload[c.offset]? = some b := by
  rcases hc : c.lines with _ | ⟨line, lines⟩
  · simp [startsWith, hc] at h
  · simp only [startsWith, hc] at h
    obtain ⟨t, rfl⟩ := List.isPrefixOf_iff_prefix.mp h
    have hrest := congrArg (fun l => l[0]?) hat.rest
    simpa [hc] using hrest

end Cursor

/-! ## 2. What each parser consumes -/

theorem modeHeader_reaches {marker : Bytes} {field : ModeField} {m m' : Modes} {c c' : Cursor}
    (h : modeHeader marker field m c = .ok (m', c')) : c.Reaches c' := by
  unfold modeHeader at h
  split at h
  · simp only [bind_eq_ok] at h
    obtain ⟨_, -, h⟩ := h
    cases h
    exact c.reaches_advance
  · cases h
    exact Cursor.Reaches.refl _

theorem modeHeaders_reaches {m : Modes} {c c' : Cursor} (h : modeHeaders c = .ok (m, c')) :
    c.Reaches c' := by
  simp only [modeHeaders, bind_eq_ok, Prod.exists] at h
  obtain ⟨_, _, h₁, _, _, h₂, _, _, h₃, h₄⟩ := h
  exact (modeHeader_reaches h₁).trans ((modeHeader_reaches h₂).trans
    ((modeHeader_reaches h₃).trans (modeHeader_reaches h₄)))

/-- Induction on the body's own recursion: a line, or a line with its marker, at a time. -/
theorem hunkBody_reaches {offset : Nat} {oldLeft newLeft : Int} {lines : List Bytes} {c' : Cursor}
    (h : hunkBody offset oldLeft newLeft lines = .ok c') :
    Cursor.Reaches ⟨lines, offset⟩ c' := by
  fun_induction hunkBody offset oldLeft newLeft lines with
  | case1 => cases h; exact Cursor.Reaches.refl _
  | case2 => cases h
  | case3 => cases h; exact Cursor.Reaches.refl _
  | case4 offset oldLeft newLeft line hleft ih =>
    simp only [bind_eq_ok, Prod.exists] at h
    obtain ⟨o, n, -, h⟩ := h
    have hstep : Cursor.Reaches ⟨[line], offset⟩ ⟨[], offset + line.length⟩ :=
      Cursor.reaches_advance _
    exact hstep.trans (ih o n h)
  | case5 => cases h; exact Cursor.Reaches.refl _
  | case6 offset oldLeft newLeft line marker rest hleft ih₁ ih₂ =>
    simp only [bind_eq_ok, Prod.exists] at h
    obtain ⟨o, n, -, h⟩ := h
    have hstep : Cursor.Reaches ⟨line :: marker :: rest, offset⟩
        ⟨marker :: rest, offset + line.length⟩ := Cursor.reaches_advance _
    split at h
    · have hskip : Cursor.Reaches ⟨marker :: rest, offset + line.length⟩
          ⟨rest, offset + line.length + marker.length⟩ := Cursor.reaches_advance _
      exact hstep.trans (hskip.trans (ih₁ o n h))
    · exact hstep.trans (ih₂ o n h)

/-- A hunk's range. -/
def Hunk.range (h : Hunk) : Nat × Nat := (h.start, h.stop)

/-- A file record's range. -/
def FileRecord.range (f : FileRecord) : Nat × Nat := (f.start, f.stop)

theorem hunkAt_spec {c c' : Cursor} {previousOld previousNew : Int} {hunk : Hunk}
    (h : hunkAt c previousOld previousNew = .ok (hunk, c')) :
    c.advance.Reaches c' ∧ hunk.range = (c.offset, c'.offset) := by
  simp only [hunkAt] at h
  split at h
  · cases h
  · simp only [bind_eq_ok] at h
    obtain ⟨_, -, _, -, _, -, _, -, _, -, _, -, after, hbody, h⟩ := h
    cases h
    exact ⟨hunkBody_reaches hbody, rfl⟩

/-- **The hunks tile what the hunk loop consumed.**  Induction on the rounds; each hunk takes at
least its own header line, so no tile is empty. -/
theorem hunksFrom_spec {rounds : Nat} {c c' : Cursor} {previousOld previousNew : Int}
    {hunks : List Hunk} (hf : c.Full)
    (h : hunksFrom rounds c previousOld previousNew = .ok (hunks, c')) :
    c.Reaches c' ∧ Tiles (hunks.map Hunk.range) c.offset c'.offset := by
  induction rounds generalizing c previousOld previousNew hunks with
  | zero => cases h; exact ⟨Cursor.Reaches.refl _, rfl⟩
  | succ rounds ih =>
    unfold hunksFrom at h
    split at h
    · rename_i hstart
      simp only [bind_eq_ok, Prod.exists] at h
      obtain ⟨hunk, d, hhunk, hunks', e, hrest, h⟩ := h
      cases h
      obtain ⟨hd, hrange⟩ := hunkAt_spec hhunk
      have hcd : c.Reaches d := c.reaches_advance.trans hd
      obtain ⟨hde, htiles⟩ := ih (hcd.full hf) hrest
      have hlt : c.offset < d.offset :=
        (Cursor.offset_lt_advance hf (Cursor.lines_ne_nil hstart)).trans_le hd.offset_le
      refine ⟨hcd.trans hde, ?_⟩
      rw [List.map_cons, hrange]
      exact ⟨rfl, hlt, htiles⟩
    · cases h
      exact ⟨Cursor.Reaches.refl _, rfl⟩

/-- The hunks of a record tile its end: from after the markers to where the record stops. -/
theorem hunksOf_spec {c c' : Cursor} {operation : Operation} {oldBlob newBlob : Bytes}
    {path : PyStr} {hunks : List Hunk} (hf : c.Full)
    (h : hunksOf c operation oldBlob newBlob path = .ok (hunks, c')) :
    c.Reaches c' ∧ ∃ a, c.offset ≤ a ∧ Tiles (hunks.map Hunk.range) a c'.offset := by
  unfold hunksOf at h
  split at h
  · simp only [bind_eq_ok, Prod.exists] at h
    obtain ⟨_, -, _, -, _, -, hunks', d, hhunks, _, -, h⟩ := h
    cases h
    have hmark : c.Reaches c.advance.advance := c.reaches_advance.trans (Cursor.reaches_advance _)
    obtain ⟨hr, htiles⟩ := hunksFrom_spec (hmark.full hf) hhunks
    exact ⟨hmark.trans hr, _, hmark.offset_le, htiles⟩
  · simp only [bind_eq_ok] at h
    obtain ⟨_, -, h⟩ := h
    cases h
    exact ⟨Cursor.Reaches.refl _, _, le_rfl, rfl⟩

/-- What one iteration of the file loop says about the record it made. -/
structure FileRecord.Covers (file : FileRecord) (c c' : Cursor) : Prop where
  range : file.range = (c.offset, c'.offset)
  header : c.startsWith (bytes "diff --git ") = true
  next : c'.lines = [] ∨ c'.startsWith (bytes "diff --git ") = true
  hunks : ∃ a, file.start ≤ a ∧ Tiles (file.hunks.map Hunk.range) a file.stop

theorem fileRecord_spec {c c' : Cursor} {seen : List PyStr} {file : FileRecord} (hf : c.Full)
    (h : fileRecord c seen = .ok (file, c')) :
    c.advance.Reaches c' ∧ file.Covers c c' ∧ file.path ∉ seen := by
  simp only [fileRecord, bind_eq_ok, Prod.exists, require_eq_ok] at h
  obtain ⟨_, hheader, path, -, _, hseen, m, d, hmodes, _, -, _, -, _, -, h⟩ := h
  split at h
  · cases h
  · simp only [bind_eq_ok, Prod.exists, require_eq_ok] at h
    obtain ⟨_, -, _, -, _, -, hunks, e, hhunks, _, hnext, h⟩ := h
    cases h
    have hd : c.advance.Reaches d.advance :=
      (modeHeaders_reaches hmodes).trans (Cursor.reaches_advance _)
    have hcd : c.Reaches d.advance := c.reaches_advance.trans hd
    obtain ⟨hr, a, ha, htiles⟩ := hunksOf_spec (hcd.full hf) hhunks
    exact ⟨hd.trans hr, ⟨rfl, hheader, hnext, a, hcd.offset_le.trans ha, htiles⟩, hseen⟩

/-! ## 3. The file loop -/

/-- What the inventory promises about one record of `payload`: it starts on a header, ends where
the payload ends or another header starts, and its hunks tile its end. -/
structure FileRecord.Ok (payload : Bytes) (file : FileRecord) : Prop where
  start_byte : payload[file.start]? = some 100
  stop_byte : file.stop = payload.length ∨ payload[file.stop]? = some 100
  hunks : ∃ a, file.start ≤ a ∧ Tiles (file.hunks.map Hunk.range) a file.stop

theorem FileRecord.Covers.ok {payload : Bytes} {file : FileRecord} {c c' : Cursor}
    (h : file.Covers c c') (hc : Cursor.At payload c) (hc' : Cursor.At payload c') :
    file.Ok payload := by
  have hstart : file.start = c.offset := congrArg Prod.fst h.range
  have hstop : file.stop = c'.offset := congrArg Prod.snd h.range
  refine ⟨by rw [hstart]; exact hc.getElem? h.header, ?_, h.hunks⟩
  rw [hstop]
  rcases h.next with hnil | hnext
  · exact Or.inl (hc'.eq_length hnil)
  · exact Or.inr (hc'.getElem? hnext)

/-- **The file loop.**  With a round for each line it reads every line, its records tile what it
read, and their paths are distinct and new. -/
theorem filesFrom_spec {payload : Bytes} {rounds : Nat} {c c' : Cursor} {seen : List PyStr}
    {files : List FileRecord} (hf : c.Full) (hat : Cursor.At payload c)
    (hrounds : c.lines.length ≤ rounds) (h : filesFrom rounds c seen = .ok (files, c')) :
    c'.lines = [] ∧ Cursor.At payload c' ∧ Tiles (files.map FileRecord.range) c.offset c'.offset ∧
      (∀ file ∈ files, file.Ok payload ∧ file.path ∉ seen) ∧
      (files.map FileRecord.path).Nodup := by
  induction rounds generalizing c seen files with
  | zero =>
    cases h
    exact ⟨List.eq_nil_of_length_eq_zero (by omega), hat, rfl, by simp, by simp⟩
  | succ rounds ih =>
    unfold filesFrom at h
    split at h
    · rename_i hnil
      cases h
      exact ⟨hnil, hat, rfl, by simp, by simp⟩
    · rename_i hne
      simp only [bind_eq_ok, Prod.exists] at h
      obtain ⟨file, d, hfile, files', e, hrest, h⟩ := h
      cases h
      obtain ⟨had, hcov, hseen⟩ := fileRecord_spec hf hfile
      have hcd : c.Reaches d := c.reaches_advance.trans had
      have hshort := had.length_le
      have hdrop := Cursor.length_advance_lt hne
      obtain ⟨hnil, hat', htiles, hok, hnodup⟩ :=
        ih (hcd.full hf) (hcd.at hat) (by omega) hrest
      have hlt : c.offset < d.offset :=
        (Cursor.offset_lt_advance hf hne).trans_le had.offset_le
      refine ⟨hnil, hat', ?_, ?_, ?_⟩
      · rw [List.map_cons, hcov.range]
        exact ⟨rfl, hlt, htiles⟩
      · intro g hg
        rcases List.mem_cons.mp hg with rfl | hg
        · exact ⟨hcov.ok hat (hcd.at hat), hseen⟩
        · exact ⟨(hok g hg).1, fun hmem => (hok g hg).2 (List.mem_cons_of_mem _ hmem)⟩
      · rw [List.map_cons, List.nodup_cons]
        refine ⟨?_, hnodup⟩
        intro hmem
        obtain ⟨g, hg, hpath⟩ := List.mem_map.mp hmem
        exact (hok g hg).2 (by simp [hpath])

/-! ## 4. The payload's lines -/

theorem flatten_map_append_singleton {x : UInt8} {ls : List Bytes} (hne : ls ≠ []) :
    (ls.map (· ++ [x])).flatten = [x].intercalate ls ++ [x] := by
  induction ls with
  | nil => exact absurd rfl hne
  | cons l ls ih =>
    cases ls with
    | nil => simp [List.intercalate]
    | cons m ls =>
      rw [List.map_cons, List.flatten_cons, ih (List.cons_ne_nil _ _)]
      simp [List.intercalate]

/-- The lines of a payload that ends with a newline are the payload. -/
theorem flatten_linesOf {payload : Bytes} (h : payload.getLast? = some 10) :
    (linesOf payload).flatten = payload := by
  obtain ⟨front, rfl⟩ : ∃ front, payload = front ++ [10] := by
    rcases List.eq_nil_or_concat payload with rfl | ⟨front, b, rfl⟩
    · simp at h
    · simp at h
      exact ⟨front, by simp [h]⟩
  have hsplit : (front ++ [10]).splitOn (10 : UInt8) = front.splitOn 10 ++ [[]] := by
    rw [List.splitOn_append_cons_self, List.splitOn_nil]
  rw [linesOf, hsplit, List.dropLast_concat, flatten_map_append_singleton
    (List.splitOn_ne_nil _ _), List.intercalate_splitOn]

theorem linesOf_ne_nil {payload line : Bytes} (h : line ∈ linesOf payload) : line ≠ [] := by
  obtain ⟨piece, -, rfl⟩ := List.mem_map.mp h
  simp

/-- **The inventory covers the payload.**  The records tile it from its first byte to its last,
each starts on a header, and no two have one path. -/
theorem inventory_spec {payload : Bytes} {files : List FileRecord}
    (h : inventory payload = .ok files) :
    Tiles (files.map FileRecord.range) 0 payload.length ∧ (∀ file ∈ files, file.Ok payload) ∧
      (files.map FileRecord.path).Nodup := by
  simp only [inventory, bind_eq_ok, require_eq_ok, Prod.exists] at h
  obtain ⟨_, -, _, hends, files', c', hfiles, h⟩ := h
  cases h
  have hat : Cursor.At payload ⟨linesOf payload, 0⟩ :=
    ⟨by simp [flatten_linesOf hends.2.2], by simp⟩
  obtain ⟨hnil, hat', htiles, hok, hnodup⟩ :=
    filesFrom_spec (fun _ hl => linesOf_ne_nil hl) hat le_rfl hfiles
  rw [hat'.eq_length hnil] at htiles
  exact ⟨htiles, fun f hf => (hok f hf).1, hnodup⟩

end Supplementary.Review
