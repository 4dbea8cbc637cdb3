/-
# What an accepted diff is made of

`Records.lean` has where the records lie; this module has what they are made of.  Every line of an
accepted payload has a part in some record: it is a header, a mode line, the index line, a marker,
the header of a hunk or a line of its body, and the body has exactly the lines that the hunk's header
counts.

The lines that a parser takes are kept (`Cursor.Takes`), so that they are the lines of the bytes
between the two cursors.
-/
import Supplementary.Review.Coverage

namespace Supplementary.Review

open Supplementary Tiling

/-! ## 1. Lines -/

/-- Ends with its only newline. -/
def IsLine (line : Bytes) : Prop := ∃ piece, line = piece ++ [10] ∧ 10 ∉ piece

/-- Lines put together and cut again. -/
theorem linesOf_flatten {lines : List Bytes} (h : ∀ line ∈ lines, IsLine line) :
    linesOf lines.flatten = lines := by
  induction lines with
  | nil => rfl
  | cons line lines ih =>
    obtain ⟨piece, rfl, hpiece⟩ := h line List.mem_cons_self
    have hrest := ih fun l hl => h l (List.mem_cons_of_mem _ hl)
    have hsplit : (piece ++ [10] ++ lines.flatten).splitOn (10 : UInt8) =
        piece :: lines.flatten.splitOn 10 := by
      rw [List.append_assoc, List.singleton_append]
      exact List.splitOn_append_cons_self_of_not_mem hpiece _
    rw [linesOf, List.flatten_cons, hsplit, List.dropLast_cons_of_ne_nil (List.splitOn_ne_nil _ _),
      List.map_cons]
    rw [linesOf] at hrest
    rw [hrest]

theorem not_mem_of_mem_splitOn {piece payload : Bytes} (h : piece ∈ payload.splitOn 10) :
    10 ∉ piece := by
  induction payload generalizing piece with
  | nil =>
    rw [List.splitOn_nil, List.mem_singleton] at h
    rw [h]
    exact List.not_mem_nil
  | cons b rest ih =>
    rw [List.splitOn_cons_eq_if_modifyHead] at h
    split at h
    · rcases List.mem_cons.mp h with rfl | h
      · exact List.not_mem_nil
      · exact ih h
    · next hb =>
      obtain ⟨first, pieces, hfirst⟩ := List.exists_cons_of_ne_nil (List.splitOn_ne_nil 10 rest)
      rw [hfirst, List.modifyHead_cons, List.mem_cons] at h
      rcases h with rfl | h
      · intro hmem
        rcases List.mem_cons.mp hmem with rfl | hmem
        · simp at hb
        · exact ih (hfirst ▸ List.mem_cons_self) hmem
      · exact ih (hfirst ▸ List.mem_cons_of_mem _ h)

theorem isLine_of_mem_linesOf {payload line : Bytes} (h : line ∈ linesOf payload) : IsLine line := by
  obtain ⟨piece, hpiece, rfl⟩ := List.mem_map.mp h
  exact ⟨piece, rfl, not_mem_of_mem_splitOn (List.dropLast_subset _ hpiece)⟩

namespace Cursor

/-- `taken` are the lines between two cursors. -/
def Takes (c c' : Cursor) (taken : List Bytes) : Prop :=
  c.lines = taken ++ c'.lines ∧ c'.offset = c.offset + taken.flatten.length

theorem Takes.refl (c : Cursor) : c.Takes c [] := ⟨rfl, rfl⟩

theorem Takes.reaches {c c' : Cursor} {taken : List Bytes} (h : c.Takes c' taken) : c.Reaches c' :=
  ⟨taken, h⟩

theorem Takes.trans {c d e : Cursor} {taken taken' : List Bytes} (h : c.Takes d taken)
    (h' : d.Takes e taken') : c.Takes e (taken ++ taken') := by
  refine ⟨by rw [h.1, h'.1, List.append_assoc], ?_⟩
  rw [h'.2, h.2, List.flatten_append, List.length_append, Nat.add_assoc]

theorem takes_advance {c : Cursor} (h : c.lines ≠ []) : c.Takes c.advance [c.lines.headD []] := by
  rcases c with ⟨_ | ⟨line, lines⟩, offset⟩
  · exact absurd rfl h
  · exact ⟨rfl, by simp [advance]⟩

/-- The bytes between two cursors are the lines between them. -/
theorem Takes.slice {payload : Bytes} {c c' : Cursor} {taken : List Bytes} (h : c.Takes c' taken)
    (hat : At payload c) : Supplementary.slice payload c.offset c'.offset = taken.flatten := by
  have hlen : c'.offset - c.offset = taken.flatten.length := by
    rw [h.2]
    omega
  rw [Supplementary.slice, hat.rest, h.1, List.flatten_append, hlen, List.take_left]

/-- All lines end with their only newline. -/
def Lined (c : Cursor) : Prop := ∀ line ∈ c.lines, IsLine line

theorem Lined.full {c : Cursor} (h : c.Lined) : c.Full := by
  intro line hline
  obtain ⟨piece, rfl, -⟩ := h line hline
  simp

theorem Takes.lined {c c' : Cursor} {taken : List Bytes} (h : c.Takes c' taken) (hc : c.Lined) :
    c'.Lined := fun line hline => hc line (by rw [h.1]; exact List.mem_append_right _ hline)

theorem Takes.linesOf {payload : Bytes} {c c' : Cursor} {taken : List Bytes} (h : c.Takes c' taken)
    (hat : At payload c) (hc : c.Lined) :
    Review.linesOf (Supplementary.slice payload c.offset c'.offset) = taken := by
  rw [h.slice hat]
  exact linesOf_flatten fun line hline => hc line (by rw [h.1]; exact List.mem_append_left _ hline)

end Cursor

/-! ## 2. Mode lines -/

def modeMarkers : List Bytes :=
  [bytes "old mode ", bytes "new mode ", bytes "new file mode ", bytes "deleted file mode "]

/-- A mode header with a mode that is supported. -/
def IsModeLine (line : Bytes) : Prop :=
  ∃ marker ∈ modeMarkers, marker.isPrefixOf line = true ∧
    ((line.drop marker.length).dropLast = bytes "100644" ∨
      (line.drop marker.length).dropLast = bytes "100755")

theorem headD_of_startsWith {c : Cursor} {marker : Bytes} (h : c.startsWith marker = true) :
    marker.isPrefixOf (c.lines.headD []) = true := by
  rcases c with ⟨_ | ⟨line, lines⟩, offset⟩
  · cases h
  · exact h

theorem modeHeader_takes {marker : Bytes} {field : ModeField} {m m' : Modes} {c c' : Cursor}
    (hmarker : marker ∈ modeMarkers) (h : modeHeader marker field m c = .ok (m', c')) :
    ∃ modes, c.Takes c' modes ∧ ∀ line ∈ modes, IsModeLine line := by
  unfold modeHeader at h
  split at h
  · next hstart =>
    simp only [bind_eq_ok, require_eq_ok] at h
    obtain ⟨_, hmode, h⟩ := h
    cases h
    refine ⟨_, Cursor.takes_advance (Cursor.lines_ne_nil hstart), fun line hline => ?_⟩
    rw [List.mem_singleton.mp hline]
    exact ⟨marker, hmarker, headD_of_startsWith hstart, hmode⟩
  · cases h
    exact ⟨[], .refl c, fun line hline => by cases hline⟩

theorem modeHeaders_takes {m : Modes} {c c' : Cursor} (h : modeHeaders c = .ok (m, c')) :
    ∃ modes, c.Takes c' modes ∧ ∀ line ∈ modes, IsModeLine line := by
  simp only [modeHeaders, bind_eq_ok, Prod.exists] at h
  obtain ⟨_, d₁, h₁, _, d₂, h₂, _, d₃, h₃, h₄⟩ := h
  obtain ⟨t₁, ht₁, hm₁⟩ := modeHeader_takes (by decide) h₁
  obtain ⟨t₂, ht₂, hm₂⟩ := modeHeader_takes (by decide) h₂
  obtain ⟨t₃, ht₃, hm₃⟩ := modeHeader_takes (by decide) h₃
  obtain ⟨t₄, ht₄, hm₄⟩ := modeHeader_takes (by decide) h₄
  refine ⟨t₁ ++ (t₂ ++ (t₃ ++ t₄)), ht₁.trans (ht₂.trans (ht₃.trans ht₄)), fun line hline => ?_⟩
  simp only [List.mem_append] at hline
  rcases hline with hline | hline | hline | hline
  · exact hm₁ line hline
  · exact hm₂ line hline
  · exact hm₃ line hline
  · exact hm₄ line hline

/-! ## 3. Hunks -/

/-- A line of the old side. -/
def isOld (line : Bytes) : Bool := line.take 1 = bytes " " ∨ line.take 1 = bytes "-"

/-- A line of the new side. -/
def isNew (line : Bytes) : Bool := line.take 1 = bytes " " ∨ line.take 1 = bytes "+"

/-- The lines of a hunk's body: besides markers, exactly so many of each side. -/
structure Body (lines : List Bytes) (oldCount newCount : Int) : Prop where
  line : ∀ line ∈ lines, line = noNewline ∨ isOld line = true ∨ isNew line = true
  old : (lines.countP isOld : Int) = oldCount
  new : (lines.countP isNew : Int) = newCount

theorem Body.nil : Body [] 0 0 := ⟨fun _ h => by (cases h), rfl, rfl⟩

theorem Body.cons {line : Bytes} {lines : List Bytes} {oldLeft newLeft o n : Int}
    (h : Body lines o n) (hline : hunkLine line oldLeft newLeft = .ok (o, n)) :
    Body (line :: lines) oldLeft newLeft := by
  simp only [hunkLine, bind_eq_ok, require_eq_ok] at hline
  obtain ⟨_, htag, _, -, hline⟩ := hline
  cases hline
  refine ⟨fun l hl => ?_, ?_, ?_⟩
  · rcases List.mem_cons.mp hl with rfl | hl
    · simp only [isOld, isNew, decide_eq_true_eq]
      tauto
    · exact h.line l hl
  · have hold := h.old
    simp only [List.countP_cons, isOld, decide_eq_true_eq]
    split at hold
    · next ho =>
      rw [if_pos ho]
      push_cast
      change (lines.countP isOld : Int) + 1 = oldLeft
      omega
    · next ho =>
      rw [if_neg ho]
      exact hold
  · have hnew := h.new
    simp only [List.countP_cons, isNew, decide_eq_true_eq]
    split at hnew
    · next hn =>
      rw [if_pos hn]
      push_cast
      change (lines.countP isNew : Int) + 1 = newLeft
      omega
    · next hn =>
      rw [if_neg hn]
      exact hnew

theorem Body.marker {lines : List Bytes} {o n : Int} (h : Body lines o n) :
    Body (noNewline :: lines) o n := by
  refine ⟨fun l hl => ?_, ?_, ?_⟩
  · rcases List.mem_cons.mp hl with rfl | hl
    · exact Or.inl rfl
    · exact h.line l hl
  · rw [List.countP_cons_of_neg (by decide)]
    exact h.old
  · rw [List.countP_cons_of_neg (by decide)]
    exact h.new

/-- Induction on the body's own recursion, like `hunkBody_reaches`. -/
theorem hunkBody_takes {offset : Nat} {oldLeft newLeft : Int} {lines : List Bytes} {c' : Cursor}
    (h : hunkBody offset oldLeft newLeft lines = .ok c') :
    ∃ body, Cursor.Takes ⟨lines, offset⟩ c' body ∧ Body body oldLeft newLeft := by
  fun_induction hunkBody offset oldLeft newLeft lines with
  | case1 offset oldLeft newLeft hleft =>
    cases h
    rw [hleft.1, hleft.2]
    exact ⟨[], .refl _, .nil⟩
  | case2 => cases h
  | case3 offset oldLeft newLeft line hleft =>
    cases h
    rw [hleft.1, hleft.2]
    exact ⟨[], .refl _, .nil⟩
  | case4 offset oldLeft newLeft line hleft ih =>
    simp only [bind_eq_ok, Prod.exists] at h
    obtain ⟨o, n, hline, h⟩ := h
    obtain ⟨body, htakes, hbody⟩ := ih o n h
    have hstep : Cursor.Takes ⟨[line], offset⟩ ⟨[], offset + line.length⟩ [line] :=
      Cursor.takes_advance (c := ⟨[line], offset⟩) (List.cons_ne_nil _ _)
    exact ⟨line :: body, hstep.trans htakes, hbody.cons hline⟩
  | case5 offset oldLeft newLeft line marker rest hleft =>
    cases h
    rw [hleft.1, hleft.2]
    exact ⟨[], .refl _, .nil⟩
  | case6 offset oldLeft newLeft line marker rest hleft ih₁ ih₂ =>
    simp only [bind_eq_ok, Prod.exists] at h
    obtain ⟨o, n, hline, h⟩ := h
    have hstep : Cursor.Takes ⟨line :: marker :: rest, offset⟩
        ⟨marker :: rest, offset + line.length⟩ [line] :=
      Cursor.takes_advance (c := ⟨line :: marker :: rest, offset⟩) (List.cons_ne_nil _ _)
    split at h
    · next hmarker =>
      obtain ⟨body, htakes, hbody⟩ := ih₁ o n h
      have hskip : Cursor.Takes ⟨marker :: rest, offset + line.length⟩
          ⟨rest, offset + line.length + marker.length⟩ [marker] :=
        Cursor.takes_advance (c := ⟨marker :: rest, offset + line.length⟩) (List.cons_ne_nil _ _)
      refine ⟨line :: marker :: body, hstep.trans (hskip.trans htakes), ?_⟩
      rw [hmarker]
      exact hbody.marker.cons hline
    · obtain ⟨body, htakes, hbody⟩ := ih₂ o n h
      exact ⟨line :: body, hstep.trans htakes, hbody.cons hline⟩

/-- A hunk header with the positions and the counts of the hunk; a count that is not written is one. -/
def Hunk.Heads (h : Hunk) (header : Bytes) : Prop :=
  ∃ oldStart oldCount newStart newCount,
    hunkRecord header = some (oldStart, oldCount, newStart, newCount) ∧
    intOfDigits oldStart = .ok h.oldStart ∧
    intOfDigits (oldCount.getD (bytes "1")) = .ok h.oldCount ∧
    intOfDigits newStart = .ok h.newStart ∧
    intOfDigits (newCount.getD (bytes "1")) = .ok h.newCount

/-- The bytes of a hunk are its header and a body with as many lines as the header says. -/
def Hunk.Counted (payload : Bytes) (h : Hunk) : Prop :=
  ∃ header body, linesOf (slice payload h.start h.stop) = header :: body ∧ h.Heads header ∧
    Body body h.oldCount h.newCount

theorem hunkAt_takes {payload : Bytes} {c c' : Cursor} {previousOld previousNew : Int} {hunk : Hunk}
    (hat : Cursor.At payload c) (hlined : c.Lined) (hne : c.lines ≠ [])
    (h : hunkAt c previousOld previousNew = .ok (hunk, c')) :
    (∃ taken, c.Takes c' taken) ∧ hunk.Counted payload := by
  simp only [hunkAt] at h
  split at h
  · cases h
  · next oldStart oldCount newStart newCount hrecord =>
    simp only [bind_eq_ok] at h
    obtain ⟨_, hos, _, hoc, _, hns, _, hnc, _, -, _, -, after, hbody, h⟩ := h
    cases h
    obtain ⟨body, htakes, hcounted⟩ := hunkBody_takes hbody
    have hall := (Cursor.takes_advance hne).trans htakes
    refine ⟨⟨_, hall⟩, c.lines.headD [], body, hall.linesOf hat hlined, ?_, hcounted⟩
    exact ⟨oldStart, oldCount, newStart, newCount, hrecord, hos, hoc, hns, hnc⟩

/-- Induction on the rounds, like `hunksFrom_spec`. -/
theorem hunksFrom_takes {payload : Bytes} {rounds : Nat} {c c' : Cursor}
    {previousOld previousNew : Int} {hunks : List Hunk} (hat : Cursor.At payload c)
    (hlined : c.Lined) (h : hunksFrom rounds c previousOld previousNew = .ok (hunks, c')) :
    (∃ taken, c.Takes c' taken) ∧ ∀ hunk ∈ hunks, hunk.Counted payload := by
  induction rounds generalizing c previousOld previousNew hunks with
  | zero =>
    cases h
    exact ⟨⟨[], .refl _⟩, fun _ hmem => by cases hmem⟩
  | succ rounds ih =>
    unfold hunksFrom at h
    split at h
    · next hstart =>
      simp only [bind_eq_ok, Prod.exists] at h
      obtain ⟨hunk, d, hhunk, hunks', e, hrest, h⟩ := h
      cases h
      obtain ⟨⟨taken, htakes⟩, hcounted⟩ :=
        hunkAt_takes hat hlined (Cursor.lines_ne_nil hstart) hhunk
      obtain ⟨⟨taken', htakes'⟩, hcounted'⟩ :=
        ih (htakes.reaches.at hat) (htakes.lined hlined) hrest
      refine ⟨⟨_, htakes.trans htakes'⟩, fun g hg => ?_⟩
      rcases List.mem_cons.mp hg with rfl | hg
      · exact hcounted
      · exact hcounted' g hg
    · cases h
      exact ⟨⟨[], .refl _⟩, fun _ hmem => by cases hmem⟩

/-! ## 4. Records -/

/-- The `---` line and the `+++` line, if there are any. -/
def AreMarkers : List Bytes → Prop
  | [] => True
  | [old, new] => (bytes "--- ").isPrefixOf old = true ∧ (bytes "+++ ").isPrefixOf new = true
  | _ => False

/-- What the bytes of a record are: its header line, mode lines, an index line, and either nothing
or two marker lines and hunks without a gap up to the end. -/
structure FileRecord.Recognised (payload : Bytes) (f : FileRecord) : Prop where
  lines : ∃ header modes index markers body,
    linesOf (slice payload f.start f.stop) = header :: (modes ++ index :: (markers ++ body)) ∧
      (bytes "diff --git ").isPrefixOf header = true ∧ headerPath ⟨[header], 0⟩ = .ok f.path ∧
      (∀ line ∈ modes, IsModeLine line) ∧
      (∃ mode, indexRecord index = some (f.oldBlob, f.newBlob, mode)) ∧ AreMarkers markers ∧
      (markers = [] → f.hunks = []) ∧
      Tiles (f.hunks.map Hunk.range) (f.stop - body.flatten.length) f.stop
  hunks : ∀ h ∈ f.hunks, h.Counted payload
  oldBlob : f.oldBlob = zeroBlob ↔ f.operation = .add
  newBlob : f.newBlob = zeroBlob ↔ f.operation = .delete
  /-- No component of the path is empty, `.`, `..` or `.git`. -/
  path : ∀ part ∈ f.path.split '/', part ∉ ([("" : String), ".", "..", ".git"] : List PyStr)

theorem hunksOf_takes {payload : Bytes} {c c' : Cursor} {operation : Operation}
    {oldBlob newBlob : Bytes} {path : PyStr} {hunks : List Hunk} (hat : Cursor.At payload c)
    (hlined : c.Lined) (h : hunksOf c operation oldBlob newBlob path = .ok (hunks, c')) :
    ∃ markers body, c.Takes c' (markers ++ body) ∧ AreMarkers markers ∧
      (markers = [] → hunks = []) ∧ (∀ hunk ∈ hunks, hunk.Counted payload) ∧
      Tiles (hunks.map Hunk.range) (c'.offset - body.flatten.length) c'.offset := by
  unfold hunksOf at h
  split at h
  · next hold =>
    simp only [bind_eq_ok, Prod.exists, require_eq_ok] at h
    obtain ⟨_, hnew, _, -, _, -, hunks', d, hhunks, _, -, h⟩ := h
    cases h
    have hmarkers := (Cursor.takes_advance (Cursor.lines_ne_nil hold)).trans
      (Cursor.takes_advance (Cursor.lines_ne_nil hnew))
    have hlined' := hmarkers.lined hlined
    obtain ⟨⟨body, htakes⟩, hcounted⟩ :=
      hunksFrom_takes (hmarkers.reaches.at hat) hlined' hhunks
    obtain ⟨-, htiles⟩ := hunksFrom_spec hlined'.full hhunks
    refine ⟨_, body, hmarkers.trans htakes,
      ⟨headD_of_startsWith hold, headD_of_startsWith hnew⟩, fun hnil => (by cases hnil),
      hcounted, ?_⟩
    rw [htakes.2, Nat.add_sub_cancel] at *
    exact htiles
  · simp only [bind_eq_ok] at h
    obtain ⟨_, -, h⟩ := h
    cases h
    exact ⟨[], [], .refl _, trivial, fun _ => rfl, fun _ hmem => (by cases hmem), rfl⟩

theorem path_of_validatePath {name : PyStr} {u : Unit} (h : validatePath name = .ok u) :
    ∀ part ∈ name.split '/', part ∉ ([("" : String), ".", "..", ".git"] : List PyStr) := by
  unfold validatePath at h
  split at h
  · cases h
  · simp only [bind_eq_ok, require_eq_ok] at h
    obtain ⟨_, -, _, -, h⟩ := h
    exact h.2

/-- The text between the quotes, if there are any. -/
def unquoted (raw : Bytes) : Py Bytes :=
  if raw.head? = some 34 then do
    require (raw.getLast? = some 34) "path-quote"
    unquote (raw.drop 1).dropLast
  else .ok raw

/-- What is left of `path_value` after the quotes. -/
def plainValue (side raw : Bytes) : Py PyStr := do
  require (side.isPrefixOf raw = true) "path-prefix"
  let raw := raw.drop side.length
  require (0 ∉ raw) "binary-input"
  match utf8Decode raw with
  | none => .error (.reviewError "non-utf8-input")
  | some points => do
    validatePath ⟨points⟩
    .ok ⟨points⟩

theorem pathValue_eq (raw side : Bytes) :
    pathValue raw side = ((require (0 < raw.length ∧ raw.length ≤ 32768) "path-length") >>= fun _ =>
      unquoted raw >>= plainValue side) := by
  unfold pathValue unquoted plainValue
  by_cases h : raw.head? = some 34
  · simp only [if_pos h]
    cases require (0 < raw.length ∧ raw.length ≤ 32768) "path-length" with
    | error e => rfl
    | ok u =>
      simp only [ok_bind]
      cases require (raw.getLast? = some 34) "path-quote" with
      | error e => rfl
      | ok u => rfl
  · simp only [if_neg h] <;> rfl

theorem path_of_pathValue {raw side : Bytes} {name : PyStr} (h : pathValue raw side = .ok name) :
    ∀ part ∈ name.split '/', part ∉ ([("" : String), ".", "..", ".git"] : List PyStr) := by
  simp only [pathValue_eq, plainValue, bind_eq_ok] at h
  obtain ⟨_, -, _, -, _, -, _, -, h⟩ := h
  split at h
  · cases h
  · simp only [bind_eq_ok] at h
    obtain ⟨_, hpath, h⟩ := h
    cases h
    exact path_of_validatePath hpath

theorem path_of_headerPath {c : Cursor} {path : PyStr} (h : headerPath c = .ok path) :
    ∀ part ∈ path.split '/', part ∉ ([("" : String), ".", "..", ".git"] : List PyStr) := by
  simp only [headerPath, bind_eq_ok] at h
  obtain ⟨_, -, old, hold, _, -, _, -, h⟩ := h
  cases h
  exact path_of_pathValue hold

theorem headerPath_line {c : Cursor} (hne : c.lines ≠ []) :
    headerPath ⟨[c.lines.headD []], 0⟩ = headerPath c := by
  rcases c with ⟨_ | ⟨line, lines⟩, offset⟩
  · exact absurd rfl hne
  · rfl

theorem fileRecord_recognised {payload : Bytes} {c c' : Cursor} {seen : List PyStr}
    {file : FileRecord} (hat : Cursor.At payload c) (hlined : c.Lined)
    (h : fileRecord c seen = .ok (file, c')) : file.Recognised payload := by
  simp only [fileRecord, bind_eq_ok, Prod.exists, require_eq_ok] at h
  obtain ⟨_, hheader, path, hpath, _, -, m, d, hmodes, _, -, _, -, _, hindex, h⟩ := h
  split at h
  · cases h
  · next oldBlob newBlob mode hrecord =>
    simp only [bind_eq_ok, Prod.exists, require_eq_ok] at h
    obtain ⟨_, -, _, -, _, hblobs, hunks, e, hhunks, _, -, h⟩ := h
    cases h
    have hne := Cursor.lines_ne_nil hheader
    obtain ⟨modes, htakes, hmode⟩ := modeHeaders_takes hmodes
    have hfront := ((Cursor.takes_advance hne).trans htakes).trans (Cursor.takes_advance hindex)
    obtain ⟨markers, body, hrest, hmarkers, hnil, hcounted, htiles⟩ :=
      hunksOf_takes (hfront.reaches.at hat) (hfront.lined hlined) hhunks
    refine ⟨⟨c.lines.headD [], modes, d.lines.headD [], markers, body, ?_,
      headD_of_startsWith hheader, ?_, hmode, ⟨mode, hrecord⟩, hmarkers, hnil, htiles⟩, hcounted,
      hblobs.1, hblobs.2, path_of_headerPath hpath⟩
    · rw [(hfront.trans hrest).linesOf hat hlined]
      simp
    · rw [headerPath_line hne, hpath]

/-- Every record of the file loop is made of lines that are recognised. -/
theorem filesFrom_recognised {payload : Bytes} {rounds : Nat} {c c' : Cursor} {seen : List PyStr}
    {files : List FileRecord} (hat : Cursor.At payload c) (hlined : c.Lined)
    (h : filesFrom rounds c seen = .ok (files, c')) : ∀ file ∈ files, file.Recognised payload := by
  induction rounds generalizing c seen files with
  | zero =>
    cases h
    exact fun _ hmem => by cases hmem
  | succ rounds ih =>
    unfold filesFrom at h
    split at h
    · cases h
      exact fun _ hmem => by cases hmem
    · next hne =>
      simp only [bind_eq_ok, Prod.exists] at h
      obtain ⟨file, d, hfile, files', e, hrest, h⟩ := h
      cases h
      have hreach : c.Reaches d :=
        c.reaches_advance.trans (fileRecord_spec hlined.full hfile).1
      have hlined' : d.Lined := by
        obtain ⟨taken, htakes⟩ := hreach
        exact Cursor.Takes.lined htakes hlined
      intro g hg
      rcases List.mem_cons.mp hg with rfl | hg
      · exact fileRecord_recognised hat hlined hfile
      · exact ih (hreach.at hat) hlined' hrest g hg

/-! ## 5. Rounds -/

/-- A hunk takes a line, so more rounds than lines change nothing. -/
theorem hunksFrom_rounds {rounds more : Nat} {c : Cursor} {previousOld previousNew : Int}
    (h : c.lines.length ≤ rounds) (hmore : c.lines.length ≤ more) :
    hunksFrom rounds c previousOld previousNew = hunksFrom more c previousOld previousNew := by
  induction rounds generalizing more c previousOld previousNew with
  | zero =>
    have hnil : c.lines = [] := List.eq_nil_of_length_eq_zero (Nat.le_zero.mp h)
    cases more with
    | zero => rfl
    | succ more => simp [hunksFrom, Cursor.startsWith, hnil]
  | succ rounds ih =>
    cases more with
    | zero =>
      have hnil : c.lines = [] := List.eq_nil_of_length_eq_zero (Nat.le_zero.mp hmore)
      simp [hunksFrom, Cursor.startsWith, hnil]
    | succ more =>
      unfold hunksFrom
      split
      · next hstart =>
        cases hhunk : hunkAt c previousOld previousNew with
        | error e => rfl
        | ok r =>
          obtain ⟨hunk, d⟩ := r
          have hlen := (hunkAt_spec hhunk).1.length_le
          have hlt := Cursor.length_advance_lt (Cursor.lines_ne_nil hstart)
          have hrest := @ih more d (hunk.oldStart + hunk.oldCount) (hunk.newStart + hunk.newCount)
            (by omega) (by omega)
          simp only [ok_bind, hrest]
      · rfl

/-- A record takes a line, so more rounds than lines change nothing. -/
theorem filesFrom_rounds {rounds more : Nat} {c : Cursor} {seen : List PyStr} (hf : c.Full)
    (h : c.lines.length ≤ rounds) (hmore : c.lines.length ≤ more) :
    filesFrom rounds c seen = filesFrom more c seen := by
  induction rounds generalizing more c seen with
  | zero =>
    have hnil : c.lines = [] := List.eq_nil_of_length_eq_zero (Nat.le_zero.mp h)
    cases more with
    | zero => rfl
    | succ more => simp [filesFrom, hnil]
  | succ rounds ih =>
    cases more with
    | zero =>
      have hnil : c.lines = [] := List.eq_nil_of_length_eq_zero (Nat.le_zero.mp hmore)
      simp [filesFrom, hnil]
    | succ more =>
      unfold filesFrom
      split
      · rfl
      · next hne =>
        cases hfile : fileRecord c seen with
        | error e => rfl
        | ok r =>
          obtain ⟨file, d⟩ := r
          have hreach := (fileRecord_spec hf hfile).1
          have hlen := hreach.length_le
          have hlt := Cursor.length_advance_lt hne
          have hrest := @ih more d (file.path :: seen)
            ((c.reaches_advance.trans hreach).full hf) (by omega) (by omega)
          simp only [ok_bind, hrest]

/-! ## 6. The inventory -/

/-- What an accepted payload is made of. -/
structure Inventoried (payload : Bytes) (files : List FileRecord) : Prop where
  tiles : Tiles (files.map FileRecord.range) 0 payload.length
  distinct : (files.map FileRecord.path).Nodup
  records : ∀ file ∈ files, file.Recognised payload

/-- **The inventory leaves nothing out.**  It ends, because a round for each line is enough for both
of its loops; and if it accepts a payload, the records tile the payload, their paths are distinct, and
each record is made of lines that are recognised. -/
theorem inventory_recognises (payload : Bytes) :
    (∀ rounds, (linesOf payload).length ≤ rounds →
      filesFrom rounds ⟨linesOf payload, 0⟩ [] =
        filesFrom (linesOf payload).length ⟨linesOf payload, 0⟩ []) ∧
    (∀ c previousOld previousNew rounds, c.lines.length ≤ rounds →
      hunksFrom rounds c previousOld previousNew =
        hunksFrom c.lines.length c previousOld previousNew) ∧
    ∀ files, inventory payload = .ok files → Inventoried payload files := by
  refine ⟨fun rounds h => ?_, fun c _ _ rounds h => hunksFrom_rounds h le_rfl, fun files h => ?_⟩
  · exact filesFrom_rounds (fun _ hl => linesOf_ne_nil hl) h le_rfl
  · obtain ⟨htiles, -, hdistinct⟩ := inventory_spec h
    refine ⟨htiles, hdistinct, ?_⟩
    simp only [inventory, bind_eq_ok, require_eq_ok, Prod.exists] at h
    obtain ⟨_, -, _, hends, files', c', hfiles, h⟩ := h
    cases h
    have hat : Cursor.At payload ⟨linesOf payload, 0⟩ :=
      ⟨by simp [flatten_linesOf hends.2.2], by simp⟩
    exact filesFrom_recognised hat (fun _ hl => isLine_of_mem_linesOf hl) hfiles

theorem inventory_recognises_sample : ∃ files, inventory sampleDiff = .ok files ∧
    Inventoried sampleDiff files := by
  have h : (inventory sampleDiff).toOption.isSome = true := by decide +kernel
  cases hfiles : inventory sampleDiff with
  | error e => simp [hfiles, Except.toOption] at h
  | ok files => exact ⟨files, rfl, (inventory_recognises sampleDiff).2.2 files hfiles⟩

end Supplementary.Review
