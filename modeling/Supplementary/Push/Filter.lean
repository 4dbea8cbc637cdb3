/-
# The fixture filter on chunks

`filtered_scan_chunks` sees a line in fragments, and of a long line only the first 65536 characters.
Put together, what it keeps of a line is a function of the line (`LineState.feed_of`), so the loop
over fragments is one over lines (`filterFrom_eq`); and on a line whose header, if it is one, is kept
whole, it does what the filter on the whole text does (`filterDiffLine_eq`).
-/
import Supplementary.Push.Fixtures
import Supplementary.Python.Sha256

namespace Supplementary.Push

open PyStr

/-! ## 1. `filtered_scan_chunks` -/

/-- `CHUNK_BYTES`. -/
def chunkBytes : Nat := 65536

/-- What is kept of the line that is being read: the spooled text, its first characters, and the text
that was put into the digest. -/
structure LineState where
  spooled : PyStr := ""
  lead : PyStr := ""
  digest : PyStr := ""
  first : Bool := true
  pending : Bool := false

/-- A fragment of the line. -/
def LineState.feed (diff : Bool) (s : LineState) (fragment : PyStr) : LineState where
  spooled := s.spooled ++ fragment
  lead := s.lead ++ ⟨fragment.codePoints.take (chunkBytes - s.lead.length)⟩
  digest := s.digest ++ (if s.first && diff then sliceFrom 1 fragment else fragment)
  first := s.first && fragment.codePoints.isEmpty
  pending := true

section

variable (T : Tables) (documented : FixtureManifest) (path : Option PyStr) (diff : Bool)

/-- The branches on a line of a diff: the path and the number to look up, and the state. -/
def filterDiffLine (h : Hunks) (lineNumber : Nat) (lead : PyStr) :
    Except FixtureError ((Option PyStr × Nat) × Hunks) :=
  if lead.startsWith "diff --git " then
    .ok ((none, lineNumber), { h with oldPath := none, newPath := none, inHunk := false })
  else if !h.inHunk && lead.startsWith "--- " then do
    let path ← unquoteDiffPath (sliceFrom 4 lead) "a"
    .ok ((none, lineNumber), { h with oldPath := path })
  else if !h.inHunk && lead.startsWith "+++ " then do
    let path ← if documented.files ≠ [] then unquoteDiffPath (sliceFrom 4 lead) "b" else .ok none
    .ok ((none, lineNumber), { h with newPath := path })
  else if lead.startsWith "@@" then
    match hunkGroups T.digits lead with
    | none => .error (.runtimeError
        "planned diff has a malformed hunk header or no governed file path")
    | some (old, new) =>
      if documented.files ≠ [] ∧ h.oldPath = none ∧ h.newPath = none then
        .error (.runtimeError "planned diff has a malformed hunk header or no governed file path")
      else do
        let old ← intOf T.digits old
        let new ← intOf T.digits new
        .ok ((none, lineNumber), { h with oldNumber := old, newNumber := new, inHunk := true })
  else if h.inHunk && isHunkLine lead then .ok (h.pass lead)
  else .ok ((none, lineNumber), h)

/-- The end of a line: what is yielded for it, and the state. -/
def finishLine (h : Hunks) (lineNumber : Nat) (s : LineState) :
    Except FixtureError (PyStr × Hunks) := do
  let (place, h') ← if diff then filterDiffLine T documented h lineNumber s.lead
    else .ok ((path, lineNumber), h)
  let entry := documented.digestAt (place.1.getD "") place.2
  .ok (if entry.any (T.sha256Text s.digest = ·) then fixturePlaceholder ++ "\n"
    else s.spooled ++ "\n", h')

/-- The loop over the fragments, `lineNumber` being the number of the line that is read. -/
def filterFrom : Hunks → (lineNumber : Nat) → LineState → List Fragment →
    Except FixtureError (List PyStr)
  | h, lineNumber, s, [] =>
    if s.pending then do
      let (line, _) ← finishLine T documented path diff h lineNumber (s.feed diff "")
      .ok [line]
    else .ok []
  | h, lineNumber, s, (fragment, none) :: rest => filterFrom h lineNumber (s.feed diff fragment) rest
  | h, lineNumber, s, (fragment, some _) :: rest => do
    let (line, h') ← finishLine T documented path diff h lineNumber (s.feed diff fragment)
    .ok (line :: (← filterFrom h' (lineNumber + 1) {} rest))

/-- `filtered_scan_chunks(chunks, documented, path=..., diff=...)`: the lines it yields. -/
def filteredScanChunks (chunks : List PyStr) : Except FixtureError (List PyStr) :=
  filterFrom T documented path diff {} 1 {} (splitTextFragments false chunks)

end

/-! ## 2. Fragments of one line -/

/-- What is kept of a line; `none` where none was begun. -/
def LineState.of (diff : Bool) : Option (List Nat) → LineState
  | none => {}
  | some line => ⟨⟨line⟩, ⟨line.take chunkBytes⟩, ⟨if diff then line.drop 1 else line⟩, line.isEmpty,
      true⟩

theorem mk_append (s t : List Nat) : (⟨s⟩ : PyStr) ++ ⟨t⟩ = ⟨s ++ t⟩ := rfl

theorem LineState.feed_of (diff : Bool) (line : Option (List Nat)) (fragment : PyStr) :
    (LineState.of diff line).feed diff fragment =
      .of diff (some (line.getD [] ++ fragment.codePoints)) := by
  obtain ⟨points⟩ := fragment
  cases line with
  | none =>
    cases diff <;>
      simp [LineState.of, LineState.feed, sliceFrom, PyStr.length, ofString, mk_append]
  | some line =>
    have hlead : line.take chunkBytes ++ points.take (chunkBytes - (line.take chunkBytes).length) =
        (line ++ points).take chunkBytes := by
      rw [List.take_append, List.length_take]
      congr 2
      omega
    have hdrop : line.drop 1 ++ (if line.isEmpty then points.drop 1 else points) =
        (line ++ points).drop 1 := by
      cases line <;> simp
    have hempty : (line ++ points).isEmpty = (line.isEmpty && points.isEmpty) := by
      cases line <;> simp
    cases diff with
    | false =>
      simp only [LineState.of, LineState.feed, PyStr.length, mk_append, hlead, Option.getD_some,
        Bool.and_false, Bool.false_eq_true, if_false, hempty]
    | true =>
      have hdigest : (⟨line.drop 1⟩ : PyStr) ++ (if line.isEmpty then sliceFrom 1 ⟨points⟩ else ⟨points⟩) =
          ⟨(line ++ points).drop 1⟩ := by
        rw [← hdrop]
        split <;> rfl
      simp only [LineState.of, LineState.feed, PyStr.length, mk_append, hlead, Option.getD_some,
        Bool.and_true, if_true, hdigest, hempty]

/-- The loop over lines. -/
def filterLines (T : Tables) (documented : FixtureManifest) (path : Option PyStr) (diff : Bool) :
    Hunks → (lineNumber : Nat) → List PyStr → Except FixtureError (List PyStr)
  | _, _, [] => .ok []
  | h, lineNumber, line :: rest => do
    let (written, h') ← finishLine T documented path diff h lineNumber
      (.of diff (some line.codePoints))
    .ok (written :: (← filterLines T documented path diff h' (lineNumber + 1) rest))

theorem splitLines_eq (s : PyStr) : s.splitLines = (endedLines s).map Prod.fst := by
  have hfrom : ∀ line text : List Nat,
      linesFrom line text = (endedLinesFrom line text).map Prod.fst := by
    intro line text
    fun_induction endedLinesFrom line text with
    | case1 => rfl
    | case2 line hne =>
      cases line with
      | nil => exact absurd rfl hne
      | cons c line => rfl
    | case3 line rest ih =>
      rw [linesFrom, List.map_cons, ih]
    | case4 line c rest hpair hend ih =>
      rw [linesFrom, if_pos hend, List.map_cons, ih]
      exact hpair
    | case5 line c rest hpair hend ih =>
      rw [linesFrom, if_neg hend, ih]
      exact hpair
  exact hfrom [] s.codePoints

section

variable {T : Tables} {documented : FixtureManifest} {path : Option PyStr} {diff : Bool}

theorem filterFrom_eq (h : Hunks) (lineNumber : Nat) (line : Option (List Nat))
    (fragments : List Fragment) :
    filterFrom T documented path diff h lineNumber (.of diff line) fragments =
      filterLines T documented path diff h lineNumber ((merged line fragments).map Prod.fst) := by
  induction fragments generalizing h lineNumber line with
  | nil =>
    cases line with
    | none => rfl
    | some line =>
      rw [filterFrom, LineState.feed_of]
      simp only [LineState.of, if_true, merged, List.map_cons, List.map_nil, filterLines,
        Option.getD_some, ofString]
      simp
  | cons l fragments ih =>
    obtain ⟨fragment, ending⟩ := l
    cases ending with
    | none =>
      rw [filterFrom, LineState.feed_of, ih, merged_none_cons]
    | some ending =>
      rw [filterFrom, LineState.feed_of, merged_some_cons, List.map_cons, filterLines]
      simp only [← ih, LineState.of]

/-- Wherever the text is cut, the filter reads its lines. -/
theorem filteredScanChunks_eq (chunks : List PyStr) :
    filteredScanChunks T documented path diff chunks = filterLines T documented path diff {} 1
      (PyStr.splitLines ⟨chunks.flatMap codePoints⟩) := by
  rw [splitLines_eq, ← merged_splitTextFragments]
  exact filterFrom_eq {} 1 none _

end

/-! ## 3. Lines of a diff -/

/-- What the filter on the whole text takes for a header is not longer than what is kept of it. -/
def HeadersFit : (inHunk : Bool) → List PyStr → Prop
  | _, [] => True
  | inHunk, line :: rest =>
    if line.startsWith "diff --git " then HeadersFit false rest
    else if !inHunk && (line.startsWith "--- " || line.startsWith "+++ ") then
      line.length ≤ chunkBytes ∧ HeadersFit inHunk rest
    else if line.startsWith "@@" then line.length ≤ chunkBytes ∧ HeadersFit true rest
    else HeadersFit inHunk rest

theorem headersFit_of_short {inHunk : Bool} {lines : List PyStr}
    (h : ∀ line ∈ lines, line.length ≤ chunkBytes) : HeadersFit inHunk lines := by
  induction lines generalizing inHunk with
  | nil => trivial
  | cons line rest ih =>
    obtain ⟨hline, hrest⟩ := List.forall_mem_cons.mp h
    rw [HeadersFit]
    split_ifs
    · exact ih hrest
    · exact ⟨hline, ih hrest⟩
    · exact ⟨hline, ih hrest⟩
    · exact ih hrest

section

variable {T : Tables} {documented : FixtureManifest} {path : Option PyStr}

theorem digestAt_empty (lineNumber : Nat) :
    documented.digestAt ("" : PyStr) lineNumber = none := by
  have hnone : documented.files.find? (fun file => file.1 = ("" : PyStr)) = none := by
    rw [List.find?_eq_none]
    intro file hfile
    simpa using documented.path_ne file hfile
  rw [FixtureManifest.digestAt, FixtureManifest.linesOf, hnone]
  rfl

theorem lookup_eq_matches (place : Option PyStr) (lineNumber : Nat) (line : PyStr) :
    ((documented.digestAt (place.getD "") lineNumber).any (T.sha256Text line = ·)) =
      documentedSecretFixtureMatches T documented place lineNumber line := by
  cases place with
  | none =>
    rw [Option.getD_none, digestAt_empty]
    rfl
  | some path => rfl

/-- The first characters tell what a line begins with. -/
theorem startsWith_take {line literal : PyStr} (h : literal.length ≤ chunkBytes) :
    (⟨line.codePoints.take chunkBytes⟩ : PyStr).startsWith literal = line.startsWith literal := by
  rw [Bool.eq_iff_iff, startsWith, startsWith, List.isPrefixOf_iff_prefix,
    List.isPrefixOf_iff_prefix]
  constructor
  · intro hstarts
    exact hstarts.trans (List.take_prefix _ _)
  · intro hstarts
    rw [List.prefix_take_iff]
    exact ⟨hstarts, h⟩

/-- On the first characters of a line the filter tracks what the diff says. -/
theorem filterDiffLine_eq {h : Hunks} {lineNumber : Nat} {line : PyStr} {rest : List PyStr}
    (hne : documented.files ≠ []) (hfit : HeadersFit h.inHunk (line :: rest)) :
    (filterDiffLine T documented h lineNumber ⟨line.codePoints.take chunkBytes⟩).toOption =
      ((trackDiffLine T h line).map fun r => (r.1.getD (none, lineNumber), r.2)).toOption := by
  have hshort : ∀ literal : PyStr, literal.length ≤ 20 →
      (⟨line.codePoints.take chunkBytes⟩ : PyStr).startsWith literal = line.startsWith literal :=
    fun literal hliteral => startsWith_take (hliteral.trans (by decide))
  have hgit := hshort "diff --git " (by decide)
  have hminus := hshort "--- " (by decide)
  have hplus := hshort "+++ " (by decide)
  have hat := hshort "@@" (by decide)
  have hhunk : isHunkLine ⟨line.codePoints.take chunkBytes⟩ = isHunkLine line := by
    rw [isHunkLine, isHunkLine, hshort "+" (by decide), hshort "-" (by decide), hshort " " (by decide)]
  have hpass : h.pass ⟨line.codePoints.take chunkBytes⟩ = h.pass line := by
    rw [Hunks.pass, Hunks.pass, hshort "+" (by decide), hshort "-" (by decide)]
  have hwhole (hlength : line.length ≤ chunkBytes) :
      (⟨line.codePoints.take chunkBytes⟩ : PyStr) = line := by
    rw [List.take_of_length_le hlength]
  rw [HeadersFit] at hfit
  unfold filterDiffLine trackDiffLine
  rw [hgit, hminus, hplus, hat, hhunk, hpass]
  by_cases hcase : line.startsWith "diff --git " = true
  · rw [if_pos hcase, if_pos hcase]
    rfl
  rw [if_neg hcase] at hfit
  rw [if_neg hcase, if_neg hcase]
  by_cases hold : (!h.inHunk && line.startsWith "--- ") = true
  · rw [Bool.and_eq_true] at hold
    have hheader : (!h.inHunk && (line.startsWith "--- " || line.startsWith "+++ ")) = true := by
      rw [hold.1, hold.2]
      rfl
    rw [if_pos hheader] at hfit
    rw [hwhole hfit.1, hold.1, hold.2]
    cases unquoteDiffPath (sliceFrom 4 line) "a" <;> rfl
  rw [if_neg hold, if_neg hold]
  by_cases hnew : (!h.inHunk && line.startsWith "+++ ") = true
  · rw [Bool.and_eq_true] at hnew
    have hheader : (!h.inHunk && (line.startsWith "--- " || line.startsWith "+++ ")) = true := by
      rw [hnew.1, hnew.2, Bool.or_true]
      rfl
    rw [if_pos hheader] at hfit
    rw [hwhole hfit.1, hnew.1, hnew.2, if_pos hne]
    cases unquoteDiffPath (sliceFrom 4 line) "b" <;> rfl
  rw [if_neg hnew, if_neg hnew]
  have hheader : ¬ (!h.inHunk && (line.startsWith "--- " || line.startsWith "+++ ")) = true := by
    cases hin : h.inHunk
    · simp_all
    · simp
  rw [if_neg hheader] at hfit
  by_cases hrange : line.startsWith "@@" = true
  · rw [if_pos hrange] at hfit
    rw [if_pos hrange, if_pos hrange, hwhole hfit.1]
    by_cases hpaths : h.oldPath = none ∧ h.newPath = none
    · rw [if_pos hpaths]
      cases hunkGroups T.digits line with
      | none => simp only [Except.map, Except.toOption]
      | some groups =>
        have hungoverned : documented.files ≠ [] ∧ h.oldPath = none ∧ h.newPath = none :=
          ⟨hne, hpaths⟩
        simp only [if_pos hungoverned, Except.map, Except.toOption]
    · rw [if_neg hpaths]
      cases hunkGroups T.digits line with
      | none => simp only [Except.map, Except.toOption]
      | some groups =>
        have hgoverned : ¬ (documented.files ≠ [] ∧ h.oldPath = none ∧ h.newPath = none) :=
          fun hboth => hpaths hboth.2
        simp only [if_neg hgoverned]
        generalize intOf T.digits groups.1 = old, intOf T.digits groups.2 = new
        rcases old with e | old
        · rfl
        · rcases new with e | new
          · rfl
          · rfl
  rw [if_neg hrange, if_neg hrange]
  by_cases hinside : (h.inHunk && isHunkLine line) = true
  · rw [if_pos hinside, if_pos hinside]
    rfl
  · rw [if_neg hinside, if_neg hinside]
    rfl

theorem pass_inHunk (h : Hunks) (line : PyStr) : (h.pass line).2.inHunk = h.inHunk := by
  rw [Hunks.pass]
  split_ifs <;> rfl

/-- The headers after a line fit as well. -/
theorem headersFit_rest {h h' : Hunks} {line : PyStr} {place : Option (Option PyStr × Nat)}
    {rest : List PyStr} (hfit : HeadersFit h.inHunk (line :: rest))
    (hline : trackDiffLine T h line = .ok (place, h')) : HeadersFit h'.inHunk rest := by
  rw [HeadersFit] at hfit
  unfold trackDiffLine at hline
  by_cases hcase : line.startsWith "diff --git " = true
  · rw [if_pos hcase] at hfit hline
    cases hline
    exact hfit
  rw [if_neg hcase] at hfit hline
  by_cases hfile : (!h.inHunk && (line.startsWith "--- " || line.startsWith "+++ ")) = true
  · rw [if_pos hfile] at hfit
    rw [Bool.and_eq_true] at hfile
    rw [hfile.1, Bool.true_and, Bool.true_and] at hline
    split at hline
    · cases hpath : unquoteDiffPath (sliceFrom 4 line) "a" with
      | error e =>
        rw [hpath] at hline
        cases hline
      | ok path =>
        rw [hpath] at hline
        cases hline
        exact hfit.2
    · next hold =>
      have hnew : line.startsWith "+++ " = true := by
        rcases Bool.or_eq_true _ _ ▸ hfile.2 with h | h
        · exact absurd h hold
        · exact h
      rw [if_pos hnew] at hline
      cases hpath : unquoteDiffPath (sliceFrom 4 line) "b" with
      | error e =>
        rw [hpath] at hline
        cases hline
      | ok path =>
        rw [hpath] at hline
        cases hline
        exact hfit.2
  rw [if_neg hfile] at hfit
  have hold : ¬ (!h.inHunk && line.startsWith "--- ") = true := by
    intro hold
    rw [Bool.and_eq_true] at hold
    exact hfile (by rw [hold.1, hold.2]; rfl)
  have hnew : ¬ (!h.inHunk && line.startsWith "+++ ") = true := by
    intro hnew
    rw [Bool.and_eq_true] at hnew
    exact hfile (by rw [hnew.1, hnew.2, Bool.or_true]; rfl)
  rw [if_neg hold, if_neg hnew] at hline
  by_cases hrange : line.startsWith "@@" = true
  · rw [if_pos hrange] at hfit hline
    split at hline
    · cases hline
    · split at hline
      · cases hline
      · obtain ⟨old, -, hline⟩ := bind_eq_ok.mp hline
        obtain ⟨new, -, hline⟩ := bind_eq_ok.mp hline
        cases hline
        exact hfit.2
  · rw [if_neg hrange] at hfit hline
    split at hline
    · cases hline
      rw [pass_inHunk]
      exact hfit
    · cases hline
      exact hfit

/-- A line of a diff, filtered. -/
theorem finishLine_diff {h : Hunks} {lineNumber : Nat} {line : PyStr} {rest : List PyStr}
    (hne : documented.files ≠ []) (hfit : HeadersFit h.inHunk (line :: rest)) :
    (finishLine T documented path true h lineNumber (.of true (some line.codePoints))).toOption =
      ((trackDiffLine T h line).map fun r =>
        (maskAt T documented true line r.1 ++ ("\n" : PyStr), r.2)).toOption := by
  have htrack := @filterDiffLine_eq T documented h lineNumber line rest hne hfit
  have hmask (place : Option (Option PyStr × Nat)) :
      (if (documented.digestAt ((place.getD (none, lineNumber)).1.getD "")
          (place.getD (none, lineNumber)).2).any (T.sha256Text (sliceFrom 1 line) = ·) then
        fixturePlaceholder ++ ("\n" : PyStr) else line ++ ("\n" : PyStr)) =
        maskAt T documented true line place ++ ("\n" : PyStr) := by
    rw [lookup_eq_matches, maskAt]
    cases place with
    | none => rfl
    | some p =>
      simp only [Option.getD_some, Option.any_some, if_true]
      split <;> rfl
  have hfinish : finishLine T documented path true h lineNumber (.of true (some line.codePoints)) =
      filterDiffLine T documented h lineNumber ⟨line.codePoints.take chunkBytes⟩ >>= fun r =>
        .ok (if (documented.digestAt (r.1.1.getD "") r.1.2).any (T.sha256Text (sliceFrom 1 line) = ·)
          then fixturePlaceholder ++ ("\n" : PyStr) else line ++ ("\n" : PyStr), r.2) := rfl
  rw [hfinish]
  cases hfilter : filterDiffLine T documented h lineNumber ⟨line.codePoints.take chunkBytes⟩ with
  | error e =>
    rw [hfilter] at htrack
    cases hline : trackDiffLine T h line with
    | error e' => rfl
    | ok r =>
      rw [hline] at htrack
      cases htrack
  | ok r =>
    rw [hfilter] at htrack
    cases hline : trackDiffLine T h line with
    | error e' =>
      rw [hline] at htrack
      cases htrack
    | ok r' =>
      rw [hline] at htrack
      have hr : r = (r'.1.getD (none, lineNumber), r'.2) := Option.some.inj htrack
      rw [hr, ok_bind, hmask]
      rfl

/-- The lines of a diff, filtered. -/
theorem filterLines_diff {h : Hunks} {lineNumber : Nat} {lines : List PyStr}
    (hne : documented.files ≠ []) (hfit : HeadersFit h.inHunk lines) :
    (filterLines T documented path true h lineNumber lines).toOption =
      ((maskDiffLines T documented h lines).map fun lines =>
        lines.map (· ++ ("\n" : PyStr))).toOption := by
  induction lines generalizing h lineNumber with
  | nil => rfl
  | cons line lines ih =>
    have hline := @finishLine_diff T documented path h lineNumber line lines hne hfit
    rw [filterLines, maskDiffLines, maskDiffLine_eq]
    cases hfinish : finishLine T documented path true h lineNumber
        (.of true (some line.codePoints)) with
    | error e =>
      rw [hfinish] at hline
      cases htrack : trackDiffLine T h line with
      | error e' => rfl
      | ok r =>
        rw [htrack] at hline
        cases hline
    | ok r =>
      rw [hfinish] at hline
      cases htrack : trackDiffLine T h line with
      | error e' =>
        rw [htrack] at hline
        cases hline
      | ok r' =>
        rw [htrack] at hline
        have hr : r = (maskAt T documented true line r'.1 ++ ("\n" : PyStr), r'.2) :=
          Option.some.inj hline
        have hrest := @ih r'.2 (lineNumber + 1) (headersFit_rest hfit htrack)
        rw [hr]
        simp only [Except.map, ok_bind] at hrest ⊢
        cases hlines : filterLines T documented path true r'.2 (lineNumber + 1) lines <;>
          cases hmasked : maskDiffLines T documented r'.2 lines <;>
          simp_all [Except.toOption]

theorem filterLines_file {h : Hunks} {lineNumber : Nat} {lines : List PyStr} :
    filterLines T documented path false h lineNumber lines =
      .ok ((maskFileLines T documented path lineNumber lines).map (· ++ ("\n" : PyStr))) := by
  induction lines generalizing lineNumber with
  | nil => rfl
  | cons line lines ih =>
    have hmask : (if (documented.digestAt (path.getD "") lineNumber).any (T.sha256Text line = ·) then
        fixturePlaceholder ++ ("\n" : PyStr) else line ++ ("\n" : PyStr)) =
        (if documentedSecretFixtureMatches T documented path lineNumber line then fixturePlaceholder
          else line) ++ ("\n" : PyStr) := by
      rw [lookup_eq_matches]
      split <;> rfl
    rw [filterLines, maskFileLines, List.map_cons, ← hmask]
    have hfinish : finishLine T documented path false h lineNumber
        (.of false (some line.codePoints)) =
        .ok (if (documented.digestAt (path.getD "") lineNumber).any (T.sha256Text line = ·) then
          fixturePlaceholder ++ ("\n" : PyStr) else line ++ ("\n" : PyStr), h) := rfl
    rw [hfinish, ok_bind]
    simp only [ih, ok_bind]

end

/-! ## 4. The two filters -/

section

variable {T : Tables} {documented : FixtureManifest} {path : Option PyStr} {diff : Bool}
  {chunks : List PyStr}

/-- The lines that the filter yields, wherever the text is cut. -/
theorem filteredScanChunks_toOption (hne : documented.files ≠ [])
    (hfit : diff = true → HeadersFit false (PyStr.splitLines ⟨chunks.flatMap codePoints⟩)) :
    (filteredScanChunks T documented path diff chunks).toOption =
      ((maskedLines T documented path diff ⟨chunks.flatMap codePoints⟩).map fun lines =>
        lines.map (· ++ ("\n" : PyStr))).toOption := by
  rw [filteredScanChunks_eq]
  cases diff with
  | false =>
    rw [filterLines_file]
    rfl
  | true => exact filterLines_diff hne (hfit rfl)

theorem matches_of_linesOf_eq_nil (h : documented.linesOf (path.getD "") = []) (lineNumber : Nat)
    (line : PyStr) : documentedSecretFixtureMatches T documented path lineNumber line = false := by
  rw [← lookup_eq_matches, FixtureManifest.digestAt, h]
  rfl

theorem maskFileLines_of_linesOf (h : documented.linesOf (path.getD "") = []) (lineNumber : Nat)
    (lines : List PyStr) : maskFileLines T documented path lineNumber lines = lines := by
  induction lines generalizing lineNumber with
  | nil => rfl
  | cons line lines ih =>
    rw [maskFileLines, ih, matches_of_linesOf_eq_nil h]
    rfl

/-- **The filter on chunks is the filter on the text.** -/
theorem filter_refines (hne : documented.files ≠ [])
    (hfit : diff = true → HeadersFit false (PyStr.splitLines ⟨chunks.flatMap codePoints⟩)) :
    ((filteredScanChunks T documented path diff chunks).toOption = none ↔
      (maskDocumentedSecretFixtureLines T documented path diff
        ⟨chunks.flatMap codePoints⟩).toOption = none) ∧
    ∀ value, maskDocumentedSecretFixtureLines T documented path diff ⟨chunks.flatMap codePoints⟩ =
        .ok value →
      ∃ places lines,
        placesOf T path diff (PyStr.splitLines ⟨chunks.flatMap codePoints⟩) = .ok places ∧
        places.length = (PyStr.splitLines ⟨chunks.flatMap codePoints⟩).length ∧
        lines = List.zipWith (maskAt T documented diff)
          (PyStr.splitLines ⟨chunks.flatMap codePoints⟩) places ∧
        filteredScanChunks T documented path diff chunks =
          .ok (lines.map (· ++ ("\n" : PyStr))) ∧
        (value = PyStr.join "\n" lines ∨ value = ⟨chunks.flatMap codePoints⟩ ∧
          lines = PyStr.splitLines ⟨chunks.flatMap codePoints⟩) := by
  have hfilter := @filteredScanChunks_toOption T documented path diff chunks hne hfit
  generalize (⟨chunks.flatMap codePoints⟩ : PyStr) = text at hfilter ⊢
  have hmask : maskDocumentedSecretFixtureLines T documented path diff text =
      if diff = false ∧ documented.linesOf (path.getD "") = [] then .ok text
      else (maskedLines T documented path diff text).map (PyStr.join "\n") := by
    rw [maskDocumentedSecretFixtureLines]
    have hcondition : (diff && documented.files = [] ||
        !diff && documented.linesOf (path.getD "") = []) = true ↔
          diff = false ∧ documented.linesOf (path.getD "") = [] := by
      cases diff <;> simp [hne]
    by_cases hnone : diff = false ∧ documented.linesOf (path.getD "") = []
    · rw [if_pos hnone, if_pos (hcondition.mpr hnone)]
    · rw [if_neg hnone, if_neg fun h => hnone (hcondition.mp h)]
      rfl
  rw [maskedLines_eq] at hfilter hmask
  cases hplaces : placesOf T path diff text.splitLines with
  | error e =>
    have hdiff : diff = true := by
      cases diff with
      | true => rfl
      | false => cases hplaces
    rw [hplaces] at hfilter hmask
    rw [if_neg (by simp [hdiff])] at hmask
    rw [hfilter, hmask]
    exact ⟨iff_of_true rfl rfl, fun value hvalue => by cases hvalue⟩
  | ok places =>
    rw [hplaces] at hfilter hmask
    have hlength : places.length = text.splitLines.length := by
      cases diff with
      | true => exact trackDiffLines_length hplaces
      | false =>
        cases hplaces
        rw [List.length_mapIdx]
    have hwritten : filteredScanChunks T documented path diff chunks = .ok
        ((List.zipWith (maskAt T documented diff) text.splitLines places).map
          (· ++ ("\n" : PyStr))) := by
      cases hresult : filteredScanChunks T documented path diff chunks with
      | error e =>
        rw [hresult] at hfilter
        cases hfilter
      | ok lines =>
        rw [hresult] at hfilter
        exact congrArg _ (Option.some.inj hfilter)
    constructor
    · rw [hwritten, hmask]
      split_ifs <;> exact ⟨fun h => (by cases h), fun h => (by cases h)⟩
    · intro value hvalue
      refine ⟨places, _, rfl, hlength, rfl, hwritten, ?_⟩
      rw [hmask] at hvalue
      split_ifs at hvalue with hnone
      · cases hvalue
        refine Or.inr ⟨rfl, ?_⟩
        obtain ⟨rfl, hlines⟩ := hnone
        cases hplaces
        rw [← maskFileLines_eq path 1, maskFileLines_of_linesOf hlines]
      · cases hvalue
        exact Or.inl rfl

end

/-- `sha256_text`, and the ASCII digits. -/
def sampleTables : Tables where
  sha256Text s := (s.utf8Encode.map Sha256.hexdigest).getD ""
  digits c := if 48 ≤ c && c ≤ 57 then some (c - 48) else none

/-- The digest is that of the line `b`. -/
def sampleManifest : FixtureManifest where
  files := [("tests/x", [(1, "3e23e8160039594a33894f6564e1b1348bbd7a0088d42c4acb73eeaed59c009d")])]
  path_ne := by decide

def sampleDiff : List PyStr := ["--- a/tests/x\n+++ b/tests/", "x\n@@ -1 +1 @@\n-a\n+b", "\n"]

theorem filter_refines_sample :
    ((filteredScanChunks sampleTables sampleManifest none true sampleDiff).toOption = none ↔
      (maskDocumentedSecretFixtureLines sampleTables sampleManifest none true
        ⟨sampleDiff.flatMap codePoints⟩).toOption = none) ∧
    ∀ value, maskDocumentedSecretFixtureLines sampleTables sampleManifest none true
        ⟨sampleDiff.flatMap codePoints⟩ = .ok value →
      ∃ places lines,
        placesOf sampleTables none true (PyStr.splitLines ⟨sampleDiff.flatMap codePoints⟩) =
          .ok places ∧
        places.length = (PyStr.splitLines ⟨sampleDiff.flatMap codePoints⟩).length ∧
        lines = List.zipWith (maskAt sampleTables sampleManifest true)
          (PyStr.splitLines ⟨sampleDiff.flatMap codePoints⟩) places ∧
        filteredScanChunks sampleTables sampleManifest none true sampleDiff =
          .ok (lines.map (· ++ ("\n" : PyStr))) ∧
        (value = PyStr.join "\n" lines ∨ value = ⟨sampleDiff.flatMap codePoints⟩ ∧
          lines = PyStr.splitLines ⟨sampleDiff.flatMap codePoints⟩) :=
  filter_refines (by decide) fun _ => headersFit_of_short (by decide)

end Supplementary.Push
