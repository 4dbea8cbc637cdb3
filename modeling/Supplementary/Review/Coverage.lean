/-
# What a plan covers

The results about `plan`: its chunks are the payload, cut nowhere inside a semantic group, and
its manifest accounts for every file and hunk.  Each part is proved of the function that does it
(`groupRange`, `mergeRanges`, `spansIn`, `unitsFrom`) and assembled in `plan_spec`.
-/
import Supplementary.Review.Plan
import Supplementary.Python.Sha256

namespace Supplementary.Review

open Supplementary Tiling

/-! ## 1. Semantic groups -/

theorem recordOf_spec {files : List FileRecord} {path : PyStr} {file : FileRecord}
    (h : recordOf files path = .ok file) : file ∈ files ∧ file.path = path := by
  unfold recordOf at h
  split at h
  · cases h
  · next hfind =>
    cases h
    exact ⟨List.mem_of_find?_eq_some hfind, by simpa using List.find?_some hfind⟩

theorem foldl_min_start (files : List FileRecord) (m : Nat) :
    files.foldl (fun m f => min m f.start) m ≤ m ∧
      ∀ f ∈ files, files.foldl (fun m f => min m f.start) m ≤ f.start := by
  induction files generalizing m with
  | nil => simp
  | cons file files ih =>
    obtain ⟨hm, hall⟩ := ih (min m file.start)
    refine ⟨hm.trans (min_le_left _ _), fun f hf => ?_⟩
    rcases List.mem_cons.mp hf with rfl | hf
    · exact hm.trans (min_le_right _ _)
    · exact hall f hf

theorem foldl_max_stop (files : List FileRecord) (m : Nat) :
    m ≤ files.foldl (fun m f => max m f.stop) m ∧
      (∀ f ∈ files, f.stop ≤ files.foldl (fun m f => max m f.stop) m) ∧
      (files.foldl (fun m f => max m f.stop) m = m ∨
        ∃ f ∈ files, files.foldl (fun m f => max m f.stop) m = f.stop) := by
  induction files generalizing m with
  | nil => simp
  | cons file files ih =>
    obtain ⟨hm, hall, hsome⟩ := ih (max m file.stop)
    refine ⟨(le_max_left _ _).trans hm, fun f hf => ?_, ?_⟩
    · rcases List.mem_cons.mp hf with rfl | hf
      · exact (le_max_right _ _).trans hm
      · exact hall f hf
    · simp only [List.foldl_cons]
      rcases hsome with heq | ⟨f, hf, heq⟩
      · rcases max_choice m file.stop with hc | hc
        · exact Or.inl (by rw [heq, hc])
        · exact Or.inr ⟨file, by simp, by rw [heq, hc]⟩
      · exact Or.inr ⟨f, List.mem_cons_of_mem _ hf, heq⟩

/-- A group's range runs from before each of its files to after each, and ends with one. -/
theorem groupRange_spec {files : List FileRecord} {group : List PyStr} {range : Nat × Nat}
    (hnodup : (files.map FileRecord.path).Nodup) (h : groupRange files group = .ok range) :
    (∀ f ∈ files, f.path ∈ group → range.1 ≤ f.start ∧ f.stop ≤ range.2) ∧
      ∃ f ∈ files, range.2 = f.stop := by
  simp only [groupRange, bind_eq_ok] at h
  obtain ⟨records, hrecords, h⟩ := h
  have hall := mapM_eq_ok hrecords
  have hin : ∀ f ∈ files, f.path ∈ group → f ∈ records := by
    intro f hf hpath
    obtain ⟨i, hi, hget⟩ := List.getElem_of_mem hpath
    have hrec := hall.get (i := i) hi (by rw [← hall.length_eq]; exact hi)
    obtain ⟨hmem, heq⟩ := recordOf_spec hrec
    have hsame := List.inj_on_of_nodup_map hnodup hmem hf (by simpa [hget] using heq)
    exact hsame ▸ List.getElem_mem _
  have hfrom : ∀ f ∈ records, f ∈ files := by
    intro f hf
    obtain ⟨i, hi, rfl⟩ := List.getElem_of_mem hf
    exact (recordOf_spec (hall.get (i := i) (by rw [hall.length_eq]; exact hi) hi)).1
  cases records with
  | nil => cases h
  | cons file rest =>
    cases h
    have hmin := foldl_min_start rest file.start
    have hmax := foldl_max_stop rest file.stop
    refine ⟨fun f hf hpath => ?_, ?_⟩
    · rcases List.mem_cons.mp (hin f hf hpath) with rfl | hrest
      · exact ⟨hmin.1, hmax.1⟩
      · exact ⟨hmin.2 f hrest, hmax.2.1 f hrest⟩
    · rcases hmax.2.2 with heq | ⟨f, hf, heq⟩
      · exact ⟨file, hfrom file (by simp), heq⟩
      · exact ⟨f, hfrom f (List.mem_cons_of_mem _ hf), heq⟩

/-- **The merge loop.**  On ranges sorted by their starts it makes groups that do not overlap,
that cover every range, and that end where some range does. -/
theorem mergeRanges_spec {P : Nat → Prop} {todo merged groups : List (Nat × Nat)}
    {boundaries boundaries' : List Nat} (hstacked : Stacked merged)
    (hsorted : todo.Pairwise fun p q => p.1 ≤ q.1) (hstart : ∀ p ∈ todo, ∀ q ∈ merged, q.1 ≤ p.1)
    (hmerged : ∀ q ∈ merged, P q.2) (htodo : ∀ p ∈ todo, P p.2)
    (h : mergeRanges merged boundaries todo = .ok (groups, boundaries')) :
    groups.Pairwise (fun g h => g.2 ≤ h.1) ∧ (∀ g ∈ groups, P g.2) ∧
      (∀ p, p ∈ todo ∨ Covered merged p → Covered groups p) := by
  induction todo generalizing merged boundaries with
  | nil =>
    cases h
    refine ⟨List.pairwise_reverse.mpr hstacked, by simpa using hmerged, ?_⟩
    rintro p (hp | ⟨q, hq, hin⟩)
    · cases hp
    · exact ⟨q, List.mem_reverse.mpr hq, hin⟩
  | cons range rest ih =>
    simp only [mergeRanges, bind_eq_ok] at h
    obtain ⟨_, -, h⟩ := h
    obtain ⟨hfirst, hsorted'⟩ := List.pairwise_cons.mp hsorted
    have hrange : ∀ q ∈ merged, q.1 ≤ range.1 := hstart range (by simp)
    obtain ⟨hpair, hstop, hcov⟩ := ih (absorb_stacked hstacked hrange) hsorted'
      (fun p hp => absorb_start (fun q hq => (hrange q hq).trans (hfirst p hp)) (hfirst p hp))
      (absorb_stop hmerged (htodo range (by simp)))
      (fun p hp => htodo p (List.mem_cons_of_mem _ hp)) h
    refine ⟨hpair, hstop, ?_⟩
    rintro p (hp | hp)
    · rcases List.mem_cons.mp hp with rfl | hp
      · exact hcov _ (Or.inr (absorb_covered_self hrange))
      · exact hcov p (Or.inl hp)
    · exact hcov p (Or.inr hp.absorb)

instance : IsTrans (Nat × Nat) rangeLe := ⟨fun p q r hpq hqr => by
  unfold rangeLe at *
  omega⟩

instance : Std.Total rangeLe := ⟨fun p q => by
  unfold rangeLe
  omega⟩

theorem pairwise_sorted_start (grouped : List (Nat × Nat)) :
    (grouped.insertionSort rangeLe).Pairwise fun p q => p.1 ≤ q.1 := by
  refine (List.pairwise_insertionSort rangeLe grouped).imp ?_
  rintro p q (h | h)
  · exact h.le
  · exact h.1.le

/-! ## 2. Spans and hunks -/

theorem mem_hunksIn {start stop n m : Nat} {hunks : List Hunk} :
    m ∈ hunksIn start stop n hunks ↔
      ∃ k h, m = n + k ∧ hunks[k]? = some h ∧ Meets (start, stop) h.range := by
  induction hunks generalizing n with
  | nil => simp [hunksIn]
  | cons hunk hunks ih =>
    have hsucc : (∃ k h, m = n + 1 + k ∧ hunks[k]? = some h ∧ Meets (start, stop) h.range) ↔
        ∃ k h, m = n + (k + 1) ∧ (hunk :: hunks)[k + 1]? = some h ∧
          Meets (start, stop) h.range := by
      simp only [List.getElem?_cons_succ, Nat.add_assoc, Nat.add_comm 1]
    have hzero : Meets (start, stop) hunk.range ↔ start < hunk.stop ∧ hunk.start < stop := Iff.rfl
    unfold hunksIn
    split
    · next hmeet =>
      rw [List.mem_cons, ih, hsucc]
      constructor
      · rintro (rfl | ⟨k, h, hm⟩)
        · exact ⟨0, hunk, rfl, rfl, hzero.mpr hmeet⟩
        · exact ⟨k + 1, h, hm⟩
      · rintro ⟨_ | k, h, hm, hget, hmeets⟩
        · exact Or.inl hm
        · exact Or.inr ⟨k, h, hm, hget, hmeets⟩
    · next hmeet =>
      rw [ih, hsucc]
      constructor
      · rintro ⟨k, h, hm⟩
        exact ⟨k + 1, h, hm⟩
      · rintro ⟨_ | k, h, hm, hget, hmeets⟩
        · cases hget
          exact absurd (hzero.mp hmeets) hmeet
        · exact ⟨k, h, hm, hget, hmeets⟩

/-- The range of a unit's part of a file. -/
def Span.range (s : Span) : Nat × Nat := (s.start, s.stop)

/-- The spans of file `k` among some spans. -/
def spansFor (k : Nat) (spans : List Span) : List Span := spans.filter fun s => s.file = k

theorem spansFor_append (k : Nat) (ss ts : List Span) :
    spansFor k (ss ++ ts) = spansFor k ss ++ spansFor k ts := List.filter_append ..

/-- A file that starts the list has number `number`; no later one has. -/
theorem spansFor_spansIn_of_lt {start stop number k : Nat} (files : List FileRecord)
    (h : k < number) : spansFor k (spansIn start stop number files) = [] := by
  induction files generalizing number with
  | nil => rfl
  | cons file files ih =>
    unfold spansIn
    split
    · have hne : number ≠ k := by omega
      have hrest := @ih (number + 1) (by omega)
      simpa [spansFor, hne] using hrest
    · exact ih (by omega)

/-- A unit lists one span for a file it meets, and none for another. -/
theorem spansFor_spansIn {start stop number k : Nat} {files : List FileRecord} {file : FileRecord}
    (h : files[k]? = some file) :
    spansFor (number + k) (spansIn start stop number files) =
      if Meets (start, stop) file.range then
        [{ file := number + k, start := max start file.start, stop := min stop file.stop,
           hunks := hunksIn start stop 0 file.hunks }]
      else [] := by
  induction files generalizing number k with
  | nil => simp at h
  | cons f files ih =>
    cases k with
    | zero =>
      obtain rfl : f = file := by simpa using h
      have hlater : spansFor number (spansIn start stop (number + 1) files) = [] :=
        spansFor_spansIn_of_lt files (Nat.lt_succ_self number)
      unfold spansIn
      by_cases hmeet : Meets (start, stop) f.range
      · rw [if_pos hmeet, if_pos (show start < f.stop ∧ f.start < stop from hmeet), spansFor,
          List.filter_cons_of_pos (by simp)]
        exact congrArg _ hlater
      · rw [if_neg hmeet, if_neg (show ¬ (start < f.stop ∧ f.start < stop) from hmeet)]
        exact hlater
    | succ k =>
      have hrest := @ih (number + 1) k (by simpa using h)
      rw [show number + 1 + k = number + (k + 1) by omega] at hrest
      unfold spansIn
      split
      · have hne : number ≠ number + (k + 1) := by omega
        rw [← hrest]
        simp [spansFor]
      · exact hrest

/-! ## 3. Units -/

/-- A unit's range. -/
def ReviewUnit.range (u : ReviewUnit) : Nat × Nat := (u.start, u.stop)

theorem unitsFrom_range (rt : Runtime) (files : List FileRecord) (number start : Nat)
    (chunks : List Bytes) :
    (unitsFrom rt files number start chunks).map ReviewUnit.range = ranges start chunks := by
  induction chunks generalizing number start with
  | nil => rfl
  | cons chunk chunks ih => simp [unitsFrom, ranges, ReviewUnit.range, ih]

theorem unitsFrom_spans {rt : Runtime} {files : List FileRecord} {number start : Nat}
    {chunks : List Bytes} {u : ReviewUnit} (h : u ∈ unitsFrom rt files number start chunks) :
    u.spans = spansIn u.start u.stop 0 files := by
  induction chunks generalizing number start with
  | nil => cases h
  | cons chunk chunks ih =>
    rcases List.mem_cons.mp h with rfl | h
    · rfl
    · exact ih h

/-- The spans of one file over all units are the units' ranges clipped to it. -/
theorem spansFor_units {files : List FileRecord} {file : FileRecord} {k : Nat}
    {units : List ReviewUnit} (hspans : ∀ u ∈ units, u.spans = spansIn u.start u.stop 0 files)
    (h : files[k]? = some file) :
    (spansFor k (units.flatMap ReviewUnit.spans)).map Span.range =
      clips file.start file.stop (units.map ReviewUnit.range) := by
  induction units with
  | nil => rfl
  | cons u units ih =>
    have hone := @spansFor_spansIn u.start u.stop 0 _ _ _ h
    rw [Nat.zero_add, ← hspans u (by simp)] at hone
    rw [List.flatMap_cons, spansFor_append, List.map_append, hone,
      ih fun v hv => hspans v (List.mem_cons_of_mem _ hv), List.map_cons]
    split
    · next hmeet =>
      rw [clips_cons_of_meets (p := u.range) hmeet]
      rfl
    · next hmeet =>
      rw [clips_cons_of_not_meets (p := u.range) hmeet]
      rfl

/-- A unit lists hunk `n` of file `k` exactly when they meet.  A hunk lies in its file, so the
unit then meets the file as well. -/
theorem unit_hunks {files : List FileRecord} {file : FileRecord} {k n : Nat} {u : ReviewUnit}
    (hspans : u.spans = spansIn u.start u.stop 0 files) (h : files[k]? = some file)
    (hhunks : ∀ hunk ∈ file.hunks, file.start ≤ hunk.start ∧ hunk.stop ≤ file.stop) :
    (∃ s ∈ u.spans, s.file = k ∧ n ∈ s.hunks) ↔
      ∃ hunk, file.hunks[n]? = some hunk ∧ Meets u.range hunk.range := by
  have hone := @spansFor_spansIn u.start u.stop 0 _ _ _ h
  rw [Nat.zero_add, ← hspans] at hone
  have hmem : (∃ s ∈ u.spans, s.file = k ∧ n ∈ s.hunks) ↔
      ∃ s ∈ spansFor k u.spans, n ∈ s.hunks := by
    simp [spansFor, and_assoc]
  rw [hmem, hone]
  split
  · simp [mem_hunksIn, ReviewUnit.range]
  · next hmeet =>
    constructor
    · rintro ⟨s, hs, -⟩
      cases hs
    · rintro ⟨hunk, hget, hmeets⟩
      obtain ⟨hlow, hhigh⟩ := hhunks hunk (List.mem_of_getElem? hget)
      exact absurd ⟨hmeets.1.trans_le hhigh, hlow.trans_lt hmeets.2⟩ hmeet

/-! ## 4. The plan -/

/-- What `plan` ran when it returned. -/
structure Planned (rt : Runtime) (payload : Bytes) (limits : Value) (m : Manifest)
    (chunks : List Bytes) : Prop where
  policy : validatePolicy rt limits = .ok m.policy
  files : inventory payload = .ok m.files
  cut : ∃ grouped groups boundaries,
    m.policy.semanticGroups.mapM (groupRange m.files) = .ok grouped ∧
    mergeRanges [] (recordBoundaries m.files) (grouped.insertionSort rangeLe) =
      .ok (groups, boundaries) ∧
    partition payload boundaries (.int m.policy.maxUnits.1) groups = .ok chunks
  admitted : admitReviews m.policy (chunks.length + 1) = .ok ()
  units : m.units = unitsFrom rt m.files 0 0 chunks
  text : (canonical rt m.toValue).isOk = true
  limitsText : (canonical rt limits).isOk = true

/-- The manifest's JSON text survives its round trip. -/
theorem canonical_reload (rt : Runtime) (m : Manifest) :
    canonical rt m.reload.toValue = canonical rt m.toValue :=
  @sameJson_entry [_, _] _ _ _ _ (@sameJson_entry [] _ _ _ _ (@sameJson_entry [] _ _ _ _
    (sameJson_reload m.assets.promptVersion))) jsonFloat rt.maxDepth

theorem plan_eq_ok {rt : Runtime} {payload prompt : Bytes} {binding limits : Value}
    {promptVersion : PyStr} {m : Manifest} {chunks : List Bytes}
    (h : plan rt payload binding prompt promptVersion limits = .ok (m, chunks)) :
    Planned rt payload limits m chunks := by
  simp only [plan, bind_eq_ok, Prod.exists] at h
  obtain ⟨_, -, policy, hpolicy, _, -, files, hfiles, grouped, hgrouped, groups, boundaries,
    hmerge, chunks', hchunks, _, hadmit, _, -, limitsText, hlimits, text, htext, h⟩ := h
  cases h
  refine ⟨hpolicy, hfiles, ⟨grouped, groups, boundaries, hgrouped, hmerge, hchunks⟩, hadmit, rfl,
    ?_, ?_⟩
  · rw [canonical_reload, htext]
    rfl
  · rw [hlimits]
    rfl

/-- Every file ends where a character does: at the end of the payload or before a header. -/
theorem FileRecord.Ok.not_continuation {payload : Bytes} {file : FileRecord}
    (h : file.Ok payload) : (payload[file.stop]?).any isContinuation = false := by
  rcases h.stop_byte with hend | hbyte
  · rw [hend, List.getElem?_eq_none le_rfl]
    rfl
  · rw [hbyte]
    rfl

/-- The groups a plan hands to the partitioner are fit for it and hold every semantic group. -/
theorem Planned.groups {rt : Runtime} {payload : Bytes} {limits : Value} {m : Manifest}
    {chunks : List Bytes} (h : Planned rt payload limits m chunks) :
    ∃ groups, GroupsOk payload groups ∧ Cut payload groups m.policy.maxUnits.1.toNat 0 chunks ∧
      ∀ group ∈ m.policy.semanticGroups, ∃ g ∈ groups,
        ∀ f ∈ m.files, f.path ∈ group → g.1 ≤ f.start ∧ f.stop ≤ g.2 := by
  obtain ⟨grouped, groups, boundaries, hgrouped, hmerge, hchunks⟩ := h.cut
  obtain ⟨-, hok, hnodup⟩ := inventory_spec h.files
  have hall := mapM_eq_ok hgrouped
  have hend : ∀ p ∈ grouped.insertionSort rangeLe,
      (payload[p.2]?).any isContinuation = false := by
    intro p hp
    obtain ⟨i, hi, rfl⟩ := List.getElem_of_mem ((List.mem_insertionSort _).mp hp)
    have hrange := hall.get (i := i) (by rw [hall.length_eq]; exact hi) hi
    obtain ⟨f, hf, heq⟩ := (groupRange_spec hnodup hrange).2
    exact heq ▸ (hok f hf).not_continuation
  obtain ⟨hordered, hstop, hcovered⟩ :=
    mergeRanges_spec (P := fun x => (payload[x]?).any isContinuation = false)
      List.Pairwise.nil (pairwise_sorted_start grouped) (by simp) (by simp) hend hmerge
  have hgroups : GroupsOk payload groups := ⟨hordered, hstop⟩
  obtain ⟨limit, hlimit, hcut⟩ := partition_spec hgroups hchunks
  have hmax : m.policy.maxUnits.1.toNat = limit := by rw [Value.int.inj hlimit, Int.toNat_natCast]
  refine ⟨groups, hgroups, hmax ▸ hcut, fun group hgroup => ?_⟩
  obtain ⟨i, hi, rfl⟩ := List.getElem_of_mem hgroup
  have hi' : i < grouped.length := by rw [← hall.length_eq]; exact hi
  have hrange := hall.get (i := i) hi hi'
  obtain ⟨g, hg, hlow, hhigh⟩ := hcovered grouped[i]
    (Or.inl ((List.mem_insertionSort _).mpr (List.getElem_mem hi')))
  refine ⟨g, hg, fun f hf hpath => ?_⟩
  obtain ⟨hstart, hstop'⟩ := (groupRange_spec hnodup hrange).1 f hf hpath
  exact ⟨hlow.trans hstart, hstop'.trans hhigh⟩

/-- There is at least one chunk. -/
theorem Planned.chunks_pos {rt : Runtime} {payload : Bytes} {limits : Value} {m : Manifest}
    {chunks : List Bytes} (h : Planned rt payload limits m chunks) : 1 ≤ chunks.length := by
  obtain ⟨groups, -, hcut, -⟩ := h.groups
  refine List.length_pos_of_ne_nil fun hnil => ?_
  have hjoin : ([] : Bytes) = payload := by simpa [hnil] using hcut.join
  have hfiles := h.files
  rw [← hjoin] at hfiles
  simp [inventory, bind_eq_ok] at hfiles

/-- The reviews' shares of the time and the cost fit the budgets. -/
theorem Planned.shares {rt : Runtime} {payload : Bytes} {limits : Value} {m : Manifest}
    {chunks : List Bytes} (h : Planned rt payload limits m chunks) :
    ((chunks.length + 1 : Nat) : Int) * m.policy.perReviewSeconds.1 ≤
        m.policy.maxReviewSeconds.1 ∧
      ((chunks.length + 1 : Nat) : Int) * m.policy.perReviewCostMicrousd.1 ≤
        m.policy.maxCostMicrousd.1 := by
  have hadmit := h.admitted
  simp only [admitReviews, bind_eq_ok, require_eq_ok] at hadmit
  obtain ⟨_, htime, hcost⟩ := hadmit
  exact ⟨htime, hcost⟩

/-! ## 5. A plan of a small diff -/

/-- A runtime with the real digest. -/
def sampleRuntime : Runtime :=
  { sha256 := Sha256.hexdigest, maxDepth := 900, float := fun text => ⟨text, none⟩,
    ownSource := bytes "VERSION = \"bounded-review/v1\"\n" }

/-- A diff of two files: one modified, one added. -/
def sampleDiff : Bytes := [
  bytes "diff --git a/x b/x", bytes "index " ++ List.replicate 40 49 ++ bytes ".." ++
    List.replicate 40 50 ++ bytes " 100644", bytes "--- a/x", bytes "+++ b/x", bytes "@@ -1 +1 @@",
  bytes "-old", bytes "+new", bytes "diff --git a/y b/y", bytes "new file mode 100644",
  bytes "index " ++ zeroBlob ++ bytes ".." ++ emptyBlob].flatMap fun line => line ++ [10]

def sampleOid (digit : Nat) : Value := .str ⟨List.replicate 40 digit⟩

def sampleBinding : Value := .dict [("repository", .str "owner/name"),
  ("base", sampleOid 97),
  ("head", sampleOid 98),
  ("merge_base", sampleOid 99),
  ("integration_tree", sampleOid 100),
  ("format", .str format), ("scope", .str "generic")]

def sampleLimits : Value :=
  match policy sampleRuntime with
  | .dict entries => .dict (entries.dropLast.concat ("semantic_groups", .list [.list [.str "x", .str "y"]]))
  | value => value

/-- The sample diff fits one unit. -/
theorem samplePlan : ∃ m chunks,
    plan sampleRuntime sampleDiff sampleBinding (bytes "Review.") "v1" sampleLimits =
      .ok (m, chunks) ∧ m.units.length = 1 := by
  have h : (plan sampleRuntime sampleDiff sampleBinding (bytes "Review.") "v1" sampleLimits).toOption.any
      (fun r => r.1.units.length = 1) = true := by decide +kernel
  cases hplan : plan sampleRuntime sampleDiff sampleBinding (bytes "Review.") "v1" sampleLimits with
  | error e => simp [hplan, Except.toOption] at h
  | ok r => exact ⟨r.1, r.2, rfl, by simpa [hplan, Except.toOption] using h⟩

/-! ## 6. Coverage -/

/-- A plan's chunks and manifest account for the whole payload.  A cut is the end of a chunk; it
lies strictly inside a group's byte range exactly if it is after the start of one of the group's
files and before the end of one. -/
structure Covers (payload : Bytes) (m : Manifest) (chunks : List Bytes) : Prop where
  join : chunks.flatten = payload
  chunk : ∀ chunk ∈ chunks, chunk ≠ [] ∧ chunk.length ≤ 199999 ∧ ValidUtf8 chunk
  count : (chunks.length : Int) ≤ m.policy.maxUnits.1
  groups : ∀ group ∈ m.policy.semanticGroups, ∀ r ∈ ranges 0 chunks,
    ∀ f ∈ m.files, f.path ∈ group → ∀ g ∈ m.files, g.path ∈ group →
      ¬ (f.start < r.2 ∧ r.2 < g.stop)
  units : m.units.map ReviewUnit.range = ranges 0 chunks
  files : Tiles (m.files.map FileRecord.range) 0 payload.length
  spans : ∀ k file, m.files[k]? = some file →
    Tiles ((spansFor k (m.units.flatMap ReviewUnit.spans)).map Span.range) file.start file.stop
  hunks : ∀ k file, m.files[k]? = some file → ∀ u ∈ m.units, ∀ n,
    (∃ s ∈ u.spans, s.file = k ∧ n ∈ s.hunks) ↔
      ∃ hunk, file.hunks[n]? = some hunk ∧ Meets u.range hunk.range

/-- **No byte, file or hunk of an accepted diff escapes review.** -/
theorem plan_covers {rt : Runtime} {payload prompt : Bytes} {binding limits : Value}
    {promptVersion : PyStr} {m : Manifest} {chunks : List Bytes}
    (h : plan rt payload binding prompt promptVersion limits = .ok (m, chunks)) :
    validatePolicy rt limits = .ok m.policy ∧ inventory payload = .ok m.files ∧
      Covers payload m chunks := by
  have hplan := plan_eq_ok h
  obtain ⟨htiles, hok, -⟩ := inventory_spec hplan.files
  obtain ⟨groups, -, hcut, hheld⟩ := hplan.groups
  have hjoin : chunks.flatten = payload := by simpa using hcut.join
  have hunits : m.units.map ReviewUnit.range = ranges 0 chunks := by
    rw [hplan.units, unitsFrom_range]
  have hranges : Tiles (ranges 0 chunks) 0 payload.length := by
    have := tiles_ranges (fun chunk hc => (validateUnit_eq_ok (hcut.unit chunk hc)).2.1) 0
    rwa [hjoin, Nat.zero_add] at this
  have hspans : ∀ u ∈ m.units, u.spans = spansIn u.start u.stop 0 m.files := fun u hu =>
    unitsFrom_spans (hplan.units ▸ hu)
  refine ⟨hplan.policy, hplan.files, hjoin, ?_, ?_, ?_, hunits, htiles, ?_, ?_⟩
  · intro chunk hchunk
    obtain ⟨hutf, hpos, hmax⟩ := validateUnit_eq_ok (hcut.unit chunk hchunk)
    exact ⟨List.ne_nil_of_length_pos hpos, hmax, hutf⟩
  · have := hcut.count
    have := m.policy.maxUnits.2.1
    omega
  · rintro group hgroup r hr f hf hfpath g hg hgpath ⟨hlow, hhigh⟩
    obtain ⟨range, hrange, hin⟩ := hheld group hgroup
    exact hcut.outside r hr range hrange
      ⟨(hin f hf hfpath).1.trans_lt hlow, hhigh.trans_le (hin g hg hgpath).2⟩
  · intro k file hfile
    have hbounds := htiles.bounds (List.mem_map_of_mem (List.mem_of_getElem? hfile))
    rw [spansFor_units hspans hfile, hunits]
    exact hranges.clips hbounds.2.1 hbounds.1 hbounds.2.2
  · intro k file hfile u hu n
    refine unit_hunks (hspans u hu) hfile fun hunk hhunk => ?_
    obtain ⟨a, ha, htile⟩ := (hok file (List.mem_of_getElem? hfile)).hunks
    have hb := htile.bounds (List.mem_map_of_mem hhunk)
    exact ⟨ha.trans hb.1, hb.2.2⟩

theorem plan_covers_sample : ∃ m chunks,
    plan sampleRuntime sampleDiff sampleBinding (bytes "Review.") "v1" sampleLimits =
      .ok (m, chunks) ∧ Covers sampleDiff m chunks := by
  obtain ⟨m, chunks, h, -⟩ := samplePlan
  exact ⟨m, chunks, h, (plan_covers h).2.2⟩

end Supplementary.Review
