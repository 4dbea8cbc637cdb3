/-
# The inventory is a snapshot

The listing changes while it is read, and the server may order it anew for each request.  What the
process can rely on is one answer at a time: a page of some order of what is listed at the instant of
the request, with the true total.

The instant that counts is that of the last request of the first pass.  Every entry of the first pass
was listed before it and, because the second pass found the page unchanged, after it; the ids are
distinct; and the last page tells how many were listed then.
-/
import Supplementary.Promotion.Inventory
import Supplementary.Lib.Snapshot

namespace Supplementary.Promotion

open Supplementary Snapshot

/-! ## 1. The server -/

/-- An answer to a request for a page: in some order, that part of what is listed now, and how much
is listed. -/
structure Answer (field : PyStr) (listed : List Value) (number : Nat) (page : Value) : Prop where
  dict : ∃ (entries : List (PyStr × Value)) (order : List Value), page = .dict entries ∧
    (entries.map Prod.fst).Nodup ∧ order.Perm listed ∧
    page.find? "total_count" = some (.int listed.length) ∧
    page.find? field = some (.list ((order.drop ((number - 1) * 100)).take 100))

/-- The id an entry is listed under. -/
def idOf (entry : Value) : Value := entry.get "id"

/-- A listing that changes with time and the requests that read it.  Requests are served in their
order, each at one instant; an entry that is no longer listed and then listed again is another
object. -/
structure Serves {T : Type} [Preorder T] (fetch : Fetch) (field : PyStr) (served : Nat → T)
    (listed : T → List Value) : Prop where
  ordered : Monotone served
  answers : ∀ call number page, fetch call number = .ok page →
    Answer field (listed (served call)) number page
  returns : Returns listed idOf fun y x => y.pyEq x = true

/-- The reports of a reading are of exactly the entries that are listed, each once. -/
def IsSnapshot (reports listed : List Value) : Prop :=
  (reports.map idOf).Nodup ∧ (reports.map idOf).Perm (listed.map idOf)

/-! ## 2. Equal pages -/

section Equality

theorem pyEq_int {n m : Int} (h : (Value.int n).pyEq (.int m) = true) : n = m := by
  simpa [Value.pyEq, Value.number?, eq_comm] using h

/-- Equal lists have equal entries. -/
theorem mem_of_pyEqList {xs ys : List Value} (h : Value.pyEqList xs ys = true) :
    ∀ y ∈ ys, ∃ x ∈ xs, x.pyEq y = true := by
  induction ys generalizing xs with
  | nil => exact fun _ hy => by cases hy
  | cons y ys ih =>
    cases xs with
    | nil => simp [Value.pyEqList] at h
    | cons x xs =>
      simp only [Value.pyEqList, Bool.and_eq_true] at h
      intro z hz
      rcases List.mem_cons.mp hz with rfl | hz
      · exact ⟨x, List.mem_cons_self, h.1⟩
      · obtain ⟨w, hw, heq⟩ := ih h.2 z hz
        exact ⟨w, List.mem_cons_of_mem _ hw, heq⟩

theorem pyEqEntries_mem {es fs : List (PyStr × Value)} (h : Value.pyEqEntries es fs = true)
    {key : PyStr} {v : Value} (hv : (key, v) ∈ es) : ∃ w, (key, w) ∈ fs ∧ v.pyEq w = true := by
  induction es with
  | nil => cases hv
  | cons e es ih =>
    obtain ⟨k, u⟩ := e
    simp only [Value.pyEqEntries, Bool.and_eq_true] at h
    rcases List.mem_cons.mp hv with heq | hv
    · cases heq
      have hfirst := h.1
      split at hfirst
      · next f hf =>
        have hkey := List.find?_some hf
        have hmem := List.mem_of_find?_eq_some hf
        simp only [decide_eq_true_eq] at hkey
        exact ⟨f.2, hkey ▸ hmem, hfirst⟩
      · cases hfirst
    · exact ih h.2 hv

/-- Equal dicts have equal values under a key. -/
theorem pyEq_find? {es fs : List (PyStr × Value)} (hfs : (fs.map Prod.fst).Nodup) (h : (Value.dict es).pyEq (.dict fs) = true) {key : PyStr}
    {v : Value} (hv : (Value.dict es).find? key = some v) :
    ∃ w, (Value.dict fs).find? key = some w ∧ v.pyEq w = true := by
  simp only [Value.pyEq, Bool.and_eq_true] at h
  obtain ⟨w, hw, heq⟩ := pyEqEntries_mem h.2 (mem_of_lookup hv)
  exact ⟨w, lookup_of_mem hfs hw, heq⟩

end Equality

/-! ## 3. The two passes -/

theorem fetchPages_spec {fetch : Fetch} {call number count : Nat} {pages : List Value}
    (h : fetchPages fetch call number count = .ok pages) : pages.length = count ∧
      ∀ i page, pages[i]? = some page → fetch (call + i) (number + i) = .ok page := by
  induction count generalizing call number pages with
  | zero =>
    cases h
    exact ⟨rfl, fun i page hi => by simp at hi⟩
  | succ count ih =>
    simp only [fetchPages, bind_eq_ok] at h
    obtain ⟨first, hfirst, rest, hrest, h⟩ := h
    cases h
    obtain ⟨hlen, hget⟩ := ih hrest
    refine ⟨by rw [List.length_cons, hlen], fun i page hi => ?_⟩
    cases i with
    | zero =>
      obtain rfl : first = page := by simpa using hi
      exact hfirst
    | succ i =>
      have := hget i page (by simpa using hi)
      rwa [Nat.add_assoc, Nat.add_assoc, Nat.add_comm 1 i] at this

theorem one_le_pageCount (total : Int) : 1 ≤ pageCount total := by
  have : (1 : Int) ≤ max 1 ((total + pageSize - 1) / pageSize) := le_max_left _ _
  rw [pageCount]
  omega

theorem firstPass_spec {fetch : Fetch} {call : Nat} {low high : Int} {message : String}
    {total : Int} {pages : List Value}
    (h : firstPass fetch call low high message = .ok (total, pages)) :
    low ≤ total ∧ pages.length = pageCount total ∧
      ∀ i page, pages[i]? = some page → fetch (call + i) (1 + i) = .ok page := by
  simp only [firstPass, bind_eq_ok, raiseUnless_eq_ok] at h
  obtain ⟨first, hfirst, _, -, n, -, _, hbound, rest, hrest, h⟩ := h
  cases h
  obtain ⟨hlen, hget⟩ := fetchPages_spec hrest
  have hcount := one_le_pageCount total
  refine ⟨hbound.1, by rw [List.length_cons, hlen]; omega, fun i page hi => ?_⟩
  cases i with
  | zero =>
    obtain rfl : first = page := by simpa using hi
    exact hfirst
  | succ i =>
    have := hget i page (by simpa using hi)
    rwa [Nat.add_assoc, Nat.add_comm 1 i, show 2 + i = 1 + (i + 1) by omega] at this

theorem secondPass_spec {fetch : Fetch} {agrees : Value → Value → Py Unit} {call number : Nat}
    {pages : List Value} {u : Unit} (h : secondPass fetch agrees call number pages = .ok u) :
    ∀ i page, pages[i]? = some page →
      ∃ again, fetch (call + i) (number + i) = .ok again ∧ agrees again page = .ok () := by
  induction pages generalizing call number with
  | nil => exact fun i page hi => by simp at hi
  | cons first pages ih =>
    simp only [secondPass, bind_eq_ok] at h
    obtain ⟨again, hagain, _, hagrees, h⟩ := h
    intro i page hi
    cases i with
    | zero =>
      obtain rfl : first = page := by simpa using hi
      exact ⟨again, hagain, hagrees⟩
    | succ i =>
      have := ih h i page (by simpa using hi)
      rwa [Nat.add_assoc, Nat.add_assoc, Nat.add_comm 1 i] at this

/-! ## 4. What is kept of the pages -/

/-- An entry is kept under its own id, which none before it had. -/
def Keeps (record : Record) : Prop := ∀ seen entry id report, record seen entry = .ok (id, report) →
  id ∉ seen ∧ idOf entry = .int id ∧ idOf report = .int id

theorem positive?_eq_some {value : Value} {n : Int} (h : positive? value = some n) :
    value = .int n := by
  unfold positive? at h
  split at h
  · split at h
    · cases h
      rfl
    · cases h
  · cases h

theorem runRecord_keeps (cal : Calendar) (workflowId : Int) : Keeps (runRecord cal workflowId) := by
  intro seen run id report h
  simp only [runRecord, bind_eq_ok, raiseUnless_eq_ok, orRaise_eq_ok] at h
  obtain ⟨_, -, runId, hid, _, hseen, _, -, _, -, _, -, _, -, _, -, _, -, _, -, _, -, _, -, _, -, _,
    -, h⟩ := h
  cases h
  exact ⟨hseen, positive?_eq_some hid, rfl⟩

theorem jobRecord_keeps (parent : Parent) : Keeps (jobRecord parent) := by
  intro seen job id report h
  simp only [jobRecord, bind_eq_ok, raiseUnless_eq_ok, orRaise_eq_ok] at h
  obtain ⟨_, -, jobId, hid, _, hseen, _, -, _, -, _, -, _, -, _, -, _, -, _, -, _, -, h⟩ := h
  cases h
  exact ⟨hseen, positive?_eq_some hid, rfl⟩

/-- The entries of a page. -/
def entriesOf (field : PyStr) (page : Value) : List Value :=
  match page.get field with
  | .list batch => batch
  | _ => []

theorem readBatch_spec {record : Record} (hrecord : Keeps record) {seen seen' : List Int}
    {batch reports : List Value} (h : readBatch record seen batch = .ok (seen', reports)) :
    reports.map idOf = batch.map idOf ∧ (batch.map idOf).Nodup ∧
      (∀ id ∈ seen, .int id ∉ batch.map idOf) ∧
      (∀ id, id ∈ seen' ↔ id ∈ seen ∨ .int id ∈ batch.map idOf) ∧
      (∀ entry ∈ batch, ∃ id, idOf entry = .int id) := by
  induction batch generalizing seen reports with
  | nil =>
    cases h
    simp
  | cons entry batch ih =>
    simp only [readBatch, bind_eq_ok, Prod.exists] at h
    obtain ⟨id, report, hentry, seen'', more, hrest, h⟩ := h
    cases h
    obtain ⟨hnew, hid, hreport⟩ := hrecord seen entry id report hentry
    obtain ⟨hmap, hnodup, hfresh, hmem, hint⟩ := ih hrest
    refine ⟨by simp [hid, hreport, hmap], ?_, ?_, ?_, ?_⟩
    · rw [List.map_cons, List.nodup_cons, hid]
      exact ⟨hfresh id List.mem_cons_self, hnodup⟩
    · intro id' hid' hmem'
      rw [List.map_cons, List.mem_cons, hid] at hmem'
      rcases hmem' with heq | hmem'
      · cases heq
        exact hnew hid'
      · exact hfresh id' (List.mem_cons_of_mem _ hid') hmem'
    · intro id'
      rw [hmem, List.map_cons, List.mem_cons, List.mem_cons, hid]
      simp only [Value.int.injEq]
      tauto
    · intro entry' hentry'
      rcases List.mem_cons.mp hentry' with rfl | hentry'
      · exact ⟨id, hid⟩
      · exact hint entry' hentry'

theorem list?_eq_some {value : Value} {items : List Value} (h : list? value = some items) :
    value = .list items := by
  unfold list? at h
  split at h
  · cases h
    rfl
  · cases h

/-- **The pages.**  Induction on them; the ids seen so far are those of the entries before. -/
theorem readPages_spec {kind : Kind} (hrecord : Keeps kind.record) {total : Int} {number : Nat}
    {seen last : List Int} {pages reports : List Value}
    (h : readPages kind total number seen pages = .ok (last, reports)) :
    reports.map idOf = (pages.flatMap (entriesOf kind.field)).map idOf ∧
      (reports.map idOf).Nodup ∧ (∀ id ∈ seen, .int id ∉ reports.map idOf) ∧
      ∀ (i : Nat) page, pages[i]? = some page → page.get kind.field = .list (entriesOf kind.field page) ∧
        (page.get "total_count").pyEq (.int total) = true ∧
        (entriesOf kind.field page).length = kind.expected total (number + i) := by
  induction pages generalizing number seen reports with
  | nil =>
    cases h
    exact ⟨rfl, List.nodup_nil, by simp, fun i page hi => by simp at hi⟩
  | cons first pages ih =>
    simp only [readPages, bind_eq_ok, raiseUnless_eq_ok, orRaise_eq_ok, Prod.exists] at h
    obtain ⟨count, hattr, _, hcount, batch, hbatch, _, hlen, seen', reports', hrest, _, more,
      hmore, h⟩ := h
    cases h
    have hfield : first.get kind.field = .list batch := list?_eq_some hbatch
    have hentries : entriesOf kind.field first = batch := by simp only [entriesOf, hfield]
    have hget : first.get "total_count" = count := by
      rw [Value.attr_eq] at hattr
      split at hattr
      · exact Except.ok.inj hattr
      · cases hattr
    obtain ⟨hmap, hnodup, hfresh, hmem, hint⟩ := readBatch_spec hrecord hrest
    obtain ⟨hmap', hnodup', hfresh', hpages⟩ := ih hmore
    refine ⟨?_, ?_, ?_, ?_⟩
    · rw [List.flatMap_cons, List.map_append, List.map_append, hmap, hmap', hentries]
    · rw [List.map_append, hmap]
      refine List.Nodup.append hnodup hnodup' ?_
      intro v hv hv'
      obtain ⟨entry, hentry, rfl⟩ := List.mem_map.mp hv
      obtain ⟨id, hid⟩ := hint entry hentry
      rw [hid] at hv hv'
      exact hfresh' id ((hmem id).mpr (Or.inr hv)) hv'
    · intro id hid hmem'
      rw [List.map_append, List.mem_append, hmap] at hmem'
      rcases hmem' with hmem' | hmem'
      · exact hfresh id hid hmem'
      · exact hfresh' id ((hmem id).mpr (Or.inl hid)) hmem'
    · intro i page hi
      cases i with
      | zero =>
        obtain rfl : first = page := by simpa using hi
        rw [hentries, hget]
        exact ⟨hfield, hcount, by simpa using hlen⟩
      | succ i =>
        obtain ⟨hf, hc, hl⟩ := hpages i page (by simpa using hi)
        refine ⟨hf, hc, ?_⟩
        rw [hl]
        congr 1
        push_cast
        omega

/-! ## 5. One instant -/

section Passes

variable {T : Type} [Preorder T] {fetch : Fetch} {served : Nat → T} {listed : T → List Value}

/-- What a page lists is listed. -/
theorem Answer.entriesOf {field : PyStr} {now : List Value} {number : Nat} {page : Value}
    (h : Answer field now number page) : ∀ x ∈ entriesOf field page, x ∈ now := by
  obtain ⟨entries, order, -, -, hperm, -, hfield⟩ := h.dict
  intro x hx
  rw [Promotion.entriesOf, Value.get, hfield] at hx
  exact hperm.mem_iff.mp (List.mem_of_mem_drop (List.mem_of_mem_take hx))

/-- The last page tells how many there are. -/
theorem Answer.total {field : PyStr} {now : List Value} {number : Nat} {page : Value} {total : Int}
    (h : Answer field now number page)
    (htotal : (page.get "total_count").pyEq (.int total) = true) : (now.length : Int) = total := by
  obtain ⟨entries, order, -, -, -, hcount, -⟩ := h.dict
  rw [Value.get, hcount] at htotal
  exact pyEq_int htotal

/-- **The two passes.**  Every entry of the first pass spans its last request. -/
theorem passes_snapshot {kind : Kind} (hrecord : Keeps kind.record) {call : Nat} {low high : Int}
    {message : String} {total : Int} {pages reports : List Value} {seen last : List Int}
    (hserves : Serves fetch kind.field served listed)
    (hfirst : firstPass fetch call low high message = .ok (total, pages))
    (hread : readPages kind total 1 seen pages = .ok (last, reports))
    (hagain : ∀ i page, pages[i]? = some page → ∃ again,
      fetch (call + pages.length + i) (1 + i) = .ok again ∧
        ∀ x ∈ entriesOf kind.field page, ∃ y ∈ entriesOf kind.field again, y.pyEq x = true)
    (hlength : (reports.length : Int) = total) :
    IsSnapshot reports (listed (served (call + pageCount total - 1))) := by
  obtain ⟨-, hcount, hget⟩ := firstPass_spec hfirst
  obtain ⟨hmap, hnodup, -, hpages⟩ := readPages_spec hrecord hread
  have hpos := one_le_pageCount total
  have hanswer : ∀ i page, pages[i]? = some page →
      Answer kind.field (listed (served (call + i))) (1 + i) page :=
    fun i page hi => hserves.answers _ _ _ (hget i page hi)
  refine ⟨hnodup, ?_⟩
  rw [hmap]
  rw [hmap] at hnodup
  refine hserves.returns.perm (fun x hx => ?_) hnodup ?_
  · obtain ⟨page, hpage, hx⟩ := List.mem_flatMap.mp hx
    obtain ⟨i, hi⟩ := List.mem_iff_getElem?.mp hpage
    obtain ⟨again, hfetch, hsame⟩ := hagain i page hi
    obtain ⟨y, hy, heq⟩ := hsame x hx
    have hlt : i < pages.length := (List.getElem?_eq_some_iff.mp hi).1
    refine ⟨served (call + i), served (call + pages.length + i), hserves.ordered (by omega),
      hserves.ordered (by omega), (hanswer i page hi).entriesOf x hx, y, ?_, heq⟩
    exact (hserves.answers _ _ _ hfetch).entriesOf y hy
  · obtain ⟨page, hpage⟩ : ∃ page, pages[pages.length - 1]? = some page :=
      ⟨_, List.getElem?_eq_getElem (by omega)⟩
    have htotal := (hanswer _ page hpage).total (hpages _ page hpage).2.1
    have hlen : reports.length = (pages.flatMap (Promotion.entriesOf kind.field)).length := by
      rw [← List.length_map (f := idOf), hmap, List.length_map]
    rw [show call + pageCount total - 1 = call + (pages.length - 1) by omega]
    omega

end Passes

/-! ## 6. The runs -/

/-- Pages that compare equal list equal entries. -/
theorem entries_of_samePage {field : PyStr} {now now' : List Value} {number number' : Nat}
    {page again : Value} (hpage : Answer field now number page)
    (hagain : Answer field now' number' again) (h : again.pyEq page = true) :
    ∀ x ∈ entriesOf field page, ∃ y ∈ entriesOf field again, y.pyEq x = true := by
  obtain ⟨es, order, rfl, -, -, -, hes⟩ := hagain.dict
  obtain ⟨fs, order', rfl, hkeys, -, -, hfs⟩ := hpage.dict
  obtain ⟨w, hw, heq⟩ := pyEq_find? hkeys h hes
  rw [hfs] at hw
  cases hw
  simp only [entriesOf, Value.get, hes, hfs, Option.getD_some]
  exact mem_of_pyEqList heq

/-- However the set of waiting runs changes while it is read, what is returned are the runs that
waited when the last page of the first pass was served. -/
theorem waiting_snapshot {T : Type} [Preorder T] (cal : Calendar) {fetch : Fetch}
    {served : Nat → T} {waiting : T → List Value}
    (hserves : Serves fetch "workflow_runs" served waiting) {call : Nat}
    {workflowId inventory : Value}
    (h : collectWaitingRuns cal fetch call workflowId = .ok inventory) :
    ∃ (workflow total : Int) (runs : List Value), inventory = runInventory workflow total runs ∧
      IsSnapshot runs (waiting (served (call + pageCount total - 1))) := by
  simp only [collectWaitingRuns, bind_eq_ok, orRaise_eq_ok, raiseUnless_eq_ok, Prod.exists] at h
  obtain ⟨workflow, -, total, pages, hfirst, last, runs, hread, _, hlength, _, hsecond, h⟩ := h
  cases h
  obtain ⟨-, -, hget⟩ := firstPass_spec hfirst
  refine ⟨workflow, total, runs, rfl, ?_⟩
  refine passes_snapshot (runRecord_keeps cal workflow) hserves hfirst hread ?_ hlength
  intro i page hi
  obtain ⟨again, hagain, hsame⟩ := secondPass_spec hsecond i page hi
  refine ⟨again, hagain, ?_⟩
  refine entries_of_samePage (hserves.answers _ _ _ (hget i page hi))
    (hserves.answers _ _ _ hagain) ?_
  simpa [samePage] using hsame

/-! ## 7. The jobs -/

/-- As many jobs are kept as the pages have room for. -/
theorem length_readPages_jobs {parent : Parent} {total : Int} {number : Nat} {seen last : List Int}
    {pages reports : List Value}
    (h : readPages (jobKind parent) total (number + 1) seen pages = .ok (last, reports)) :
    pages ≠ [] →
      (reports.length : Int) = min (100 * (pages.length : Int)) (total - (number : Int) * 100) := by
  induction pages generalizing number seen reports with
  | nil => exact fun hne => absurd rfl hne
  | cons first pages ih =>
    intro _
    simp only [readPages, bind_eq_ok, raiseUnless_eq_ok, orRaise_eq_ok, Prod.exists] at h
    obtain ⟨_, -, _, -, batch, -, _, hlen, seen', reports', hrest, _, more, hmore, h⟩ := h
    cases h
    have hmap := congrArg List.length (readBatch_spec (jobRecord_keeps parent) hrest).1
    rw [List.length_map, List.length_map] at hmap
    have hexpected : (batch.length : Int) = min 100 (total - number * 100) := by
      simpa [jobKind, pageSize] using hlen
    rw [List.length_append, hmap]
    cases pages with
    | nil =>
      cases hmore
      simp [hexpected]
    | cons second pages =>
      have hrest := ih hmore (by simp)
      simp only [List.length_cons] at hrest ⊢
      push_cast at hrest hexpected ⊢
      omega

/-- The entries of the job inventory, each a snapshot of its run at the last request of its own
first pass.  `call` is the number of the first request for the run at the head. -/
def JobSnapshots {T : Type} (served : Nat → T) (waiting : Int → T → List Value) :
    (call : Nat) → (runs reports : List Value) → Prop
  | _, [], [] => True
  | call, run :: runs, report :: reports => ∃ (runId total : Int) (jobs : List Value),
      idOf run = .int runId ∧ report = jobReport runId total jobs ∧
        IsSnapshot jobs (waiting runId (served (call + pageCount total - 1))) ∧
        JobSnapshots served waiting (call + pageCount total + pageCount total) runs reports
  | _, _, _ => False

theorem jobsOf_snapshot {T : Type} [Preorder T]
    {fetch : (call : Nat) → (runId : Int) → (number : Nat) → Py Value} {served : Nat → T}
    {waiting : Int → T → List Value}
    (hserves : ∀ runId, Serves (fun call number => fetch call runId number) "jobs" served (waiting runId))
    {call next : Nat} {seen last : List Int} {run report : Value}
    (h : jobsOf fetch call seen run = .ok (last, report, next)) :
    ∃ (runId total : Int) (jobs : List Value), idOf run = .int runId ∧
      report = jobReport runId total jobs ∧
      IsSnapshot jobs (waiting runId (served (call + pageCount total - 1))) ∧
      next = call + pageCount total + pageCount total := by
  simp only [jobsOf, bind_eq_ok, Prod.exists] at h
  obtain ⟨parent, hparent, total, pages, hfirst, last', jobs, hread, _, hsecond, h⟩ := h
  cases h
  have hid : idOf run = .int parent.runId := by
    simp only [parentOf, bind_eq_ok, orRaise_eq_ok] at hparent
    obtain ⟨_, -, runId, hid, _, -, _, -, hparent⟩ := hparent
    cases hparent
    exact positive?_eq_some hid
  obtain ⟨hlow, hcount, hget⟩ := firstPass_spec hfirst
  obtain ⟨-, -, -, hpages⟩ := readPages_spec (jobRecord_keeps parent) hread
  have hpos := one_le_pageCount total
  have hlength : (jobs.length : Int) = total := by
    have hne : pages ≠ [] := by
      rintro rfl
      rw [List.length_nil] at hcount
      omega
    rw [length_readPages_jobs hread hne, hcount, pageCount, pageSize]
    omega
  refine ⟨parent.runId, total, jobs, hid, rfl, ?_, by rw [hcount]⟩
  refine passes_snapshot (jobRecord_keeps parent) (hserves parent.runId) hfirst hread ?_ hlength
  intro i page hi
  obtain ⟨again, hagain, hsame⟩ := secondPass_spec hsecond i page hi
  refine ⟨again, hagain, ?_⟩
  simp only [sameJobs, bind_eq_ok, raiseUnless_eq_ok] at hsame
  obtain ⟨value, hvalue, -, hlist, heq⟩ := hsame
  obtain ⟨againJobs, hjobs⟩ := Option.isSome_iff_exists.mp hlist
  obtain rfl := list?_eq_some hjobs
  have hagainJobs : again.get "jobs" = .list againJobs := by
    rw [Value.attr_eq] at hvalue
    split at hvalue
    · exact Except.ok.inj hvalue
    · cases hvalue
  have hpage : page.get "jobs" = .list (entriesOf "jobs" page) := (hpages i page hi).1
  rw [hpage] at heq
  have hentries : entriesOf "jobs" again = againJobs := by simp only [entriesOf, hagainJobs]
  change ∀ x ∈ entriesOf "jobs" page, ∃ y ∈ entriesOf "jobs" again, _
  rw [hentries]
  exact mem_of_pyEqList heq

/-- Induction on the runs: each begins with the request after the last one for the run before. -/
theorem jobsOfRuns_snapshots {T : Type} [Preorder T]
    {fetch : (call : Nat) → (runId : Int) → (number : Nat) → Py Value} {served : Nat → T}
    {waiting : Int → T → List Value}
    (hserves : ∀ runId, Serves (fun call number => fetch call runId number) "jobs" served (waiting runId))
    {call : Nat} {seen : List Int} {runs reports : List Value}
    (h : jobsOfRuns fetch call seen runs = .ok reports) :
    JobSnapshots served waiting call runs reports := by
  induction runs generalizing call seen reports with
  | nil =>
    cases h
    trivial
  | cons run runs ih =>
    simp only [jobsOfRuns, bind_eq_ok, Prod.exists] at h
    obtain ⟨seen', report, next, hrun, reports', hrest, h⟩ := h
    cases h
    obtain ⟨runId, total, jobs, hid, hreport, hsnapshot, rfl⟩ := jobsOf_snapshot hserves hrun
    exact ⟨runId, total, jobs, hid, hreport, hsnapshot, ih hrest⟩

/-- A server whose listing does not change. -/
def steady (field : PyStr) (listed : List Value) : Fetch := fun _ number => .ok (.dict [
  ("total_count", .int listed.length),
  (field, .list ((listed.drop ((number - 1) * 100)).take 100))])

theorem serves_steady {field : PyStr} (hfield : field ≠ "total_count") (listed : List Value) :
    Serves (steady field listed) field id fun _ => listed := by
  refine ⟨monotone_id, fun call number page h => ?_, fun s u v _ _ x hx y _ _ => ?_⟩
  · cases h
    refine ⟨_, listed, rfl, ?_, .refl _, ?_, ?_⟩
    · simp [Ne.symm hfield]
    · simp [Value.find?, lookup, hfield]
    · simp [Value.find?, lookup]
  · exact List.mem_map_of_mem hx

/-- Two runs that wait, as the listing shows them. -/
def sampleRuns : List Value := [8, 9].map fun id : Int => .dict [
  ("id", .int id), ("workflow_id", .int 7), ("status", .str "waiting"),
  ("head_sha", .str ⟨List.replicate 40 97⟩), ("actor", .dict [("login", .str "octocat")]),
  ("event", .str "push"), ("head_branch", .str "main"),
  ("created_at", .str "2026-01-01T00:00:00Z"), ("updated_at", .str "2026-01-01T00:00:00Z"),
  ("pull_requests", .list []), ("run_attempt", .int 1)]

/-- ASCII digits, and every timestamp at one instant. -/
def sampleCalendar : Calendar := ⟨fun c => 48 ≤ c && c ≤ 57, fun _ => some ⟨0, true⟩⟩

example : (collectWaitingRuns sampleCalendar (steady "workflow_runs" sampleRuns) 0
    (.int 7)).isOk = true := by decide +kernel

end Supplementary.Promotion
