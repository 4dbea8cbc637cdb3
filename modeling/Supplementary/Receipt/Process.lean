/-
# What one process does to what is bound

`keeps_dispatchIfAbsent`, `keeps_pollWindow` and `keeps_accept` say what each part of a process does
to what is bound; `keeps_main_first` and `keeps_main_window` say it of the two kinds of process,
those that ask for the commit of the controller and those that are told it.
-/
import Supplementary.Receipt.Observed

namespace Supplementary.Receipt

open Supplementary Effects Sighting

section

variable {rt : Runtime} {Good : Key → Prop} {k : Key} {P : Trace ReceiptAns → Prop}

/-! ## 1. One poll -/

theorem bindRun_eq_ok {b : Option RunId} {initialOne : Bool} {run : Value} {id : RunId}
    (h : bindRun b initialOne run = .ok id) : identity run = .ok id ∧
      (b = none ∧ (initialOne = true → id.2 = 1) ∨ b = some id) := by
  rw [bindRun, bind_eq_ok] at h
  obtain ⟨id', hid, h⟩ := h
  cases b with
  | none =>
    simp only [bind_eq_ok, require_eq_ok, pure, Except.pure, Except.ok.injEq] at h
    obtain ⟨_, hone, rfl⟩ := h
    refine ⟨hid, Or.inl ⟨rfl, fun hinitial => ?_⟩⟩
    by_contra hne
    exact hone ⟨hinitial, hne⟩
  | some b =>
    simp only [bind_eq_ok, require_eq_ok, pure, Except.pure, Except.ok.injEq] at h
    obtain ⟨_, rfl, rfl⟩ := h
    exact ⟨hid, Or.inr rfl⟩

/-- A poll that does not raise agrees with what is bound; a run that is over is the one bound. -/
theorem judge_eq_ok {b b' : Option RunId} {initialOne : Bool} {matching : List Value}
    {ended : Option Value} (hone : b = none → initialOne = true)
    (h : judge b initialOne matching = .ok (ended, b')) :
    Follows Is initial b [matching] b' ∧
      ∀ run, ended = some run → matching = [run] ∧ ∃ id, b' = some id ∧ identity run = .ok id := by
  match matching, h with
  | [], h =>
    simp only [judge, bind_eq_ok, require_eq_ok, pure, Except.pure, Except.ok.injEq,
      Prod.mk.injEq] at h
    obtain ⟨_, rfl, rfl, rfl⟩ := h
    exact ⟨.idle (.nil none), nofun⟩
  | [run], h =>
    simp only [judge, bind_eq_ok, pure, Except.pure, Except.ok.injEq, Prod.mk.injEq] at h
    obtain ⟨id, hid, ended', -, rfl, rfl⟩ := h
    obtain ⟨his, hbound⟩ := bindRun_eq_ok hid
    refine ⟨?_, ?_⟩
    · rcases hbound with ⟨rfl, hfresh⟩ | rfl
      · exact .bind his (hfresh (hone rfl)) (.nil _)
      · exact .keep his (.nil _)
    · intro run' hrun
      split at hrun
      · cases hrun
        exact ⟨rfl, id, rfl, his⟩
      · cases hrun
  | _ :: _ :: _, h => cases h

theorem mem_of_matching {requestId controllerSha : PyStr} {runs : List Value} {run : Value}
    (h : matchingRuns requestId controllerSha runs = [run]) :
    matchingRun requestId controllerSha run = true := by
  have hmem : run ∈ matchingRuns requestId controllerSha runs := by
    rw [h]
    exact List.mem_singleton_self run
  exact (List.mem_filter.mp hmem).2

/-- A poll that agrees with what is bound. -/
theorem Tracks.poll {b b' : Option RunId} {h : Trace ReceiptAns} {runs : List Value}
    (ht : Tracks k b P h) (hP : P (h ++ [poll runs]))
    (hpoll : Follows Is initial b [matchingRuns k.requestId k.controllerSha runs] b') :
    Tracks k b' P (h ++ [poll runs]) where
  follows := by
    rw [polls_poll]
    exact ht.follows.append hpoll
  commits := by
    rw [commits_snoc rfl]
    exact ht.commits
  rest := hP

/-- The runs are listed. -/
theorem keeps_workflowRuns : Keeps (Allowed rt Good) P (call .workflowRuns) fun runs h =>
    ∃ pre, P pre ∧ h = pre ++ [poll runs] :=
  keeps_call (fun _ _ => trivial) fun _ h hh => ⟨h, hh, rfl⟩

theorem Unfetched.poll {h : Trace ReceiptAns} {runs : List Value} (hh : Unfetched h) :
    Unfetched (h ++ [poll runs]) := (downloads_snoc rfl).trans hh

/-! ## 2. Dispatching -/

/-- Nothing is shown yet but the commits of the controller. -/
structure Untouched (found : List PyStr) (h : Trace ReceiptAns) : Prop where
  polls : ∀ requestId controllerSha, polls requestId controllerSha h = []
  commits : commits h = found
  unfetched : Unfetched h
  dispatched : ¬ Dispatched h

theorem dispatched_snoc {h : Trace ReceiptAns} {e : Event ReceiptAns} :
    Dispatched (h ++ [e]) ↔ Dispatched h ∨ isDispatch e.1 = true := by
  simp [Dispatched, or_and_right, exists_or]

theorem isDispatch_of_quiet {op : ReceiptOp} (hop : quiet op = true) : isDispatch op = false := by
  cases op <;> first | rfl | cases hop

theorem Untouched.snoc {found found' : List PyStr} {h : Trace ReceiptAns} {e : Event ReceiptAns}
    (hh : Untouched found h) (hl : listed e = none) (hf : fetched e = none)
    (hd : isDispatch e.1 = false) (hc : Receipt.commits (h ++ [e]) = found') :
    Untouched found' (h ++ [e]) where
  polls requestId controllerSha := by
    rw [polls_snoc hl]
    exact hh.polls requestId controllerSha
  commits := hc
  unfetched := (downloads_snoc hf).trans hh.unfetched
  dispatched := by
    rw [dispatched_snoc, hd]
    rintro (h | ⟨⟨⟩⟩)
    exact hh.dispatched h

theorem steady_untouched (found : List PyStr) : Steady (Untouched found) := fun _ _ he hh =>
  hh.snoc (listed_of_quiet he) (fetched_of_quiet he) (isDispatch_of_quiet he)
    ((commits_snoc (told_of_quiet he)).trans hh.commits)

theorem Untouched.tracks {h : Trace ReceiptAns} {b : Option RunId}
    (hh : Untouched k.commits h) (hstart : k.start = b) : Tracks k b Unfetched h where
  follows := by
    rw [hh.polls, hstart]
    exact .nil b
  commits := hh.commits
  rest := hh.unfetched

theorem untouched_nil : Untouched [] [] := ⟨fun _ _ => rfl, rfl, rfl, fun ⟨_, he, _⟩ => nomatch he⟩

/-- The key of a validation that asked for the commit of the controller itself. -/
def firstKey (requestId controllerSha : PyStr) : Key :=
  { requestId, controllerSha, start := none, commits := [controllerSha] }

/-- The script dispatches only after a poll without a match; else the match is bound. -/
theorem keeps_dispatchIfAbsent (request : Request) (sha : PyStr) :
    Keeps (Allowed rt Good) (Untouched [sha]) (dispatchIfAbsent rt request sha) fun out h =>
      Tracks (firstKey request.id sha) out.2 Unfetched h ∧ (out.2 = none → out.1 = true) := by
  refine keeps_lift_bind fun _ _ => ?_
  refine keeps_workflowRuns.bind fun runs => ?_
  split
  · next hnone =>
    have hdispatch : Keeps (Allowed rt Good) (fun h => ∃ pre, Untouched [sha] pre ∧
        h = pre ++ [poll runs]) (call (.dispatch request.json request.id)) fun _ =>
          Tracks (firstKey request.id sha) none Unfetched := by
      refine keeps_call ?_ ?_
      · rintro _ ⟨pre, hpre, rfl⟩
        refine ⟨?_, sha, pre, runs, (commits_snoc rfl).trans hpre.commits, rfl, hnone⟩
        rw [dispatched_snoc]
        rintro (hd | ⟨⟨⟩⟩)
        exact hpre.dispatched hd
      · rintro _ _ ⟨pre, hpre, rfl⟩
        have ht : Tracks (firstKey request.id sha) none Unfetched (pre ++ [poll runs]) := by
          refine (Untouched.tracks hpre rfl).poll hpre.unfetched.poll ?_
          change Follows Is initial none [matchingRuns request.id sha runs] none
          rw [hnone]
          exact .idle (.nil none)
        exact ht.snoc rfl rfl ((downloads_snoc rfl).trans ht.rest)
    refine hdispatch.bind fun _ => ?_
    exact keeps_pure fun h hh => ⟨hh, fun _ => rfl⟩
  · next run hone =>
    refine keeps_lift_bind fun bound hbound => ?_
    refine keeps_lift_bind fun _ hinitial => ?_
    have hfresh : bound.2 = 1 := require_eq_ok.mp hinitial
    refine keeps_pure ?_
    rintro _ ⟨pre, hpre, rfl⟩
    refine ⟨(Untouched.tracks hpre rfl).poll hpre.unfetched.poll ?_, nofun⟩
    change Follows Is initial none [matchingRuns request.id sha runs] (some bound)
    rw [hone]
    exact .bind hbound hfresh (.nil _)
  · exact keeps_raise

/-! ## 3. Polling -/

/-- What is so when a window has polled: its bound run, and whether the run is over. -/
def Polled (k : Key) (out : Option (Option Value × Option RunId)) (h : Trace ReceiptAns) : Prop :=
  ∀ ended b, out = some (ended, b) → Tracks k b Unfetched h ∧
    ∀ run, ended = some run → matchingRun k.requestId k.controllerSha run = true ∧
      ∃ id, b = some id ∧ identity run = .ok id

theorem keeps_pollRounds {initialOne : Bool} {deadline : ℚ} (rounds : Nat) {b : Option RunId}
    (hone : b = none → initialOne = true) :
    Keeps (Allowed rt Good) (Tracks k b Unfetched)
      (pollRounds k.requestId k.controllerSha initialOne deadline rounds b) (Polled k) := by
  induction rounds generalizing b with
  | zero => exact keeps_pure fun _ _ => nofun
  | succ rounds ih =>
    refine keeps_workflowRuns.bind fun runs => ?_
    refine keeps_lift_bind fun ⟨ended, b'⟩ hjudge => ?_
    obtain ⟨hfollows, hover⟩ := judge_eq_ok hone hjudge
    refine Keeps.pre (P := Tracks k b' Unfetched) ?_ ?_
    · cases ended with
      | some run =>
        obtain ⟨hmatching, hid⟩ := hover run rfl
        refine keeps_pure fun h hh => ?_
        rintro _ _ ⟨⟩
        refine ⟨hh, ?_⟩
        rintro _ ⟨⟩
        exact ⟨mem_of_matching hmatching, hid⟩
      | none =>
        refine (keeps_quiet (steady_tracks k b' (steady_downloads [])) rfl).bind fun now => ?_
        split
        · refine keeps_pure fun h hh => ?_
          rintro _ _ ⟨⟩
          exact ⟨hh, nofun⟩
        · have hsleep : Keeps (Allowed rt Good) (Tracks k b' Unfetched)
              (call (.sleep (min pollSeconds (deadline - now)))) fun _ => Tracks k b' Unfetched :=
            keeps_call (fun _ _ => trivial) fun _ h hh =>
              hh.snoc rfl rfl ((downloads_snoc rfl).trans hh.rest)
          refine hsleep.bind fun _ => ih ?_
          rintro rfl
          refine hone ?_
          cases b with
          | none => rfl
          | some id => cases hfollows.bound.1
    · rintro _ ⟨pre, hpre, rfl⟩
      exact hpre.poll hpre.rest.poll hfollows

theorem keeps_pollWindow (rounds : Nat) {timeout : Int} {b : Option RunId} {initialOne : Bool}
    (hone : b = none → initialOne = true) :
    Keeps (Allowed rt Good) (Tracks k b Unfetched)
      (pollWindow rounds k.requestId k.controllerSha timeout b initialOne) (Polled k) := by
  refine keeps_lift_bind fun _ _ => ?_
  refine keeps_lift_bind fun b' hb' => ?_
  obtain rfl := checkBound_eq_ok hb'
  refine keeps_lift_bind fun _ _ => ?_
  refine (keeps_quiet (steady_tracks k b' (steady_downloads [])) rfl).bind fun start => ?_
  exact keeps_pollRounds rounds hone

/-! ## 4. Accepting a receipt -/

variable {id : RunId} {request : Request} {run : Value} {directory : PyStr}

theorem keeps_requireBoundSuccess (hP : ∀ h runs, P h → P (h ++ [poll runs])) :
    Keeps (Allowed rt Good) (Tracks k (some id) P)
      (requireBoundSuccess k.requestId k.controllerSha id) fun _ h =>
        Tracks k (some id) P h ∧ Rechecked k id h := by
  refine keeps_workflowRuns.bind fun runs => ?_
  split
  · next run hone =>
    refine keeps_lift_bind fun id' hid => ?_
    refine keeps_lift ?_
    rintro _ _ hsame ⟨pre, hpre, rfl⟩
    obtain ⟨rfl, hsuccess⟩ := require_eq_ok.mp hsame
    refine ⟨hpre.poll (hP _ _ hpre.rest) ?_, pre, runs, run, rfl, hone, hid, hsuccess⟩
    rw [hone]
    exact .keep hid (.nil _)
  · exact keeps_raise

/-- A receipt that was read and is valid stays so. -/
theorem Validated.snoc {place : Place} {h : Trace ReceiptAns} {e : Event ReceiptAns}
    (hv : Validated rt place run h) : Validated rt place run (h ++ [e]) := by
  obtain ⟨payload, receipt, request, hmem, hrest⟩ := hv
  exact ⟨payload, receipt, request, List.mem_append_left _ hmem, hrest⟩

/-- The receipt was downloaded from the run alone, and is valid for it. -/
def Fetched (rt : Runtime) (place : Place) (run : Value) (id : RunId) (h : Trace ReceiptAns) :
    Prop := downloads h = [id.1] ∧ Validated rt place run h

theorem Fetched.snoc {place : Place} {h : Trace ReceiptAns} {e : Event ReceiptAns}
    (hh : Fetched rt place run id h) (he : fetched e = none) : Fetched rt place run id (h ++ [e]) :=
  ⟨(downloads_snoc he).trans hh.1, hh.2.snoc⟩

variable (hgood : Good k) (hid : identity run = .ok id) (hk : k.requestId = request.id)
  (hrun : matchingRun k.requestId k.controllerSha run = true)
include hgood hid hk hrun

theorem keeps_fetchReceipt : Keeps (Allowed rt Good) (Tracks k (some id) Unfetched)
    (fetchReceipt rt request run id.1 { directory, requestId := request.id }) fun _ =>
      Tracks k (some id) fun _ => True := by
  let place : Place := { directory, requestId := request.id }
  have hsteady : Steady (Tracks k (some id) fun h => downloads h = [id.1]) :=
    steady_tracks k (some id) (steady_downloads [id.1])
  have hdownload : Keeps (Allowed rt Good) (Tracks k (some id) Unfetched)
      (call (.download id.1 (artifactPrefix ++ request.id) place)) fun _ =>
        Tracks k (some id) fun h => downloads h = [id.1] := by
    refine keeps_call (fun _ _ => trivial) fun _ h hh => hh.snoc rfl rfl ?_
    rw [downloads_download, show downloads h = [] from hh.rest]
    rfl
  refine hdownload.bind fun _ => ?_
  refine (keeps_quiet hsteady rfl).bind fun entries => ?_
  refine keeps_lift_bind fun _ _ => ?_
  refine (keeps_quiet hsteady rfl).bind fun irregular => ?_
  refine keeps_lift_bind fun _ _ => ?_
  have hread : Keeps (Allowed rt Good) (Tracks k (some id) fun h => downloads h = [id.1])
      (call (.receiptBytes place)) fun payload h =>
        (Tracks k (some id) fun h => downloads h = [id.1]) h ∧
          (⟨.receiptBytes place, .ok payload⟩ : Event ReceiptAns) ∈ h :=
    keeps_call (fun _ _ => trivial) fun payload h hh =>
      ⟨hsteady h _ rfl hh, List.mem_append_right _ (List.mem_singleton_self _)⟩
  refine hread.bind fun payload => ?_
  refine keeps_lift_bind fun receipt hreceipt => ?_
  refine keeps_lift_bind fun _ hvalid => ?_
  refine keeps_lift_bind fun sha hsha => ?_
  obtain rfl : k.controllerSha = sha := by
    have htext := string_eq_ok hsha
    rw [headSha_of_matching hrun] at htext
    exact Value.str.inj htext
  refine Keeps.pre (P := Tracks k (some id) (Fetched rt place run id)) ?_ fun h hh =>
    { hh.1 with rest := ⟨hh.1.rest, payload, receipt, request, hh.2, hreceipt, rfl, hvalid⟩ }
  have hfetched : Steady (Tracks k (some id) (Fetched rt place run id)) :=
    steady_tracks k (some id) fun h e he hh => hh.snoc (fetched_of_quiet he)
  refine (keeps_quiet hfetched rfl).bind fun _ => ?_
  refine keeps_lift_bind fun id' hid' => ?_
  obtain rfl : id = id' := Except.ok.inj (hid.symm.trans hid')
  have hcheck : Keeps (Allowed rt Good) (Tracks k (some id) (Fetched rt place run id))
      (requireBoundSuccess request.id k.controllerSha id) fun _ h =>
        Tracks k (some id) (Fetched rt place run id) h ∧ Rechecked k id h := by
    rw [← hk]
    exact keeps_requireBoundSuccess fun h runs hh => hh.snoc rfl
  refine hcheck.bind fun _ => ?_
  refine keeps_call ?_ ?_
  · rintro h ⟨ht, hcheck⟩
    exact ⟨k, id, hgood, hk, { ht with rest := ht.rest.1 }, ⟨run, hid, ht.rest.2⟩, hcheck⟩
  · rintro _ h ⟨ht, -⟩
    exact ht.snoc rfl rfl trivial

theorem keeps_downloadAndVerifyReceipt : Keeps (Allowed rt Good) (Tracks k (some id) Unfetched)
    (downloadAndVerifyReceipt rt request run directory) fun _ =>
      Tracks k (some id) fun _ => True := by
  have hsteady : Steady (Tracks k (some id) Unfetched) :=
    steady_tracks k (some id) (steady_downloads [])
  refine keeps_lift_bind fun runId hrunId => ?_
  obtain rfl : runId = id.1 := by
    simp only [identity, bind_eq_ok, pure, Except.pure, Except.ok.injEq] at hid
    obtain ⟨r, hr, attempt, -, rfl⟩ := hid
    exact Except.ok.inj (hrunId.symm.trans hr)
  refine (keeps_quiet hsteady rfl).bind fun artifacts => ?_
  refine keeps_lift_bind fun _ _ => ?_
  refine (keeps_quiet hsteady rfl).bind fun present => ?_
  refine keeps_lift_bind fun _ _ => ?_
  refine (keeps_quiet hsteady rfl).bind fun _ => ?_
  refine keeps_catching (keeps_fetchReceipt hgood hid hk hrun) fun e => ?_
  unfold discardTemporary
  split
  · exact keeps_raise
  · refine (keeps_quiet steady_true rfl).bind fun present => ?_
    split
    · refine (keeps_quiet steady_true rfl).bind fun _ => ?_
      exact keeps_raise
    · exact keeps_raise

/-- A run that is over is checked again before its jobs are read. -/
theorem keeps_accept {state : List (PyStr × Value)} :
    Keeps (Allowed rt Good) (Tracks k (some id) Unfetched)
      (accept rt request k.controllerSha run directory state) fun out h =>
        out = some (.complete ("sha256:" ++ k.requestId)) ∧
          Tracks k (some id) (fun _ => True) h := by
  have hunfetched : Steady (Tracks k (some id) Unfetched) :=
    steady_tracks k (some id) (steady_downloads [])
  have hsteady : Steady (Tracks k (some id) fun _ => True) := steady_tracks k (some id) steady_true
  refine keeps_lift_bind fun bound hbound => ?_
  obtain rfl : id = bound := Except.ok.inj (hid.symm.trans hbound)
  have hcheck : Keeps (Allowed rt Good) (Tracks k (some id) Unfetched)
      (requireBoundSuccess request.id k.controllerSha id) fun _ => Tracks k (some id) Unfetched := by
    rw [← hk]
    exact (keeps_requireBoundSuccess fun h runs hh => hh.poll).post fun _ _ hh => hh.1
  refine hcheck.bind fun _ => ?_
  refine (keeps_quiet hunfetched rfl).bind fun jobs => ?_
  refine keeps_lift_bind fun _ _ => ?_
  refine (keeps_downloadAndVerifyReceipt hgood hid hk hrun).bind fun _ => ?_
  refine (keeps_quiet hsteady rfl).bind fun digest => ?_
  refine (keeps_quiet hsteady rfl).bind fun now => ?_
  refine keeps_lift_bind fun attempt _ => ?_
  refine keeps_lift_bind fun number _ => ?_
  refine keeps_lift_bind fun text _ => ?_
  refine (keeps_quiet hsteady rfl).bind fun _ => ?_
  rw [hk]
  exact keeps_pure fun h hh => ⟨rfl, hh⟩

omit hgood hid hk hrun

/-! ## 5. One process -/

/-- What a process leaves: what it printed is bound is what its polls have bound. -/
def Leaves (k : Key) (out : Option Output) (h : Trace ReceiptAns) : Prop :=
  ∀ o, out = some o → o.requestId = "sha256:" ++ k.requestId ∧ ∃ b,
    Tracks k b (fun _ => True) h ∧
      ∀ p, o = .pending p → p.bound = b ∧ p.controllerSha = k.controllerSha ∧ Unfetched h

theorem keeps_printPending {p : Pending} (hsha : p.controllerSha = k.controllerSha)
    (hp : p.requestId = "sha256:" ++ k.requestId) :
    Keeps (Allowed rt Good) (Tracks k p.bound Unfetched) (printPending rt p) (Leaves k) := by
  refine keeps_lift_bind fun text _ => ?_
  refine (keeps_quiet (steady_tracks k p.bound (steady_downloads [])) rfl).bind fun _ => ?_
  refine keeps_pure fun h hh => ?_
  rintro _ ⟨⟩
  refine ⟨hp, p.bound, { hh with rest := trivial }, ?_⟩
  rintro _ ⟨⟩
  exact ⟨rfl, hsha, hh.rest⟩

/-- Accepting ends a process that has polled. -/
theorem keeps_accept_polled {b : Option RunId} {state : List (PyStr × Value)} (hgood : Good k)
    (hk : k.requestId = request.id) :
    Keeps (Allowed rt Good) (fun h => Polled k (some (some run, b)) h)
      (accept rt request k.controllerSha run directory state) (Leaves k) := by
  have hfacts : ∀ h, Polled k (some (some run, b)) h →
      matchingRun k.requestId k.controllerSha run = true ∧ ∃ id, b = some id ∧ identity run = .ok id :=
    fun h hh => (hh _ _ rfl).2 run rfl
  refine keeps_of_prop hfacts ?_
  rintro ⟨hrun, id, rfl, hid⟩
  refine (keeps_accept hgood hid hk hrun).weaken (fun h hh => (hh _ _ rfl).1) ?_
  rintro _ h ⟨rfl, hh⟩
  rintro _ ⟨⟩
  exact ⟨rfl, some id, hh, nofun⟩

theorem keeps_dispatchPhase (request : Request) (sha : PyStr) :
    Keeps (Allowed rt Good) (Untouched [sha]) (dispatchPhase rt request sha)
      (Leaves (firstKey request.id sha)) := by
  refine (keeps_dispatchIfAbsent request sha).bind fun ⟨dispatched, b⟩ => ?_
  refine (keeps_printPending ?_ ?_).pre fun h hh => hh.1
  · rfl
  · rfl

theorem keeps_singlePhase (hgood : ∀ requestId sha, Good (firstKey requestId sha)) (rounds : Nat)
    (request : Request) (sha : PyStr) (timeout : Int) :
    Keeps (Allowed rt Good) (Untouched [sha]) (singlePhase rt rounds request sha directory timeout)
      (Leaves (firstKey request.id sha)) := by
  refine (keeps_dispatchIfAbsent request sha).bind fun ⟨dispatched, b⟩ => ?_
  refine keeps_of_prop (p := b = none → dispatched = true) (fun h hh => hh.2) fun hone => ?_
  have hpoll : Keeps (Allowed rt Good) (Tracks (firstKey request.id sha) b Unfetched)
      (pollWindow rounds request.id sha timeout b dispatched) (Polled (firstKey request.id sha)) :=
    keeps_pollWindow rounds hone
  refine (hpoll.pre fun h hh => hh.1).bind fun polled => ?_
  match polled with
  | none => exact keeps_pure fun _ _ => nofun
  | some (none, b') => exact keeps_raise
  | some (some run, b') => exact keeps_accept_polled (hgood _ _) rfl

/-- A window continues what it is told, once the request that it is told is its own. -/
theorem keeps_windowPhase (hgood : Good k) (hk : k.requestId = request.id) (rounds : Nat)
    (timeout : Int) (requestId : PyStr) (b : Option RunId) (finalWindow : Bool)
    (hP : requestId = "sha256:" ++ request.id → ∀ h, P h → Tracks k b Unfetched h) :
    Keeps (Allowed rt Good) P
      (windowPhase rt rounds request k.controllerSha directory timeout requestId b finalWindow)
      fun out h => requestId = "sha256:" ++ request.id ∧ Leaves k out h := by
  refine keeps_lift_bind fun _ hrequest => ?_
  have htold : requestId = "sha256:" ++ request.id := require_eq_ok.mp hrequest
  refine Keeps.weaken (P := Tracks k b Unfetched) (Q := Leaves k) ?_ (hP htold) fun out h hh =>
    ⟨htold, hh⟩
  refine keeps_lift_bind fun b' hb' => ?_
  obtain rfl := checkBound_eq_ok hb'
  have hone : b' = none → b'.isNone = true := fun hnone => by rw [hnone]; rfl
  have hpoll : Keeps (Allowed rt Good) (Tracks k b' Unfetched)
      (pollWindow rounds request.id k.controllerSha timeout b' b'.isNone) (Polled k) := by
    rw [← hk]
    exact keeps_pollWindow rounds hone
  refine hpoll.bind fun polled => ?_
  match polled with
  | none => exact keeps_pure fun _ _ => nofun
  | some (none, b'') =>
    refine keeps_lift_bind fun _ _ => ?_
    refine (keeps_printPending ?_ ?_).pre fun h hh => (hh _ _ rfl).1
    · rfl
    · rw [hk]
  | some (some run, b'') => exact keeps_accept_polled hgood hk

theorem checkArguments_window {args : Args} {task : Task} (hphase : args.phase = .window)
    (h : checkArguments args = .ok task) : ∃ directory timeout sha requestId b,
      task = .window directory timeout sha requestId b args.finalWindow ∧
        args.controllerSha = some sha ∧ args.requestId = some requestId ∧
          boundRun args.boundRunId args.boundRunAttempt = some b := by
  simp only [checkArguments, hphase, windowTask] at h
  split at h
  · next directory sha requestId timeout b _ hsha hrequestId _ hb =>
    simp only [bind_eq_ok, pure, Except.pure, Except.ok.injEq] at h
    obtain ⟨_, -, rfl⟩ := h
    exact ⟨directory, timeout, sha, requestId, b, rfl, hsha, hrequestId, hb⟩
  · cases h

theorem checkArguments_first {args : Args} {task : Task} (hphase : args.phase ≠ .window)
    (h : checkArguments args = .ok task) :
    task = .dispatch ∨ ∃ directory timeout, task = .single directory timeout := by
  unfold checkArguments at h
  split at h
  · simp only [bind_eq_ok, pure, Except.pure, Except.ok.injEq] at h
    obtain ⟨_, -, rfl⟩ := h
    exact Or.inl rfl
  · next hwindow => exact absurd hwindow hphase
  · split at h
    · cases h
    · simp only [bind_eq_ok, pure, Except.pure, Except.ok.injEq] at h
      obtain ⟨_, -, _, -, rfl⟩ := h
      exact Or.inr ⟨_, _, rfl⟩

/-- The first process asks for the commit of the controller. -/
theorem keeps_askCommit : Keeps (Allowed rt Good) (Untouched []) (call .controllerSha) fun sha =>
    Untouched [sha] := by
  refine keeps_call (fun _ _ => trivial) fun sha h hh => hh.snoc rfl rfl rfl ?_
  rw [commits, List.filterMap_append, ← commits, hh.commits]
  rfl

theorem keeps_main_first (hgood : ∀ requestId sha, Good (firstKey requestId sha)) (rounds : Nat)
    {args : Args} (hphase : args.phase ≠ .window) :
    Keeps (Allowed rt Good) (Untouched []) (main rt rounds args) fun out h =>
      ∃ requestId sha, Leaves (firstKey requestId sha) out h := by
  refine keeps_lift_bind fun task htask => ?_
  rcases checkArguments_first hphase htask with rfl | ⟨directory, timeout, rfl⟩
  · refine (keeps_prepare (steady_untouched []) (fun sha => steady_untouched [sha])
      keeps_askCommit).bind fun ⟨sha, request⟩ => ?_
    exact (keeps_dispatchPhase request sha).post fun _ _ hh => ⟨_, _, hh⟩
  · refine (keeps_prepare (steady_untouched []) (fun sha => steady_untouched [sha])
      keeps_askCommit).bind fun ⟨sha, request⟩ => ?_
    exact (keeps_singlePhase hgood rounds request sha timeout).post fun _ _ hh => ⟨_, _, hh⟩

/-- A window is told the commit, the request and the run, and holds its polls against them. -/
theorem keeps_main_window (rounds : Nat) {args : Args} (hphase : args.phase = .window)
    (hP : Steady P) {start : Option RunId} {found : List PyStr}
    (hgood : ∀ requestId sha, args.controllerSha = some sha →
      Good { requestId, controllerSha := sha, start, commits := found })
    (htold : ∀ (requestId sha : PyStr) b, args.controllerSha = some sha →
      args.requestId = some ("sha256:" ++ requestId) →
        boundRun args.boundRunId args.boundRunAttempt = some b → ∀ h, P h →
          Tracks { requestId, controllerSha := sha, start, commits := found } b Unfetched h) :
    Keeps (Allowed rt Good) P (main rt rounds args) fun out h => ∃ requestId sha : PyStr,
      args.requestId = some ("sha256:" ++ requestId) ∧ args.controllerSha = some sha ∧
        Leaves { requestId, controllerSha := sha, start, commits := found } out h := by
  refine keeps_lift_bind fun task htask => ?_
  obtain ⟨directory, timeout, sha, requestId, b, rfl, hsha, hrequestId, hb⟩ :=
    checkArguments_window hphase htask
  have hcommit : Keeps (Allowed rt Good) P (controllerCommit
      (.window directory timeout sha requestId b args.finalWindow)) fun sha' h => P h ∧ sha' = sha :=
    keeps_pure fun h hh => ⟨hh, rfl⟩
  have hsteady : ∀ sha', Steady fun h => P h ∧ sha' = sha := fun _ h e he hh =>
    ⟨hP h e he hh.1, hh.2⟩
  refine (keeps_prepare hP hsteady hcommit).bind fun ⟨sha', request⟩ => ?_
  refine keeps_of_prop (fun h hh => hh.2) ?_
  rintro rfl
  refine (keeps_windowPhase (k := ⟨request.id, sha', start, found⟩) (hgood _ _ hsha) rfl rounds
    timeout requestId b args.finalWindow ?_).post ?_
  · rintro rfl h hh
    exact htold _ _ _ hsha hrequestId hb h hh.1
  · rintro out h ⟨rfl, hh⟩
    exact ⟨_, _, hrequestId, hsha, hh⟩

end

end Supplementary.Receipt
