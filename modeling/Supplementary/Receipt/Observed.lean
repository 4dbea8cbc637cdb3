/-
# What a validation has seen

The history of a validation shows its polls, and each step of the script either leaves what is
shown as it was or extends it by one poll that agrees with what is bound.  `Tracks` is that
invariant; `Allowed` is what must be so whenever the script dispatches or installs.
-/
import Supplementary.Receipt.Phases
import Supplementary.Lib.History
import Supplementary.Lib.Sighting

namespace Supplementary.Receipt

open Supplementary Effects Sighting

/-! ## 1. Reading a history -/

/-- The event in which `runs` are listed. -/
def poll (runs : List Value) : Event ReceiptAns := ⟨.workflowRuns, .ok runs⟩

/-- What an event lists. -/
def listed : Event ReceiptAns → Option (List Value)
  | ⟨.workflowRuns, .ok runs⟩ => some runs
  | _ => none

/-- The matching runs of each poll. -/
def polls (requestId controllerSha : PyStr) (h : Trace ReceiptAns) : List (List Value) :=
  (h.filterMap listed).map (matchingRuns requestId controllerSha)

/-- The run that an event downloads from. -/
def fetched : Event ReceiptAns → Option Int
  | ⟨.download runId _ _, _⟩ => some runId
  | _ => none

/-- The runs that were downloaded from. -/
def downloads (h : Trace ReceiptAns) : List Int := h.filterMap fetched

/-- The commit of the controller that an event tells. -/
def told : Event ReceiptAns → Option PyStr
  | ⟨.controllerSha, .ok sha⟩ => some sha
  | _ => none

/-- The commits that the controller was found at. -/
def commits (h : Trace ReceiptAns) : List PyStr := h.filterMap told

def isDispatch : ReceiptOp → Bool
  | .dispatch _ _ => true
  | _ => false

/-- The validation has dispatched. -/
def Dispatched (h : Trace ReceiptAns) : Prop := ∃ e ∈ h, isDispatch e.1 = true

/-- The operations that show nothing and change nothing. -/
def quiet : ReceiptOp → Bool
  | .workflowRuns | .controllerSha | .dispatch _ _ | .download _ _ _ | .rename _ | .sleep _ => false
  | _ => true

section

variable {requestId controllerSha : PyStr} {h : Trace ReceiptAns} {runs : List Value}
  {e : Event ReceiptAns}

@[simp] theorem polls_poll : polls requestId controllerSha (h ++ [poll runs]) =
    polls requestId controllerSha h ++ [matchingRuns requestId controllerSha runs] := by
  simp [polls, poll, listed]

theorem polls_snoc (he : listed e = none) :
    polls requestId controllerSha (h ++ [e]) = polls requestId controllerSha h := by
  simp [polls, he]

theorem downloads_snoc (he : fetched e = none) : downloads (h ++ [e]) = downloads h := by
  simp [downloads, he]

theorem downloads_download {op : Int} {artifact : PyStr} {place : Place} {answer} :
    downloads (h ++ [⟨.download op artifact place, answer⟩]) = downloads h ++ [op] := by
  simp [downloads, fetched]

theorem commits_snoc (he : told e = none) : commits (h ++ [e]) = commits h := by
  simp [commits, he]

theorem told_of_ne (he : e.1 ≠ .controllerSha) : told e = none := by
  obtain ⟨op, answer⟩ := e
  cases op <;> first | rfl | exact absurd rfl he

theorem listed_of_ne (he : e.1 ≠ .workflowRuns) : listed e = none := by
  obtain ⟨op, answer⟩ := e
  cases op <;> first | rfl | exact absurd rfl he

theorem fetched_of_quiet (he : quiet e.1 = true) : fetched e = none := by
  obtain ⟨op, answer⟩ := e
  cases op <;> first | rfl | cases he

theorem listed_of_quiet (he : quiet e.1 = true) : listed e = none := by
  refine listed_of_ne ?_
  intro heq
  rw [heq] at he
  cases he

theorem told_of_quiet (he : quiet e.1 = true) : told e = none := by
  refine told_of_ne ?_
  intro heq
  rw [heq] at he
  cases he

end

/-! ## 2. What is bound, and what is allowed -/

/-- `identity(run)` is `id`. -/
def Is (run : Value) (id : RunId) : Prop := identity run = .ok id

/-- Attempt one. -/
def initial (id : RunId) : Prop := id.2 = 1

/-- What the polls of a history are held against: a request, a commit of the controller, what was
bound before the history, and the commits that the controller was found at in it. -/
structure Key where
  requestId : PyStr
  controllerSha : PyStr
  start : Option RunId
  commits : List PyStr

/-- The polls so far have bound `b`, and `P` holds. -/
structure Tracks (k : Key) (b : Option RunId) (P : Trace ReceiptAns → Prop)
    (h : Trace ReceiptAns) : Prop where
  follows : Follows Is initial k.start (polls k.requestId k.controllerSha h) b
  commits : commits h = k.commits
  rest : P h

/-- Nothing was downloaded. -/
def Unfetched (h : Trace ReceiptAns) : Prop := downloads h = []

/-- The receipt at `place` was read and is a valid receipt for `run`. -/
def Validated (rt : Runtime) (place : Place) (run : Value) (h : Trace ReceiptAns) : Prop :=
  ∃ payload receipt request, (⟨.receiptBytes place, .ok payload⟩ : Event ReceiptAns) ∈ h ∧
    loadReceipt rt payload = .ok receipt ∧ request.id = place.requestId ∧
      validateReceipt rt receipt request run = .ok ()

/-- The last thing that happened is a poll that shows the run `id` alone, completed with success. -/
def Rechecked (k : Key) (id : RunId) (h : Trace ReceiptAns) : Prop :=
  ∃ pre runs run, h = pre ++ [poll runs] ∧ matchingRuns k.requestId k.controllerSha runs = [run] ∧
    identity run = .ok id ∧ succeeded run = true

/-- What is so when a receipt for the run `id` is installed: the run is bound, it was downloaded from
and no other, the receipt is for it, and it was just checked again. -/
structure Installs (rt : Runtime) (place : Place) (k : Key) (id : RunId) (h : Trace ReceiptAns) :
    Prop where
  requestId : k.requestId = place.requestId
  tracks : Tracks k (some id) (fun h => downloads h = [id.1]) h
  receipt : ∃ run, identity run = .ok id ∧ Validated rt place run h
  recheck : Rechecked k id h

/-- What must be so when the run is dispatched: it is the first dispatch, and the last thing that
happened is a poll that shows no matching run. -/
def MayDispatch (requestId : PyStr) (h : Trace ReceiptAns) : Prop :=
  ¬ Dispatched h ∧ ∃ controllerSha pre runs, commits h = [controllerSha] ∧
    h = pre ++ [poll runs] ∧ matchingRuns requestId controllerSha runs = []

/-- What must be so when an operation is issued. -/
def Allowed (rt : Runtime) (Good : Key → Prop) (h : Trace ReceiptAns) : ReceiptOp → Prop
  | .dispatch _ requestId => MayDispatch requestId h
  | .rename place => ∃ k id, Good k ∧ Installs rt place k id h
  | _ => True

/-! ## 3. Quiet steps -/

section

variable {rt : Runtime} {Good : Key → Prop} {P : Trace ReceiptAns → Prop}

/-- Quiet events do not matter to `P`. -/
def Steady (P : Trace ReceiptAns → Prop) : Prop := ∀ h e, quiet e.1 = true → P h → P (h ++ [e])

theorem allowed_of_quiet {op : ReceiptOp} (hop : quiet op = true) (h : Trace ReceiptAns) :
    Allowed rt Good h op := by
  cases op <;> trivial

theorem keeps_quiet (hP : Steady P) {op : ReceiptOp} (hop : quiet op = true) :
    Keeps (Allowed rt Good) P (call op) fun _ => P :=
  keeps_call (fun h _ => allowed_of_quiet hop h) fun _ h hh => hP h _ hop hh

theorem steady_true : Steady fun _ => True := fun _ _ _ _ => trivial

theorem Tracks.snoc {k : Key} {b : Option RunId} {h : Trace ReceiptAns} {e : Event ReceiptAns}
    (ht : Tracks k b P h) (hl : listed e = none) (hc : told e = none) {P' : Trace ReceiptAns → Prop}
    (hP : P' (h ++ [e])) : Tracks k b P' (h ++ [e]) where
  follows := by
    rw [polls_snoc hl]
    exact ht.follows
  commits := by
    rw [commits_snoc hc]
    exact ht.commits
  rest := hP

theorem steady_tracks (k : Key) (b : Option RunId) (hP : Steady P) : Steady (Tracks k b P) :=
  fun h e he ht => ht.snoc (listed_of_quiet he) (told_of_quiet he) (hP h e he ht.rest)

theorem steady_downloads (ids : List Int) : Steady fun h => downloads h = ids := by
  intro h e he hh
  rw [downloads_snoc (fetched_of_quiet he)]
  exact hh

theorem keeps_validateInstallation (hP : Steady P) (slug : PyStr) (installationId : Int) :
    Keeps (Allowed rt Good) P (validateInstallation slug installationId) fun _ => P := by
  refine keeps_lift_bind fun _ _ => ?_
  refine (keeps_quiet hP rfl).bind fun installation => ?_
  refine keeps_lift_bind fun _ _ => ?_
  refine keeps_lift_bind fun _ _ => ?_
  refine (keeps_quiet hP rfl).bind fun repositories => ?_
  exact keeps_lift fun _ _ _ hh => hh

/-- What `main` does once it knows the commit of the controller shows nothing. -/
theorem keeps_prepare {args : Args} {task : Task} {P' : PyStr → Trace ReceiptAns → Prop}
    (hP : Steady P) (hP' : ∀ sha, Steady (P' sha))
    (hcommit : Keeps (Allowed rt Good) P (controllerCommit task) P') :
    Keeps (Allowed rt Good) P (prepare rt args task) fun out => P' out.1 := by
  refine (keeps_quiet hP rfl).bind fun manifest => ?_
  refine (keeps_quiet hP rfl).bind fun _ => ?_
  refine (keeps_validateInstallation hP args.appSlug args.installationId).bind fun _ => ?_
  refine hcommit.bind fun sha => ?_
  refine (keeps_quiet (hP' sha) rfl).bind fun workflow => ?_
  refine keeps_lift_bind fun _ _ => ?_
  refine keeps_lift_bind fun request _ => ?_
  exact keeps_pure fun h hh => hh

end

end Supplementary.Receipt
