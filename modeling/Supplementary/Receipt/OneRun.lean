/-
# One run for one request

A validation starts with nothing bound.  `keeps_windows` carries what is bound from one process to
the next through what is printed, and `one_run_per_request` reads off what a receipt is installed
for.
-/
import Supplementary.Receipt.Process
import Supplementary.Receipt.Clock

namespace Supplementary.Receipt

open Supplementary Effects Sighting

section

variable {rt : Runtime} {k : Key} {id : RunId}

/-! ## 1. From process to process -/

theorem append_inj_right {s t t' : PyStr} (h : s ++ t = s ++ t') : t = t' := by
  have hpoints : s.codePoints ++ t.codePoints = s.codePoints ++ t'.codePoints :=
    congrArg PyStr.codePoints h
  obtain ⟨points⟩ := t
  obtain ⟨points'⟩ := t'
  exact congrArg PyStr.mk (List.append_cancel_left hpoints)

theorem boundRun_of_printed (b : Option RunId) :
    boundRun (b.map Prod.fst) (b.map Prod.snd) = some b := by
  cases b <;> rfl

/-- A validation that asked for the commit of the controller itself, once. -/
def IsFirst (k : Key) : Prop := k = firstKey k.requestId k.controllerSha

theorem keeps_windows (rounds : Nat) {requestId sha : PyStr} (rest : List Args) {p : Pending}
    (hsha : p.controllerSha = sha) (hrequest : p.requestId = "sha256:" ++ requestId) :
    Keeps (Allowed rt IsFirst) (Tracks (firstKey requestId sha) p.bound Unfetched)
      (windows rt rounds p rest) (Leaves (firstKey requestId sha)) := by
  induction rest generalizing p with
  | nil =>
    refine keeps_pure fun h hh => ?_
    rintro _ ⟨⟩
    refine ⟨hrequest, p.bound, { hh with rest := trivial }, ?_⟩
    rintro _ ⟨⟩
    exact ⟨rfl, hsha, hh.rest⟩
  | cons args rest ih =>
    have hgood : ∀ requestId' sha', (args.continuing p).controllerSha = some sha' →
        IsFirst { requestId := requestId', controllerSha := sha', start := none, commits := [sha] } := by
      intro requestId' sha' hsha'
      obtain rfl : sha = sha' := hsha.symm.trans (Option.some.inj hsha')
      rfl
    have htold : ∀ (requestId' sha' : PyStr) b, (args.continuing p).controllerSha = some sha' →
        (args.continuing p).requestId = some ("sha256:" ++ requestId') →
          boundRun (args.continuing p).boundRunId (args.continuing p).boundRunAttempt = some b →
            ∀ h, Tracks (firstKey requestId sha) p.bound Unfetched h →
              Tracks { requestId := requestId', controllerSha := sha', start := none, commits := [sha] }
                b Unfetched h := by
      intro requestId' sha' b hsha' hid hb h hh
      obtain rfl : sha = sha' := hsha.symm.trans (Option.some.inj hsha')
      obtain rfl : requestId = requestId' :=
        append_inj_right (hrequest.symm.trans (Option.some.inj hid))
      obtain rfl : p.bound = b := Option.some.inj ((boundRun_of_printed p.bound).symm.trans hb)
      exact hh
    refine (keeps_main_window rounds rfl (steady_tracks _ _ (steady_downloads [])) hgood
      htold).bind fun output => ?_
    refine Keeps.pre (P := Leaves (firstKey requestId sha) output) ?_ ?_
    · match output with
      | none => exact keeps_pure fun _ hh => hh
      | some (.complete _) => exact keeps_pure fun _ hh => hh
      | some (.pending p') =>
        refine keeps_of_prop (fun h hh => ?_) fun hprinted : p'.controllerSha = sha ∧
          p'.requestId = "sha256:" ++ requestId => ?_
        · obtain ⟨hid, b, -, hpending⟩ := hh _ rfl
          exact ⟨(hpending p' rfl).2.1, hid⟩
        · refine (ih hprinted.1 hprinted.2).pre fun h hh => ?_
          obtain ⟨-, b, ht, hpending⟩ := hh _ rfl
          obtain ⟨rfl, -, hunfetched⟩ := hpending p' rfl
          exact { ht with rest := hunfetched }
    · rintro h ⟨requestId', sha', hid, hsha', hh⟩
      obtain rfl : sha = sha' := hsha.symm.trans (Option.some.inj hsha')
      obtain rfl : requestId = requestId' :=
        append_inj_right (hrequest.symm.trans (Option.some.inj hid))
      exact hh

theorem keeps_validation (rounds : Nat) {first : Args} (rest : List Args)
    (hfirst : first.phase ≠ .window) :
    Keeps (Allowed rt IsFirst) (Untouched []) (validation rt rounds first rest) fun out h =>
      ∃ requestId sha, Leaves (firstKey requestId sha) out h := by
  refine (keeps_main_first (fun _ _ => rfl) rounds hfirst).bind fun output => ?_
  match output with
  | none => exact keeps_pure fun _ hh => hh
  | some (.complete _) => exact keeps_pure fun _ hh => hh
  | some (.pending p) =>
    refine ⟨?_, ?_⟩
    · rintro h s tr op ⟨requestId, sha, hh⟩ hasks
      obtain ⟨hid, b, ht, hpending⟩ := hh _ rfl
      obtain ⟨rfl, hsha, hunfetched⟩ := hpending p rfl
      exact (keeps_windows rounds rest hsha hid).asks h s tr op
        { ht with rest := hunfetched } hasks
    · rintro h s tr out s' ⟨requestId, sha, hh⟩ hends
      obtain ⟨hid, b, ht, hpending⟩ := hh _ rfl
      obtain ⟨rfl, hsha, hunfetched⟩ := hpending p rfl
      exact ⟨requestId, sha, (keeps_windows rounds rest hsha hid).ends h s tr out s'
        { ht with rest := hunfetched } hends⟩

/-! ## 2. Reading a validation off -/

/-- The run that a process is told to follow. -/
def toldRun (args : Args) : Option RunId :=
  match args.phase with
  | .window => (boundRun args.boundRunId args.boundRunAttempt).join
  | _ => none

/-- The commit of the controller that a process works with. -/
def WorksWith (args : Args) (tr : Trace ReceiptAns) (sha : PyStr) : Prop :=
  match args.phase with
  | .window => args.controllerSha = some sha
  | _ => commits tr = [sha]

/-- What the polls of a process that succeeds agree with. -/
def Agrees (args : Args) (tr : Trace ReceiptAns) (out : Output) : Prop :=
  ∃ requestId sha b, out.requestId = "sha256:" ++ requestId ∧ WorksWith args tr sha ∧
    Follows Is initial (toldRun args) (polls requestId sha tr) b ∧
      ∀ p, out = .pending p → p.bound = b

theorem agrees_of_leaves {args : Args} {tr : Trace ReceiptAns} {out : Output}
    (hh : Leaves k (some out) tr) (hsha : k.commits = commits tr → WorksWith args tr k.controllerSha)
    (hstart : k.start = toldRun args) : Agrees args tr out := by
  obtain ⟨hid, b, ht, hpending⟩ := hh _ rfl
  refine ⟨k.requestId, k.controllerSha, b, hid, hsha ht.commits.symm, ?_, fun p hp => ?_⟩
  · rw [← hstart]
    exact ht.follows
  · exact (hpending p hp).1

/-- A process that succeeds has seen no poll that disagrees with what it was told or has bound. -/
theorem main_traces_agree (rounds : Nat) {args : Args} {tr : Trace ReceiptAns} {out : Output}
    (h : Ends (main rt rounds args) () tr (.ok (some out)) ()) : Agrees args tr out := by
  by_cases hphase : args.phase = .window
  · have htold : ∀ (requestId sha : PyStr) b, args.controllerSha = some sha →
        args.requestId = some ("sha256:" ++ requestId) →
          boundRun args.boundRunId args.boundRunAttempt = some b → ∀ h, Untouched [] h →
            Tracks { requestId, controllerSha := sha, start := toldRun args, commits := [] } b
              Unfetched h := by
      intro requestId sha b _ _ hb h hh
      refine Untouched.tracks hh ?_
      simp only [toldRun, hphase, hb]
      rfl
    have hmain : Keeps (Allowed rt fun _ => True) (Untouched []) (main rt rounds args) _ :=
      keeps_main_window rounds hphase (steady_untouched []) (fun _ _ _ => trivial) htold
    obtain ⟨requestId, sha, -, hsha, hh⟩ := hmain.ends [] () tr _ () untouched_nil h
    refine agrees_of_leaves hh (fun _ => ?_) rfl
    simp only [WorksWith, hphase]
    exact hsha
  · have hmain : Keeps (Allowed rt fun _ => True) (Untouched []) (main rt rounds args) _ :=
      keeps_main_first (fun _ _ => trivial) rounds hphase
    obtain ⟨requestId, sha, hh⟩ := hmain.ends [] () tr _ () untouched_nil h
    refine agrees_of_leaves hh (fun hcommits => ?_) ?_
    · unfold WorksWith
      split
      · next hwindow => exact absurd hwindow hphase
      · exact hcommits.symm
    · unfold toldRun
      split
      · next hwindow => exact absurd hwindow hphase
      · rfl

/-- What an installed receipt is for, spelled out. -/
def InstallsFor (rt : Runtime) (place : Place) (sha : PyStr) (runId : Int)
    (tr : Trace ReceiptAns) : Prop :=
  commits tr = [sha] ∧
  (∃ before after, polls place.requestId sha tr = before ++ after ∧ (∀ look ∈ before, look = []) ∧
    after ≠ [] ∧ ∀ look ∈ after, ∃ run, look = [run] ∧ identity run = .ok (runId, 1)) ∧
  (∃ pre runs run, tr = pre ++ [poll runs] ∧ matchingRuns place.requestId sha runs = [run] ∧
    identity run = .ok (runId, 1) ∧ succeeded run = true) ∧
  downloads tr = [runId] ∧ ∃ run, identity run = .ok (runId, 1) ∧ Validated rt place run tr

theorem installsFor_of_installs {place : Place} {tr : Trace ReceiptAns} (hfirst : IsFirst k)
    (h : Installs rt place k id tr) : InstallsFor rt place k.controllerSha id.1 tr := by
  obtain ⟨hrequest, ht, hreceipt, hcheck⟩ := h
  obtain ⟨requestId, sha, start, found⟩ := k
  obtain ⟨runId, attempt⟩ := id
  obtain rfl : requestId = place.requestId := hrequest
  obtain ⟨rfl, rfl⟩ : start = none ∧ found = [sha] := by
    injection hfirst with _ _ hstart hfound
    exact ⟨hstart, hfound⟩
  obtain ⟨hinitial, hshown⟩ := ht.follows.first
  obtain rfl : attempt = 1 := hinitial
  exact ⟨ht.commits, hshown, hcheck, ht.rest, hreceipt⟩

/-- **One run for one request.**  However the controller, the clock and the file system answer: a
receipt is installed only for a run at attempt one that was the only one shown since the first poll
that showed any, and that the poll just before shows completed with success; the run is
dispatched once at most, right after a poll that shows none; a process that succeeds has seen only
polls that agree with the run that it was told of, or bound first; and a window ends by the clock
and never sleeps beyond its deadline. -/
theorem one_run_per_request (rt : Runtime) (rounds : Nat) (first : Args) (rest : List Args)
    (hfirst : first.phase ≠ .window) :
    (∀ tr place, Asks (validation rt rounds first rest) () tr (.rename place) →
      ∃ sha runId, InstallsFor rt place sha runId tr) ∧
    (∀ tr json requestId, Asks (validation rt rounds first rest) () tr (.dispatch json requestId) →
      MayDispatch requestId tr) ∧
    (∀ args tr out, Ends (main rt rounds args) () tr (.ok (some out)) () → Agrees args tr out) ∧
    (∀ requestId sha timeout b initialOne tr,
      (∀ out, Ends (pollWindow rounds requestId sha timeout b initialOne) () tr (.ok out) () →
        timeout + 10 ≤ 10 * rounds → Advances tr → out.isSome = true) ∧
      ∀ seconds, Asks (pollWindow rounds requestId sha timeout b initialOne) () tr
        (.sleep seconds) → SleepsWithin timeout tr (.sleep seconds)) := by
  have hvalidation : Keeps (Allowed rt IsFirst) (Untouched []) (validation rt rounds first rest) _ :=
    keeps_validation rounds rest hfirst
  refine ⟨?_, ?_, ?_, ?_⟩
  · intro tr place hasks
    obtain ⟨k, id, hk, hinstalls⟩ := hvalidation.asks [] () tr _ untouched_nil hasks
    exact ⟨k.controllerSha, id.1, installsFor_of_installs hk hinstalls⟩
  · intro tr json requestId hasks
    exact hvalidation.asks [] () tr _ untouched_nil hasks
  · intro args tr out hends
    exact main_traces_agree rounds hends
  · intro requestId sha timeout b initialOne tr
    refine ⟨?_, ?_⟩
    · intro out hends hrounds hclock
      exact (keeps_window rounds).ends [] () tr out () rfl hends ⟨hrounds, hclock⟩
    · intro seconds hasks
      exact (keeps_window rounds).asks [] () tr _ rfl hasks

end

/-! ## 3. A validation that installs -/

def sampleSha : PyStr := ⟨List.replicate 40 97⟩

def sampleCandidate : Candidate :=
  { sourceSha := sampleSha, sourceRunId := 7, sourceRunAttempt := 1, evidenceId := "MLX90-ABC",
    version := "1.2.3" }

/-- One process, with everything left at its default. -/
def sampleArgs : Args :=
  { phase := .single, candidate := sampleCandidate, appSlug, installationId := appInstallationId,
    outputDirectory := some "out", timeoutSeconds := none, controllerSha := none, requestId := none,
    boundRunId := none, boundRunAttempt := none, finalWindow := false }

/-- The digest is that of the one text that is hashed, the request. -/
def sampleRuntime : Runtime :=
  { sha256 := fun _ => "48985eef8d7692b6e02202a4db19d58bc974c9ea8dc3214815e31ea4048ec8d2",
    maxDepth := 900, float := fun text => ⟨text, none⟩, ownSource := [] }

def sampleManifest : Value := .dict [
  ("artifact", .dict [("name", .str "lit-supplementary-1.2.3.tar.gz"), ("sha256", .str "sha256:0"),
    ("size", .int 5), ("url", .str "u")]),
  ("repository", .dict [("name", .str "n"), ("url", .str "v")])]

def sampleRequest : Request :=
  match buildRequest sampleRuntime sampleManifest sampleCandidate sampleSha with
  | .ok request => request
  | .error _ => { value := .none, json := [], id := "" }

def sampleApp : Value :=
  .dict [("login", .str appActor), ("id", .int appActorId), ("type", .str "Bot")]

def sampleRepository : Value := .dict [("full_name", .str controllerRepository)]

def sampleRun : Value := .dict [("id", .int 9), ("run_attempt", .int 1),
  ("display_title", .str (runTitlePrefix ++ sampleRequest.id)), ("event", .str "workflow_dispatch"),
  ("path", .str controllerWorkflow), ("head_branch", .str "main"), ("head_sha", .str sampleSha),
  ("repository", sampleRepository), ("head_repository", sampleRepository), ("actor", sampleApp),
  ("triggering_actor", sampleApp), ("status", .str "completed"), ("conclusion", .str "success")]

def sampleReceipt : Bytes :=
  match expectedValidation sampleRequest sampleRun with
  | .error _ => []
  | .ok validation =>
    match canonical sampleRuntime (.dict [
      ("apiVersion", .str "lit.mlx90.collection-validation-receipt/v2"),
      ("kind", .str "CollectionValidationReceipt"), ("request", sampleRequest.value),
      ("requestId", .str ("sha256:" ++ sampleRequest.id)), ("validation", validation),
      ("decision", .dict [("candidateUnchanged", .bool true),
        ("galaxyPublicationAuthorized", .bool true), ("releaseEligible", .bool true)])]) with
    | .error _ => []
    | .ok receipt => receipt ++ [10]

def sampleInstallation : Value := .dict [("id", .int appInstallationId),
  ("app_slug", .str appSlug), ("repository_selection", .str "selected"),
  ("target_type", .str "Organization"), ("account", .dict [("login", .str "lightning-it")]),
  ("permissions", appPermissions)]

def sampleWorkflow : Value := .dict [("path", .str controllerWorkflow), ("state", .str "active"),
  ("name", .str "MLX-90 collection candidate validation")]

def sampleJobs : List Value :=
  (["Validate immutable request", "Nexus exact-byte readback", "Sign validation receipt", "Heavy / a",
    "Application Acceptance / a"] : List String).map fun name =>
      .dict [("name", .str name), ("id", .int 1), ("status", .str "completed"),
        ("conclusion", .str "success")]

/-- Nothing is listed before the dispatch, and the run that succeeds after it. -/
def sampleOracle (i : Nat) : (op : ReceiptOp) → ReceiptAns op
  | .manifest => .ok sampleManifest
  | .installation => .ok sampleInstallation
  | .installationRepositories => .ok [controllerRepository]
  | .controllerSha => .ok sampleSha
  | .workflow => .ok sampleWorkflow
  | .workflowRuns => .ok (if i < 8 then [] else [sampleRun])
  | .jobs _ => .ok sampleJobs
  | .artifacts _ => .ok [.dict [("name", .str (artifactPrefix ++ sampleRequest.id)),
      ("expired", .bool false)]]
  | .entries _ => .ok [receiptName, receiptBundleName]
  | .outputPresent _ | .unsafeFile _ | .temporaryPresent _ => .ok false
  | .receiptBytes _ => .ok (some sampleReceipt)
  | .digest _ | .now => .ok ""
  | .monotonic => .ok i
  | .client | .dispatch _ _ | .makeTemporary _ | .download _ _ _ | .verifySignature _ _ | .rename _
  | .removeTemporary _ | .sleep _ | .print _ => .ok ()

/-- The program is about to install. -/
def isInstalling {α : Type} : Prog ReceiptAns α → Bool
  | .ask (.rename _) _ => true
  | _ => false

theorem issues_of_isInstalling {α : Type} {p : Prog ReceiptAns α} {n : Nat}
    (h : isInstalling (p.play sampleOracle 0 n).2 = true) :
    ∃ place, Issues p (p.play sampleOracle 0 n).1 (.rename place) := by
  unfold isInstalling at h
  split at h
  · next place k heq => exact ⟨place, play_issues heq⟩
  · cases h

theorem one_run_per_request_sample : ∃ tr place sha runId,
    Asks (validation sampleRuntime 9 sampleArgs []) () tr (.rename place) ∧
      InstallsFor sampleRuntime place sha runId tr := by
  have hstep : isInstalling
      ((validation sampleRuntime 9 sampleArgs [] ()).play sampleOracle 0 21).2 = true := by
    decide +kernel
  obtain ⟨place, hissues⟩ := issues_of_isInstalling hstep
  obtain ⟨sha, runId, hinstalls⟩ :=
    (one_run_per_request sampleRuntime 9 sampleArgs [] (by decide)).1 _ place hissues
  exact ⟨_, place, sha, runId, hissues, hinstalls⟩

end Supplementary.Receipt
