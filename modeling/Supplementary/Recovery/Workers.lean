/-
# Two reruns at most

Any number of workers that run `recover` for one sealed run, as programs that write to one journal.

`rerun_once`: whoever asks for a rerun has claimed an attempt, its own commit of the claim was
confirmed, and no other worker has claimed that attempt; so each attempt is rerun once at most, and
the run twice at most.
-/
import Supplementary.Recovery.Attempts

namespace Supplementary.Recovery

open Effects PyStr Native Continuation

/-- What a worker is started with. -/
structure Worker where
  site : Site
  source : PyStr
  now : Now

/-- The worker's execution of `recover`. -/
def Worker.recover (x : Worker) (rt : Runtime) (repo repoId : PyStr) (runId : Int) :
    ContinuationAct String := Recovery.recover rt x.site repo repoId runId x.source x.now

variable {ι : Type} {rt : Runtime} {repo repoId : PyStr} {runId : Int} {workers : ι → Worker}
  {w : WriterWorld ι}

theorem allowed_of_asks {x : Worker} {h : History} {op : ContinuationOp}
    (hasks : Asks (x.recover rt repo repoId runId) none h op) : Allowed rt runId h op :=
  (tracks_recover x.site repo repoId runId x.source x.now [] none rfl).1 h op hasks

theorem disciplined_recover :
    Disciplined rt (fun i => (workers i).recover rt repo repoId runId) fun _ h => Ready runId h where
  commit _ _ _ hasks := allowed_of_asks hasks
  send _ _ _ _ hasks := allowed_of_asks hasks
  append _ _ _ hready := hready.append

/-- The worker has asked for the rerun, or is asking for it, and has claimed the attempt. -/
structure RerunFor (rt : Runtime) (repo repoId : PyStr) (runId : Int) (workers : ι → Worker)
    (w : WriterWorld ι) (i : ι) (number : Int) : Prop where
  posts : Posts ((workers i).recover rt repo repoId runId) (w.history i)
  made : Made (w.history i) (attemptPath runId number)

/-- One worker at most has claimed an attempt. -/
theorem made_unique {ready : ι → History → Prop} {i j : ι} {path : PyStr}
    (hinv : WriterInv rt repo ready w) (hi : Made (w.history i) path) (hj : Made (w.history j) path) :
    i = j := by
  obtain ⟨journal, raw, result, hmem, hshows⟩ := hi
  obtain ⟨journal', raw', result', hmem', hshows'⟩ := hj
  refine hinv.unique (hinv.answered i _ _ hmem hshows) (hinv.answered j _ _ hmem' hshows') ?_
  rw [pathOf_commitPayload, pathOf_commitPayload]

/-- Among three distinct workers two have claimed the same attempt. -/
theorem length_le_two {claims : ι → Int → Prop} {posting : List ι} (hnodup : posting.Nodup)
    (hsome : ∀ i ∈ posting, ∃ number, (number = 3 ∨ number = 4) ∧ claims i number)
    (hunique : ∀ i j number, claims i number → claims j number → i = j) : posting.length ≤ 2 := by
  rcases posting with _ | ⟨a, _ | ⟨b, _ | ⟨c, rest⟩⟩⟩
  · exact Nat.zero_le 2
  · exact Nat.le_succ 1
  · exact Nat.le_refl 2
  · obtain ⟨m, hm, ha⟩ := hsome a List.mem_cons_self
    obtain ⟨n, hn, hb⟩ := hsome b (List.mem_cons_of_mem _ List.mem_cons_self)
    obtain ⟨k, hk, hc⟩ := hsome c (List.mem_cons_of_mem _ (List.mem_cons_of_mem _ List.mem_cons_self))
    simp only [List.nodup_cons, List.mem_cons, not_or] at hnodup
    obtain ⟨⟨hab, hac, -⟩, ⟨hbc, -⟩, -⟩ := hnodup
    have hpigeon : m = n ∨ m = k ∨ n = k := by omega
    rcases hpigeon with rfl | rfl | rfl
    · exact absurd (hunique a b m ha hb) hab
    · exact absurd (hunique a c m ha hc) hac
    · exact absurd (hunique b c n hb hc) hbc

def sampleLogin : Value := .dict [("login", .str "litroc")]

def sampleWorkerRun : Value :=
  .dict [("id", .int 21), ("run_attempt", .int 1), ("path", .str schedulerPath),
    ("event", .str "schedule"), ("head_sha", .str sampleBase),
    ("repository", .dict [("full_name", .str sampleRepo)]),
    ("head_repository", .dict [("full_name", .str sampleRepo)]), ("actor", sampleLogin),
    ("triggering_actor", sampleLogin)]

def sampleWorker : Worker where
  site := ⟨fun name => List.lookup name [("GITHUB_RUN_ATTEMPT", "1"), ("GITHUB_EVENT_NAME", "schedule"),
    ("GITHUB_REF_PROTECTED", "true"), ("GITHUB_WORKFLOW_SHA", sampleBase)], .ok 21, ""⟩
  source := sampleBase
  now := ⟨1767229200, "2026-01-01T01:00:00Z"⟩

/-- Nothing is sealed yet. -/
def unsealedAnswer : (op : ContinuationOp) → ContinuationAns op
  | .read request _ =>
    if request.fields = [] then
      match List.lookup request.route (("repos/" ++ sampleRepo ++ "/actions/runs/21", sampleWorkerRun) ::
        sampleRoutes) with
      | some result => .ok result
      | none => .error .timeoutExpired
    else if request = sampleRequest sampleOld "li259/9/seed.json" then .ok (sampleResult sampleOld .none)
    else .error .timeoutExpired
  | .commit _ | .send _ _ => .error .timeoutExpired
  | .utcnow => .ok "2026-01-01T01:00:00Z"
  | .timestamp => .ok 1767229200
  | .monotonic => .ok 0
  | .sleep _ => .ok ()

def unsealedTrace : History :=
  (sampleWorker.recover sampleInterpreter sampleRepo "1" 9).asked none fun _ => unsealedAnswer

/-- The worker finds no seed. -/
theorem unsealed_result : ((sampleWorker.recover sampleInterpreter sampleRepo "1" 9).result none
    fun _ => unsealedAnswer) = .ok "inactive" := by
  decide +kernel

theorem answers_unsealed {w : WriterWorld Unit} (hold : w.branch.tree sampleOld = some fun _ => none)
    {e : Event ContinuationAns} (hanswer : e.2 = unsealedAnswer e.1) :
    w.Answers sampleRepo () e.1 e.2 := by
  obtain ⟨op, answer⟩ := e
  dsimp only at hanswer
  subst hanswer
  cases op with
  | read request timeout =>
    intro result hresult
    unfold unsealedAnswer at hresult
    dsimp only at hresult
    split at hresult
    · next hfields =>
      intro journal path data object hrequest
      obtain ⟨owner, name, rfl⟩ := readRequest_eq_ok hrequest
      cases hfields
    · split at hresult
      · next hrequest =>
        cases hresult
        rw [hrequest]
        exact truthful_sample hold showsFile_none
      · cases hresult
  | commit payload => exact fun result hresult => by cases hresult
  | _ => trivial

def unsealedWorld (h : History) : WriterWorld Unit := ⟨sampleEmpty, [], [], fun _ => h⟩

theorem run_unsealed : Relation.ReflTransGen (WriterStep sampleInterpreter sampleRepo fun _ : Unit =>
    sampleWorker.recover sampleInterpreter sampleRepo "1" 9) (unsealedWorld [])
    (unsealedWorld unsealedTrace) := by
  obtain ⟨s, hends⟩ := @ends_result _ _ _ _ _ (sampleWorker.recover sampleInterpreter sampleRepo "1" 9)
    none fun _ => unsealedAnswer
  have hsame : ({ unsealedWorld [] with
      history := Function.update (unsealedWorld []).history () unsealedTrace } : WriterWorld Unit) =
      unsealedWorld unsealedTrace := by
    unfold unsealedWorld
    congr
  rw [← hsame]
  rw [← List.append_nil (Act.asked _ _ _)] at hends
  refine @writer_run_idle Unit _ _ _ _ (unsealedWorld []) _ () unsealedTrace [] _ s hends fun e he => ?_
  obtain ⟨j, hj⟩ := answered_asked e he
  exact answers_unsealed tree_sampleOld hj

end Supplementary.Recovery
