/-
# Runs of the response budget

Any sequence of calls with whatever arguments and clocks, rejected calls included.  `Ledger`
relates the log of a run to its state: the charge is what was settled plus what is reserved, and
the active request was reserved by the last accepted `reserve` (`OpenSince`).  One call keeps it
(`Ledger.step`); the statements about positions in the log follow by splitting the run there.
-/
import Supplementary.Provider.BudgetCalls
import Supplementary.Review.Coverage
import Supplementary.Lib.Trace

namespace Supplementary.Provider.ResponseBudget

open Supplementary Review Trace

/-! ## 1. What a log shows -/

abbrev CallLog := Log Call PyError Returned

/-- The digest an accepted `reserve` returned. -/
def digest? (_ : Call) : Returned → Option PyStr
  | .reserved digest _ => some digest
  | _ => none

/-- The cost an accepted `complete` settled. -/
def settled? (_ : Call) : Returned → Option Int
  | .settled actual => some actual
  | _ => none

/-- The id of the response an accepted `complete` settled. -/
def responseId? : Call → Returned → Option PyStr
  | .complete _ response _, .settled _ => match response.get "id" with
    | .str identity => some identity
    | _ => none
  | _, _ => none

/-- An entry that neither reserves nor settles. -/
def Between (entry : Call × Py Returned) : Prop :=
  ∀ out, entry.2 = .ok out → out = .admitted ∨ out = .abandoned

/-- The request `digest` was reserved and nothing has been reserved or settled since; if it was
admitted, an `admit_tokens` call for it has succeeded since. -/
def OpenSince (log : CallLog) (digest : PyStr) (admitted : Option PyStr) : Prop :=
  ∃ before request nowMs bounded since,
    log = before ++ (.reserve request nowMs, .ok (.reserved digest bounded)) :: since ∧
    (∀ entry ∈ since, Between entry) ∧
    ∀ d, admitted = some d → d = digest ∧
      ∃ r c t, (.admitTokens (.str digest) r c t, .ok .admitted) ∈ since

/-- How the log of a run from `b₀` and the state `b` it ends in hang together. -/
structure Ledger (b₀ : ResponseBudget) (log : CallLog) (b : ResponseBudget) : Prop where
  profile : b.profile = b₀.profile
  limit : b.limit = b₀.limit
  maxRequests : b.maxRequests = b₀.maxRequests
  charged : b.charged = (accepted settled? log).sum + (b.active.map Active.reserved).getD 0
  charged_le : b.charged ≤ b.limit
  full : ∀ r, b.active = some r →
    r.reserved = cost b.profile b.profile.contextTokens.1 r.outputCap
  requests : accepted digest? log = b.requests
  requests_nodup : b.requests.Nodup
  requests_le : b.requests.length ≤ b.maxRequests
  responses : accepted responseId? log = b.responses
  responses_nodup : b.responses.Nodup
  opened : ∀ r, b.active = some r → OpenSince log r.digest b.admitted
  idle : b.active = none → b.admitted = none

/-- A budget no call has been made on. -/
structure Fresh (b : ResponseBudget) : Prop where
  charged : b.charged = 0
  limit : 1 ≤ b.limit
  maxRequests : 1 ≤ b.maxRequests
  requests : b.requests = []
  responses : b.responses = []
  active : b.active = none
  admitted : b.admitted = none
  failed : b.failed = false

theorem init_eq_ok {rt : Runtime} {profile cost start timeout requests bytes : Value}
    {b : ResponseBudget} (h : init rt profile cost start timeout requests bytes = .ok b) :
    b.Fresh ∧ cost = .int b.limit ∧ requests = .int b.maxRequests := by
  simp only [init, bind_eq_ok] at h
  obtain ⟨checked, -, limit, hlimit, _, -, _, -, most, hmost, _, -, _, -, h⟩ := h
  cases h
  exact ⟨⟨rfl, limit.2.1, most.2.1, rfl, rfl, rfl, rfl, rfl⟩, integer_eq_ok hlimit,
    integer_eq_ok hmost⟩

theorem Fresh.ledger {b : ResponseBudget} (h : b.Fresh) : Ledger b [] b where
  profile := rfl
  limit := rfl
  maxRequests := rfl
  charged := by simp [h.charged, h.active]
  charged_le := by
    have := h.limit
    rw [h.charged]
    omega
  full := by simp [h.active]
  requests := by simp [h.requests]
  requests_nodup := by simp [h.requests]
  requests_le := by
    have := h.maxRequests
    rw [h.requests, List.length_nil]
    omega
  responses := by simp [h.responses]
  responses_nodup := by simp [h.responses]
  opened := by simp [h.active]
  idle _ := h.admitted

/-! ## 2. One call -/

theorem OpenSince.snoc {log : CallLog} {digest : PyStr} {admitted : Option PyStr}
    {entry : Call × Py Returned} (h : OpenSince log digest admitted) (hentry : Between entry) :
    OpenSince (log ++ [entry]) digest admitted := by
  obtain ⟨before, request, nowMs, bounded, since, rfl, hsince, hadmitted⟩ := h
  refine ⟨before, request, nowMs, bounded, since ++ [entry], by simp, ?_, fun d hd => ?_⟩
  · intro e he
    rcases List.mem_append.mp he with he | he
    · exact hsince e he
    · exact List.mem_singleton.mp he ▸ hentry
  · obtain ⟨rfl, r, c, t, hmem⟩ := hadmitted d hd
    exact ⟨rfl, r, c, t, List.mem_append_left _ hmem⟩

/-- An accepted `admit_tokens` for the open request admits it. -/
theorem OpenSince.admitted {log : CallLog} {digest : PyStr} {admitted : Option PyStr}
    {request count nowMs : Value} (h : OpenSince log digest admitted) :
    OpenSince (log ++ [(.admitTokens (.str digest) request count nowMs, .ok .admitted)]) digest
      (some digest) := by
  obtain ⟨before, req, now, bounded, since, rfl, hsince, -⟩ := h
  refine ⟨before, req, now, bounded,
    since ++ [(.admitTokens (.str digest) request count nowMs, .ok .admitted)], by simp, ?_, ?_⟩
  · intro e he
    rcases List.mem_append.mp he with he | he
    · exact hsince e he
    · obtain rfl := List.mem_singleton.mp he
      exact fun out hout => Or.inl (Except.ok.inj hout).symm
  · rintro d ⟨⟩
    exact ⟨rfl, request, count, nowMs, by simp⟩

theorem nodup_snoc {α : Type} {xs : List α} {x : α} (h : xs.Nodup) (hx : x ∉ xs) :
    (xs ++ [x]).Nodup := by
  rw [← List.concat_eq_append]
  exact h.concat hx

/-- A rejected call, or `abandon`, only sets `failed`. -/
theorem Ledger.killed {b₀ b : ResponseBudget} {log : CallLog} {entry : Call × Py Returned} {t : Int}
    (h : Ledger b₀ log b) (hentry : Rejected entry ∨ entry.2 = .ok .abandoned) :
    Ledger b₀ (log ++ [entry]) { b with lastMs := t, failed := true } := by
  have hbetween : Between entry := by
    intro out hout
    rcases hentry with ⟨e, he⟩ | hok
    · rw [he] at hout
      cases hout
    · rw [hok] at hout
      exact Or.inr (Except.ok.inj hout).symm
  have hread {α : Type} (f : Call → Returned → Option α) (hf : ∀ c, f c .abandoned = none) :
      accepted f (log ++ [entry]) = accepted f log := by
    obtain ⟨call, out⟩ := entry
    rcases hentry with ⟨e, he⟩ | hok
    · obtain rfl : out = .error e := he
      exact accepted_snoc_error log call e
    · obtain rfl : out = .ok .abandoned := hok
      rw [accepted_snoc_ok, hf, Option.toList_none, List.append_nil]
  have hresponse : ∀ c, responseId? c .abandoned = none := fun c => by cases c <;> rfl
  refine ⟨h.profile, h.limit, h.maxRequests, ?_, h.charged_le, h.full, ?_, h.requests_nodup,
    h.requests_le, ?_, h.responses_nodup, fun r hr => (h.opened r hr).snoc hbetween, h.idle⟩
  · rw [hread settled? fun _ => rfl]
    exact h.charged
  · rw [hread digest? fun _ => rfl]
    exact h.requests
  · rw [hread responseId? hresponse]
    exact h.responses

/-- An accepted `reserve` charges the full reservation of a new request. -/
theorem Ledger.reserve {b₀ b : ResponseBudget} {log : CallLog} {request nowMs bounded : Value}
    {digest : PyStr} {outputCap t : Int} (h : Ledger b₀ log b) (hactive : b.active = none)
    (hnew : digest ∉ b.requests) (hroom : b.requests.length < b.maxRequests)
    (hcost : b.charged + cost b.profile b.profile.contextTokens.1 outputCap ≤ b.limit) :
    Ledger b₀ (log ++ [(.reserve request nowMs, .ok (.reserved digest bounded))])
      { b with lastMs := t,
               charged := b.charged + cost b.profile b.profile.contextTokens.1 outputCap,
               requests := b.requests ++ [digest],
               active := some
                 { digest, reserved := cost b.profile b.profile.contextTokens.1 outputCap,
                   outputCap } } := by
  refine ⟨h.profile, h.limit, h.maxRequests, ?_, hcost, ?_, ?_, nodup_snoc h.requests_nodup hnew, ?_,
    ?_, h.responses_nodup, ?_, nofun⟩
  · have := h.charged
    simp only [hactive, Option.map_none, Option.getD_none] at this
    simp [accepted_snoc_ok, settled?, this]
  · rintro r ⟨⟩
    rfl
  · rw [accepted_snoc_ok, h.requests]
    rfl
  · simp only [List.length_append, List.length_singleton]
    omega
  · rw [accepted_snoc_ok, h.responses]
    exact List.append_nil _
  · rintro r ⟨⟩
    exact ⟨log, request, nowMs, bounded, [], rfl, by simp, by simp [h.idle hactive]⟩

/-- An accepted `admit_tokens` changes no money. -/
theorem Ledger.admitTokens {b₀ b : ResponseBudget} {log : CallLog} {request count nowMs : Value}
    {active : Active} {t : Int} (h : Ledger b₀ log b) (hactive : b.active = some active) :
    Ledger b₀ (log ++ [(.admitTokens (.str active.digest) request count nowMs, .ok .admitted)])
      { b with lastMs := t, admitted := some active.digest } := by
  refine ⟨h.profile, h.limit, h.maxRequests, ?_, h.charged_le, h.full, ?_, h.requests_nodup,
    h.requests_le, ?_, h.responses_nodup, ?_, ?_⟩
  · rw [accepted_snoc_ok]
    simpa [settled?] using h.charged
  · rw [accepted_snoc_ok, h.requests]
    exact List.append_nil _
  · rw [accepted_snoc_ok, h.responses]
    exact List.append_nil _
  · intro r hr
    obtain rfl : active = r := Option.some.inj (hactive.symm.trans hr)
    exact (h.opened active hactive).admitted
  · intro hnone
    rw [hactive] at hnone
    cases hnone

/-- An accepted `complete` replaces the reservation by the actual cost. -/
theorem Ledger.complete {b₀ b : ResponseBudget} {log : CallLog} {digest response nowMs : Value}
    {active : Active} {identity : PyStr} {actual t : Int} (h : Ledger b₀ log b)
    (hactive : b.active = some active) (hid : response.get "id" = .str identity)
    (hnew : identity ∉ b.responses) (hactual : actual ≤ active.reserved) :
    Ledger b₀ (log ++ [(.complete digest response nowMs, .ok (.settled actual))])
      { b with lastMs := t, charged := b.charged - (active.reserved - actual),
               responses := b.responses ++ [identity], active := none, admitted := none } := by
  have hcharged := h.charged
  rw [hactive, Option.map_some, Option.getD_some] at hcharged
  refine ⟨h.profile, h.limit, h.maxRequests, ?_, ?_, nofun, ?_, h.requests_nodup, h.requests_le, ?_,
    nodup_snoc h.responses_nodup hnew, nofun, fun _ => rfl⟩
  · rw [accepted_snoc_ok, List.sum_append]
    simp only [settled?, Option.toList_some, List.sum_singleton, Option.map_none, Option.getD_none]
    omega
  · have := h.charged_le
    simp only
    omega
  · rw [accepted_snoc_ok, h.requests]
    exact List.append_nil _
  · rw [accepted_snoc_ok, h.responses]
    simp [responseId?, hid]

/-- **One call keeps the ledger.** -/
theorem Ledger.step {b₀ b : ResponseBudget} {log : CallLog} (rt : Runtime) (h : Ledger b₀ log b)
    (call : Call) : Ledger b₀ (log ++ [(call, (b.step rt call).2)]) (b.step rt call).1 := by
  cases call with
  | reserve request nowMs =>
    simp only [ResponseBudget.step]
    rcases b.reserve_cases rt request nowMs with
      ⟨t, digest, bounded, cap, -, hactive, hnew, hroom, -, hcost, -, heq⟩ | ⟨t, e, -, heq⟩ <;>
      rw [heq]
    · exact h.reserve hactive hnew hroom hcost
    · exact h.killed (Or.inl ⟨e, rfl⟩)
  | admitTokens digest request count nowMs =>
    simp only [ResponseBudget.step]
    rcases b.admitTokens_cases rt digest request count nowMs with
      ⟨t, active, -, hactive, -, rfl, -, heq⟩ | ⟨t, e, -, heq⟩ <;> rw [heq]
    · exact h.admitTokens hactive
    · exact h.killed (Or.inl ⟨e, rfl⟩)
  | complete digest response nowMs =>
    simp only [ResponseBudget.step]
    rcases complete_cases digest response nowMs h.full with
      ⟨t, active, identity, actual, -, hactive, -, -, hid, hnew, hactual, -, -, heq⟩ |
      ⟨t, e, -, heq⟩ <;> rw [heq]
    · exact h.complete hactive hid hnew hactual
    · exact h.killed (Or.inl ⟨e, rfl⟩)
  | abandon => exact h.killed (t := b.lastMs) (Or.inr rfl)

/-! ## 3. Every run -/

theorem run_ledger {rt : Runtime} {b₀ b : ResponseBudget} {log : CallLog} (hfresh : b₀.Fresh)
    (h : Run (step rt) b₀ log b) : Ledger b₀ log b :=
  h.invariant hfresh.ledger fun _ _ call hledger => hledger.step rt call

/-- A dead budget accepts nothing but `abandon`, and its charge stands. -/
theorem step_dead (rt : Runtime) (charged : Int) :
    Dead (step rt) (fun b => b.failed = true ∧ b.charged = charged)
      (fun entry => Rejected entry ∨ entry.1 = .abandon) := by
  rintro b call ⟨hfailed, hcharged⟩
  cases call with
  | reserve request nowMs =>
    simp only [step]
    rcases b.reserve_cases rt request nowMs with ⟨_, _, _, _, halive, -⟩ | ⟨t, e, -, heq⟩
    · rw [hfailed] at halive
      cases halive
    · rw [heq]
      exact ⟨⟨rfl, hcharged⟩, Or.inl ⟨e, rfl⟩⟩
  | admitTokens digest request count nowMs =>
    simp only [step]
    rcases b.admitTokens_cases rt digest request count nowMs with ⟨_, _, halive, -⟩ | ⟨t, e, -, heq⟩
    · rw [hfailed] at halive
      cases halive
    · rw [heq]
      exact ⟨⟨rfl, hcharged⟩, Or.inl ⟨e, rfl⟩⟩
  | complete digest response nowMs =>
    have heq : b.complete digest response nowMs =
        ({ b with failed := true }, .error (.reviewError "provider-active-or-terminal")) := by
      have hdead : b.fail (.reviewError "provider-active-or-terminal") =
          ({ b with failed := true }, .error (.reviewError "provider-active-or-terminal")) :=
        fail_of_caught rfl
      unfold complete
      split
      · exact hdead
      · rw [if_neg (by simp [hfailed]), hdead]
    simp only [step]
    rw [heq]
    exact ⟨⟨rfl, hcharged⟩, Or.inl ⟨_, rfl⟩⟩
  | abandon => exact ⟨⟨rfl, hcharged⟩, Or.inr rfl⟩

/-- A rejection and `abandon` both kill the budget. -/
theorem failed_of_killing {rt : Runtime} {b₀ b : ResponseBudget} {log : CallLog} {call : Call}
    (hledger : Ledger b₀ log b) (h : Rejected (call, (b.step rt call).2) ∨ call = .abandon) :
    (b.step rt call).1.failed = true := by
  rcases h with ⟨e, he⟩ | rfl
  · cases call with
    | reserve request nowMs =>
      simp only [step] at he ⊢
      rcases b.reserve_cases rt request nowMs with
        ⟨_, _, _, _, -, -, -, -, -, -, -, heq⟩ | ⟨t, e', -, heq⟩ <;> rw [heq] at he ⊢
      cases he
    | admitTokens digest request count nowMs =>
      simp only [step] at he ⊢
      rcases b.admitTokens_cases rt digest request count nowMs with
        ⟨_, _, -, -, -, -, -, heq⟩ | ⟨t, e', -, heq⟩ <;> rw [heq] at he ⊢
      cases he
    | complete digest response nowMs =>
      simp only [step] at he ⊢
      rcases complete_cases digest response nowMs hledger.full with
        ⟨_, _, _, _, -, -, -, -, -, -, -, -, -, heq⟩ | ⟨t, e', -, heq⟩ <;> rw [heq] at he ⊢
      cases he
    | abandon => rfl
  · rfl

/-- No call reports the cost overrun. -/
theorem step_ne_overrun {rt : Runtime} {b₀ b : ResponseBudget} {log : CallLog} {call : Call}
    (h : Ledger b₀ log b) :
    (b.step rt call).2 ≠ .error (.reviewError "provider-cost-overrun") := by
  have hkilled {r : ResponseBudget × Py Returned} (hr : Killed b r) :
      r.2 ≠ .error (.reviewError "provider-cost-overrun") := by
    obtain ⟨t, e, he, rfl⟩ := hr
    exact fun heq => he.2 (Except.error.inj heq)
  cases call with
  | reserve request nowMs =>
    simp only [step]
    rcases b.reserve_cases rt request nowMs with
      ⟨_, _, _, _, -, -, -, -, -, -, -, heq⟩ | hr
    · rw [heq]
      nofun
    · exact hkilled hr
  | admitTokens digest request count nowMs =>
    simp only [step]
    rcases b.admitTokens_cases rt digest request count nowMs with ⟨_, _, -, -, -, -, -, heq⟩ | hr
    · rw [heq]
      nofun
    · exact hkilled hr
  | complete digest response nowMs =>
    simp only [step]
    rcases complete_cases digest response nowMs h.full with
      ⟨_, _, _, _, -, -, -, -, -, -, -, -, -, heq⟩ | hr
    · rw [heq]
      nofun
    · exact hkilled hr
  | abandon => nofun

/-- What every run of a budget promises. -/
structure Audit (rt : Runtime) (b₀ : ResponseBudget) (log : CallLog) (b : ResponseBudget) :
    Prop where
  charged : b.charged = (accepted settled? log).sum + (b.active.map Active.reserved).getD 0 ∧
    b.charged ≤ b₀.limit
  full : ∀ r, b.active = some r →
    r.reserved = cost b₀.profile b₀.profile.contextTokens.1 r.outputCap
  settles : ∀ pre digest response nowMs out post,
    log = pre ++ (.complete digest response nowMs, .ok out) :: post →
      ∃ d, digest = .str d ∧ OpenSince pre d (some d)
  requests : (accepted digest? log).Nodup ∧ (accepted digest? log).length ≤ b₀.maxRequests
  responses : (accepted responseId? log).Nodup
  terminal : ∀ pre entry post, log = pre ++ entry :: post →
    Rejected entry ∨ entry.1 = .abandon →
      (∀ later ∈ post, Rejected later ∨ later.1 = .abandon) ∧
      ∀ b₁, Run (step rt) b₀ (pre ++ [entry]) b₁ → b.charged = b₁.charged
  overrun : ∀ entry ∈ log, entry.2 ≠ .error (.reviewError "provider-cost-overrun")

/-- **The budget never loses a reservation, never overspends and never revives**, in every run. -/
theorem budget_audit {rt : Runtime} {profile maxCost start timeout maxRequests bytes : Value}
    {b₀ b : ResponseBudget} {log : CallLog}
    (hinit : init rt profile maxCost start timeout maxRequests bytes = .ok b₀)
    (hrun : Run (step rt) b₀ log b) :
    maxCost = .int b₀.limit ∧ maxRequests = .int b₀.maxRequests ∧ Audit rt b₀ log b := by
  obtain ⟨hfresh, hlimit, hmost⟩ := init_eq_ok hinit
  have h := run_ledger hfresh hrun
  refine ⟨hlimit, hmost, ⟨h.charged, h.limit ▸ h.charged_le⟩, ?_, ?_, ⟨?_, ?_⟩, ?_, ?_, ?_⟩
  · rw [← h.profile]
    exact h.full
  · rintro pre digest response nowMs out post rfl
    obtain ⟨c, hpre, hok, -⟩ := hrun.split
    have hc := run_ledger hfresh hpre
    simp only [step] at hok
    rcases complete_cases digest response nowMs hc.full with
      ⟨t, active, identity, actual, -, hactive, hadmitted, hdigest, -, -, -, -, -, -⟩ |
      ⟨t, e, -, heq⟩
    · exact ⟨active.digest, hdigest, hadmitted ▸ hc.opened active hactive⟩
    · rw [heq] at hok
      cases hok
  · rw [h.requests]
    exact h.requests_nodup
  · rw [h.requests, ← h.maxRequests]
    exact h.requests_le
  · rw [h.responses]
    exact h.responses_nodup
  · rintro pre entry post rfl hkill
    obtain ⟨c, hpre, hentry, hafter⟩ := hrun.split
    have hkilled : Rejected (entry.1, (c.step rt entry.1).2) ∨ entry.1 = .abandon := by
      rwa [hentry]
    have hfailed := failed_of_killing (run_ledger hfresh hpre) hkilled
    obtain ⟨⟨-, hcharged⟩, hlater⟩ :=
      hafter.of_dead (step_dead rt (c.step rt entry.1).1.charged) ⟨hfailed, rfl⟩
    refine ⟨hlater, fun b₁ hb₁ => ?_⟩
    have hnext := hpre.snoc entry.1
    rw [hentry] at hnext
    rw [hb₁.unique hnext, hcharged]
  · intro entry hentry
    obtain ⟨pre, post, rfl⟩ := List.append_of_mem hentry
    obtain ⟨c, hpre, hok, -⟩ := hrun.split
    rw [← hok]
    exact step_ne_overrun (run_ledger hfresh hpre)

/-- A provider profile. -/
def sampleProfile : Value := .dict [("version", .str "responses-budget/v2"),
  ("model", .str "m"), ("context_tokens", .int 1000), ("max_input_tokens", .int 900),
  ("max_output_tokens", .int 100), ("input_microusd_per_million_tokens", .int 1000000),
  ("output_microusd_per_million_tokens", .int 2000000),
  ("capacity_evidence_sha256", .str ⟨List.replicate 64 97⟩),
  ("pricing_evidence_sha256", .str ⟨List.replicate 64 98⟩)]

theorem budget_audit_sample : ∃ b₀ b log,
    init sampleRuntime sampleProfile (.int 5000) (.int 0) (.int 1000) (.int 1) (.int 2000000) =
      .ok b₀ ∧ log.length = 2 ∧ Run (step sampleRuntime) b₀ log b ∧
    Audit sampleRuntime b₀ log b := by
  have hok : (init sampleRuntime sampleProfile (.int 5000) (.int 0) (.int 1000) (.int 1)
      (.int 2000000)).isOk = true := by decide +kernel
  obtain ⟨b₀, hinit⟩ := exists_of_isOk hok
  have hrun : Run (step sampleRuntime) b₀ _ _ := (Run.nil.snoc
    (.reserve (.dict [("model", .str "m"), ("input", .str "x")]) (.int 1))).snoc .abandon
  exact ⟨b₀, _, _, hinit, rfl, hrun, (budget_audit hinit hrun).2.2⟩

end Supplementary.Provider.ResponseBudget
