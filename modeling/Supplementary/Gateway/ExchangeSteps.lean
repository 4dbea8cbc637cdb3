/-
# What one exchange does

An exchange starts at most two workers: one for the token count and then, once the budget has
admitted the count it brought back, one for the model.  `asks_exchange` says what has happened when
a worker is started, `ends_exchange` what has when the exchange returns; the reviewer's run
lemmas use nothing else.
-/
import Supplementary.Gateway.Reviewer
import Supplementary.Provider.BudgetCalls

namespace Supplementary.Gateway

open Supplementary Review Provider Effects

/-! ## 1. The workers of a trace -/

/-- The workers that were started, oldest first. -/
def starts (tr : Trace GatewayAns) : List Worker :=
  tr.filterMap fun e => match e.1 with
    | .startWorker w => some w
    | _ => none

/-- What each started worker was for: `true` is the token count, `false` the model. -/
def kinds (tr : Trace GatewayAns) : List Bool := (starts tr).map Worker.counting

@[simp] theorem starts_nil : starts [] = [] := rfl

@[simp] theorem starts_append (tr tr' : Trace GatewayAns) :
    starts (tr ++ tr') = starts tr ++ starts tr' := List.filterMap_append

@[simp] theorem starts_clock (answer : Py Int) (tr : Trace GatewayAns) :
    starts (⟨.monotonicMs, answer⟩ :: tr) = starts tr := rfl

@[simp] theorem kinds_nil : kinds [] = [] := rfl

@[simp] theorem kinds_append (tr tr' : Trace GatewayAns) :
    kinds (tr ++ tr') = kinds tr ++ kinds tr' := by
  simp [kinds]

/-- The workers a finished method started: none, or there is a last one. -/
theorem last_start {α : Type} {p : Prog GatewayAns α} {tr : Trace GatewayAns} {a : α}
    (h : Returns p tr a) :
    starts tr = [] ∨ ∃ pre w, kinds tr = kinds pre ++ [w.counting] ∧ Issues p pre (.startWorker w) := by
  have split (tr : Trace GatewayAns) : starts tr = [] ∨
      ∃ pre w answer post, tr = pre ++ ⟨.startWorker w, answer⟩ :: post ∧ starts post = [] := by
    induction tr with
    | nil => exact Or.inl rfl
    | cons e tr ih =>
      rcases ih with hnone | ⟨pre, w, answer, post, rfl, hpost⟩
      · obtain ⟨op, answer⟩ := e
        cases op with
        | startWorker w => exact Or.inr ⟨[], w, answer, tr, rfl, hnone⟩
        | _ => exact Or.inl hnone
      · exact Or.inr ⟨e :: pre, w, answer, post, rfl, hpost⟩
  rcases split tr with hnone | ⟨pre, w, answer, post, rfl, hpost⟩
  · exact Or.inl hnone
  · refine Or.inr ⟨pre, w, ?_, h.prefix⟩
    have hkinds : kinds (⟨.startWorker w, answer⟩ :: post) = [w.counting] := by
      change w.counting :: kinds post = [w.counting]
      rw [kinds, hpost, List.map_nil]
    rw [kinds_append, hkinds]

section

variable {σ : Type} {s s' : σ} {rt : Runtime} {request credential : Value} {deadline : Int}
  {counting : Bool} {options : Options} {tr : Trace GatewayAns} {w : Worker}

/-! ## 2. One worker -/

theorem not_asks_converse {maximum : Int} :
    ¬ Asks (converse deadline maximum) s tr (.startWorker w) := by
  intro h
  simp [converse, monotonicMs, communicate, outputSize, readOutput] at h

theorem asks_runWorker
    (h : Asks (runWorker rt request credential deadline counting options) s tr (.startWorker w)) :
    starts tr = [] ∧ w.request = request ∧ w.counting = counting := by
  simp only [runWorker, monotonicMs, openOutput, startWorker, asks_lift_bind, asks_call_bind,
    asks_attempt_bind, asks_call, ends_call, reduceCtorEq, and_false, false_or] at h
  obtain ⟨maximum, -, _, -, _, _, rfl, _, -, _, -, _, -, _, -, _, _, rfl,
    ⟨rfl, hw⟩ | ⟨_, _, r, _, rfl, ⟨rfl, rfl⟩, h⟩⟩ := h
  · obtain rfl := GatewayOp.startWorker.inj hw
    exact ⟨rfl, rfl, rfl⟩
  · cases r with
    | error e => simp [closeOutput] at h
    | ok u =>
      simp only [asks_attempt_bind, not_asks_converse, reap, closeOutput, asks_call_bind,
        not_asks_ofExcept, reduceCtorEq, and_false, false_or, exists_false] at h

theorem boundedResponse_eq_ok {payload result : Bytes} {limit : Int}
    (h : boundedResponse payload limit = .ok result) : result = payload := by
  simp only [boundedResponse, bind_eq_ok] at h
  obtain ⟨_, -, _, -, h⟩ := h
  cases h
  rfl

/-- A finished worker was started once, and its output was read back. -/
theorem ends_runWorker {payload : Bytes}
    (h : Ends (runWorker rt request credential deadline counting options) s tr (.ok payload) s') :
    s' = s ∧ (∃ w, starts tr = [w] ∧ w.request = request ∧ w.counting = counting) ∧
      ∃ n, (⟨.readOutput n, .ok payload⟩ : Event GatewayAns) ∈ tr := by
  simp only [runWorker, monotonicMs, openOutput, startWorker, ends_lift_bind_ok, ends_call_bind_ok,
    ends_attempt_bind, ends_call] at h
  obtain ⟨maximum, -, _, -, _, _, rfl, _, -, _, -, _, -, _, -, _, _, rfl,
    _, _, r, _, rfl, ⟨rfl, rfl⟩, h⟩ := h
  cases r with
  | error e => simp [closeOutput] at h
  | ok u =>
    simp only [converse, monotonicMs, communicate, outputSize, readOutput, ends_attempt_bind, reap,
      closeOutput, ends_call_bind_ok, ends_ofExcept] at h
    obtain ⟨_, _, _, _, rfl, h, _, _, rfl, _, _, rfl, rfl, rfl, rfl⟩ := h
    simp only [ends_call_bind_ok, ends_lift_bind_ok, ends_lift] at h
    obtain ⟨_, _, rfl, _, -, _, _, rfl, _, -, _, _, rfl, _, -, _, _, rfl, rfl, h, rfl⟩ := h
    obtain rfl := boundedResponse_eq_ok h.symm
    exact ⟨rfl, ⟨_, rfl, rfl, rfl⟩, maximum.1 + 1, by simp⟩

end

/-! ## 3. The exchange -/

section

variable {rt : Runtime} {request credential : Value} {options : Options} {b b' : ResponseBudget}
  {tr : Trace GatewayAns} {op : GatewayOp} {w : Worker} {α : Type}

@[simp] theorem ends_ledger_bind_ok {call : ResponseBudget.Call}
    {f : ResponseBudget.Returned → GatewayAct ResponseBudget α} {a : α} :
    Ends (ledger rt call >>= f) b tr (.ok a) b' ↔ ∃ out, (b.step rt call).2 = .ok out ∧
      Ends (f out) (b.step rt call).1 tr (.ok a) b' := by
  rw [ends_bind_ok]
  simp only [Ends, ledger, returns_ret, Prod.mk.injEq]
  constructor
  · rintro ⟨_, _, out, _, rfl, ⟨rfl, hout, rfl⟩, h⟩
    exact ⟨out, hout.symm, h⟩
  · rintro ⟨out, hout, h⟩
    exact ⟨[], tr, out, _, rfl, ⟨rfl, hout.symm, rfl⟩, h⟩

@[simp] theorem asks_ledger_bind {call : ResponseBudget.Call}
    {f : ResponseBudget.Returned → GatewayAct ResponseBudget α} :
    Asks (ledger rt call >>= f) b tr op ↔ ∃ out, (b.step rt call).2 = .ok out ∧
      Asks (f out) (b.step rt call).1 tr op := by
  rw [asks_bind]
  simp only [Ends, Asks, ledger, returns_ret, not_issues_ret, false_or, Prod.mk.injEq]
  constructor
  · rintro ⟨_, _, out, _, rfl, ⟨rfl, hout, rfl⟩, h⟩
    exact ⟨out, hout.symm, h⟩
  · rintro ⟨out, hout, h⟩
    exact ⟨[], tr, out, _, rfl, ⟨rfl, hout.symm, rfl⟩, h⟩

/-- The budget reserved the request: its digest and its normal form. -/
def Reserves (rt : Runtime) (b : ResponseBudget) (request : Value) (nowMs : Int) (digest : PyStr)
    (bounded : Value) (b' : ResponseBudget) : Prop :=
  b.step rt (.reserve request (.int nowMs)) = (b', .ok (.reserved digest bounded))


theorem reload_requestKey {key : PyStr} (h : key ∈ requestKeys) : key.reload = key := by
  have hall : ∀ key ∈ requestKeys, key.reload = key := by decide
  exact hall key h

/-- The normal form of a request streams its response exactly if the request does. -/
theorem streaming_bounded {cap : Int} {digest : PyStr} {bounded : Value}
    (h : b.checkRequest rt request = .ok (digest, bounded, cap)) :
    streaming bounded = streaming request := by
  simp only [ResponseBudget.checkRequest, bind_eq_ok, require_eq_ok] at h
  obtain ⟨_, hdict, _, -, _, -, _, hkeys, _, -, _, -, _, -, _, -, _, -, _, -, _, hstream, _, -, _, -,
    _, -, outputCap, -, _, hbounded, _, -, _, -, _, -, _, -, _, -, h⟩ := h
  cases h
  cases request with
  | dict entries =>
    simp only [boundedRequest, bind_eq_ok] at hbounded
    obtain ⟨_, -, hbounded⟩ := hbounded
    cases hbounded
    have hreload : ∀ e ∈ entries, e.1.reload = e.1 := fun e he =>
      reload_requestKey (hkeys (List.mem_map_of_mem he))
    have hchanges : lookup [(("max_output_tokens" : PyStr), Value.int outputCap.1),
        ("store", .bool false), ("background", .bool false), ("truncation", .str "disabled"),
        ("service_tier", .str "default")] "stream" = none := rfl
    rw [streaming, streaming, Value.getD, Value.getD, Value.find?, Value.find?, lookup_update,
      hchanges, Option.none_or, lookup_filter_ne (by decide), lookup_reload hreload]
    simp only [Value.getD, Value.find?] at hstream
    cases hfind : lookup entries "stream" with
    | none => rfl
    | some v =>
      rw [hfind] at hstream
      cases v with
      | bool _ => rfl
      | _ => cases hstream
  | _ => cases hdict

/-- A reservation: the budget was open, and has one request more. -/
theorem Reserves.spec {nowMs : Int} {digest : PyStr} {bounded : Value}
    (h : Reserves rt b request nowMs digest bounded b') :
    b.failed = false ∧ b.active = none ∧ b.requests.length < b.maxRequests ∧
      streaming bounded = streaming request ∧ ∃ t cap,
      b' = { b with
        lastMs := t, charged := b.charged + cost b.profile b.profile.contextTokens.1 cap,
        requests := b.requests ++ [digest],
        active := some { digest, reserved := cost b.profile b.profile.contextTokens.1 cap,
                         outputCap := cap } } := by
  simp only [Reserves, ResponseBudget.step, ResponseBudget.reserve, ResponseBudget.fail] at h
  split at h
  · next hopen =>
    split at h
    · cases h
    · next b₁ hclock =>
      obtain ⟨t, -, -, -, rfl⟩ := ResponseBudget.clock_eq_ok hclock
      split at h
      · cases h
      · next digest' bounded' cap hcheck =>
        cases h
        obtain ⟨-, hroom, -⟩ := ResponseBudget.checkRequest_eq_ok hcheck
        exact ⟨hopen.1, Option.isNone_iff_eq_none.mp hopen.2, hroom, streaming_bounded hcheck, t, cap,
          rfl⟩
  · cases h

theorem ends_reserve {nowMs : Int} {digest : PyStr} {bounded : Value} :
    Ends (reserve rt request nowMs) b tr (.ok (digest, bounded)) b' ↔
      tr = [] ∧ Reserves rt b request nowMs digest bounded b' := by
  rw [reserve, ends_ledger_bind_ok]
  constructor
  · rintro ⟨out, hout, h⟩
    cases out with
    | reserved digest' bounded' =>
      obtain ⟨rfl, heq, rfl⟩ := ends_pure.mp h
      cases heq
      exact ⟨rfl, Prod.ext rfl hout⟩
    | _ => cases (ends_raise.mp h).2.1
  · rintro ⟨rfl, h⟩
    refine ⟨.reserved digest bounded, by rw [h], ?_⟩
    rw [h]
    exact ends_pure.mpr ⟨rfl, rfl, rfl⟩

theorem not_asks_reserve {nowMs : Int} : ¬ Asks (reserve rt request nowMs) b tr op := by
  intro h
  rw [reserve, asks_ledger_bind] at h
  obtain ⟨out, -, h⟩ := h
  cases out with
  | reserved digest bounded => exact not_asks_pure h
  | _ => exact not_asks_raise h

theorem asks_reserve_bind {nowMs : Int} {f : PyStr × Value → GatewayAct ResponseBudget α} :
    Asks (reserve rt request nowMs >>= f) b tr op ↔ ∃ digest bounded b₁,
      Reserves rt b request nowMs digest bounded b₁ ∧ Asks (f (digest, bounded)) b₁ tr op := by
  rw [asks_bind, or_iff_right not_asks_reserve]
  constructor
  · rintro ⟨_, tr, ⟨digest, bounded⟩, b₁, rfl, h, h'⟩
    obtain ⟨rfl, hreserve⟩ := ends_reserve.mp h
    exact ⟨digest, bounded, b₁, hreserve, h'⟩
  · rintro ⟨digest, bounded, b₁, h, h'⟩
    exact ⟨[], tr, (digest, bounded), b₁, rfl, ends_reserve.mpr ⟨rfl, h⟩, h'⟩

theorem ends_reserve_bind {nowMs : Int} {f : PyStr × Value → GatewayAct ResponseBudget α} {a : α} :
    Ends (reserve rt request nowMs >>= f) b tr (.ok a) b' ↔ ∃ digest bounded b₁,
      Reserves rt b request nowMs digest bounded b₁ ∧ Ends (f (digest, bounded)) b₁ tr (.ok a) b' := by
  rw [ends_bind_ok]
  constructor
  · rintro ⟨_, tr, ⟨digest, bounded⟩, b₁, rfl, h, h'⟩
    obtain ⟨rfl, hreserve⟩ := ends_reserve.mp h
    exact ⟨digest, bounded, b₁, hreserve, h'⟩
  · rintro ⟨digest, bounded, b₁, h, h'⟩
    exact ⟨[], tr, (digest, bounded), b₁, rfl, ends_reserve.mpr ⟨rfl, h⟩, h'⟩

/-- The model's worker gets the normal form of the request, and the provider's count for exactly
that was admitted: the count is what a worker brought back that was sent its count request. -/
def CountAdmitted (rt : Runtime) (request : Value) (tr : Trace GatewayAns) (w : Worker) : Prop :=
  ∃ limits counter payload count digest t t' n, ∃ b₀ b₁ b₂ b₃ : ResponseBudget,
    Reserves rt b₀ request t digest w.request b₁ ∧
    starts tr = [counter] ∧ counter.counting = true ∧
    countRequest rt w.request limits = .ok counter.request ∧
    (⟨.readOutput n, .ok payload⟩ : Event GatewayAns) ∈ tr ∧
    strictJson rt limits payload = .ok count ∧
    b₂.step rt (.admitTokens (.str digest) w.request count (.int t')) = (b₃, .ok .admitted)

/-- Nothing changes if the trace starts earlier, unless a worker does. -/
theorem CountAdmitted.after {pre : Trace GatewayAns} (h : CountAdmitted rt request tr w)
    (hpre : starts pre = []) : CountAdmitted rt request (pre ++ tr) w := by
  obtain ⟨limits, counter, payload, count, digest, t, t', n, b₀, b₁, b₂, b₃, hreserve, hstart,
    hkind, hcount, hread, hjson, hstep⟩ := h
  refine ⟨limits, counter, payload, count, digest, t, t', n, b₀, b₁, b₂, b₃, hreserve, ?_, hkind,
    hcount, List.mem_append_right _ hread, hjson, hstep⟩
  rw [starts_append, hpre, hstart, List.nil_append]

/-- An accepted count changes nothing but the clock and what is admitted. -/
theorem admitTokens_eq_ok {digest request count nowMs : Value} {out : ResponseBudget.Returned}
    (h : (b.step rt (.admitTokens digest request count nowMs)).2 = .ok out) :
    ∃ t d, b.step rt (.admitTokens digest request count nowMs) =
      ({ b with lastMs := t, admitted := some d }, .ok .admitted) := by
  simp only [ResponseBudget.step] at h ⊢
  rcases b.admitTokens_cases rt digest request count nowMs with
    ⟨t, active, -, -, -, -, -, heq⟩ | ⟨_, _, -, heq⟩ <;> rw [heq] at h ⊢
  · exact ⟨t, active.digest, rfl⟩
  · cases h

/-- An accepted response was complete; it leaves the budget idle, with the requests it had. -/
theorem complete_eq_ok {digest response nowMs : Value} {out : ResponseBudget.Returned}
    (hfull : ∀ active, b.active = some active →
      active.reserved = cost b.profile b.profile.contextTokens.1 active.outputCap)
    (h : (b.step rt (.complete digest response nowMs)).2 = .ok out) :
    (response.get "status").isText "completed" = true ∧ (∃ actual, out = .settled actual) ∧
      (b.step rt (.complete digest response nowMs)).1.requests = b.requests ∧
      (b.step rt (.complete digest response nowMs)).1.maxRequests = b.maxRequests := by
  simp only [ResponseBudget.step] at h ⊢
  rcases ResponseBudget.complete_cases digest response nowMs hfull with
    ⟨_, _, _, actual, -, -, -, -, -, -, -, -, hstatus, heq⟩ | ⟨_, _, -, heq⟩ <;> rw [heq] at h ⊢
  · cases h
    exact ⟨hstatus, ⟨actual, rfl⟩, rfl, rfl⟩
  · cases h

theorem asks_exchange (h : Asks (exchange rt request credential options) b tr (.startWorker w)) :
    b.requests.length < b.maxRequests ∧
      (w.counting = true ∧ starts tr = [] ∨
        w.counting = false ∧ kinds tr = [true] ∧ CountAdmitted rt request tr w) := by
  rw [exchange, asks_catching] at h
  rcases h with h | ⟨_, _, _, _, -, -, h⟩
  · simp only [exchangeBody, monotonicMs, asks_call_bind, reduceCtorEq, and_false, false_or,
      asks_reserve_bind, asks_lift_bind, asks_read_bind] at h
    obtain ⟨now, tr, rfl, digest, bounded, b₁, hreserve, maximum, -, counted, hcounted, h⟩ := h
    refine ⟨hreserve.spec.2.2.1, ?_⟩
    rcases asks_bind.mp h with h₁ | ⟨tr₁, tr₂, payload, _, rfl, h₁, h₂⟩
    · obtain ⟨hnone, -, hw⟩ := asks_runWorker h₁
      exact Or.inl ⟨hw, hnone⟩
    obtain ⟨rfl, ⟨counter, hstart, hcounter, hkind⟩, n, hread⟩ := ends_runWorker h₁
    simp only [asks_lift_bind, asks_call_bind, asks_ledger_bind, asks_read_bind, reduceCtorEq,
      and_false, false_or] at h₂
    obtain ⟨_, hbounded, count, hcount, later, tr₂, rfl, out, hout, h₂⟩ := h₂
    obtain rfl := boundedResponse_eq_ok hbounded
    obtain ⟨t, d, hadmitted⟩ := admitTokens_eq_ok hout
    rcases asks_bind.mp h₂ with h₃ | ⟨_, _, _, _, -, -, h₃⟩
    · obtain ⟨hnone, rfl, hw⟩ := asks_runWorker h₃
      have hstarts : starts (⟨.monotonicMs, .ok now⟩ :: (tr₁ ++ ⟨.monotonicMs, .ok later⟩ :: tr₂)) =
          [counter] := by
        simp [hstart, hnone]
      exact Or.inr ⟨hw, by rw [kinds, hstarts, List.map_singleton, hkind], options.limits, counter,
        _, count, digest, now, later, n, b, _, _, _, hreserve, hstarts, hkind,
        hcounter ▸ hcounted, by simp [hread], hcount, hadmitted⟩
    · simp at h₃
  · simp at h

/-- The response that the budget settled: what a worker brought back, streamed or not as the
request asks, and complete. -/
def Settled (rt : Runtime) (request : Value) (options : Options) (tr : Trace GatewayAns)
    (wire : Bytes) (response : Value) : Prop :=
  ∃ digest t n, ∃ b b' : ResponseBudget,
    (⟨.readOutput n, .ok wire⟩ : Event GatewayAns) ∈ tr ∧
    completedResponse rt wire (streaming request) options.limits options.responseByteLimit =
      .ok response ∧
    (response.get "status").isText "completed" = true ∧
    ∃ actual, b.step rt (.complete (.str digest) response (.int t)) = (b', .ok (.settled actual))

theorem Settled.mono {tr' : Trace GatewayAns} {wire : Bytes} {response : Value}
    (h : Settled rt request options tr wire response) (hsub : tr ⊆ tr') :
    Settled rt request options tr' wire response := by
  obtain ⟨digest, t, n, b, b', hread, hrest⟩ := h
  exact ⟨digest, t, n, b, b', hsub hread, hrest⟩

theorem Settled.response {wire : Bytes} {response : Value}
    (h : Settled rt request options tr wire response) :
    completedResponse rt wire (streaming request) options.limits options.responseByteLimit =
      .ok response := by
  obtain ⟨_, _, _, _, _, -, hresponse, -⟩ := h
  exact hresponse

/-- An exchange that returns has started both workers and settled their one request. -/
theorem ends_exchange {wire : Bytes}
    (h : Ends (exchange rt request credential options) b tr (.ok wire) b') :
    b.requests.length < b.maxRequests ∧ kinds tr = [true, false] ∧
      b'.requests.length = b.requests.length + 1 ∧ b'.maxRequests = b.maxRequests ∧
      ∃ response, Settled rt request options tr wire response := by
  rw [exchange, ends_catching] at h
  rcases h with ⟨_, heq, h⟩ | ⟨_, _, _, _, -, -, h⟩
  · cases heq
    simp only [exchangeBody, monotonicMs, ends_call_bind_ok, ends_reserve_bind, ends_lift_bind_ok,
      ends_read_bind] at h
    obtain ⟨now, tr, rfl, digest, bounded, b₁, hreserve, maximum, hmaximum, counted, -, h⟩ := h
    obtain ⟨tr₁, tr₂, payload, b₂, rfl, h₁, h₂⟩ := ends_bind_ok.mp h
    obtain ⟨rfl, ⟨counter, hstart, -, hkind⟩, -⟩ := ends_runWorker h₁
    simp only [ends_lift_bind_ok, ends_call_bind_ok, ends_ledger_bind_ok, ends_read_bind] at h₂
    obtain ⟨_, -, count, -, later, tr₂, rfl, out, hout, h₂⟩ := h₂
    obtain ⟨tr₂, tr₃, _, _, rfl, h₃, h₄⟩ := ends_bind_ok.mp h₂
    obtain ⟨rfl, ⟨w, hmodel, -, hkind'⟩, n, hread⟩ := ends_runWorker h₃
    simp only [ends_lift_bind_ok, ends_call_bind_ok, ends_ledger_bind_ok, ends_pure] at h₄
    obtain ⟨response, hresponse, t, _, rfl, out', hout', rfl, hwire, rfl⟩ := h₄
    cases hwire
    obtain ⟨-, -, hroom, hstreaming, t₁, cap, rfl⟩ := hreserve.spec
    obtain ⟨t₂, d, hadmitted⟩ := admitTokens_eq_ok hout
    obtain ⟨hstatus, ⟨actual, rfl⟩, hrequests, hmax⟩ :=
      complete_eq_ok (by rw [hadmitted]; rintro active ⟨⟩; rfl) hout'
    have hlimit : options.responseByteLimit = maximum.1 := Value.int.inj (integer_eq_ok hmaximum)
    rw [hstreaming, ← hlimit] at hresponse
    refine ⟨hroom, ?_, ?_, ?_, response, digest, t, n, _, _, by simp [hread], hresponse, hstatus,
      actual, Prod.ext rfl hout'⟩
    · simp [kinds, hstart, hkind, hmodel, hkind']
    · rw [hrequests, hadmitted]
      simp
    · rw [hmax, hadmitted]
  · simp at h
end

end Supplementary.Gateway
