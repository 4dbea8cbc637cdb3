/-
# A reviewer spends one request

A reviewer's calls go through three phases: nothing spent, the one request spent with nothing but
tool calls to show for it, and over.  The budget of one request keeps the second phase from
spending again, the flag `done` the third.  `asks_submit` and `ends_submit_ok` say what one call
does, `Phase.step` that every call keeps the phase, and `reviewer_one_shot` what that means for
all of them.
-/
import Supplementary.Gateway.ExchangeSteps
import Supplementary.Provider.BudgetRuns

namespace Supplementary.Gateway.Reviewer

open Supplementary Review Provider Effects

section

variable {rt : Runtime} {r r' : Reviewer} {tr : Trace GatewayAns} {w : Worker}

/-! ## 1. Ending the review -/

theorem not_asks_writeOnce {σ : Type} {s : σ} {name : String} {value : Value} :
    ¬ Asks (writeOnce rt name value) s tr (.startWorker w) := by
  intro h
  simp [writeOnce] at h

theorem changes_writeOnce {σ : Type} {R : σ → σ → Prop} (hrefl : ∀ s, R s s)
    (htrans : ∀ {s₁ s₂ s₃}, R s₁ s₂ → R s₂ s₃ → R s₁ s₃) (name : String) (value : Value) :
    Changes R (writeOnce rt name value) :=
  (changes_ofExcept hrefl _).bind htrans fun _ => changes_call hrefl _

theorem changes_recordFailure (r : Reviewer) : Changes Eq (recordFailure rt r) := by
  refine (changes_ofExcept (fun _ => rfl) _).bind Eq.trans fun _ => ?_
  exact changes_writeOnce (fun _ => rfl) Eq.trans _ _

theorem not_asks_fail : ¬ Asks (fail rt) r tr (.startWorker w) := by
  intro h
  simp only [fail, recordFailure, asks_read_bind] at h
  split at h
  · exact not_asks_pure h
  · simp only [asks_update_bind, asks_lift_bind] at h
    obtain ⟨_, -, h⟩ := h
    exact not_asks_writeOnce h

/-- However `fail` ends, a review that was over is as it was, and one that was open has failed. -/
theorem ends_fail {result : Py Unit} (h : Ends (fail rt) r tr result r') :
    starts tr = [] ∧ r'.state = r.state ∧
      (r.done = true ∧ r' = r ∨ r.done = false ∧ r'.done = true ∧ r'.failed = true) := by
  refine ⟨(last_start h).resolve_right fun ⟨_, _, _, hissues⟩ => not_asks_fail hissues, ?_⟩
  simp only [fail, ends_read_bind] at h
  split at h
  · next hdone =>
    obtain ⟨-, -, rfl⟩ := ends_pure.mp h
    exact ⟨rfl, Or.inl ⟨hdone, rfl⟩⟩
  · next hopen =>
    rw [ends_update_bind] at h
    obtain rfl := changes_recordFailure r _ _ _ _ h
    exact ⟨rfl, Or.inr ⟨by simpa using hopen, rfl, rfl⟩⟩

/-! ## 2. One submission -/

/-- The flags and the protected state are as before. -/
def SameFlags (r r' : Reviewer) : Prop :=
  r'.done = r.done ∧ r'.failed = r.failed ∧ r'.state = r.state

theorem SameFlags.refl (r : Reviewer) : SameFlags r r := ⟨rfl, rfl, rfl⟩

theorem SameFlags.trans {r₁ r₂ r₃ : Reviewer} (h : SameFlags r₁ r₂) (h' : SameFlags r₂ r₃) :
    SameFlags r₁ r₃ := ⟨h'.1.trans h.1, h'.2.1.trans h.2.1, h'.2.2.trans h.2.2⟩

theorem changes_observed (admission : Option Value) : Changes Eq (observed admission) := by
  cases admission with
  | none => exact changes_call (fun _ => rfl) _
  | some current => exact changes_ofExcept (fun _ => rfl) _

theorem changes_admitRequest (request : Value) (admission : Option Value) :
    Changes Eq (admitRequest rt request admission) := by
  refine (changes_read fun _ => rfl).bind Eq.trans fun r => ?_
  refine (changes_ofExcept (fun _ => rfl) _).bind Eq.trans fun _ => ?_
  refine (changes_call (fun _ => rfl) _).bind Eq.trans fun now => ?_
  iterate 2 refine (changes_ofExcept (fun _ => rfl) _).bind Eq.trans fun _ => ?_
  refine (changes_observed admission).bind Eq.trans fun current => ?_
  iterate 3 refine (changes_ofExcept (fun _ => rfl) _).bind Eq.trans fun _ => ?_
  exact changes_ofExcept (fun _ => rfl) _

theorem not_asks_observed {admission : Option Value} :
    ¬ Asks (observed admission) r tr (.startWorker w) := by
  cases admission <;> simp [observed, memoryContract]

theorem not_asks_admitRequest {request : Value} {admission : Option Value} :
    ¬ Asks (admitRequest rt request admission) r tr (.startWorker w) := by
  intro h
  simp only [admitRequest, monotonicMs, asks_read_bind, asks_lift_bind, asks_call_bind, reduceCtorEq,
    and_false, false_or] at h
  obtain ⟨_, -, _, _, -, _, -, _, -, h⟩ := h
  rcases asks_bind.mp h with h | ⟨_, _, _, _, -, -, h⟩
  · exact not_asks_observed h
  · simp at h

theorem ends_admitRequest {request : Value} {admission : Option Value} {a : Value × Int × Int}
    (h : Ends (admitRequest rt request admission) r tr (.ok a) r') : r.done = false := by
  simp only [admitRequest, ends_read_bind, ends_lift_bind_ok, require_eq_ok] at h
  obtain ⟨_, hopen, -⟩ := h
  exact hopen

theorem starts_admitRequest {request : Value} {admission : Option Value} {result}
    (h : Ends (admitRequest rt request admission) r tr result r') : starts tr = [] :=
  (last_start h).resolve_right fun ⟨_, _, _, hissues⟩ => not_asks_admitRequest hissues

theorem changes_openBudget (current : Value) (a b c : Int) :
    Changes SameFlags (openBudget rt current a b c) := by
  refine (changes_read .refl).bind .trans fun r => ?_
  split
  · exact changes_ofExcept .refl _
  · refine (changes_update fun _ => ⟨rfl, rfl, rfl⟩).bind .trans fun _ => ?_
    refine (changes_call .refl _).bind .trans fun started => ?_
    refine (changes_update fun _ => ⟨rfl, rfl, rfl⟩).bind .trans fun _ => ?_
    refine (changes_ofExcept .refl _).bind .trans fun p => ?_
    refine (changes_ofExcept .refl _).bind .trans fun budget => ?_
    exact changes_update fun _ => ⟨rfl, rfl, rfl⟩

theorem changes_onBudget {α : Type} (x : GatewayAct ResponseBudget α) :
    Changes SameFlags (onBudget x) := by
  intro r tr result r' h
  simp only [Ends, onBudget] at h
  split at h
  · obtain ⟨-, h⟩ := returns_ret.mp h
    cases h
    exact .refl _
  · obtain ⟨_, _, a, -, -, h⟩ := returns_bind.mp h
    obtain ⟨-, h⟩ := returns_ret.mp h
    cases h
    exact ⟨rfl, rfl, rfl⟩

/-- The packet and the metadata have equal values under a key. -/
def Agree (packet metadata : Value) (key : PyStr) : Prop :=
  ∃ v v', packet.item key = .ok v ∧ metadata.item key = .ok v' ∧ v.pyEq v' = true

theorem validateResult_agrees {packet metadata : Value}
    (h : validateResult packet metadata = .ok ()) : ∀ key ∈ bindings, Agree packet metadata key := by
  simp only [validateResult, bind_eq_ok, forM_eq_ok] at h
  obtain ⟨_, -, _, hbindings, -⟩ := h
  intro key hkey
  have hsame := hbindings key hkey
  simp only [sameBinding, bind_eq_ok, require_eq_ok] at hsame
  obtain ⟨v, hv, v', hv', heq⟩ := hsame
  exact ⟨v, v', hv, hv', heq⟩

theorem changes_writeReceipt (packet : Value) : Changes Eq (writeReceipt rt packet) := by
  refine (changes_read fun _ => rfl).bind Eq.trans fun r => ?_
  iterate 5 refine (changes_ofExcept (fun _ => rfl) _).bind Eq.trans fun _ => ?_
  refine (changes_call (fun _ => rfl) _).bind Eq.trans fun now => ?_
  exact changes_writeOnce (fun _ => rfl) Eq.trans _ _

theorem not_asks_writeReceipt {packet : Value} :
    ¬ Asks (writeReceipt rt packet) r tr (.startWorker w) := by
  intro h
  simp [writeReceipt, monotonicMs, writeOnce] at h

/-- A receipt is written for a packet that agrees with the protected metadata. -/
theorem ends_writeReceipt {packet : Value} (h : Ends (writeReceipt rt packet) r tr (.ok ()) r') :
    starts tr = [] ∧ ∃ metadata, r.state.item "metadata" = .ok metadata ∧
      ∀ key ∈ bindings, Agree packet metadata key := by
  refine ⟨(last_start h).resolve_right fun ⟨_, _, _, hissues⟩ => not_asks_writeReceipt hissues, ?_⟩
  simp only [writeReceipt, ends_read_bind, ends_lift_bind_ok] at h
  obtain ⟨metadata, hmetadata, _, hvalid, -⟩ := h
  exact ⟨metadata, hmetadata, validateResult_agrees hvalid⟩

theorem not_asks_openBudget {current : Value} {a b c : Int} :
    ¬ Asks (openBudget rt current a b c) r tr (.startWorker w) := by
  intro h
  simp only [openBudget, asks_read_bind] at h
  split at h
  · exact not_asks_pure h
  · simp [monotonicMs] at h

/-- A new budget has room for one request; one that is there stays. -/
theorem ends_openBudget {current : Value} {a b c : Int}
    (h : Ends (openBudget rt current a b c) r tr (.ok ()) r') :
    starts tr = [] ∧ ∃ budget, r'.budget = some budget ∧
      (r.budget = some budget ∨
        r.budget = none ∧ budget.requests = [] ∧ budget.maxRequests = 1) := by
  refine ⟨(last_start h).resolve_right fun ⟨_, _, _, hissues⟩ => not_asks_openBudget hissues, ?_⟩
  simp only [openBudget, ends_read_bind] at h
  split at h
  · next hsome =>
    obtain ⟨-, -, rfl⟩ := ends_pure.mp h
    obtain ⟨budget, hbudget⟩ := Option.isSome_iff_exists.mp hsome
    exact ⟨budget, hbudget, Or.inl hbudget⟩
  · next hnone =>
    simp only [monotonicMs, ends_update_bind, ends_call_bind_ok, ends_lift_bind_ok, ends_update] at h
    obtain ⟨started, _, -, profile, -, budget, hinit, -, -, rfl⟩ := h
    obtain ⟨hfresh, -, hmax⟩ := ResponseBudget.init_eq_ok hinit
    exact ⟨budget, rfl, Or.inr ⟨by simpa using hnone, hfresh.requests, (Value.int.inj hmax).symm⟩⟩

theorem asks_onBudget {α : Type} {x : GatewayAct ResponseBudget α} {op : GatewayOp} :
    Asks (onBudget x) r tr op ↔ ∃ b, r.budget = some b ∧ Asks x b tr op := by
  simp only [Asks, onBudget]
  split
  · next hnone => simp [hnone]
  · next b hbudget => simp [hbudget, issues_bind]

theorem ends_onBudget {α : Type} {x : GatewayAct ResponseBudget α} {a : α} :
    Ends (onBudget x) r tr (.ok a) r' ↔ ∃ b b', r.budget = some b ∧ Ends x b tr (.ok a) b' ∧
      r' = { r with budget := some b' } := by
  simp only [Ends, onBudget]
  split
  · next hnone => simp [hnone]
  · next b hbudget =>
    simp only [returns_bind, returns_ret, hbudget, Option.some.injEq]
    constructor
    · rintro ⟨tr₁, _, ⟨result, b'⟩, rfl, h, rfl, heq⟩
      cases heq
      exact ⟨b, b', rfl, by rwa [List.append_nil], rfl⟩
    · rintro ⟨_, b', rfl, h, rfl⟩
      exact ⟨tr, [], (.ok a, b'), by rw [List.append_nil], h, rfl, rfl⟩

variable {request credential : Value} {admission : Option Value}

/-- A budget that can still make a request. -/
def HasRoom (r : Reviewer) : Prop := ∀ b, r.budget = some b → b.requests.length < b.maxRequests

theorem HasRoom.of_open {budget : ResponseBudget} (h : budget.requests.length < budget.maxRequests)
    (hopen : r.budget = some budget ∨
      r.budget = none ∧ budget.requests = [] ∧ budget.maxRequests = 1) : HasRoom r := by
  intro b hb
  rcases hopen with hsome | ⟨hnone, -⟩
  · obtain rfl := Option.some.inj (hb.symm.trans hsome)
    exact h
  · rw [hb] at hnone
    cases hnone

/-- A submission starts a worker only on an open review whose budget has room, the count before
the model, and the model's only once its count is admitted. -/
theorem asks_submit (h : Asks (submit rt request credential admission) r tr (.startWorker w)) :
    r.done = false ∧ HasRoom r ∧
      (w.counting = true ∧ kinds tr = [] ∨
        w.counting = false ∧ kinds tr = [true] ∧ CountAdmitted rt request tr w) := by
  rw [submit, asks_catching] at h
  rcases h with h | ⟨_, _, _, _, -, -, h⟩
  · rw [submitBody] at h
    rcases asks_bind.mp h with h | ⟨tr₁, tr₂, ⟨current, wireLimit, nodeLimit⟩, _, rfl, h₁, h₂⟩
    · exact absurd h not_asks_admitRequest
    obtain rfl := changes_admitRequest _ _ _ _ _ _ h₁
    have hstart₁ := starts_admitRequest h₁
    dsimp only at h₂
    rcases asks_bind.mp h₂ with h₂ | ⟨tr₂, tr₃, _, r₂, rfl, h₂, h₃⟩
    · exact absurd h₂ not_asks_openBudget
    obtain ⟨hstart₂, budget, hbudget, hopen⟩ := ends_openBudget h₂
    simp only [asks_lift_bind] at h₃
    obtain ⟨envelope, -, h₃⟩ := h₃
    rcases asks_bind.mp h₃ with h₃ | ⟨_, _, _, _, -, -, h₃⟩
    · obtain ⟨b, hb, h₃⟩ := asks_onBudget.mp h₃
      obtain rfl := Option.some.inj (hb.symm.trans hbudget)
      obtain ⟨hroom, hkind⟩ := asks_exchange h₃
      have hnone : starts (tr₁ ++ tr₂) = [] := by rw [starts_append, hstart₁, hstart₂]; rfl
      refine ⟨ends_admitRequest h₁, .of_open hroom hopen, ?_⟩
      rw [← List.append_assoc, kinds_append, kinds, hnone, List.map_nil, List.nil_append]
      rcases hkind with ⟨hw, hstart⟩ | ⟨hw, hkind, hadmitted⟩
      · exact Or.inl ⟨hw, by rw [kinds, hstart, List.map_nil]⟩
      · exact Or.inr ⟨hw, hkind, hadmitted.after hnone⟩
    · simp only [asks_lift_bind] at h₃
      obtain ⟨_, -, _, -, h₃⟩ := h₃
      split at h₃
      · exact absurd h₃ not_asks_pure
      · rcases asks_bind.mp h₃ with h₃ | ⟨_, _, _, _, -, -, h₃⟩
        · exact absurd h₃ not_asks_writeReceipt
        · simp at h₃
  · rcases asks_bind.mp h with h | ⟨_, _, _, _, -, -, h⟩
    · exact absurd h not_asks_fail
    · exact absurd h not_asks_raise

/-- The packet of a settled response agrees with the protected metadata in all six bindings. -/
def Approves (rt : Runtime) (state request : Value) (tr : Trace GatewayAns) (wire : Bytes) : Prop :=
  ∃ options response packet metadata, Settled rt request options tr wire response ∧
    finalPacket rt response options.limits = .ok packet ∧ state.item "metadata" = .ok metadata ∧
    ∀ key ∈ bindings, Agree packet metadata key

theorem ends_submit_ok {wire : Bytes}
    (h : Ends (submit rt request credential admission) r tr (.ok wire) r') :
    r.done = false ∧ HasRoom r ∧ kinds tr = [true, false] ∧ r'.failed = r.failed ∧
      r'.state = r.state ∧ (r.budget = none → ¬ HasRoom r') ∧
      (r'.done = true → Approves rt r.state request tr wire) := by
  rw [submit, ends_catching] at h
  rcases h with ⟨_, heq, h⟩ | ⟨_, _, _, _, -, -, h⟩
  · cases heq
    rw [submitBody] at h
    obtain ⟨tr₁, tr₂, ⟨current, wireLimit, nodeLimit⟩, _, rfl, h₁, h₂⟩ := ends_bind_ok.mp h
    obtain rfl := changes_admitRequest _ _ _ _ _ _ h₁
    have hstart₁ := starts_admitRequest h₁
    dsimp only at h₂
    obtain ⟨tr₂, tr₃, _, r₂, rfl, h₂, h₃⟩ := ends_bind_ok.mp h₂
    obtain ⟨hstart₂, budget, hbudget, hopen⟩ := ends_openBudget h₂
    obtain ⟨hdone, hfailed, hstate⟩ := changes_openBudget _ _ _ _ _ _ _ _ h₂
    simp only [ends_lift_bind_ok] at h₃
    obtain ⟨envelope, -, h₃⟩ := h₃
    obtain ⟨tr₃, tr₄, wire', _, rfl, h₃, h₄⟩ := ends_bind_ok.mp h₃
    obtain ⟨b, b', hb, h₃', rfl⟩ := ends_onBudget.mp h₃
    obtain rfl := Option.some.inj (hb.symm.trans hbudget)
    obtain ⟨hroom, hkinds, hlength, hmax, response, hsettled⟩ := ends_exchange h₃'
    have hkinds' : ∀ tr₅, starts tr₅ = [] → kinds (tr₁ ++ (tr₂ ++ (tr₃ ++ tr₅))) = [true, false] := by
      intro tr₅ hnone
      simp [kinds, hstart₁, hstart₂, hnone, ← hkinds]
    have hfull : r.budget = none → ∀ b'', b'' = b' → ¬ b''.requests.length < b''.maxRequests := by
      rintro hnone _ rfl
      rcases hopen with hsome | ⟨-, hempty, hone⟩
      · rw [hnone] at hsome
        cases hsome
      · rw [hlength, hmax, hempty, hone]
        decide
    simp only [ends_lift_bind_ok] at h₄
    obtain ⟨response', hresponse, packet, hpacket, h₄⟩ := h₄
    split at h₄
    · obtain ⟨rfl, hwire, rfl⟩ := ends_pure.mp h₄
      refine ⟨ends_admitRequest h₁, .of_open hroom hopen, hkinds' _ rfl, hfailed, hstate,
        fun hnone hroom' => hfull hnone _ rfl (hroom' b' rfl), fun hdone' => ?_⟩
      rw [hdone, ends_admitRequest h₁] at hdone'
      cases hdone'
    · obtain ⟨tr₄, tr₅, _, r₄, rfl, h₆, h₅⟩ := ends_bind_ok.mp h₄
      rw [ends_update_bind] at h₅
      obtain ⟨rfl, hwire, rfl⟩ := ends_pure.mp h₅
      cases hwire
      obtain ⟨hnone, metadata, hmetadata, hbindings⟩ := ends_writeReceipt h₆
      obtain rfl := changes_writeReceipt _ _ _ _ _ h₆
      refine ⟨ends_admitRequest h₁, .of_open hroom hopen, hkinds' _ (by simpa using hnone), hfailed,
        hstate, fun hnone hroom' => hfull hnone _ rfl (hroom' b' rfl), fun _ => ?_⟩
      obtain rfl := Except.ok.inj (hsettled.response.symm.trans hresponse)
      have hsub : tr₃ ⊆ tr₁ ++ (tr₂ ++ (tr₃ ++ (tr₄ ++ []))) := by
        intro e he
        simp [he]
      exact ⟨_, _, packet, metadata, hsettled.mono hsub, hpacket, hstate ▸ hmetadata, hbindings⟩
  · rcases ends_bind_ok.mp h with ⟨_, _, _, _, -, -, h⟩
    cases (ends_raise.mp h).2.1

/-- A body that raises has not ended the review. -/
theorem raisesWith_submitBody (request credential : Value) (admission : Option Value) :
    RaisesWith SameFlags (submitBody rt request credential admission) := by
  refine .bind .trans (fun s tr r s' h => ?_) fun ⟨current, wireLimit, nodeLimit⟩ => ?_
  · obtain rfl := changes_admitRequest request admission s tr r s' h
    exact .refl _
  refine .bind .trans (changes_openBudget _ _ _ _) fun _ => ?_
  refine .bind .trans (changes_ofExcept .refl _) fun envelope => ?_
  refine .bind .trans (changes_onBudget _) fun wire => ?_
  iterate 2 refine .bind .trans (changes_ofExcept .refl _) fun _ => ?_
  split
  · exact (changes_ofExcept .refl _).raisesWith
  · refine .bind .trans (fun s tr r s' h => ?_) fun _ => ?_
    · obtain rfl := changes_writeReceipt _ s tr r s' h
      exact .refl _
    · intro s tr e s' h
      rw [ends_update_bind] at h
      cases (ends_pure.mp h).2.1

/-- Nothing happens to a review that is over. -/
theorem raises_done {e : PyError} (hdone : r.done = true)
    (h : Ends (submitBody rt request credential admission) r tr (.error e) r') : r' = r := by
  rw [submitBody] at h
  rcases ends_bind.mp h with ⟨_, -, h⟩ | ⟨_, _, _, _, -, h, -⟩
  · exact (changes_admitRequest _ _ _ _ _ _ h).symm
  · rw [ends_admitRequest h] at hdone
    cases hdone

/-- A submission that raises on an ended review leaves it alone; an open one has failed. -/
theorem ends_submit_error {e : PyError}
    (h : Ends (submit rt request credential admission) r tr (.error e) r') :
    r'.state = r.state ∧
      (r.done = true ∧ r' = r ∨ r.done = false ∧ r'.done = true ∧ r'.failed = true) := by
  rw [submit, ends_catching] at h
  rcases h with ⟨_, heq, -⟩ | ⟨tr₁, tr₂, e', r₁, rfl, h, h'⟩
  · cases heq
  have hflags := raisesWith_submitBody _ _ _ _ _ _ _ h
  have hfail : ∃ tr₃ result, Ends (fail rt) r₁ tr₃ result r' := by
    rcases ends_bind.mp h' with ⟨_, -, h'⟩ | ⟨tr₃, _, _, _, rfl, h', h''⟩
    · exact ⟨_, _, h'⟩
    · obtain ⟨rfl, -, rfl⟩ := ends_raise.mp h''
      exact ⟨_, _, h'⟩
  obtain ⟨_, _, hfail⟩ := hfail
  obtain ⟨-, hstate, hends⟩ := ends_fail hfail
  refine ⟨hstate.trans hflags.2.2, ?_⟩
  rcases hends with ⟨hdone, rfl⟩ | ⟨hopen, hdone, hfailed⟩
  · have hdone' := hflags.1 ▸ hdone
    exact Or.inl ⟨hdone', raises_done hdone' h⟩
  · exact Or.inr ⟨hflags.1 ▸ hopen, hdone, hfailed⟩

/-- What a submission starts: nothing, the count, or the count and the model. -/
theorem kinds_submit {result : Py Bytes}
    (h : Ends (submit rt request credential admission) r tr result r') :
    kinds tr = [] ∨ r.done = false ∧ HasRoom r ∧ kinds tr <+: [true, false] := by
  rcases last_start h with hnone | ⟨pre, w, hkinds, hissues⟩
  · exact Or.inl (by rw [kinds, hnone, List.map_nil])
  · obtain ⟨hopen, hroom, ⟨hw, hpre⟩ | ⟨hw, hpre, -⟩⟩ := asks_submit hissues
    · exact Or.inr ⟨hopen, hroom, by rw [hkinds, hpre, hw]; decide⟩
    · exact Or.inr ⟨hopen, hroom, by rw [hkinds, hpre, hw]; decide⟩

end

/-! ## 3. A sequence of calls -/

section

variable {rt : Runtime} {state : Value} {r₀ r : Reviewer} {tr : Trace GatewayAns} {w : Worker}

/-- The finished calls on a reviewer. -/
abbrev Calls := Log GatewayAns PyError Call (Option Bytes)

/-- What the workers of the finished calls were for. -/
def spending (log : Calls) : List Bool := log.flatMap fun e => kinds e.2.1

@[simp] theorem spending_append (log : Calls) (c : Call) (tr : Trace GatewayAns)
    (result : Py (Option Bytes)) : spending (log ++ [(c, tr, result)]) = spending log ++ kinds tr := by
  simp [spending]

/-- No call was `fail` or raised. -/
def Smooth (log : Calls) : Prop :=
  ∀ e ∈ log, (∃ request credential admission, e.1 = .submit request credential admission) ∧
    ∃ wire, e.2.2 = .ok wire

/-- A call brought a packet that agrees with the protected state. -/
def Approved (rt : Runtime) (state : Value) (log : Calls) : Prop :=
  ∃ request credential admission tr wire,
    (.submit request credential admission, tr, .ok (some wire)) ∈ log ∧
      Approves rt state request tr wire

/-- Where a review stands: nothing spent; its one request spent, with nothing but tool calls to
show for it; or over. -/
inductive Phase (rt : Runtime) (log : Calls) (r : Reviewer) : Prop
  | fresh (hbudget : r.budget = none) (hopen : r.done = false) (hfailed : r.failed = false)
      (hsmooth : Smooth log) (hspent : spending log = [])
  | spent (hroom : ¬ HasRoom r) (hopen : r.done = false) (hfailed : r.failed = false)
      (hsmooth : Smooth log) (hspent : spending log = [true, false])
  | closed (hdone : r.done = true) (happroved : r.failed = false → Approved rt r.state log)
      (hspent : spending log <+: [true, false])

theorem Smooth.snoc {log : Calls} (h : Smooth log) {request credential : Value}
    {admission : Option Value} {wire : Option Bytes} :
    Smooth (log ++ [(.submit request credential admission, tr, .ok wire)]) := by
  intro e he
  rcases List.mem_append.mp he with he | he
  · exact h e he
  · obtain rfl := List.mem_singleton.mp he
    exact ⟨⟨_, _, _, rfl⟩, _, rfl⟩

theorem Approved.snoc {log : Calls} (h : Approved rt state log) (e) :
    Approved rt state (log ++ [e]) := by
  obtain ⟨request, credential, admission, tr, wire, hmem, happroves⟩ := h
  exact ⟨request, credential, admission, tr, wire, List.mem_append_left _ hmem, happroves⟩

theorem Phase.spent_prefix {log : Calls} (h : Phase rt log r) : spending log <+: [true, false] := by
  cases h with
  | fresh _ _ _ _ hspent => rw [hspent]; decide
  | spent _ _ _ _ hspent => rw [hspent]
  | closed _ _ hspent => exact hspent

/-- An open review with room in its budget has spent nothing. -/
theorem Phase.of_room {log : Calls} (h : Phase rt log r) (hopen : r.done = false)
    (hroom : HasRoom r) : r.budget = none ∧ r.failed = false ∧ Smooth log ∧ spending log = [] := by
  cases h with
  | fresh hbudget _ hfailed hsmooth hspent => exact ⟨hbudget, hfailed, hsmooth, hspent⟩
  | spent hnoroom => exact absurd hroom hnoroom
  | closed hdone => rw [hopen] at hdone; cases hdone

/-- What a call that did not approve anything leaves: it was over before, or it is over now. -/
theorem Phase.ended {log : Calls} {r' : Reviewer} {e} (h : Phase rt log r)
    (hspent : spending (log ++ [e]) <+: [true, false])
    (hends : r.done = true ∧ r' = r ∨ r.done = false ∧ r'.done = true ∧ r'.failed = true) :
    Phase rt (log ++ [e]) r' := by
  rcases hends with ⟨hdone, rfl⟩ | ⟨-, hdone, hfailed⟩
  · cases h with
    | closed _ happroved => exact .closed hdone (fun hfailed => (happroved hfailed).snoc e) hspent
    | fresh _ hopen => rw [hopen] at hdone; cases hdone
    | spent _ hopen => rw [hopen] at hdone; cases hdone
  · exact .closed hdone (fun hnot => by rw [hfailed] at hnot; cases hnot) hspent

/-- Every call keeps the phase. -/
theorem Phase.step {log : Calls} {c : Call} {result : Py (Option Bytes)} {r' : Reviewer}
    (h : Phase rt log r) (hends : Ends (call rt c) r tr result r') :
    Phase rt (log ++ [(c, tr, result)]) r' ∧ r'.state = r.state := by
  cases c with
  | fail =>
    have hfail : ∃ result, Ends (fail rt) r tr result r' := by
      rcases ends_bind.mp hends with ⟨_, -, hends⟩ | ⟨tr₁, _, _, _, rfl, hends, hpure⟩
      · exact ⟨_, hends⟩
      · obtain ⟨rfl, -, rfl⟩ := ends_pure.mp hpure
        exact ⟨_, by rwa [List.append_nil]⟩
    obtain ⟨_, hfail⟩ := hfail
    obtain ⟨hnone, hstate, hends⟩ := ends_fail hfail
    refine ⟨h.ended ?_ hends, hstate⟩
    rw [spending_append, kinds, hnone, List.map_nil, List.append_nil]
    exact h.spent_prefix
  | submit request credential admission =>
    rcases ends_bind.mp hends with ⟨e, rfl, hsubmit⟩ | ⟨tr₁, _, wire, _, rfl, hsubmit, hpure⟩
    · obtain ⟨hstate, hends⟩ := ends_submit_error hsubmit
      refine ⟨h.ended ?_ hends, hstate⟩
      rw [spending_append]
      rcases kinds_submit hsubmit with hnone | ⟨hopen, hroom, hkinds⟩
      · rw [hnone, List.append_nil]
        exact h.spent_prefix
      · rw [(h.of_room hopen hroom).2.2.2]
        exact hkinds
    · obtain ⟨rfl, rfl, rfl⟩ := ends_pure.mp hpure
      obtain ⟨hopen, hroom, hkinds, hfailed, hstate, hroom', happroves⟩ := ends_submit_ok hsubmit
      obtain ⟨hbudget, hsound, hsmooth, hspent⟩ := h.of_room hopen hroom
      have hspent' (c) : spending (log ++ [(c, tr₁, .ok (some wire))]) = [true, false] := by
        rw [spending_append, hspent, hkinds, List.nil_append]
      rw [List.append_nil]
      refine ⟨?_, hstate⟩
      by_cases hdone : r'.done = true
      · refine .closed hdone (fun _ => ?_) (by rw [hspent'])
        exact ⟨request, credential, admission, tr₁, wire, by simp, hstate ▸ happroves hdone⟩
      · exact .spent (hroom' hbudget) (by simpa using hdone) (hfailed.trans hsound) hsmooth.snoc
          (hspent' _)

/-- The invariant of a reviewer's calls. -/
theorem phase_of_session {log : Calls} {prompt : PyStr} {monotonicMs unixMs : Int}
    (hinit : init state prompt monotonicMs unixMs = .ok r₀) (h : Session (call rt) r₀ log r) :
    Phase rt log r ∧ r.state = state := by
  refine h.invariant (I := fun log r => Phase rt log r ∧ r.state = state) ?_ ?_
  · simp only [init, bind_eq_ok] at hinit
    obtain ⟨expires, -, hinit⟩ := hinit
    cases expires with
    | int expires =>
      cases hinit
      exact ⟨.fresh rfl rfl rfl (fun _ he => nomatch he) rfl, rfl⟩
    | _ => cases hinit
  · rintro log r c tr result r' ⟨hphase, hstate⟩ hends
    obtain ⟨hphase', hstate'⟩ := hphase.step hends
    exact ⟨hphase', hstate'.trans hstate⟩

end

/-! ## 4. A review that approves -/

/-- A protected state with room for small requests. -/
def sampleState : Value := .dict [
  ("expires_unix_ms", .int 1000),
  ("resource_contract", .dict [("version", .str resourcesVersion),
    ("working_set_multiplier", .int copies), ("max_json_nodes", .int 1000),
    ("node_bytes", .int nodeBytes), ("envelope_nodes", .int envelopeNodes),
    ("max_json_depth", .int maxJsonDepth), ("max_wire_bytes", .int 4000),
    ("reserved_bytes", .int (4000 * copies + (1000 + envelopeNodes) * nodeBytes))]),
  ("metadata", .dict (bindings.map fun key => (key, .str "a")))]

/-- The prompt, as the only input. -/
def sampleRequest : Value :=
  .dict [("model", .str "gpt-5.4-mini-2026-03-17"), ("input", .str "Review.")]

/-- The canonical bytes of a value. -/
def encoded (value : Value) : Bytes := (canonical sampleRuntime value).toOption.getD []

def samplePacket : Value := .dict
  (("verdict", .str "PASS") :: ("summary", .str "Fine.") :: ("findings", .list []) ::
    bindings.map fun key => (key, .str "a"))

def sampleCount : Value := .dict [("object", .str "response.input_tokens"), ("input_tokens", .int 9)]

/-- A completed response whose only message is the packet. -/
def sampleResponse : Value := .dict [("id", .str "r"), ("status", .str "completed"),
  ("model", .str "gpt-5.4-mini-2026-03-17"),
  ("usage", .dict [("input_tokens", .int 9), ("output_tokens", .int 9), ("total_tokens", .int 18)]),
  ("output", .list [.dict [("type", .str "message"), ("role", .str "assistant"),
    ("status", .str "completed"), ("content", .list [.dict [("type", .str "output_text"),
      ("text", .str ⟨(encoded samplePacket).map UInt8.toNat⟩)]])]])]

/-- An environment where nothing fails and the clocks stand still: the first worker brings the
count, the second the response. -/
def sampleOracle (i : Nat) : (op : GatewayOp) → GatewayAns op
  | .monotonicMs | .communicate _ => .ok 0
  | .outputSize => .ok 100
  | .readOutput _ =>
    .ok (if i < 12 then encoded sampleCount else encoded sampleResponse)
  | .memoryContract => .ok .none
  | .openOutput | .startWorker _ | .reap | .closeOutput | .writeOnce _ _ => .ok ()

/-- The reviewer of the sample, before any call. -/
def sampleReviewer : Reviewer :=
  { state := sampleState, prompt := "Review.", startupDeadline := 1000 }

def sampleCall : Call :=
  .submit sampleRequest (.str "secret") (sampleState.item "resource_contract").toOption

end Supplementary.Gateway.Reviewer
