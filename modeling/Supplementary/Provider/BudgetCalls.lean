/-
# What one call of the response budget does

Each of the four methods either passes every check and moves the ledger, or raises an error that
its handler catches, so that `failed` is set and only the clock may have moved (`Killed`).  The
check functions are followed once, for what they can raise (`Ordinary`) and for what they have
established when they return; `reserve_cases`, `admitTokens_cases` and `complete_cases` are all
that the run lemmas use.
-/
import Supplementary.Provider.Budget

namespace Supplementary.Provider

open Supplementary Review

/-! ## 1. What the checks raise -/

/-- An error that the handlers catch and that is not the cost overrun. -/
def Ordinary (e : PyError) : Prop :=
  ResponseBudget.Caught e ∧ e ≠ .reviewError "provider-cost-overrun"

theorem ordinary_code {code : String} (h : code ≠ "provider-cost-overrun") :
    Ordinary (.reviewError code) := ⟨rfl, fun he => h (PyError.reviewError.inj he)⟩

theorem ordinary_of_jsonError {e : PyError} (h : JsonError e) : Ordinary e := by
  cases e with
  | valueError m => exact ⟨rfl, nofun⟩
  | typeError => exact ⟨trivial, nofun⟩
  | recursionError => exact ⟨trivial, nofun⟩
  | _ => exact h.elim

theorem canonical_ordinary (rt : Runtime) (value : Value) :
    Raises Ordinary (canonical rt value) := (canonical_raises rt value).mono fun _ =>
  ordinary_of_jsonError

theorem tools_ordinary (levels : Nat) (value : Value) : Raises Ordinary (tools levels value) := by
  induction levels generalizing value with
  | zero => exact raises_error (ordinary_code (by decide))
  | succ levels ih =>
    cases value with
    | list items =>
      refine (raises_require (ordinary_code (by decide))).bind fun _ _ => raises_forM fun tool _ => ?_
      refine (raises_require (ordinary_code (by decide))).bind fun _ _ => ?_
      split
      · exact ih _
      · exact raises_require (ordinary_code (by decide))
    | _ => exact raises_error (ordinary_code (by decide))

theorem messageContent_ordinary (value : Value) : Raises Ordinary (messageContent value) := by
  cases value with
  | str s => exact raises_ok _
  | list parts =>
    refine (raises_require (ordinary_code (by decide))).bind fun _ _ => raises_forM fun part _ => ?_
    exact raises_require (ordinary_code (by decide))
  | _ => exact raises_error (ordinary_code (by decide))

theorem textInput_ordinary (value : Value) : Raises Ordinary (textInput value) := by
  cases value with
  | str s => exact raises_ok _
  | list items =>
    refine (raises_require (ordinary_code (by decide))).bind fun _ _ => raises_forM fun item _ => ?_
    refine (raises_require (ordinary_code (by decide))).bind fun _ _ => ?_
    dsimp only
    split
    · exact messageContent_ordinary _
    · refine (raises_require (ordinary_code (by decide))).bind fun _ _ => ?_
      split
      · exact raises_require (ordinary_code (by decide))
      · exact raises_ok _
  | _ => exact raises_error (ordinary_code (by decide))

theorem clientMetadata_ordinary (rt : Runtime) (value : Option Value) :
    Raises Ordinary (clientMetadata rt value) := by
  rcases value with _ | value
  · exact raises_ok _
  cases value with
  | dict entries =>
    refine (raises_require (ordinary_code (by decide))).bind fun _ _ => ?_
    exact (canonical_ordinary rt _).bind fun _ _ => raises_require (ordinary_code (by decide))
  | _ => exact raises_error (ordinary_code (by decide))

namespace ResponseBudget

theorem clock_ordinary (b : ResponseBudget) (nowMs : Value) : Raises Ordinary (b.clock nowMs) :=
  (raises_integer (ordinary_code (by decide))).bind fun _ _ =>
    (raises_require (ordinary_code (by decide))).bind fun _ _ => raises_ok _

theorem checkRequest_ordinary (rt : Runtime) (b : ResponseBudget) (request : Value) :
    Raises Ordinary (b.checkRequest rt request) := by
  refine (raises_require (ordinary_code (by decide))).bind fun _ _ => ?_
  refine (canonical_ordinary rt _).bind fun _ _ => ?_
  -- ten guards on single fields
  iterate 10 refine (raises_require (ordinary_code (by decide))).bind fun _ _ => ?_
  refine (tools_ordinary _ _).bind fun _ _ => (textInput_ordinary _).bind fun _ _ => ?_
  refine (raises_integer (ordinary_code (by decide))).bind fun _ _ => ?_
  -- the bounded copy
  refine Raises.bind ((clientMetadata_ordinary rt _).bind fun _ _ => raises_ok _) fun _ _ => ?_
  refine (canonical_ordinary rt _).bind fun _ _ => ?_
  iterate 4 refine (raises_require (ordinary_code (by decide))).bind fun _ _ => ?_
  exact raises_ok _

theorem checkCount_ordinary (rt : Runtime) (b : ResponseBudget) (active : Active)
    (digest request count : Value) :
    Raises Ordinary (b.checkCount rt active digest request count) := by
  refine (raises_require (ordinary_code (by decide))).bind fun _ _ => ?_
  refine (canonical_ordinary rt _).bind fun _ _ => ?_
  refine (raises_require (ordinary_code (by decide))).bind fun _ _ => ?_
  refine (raises_require (ordinary_code (by decide))).bind fun _ hkeys => ?_
  obtain ⟨object, hobject⟩ : ∃ v, count.item "object" = .ok v := item_of_keys hkeys (by decide)
  obtain ⟨tokens, htokens⟩ : ∃ v, count.item "input_tokens" = .ok v :=
    item_of_keys hkeys (by decide)
  rw [hobject, ok_bind, htokens]
  refine (raises_require (ordinary_code (by decide))).bind fun _ _ => ?_
  rw [ok_bind]
  exact (raises_integer (ordinary_code (by decide))).bind fun _ _ =>
    raises_require (ordinary_code (by decide))

theorem responseId_ordinary (b : ResponseBudget) (value : Value) :
    Raises Ordinary (b.responseId value) := by
  cases value with
  | str s => exact (raises_require (ordinary_code (by decide))).bind fun _ _ => raises_ok _
  | _ => exact raises_error (ordinary_code (by decide))

/-- **The overrun check cannot fail** on a full reservation: what passed the checks before it is
within the context and the output cap. -/
theorem checkResponse_ordinary {b : ResponseBudget} {active : Active} (digest response : Value)
    (hfull : active.reserved = cost b.profile b.profile.contextTokens.1 active.outputCap) :
    Raises Ordinary (b.checkResponse active digest response) := by
  iterate 6 refine (raises_require (ordinary_code (by decide))).bind fun _ _ => ?_
  refine (responseId_ordinary b _).bind fun _ _ => ?_
  refine (raises_require (ordinary_code (by decide))).bind fun _ _ => ?_
  refine (raises_integer (ordinary_code (by decide))).bind fun inputTokens _ => ?_
  refine (raises_require (ordinary_code (by decide))).bind fun _ _ => ?_
  refine (raises_integer (ordinary_code (by decide))).bind fun outputTokens _ => ?_
  refine (raises_integer (ordinary_code (by decide))).bind fun _ _ => ?_
  refine (raises_require (ordinary_code (by decide))).bind fun _ _ => ?_
  have hinput : inputTokens.1 ≤ b.profile.contextTokens.1 :=
    inputTokens.2.2.trans b.profile.maxInputTokens.2.2
  have hactual : cost b.profile inputTokens.1 outputTokens.1 ≤ active.reserved :=
    hfull ▸ cost_le b.profile hinput outputTokens.2.2
  exact (raises_require_of hactual).bind fun _ _ => raises_ok _

/-! ## 2. What the checks establish -/

theorem clock_eq_ok {b b' : ResponseBudget} {nowMs : Value} (h : b.clock nowMs = .ok b') :
    ∃ t, nowMs = .int t ∧ b.lastMs ≤ t ∧ t < b.deadline ∧ b' = { b with lastMs := t } := by
  simp only [clock, bind_eq_ok, require_eq_ok] at h
  obtain ⟨n, hn, _, hlt, h⟩ := h
  cases h
  exact ⟨n.1, integer_eq_ok hn, n.2.1, hlt, rfl⟩

theorem checkRequest_eq_ok {rt : Runtime} {b : ResponseBudget} {request bounded : Value}
    {digest : PyStr} {outputCap : Int}
    (h : b.checkRequest rt request = .ok (digest, bounded, outputCap)) :
    digest ∉ b.requests ∧ b.requests.length < b.maxRequests ∧ 1 ≤ outputCap ∧
      b.charged + cost b.profile b.profile.contextTokens.1 outputCap ≤ b.limit ∧
      ∃ text, canonical rt bounded = .ok text ∧ digest = rt.sha256 text := by
  simp only [checkRequest, bind_eq_ok, require_eq_ok] at h
  obtain ⟨_, -, _, -, _, -, _, -, _, -, _, -, _, -, _, -, _, -, _, -, _, -, _, -, _, -, _, -, cap, -,
    bounded', -, text, htext, _, -, _, hreplay, _, hbudget, _, hcost, h⟩ := h
  cases h
  exact ⟨hreplay, hbudget, cap.2.1, hcost, text, htext, rfl⟩

theorem checkCount_eq_ok {rt : Runtime} {b : ResponseBudget} {active : Active}
    {digest request count : Value} {u : Unit}
    (h : b.checkCount rt active digest request count = .ok u) :
    digest = .str active.digest ∧ ∃ text, canonical rt request = .ok text ∧
      active.digest = rt.sha256 text := by
  simp only [checkCount, bind_eq_ok, require_eq_ok] at h
  obtain ⟨_, hdigest, text, htext, _, hsha, -⟩ := h
  exact ⟨Value.isText_iff.mp hdigest, text, htext, hsha⟩

theorem checkResponse_eq_ok {b : ResponseBudget} {active : Active} {digest response : Value}
    {identity : PyStr} {actual : Int}
    (h : b.checkResponse active digest response = .ok (identity, actual)) :
    b.admitted = some active.digest ∧ digest = .str active.digest ∧
      response.get "id" = .str identity ∧ identity ∉ b.responses ∧ 0 ≤ actual ∧
      actual ≤ active.reserved ∧ response.isDict = true ∧
      (response.get "status").isText "completed" = true := by
  simp only [checkResponse, bind_eq_ok, require_eq_ok] at h
  obtain ⟨_, hadmitted, _, hdigest, _, hstatus, _, -, _, -, _, -, identity', hid, _, -, i, -, _, -, o,
    -, _, -, _, -, _, hactual, h⟩ := h
  cases h
  have hget : response.get "id" = .str identity ∧ identity ∉ b.responses := by
    unfold responseId at hid
    split at hid
    · next s heq =>
      simp only [bind_eq_ok, require_eq_ok] at hid
      obtain ⟨_, hnew, hid⟩ := hid
      cases hid
      exact ⟨heq, hnew.2.2⟩
    · cases hid
  exact ⟨hadmitted, Value.isText_iff.mp hdigest, hget.1, hget.2, cost_nonneg _ i.2.1 o.2.1, hactual,
    hstatus.1, hstatus.2⟩

/-! ## 3. The calls -/

/-- A rejected call: the error is ordinary, `failed` is set, and nothing but the clock moved. -/
def Killed (b : ResponseBudget) (r : ResponseBudget × Py Returned) : Prop :=
  ∃ t e, Ordinary e ∧ r = ({ b with lastMs := t, failed := true }, .error e)

theorem fail_of_caught {b : ResponseBudget} {e : PyError} (h : Caught e) :
    b.fail e = ({ b with failed := true }, .error e) := by
  rw [fail, if_pos h]

theorem killed_fail {b : ResponseBudget} {e : PyError} (h : Ordinary e) : Killed b (b.fail e) :=
  ⟨b.lastMs, e, h, fail_of_caught h.1⟩

theorem killed_fail_after {b b' : ResponseBudget} {nowMs : Value} {e : PyError}
    (hclock : b.clock nowMs = .ok b') (h : Ordinary e) : Killed b (b'.fail e) := by
  obtain ⟨t, -, -, -, rfl⟩ := clock_eq_ok hclock
  exact ⟨t, e, h, fail_of_caught h.1⟩

/-- A call of `reserve`: it charges a full reservation, or is rejected. -/
theorem reserve_cases (rt : Runtime) (b : ResponseBudget) (request nowMs : Value) :
    (∃ t digest bounded outputCap, b.failed = false ∧ b.active = none ∧ digest ∉ b.requests ∧
      b.requests.length < b.maxRequests ∧ 1 ≤ outputCap ∧
      b.charged + cost b.profile b.profile.contextTokens.1 outputCap ≤ b.limit ∧
      (∃ text, canonical rt bounded = .ok text ∧ digest = rt.sha256 text) ∧
      b.reserve rt request nowMs =
        ({ b with lastMs := t,
                  charged := b.charged + cost b.profile b.profile.contextTokens.1 outputCap,
                  requests := b.requests ++ [digest],
                  active := some
                    { digest, reserved := cost b.profile b.profile.contextTokens.1 outputCap,
                      outputCap } },
          .ok (.reserved digest bounded))) ∨
    Killed b (b.reserve rt request nowMs) := by
  unfold reserve
  split
  · next hopen =>
    split
    · next e he => exact Or.inr (killed_fail (clock_ordinary b nowMs e he))
    · next b' hclock =>
      split
      · next e he =>
        exact Or.inr (killed_fail_after hclock (checkRequest_ordinary rt b' request e he))
      · next digest bounded outputCap hcheck =>
        obtain ⟨t, -, -, -, rfl⟩ := clock_eq_ok hclock
        obtain ⟨hnew, hroom, hcap, hcost, htext⟩ := checkRequest_eq_ok hcheck
        exact Or.inl ⟨t, digest, bounded, outputCap, hopen.1, Option.isNone_iff_eq_none.mp hopen.2,
          hnew, hroom, hcap, hcost, htext, rfl⟩
  · exact Or.inr (killed_fail (ordinary_code (by decide)))

/-- A call of `admit_tokens`: it admits the active request, or is rejected. -/
theorem admitTokens_cases (rt : Runtime) (b : ResponseBudget)
    (digest request count nowMs : Value) :
    (∃ t active, b.failed = false ∧ b.active = some active ∧ b.admitted = none ∧
      digest = .str active.digest ∧
      (∃ text, canonical rt request = .ok text ∧ active.digest = rt.sha256 text) ∧
      b.admitTokens rt digest request count nowMs =
        ({ b with lastMs := t, admitted := some active.digest }, .ok .admitted)) ∨
    Killed b (b.admitTokens rt digest request count nowMs) := by
  unfold admitTokens
  split
  · exact Or.inr (killed_fail (ordinary_code (by decide)))
  · next active hactive =>
    split
    · next hopen =>
      split
      · next e he => exact Or.inr (killed_fail (clock_ordinary b nowMs e he))
      · next b' hclock =>
        split
        · next e he => exact Or.inr (killed_fail_after hclock
            (checkCount_ordinary rt b' active digest request count e he))
        · next hcheck =>
          obtain ⟨t, -, -, -, rfl⟩ := clock_eq_ok hclock
          obtain ⟨hdigest, htext⟩ := checkCount_eq_ok hcheck
          exact Or.inl ⟨t, active, hopen.1, hactive, hopen.2, hdigest, htext, rfl⟩
    · exact Or.inr (killed_fail (ordinary_code (by decide)))

/-- A call of `complete` while the active request holds its full reservation: it settles the
admitted request down to its actual cost, or is rejected. -/
theorem complete_cases {b : ResponseBudget} (digest response nowMs : Value)
    (hfull : ∀ active, b.active = some active →
      active.reserved = cost b.profile b.profile.contextTokens.1 active.outputCap) :
    (∃ t active identity actual, b.failed = false ∧ b.active = some active ∧
      b.admitted = some active.digest ∧ digest = .str active.digest ∧
      response.get "id" = .str identity ∧ identity ∉ b.responses ∧ actual ≤ active.reserved ∧
      response.isDict = true ∧ (response.get "status").isText "completed" = true ∧
      b.complete digest response nowMs =
        ({ b with lastMs := t, charged := b.charged - (active.reserved - actual),
                  responses := b.responses ++ [identity], active := none, admitted := none },
          .ok (.settled actual))) ∨
    Killed b (b.complete digest response nowMs) := by
  unfold complete
  split
  · exact Or.inr (killed_fail (ordinary_code (by decide)))
  · next active hactive =>
    split
    · next hopen =>
      split
      · next e he => exact Or.inr (killed_fail (clock_ordinary b nowMs e he))
      · next b' hclock =>
        obtain ⟨t, -, -, -, rfl⟩ := clock_eq_ok hclock
        split
        · next e he => exact Or.inr (killed_fail_after hclock
            (checkResponse_ordinary digest response (hfull active hactive) e he))
        · next identity actual hcheck =>
          obtain ⟨hadmitted, hdigest, hid, hnew, -, hactual, hdict, hstatus⟩ :=
            checkResponse_eq_ok hcheck
          exact Or.inl ⟨t, active, identity, actual, hopen, hactive, hadmitted, hdigest, hid, hnew,
            hactual, hdict, hstatus, rfl⟩
    · exact Or.inr (killed_fail (ordinary_code (by decide)))

end ResponseBudget

end Supplementary.Provider
