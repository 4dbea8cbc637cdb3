/-
# Runs of the admission ledger

Any sequence of `reserve` and `finish` calls, with whatever arguments and with rejected calls
caught and ignored.  `Ledger` relates the log of such a run to the state it ends in; one step
keeps it (`Ledger.step`), so every run has it (`run_ledger`).  The rest is read off the log by
splitting it at the call in question.
-/
import Supplementary.Review.Admission
import Supplementary.Review.Coverage

namespace Supplementary.Review.Admission

open Supplementary Trace

/-! ## 1. What a log shows -/

/-- The ordinal of a `reserve`. -/
def Call.ordinal? : Call → Unit → Option Int
  | .reserve (.int n) _, _ => some n
  | _, _ => none

/-- The clock of a `reserve`. -/
def Call.reservedAt? : Call → Unit → Option Int
  | .reserve _ (.int t), _ => some t
  | _, _ => none

/-- The clock of a `finish`. -/
def Call.finishedAt? : Call → Unit → Option Int
  | .finish (.int t) _ _, _ => some t
  | _, _ => none

/-- The clock of a call. -/
def Call.clock? : Call → Unit → Option Int
  | .reserve _ (.int t), _ | .finish (.int t) _ _, _ => some t
  | _, _ => none

abbrev CallLog := Log Call PyError Unit

/-- How the log of a run from `a₀` and the state `a` it ends in hang together. -/
structure Ledger (a₀ : Admission) (log : CallLog) (a : Admission) : Prop where
  limits : a.limits = a₀.limits
  count : a.count = a₀.count
  started : a.started = a₀.started
  ordinals : accepted Call.ordinal? log = (List.range a.next).map Nat.cast
  next_le : a.next ≤ a.count
  cost : a.reservedCost = a.next * a.limits.perReviewCostMicrousd.1
  cost_le : a.reservedCost ≤ a.limits.maxCostMicrousd.1
  balance : (accepted Call.reservedAt? log).length =
    (accepted Call.finishedAt? log).length + (if a.active = none then 0 else 1)
  active : ∀ t, a.active = some t → (accepted Call.reservedAt? log).getLast? = some t
  last : a.started ≤ a.last
  clocks : (accepted Call.clock? log).Pairwise (· ≤ ·)
  clocks_le : ∀ t ∈ accepted Call.clock? log, a.started ≤ t ∧ t ≤ a.last

/-- A ledger no call has been made on. -/
structure Fresh (a : Admission) : Prop where
  next : a.next = 0
  cost : a.reservedCost = 0
  active : a.active = none
  failed : a.failed = false
  last : a.last = a.started

theorem init_eq_ok {rt : Runtime} {manifest startSeconds : Value} {a : Admission}
    (h : init rt manifest startSeconds = .ok a) :
    a.Fresh ∧ (∃ n, (manifest.item "units" >>= pyLen) = .ok n ∧ a.count = n + 1) ∧
      1 ≤ a.count ∧ startSeconds = .int a.started := by
  simp only [init, bind_eq_ok] at h
  obtain ⟨_, -, _, -, limits, -, start, hstart, _, -, _, -, units, hunits, n, hn, _, -, h⟩ := h
  cases h
  exact ⟨⟨rfl, rfl, rfl, rfl, rfl⟩, ⟨n, by rw [hunits, ok_bind, hn], rfl⟩, by simp,
    integer_eq_ok hstart⟩

theorem Fresh.ledger {a : Admission} (h : a.Fresh) : Ledger a [] a where
  limits := rfl
  count := rfl
  started := rfl
  ordinals := by simp [h.next]
  next_le := by simp [h.next]
  cost := by simp [h.next, h.cost]
  cost_le := by
    have := a.limits.maxCostMicrousd.2.1
    rw [h.cost]
    omega
  balance := by simp [h.active]
  active := by simp [h.active]
  last := h.last.ge
  clocks := List.Pairwise.nil
  clocks_le := by simp

/-! ## 2. One step -/

/-- A clock no earlier than the last one keeps the accepted clocks in order. -/
theorem pairwise_snoc {ts : List Int} {last t : Int} (h : ts.Pairwise (· ≤ ·))
    (hts : ∀ x ∈ ts, x ≤ last) (ht : last ≤ t) : (ts ++ [t]).Pairwise (· ≤ ·) := by
  refine List.pairwise_append.mpr ⟨h, List.pairwise_singleton _ _, fun x hx y hy => ?_⟩
  obtain rfl := List.mem_singleton.mp hy
  exact (hts x hx).trans ht

theorem forall_mem_snoc {ts : List Int} {started last t : Int}
    (h : ∀ x ∈ ts, started ≤ x ∧ x ≤ last) (hstarted : started ≤ last) (ht : last ≤ t) :
    ∀ x ∈ ts ++ [t], started ≤ x ∧ x ≤ t := by
  intro x hx
  rcases List.mem_append.mp hx with hx | hx
  · exact ⟨(h x hx).1, (h x hx).2.trans ht⟩
  · obtain rfl := List.mem_singleton.mp hx
    exact ⟨hstarted.trans ht, le_rfl⟩

/-- A successful `reserve` takes the next ordinal and its cost. -/
theorem Ledger.reserve {a₀ a : Admission} {log : CallLog} {ordinal now : Value} {t : Int}
    (h : Ledger a₀ log a) (ht : a.Reserves ordinal now t) :
    Ledger a₀ (log ++ [(.reserve ordinal now, .ok ())])
      { a with reservedCost := a.reservedCost + a.limits.perReviewCostMicrousd.1,
               active := some t, next := a.next + 1, last := t } := by
  obtain ⟨rfl, rfl, hclock, -, hidle, hroom, hcost, -, -⟩ := ht
  refine ⟨h.limits, h.count, h.started, ?_, hroom, ?_, hcost, ?_, ?_, h.last.trans hclock, ?_, ?_⟩
  · rw [accepted_snoc_ok, h.ordinals, List.range_succ, List.map_append]
    rfl
  · rw [h.cost]
    rw [Int.natCast_succ, Int.add_mul, Int.one_mul]
  · have := h.balance
    rw [if_pos hidle] at this
    simp [accepted_snoc_ok, Call.reservedAt?, Call.finishedAt?, this]
  · intro t' ht'
    cases ht'
    simp [accepted_snoc_ok, Call.reservedAt?]
  · rw [accepted_snoc_ok]
    exact pairwise_snoc h.clocks (fun x hx => (h.clocks_le x hx).2) hclock
  · rw [accepted_snoc_ok]
    exact forall_mem_snoc h.clocks_le h.last hclock

/-- A successful `finish` closes the open review. -/
theorem Ledger.finish {a₀ a : Admission} {log : CallLog} {now cost passed : Value} {t : Int}
    (h : Ledger a₀ log a) (ht : a.Finishes now cost passed t) :
    Ledger a₀ (log ++ [(.finish now cost passed, .ok ())])
      { a with active := none, last := t } := by
  obtain ⟨rfl, hclock, -, -, -, ⟨t₀, hactive, -⟩, -, -⟩ := ht
  refine ⟨h.limits, h.count, h.started, ?_, h.next_le, h.cost, h.cost_le, ?_, ?_,
    h.last.trans hclock, ?_, ?_⟩
  · rw [accepted_snoc_ok, h.ordinals]
    exact List.append_nil _
  · have := h.balance
    rw [if_neg (by simp [hactive])] at this
    simp [accepted_snoc_ok, Call.reservedAt?, Call.finishedAt?, this]
  · intro t' ht'
    cases ht'
  · rw [accepted_snoc_ok]
    exact pairwise_snoc h.clocks (fun x hx => (h.clocks_le x hx).2) hclock
  · rw [accepted_snoc_ok]
    exact forall_mem_snoc h.clocks_le h.last hclock

/-- A rejected call only sets `failed`. -/
theorem Ledger.rejected {a₀ a : Admission} {log : CallLog} {call : Call} {e : PyError}
    (h : Ledger a₀ log a) : Ledger a₀ (log ++ [(call, .error e)]) { a with failed := true } where
  limits := h.limits
  count := h.count
  started := h.started
  ordinals := by simpa using h.ordinals
  next_le := h.next_le
  cost := h.cost
  cost_le := h.cost_le
  balance := by simpa using h.balance
  active := by simpa using h.active
  last := h.last
  clocks := by simpa using h.clocks
  clocks_le := by simpa using h.clocks_le

/-- **One step keeps the ledger.** -/
theorem Ledger.step {a₀ a : Admission} {log : CallLog} (h : Ledger a₀ log a) (call : Call) :
    Ledger a₀ (log ++ [(call, (a.step call).2)]) (a.step call).1 := by
  cases call with
  | reserve ordinal now =>
    simp only [Admission.step]
    rcases a.reserve_cases ordinal now with ⟨t, ht, heq⟩ | ⟨e, heq⟩ <;> rw [heq]
    · exact h.reserve ht
    · exact h.rejected
  | finish now cost passed =>
    simp only [Admission.step]
    rcases a.finish_cases now cost passed with ⟨t, ht, heq⟩ | ⟨e, heq⟩ <;> rw [heq]
    · exact h.finish ht
    · exact h.rejected

/-! ## 3. Every run -/

theorem run_ledger {a₀ a : Admission} {log : CallLog} (hfresh : a₀.Fresh)
    (h : Run step a₀ log a) : Ledger a₀ log a :=
  h.invariant hfresh.ledger fun _ _ call hledger => hledger.step call

/-- What the runs of the ledger of a manifest with `units` units promise. -/
structure Serial (units : Nat) (a₀ : Admission) (log : CallLog) (a : Admission) : Prop where
  cost : a.reservedCost =
      (accepted Call.ordinal? log).length * a₀.limits.perReviewCostMicrousd.1 ∧
    a.reservedCost ≤ a₀.limits.maxCostMicrousd.1
  order : accepted Call.ordinal? log =
    (List.range (accepted Call.ordinal? log).length).map Nat.cast
  count : (accepted Call.ordinal? log).length ≤ units + 1
  single : (accepted Call.reservedAt? log).length ≤ (accepted Call.finishedAt? log).length + 1
  clock : (a₀.started :: accepted Call.clock? log).Pairwise (· ≤ ·)
  deadline : ∀ pre now cost passed post,
    log = pre ++ (.finish now cost passed, .ok ()) :: post →
      ∃ t t₀, now = .int t ∧ t ≤ a₀.started + a₀.limits.maxReviewSeconds.1 ∧
        (accepted Call.reservedAt? pre).getLast? = some t₀ ∧
        t ≤ t₀ + a₀.limits.perReviewSeconds.1
  terminal : ∀ pre entry post, log = pre ++ entry :: post → Rejected entry →
    a.failed = true ∧ ∀ later ∈ post, Rejected later

/-- **The ledger is serial, one-use and fail-closed**, in every run from every manifest it
accepts. -/
theorem admission_serial {rt : Runtime} {manifest startSeconds : Value} {a₀ a : Admission}
    {log : CallLog} (hinit : init rt manifest startSeconds = .ok a₀) (hrun : Run step a₀ log a) :
    ∃ units, (manifest.item "units" >>= pyLen) = .ok units ∧ Serial units a₀ log a := by
  obtain ⟨hfresh, ⟨units, hunits, hcount⟩, -, -⟩ := init_eq_ok hinit
  have h := run_ledger hfresh hrun
  have hlen : (accepted Call.ordinal? log).length = a.next := by
    rw [h.ordinals, List.length_map, List.length_range]
  refine ⟨units, hunits, ⟨?_, ?_⟩, ?_, ?_, ?_, ?_, ?_, ?_⟩
  · rw [h.cost, hlen, h.limits]
  · rw [← h.limits]
    exact h.cost_le
  · rw [hlen, h.ordinals]
  · rw [hlen, ← hcount, ← h.count]
    exact h.next_le
  · rw [h.balance]
    split <;> omega
  · refine List.pairwise_cons.mpr ⟨fun t ht => ?_, h.clocks⟩
    rw [← h.started]
    exact (h.clocks_le t ht).1
  · rintro pre now cost passed post rfl
    obtain ⟨b, hpre, hok, -⟩ := hrun.split
    have hb := run_ledger hfresh hpre
    rcases b.finish_cases now cost passed with ⟨t, ht, -⟩ | ⟨e, heq⟩
    · obtain ⟨t₀, hactive, hone⟩ := ht.active
      refine ⟨t, t₀, ht.now, ?_, hb.active t₀ hactive, ?_⟩
      · rw [← hb.started, ← hb.limits]
        exact ht.total
      · rw [← hb.limits]
        exact hone
    · have hrej : (b.finish now cost passed).2 = .ok () := hok
      rw [heq] at hrej
      cases hrej
  · rintro pre entry post rfl hrej
    obtain ⟨e, he⟩ := hrej
    exact hrun.dead step_dead fun b hb => step_error (hb.trans he)

theorem admission_serial_sample : ∃ a₀ a log,
    init sampleRuntime (.dict [("policy", .dict [("value", policy sampleRuntime)]),
      ("units", .list [.dict []])]) (.int 5) = .ok a₀ ∧ log.length = 2 ∧ Run step a₀ log a ∧
    ∃ units, Serial units a₀ log a := by
  have hok : (init sampleRuntime (.dict [("policy", .dict [("value", policy sampleRuntime)]),
      ("units", .list [.dict []])]) (.int 5)).isOk = true := by decide +kernel
  obtain ⟨a₀, hinit⟩ := exists_of_isOk hok
  have hrun : Run step a₀ _ _ := (Run.nil.snoc (.reserve (.int 0) (.int 7))).snoc
    (.finish (.int 9) (.int 1) (.bool true))
  obtain ⟨units, -, hserial⟩ := admission_serial hinit hrun
  exact ⟨a₀, _, _, hinit, rfl, hrun, units, hserial⟩

end Supplementary.Review.Admission
