/-
# Aggregating the reviews of a plan

`aggregate` re-plans from the protected inputs, compares the manifest and the chunks it was
handed with that plan, asks the admission ledger whether every review was admitted and finished,
and validates the reviews.

The ledger's half of that is where two separately written budget checks must agree: `plan`
multiplies (`admitReviews`), `Admission` adds up and compares absolute deadlines.
`Admission.Ready` is what holds between two reviews of a back-to-back run; `backToBack_run` is
the induction over the reviews that are left.
-/
import Supplementary.Review.AdmissionRuns

namespace Supplementary.Review

open Supplementary Trace

/-! ## 1. Verification -/

/-- The loop over `zip(chunks, expected_chunks, strict=True)`, after the lengths were compared. -/
def sameChunks : List Bytes → List Bytes → Py Unit
  | chunk :: chunks, expected :: rest => do
    validateUnit chunk
    require (chunk = expected) "unit-content-or-order-drift"
    sameChunks chunks rest
  | _, _ => .ok ()

/-- `verify(manifest, chunks, payload, binding, prompt, prompt_version, limits)`. -/
def verify (rt : Runtime) (manifest : Value) (chunks : List Bytes) (payload : Bytes)
    (binding : Value) (prompt : Bytes) (promptVersion : PyStr) (limits : Value) : Py PyStr := do
  let (expected, expectedChunks) ← plan rt payload binding prompt promptVersion limits
  let given ← canonical rt manifest
  let text ← canonical rt expected.toValue
  require (given = text) "manifest-drift"
  require (chunks.length = expectedChunks.length) "missing-or-extra-unit"
  sameChunks chunks expectedChunks
  require (chunks.flatten = payload) "reconstruction-failure"
  .ok (rt.sha256 text)

/-! ## 2. Reviews -/

/-- `list[index]` on the units of a manifest. -/
def unitAt (manifest : Value) (index : Nat) : Py Value := do
  match ← manifest.item "units" with
  | .list units => match units[index]? with
    | some unit => .ok unit
    | none => .error .keyError
  | _ => .error .typeError

/-- `f"unit:{number}"`. -/
def unitSubject (number : Nat) : PyStr := PyStr.ofString s!"unit:{number}"

/-- `validate_review(manifest, number, review)`. -/
def validateReview (rt : Runtime) (manifest : Value) (number : Nat) (review : Value) : Py Unit := do
  let count ← pyLen (← manifest.item "units")
  let _ ← integer (.int number) 0 count "review-ordinal"
  keys review ["manifest_sha256", "subject", "payload_sha256", "verdict", "findings",
    "semantic_coverage"] "review-shape"
  let text ← canonical rt manifest
  require ((← review.item "manifest_sha256").isText (rt.sha256 text) = true) "stale-review"
  require ((← review.item "subject").isText
    (if number = count then "integration" else unitSubject number) = true)
    "review-order-or-duplicate"
  let digest ← if number = count then manifest.item "diff_sha256"
    else do (← unitAt manifest number).item "sha256"
  require ((← review.item "payload_sha256").pyEq digest = true) "substituted-review"
  require ((← review.item "verdict").isText "PASS" = true ∧
    (← review.item "findings").pyEq (.list []) = true) "review-failed"
  require ((← review.item "semantic_coverage").isText
    (if number = count then "complete-cross-unit" else "complete-unit") = true)
    "unevaluated-semantic-risk"

/-- The loop over `enumerate(reviews)`, from `number` on. -/
def validateReviews (rt : Runtime) (manifest : Value) : Nat → List Value → Py Unit
  | _, [] => .ok ()
  | number, review :: reviews => do
    validateReview rt manifest number review
    validateReviews rt manifest (number + 1) reviews

/-- The ledger condition of `aggregate`: every review of `units` units and the integration review
were admitted and finished. -/
def Complete (admission : Admission) (digest : PyStr) (units : Nat) : Prop :=
  admission.manifestSha256 = digest ∧ admission.failed = false ∧ admission.active = none ∧
    admission.next = units + 1

instance (admission : Admission) (digest : PyStr) (units : Nat) :
    Decidable (Complete admission digest units) :=
  inferInstanceAs (Decidable (_ ∧ _ ∧ _ ∧ _))

/-- `aggregate(manifest, chunks, payload, binding, prompt, prompt_version, limits, reviews,
admission)`. -/
def aggregate (rt : Runtime) (manifest : Value) (chunks : List Bytes) (payload : Bytes)
    (binding : Value) (prompt : Bytes) (promptVersion : PyStr) (limits reviews : Value)
    (admission : Admission) : Py Value := do
  let digest ← verify rt manifest chunks payload binding prompt promptVersion limits
  require (Complete admission digest chunks.length) "incomplete-admission"
  match reviews with
  | .list reviews => do
    require (reviews.length = chunks.length + 1) "review-cardinality"
    validateReviews rt manifest 0 reviews
    .ok (.dict [("manifest_sha256", .str digest), ("diff_sha256", .str (rt.sha256 payload)),
      ("unit_count", .int chunks.length), ("coverage", .str "PASS")])
  | _ => .error (.reviewError "review-cardinality")

theorem sameChunks_self {chunks : List Bytes}
    (h : ∀ chunk ∈ chunks, validateUnit chunk = .ok ()) : sameChunks chunks chunks = .ok () := by
  induction chunks with
  | nil => rfl
  | cons chunk chunks ih =>
    rw [sameChunks, h chunk (by simp), ok_bind, require_of rfl, ok_bind]
    exact ih fun c hc => h c (List.mem_cons_of_mem _ hc)

/-- A plan verifies against the inputs it was made from. -/
theorem verify_plan {rt : Runtime} {payload prompt : Bytes} {binding limits : Value}
    {promptVersion : PyStr} {m : Manifest} {chunks : List Bytes}
    (h : plan rt payload binding prompt promptVersion limits = .ok (m, chunks)) :
    ∃ text, canonical rt m.toValue = .ok text ∧
      verify rt m.toValue chunks payload binding prompt promptVersion limits =
        .ok (rt.sha256 text) := by
  have hplan := plan_eq_ok h
  obtain ⟨text, htext⟩ := exists_of_isOk hplan.text
  obtain ⟨groups, -, hcut, -⟩ := hplan.groups
  refine ⟨text, htext, ?_⟩
  simp only [verify, h, ok_bind, htext, require_of, sameChunks_self hcut.unit]
  rw [require_of (by simpa using hcut.join), ok_bind]

/-! ## 3. A ledger for a plan -/

theorem length_unitsFrom (rt : Runtime) (files : List FileRecord) (number start : Nat)
    (chunks : List Bytes) : (unitsFrom rt files number start chunks).length = chunks.length := by
  induction chunks generalizing number start with
  | nil => rfl
  | cons chunk chunks ih => simp [unitsFrom, ih]

/-- What `Admission.__init__` reads out of a manifest's dict. -/
theorem Manifest.items (m : Manifest) :
    m.toValue.item "policy" =
        .ok (.dict [("value", m.policy.value), ("sha256", .str m.policySha256)]) ∧
      m.toValue.item "units" = .ok (.list (m.units.map ReviewUnit.toValue)) := ⟨rfl, rfl⟩

/-- A plan's manifest opens a ledger at every start. -/
theorem init_plan {rt : Runtime} {payload prompt : Bytes} {binding limits : Value}
    {promptVersion : PyStr} {m : Manifest} {chunks : List Bytes} {start : Int}
    (h : plan rt payload binding prompt promptVersion limits = .ok (m, chunks))
    (hstart : 0 ≤ start ∧ start ≤ maxClock) :
    ∃ text, canonical rt m.toValue = .ok text ∧
      Admission.init rt m.toValue (.int start) = .ok
        { manifestSha256 := rt.sha256 text, limits := m.policy, count := chunks.length + 1,
          started := start, last := start } := by
  have hplan := plan_eq_ok h
  obtain ⟨text, htext⟩ := exists_of_isOk hplan.text
  obtain ⟨groups, -, hcut, -⟩ := hplan.groups
  have hpolicy : validatePolicy rt m.policy.value = .ok m.policy := by
    rw [validatePolicy_value hplan.policy, hplan.policy]
  obtain ⟨limitsText, hlimits⟩ := exists_of_isOk hplan.limitsText
  rw [← validatePolicy_value hplan.policy] at hlimits
  have hlen : (m.units.map ReviewUnit.toValue).length = chunks.length := by
    rw [List.length_map, hplan.units, length_unitsFrom]
  have hpos : 1 ≤ chunks.length := hplan.chunks_pos
  have hcount := hcut.count
  have hmax := m.policy.maxUnits.2.1
  have hvalue : Value.item (.dict [("value", m.policy.value), ("sha256", .str m.policySha256)])
      "value" = .ok m.policy.value := rfl
  refine ⟨text, htext, ?_⟩
  have hroom : (2 : Int) ≤ ((chunks.length + 1 : Nat) : Int) ∧
      ((chunks.length + 1 : Nat) : Int) ≤ m.policy.maxUnits.1 + 1 := ⟨by omega, by omega⟩
  simp only [Admission.init, m.items.1, m.items.2, ok_bind, hvalue, hpolicy,
    integer_int hstart, htext, hlimits, pyLen, hlen, integer_int hroom]

/-! ## 4. Reviews back to back -/

/-- How long a review took and what it was reported to cost. -/
structure ReviewRun where
  seconds : Nat
  cost : Nat

/-- Reviews from `ordinal` on, each reserved at the instant the one before it finished. -/
def backToBack (ordinal : Nat) (now : Int) : List ReviewRun → List Admission.Call
  | [] => []
  | r :: rest =>
    .reserve (.int ordinal) (.int now) :: .finish (.int (now + r.seconds)) (.int r.cost) (.bool true)
      :: backToBack (ordinal + 1) (now + r.seconds) rest

/-- When the last review finished. -/
def finishedAt (now : Int) : List ReviewRun → Int
  | [] => now
  | r :: rest => finishedAt (now + r.seconds) rest

theorem le_finishedAt (now : Int) (runs : List ReviewRun) : now ≤ finishedAt now runs := by
  induction runs generalizing now with
  | nil => exact le_rfl
  | cons r rest ih =>
    have := ih (now + r.seconds)
    simp only [finishedAt]
    omega

/-- The ledger between two reviews, `done` of them behind it and `now` on the clock: each took at
most its share of the time, and reserved its share of the cost. -/
structure Admission.Ready (a : Admission) (done : Nat) (now : Int) : Prop where
  next : a.next = done
  active : a.active = none
  alive : a.failed = false
  last : a.last = now
  time : now ≤ a.started + done * a.limits.perReviewSeconds.1
  cost : a.reservedCost = done * a.limits.perReviewCostMicrousd.1

/-- Room for one more review, from room for all of them. -/
theorem share_le {done total : Nat} {share limit : Int} (hshare : 1 ≤ share)
    (hdone : done + 1 ≤ total) (h : total * share ≤ limit) : done * share + share ≤ limit := by
  have hmul : ((done + 1 : Nat) : Int) * share ≤ total * share :=
    Int.mul_le_mul_of_nonneg_right (by omega) (by omega)
  rw [Int.natCast_succ, Int.add_mul, Int.one_mul] at hmul
  omega

/-- **The reviews that are left.**  Induction on them: each `reserve` finds its share of the time
and the cost, and each `finish` leaves the ledger ready for the next. -/
theorem backToBack_run {a : Admission} {done : Nat} {now : Int} {runs : List ReviewRun}
    (hready : a.Ready done now) (hcount : done + runs.length = a.count)
    (htime : a.count * a.limits.perReviewSeconds.1 ≤ a.limits.maxReviewSeconds.1)
    (hcost : a.count * a.limits.perReviewCostMicrousd.1 ≤ a.limits.maxCostMicrousd.1)
    (hruns : ∀ r ∈ runs, (r.seconds : Int) ≤ a.limits.perReviewSeconds.1 ∧
      (r.cost : Int) ≤ a.limits.perReviewCostMicrousd.1)
    (hclock : finishedAt now runs ≤ maxClock) :
    ∃ a', Run Admission.step a ((backToBack done now runs).map fun call => (call, .ok ())) a' ∧
      a'.Ready (done + runs.length) (finishedAt now runs) ∧
      a'.manifestSha256 = a.manifestSha256 := by
  induction runs generalizing a done now with
  | nil => exact ⟨a, Run.nil, hready, rfl⟩
  | cons r rest ih =>
    obtain ⟨hseconds, hspent⟩ := hruns r (by simp)
    have hroom : done + 1 ≤ a.count := by
      rw [← hcount, List.length_cons]
      omega
    have htime' := share_le a.limits.perReviewSeconds.2.1 hroom htime
    have hcost' := share_le a.limits.perReviewCostMicrousd.2.1 hroom hcost
    have hlast := hready.last
    have hnow := hready.time
    have hend : now + r.seconds ≤ maxClock := (le_finishedAt _ rest).trans hclock
    -- the reservation
    have hreserves : a.Reserves (.int done) (.int now) now :=
      { now := rfl, ordinal := by rw [hready.next], clock := by omega, alive := hready.alive,
        idle := hready.active, room := by rw [hready.next]; exact hroom,
        cost := by rw [hready.cost]; exact hcost', time := by omega, bounded := by omega }
    let b : Admission := { a with
      reservedCost := a.reservedCost + a.limits.perReviewCostMicrousd.1, active := some now,
      next := a.next + 1, last := now }
    have hreserve : a.step (.reserve (.int done) (.int now)) = (b, .ok ()) := by
      simp only [Admission.step, Admission.reserve, Admission.checkReserve_iff.mpr hreserves]
      rfl
    -- the review itself
    have hfinishes : b.Finishes (.int (now + r.seconds)) (.int r.cost) (.bool true)
        (now + r.seconds) :=
      { now := rfl, clock := by simp only [b]; omega, alive := hready.alive,
        cost := ⟨r.cost, rfl, by omega, hspent⟩, passed := rfl,
        active := ⟨now, rfl, by simp only [b]; omega⟩, total := by simp only [b]; omega,
        bounded := hend }
    have hfinish : b.step (.finish (.int (now + r.seconds)) (.int r.cost) (.bool true)) =
        ({ b with active := none, last := now + r.seconds }, .ok ()) := by
      simp only [Admission.step, Admission.finish, Admission.checkFinish_iff.mpr hfinishes]
    -- the ledger is ready again
    have hready' : Admission.Ready { b with active := none, last := now + r.seconds } (done + 1)
        (now + r.seconds) :=
      { next := by simp only [b, hready.next], active := rfl, alive := hready.alive, last := rfl,
        time := by
          simp only [b]
          rw [Int.natCast_succ, Int.add_mul, Int.one_mul]
          omega
        cost := by
          simp only [b]
          rw [hready.cost, Int.natCast_succ, Int.add_mul, Int.one_mul] }
    obtain ⟨a', hrun, hdone, hdigest⟩ := ih hready'
      (by simp only [b]; rw [← hcount, List.length_cons]; omega) htime hcost
      (fun s hs => hruns s (List.mem_cons_of_mem _ hs)) hclock
    refine ⟨a', ?_, ?_, hdigest⟩
    · have h₁ : Run Admission.step a _ _ := Run.one a (.reserve (.int done) (.int now))
      rw [hreserve] at h₁
      have h₂ : Run Admission.step b _ _ :=
        Run.one b (.finish (.int (now + r.seconds)) (.int r.cost) (.bool true))
      rw [hfinish] at h₂
      exact (h₁.trans h₂).trans hrun
    · rw [List.length_cons, show done + (rest.length + 1) = done + 1 + rest.length by omega]
      exact hdone

/-- **Static and dynamic admission agree.**  A plan's reviews, run back to back within their
shares from any start the clock allows, are all admitted and finished, and `aggregate` finds the
ledger complete. -/
theorem admission_complete {rt : Runtime} {payload prompt : Bytes} {binding limits : Value}
    {promptVersion : PyStr} {m : Manifest} {chunks : List Bytes} {start : Nat}
    {runs : List ReviewRun}
    (h : plan rt payload binding prompt promptVersion limits = .ok (m, chunks))
    (hcount : runs.length = m.units.length + 1)
    (hruns : ∀ r ∈ runs, (r.seconds : Int) ≤ m.policy.perReviewSeconds.1 ∧
      (r.cost : Int) ≤ m.policy.perReviewCostMicrousd.1)
    (hclock : finishedAt start runs < 2 ^ 63) :
    ∃ a₀ a digest, Admission.init rt m.toValue (.int start) = .ok a₀ ∧
      Run Admission.step a₀ ((backToBack 0 start runs).map fun call => (call, .ok ())) a ∧
      a.next = m.units.length + 1 ∧ a.active = none ∧ a.failed = false ∧
      verify rt m.toValue chunks payload binding prompt promptVersion limits = .ok digest ∧
      Complete a digest chunks.length := by
  have hplan := plan_eq_ok h
  have hend : finishedAt start runs ≤ maxClock := by unfold maxClock; omega
  obtain ⟨text, htext, hinit⟩ :=
    init_plan h (show (0 : Int) ≤ start ∧ (start : Int) ≤ maxClock from
      ⟨by omega, (le_finishedAt _ runs).trans hend⟩)
  obtain ⟨text', htext', hverify⟩ := verify_plan h
  rw [htext] at htext'
  cases htext'
  have hunits : m.units.length = chunks.length := by rw [hplan.units, length_unitsFrom]
  obtain ⟨htime, hcost⟩ := hplan.shares
  let a₀ : Admission := { manifestSha256 := rt.sha256 text, limits := m.policy,
                          count := chunks.length + 1, started := start, last := start }
  have hready : a₀.Ready 0 start := ⟨rfl, rfl, rfl, rfl, by simp [a₀], by simp [a₀]⟩
  obtain ⟨a, hrun, hdone, hdigest⟩ := backToBack_run hready
    (by rw [hcount, hunits, Nat.zero_add]) htime hcost hruns hend
  have hnext : a.next = m.units.length + 1 := by rw [hdone.next, hcount, Nat.zero_add]
  exact ⟨a₀, a, rt.sha256 text, hinit, hrun, hnext, hdone.active, hdone.alive, hverify,
    hdigest, hdone.alive, hdone.active, by rw [hnext, hunits]⟩

theorem admission_complete_sample : ∃ m chunks a₀ a digest,
    plan sampleRuntime sampleDiff sampleBinding (bytes "Review.") "v1" sampleLimits =
      .ok (m, chunks) ∧
    Admission.init sampleRuntime m.toValue (.int 5) = .ok a₀ ∧
    Run Admission.step a₀ ((backToBack 0 5 [⟨1, 1⟩, ⟨0, 0⟩]).map fun call => (call, .ok ())) a ∧
    Complete a digest chunks.length := by
  obtain ⟨m, chunks, h, hunits⟩ := samplePlan
  have hseconds := m.policy.perReviewSeconds.2.1
  have hcost := m.policy.perReviewCostMicrousd.2.1
  obtain ⟨a₀, a, digest, hinit, hrun, -, -, -, -, hcomplete⟩ :=
    admission_complete h (show [⟨1, 1⟩, ⟨0, 0⟩].length = m.units.length + 1 by simp [hunits])
      (by simp; omega) (show finishedAt 5 [⟨1, 1⟩, ⟨0, 0⟩] < 2 ^ 63 by decide)
  exact ⟨m, chunks, a₀, a, digest, h, hinit, hrun, hcomplete⟩

end Supplementary.Review
