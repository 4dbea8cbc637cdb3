/-
# The scheduler run that owns a slot

A recovery attempt belongs to one scheduled workflow run.  Every worker elects it on its own from the
runs it can see, and two workers can see different runs: a run can become visible late.  The frontier
that the seed freezes is the number of the last run before it, and a worker elects only if it sees
every number from there up to the largest one it sees.

The API is a function of what is asked for; another time of asking is another function.
-/
import Supplementary.Python.Access
import Supplementary.Python.Clock
import Mathlib.Data.List.Sort

namespace Supplementary.Native

/-! ## 1. Reading the inventory -/

/-- What is asked for with `GET`. -/
inductive Route
  | workflow (repo : PyStr)
  /-- The newest run of a workflow. -/
  | newestRun (repo : PyStr) (workflow : Value)
  /-- One page of the runs of a workflow that were created between two instants. -/
  | runs (repo : PyStr) (workflow start : Value) (stop : PyStr) (page : Nat)

abbrev Api := Route → Py Value

/-- `proof.require(condition, message)`. -/
def require (condition : Prop) [Decidable condition] (message : String) : Py Unit :=
  raiseUnless (.valueError message) condition

/-- `positive(value)`. -/
def positive : Value → Bool
  | .int n => 0 < n
  | _ => false

/-- `api(route)`: what is not available stops the whole sweep. -/
def read (api : Api) (route : Route) : Py Value :=
  match api route with
  | .ok v => .ok v
  | .error e =>
    if e.isValueError || e.isSubprocessError || e = .osError then
      .error (.globalReadFailure "API read failed")
    else .error e

/-- A count of less than a thousand. -/
def inventoryCount : Value → Py Int
  | .int n => do
    require (0 ≤ n ∧ n < 1000) "inventory limit"
    pure n
  | _ => .error (.valueError "inventory limit")

/-- One page: a list of at most a hundred items. -/
def pageItems : Value → Py (List Value)
  | .list items => do
    require (items.length ≤ 100) "page shape"
    pure items
  | _ => .error (.valueError "page shape")

/-- The integer that an identity is. -/
def identity : Value → Int
  | .int n => n
  | _ => 0

/-- The last page was read. -/
def checkInventory (count : Int) (result : List Value) : Py (List Value) := do
  require ((result.length : Int) = count) "incomplete inventory"
  require (∀ item ∈ result, (item.isDict && positive (item.get "id")) = true) "item identity"
  require ((result.map fun item => identity (item.get "id")).Nodup) "duplicate inventory"
  pure result

/-- The pages of an inventory from one on, with the total and what was read so far. -/
def pagesFrom (api : Api) (route : Nat → Route) : (left page : Nat) → (total : Option Int) →
    List Value → Py (List Value)
  | 0, _, _, _ => .error (.valueError "inventory limit")
  | left + 1, page, total, result => do
    let response ← api (route page)
    let batch ← pageItems (← response.item "workflow_runs")
    let count ← inventoryCount (← response.item "total_count")
    require (total = none ∨ total = some count) "changing inventory"
    if batch.length < 100 then checkInventory count (result ++ batch)
    else pagesFrom api route left (page + 1) (some count) (result ++ batch)

/-- `pages(route, "workflow_runs")`. -/
def pages (api : Api) (route : Nat → Route) : Py (List Value) :=
  match pagesFrom api route 10 1 none [] with
  | .ok runs => .ok runs
  | .error e =>
    if e.isValueError || e.isSubprocessError || e = .osError || e = .keyError || e = .typeError then
      .error (.globalReadFailure "API inventory failed")
    else .error e

/-! ## 2. The frontier -/

/-- `WORKFLOW`. -/
def schedulerPath : PyStr := ".github/workflows/review-infrastructure-retry.yml"

/-- The number of the newest run; zero if there is none. -/
def newestNumber (workflow : Value) : List Value → Py Int
  | [] => .ok 0
  | row :: _ => do
    let id ← row.item "id"
    require (positive id = true) "scheduler frontier binding"
    let owner ← row.item "workflow_id"
    require (owner.pyEq workflow = true) "scheduler frontier binding"
    let number ← row.item "run_number"
    require (positive number = true) "scheduler frontier binding"
    pure (identity number)

/-- `scheduler_frontier(repo)`. -/
def schedulerFrontier (api : Api) (repo : PyStr) : Py Value := do
  let workflow ← read api (.workflow repo)
  let id ← workflow.item "id"
  require (positive id = true) "scheduler workflow"
  require ((← workflow.item "path").isText schedulerPath = true) "scheduler workflow"
  let result ← read api (.newestRun repo id)
  match ← result.item "workflow_runs", ← result.item "total_count" with
  | .list rows, .int total => do
    require (0 ≤ total ∧ (rows.length : Int) = min 1 total) "scheduler frontier inventory"
    pure (.dict [("workflow_id", id), ("run_number", .int (← newestNumber id rows))])
  | _, _ => .error (.valueError "scheduler frontier inventory")

/-! ## 3. The election -/

/-- What is read of one scheduler run. -/
structure SchedulerRun where
  id : Value
  number : Int
  created : Int

/-- One run of the inventory, bound to the workflow and to the time of the seed. -/
def bindRun (repo : PyStr) (workflow : Value) (start stop : Int) (run : Value) :
    Py SchedulerRun := do
  require ((← run.item "workflow_id").pyEq workflow = true) "scheduler inventory binding"
  require ((← run.item "path").isText schedulerPath = true) "scheduler inventory binding"
  require ((← run.item "event").isText "schedule" = true) "scheduler inventory binding"
  let number ← run.item "run_number"
  require (positive number = true) "scheduler inventory binding"
  let repository ← run.item "repository"
  require ((← repository.item "full_name").isText repo = true) "scheduler inventory binding"
  let headRepository ← run.item "head_repository"
  require ((← headRepository.item "full_name").isText repo = true) "scheduler inventory binding"
  let created ← Clock.epoch (← run.item "created_at")
  require (start ≤ created ∧ created ≤ stop) "scheduler inventory binding"
  pure ⟨← run.item "id", identity number, created⟩

/-- The numbers `frontier + 1`, `frontier + 2` and so on. -/
def numbersFrom (frontier : Int) (count : Nat) : List Int :=
  (List.range count).map fun i => frontier + (i + 1 : Nat)

/-- The runs after the frontier, which have to be a complete sequence. -/
def laterRuns (frontier : Int) (rows : List SchedulerRun) : Py (List SchedulerRun) := do
  let later := rows.filter fun row => frontier < row.number
  let numbers := (later.map SchedulerRun.number).insertionSort (· ≤ ·)
  require (numbers ≠ [] ∧ numbers = numbersFrom frontier numbers.length)
    "incomplete scheduler sequence"
  pure later

/-- `min(candidates, key=lambda run: run["run_number"])`. -/
def earliest : List SchedulerRun → Option SchedulerRun
  | [] => none
  | row :: rest =>
    match earliest rest with
    | none => some row
    | some best => if row.number ≤ best.number then some row else some best

/-- The first of the runs that were created late enough. -/
def firstEligible (eligibleAt : Int) (later : List SchedulerRun) : Py Value :=
  match earliest (later.filter fun row => eligibleAt ≤ row.created) with
  | some row => .ok row.id
  | none => .error (.valueError "scheduler claimant not visible")

/-- `POLICY["total_seconds"]`. -/
def totalSeconds : Int := 10800

/-- `POLICY["cooldown_seconds"][str(attempt)]`. -/
def cooldownSeconds (attempt : Int) : Py Int :=
  if attempt = 3 then .ok 1200 else if attempt = 4 then .ok 2400 else .error .keyError

/-- The number of a frontier, which is an integer in every seed that was validated. -/
def frontierNumber : Value → Py Int
  | .int n => .ok n
  | _ => .error .typeError

/-- The inventory that a claimant is elected from. -/
def schedulerRuns (api : Api) (repo : PyStr) (seed : Value) : Py (List Value) := do
  let frontier ← seed.item "scheduler_frontier"
  let workflow ← frontier.item "workflow_id"
  let created ← seed.item "created_at"
  let stop ← Clock.stamp ((← Clock.epoch created) + totalSeconds)
  pages api (.runs repo workflow created stop)

/-- `elected_claimant(repo, seed, cause, attempt)`. -/
def electedClaimant (api : Api) (repo : PyStr) (seed cause : Value) (attempt : Int) : Py Value := do
  let runs ← schedulerRuns api repo seed
  let frontier ← seed.item "scheduler_frontier"
  let workflow ← frontier.item "workflow_id"
  let start ← Clock.epoch (← seed.item "created_at")
  let stop ← Clock.epoch (.str (← Clock.stamp (start + totalSeconds)))
  let rows ← runs.mapM (bindRun repo workflow start stop)
  let later ← laterRuns (← frontierNumber (← frontier.item "run_number")) rows
  let completed ← Clock.epoch (← cause.item "completed_at")
  firstEligible (completed + (← cooldownSeconds attempt)) later

/-! ## 4. A complete sequence -/

theorem count_numbersFrom (frontier : Int) (count : Nat) (n : Int) :
    (numbersFrom frontier count).count n =
      if frontier < n ∧ n ≤ frontier + count then 1 else 0 := by
  have hnodup : (numbersFrom frontier count).Nodup := by
    refine List.Nodup.map (fun i j hij => ?_) List.nodup_range
    have hij : frontier + (i + 1 : Nat) = frontier + (j + 1 : Nat) := hij
    omega
  have hmem : n ∈ numbersFrom frontier count ↔ frontier < n ∧ n ≤ frontier + count := by
    simp only [numbersFrom, List.mem_map, List.mem_range]
    constructor
    · rintro ⟨i, hi, rfl⟩
      omega
    · rintro ⟨hlow, hhigh⟩
      exact ⟨(n - frontier - 1).toNat, by omega, by omega⟩
  split
  · next h => exact List.count_eq_one_of_mem hnodup (hmem.mpr h)
  · next h => exact List.count_eq_zero_of_not_mem fun hn => h (hmem.mp hn)

/-- In a complete sequence every number up to the largest one occurs once. -/
theorem laterRuns_count {frontier : Int} {rows later : List SchedulerRun}
    (h : laterRuns frontier rows = .ok later) :
    later = rows.filter (fun row => frontier < row.number) ∧ ∀ n,
      (later.map SchedulerRun.number).count n =
        if frontier < n ∧ n ≤ frontier + later.length then 1 else 0 := by
  simp only [laterRuns, bind_eq_ok, pure_eq_ok, require, raiseUnless_eq_ok] at h
  obtain ⟨u, ⟨-, hnumbers⟩, rfl⟩ := h
  refine ⟨rfl, fun n => ?_⟩
  have hperm := List.perm_insertionSort (· ≤ ·)
    ((rows.filter fun row => frontier < row.number).map SchedulerRun.number)
  rw [← hperm.count_eq, hnumbers, count_numbersFrom]
  simp [hperm.length_eq]

theorem laterRuns_mem {frontier : Int} {rows later : List SchedulerRun}
    (h : laterRuns frontier rows = .ok later) {n : Int} :
    (∃ row ∈ later, row.number = n) ↔ frontier < n ∧ n ≤ frontier + later.length := by
  have hcount := (laterRuns_count h).2 n
  rw [← List.mem_map, ← List.count_pos_iff, hcount]
  split <;> simp_all

theorem earliest_spec {rows : List SchedulerRun} {row : SchedulerRun} (h : earliest rows = some row) :
    row ∈ rows ∧ ∀ other ∈ rows, row.number ≤ other.number := by
  induction rows generalizing row with
  | nil => cases h
  | cons first rest ih =>
    rw [earliest] at h
    cases hbest : earliest rest with
    | none =>
      have hempty : rest = [] := by
        cases rest with
        | nil => rfl
        | cons next rest =>
          rw [earliest] at hbest
          split at hbest
          · cases hbest
          · split at hbest <;> cases hbest
      rw [hbest, Option.some.injEq] at h
      subst h
      rw [hempty]
      exact ⟨List.mem_singleton_self _, fun other hother => by
        rw [List.mem_singleton.mp hother]⟩
    | some best =>
      obtain ⟨hmem, hmin⟩ := ih hbest
      rw [hbest] at h
      simp only at h
      split at h
      · next hle =>
        cases h
        refine ⟨List.mem_cons_self, fun other hother => ?_⟩
        rcases List.mem_cons.mp hother with rfl | hrest
        · exact le_refl _
        · exact le_trans hle (hmin other hrest)
      · next hlt =>
        cases h
        refine ⟨List.mem_cons_of_mem _ hmem, fun other hother => ?_⟩
        rcases List.mem_cons.mp hother with rfl | hrest
        · omega
        · exact hmin other hrest

theorem firstEligible_eq_ok {eligibleAt : Int} {later : List SchedulerRun} {id : Value}
    (h : firstEligible eligibleAt later = .ok id) : ∃ row ∈ later, row.id = id ∧
      eligibleAt ≤ row.created ∧
      ∀ other ∈ later, eligibleAt ≤ other.created → row.number ≤ other.number := by
  unfold firstEligible at h
  split at h
  · next row hrow =>
    cases h
    obtain ⟨hmem, hmin⟩ := earliest_spec hrow
    simp only [List.mem_filter, decide_eq_true_eq] at hmem
    refine ⟨row, hmem.1, rfl, hmem.2, fun other hother hcreated => ?_⟩
    exact hmin other (List.mem_filter.mpr ⟨hother, by simpa using hcreated⟩)
  · cases h

/-- Two complete sequences of the same runs have the same first eligible run. -/
theorem firstEligible_unique {frontier eligibleAt : Int} {rows rows' later later' : List SchedulerRun}
    (h : laterRuns frontier rows = .ok later) (h' : laterRuns frontier rows' = .ok later')
    (hagree : ∀ row ∈ rows, ∀ row' ∈ rows', row.number = row'.number → row = row') {id id' : Value}
    (hid : firstEligible eligibleAt later = .ok id)
    (hid' : firstEligible eligibleAt later' = .ok id') : id = id' := by
  have hsub : ∀ row ∈ later, row ∈ rows := fun row hrow => by
    rw [(laterRuns_count h).1] at hrow
    exact (List.mem_filter.mp hrow).1
  have hsub' : ∀ row ∈ later', row ∈ rows' := fun row hrow => by
    rw [(laterRuns_count h').1] at hrow
    exact (List.mem_filter.mp hrow).1
  obtain ⟨row, hrow, rfl, hcreated, hmin⟩ := firstEligible_eq_ok hid
  obtain ⟨row', hrow', rfl, hcreated', hmin'⟩ := firstEligible_eq_ok hid'
  have hrange := (laterRuns_mem h).mp ⟨row, hrow, rfl⟩
  have hrange' := (laterRuns_mem h').mp ⟨row', hrow', rfl⟩
  rcases lt_trichotomy row.number row'.number with hlt | heq | hgt
  · -- the other observation has the run with the smaller number too
    obtain ⟨other, hother, hnumber⟩ := (@laterRuns_mem _ _ _ h' row.number).mpr (by omega)
    obtain rfl := hagree row (hsub row hrow) other (hsub' other hother) hnumber.symm
    have := hmin' row hother hcreated
    omega
  · exact congrArg SchedulerRun.id (hagree row (hsub row hrow) row' (hsub' row' hrow') heq)
  · obtain ⟨other, hother, hnumber⟩ := (@laterRuns_mem _ _ _ h row'.number).mpr (by omega)
    obtain rfl := hagree other (hsub other hother) row' (hsub' row' hrow') hnumber
    have := hmin other hother hcreated'
    omega

/-! ## 5. Two observations -/

/-- The runs are of one history, in which a number has one identity and one time of creation. -/
def OfHistory (history : Int → Value × Value) (runs : List Value) : Prop :=
  ∀ run ∈ runs, ∀ n, run.item "run_number" = .ok (.int n) →
    run.item "id" = .ok (history n).1 ∧ run.item "created_at" = .ok (history n).2

/-- The run has this number. -/
def isNumbered (n : Int) (run : Value) : Bool :=
  match run.item "run_number" with
  | .ok (.int m) => m = n
  | _ => false

theorem bindRun_eq_ok {repo : PyStr} {workflow : Value} {start stop : Int} {run : Value}
    {row : SchedulerRun} (h : bindRun repo workflow start stop run = .ok row) :
    run.item "run_number" = .ok (.int row.number) ∧ run.item "id" = .ok row.id ∧
      ∃ created, run.item "created_at" = .ok created ∧ Clock.epoch created = .ok row.created := by
  simp only [bindRun, bind_eq_ok, pure_eq_ok, require, raiseUnless_eq_ok] at h
  obtain ⟨-, -, -, -, -, -, -, -, -, -, -, -, number, hnumber, -, hpositive, h⟩ := h
  obtain ⟨-, -, -, -, -, -, -, -, -, -, -, -, created, hcreated, time, htime, -, -, id, hid, rfl⟩ := h
  refine ⟨?_, hid, created, hcreated, htime⟩
  cases number with
  | int n => exact hnumber
  | _ => cases hpositive

theorem bindRun_history {repo : PyStr} {workflow : Value} {start stop : Int} {runs : List Value}
    {rows : List SchedulerRun} (h : runs.mapM (bindRun repo workflow start stop) = .ok rows)
    {history : Int → Value × Value} (hruns : OfHistory history runs) {row : SchedulerRun}
    (hrow : row ∈ rows) :
    row.id = (history row.number).1 ∧ Clock.epoch (history row.number).2 = .ok row.created := by
  obtain ⟨run, hrun, hbind⟩ := mem_of_mapM h hrow
  obtain ⟨hnumber, hid, created, hcreated, htime⟩ := bindRun_eq_ok hbind
  obtain ⟨hid', hcreated'⟩ := hruns run hrun row.number hnumber
  refine ⟨Except.ok.inj (hid.symm.trans hid'), ?_⟩
  rw [← Except.ok.inj (hcreated.symm.trans hcreated')]
  exact htime

/-- Runs of one history that have the same number are read as the same. -/
theorem row_unique {history : Int → Value × Value} {row row' : SchedulerRun}
    (h : row.id = (history row.number).1 ∧ Clock.epoch (history row.number).2 = .ok row.created)
    (h' : row'.id = (history row'.number).1 ∧
      Clock.epoch (history row'.number).2 = .ok row'.created)
    (hnumber : row.number = row'.number) : row = row' := by
  rw [hnumber] at h
  have hid : row.id = row'.id := h.1.trans h'.1.symm
  have hcreated : row.created = row'.created := Except.ok.inj (h.2.symm.trans h'.2)
  cases row
  cases row'
  simp_all

theorem count_rows {repo : PyStr} {workflow : Value} {start stop : Int} {runs : List Value}
    {rows : List SchedulerRun} (h : runs.mapM (bindRun repo workflow start stop) = .ok rows)
    (n : Int) : (rows.map SchedulerRun.number).count n = runs.countP (isNumbered n) := by
  have hall := mapM_eq_ok h
  clear h
  induction hall with
  | nil => rfl
  | @cons run row runs rows hbind _ ih =>
    have hnumber := (bindRun_eq_ok hbind).1
    have hsame : isNumbered n run = (row.number == n) := by
      simp only [isNumbered, hnumber]
      by_cases hn : row.number = n <;> simp [hn]
    rw [List.map_cons, List.count_cons, List.countP_cons, ih, hsame]

/-- What an election went through. -/
theorem electedClaimant_eq_ok {api : Api} {repo : PyStr} {seed cause : Value} {attempt : Int}
    {id : Value} (h : electedClaimant api repo seed cause attempt = .ok id) :
    ∃ runs workflow start stop rows frontier later eligibleAt,
      schedulerRuns api repo seed = .ok runs ∧
      runs.mapM (bindRun repo workflow start stop) = .ok rows ∧
      (seed.item "scheduler_frontier" >>= fun f => f.item "run_number" >>= frontierNumber) =
        .ok frontier ∧
      laterRuns frontier rows = .ok later ∧
      (cause.item "completed_at" >>= Clock.epoch >>= fun completed =>
        cooldownSeconds attempt >>= fun cooldown => .ok (completed + cooldown)) = .ok eligibleAt ∧
      firstEligible eligibleAt later = .ok id := by
  simp only [electedClaimant, bind_eq_ok] at h
  obtain ⟨runs, hruns, frontier, hfrontier, workflow, -, created, -, start, -, text, -, stop, -,
    rows, hrows, value, hvalue, number, hnumber, later, hlater, completed, hcompleted, time, htime,
    cooldown, hcooldown, hid⟩ := h
  refine ⟨runs, workflow, start, stop, rows, number, later, time + cooldown, hruns, hrows, ?_,
    hlater, ?_, hid⟩
  · simp only [hfrontier, hvalue, ok_bind, hnumber]
  · simp only [hcompleted, htime, ok_bind, hcooldown]

/-- **The election is stable.**  Two workers that elect somebody from two observations of one history
elect the same run, whatever became visible in between; and from an inventory in which some number
between the frontier and the largest visible one is missing or occurs twice nobody is elected. -/
theorem election_stable (repo : PyStr) (seed cause : Value) (attempt : Int)
    (history : Int → Value × Value) :
    (∀ api api' : Api,
      (∀ runs, schedulerRuns api repo seed = .ok runs → OfHistory history runs) →
      (∀ runs, schedulerRuns api' repo seed = .ok runs → OfHistory history runs) →
      ∀ id id', electedClaimant api repo seed cause attempt = .ok id →
        electedClaimant api' repo seed cause attempt = .ok id' → id = id') ∧
    ∀ (api : Api) (runs : List Value) (frontier n m : Int), schedulerRuns api repo seed = .ok runs →
      (seed.item "scheduler_frontier" >>= fun f => f.item "run_number" >>= frontierNumber) =
        .ok frontier →
      frontier < n → n ≤ m → (∃ run ∈ runs, isNumbered m run) → runs.countP (isNumbered n) ≠ 1 →
      ∀ id, electedClaimant api repo seed cause attempt ≠ .ok id := by
  constructor
  · intro api api' hhistory hhistory' id id' hid hid'
    obtain ⟨runs, _, _, _, rows, frontier, later, time, hruns, hrows, hfrontier, hlater, htime, hid⟩ :=
      electedClaimant_eq_ok hid
    obtain ⟨runs', _, _, _, rows', frontier', later', time', hruns', hrows', hfrontier', hlater',
      htime', hid'⟩ := electedClaimant_eq_ok hid'
    obtain rfl := Except.ok.inj (hfrontier.symm.trans hfrontier')
    obtain rfl := Except.ok.inj (htime.symm.trans htime')
    refine firstEligible_unique hlater hlater' (fun row hrow row' hrow' hnumber => ?_) hid hid'
    exact row_unique (bindRun_history hrows (hhistory runs hruns) hrow)
      (bindRun_history hrows' (hhistory' runs' hruns') hrow') hnumber
  · intro api runs frontier n m hruns hfrontier hn hm hvisible hcount id hid
    obtain ⟨runs', _, _, _, rows, frontier', later, _, hruns', hrows, hfrontier', hlater, -, -⟩ :=
      electedClaimant_eq_ok hid
    obtain rfl := Except.ok.inj (hruns.symm.trans hruns')
    obtain rfl := Except.ok.inj (hfrontier.symm.trans hfrontier')
    have hlatercount : ∀ k, frontier < k →
        (later.map SchedulerRun.number).count k = runs.countP (isNumbered k) := by
      intro k hk
      rw [← count_rows hrows k, (laterRuns_count hlater).1]
      simp only [List.count_eq_countP, List.countP_map, List.countP_filter]
      refine List.countP_congr fun row _ => ?_
      simp only [Function.comp_apply, Bool.and_eq_true, beq_iff_eq, decide_eq_true_eq]
      constructor
      · exact fun h => h.1
      · rintro rfl
        exact ⟨rfl, hk⟩
    have hlargest : m ≤ frontier + later.length := by
      have hpos : 0 < (later.map SchedulerRun.number).count m := by
        rw [hlatercount m (by omega), List.countP_pos_iff]
        exact hvisible
      rw [(laterRuns_count hlater).2 m] at hpos
      by_contra hnot
      rw [if_neg fun h => hnot h.2] at hpos
      omega
    have hone := (laterRuns_count hlater).2 n
    rw [if_pos ⟨hn, by omega⟩, hlatercount n hn] at hone
    exact hcount hone

/-- The third scheduler run after a frontier at seven was created in time. -/
def sampleHistory (n : Int) : Value × Value :=
  (.int (100 + n), if n < 10 then .str "2026-01-01T00:10:00Z" else .str "2026-01-01T01:00:00Z")

def sampleRun (n : Int) : Value :=
  .dict [("id", (sampleHistory n).1), ("workflow_id", .int 9), ("path", .str schedulerPath),
    ("event", .str "schedule"), ("run_number", .int n), ("created_at", (sampleHistory n).2),
    ("repository", .dict [("full_name", .str "r")]),
    ("head_repository", .dict [("full_name", .str "r")])]

def sampleSeed : Value :=
  .dict [("created_at", .str "2026-01-01T00:00:00Z"),
    ("scheduler_frontier", .dict [("workflow_id", .int 9), ("run_number", .int 7)])]

def sampleCause : Value := .dict [("completed_at", .str "2026-01-01T00:20:00Z")]

/-- An observation of the runs up to a number. -/
def sampleApi (runs : List Value) : Api := fun _ =>
  .ok (.dict [("total_count", .int runs.length), ("workflow_runs", .list runs)])

theorem ofHistory_sampleRuns (numbers : List Int) :
    OfHistory sampleHistory (numbers.map sampleRun) := by
  intro run hrun n hn
  obtain ⟨m, -, rfl⟩ := List.mem_map.mp hrun
  have hnumber : (sampleRun m).item "run_number" = .ok (.int m) := rfl
  have hm : m = n := by
    rw [hnumber] at hn
    cases hn
    rfl
  rw [← hm]
  exact ⟨rfl, rfl⟩

set_option maxRecDepth 20000 in
/-- A later observation, with one run more, elects the same run. -/
theorem election_stable_sample : ∃ id,
    electedClaimant (sampleApi ([8, 9, 10].map sampleRun)) "r" sampleSeed sampleCause 3 = .ok id ∧
    electedClaimant (sampleApi ([8, 9, 10, 11].map sampleRun)) "r" sampleSeed sampleCause 3 =
      .ok id := by
  have hruns : schedulerRuns (sampleApi ([8, 9, 10].map sampleRun)) "r" sampleSeed =
      .ok ([8, 9, 10].map sampleRun) := by rfl
  have hruns' : schedulerRuns (sampleApi ([8, 9, 10, 11].map sampleRun)) "r" sampleSeed =
      .ok ([8, 9, 10, 11].map sampleRun) := by rfl
  have hid : electedClaimant (sampleApi ([8, 9, 10].map sampleRun)) "r" sampleSeed sampleCause 3 =
      .ok (.int 110) := by rfl
  obtain ⟨id', hid'⟩ : ∃ id', electedClaimant (sampleApi ([8, 9, 10, 11].map sampleRun)) "r"
      sampleSeed sampleCause 3 = .ok id' := ⟨.int 110, by rfl⟩
  have hsame := (election_stable "r" sampleSeed sampleCause 3 sampleHistory).1 _ _
    (fun runs h => by
      rw [← Except.ok.inj (hruns.symm.trans h)]
      exact ofHistory_sampleRuns _)
    (fun runs h => by
      rw [← Except.ok.inj (hruns'.symm.trans h)]
      exact ofHistory_sampleRuns _) _ _ hid hid'
  exact ⟨.int 110, hid, by rw [hid', ← hsame]⟩

end Supplementary.Native
