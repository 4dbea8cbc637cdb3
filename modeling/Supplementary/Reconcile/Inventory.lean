/-
# The inventory of dispatched runs

`dispatch_inventory` reads the `workflow_dispatch` runs of the last seven days from a search that
counts at most so many results and serves them in pages.  A range of seconds whose count reaches 1000
is split in halves; a range below is a leaf and is paged.  All requests share one budget.

The recursion ends because a range that is split has two seconds at least.  Whatever the server answers,
no more requests are made than are paid for (`paid_window`), and the leaves are disjoint and make up the
range (`leaves_window`).
-/
import Supplementary.Lib.Machine
import Supplementary.Python.Access
import Supplementary.Python.Clock
import Supplementary.Python.Text

namespace Supplementary.Reconcile

open Machine PyStr

/-! ## 1. Ranges of seconds -/

/-- The first and the last second of an inclusive range. -/
structure Window where
  lower : Int
  upper : Int
  le : lower ≤ upper

namespace Window

/-- `lower <= created <= upper`. -/
def Holds (W : Window) (t : Int) : Prop := W.lower ≤ t ∧ t ≤ W.upper

instance (W : Window) (t : Int) : Decidable (W.Holds t) :=
  inferInstanceAs (Decidable (W.lower ≤ t ∧ t ≤ W.upper))

/-- The range up to `middle`. -/
def left (W : Window) : Window where
  lower := W.lower
  upper := W.lower + (W.upper - W.lower) / 2
  le := by
    have := W.le
    omega

/-- The range from `middle + second` on. -/
def right (W : Window) (h : W.lower ≠ W.upper) : Window where
  lower := W.lower + (W.upper - W.lower) / 2 + 1
  upper := W.upper
  le := by
    have := W.le
    omega

/-- Each second of a range lies in one half. -/
theorem holds_iff {W : Window} (h : W.lower ≠ W.upper) {t : Int} :
    W.Holds t ↔ W.left.Holds t ∨ (W.right h).Holds t := by
  have := W.le
  simp only [Holds, left, right]
  omega

theorem not_both {W : Window} (h : W.lower ≠ W.upper) {t : Int} :
    ¬ (W.left.Holds t ∧ (W.right h).Holds t) := by
  simp only [Holds, left, right]
  omega

/-- How many seconds a range has, but for one. -/
def span (W : Window) : Nat := (W.upper - W.lower).toNat

theorem span_left {W : Window} (h : W.lower ≠ W.upper) : W.left.span < W.span := by
  have := W.le
  simp only [span, left]
  omega

theorem span_right {W : Window} (h : W.lower ≠ W.upper) : (W.right h).span < W.span := by
  have := W.le
  simp only [span, right]
  omega

end Window

/-- The instants that a `datetime` can be, in seconds. -/
def minInstant : Int := -62135596800

def maxInstant : Int := 253402300799

/-- A `datetime` in UTC without microseconds. -/
structure Instant where
  seconds : Int
  lower : minInstant ≤ seconds
  upper : seconds ≤ maxInstant

/-- A range whose ends are instants. -/
def Window.IsDated (W : Window) : Prop := minInstant ≤ W.lower ∧ W.upper ≤ maxInstant

/-! ## 2. Requests -/

def refresh : PyStr := "copilot-review-refresh.yml"

def helper : PyStr := "current-revision-rerun.yml"

def continuation : PyStr := "review-request-continuation.yml"

/-- `DISPATCH_INVENTORY_REQUESTS`. -/
def dispatchInventoryRequests : Nat := 256

/-- `TTL`, in seconds. -/
def ttl : Int := 7 * 86400

/-- `f"{instant:%Y-%m-%dT%H:%M:%SZ}"`; a year is not padded. -/
def stamp (t : Int) : PyStr :=
  let (y, day) := Clock.yearOf (t / 86400 + 719163).toNat
  let (m, d) := Clock.monthOf y day
  let rest := (t % 86400).toNat
  ofInt y ++ "-" ++ ⟨Clock.padded 2 m⟩ ++ "-" ++ ⟨Clock.padded 2 d⟩ ++ "T" ++
    ⟨Clock.padded 2 (rest / 3600)⟩ ++ ":" ++ ⟨Clock.padded 2 (rest / 60 % 60)⟩ ++ ":" ++
    ⟨Clock.padded 2 (rest % 60)⟩ ++ "Z"

/-- The route of a request. -/
def routeOf (pref workflow : PyStr) (W : Window) (page : Nat) : PyStr :=
  pref ++ "/actions/workflows/" ++ workflow ++ "/runs" ++
    "?event=workflow_dispatch&created=" ++ stamp W.lower ++ ".." ++ stamp W.upper ++
    "&per_page=100&page=" ++ ofInt page

/-- What a call of `dispatch_inventory` has; `leaves` is kept for what is said of them. -/
structure Inventory where
  remaining : Nat
  seen : List Int
  leaves : List (PyStr × Window)

/-- The requests of a run are its log. -/
abbrev Read := Program Unit PyStr Empty Inventory PyError

/-- What a response must have. -/
def checkResponse (page : Nat) (response : Value) : Py (Nat × List Value) :=
  match response with
  | .dict _ => match response.get "total_count", response.get "workflow_runs" with
    | .int total, .list batch =>
      if total < 0 then .error (.valueError "invalid dispatch inventory")
      else if batch.length ≠ min 100 (total.toNat - (page - 1) * 100) then
        .error (.valueError "incomplete dispatch inventory")
      else .ok (total.toNat, batch)
    | _, _ => .error (.valueError "invalid dispatch inventory")
  | _ => .error (.valueError "invalid dispatch inventory")

section

variable (api : PyStr → Py Value) (pref workflow : PyStr)

/-- `api(route)`, and the checks of what it returns. -/
def request (W : Window) (page : Nat) : Read (Nat × List Value) :=
  Program.perform (routeOf pref workflow W page) fun _ w =>
    (api (routeOf pref workflow W page) >>= checkResponse page, w)

/-- `read(workflow, lower, upper, page)`. -/
def read (W : Window) (page : Nat) : Read (Nat × List Value) := do
  let v ← Program.locals
  if v.remaining = 0 then
    Program.raise (.valueError "dispatch inventory request budget exhausted")
  else do
    Program.assign fun v => { v with remaining := v.remaining - 1 }
    request api pref workflow W page

/-- The loop over the other pages of a leaf. -/
def readPages (W : Window) (total : Nat) : List Nat → Read (List Value)
  | [] => pure []
  | page :: pages => do
    let (currentTotal, batch) ← read api pref workflow W page
    if currentTotal ≠ total then
      Program.raise (.valueError "dispatch inventory changed while paging")
    else do
      let rest ← readPages W total pages
      pure (batch ++ rest)

end

/-! ## 3. Runs -/

/-- `datetime.fromisoformat(timestamp.replace("Z", "+00:00"))` of a text of the exact form. -/
def instantOf (timestamp : PyStr) : Py Int :=
  match Clock.fields timestamp.codePoints with
  | none => .error (.valueError "invalid dispatch timestamp")
  | some (y, m, d, h, n, s) =>
    if 1 ≤ y ∧ 1 ≤ d ∧ d ≤ Clock.daysInMonth y m ∧ h < 24 ∧ n < 60 ∧ s < 60 then
      .ok (86400 * ((Clock.ordinal y m d : Int) - 719163) + 3600 * h + 60 * n + s)
    else .error (.valueError "Invalid isoformat string")

/-- Whether a value is that text. -/
def isStr (v : Value) (s : PyStr) : Bool := match v with
  | .str t => t = s
  | _ => false

/-- `f".github/workflows/{workflow}"`. -/
def pathOf (workflow : PyStr) : PyStr := ".github/workflows/" ++ workflow

/-- The checks of a run; what is returned joins `seen`. -/
def checkRun (workflow : PyStr) (W : Window) (seen : List Int) (run : Value) : Py Int :=
  match run with
  | .dict _ => match run.get "id" with
    | .int id =>
      if id ≤ 0 then .error (.valueError "invalid dispatch identity")
      else if id ∈ seen then .error (.valueError "duplicate dispatch inventory")
      else match run.get "created_at" with
        | .str timestamp => do
          let created ← instantOf timestamp
          if W.Holds created ∧ isStr (run.get "path") (pathOf workflow) = true ∧
              isStr (run.get "event") "workflow_dispatch" = true then .ok id
          else .error (.valueError "unbound dispatch inventory")
        | _ => .error (.valueError "invalid dispatch timestamp")
    | _ => .error (.valueError "invalid dispatch identity")
  | _ => .error (.valueError "invalid dispatch identity")

/-- The loop over the runs of a leaf. -/
def checkRuns (workflow : PyStr) (W : Window) : List Int → List Value → Py (List Int)
  | seen, [] => .ok seen
  | seen, run :: runs => do
    let id ← checkRun workflow W seen run
    checkRuns workflow W (id :: seen) runs

/-! ## 4. `dispatch_inventory` -/

section

variable (api : PyStr → Py Value) (pref workflow : PyStr)

/-- A range that is not split. -/
def leaf (W : Window) (total : Nat) (batch : List Value) : Read (List Value) := do
  Program.assign fun v => { v with leaves := v.leaves ++ [(workflow, W)] }
  let rest ← readPages api pref workflow W total (List.range' 2 ((total + 99) / 100 - 1))
  let v ← Program.locals
  let seen ← Program.ofExcept (checkRuns workflow W v.seen (batch ++ rest))
  Program.assign fun v => { v with seen := seen }
  pure (batch ++ rest)

/-- The items of a split range. -/
def joinHalves (total : Nat) (items : List Value) : Read (List Value) :=
  if items.length < total then
    Program.raise (.valueError "dispatch inventory changed while splitting")
  else pure items

/-- `window(workflow, lower, upper)`. -/
def window (W : Window) : Read (List Value) := do
  let (total, batch) ← read api pref workflow W 1
  if 1000 ≤ total then
    if h : W.lower = W.upper then
      Program.raise (.valueError "dispatch inventory saturated within one second")
    else do
      let left ← window W.left
      let right ← window (W.right h)
      joinHalves total (left ++ right)
  else leaf api pref workflow W total batch
termination_by W.span
decreasing_by
  · exact Window.span_left h
  · exact Window.span_right h

end

/-- The workflows, in the order in which they are read. -/
def workflows : List PyStr := [refresh, helper, continuation]

/-- The range of a call; `now` is its second. -/
def windowOf (now : Instant) : Window where
  lower := now.seconds - ttl
  upper := now.seconds
  le := by
    have : (0 : Int) ≤ ttl := by decide
    omega

/-- `dispatch_inventory(prefix, now)`, after the start of its range was computed. -/
def readAll (api : PyStr → Py Value) (pref : PyStr) (W : Window) : Read (List Value) := do
  let first ← window api pref refresh W
  let second ← window api pref helper W
  let third ← window api pref continuation W
  pure (first ++ second ++ third)

/-- `dispatch_inventory(prefix, now)`. -/
def dispatchInventory (api : PyStr → Py Value) (pref : PyStr) (now : Instant) :
    Read (List Value) :=
  if now.seconds - ttl < minInstant then Program.raise .overflowError
  else readAll api pref (windowOf now)

/-- The start of a call. -/
def started : Run Unit PyStr Inventory := ⟨(), [], ⟨dispatchInventoryRequests, [], []⟩⟩

/-- Nothing but the call acts. -/
def alone : Env Unit Empty := ⟨fun _ => none, fun _ w => w⟩

/-! ## 5. What holds with any server: the budget and the leaves -/

section

variable {api : PyStr → Py Value} {pref workflow : PyStr} {W : Window}

/-- Requests are paid for. -/
def Paid (n : Nat) (s : Run Unit PyStr Inventory) : Prop := s.log.length + s.vars.remaining = n

theorem paid_read {n page : Nat} : Preserves alone (Paid n) (read api pref workflow W page) := by
  refine Triple.bind (Q := fun v s => Paid n s ∧ s.vars = v) (triple_locals fun s hs => ⟨hs, rfl⟩)
    fun v => ?_
  by_cases hv : v.remaining = 0
  · rw [if_pos hv]
    exact triple_raise fun s hs => hs.1
  · rw [if_neg hv]
    refine Triple.bind (Q := fun _ s => s.log.length + s.vars.remaining + 1 = n) ?_ fun _ => ?_
    · refine triple_assign fun s hs => ?_
      obtain ⟨hpaid, rfl⟩ := hs
      rw [Paid] at hpaid
      simp only
      omega
    · refine triple_perform (fun s a after hs _ => ?_) fun s e after hs _ => ?_
      · simp only [Paid, List.length_cons]
        omega
      · simp only [Paid, List.length_cons]
        omega

theorem paid_readPages {n total : Nat} {pages : List Nat} :
    Preserves alone (Paid n) (readPages api pref workflow W total pages) := by
  induction pages with
  | nil => exact preserves_pure
  | cons page pages ih =>
    refine paid_read.bind fun r => ?_
    exact Preserves.ite (fun _ => preserves_raise) fun _ => ih.bind fun _ => preserves_pure

theorem preserves_ofExcept {P : Run Unit PyStr Inventory → Prop} {α : Type} {r : Except PyError α} :
    Preserves alone P (Program.ofExcept r : Read α) := by
  intro s hs
  cases r <;> exact hs

theorem paid_leaf {n total : Nat} {batch : List Value} :
    Preserves alone (Paid n) (leaf api pref workflow W total batch) := by
  refine (preserves_assign fun s hs => hs).bind fun _ => ?_
  refine paid_readPages.bind fun rest => ?_
  refine preserves_locals.bind fun v => ?_
  refine preserves_ofExcept.bind fun seen => ?_
  exact (preserves_assign fun s hs => hs).bind fun _ => preserves_pure

theorem preserves_joinHalves {P : Run Unit PyStr Inventory → Prop} {total : Nat}
    {items : List Value} : Preserves alone P (joinHalves total items) :=
  Preserves.ite (fun _ => preserves_raise) fun _ => preserves_pure

theorem paid_window {n : Nat} : Preserves alone (Paid n) (window api pref workflow W) := by
  induction hspan : W.span using Nat.strong_induction_on generalizing W with
  | _ k ih =>
    subst hspan
    rw [window]
    refine paid_read.bind fun r => ?_
    refine Preserves.ite (fun _ => ?_) fun _ => paid_leaf
    by_cases h : W.lower = W.upper
    · rw [dif_pos h]
      exact preserves_raise
    · rw [dif_neg h]
      refine (ih _ (Window.span_left h) rfl).bind fun left => ?_
      exact (ih _ (Window.span_right h) rfl).bind fun right => preserves_joinHalves

/-- Ranges without a second in common, inside of a range. -/
structure Within (leaves : List Window) (W : Window) : Prop where
  inside : ∀ V ∈ leaves, ∀ t, V.Holds t → W.Holds t
  disjoint : leaves.Pairwise fun V V' => ∀ t, ¬ (V.Holds t ∧ V'.Holds t)

/-- Ranges that have each second of a range once. -/
structure Covers (leaves : List Window) (W : Window) : Prop extends Within leaves W where
  covered : ∀ t, W.Holds t → ∃ V ∈ leaves, V.Holds t

theorem within_nil : Within [] W := ⟨by simp, .nil⟩

theorem covers_singleton : Covers [W] W :=
  ⟨⟨by simp, List.pairwise_singleton _ _⟩, fun _ ht => ⟨W, List.mem_singleton_self W, ht⟩⟩

/-- The leaves of the left half, and those of the right half so far. -/
theorem Within.append {ls rs : List Window} (h : W.lower ≠ W.upper) (hl : Within ls W.left)
    (hr : Within rs (W.right h)) : Within (ls ++ rs) W where
  inside := by
    intro V hV t ht
    rcases List.mem_append.mp hV with hV | hV
    · exact (Window.holds_iff h).mpr (.inl (hl.inside V hV t ht))
    · exact (Window.holds_iff h).mpr (.inr (hr.inside V hV t ht))
  disjoint := by
    rw [List.pairwise_append]
    refine ⟨hl.disjoint, hr.disjoint, fun V hV V' hV' t ht => ?_⟩
    exact Window.not_both h ⟨hl.inside V hV t ht.1, hr.inside V' hV' t ht.2⟩

theorem Covers.append {ls rs : List Window} (h : W.lower ≠ W.upper) (hl : Covers ls W.left)
    (hr : Covers rs (W.right h)) : Covers (ls ++ rs) W where
  toWithin := hl.toWithin.append h hr.toWithin
  covered := by
    intro t ht
    rcases (Window.holds_iff h).mp ht with ht | ht
    · obtain ⟨V, hV, hVt⟩ := hl.covered t ht
      exact ⟨V, List.mem_append_left _ hV, hVt⟩
    · obtain ⟨V, hV, hVt⟩ := hr.covered t ht
      exact ⟨V, List.mem_append_right _ hV, hVt⟩

/-- The leaves after a range was read, or while it was. -/
def LeavesAre (old : List (PyStr × Window)) (workflow : PyStr) (P : List Window → Prop)
    (s : Run Unit PyStr Inventory) : Prop :=
  ∃ leaves : List Window, s.vars.leaves = old ++ leaves.map (fun V => (workflow, V)) ∧ P leaves

theorem leaves_read {page : Nat} {P : List (PyStr × Window) → Prop} :
    Preserves alone (fun s => P s.vars.leaves) (read api pref workflow W page) := by
  refine preserves_locals.bind fun v => ?_
  refine Preserves.ite (fun _ => preserves_raise) fun _ => ?_
  refine (preserves_assign fun s hs => hs).bind fun _ => ?_
  exact triple_perform (fun _ _ _ hs _ => hs) fun _ _ _ hs _ => hs

theorem leaves_readPages {total : Nat} {pages : List Nat} {P : List (PyStr × Window) → Prop} :
    Preserves alone (fun s => P s.vars.leaves) (readPages api pref workflow W total pages) := by
  induction pages with
  | nil => exact preserves_pure
  | cons page pages ih =>
    refine leaves_read.bind fun r => ?_
    exact Preserves.ite (fun _ => preserves_raise) fun _ => ih.bind fun _ => preserves_pure

theorem leaves_leaf {total : Nat} {batch : List Value} {old : List (PyStr × Window)} :
    Triple alone (fun s => s.vars.leaves = old) (leaf api pref workflow W total batch)
      (fun _ => LeavesAre old workflow fun leaves => Covers leaves W)
      fun _ => LeavesAre old workflow fun leaves => Within leaves W := by
  have hrest : Preserves alone (fun s => s.vars.leaves = old ++ [(workflow, W)]) (do
      let rest ← readPages api pref workflow W total (List.range' 2 ((total + 99) / 100 - 1))
      let v ← Program.locals
      let seen ← Program.ofExcept (checkRuns workflow W v.seen (batch ++ rest))
      Program.assign fun v => { v with seen := seen }
      pure (batch ++ rest)) := by
    refine (leaves_readPages (P := fun l => l = old ++ [(workflow, W)])).bind fun rest => ?_
    refine preserves_locals.bind fun v => ?_
    refine preserves_ofExcept.bind fun seen => ?_
    exact (preserves_assign fun s hs => hs).bind fun _ => preserves_pure
  refine Triple.bind (Q := fun _ s => s.vars.leaves = old ++ [(workflow, W)])
    (triple_assign fun s hs => by simp only [hs]) fun _ => ?_
  refine Triple.weaken hrest (fun _ h => h) (fun _ s hs => ?_) fun _ s hs => ?_
  · exact ⟨[W], hs, covers_singleton⟩
  · exact ⟨[W], hs, covers_singleton.toWithin⟩

/-- The leaves of a range: disjoint and inside of it, and all of it once it was read. -/
theorem leaves_window (old : List (PyStr × Window)) :
    Triple alone (fun s => s.vars.leaves = old) (window api pref workflow W)
      (fun _ => LeavesAre old workflow fun leaves => Covers leaves W)
      fun _ => LeavesAre old workflow fun leaves => Within leaves W := by
  induction hspan : W.span using Nat.strong_induction_on generalizing W old with
  | _ k ih =>
    subst hspan
    have hnone : ∀ s : Run Unit PyStr Inventory, s.vars.leaves = old →
        LeavesAre old workflow (fun leaves => Within leaves W) s := by
      intro s hs
      exact ⟨[], by simp [hs], within_nil⟩
    rw [window]
    refine Triple.bind (Q := fun _ s => s.vars.leaves = old)
      (Triple.weaken (leaves_read (P := fun l => l = old)) (fun _ h => h) (fun _ _ h => h)
        fun _ s hs => hnone s hs) fun r => ?_
    obtain ⟨total, batch⟩ := r
    dsimp only
    by_cases hsplit : 1000 ≤ total
    · rw [if_pos hsplit]
      by_cases h : W.lower = W.upper
      · rw [dif_pos h]
        exact triple_raise hnone
      · rw [dif_neg h]
        refine Triple.bind (Triple.weaken (ih _ (Window.span_left h) _ rfl) (fun _ h => h)
          (fun _ _ h => h) fun _ s hs => ?_) fun left => ?_
        · obtain ⟨ls, hleaves, hls⟩ := hs
          refine ⟨ls, hleaves, ?_⟩
          have := hls.append h within_nil
          rwa [List.append_nil] at this
        · rintro s ⟨ls, hleaves, hls⟩
          refine Triple.bind (P := fun s' => s'.vars.leaves = s.vars.leaves)
            (Q := fun _ => LeavesAre old workflow fun leaves => Covers leaves W)
            (Triple.weaken (ih _ (Window.span_right h) _ rfl) (fun _ h => h) ?_ ?_)
            (fun right => Triple.weaken preserves_joinHalves (fun _ h => h) (fun _ _ h => h)
              fun _ s' hs' => ?_) s rfl
          · rintro _ s' ⟨rs, hleaves', hrs⟩
            refine ⟨ls ++ rs, ?_, hls.append h hrs⟩
            rw [hleaves', hleaves, List.map_append, List.append_assoc]
          · rintro _ s' ⟨rs, hleaves', hrs⟩
            refine ⟨ls ++ rs, ?_, hls.toWithin.append h hrs⟩
            rw [hleaves', hleaves, List.map_append, List.append_assoc]
          · obtain ⟨leaves, hall, hcovers⟩ := hs'
            exact ⟨leaves, hall, hcovers.toWithin⟩
    · rw [if_neg hsplit]
      exact leaves_leaf

end

end Supplementary.Reconcile
