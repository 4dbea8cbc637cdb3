/-
# What the inventory finds

The server is the search API: it has some runs of each workflow, counts those of a range up to a cap of
at least 1000, and serves them in pages of 100.  `Serves.window` says of a range that what is returned
are its runs, and that nothing is raised if no second has 1000 of them, none was seen before and the
budget suffices; `dispatchInventory_spec` puts the three workflows together.
-/
import Supplementary.Reconcile.Inventory
import Mathlib.Data.List.Perm.Basic
import Mathlib.Data.List.Nodup

namespace Supplementary.Reconcile

open Machine PyStr

/-! ## 1. The server -/

/-- The identity of a run. -/
def runId (run : Value) : Option Int := match run.get "id" with
  | .int id => some id
  | _ => none

/-- The second at which a run was created. -/
def createdAt (run : Value) : Option Int := match run.get "created_at" with
  | .str timestamp => (instantOf timestamp).toOption
  | _ => none

/-- Whether a run was created in a range. -/
def createdIn (W : Window) (run : Value) : Bool := match createdAt run with
  | some t => W.Holds t
  | none => false

/-- A `workflow_dispatch` run of a workflow. -/
structure IsRun (workflow : PyStr) (run : Value) : Prop where
  isDict : run.isDict = true
  id : ∃ id, run.get "id" = .int id ∧ 0 < id
  created : ∃ timestamp t, run.get "created_at" = .str timestamp ∧ instantOf timestamp = .ok t
  path : run.get "path" = .str (pathOf workflow)
  event : run.get "event" = .str "workflow_dispatch"

/-- A page of what a search found. -/
def pageOf (found : List Value) (page : Nat) : List Value := (found.drop (100 * (page - 1))).take 100

/-- A search API that has those runs, counts up to `cap` results, and serves those of an inclusive range
in the order of `listing`. -/
structure Serves (api : PyStr → Py Value) (pref : PyStr) (runs : PyStr → List Value)
    (listing : PyStr → Window → List Value) (cap : Nat) : Prop where
  capped : 1000 ≤ cap
  isRun : ∀ workflow ∈ workflows, ∀ run ∈ runs workflow, IsRun workflow run
  ids : ((workflows.flatMap runs).map runId).Nodup
  lists : ∀ workflow ∈ workflows, ∀ W : Window, W.IsDated →
    (listing workflow W).Perm ((runs workflow).filter (createdIn W))
  answers : ∀ workflow ∈ workflows, ∀ W : Window, W.IsDated → ∀ page, 1 ≤ page →
    ∃ response, api (routeOf pref workflow W page) = .ok response ∧ response.isDict = true ∧
      response.get "total_count" = .int (min (listing workflow W).length cap) ∧
      response.get "workflow_runs" = .list (pageOf ((listing workflow W).take cap) page)

/-- How many runs of a workflow were created in a range. -/
def count (runs : PyStr → List Value) (workflow : PyStr) (W : Window) : Nat :=
  ((runs workflow).filter (createdIn W)).length

/-- The requests that a range takes. -/
def cost (runs : PyStr → List Value) (workflow : PyStr) (W : Window) : Nat :=
  if 1000 ≤ count runs workflow W then
    if h : W.lower = W.upper then 1
    else 1 + cost runs workflow W.left + cost runs workflow (W.right h)
  else 1 + ((count runs workflow W + 99) / 100 - 1)
termination_by W.span
decreasing_by
  · exact Window.span_left h
  · exact Window.span_right h

/-- No second of the range has 1000 runs. -/
def Unsaturated (runs : PyStr → List Value) (workflow : PyStr) : Prop :=
  ∀ W : Window, W.lower = W.upper → count runs workflow W < 1000

section

variable {api : PyStr → Py Value} {pref workflow : PyStr} {runs : PyStr → List Value}
variable {listing : PyStr → Window → List Value} {cap : Nat} {W : Window}

theorem createdIn_iff {run : Value} :
    createdIn W run = true ↔ ∃ t, createdAt run = some t ∧ W.Holds t := by
  unfold createdIn
  cases createdAt run <;> simp

theorem createdIn_split (h : W.lower ≠ W.upper) (run : Value) :
    createdIn W run = (createdIn W.left run || createdIn (W.right h) run) := by
  rw [Bool.eq_iff_iff, Bool.or_eq_true, createdIn_iff, createdIn_iff, createdIn_iff, ← exists_or]
  refine exists_congr fun t => ?_
  rw [Window.holds_iff h, and_or_left]

theorem not_createdIn_both (h : W.lower ≠ W.upper) {run : Value}
    (hleft : createdIn W.left run = true) : createdIn (W.right h) run = false := by
  rw [Bool.eq_false_iff, Ne, createdIn_iff]
  rintro ⟨t, ht, hright⟩
  obtain ⟨t', ht', hleft'⟩ := createdIn_iff.mp hleft
  rw [ht] at ht'
  cases ht'
  exact Window.not_both h ⟨hleft', hright⟩

/-- The runs of a range are those of its halves. -/
theorem filter_split (h : W.lower ≠ W.upper) (l : List Value) :
    (l.filter (createdIn W.left) ++ l.filter (createdIn (W.right h))).Perm
      (l.filter (createdIn W)) := by
  induction l with
  | nil => exact .nil
  | cons run l ih =>
    by_cases hleft : createdIn W.left run = true
    · have hright := not_createdIn_both h hleft
      have hboth : createdIn W run = true := by rw [createdIn_split h, hleft, Bool.true_or]
      rw [List.filter_cons_of_pos hleft, List.filter_cons_of_neg (by simp [hright]),
        List.filter_cons_of_pos hboth]
      exact ih.cons run
    · rw [Bool.not_eq_true] at hleft
      by_cases hright : createdIn (W.right h) run = true
      · have hboth : createdIn W run = true := by rw [createdIn_split h, hright, Bool.or_true]
        rw [List.filter_cons_of_neg (by simp [hleft]), List.filter_cons_of_pos hright,
          List.filter_cons_of_pos hboth]
        exact List.perm_middle.trans (ih.cons run)
      · rw [Bool.not_eq_true] at hright
        have hboth : createdIn W run = false := by rw [createdIn_split h, hleft, hright, Bool.or_false]
        rw [List.filter_cons_of_neg (by simp [hleft]), List.filter_cons_of_neg (by simp [hright]),
          List.filter_cons_of_neg (by simp [hboth])]
        exact ih

theorem length_pageOf {found : List Value} {page : Nat} :
    (pageOf found page).length = min 100 (found.length - (page - 1) * 100) := by
  rw [pageOf, List.length_take, List.length_drop, Nat.mul_comm]

/-- What a response of the server says. -/
theorem Serves.response (h : Serves api pref runs listing cap) (hw : workflow ∈ workflows)
    (hW : W.IsDated) {page : Nat} (hpage : 1 ≤ page) :
    (api (routeOf pref workflow W page) >>= checkResponse page) =
      .ok (min (count runs workflow W) cap, pageOf ((listing workflow W).take cap) page) := by
  obtain ⟨response, hresponse, hdict, htotal, hbatch⟩ := h.answers workflow hw W hW page hpage
  have hlength : (listing workflow W).length = count runs workflow W :=
    (h.lists workflow hw W hW).length_eq
  rw [hresponse, ok_bind]
  cases response with
  | dict entries =>
    rw [checkResponse]
    simp only [htotal, hbatch]
    rw [if_neg (by omega), if_neg]
    · simp only [hlength]
      rw [← hlength]
      simp
      omega
    · rw [length_pageOf, List.length_take]
      simp only [not_not]
      omega
  | _ => cases hdict

/-- One request of the server. -/
theorem Serves.read (h : Serves api pref runs listing cap) (hw : workflow ∈ workflows)
    (hW : W.IsDated) {page : Nat} (hpage : 1 ≤ page) (v : Inventory) :
    Triple alone (fun s => s.vars = v) (read api pref workflow W page)
      (fun r s => r = (min (count runs workflow W) cap, pageOf ((listing workflow W).take cap) page) ∧
        1 ≤ v.remaining ∧ s.vars = { v with remaining := v.remaining - 1 })
      fun _ _ => v.remaining < 1 := by
  refine Triple.bind (Q := fun v' s => v' = v ∧ s.vars = v) (triple_locals fun s hs => ⟨hs, hs⟩)
    fun v' => triple_of_prop ?_
  rintro rfl
  by_cases hv : v'.remaining = 0
  · rw [if_pos hv]
    exact triple_raise fun _ _ => by omega
  · rw [if_neg hv]
    refine Triple.bind (Q := fun _ s => s.vars = { v' with remaining := v'.remaining - 1 })
      (triple_assign fun s hs => by rw [hs]) fun _ => ?_
    refine triple_perform (fun s a after hs hact => ?_) fun s e after hs hact => ?_
    · rw [h.response hw hW hpage] at hact
      cases hact
      exact ⟨rfl, by omega, hs⟩
    · rw [h.response hw hW hpage] at hact
      cases hact

/-- The other pages of a leaf. -/
theorem Serves.readPages (h : Serves api pref runs listing cap) (hw : workflow ∈ workflows)
    (hW : W.IsDated) {first : Nat} (hfirst : 1 ≤ first) (pages : Nat) (v : Inventory) :
    Triple alone (fun s => s.vars = v)
      (readPages api pref workflow W (min (count runs workflow W) cap) (List.range' first pages))
      (fun rest s =>
        rest = (((listing workflow W).take cap).drop (100 * (first - 1))).take (100 * pages) ∧
          pages ≤ v.remaining ∧ s.vars = { v with remaining := v.remaining - pages })
      fun _ _ => v.remaining < pages := by
  induction pages generalizing first v with
  | zero => exact triple_pure fun s hs => ⟨by simp, Nat.zero_le _, by simpa using hs⟩
  | succ pages ih =>
    rw [List.range'_succ, Reconcile.readPages]
    refine Triple.bind (Triple.weaken (h.read hw hW hfirst v) (fun _ h => h) (fun _ _ h => h)
      fun _ _ hlow => by omega) fun r => ?_
    refine triple_of_prop ?_
    rintro rfl
    refine triple_of_prop fun hone => ?_
    dsimp only
    rw [if_neg (by simp)]
    refine Triple.bind (Triple.weaken (ih (Nat.le_add_left 1 first)
      { v with remaining := v.remaining - 1 }) (fun _ h => h) (fun _ _ h => h)
      fun _ _ hlow => ?_) fun rest => ?_
    · simp only at hlow
      omega
    · refine triple_of_prop ?_
      rintro rfl
      refine triple_of_prop fun hmany => triple_pure fun s hs => ?_
      simp only at hmany
      refine ⟨?_, by omega, ?_⟩
      · rw [pageOf, Nat.add_sub_cancel, Nat.mul_succ, Nat.add_comm (100 * pages) 100, List.take_add,
          List.drop_drop]
        congr 3
        omega
      · rw [hs]
        simp only [Inventory.mk.injEq, and_self, and_true]
        omega

/-! ## 2. The runs of a leaf -/

/-- What is seen after the runs of a leaf. -/
theorem seen_of_checkRuns {items : List Value} {seen seen' : List Int}
    (h : checkRuns workflow W seen items = .ok seen') :
    seen' = (items.filterMap runId).reverse ++ seen := by
  induction items generalizing seen with
  | nil =>
    cases h
    rfl
  | cons run items ih =>
    rw [checkRuns] at h
    obtain ⟨id, hid, hrest⟩ := bind_eq_ok.mp h
    have hrun : runId run = some id := by
      unfold checkRun at hid
      cases run with
      | dict entries =>
        simp only at hid
        rw [runId]
        cases hvalue : Value.get (.dict entries) "id" with
        | int n =>
          rw [hvalue] at hid
          simp only at hid ⊢
          split at hid
          · cases hid
          · split at hid
            · cases hid
            · split at hid
              · obtain ⟨t, -, hid⟩ := bind_eq_ok.mp hid
                split at hid
                · cases hid
                  rfl
                · cases hid
              · cases hid
        | _ =>
          rw [hvalue] at hid
          cases hid
      | _ => cases hid
    rw [ih hrest, List.filterMap_cons_some hrun]
    simp

/-- A run of the range that was not seen passes. -/
theorem IsRun.checkRun {run : Value} {seen : List Int} (h : IsRun workflow run)
    (hin : createdIn W run = true) (hnew : ∀ id, runId run = some id → id ∉ seen) :
    ∃ id, runId run = some id ∧ checkRun workflow W seen run = .ok id := by
  obtain ⟨id, hid, hpos⟩ := h.id
  obtain ⟨timestamp, t, htimestamp, ht⟩ := h.created
  have hrun : runId run = some id := by rw [runId, hid]
  have hholds : W.Holds t := by
    obtain ⟨t', ht', hholds⟩ := createdIn_iff.mp hin
    rw [createdAt, htimestamp] at ht'
    simp only [ht, Except.toOption, Option.some.injEq] at ht'
    rw [ht']
    exact hholds
  refine ⟨id, hrun, ?_⟩
  have hpath : isStr (run.get "path") (pathOf workflow) = true := by
    rw [h.path]
    simp [isStr]
  have hevent : isStr (run.get "event") "workflow_dispatch" = true := by
    rw [h.event]
    simp [isStr]
  have hdict := h.isDict
  cases run with
  | dict entries =>
    rw [Reconcile.checkRun]
    simp only [hid]
    rw [if_neg (by omega), if_neg (hnew id hrun)]
    simp only [htimestamp]
    rw [ht, ok_bind, if_pos ⟨hholds, hpath, hevent⟩]
  | _ => cases hdict

theorem exists_checkRuns {items : List Value} (seen : List Int)
    (hruns : ∀ run ∈ items, IsRun workflow run ∧ createdIn W run = true)
    (hnodup : (items.filterMap runId ++ seen).Nodup) :
    ∃ seen', checkRuns workflow W seen items = .ok seen' := by
  induction items generalizing seen with
  | nil => exact ⟨seen, rfl⟩
  | cons run items ih =>
    obtain ⟨hrun, hin⟩ := hruns run List.mem_cons_self
    have hnew : ∀ id, runId run = some id → id ∉ seen := by
      intro id hid hmem
      rw [List.filterMap_cons_some hid, List.cons_append, List.nodup_cons] at hnodup
      exact hnodup.1 (List.mem_append_right _ hmem)
    obtain ⟨id, hid, hcheck⟩ := hrun.checkRun hin hnew
    rw [List.filterMap_cons_some hid, List.cons_append] at hnodup
    obtain ⟨seen', hseen'⟩ := ih (id :: seen) (fun r hr => hruns r (List.mem_cons_of_mem _ hr))
      (List.perm_middle.nodup_iff.mpr hnodup)
    exact ⟨seen', by rw [checkRuns, hcheck, ok_bind, hseen']⟩

/-- Runs that were found in a range. -/
theorem Serves.of_perm (h : Serves api pref runs listing cap) (hw : workflow ∈ workflows)
    {items : List Value} (hitems : items.Perm ((runs workflow).filter (createdIn W))) :
    ∀ run ∈ items, IsRun workflow run ∧ createdIn W run = true := by
  intro run hrun
  have hmem := List.mem_filter.mp (hitems.mem_iff.mp hrun)
  exact ⟨h.isRun workflow hw run hmem.1, hmem.2⟩

/-- No run of a range was seen before. -/
def Fresh (runs : PyStr → List Value) (workflow : PyStr) (W : Window) (seen : List Int) : Prop :=
  (((runs workflow).filter (createdIn W)).filterMap runId ++ seen).Nodup

/-- A leaf: all of its runs, if the budget suffices and none was seen. -/
theorem Serves.leaf (h : Serves api pref runs listing cap) (hw : workflow ∈ workflows)
    (hW : W.IsDated) (hleaf : count runs workflow W < 1000) (v : Inventory) :
    Triple alone (fun s => s.vars = v)
      (leaf api pref workflow W (min (count runs workflow W) cap)
        (pageOf ((listing workflow W).take cap) 1))
      (fun items s => items.Perm ((runs workflow).filter (createdIn W)) ∧
        s.vars.seen = (items.filterMap runId).reverse ++ v.seen ∧
        s.vars.remaining + ((count runs workflow W + 99) / 100 - 1) = v.remaining)
      fun _ _ => ¬ (Fresh runs workflow W v.seen ∧
        (count runs workflow W + 99) / 100 - 1 ≤ v.remaining) := by
  have hcap := h.capped
  have hlength : (listing workflow W).length = count runs workflow W :=
    (h.lists workflow hw W hW).length_eq
  have hmin : min (count runs workflow W) cap = count runs workflow W := by omega
  have hall : (listing workflow W).take cap = listing workflow W :=
    List.take_of_length_le (by omega)
  rw [Reconcile.leaf]
  refine Triple.bind (Q := fun _ s => s.vars = { v with leaves := v.leaves ++ [(workflow, W)] })
    (triple_assign fun s hs => by rw [hs]) fun _ => ?_
  rw [hmin]
  have hpages := h.readPages hw hW (Nat.le_succ 1) ((count runs workflow W + 99) / 100 - 1)
    { v with leaves := v.leaves ++ [(workflow, W)] }
  rw [hmin] at hpages
  refine Triple.bind (Triple.weaken hpages (fun _ h => h) (fun _ _ h => h) fun _ _ hlow => ?_)
    fun rest => ?_
  · rintro ⟨-, hbudget⟩
    simp only at hlow
    omega
  · refine triple_of_prop fun hrest => triple_of_prop fun hbudget => ?_
    simp only at hbudget
    have hitems : pageOf ((listing workflow W).take cap) 1 ++ rest = listing workflow W := by
      rw [hrest, pageOf, hall]
      simp only [Nat.sub_self, Nat.mul_zero, List.drop_zero, Nat.succ_eq_add_one,
        Nat.add_sub_cancel, Nat.mul_one]
      rw [← List.take_add]
      exact List.take_of_length_le (by omega)
    rw [hitems]
    have hperm := h.lists workflow hw W hW
    refine Triple.bind (Q := fun v' s => v'.seen = v.seen ∧ s.vars.remaining =
      v.remaining - ((count runs workflow W + 99) / 100 - 1)) (triple_locals fun s hs => ?_)
      fun v' => triple_of_prop fun hv' => ?_
    · rw [hs]
      exact ⟨rfl, rfl⟩
    · rw [hv']
      refine Triple.bind (Q := fun seen s => checkRuns workflow W v.seen (listing workflow W) = .ok seen ∧
        s.vars.remaining = v.remaining - ((count runs workflow W + 99) / 100 - 1)) ?_
        fun seen => triple_of_prop fun hseen => ?_
      · intro s hs
        cases hchecks : checkRuns workflow W v.seen (listing workflow W) with
        | ok seen => exact ⟨rfl, hs⟩
        | error e =>
          rintro ⟨hfresh, -⟩
          obtain ⟨seen, hseen⟩ := exists_checkRuns v.seen (h.of_perm hw hperm)
            (((hperm.filterMap runId).append_right v.seen).nodup_iff.mpr hfresh)
          rw [hchecks] at hseen
          cases hseen
      · refine Triple.bind (Q := fun _ s => s.vars.seen = seen ∧ s.vars.remaining =
          v.remaining - ((count runs workflow W + 99) / 100 - 1))
          (triple_assign fun s hs => ⟨rfl, hs⟩) fun _ => triple_pure fun s hs => ?_
        refine ⟨hperm, ?_, ?_⟩
        · rw [hs.1, seen_of_checkRuns hseen]
        · rw [hs.2]
          omega

/-! ## 3. Ranges -/

theorem Window.IsDated.left (h : W.IsDated) : W.left.IsDated := by
  have hle := W.le
  simp only [Window.IsDated, Window.left] at h ⊢
  omega

theorem Window.IsDated.right (h : W.IsDated) (heq : W.lower ≠ W.upper) : (W.right heq).IsDated := by
  have hle := W.le
  simp only [Window.IsDated, Window.right] at h ⊢
  omega

/-- A range that is split costs its two halves and the request that found it too large. -/
theorem cost_split (hmany : 1000 ≤ count runs workflow W) (heq : W.lower ≠ W.upper) :
    cost runs workflow W = 1 + cost runs workflow W.left + cost runs workflow (W.right heq) := by
  rw [cost, if_pos hmany, dif_neg heq]

/-- What is fresh for the range is fresh for its halves, one after the other. -/
theorem fresh_split (heq : W.lower ≠ W.upper) {seen : List Int} (h : Fresh runs workflow W seen) :
    Fresh runs workflow W.left seen ∧
      ∀ items : List Value, items.Perm ((runs workflow).filter (createdIn W.left)) →
        Fresh runs workflow (W.right heq) ((items.filterMap runId).reverse ++ seen) := by
  have hnodup := (((filter_split heq (runs workflow)).filterMap runId).append_right seen).nodup_iff.mpr h
  rw [List.filterMap_append, List.append_assoc] at hnodup
  constructor
  · exact hnodup.sublist ((List.sublist_append_right _ _).append_left _)
  · intro items hitems
    refine List.Perm.nodup_iff ?_ |>.mp hnodup
    refine (List.perm_append_comm_assoc _ _ _).trans (List.Perm.append_left _ ?_)
    exact ((hitems.filterMap runId).symm.trans (List.reverse_perm _).symm).append_right seen

/-- A range: all of its runs, if the budget suffices, no second has 1000 runs and none was seen. -/
theorem Serves.window (h : Serves api pref runs listing cap) (hw : workflow ∈ workflows)
    (hW : W.IsDated) (v : Inventory) :
    Triple alone (fun s => s.vars = v) (window api pref workflow W)
      (fun items s => items.Perm ((runs workflow).filter (createdIn W)) ∧
        s.vars.seen = (items.filterMap runId).reverse ++ v.seen ∧
        s.vars.remaining + cost runs workflow W = v.remaining)
      fun _ _ => ¬ (Unsaturated runs workflow ∧ Fresh runs workflow W v.seen ∧
        cost runs workflow W ≤ v.remaining) := by
  have hcap := h.capped
  induction hspan : W.span using Nat.strong_induction_on generalizing W v with
  | _ k ih =>
    subst hspan
    rw [Reconcile.window]
    refine Triple.bind (Triple.weaken (h.read hw hW le_rfl v) (fun _ h => h) (fun _ _ h => h)
      fun _ _ hlow => ?_) fun r => ?_
    · rintro ⟨-, -, hbudget⟩
      rw [cost] at hbudget
      split at hbudget
      · split at hbudget <;> omega
      · omega
    · refine triple_of_prop ?_
      rintro rfl
      refine triple_of_prop fun hone => ?_
      dsimp only
      by_cases hsplit : 1000 ≤ min (count runs workflow W) cap
      · have hmany : 1000 ≤ count runs workflow W := by omega
        rw [if_pos hsplit]
        by_cases heq : W.lower = W.upper
        · rw [dif_pos heq]
          refine triple_raise fun _ _ hall => ?_
          have := hall.1 W heq
          omega
        · rw [dif_neg heq]
          have hcost : cost runs workflow W =
              1 + cost runs workflow W.left + cost runs workflow (W.right heq) := cost_split hmany heq
          refine Triple.bind (Triple.weaken (ih _ (Window.span_left heq) hW.left
            { v with remaining := v.remaining - 1 } rfl) (fun _ h => h) (fun _ _ h => h)
            fun _ _ hlow hall => hlow ?_) fun left => ?_
          · rw [hcost] at hall
            exact ⟨hall.1, (fresh_split heq hall.2.1).1, by simp only; omega⟩
          · intro s hs
            obtain ⟨hitems, hseen, hbudget⟩ := hs
            simp only at hseen hbudget
            refine Triple.bind (Triple.weaken (ih _ (Window.span_right heq) (hW.right heq) s.vars rfl)
              (fun _ h => h) (fun _ _ h => h) fun _ _ hlow hall => hlow ?_) (fun right => ?_) s rfl
            · rw [hcost] at hall
              refine ⟨hall.1, ?_, by omega⟩
              rw [hseen]
              exact (fresh_split heq hall.2.1).2 left hitems
            · refine triple_of_prop fun hitems' => ?_
              have hperm : (left ++ right).Perm ((runs workflow).filter (createdIn W)) :=
                (hitems.append hitems').trans (filter_split heq (runs workflow))
              have hlength : (left ++ right).length = count runs workflow W := hperm.length_eq
              rw [joinHalves, if_neg (by omega)]
              refine triple_pure fun s' hs' => ⟨hperm, ?_, ?_⟩
              · rw [hs'.1, hseen, List.filterMap_append, List.reverse_append, List.append_assoc]
              · rw [hcost]
                omega
      · have hleaf : count runs workflow W < 1000 := by omega
        have hcost : cost runs workflow W = 1 + ((count runs workflow W + 99) / 100 - 1) := by
          rw [cost, if_neg (by omega)]
        rw [if_neg hsplit]
        refine Triple.weaken (h.leaf hw hW hleaf { v with remaining := v.remaining - 1 })
          (fun _ h => h) (fun items s hs => ?_) fun _ _ hlow hall => hlow ?_
        · refine ⟨hs.1, hs.2.1, ?_⟩
          have hbudget := hs.2.2
          simp only at hbudget
          omega
        · refine ⟨hall.2.1, ?_⟩
          have hbudget := hall.2.2
          simp only
          omega

/-! ## 4. The whole inventory -/

/-- The runs of the range, workflow by workflow. -/
def allRuns (runs : PyStr → List Value) (W : Window) : List Value :=
  workflows.flatMap fun workflow => (runs workflow).filter (createdIn W)

/-- The requests that the range takes for all workflows. -/
def totalCost (runs : PyStr → List Value) (W : Window) : Nat :=
  (workflows.map fun workflow => cost runs workflow W).sum

/-- The runs of the workflows have distinct identities. -/
theorem Serves.nodup_ids (h : Serves api pref runs listing cap) (W : Window) :
    ((allRuns runs W).map runId).Nodup := by
  refine h.ids.sublist (List.Sublist.map runId ?_)
  simp only [allRuns, workflows, List.flatMap_cons, List.flatMap_nil]
  exact List.Sublist.append List.filter_sublist
    (List.Sublist.append List.filter_sublist
      (List.Sublist.append List.filter_sublist (List.Sublist.refl _)))

theorem nodup_filterMap_of_map {l : List Value} (h : (l.map runId).Nodup) :
    (l.filterMap runId).Nodup := by
  have heq : l.filterMap runId = (l.map runId).filterMap id := by
    rw [List.filterMap_map]
    rfl
  rw [heq]
  exact h.filterMap fun a b c ha hb => by
    simp only [id_eq, Option.mem_def] at ha hb
    rw [ha, hb]

/-- All workflows: all of their runs, if the budget suffices and no second has 1000 runs. -/
theorem Serves.readAll (h : Serves api pref runs listing cap) (hW : W.IsDated) :
    Triple alone (fun s => s.vars = ⟨dispatchInventoryRequests, [], []⟩) (readAll api pref W)
      (fun items _ => items.Perm (allRuns runs W))
      fun _ _ => ¬ ((∀ workflow ∈ workflows, Unsaturated runs workflow) ∧
        totalCost runs W ≤ dispatchInventoryRequests) := by
  have hnodup := nodup_filterMap_of_map (h.nodup_ids W)
  simp only [allRuns, workflows, List.flatMap_cons, List.flatMap_nil, List.append_nil,
    List.filterMap_append] at hnodup
  have htotal : totalCost runs W =
      cost runs refresh W + (cost runs helper W + cost runs continuation W) := by
    simp [totalCost, workflows]
  have hrefresh : refresh ∈ workflows := by simp [workflows]
  have hhelper : helper ∈ workflows := by simp [workflows]
  have hcontinuation : continuation ∈ workflows := by simp [workflows]
  rw [Reconcile.readAll]
  refine Triple.bind (Triple.weaken (h.window hrefresh hW _) (fun _ h => h) (fun _ _ h => h)
    fun _ _ hlow hall => hlow ?_) fun first => ?_
  · refine ⟨hall.1 _ hrefresh, ?_, by have := hall.2; simp only; omega⟩
    rw [Fresh, List.append_nil]
    exact hnodup.sublist (List.sublist_append_left _ _)
  · rintro s ⟨hfirst, hseen, hbudget⟩
    simp only [List.append_nil] at hseen hbudget
    have hids₁ := (hfirst.filterMap runId).symm.trans (List.reverse_perm _).symm
    refine Triple.bind (Triple.weaken (h.window hhelper hW s.vars) (fun _ h => h)
      (fun _ _ h => h) fun _ _ hlow hall => hlow ?_) (fun second => ?_) s rfl
    · refine ⟨hall.1 _ hhelper, ?_, by have := hall.2; omega⟩
      rw [Fresh, hseen]
      refine (List.Perm.nodup_iff ?_).mp (hnodup.sublist (List.Sublist.append_left
        (List.sublist_append_left _ _) _))
      exact List.perm_append_comm.trans (hids₁.append_left _)
    · rintro s' ⟨hsecond, hseen', hbudget'⟩
      have hids₂ := (hsecond.filterMap runId).symm.trans (List.reverse_perm _).symm
      refine Triple.bind (Triple.weaken (h.window hcontinuation hW s'.vars) (fun _ h => h)
        (fun _ _ h => h) fun _ _ hlow hall => hlow ?_) (fun third => ?_) s' rfl
      · refine ⟨hall.1 _ hcontinuation, ?_, by have := hall.2; omega⟩
        rw [Fresh, hseen', hseen]
        refine (List.Perm.nodup_iff ?_).mp hnodup
        rw [← List.append_assoc]
        refine List.perm_append_comm.trans (List.Perm.append_left _ ?_)
        exact List.perm_append_comm.trans (hids₂.append hids₁)
      · refine triple_pure fun _ hthird => ?_
        simp only [allRuns, workflows, List.flatMap_cons, List.flatMap_nil, List.append_nil]
        rw [List.append_assoc]
        exact hfirst.append (hsecond.append hthird.1)

/-- The leaves of a workflow in a state. -/
def leavesOf (workflow : PyStr) (s : Run Unit PyStr Inventory) : List Window :=
  s.vars.leaves.filterMap fun entry => if entry.1 = workflow then some entry.2 else none

/-- The leaves of three ranges, one after the other. -/
def LeavesOf (P : List Window → Prop) (s : Run Unit PyStr Inventory) : Prop :=
  ∀ workflow ∈ workflows, P (leavesOf workflow s)

theorem leavesOf_append {s : Run Unit PyStr Inventory} {old : List (PyStr × Window)}
    {leaves : List Window} {w : PyStr}
    (h : s.vars.leaves = old ++ leaves.map fun V => (workflow, V)) :
    leavesOf w s = (old.filterMap fun entry => if entry.1 = w then some entry.2 else none) ++
      if workflow = w then leaves else [] := by
  rw [leavesOf, h, List.filterMap_append, List.filterMap_map]
  split
  · next heq => simp [heq]
  · next hne => simp [hne]

/-- The leaves of all workflows. -/
theorem leaves_readAll :
    Triple alone (fun s => s.vars.leaves = []) (readAll api pref W)
      (fun _ => LeavesOf fun leaves => Covers leaves W)
      fun _ => LeavesOf fun leaves => Within leaves W := by
  have hrh : refresh ≠ helper := by decide
  have hrc : refresh ≠ continuation := by decide
  have hhc : helper ≠ continuation := by decide
  rw [Reconcile.readAll]
  refine Triple.bind (Triple.weaken (leaves_window []) (fun _ h => h) (fun _ _ h => h) ?_)
    fun first => ?_
  · rintro _ s ⟨ls, hls, hwithin⟩ w hw
    rw [leavesOf_append hls]
    simp only [workflows, List.mem_cons, List.not_mem_nil, or_false] at hw
    rcases hw with rfl | rfl | rfl
    · simpa using hwithin
    · simpa [hrh] using within_nil
    · simpa [hrc] using within_nil
  · rintro s ⟨ls, hls, hcovers⟩
    refine Triple.bind (Triple.weaken (leaves_window s.vars.leaves) (fun _ h => h)
      (fun _ _ h => h) ?_) (fun second => ?_) s rfl
    · rintro _ s' ⟨ls', hls', hwithin⟩ w hw
      rw [leavesOf_append hls', ← leavesOf, leavesOf_append hls]
      simp only [workflows, List.mem_cons, List.not_mem_nil, or_false] at hw
      rcases hw with rfl | rfl | rfl
      · simpa [hrh.symm] using hcovers.toWithin
      · simpa [hrh] using hwithin
      · simpa [hrc, hhc] using within_nil
    · rintro s' ⟨ls', hls', hcovers'⟩
      refine Triple.bind (Triple.weaken (leaves_window s'.vars.leaves) (fun _ h => h)
        (fun _ _ h => h) ?_) (fun third => triple_pure ?_) s' rfl
      · rintro _ s'' ⟨ls'', hls'', hwithin⟩ w hw
        rw [leavesOf_append hls'', ← leavesOf, leavesOf_append hls', ← leavesOf,
          leavesOf_append hls]
        simp only [workflows, List.mem_cons, List.not_mem_nil, or_false] at hw
        rcases hw with rfl | rfl | rfl
        · simpa [hrh.symm, hrc.symm] using hcovers.toWithin
        · simpa [hrh, hhc.symm] using hcovers'.toWithin
        · simpa [hrc, hhc] using hwithin
      · rintro s'' ⟨ls'', hls'', hcovers''⟩ w hw
        rw [leavesOf_append hls'', ← leavesOf, leavesOf_append hls', ← leavesOf,
          leavesOf_append hls]
        simp only [workflows, List.mem_cons, List.not_mem_nil, or_false] at hw
        rcases hw with rfl | rfl | rfl
        · simpa [hrh.symm, hrc.symm] using hcovers
        · simpa [hrh, hhc.symm] using hcovers'
        · simpa [hrc, hhc] using hcovers''

end

/-! ## 5. A repository without dispatches -/

/-- What the search answers there. -/
def emptySearch : PyStr → Py Value := fun _ =>
  .ok (.dict [("total_count", .int 0), ("workflow_runs", .list [])])

theorem emptySearch_serves :
    Serves emptySearch "repos/lightning-it/.github" (fun _ => []) (fun _ _ => []) 1000 where
  capped := le_rfl
  isRun := fun _ _ _ hrun => nomatch hrun
  ids := List.nodup_nil
  lists := fun _ _ _ _ => .nil
  answers := fun _ _ _ _ _ _ => ⟨_, rfl, rfl, rfl, by simp [pageOf]; rfl⟩

end Supplementary.Reconcile
