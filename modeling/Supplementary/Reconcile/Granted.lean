/-
# What a dispatch is granted on

`dispatch_granted`: whatever a reconciliation is answered, each dispatch is for another pull request of the
list, in the order of the list.  When it is asked for, no dispatched run of its title is active and the
latest was updated ten minutes before or more, and the last thing that was read is the pull request,
with the head, the base, the author and the repositories that it was listed with.

A part of the loop either dispatches nothing (`Only IsQuiet`) or is `carryOut`; the induction over the
list adds up what `ends_reconcilePull` says of one pull request (`dispatched_cons`).
-/
import Supplementary.Lib.Answered
import Supplementary.Lib.Within
import Supplementary.Reconcile.Dispatch
import Mathlib.Algebra.Order.Ring.Unbundled.Rat

namespace Supplementary.Reconcile

open Effects PyStr

/-! ## 1. What dispatches nothing -/

def IsDispatch : ReconcileOp → Bool
  | .dispatch _ _ _ => true
  | _ => false

def IsQuiet (op : ReconcileOp) : Prop := IsDispatch op = false

section

variable {host : Host} {repository : PyStr} {now : Int} {pr : Pull} {route : PyStr}

theorem quiet_read : Only IsQuiet (Act.call (ReconcileOp.read route) : ReconcileAct Value) := only_call rfl

theorem quiet_inventory {pref : PyStr} :
    Only IsQuiet (Act.call (ReconcileOp.inventory pref) : ReconcileAct (List Value)) := only_call rfl

theorem quiet_pagesFrom {key : Option PyStr} {left : List Nat} {total : Option Int} {items : List Value} :
    Only IsQuiet (pagesFrom route key left total items) := by
  induction left generalizing total items with
  | nil => exact only_ofExcept
  | cons page left ih =>
    refine quiet_read.bind fun response => only_lift_bind fun r => ?_
    rcases r with ⟨batch, total⟩
    dsimp only
    split
    · exact only_ofExcept
    · exact ih

theorem quiet_pages {key : Option PyStr} : Only IsQuiet (pages route key) := quiet_pagesFrom

theorem quiet_areTerminal {runs : List Value} : Only IsQuiet (areTerminal repository pr runs) := by
  induction runs with
  | nil => exact only_pure
  | cons run runs ih =>
    refine only_lift_bind fun found => ?_
    cases found with
    | none => exact only_pure
    | some terminal =>
      dsimp only
      split
      · refine quiet_read.bind fun original => only_lift_bind fun same => ?_
        split
        · exact ih
        · exact only_pure
      · exact ih

theorem quiet_latestRequired {runs : List Value} : Only IsQuiet (latestRequired runs repository pr) := by
  refine only_lift_bind fun selected => ?_
  cases selected with
  | nil => exact only_pure
  | cons run others =>
    dsimp only
    split
    · refine quiet_areTerminal.bind fun terminal => ?_
      split
      · exact only_lift_bind fun latest => only_pure
      · exact only_pure
    · exact only_pure

theorem quiet_planRerun {check : Value} : Only IsQuiet (planRerun host repository pr check) := by
  refine only_lift_bind fun output => only_lift_bind fun summary => only_lift_bind fun owner => ?_
  refine quiet_read.bind fun run => only_lift_bind fun status => ?_
  split
  · exact only_pure
  refine only_lift_bind fun attempt => quiet_pages.bind fun jobs => ?_
  split
  · exact only_pure
  refine only_lift_bind fun settled => ?_
  split
  · exact only_pure
  refine only_lift_bind fun ref => quiet_pages.bind fun runs => quiet_latestRequired.bind fun target => ?_
  cases target with
  | none => exact only_pure
  | some target =>
    refine only_lift_bind fun conclusion => ?_
    split
    · exact only_pure
    · exact only_pure

theorem quiet_usableReviews {reviews : List Value} :
    Only IsQuiet (usableReviews host repository pr reviews) := by
  induction reviews with
  | nil => exact only_pure
  | cons review reviews ih =>
    refine only_lift_bind fun ofReviewer => ?_
    split
    · refine only_lift_bind fun id => quiet_pages.bind fun comments => only_lift_bind fun clean => ?_
      exact ih.bind fun rest => only_pure
    · exact ih

theorem quiet_askCandidate {repositoryId : Py PyStr} :
    Only IsQuiet (askCandidate repository repositoryId pr) :=
  only_lift_bind fun _ => only_call rfl

theorem quiet_planReview {repositoryId : Py PyStr} :
    Only IsQuiet (planReview host repository repositoryId pr) := by
  refine quiet_pages.bind fun reviews => quiet_usableReviews.bind fun usable => ?_
  cases usable with
  | nil =>
    dsimp only
    split
    · exact only_pure
    split
    · exact only_pure
    refine only_lift_bind fun seen => ?_
    split
    · exact only_pure
    refine (only_attempt quiet_askCandidate).bind fun found => ?_
    cases found with
    | error e =>
      dsimp only
      split
      · exact only_pure
      · exact only_ofExcept
    | ok inputs =>
      cases inputs with
      | none => exact only_pure
      | _ => exact only_lift_bind fun plan => only_pure
  | cons review others =>
    exact only_lift_bind fun latest => only_lift_bind fun ref => only_lift_bind fun id => only_pure

theorem quiet_plan {repositoryId : Py PyStr} : Only IsQuiet (plan host repository now repositoryId pr) := by
  refine quiet_pages.bind fun runs => only_lift_bind fun producers => ?_
  split
  · exact only_pure
  refine only_lift_bind fun created => ?_
  split
  · exact only_pure
  refine only_lift_bind fun completed => ?_
  split
  · exact only_pure
  refine quiet_pages.bind fun checks => only_lift_bind fun neutral => ?_
  rcases neutral with _ | ⟨check, _ | ⟨second, others⟩⟩
  · exact quiet_planReview
  · exact quiet_planRerun
  · exact only_pure

end

/-! ## 2. What the checks have found -/

theorem allOf_cons {c : Py Bool} {cs : List (Py Bool)} :
    allOf (c :: cs) = .ok true ↔ c = .ok true ∧ allOf cs = .ok true := by
  rw [allOf, bind_eq_ok]
  constructor
  · rintro ⟨_ | _, hc, hrest⟩
    · cases hrest
    · exact ⟨hc, hrest⟩
  · rintro ⟨hc, hrest⟩
    exact ⟨true, hc, hrest⟩

theorem mem_keep {test : Value → Py Bool} {items kept : List Value} (h : keep test items = .ok kept)
    {x : Value} : x ∈ kept ↔ x ∈ items ∧ test x = .ok true := by
  induction items generalizing kept with
  | nil =>
    cases h
    simp
  | cons item items ih =>
    rw [keep] at h
    obtain ⟨holds, htest, h⟩ := bind_eq_ok.mp h
    obtain ⟨rest, hrest, h⟩ := bind_eq_ok.mp h
    cases h
    cases holds with
    | true =>
      rw [if_pos rfl, List.mem_cons, List.mem_cons, ih hrest]
      constructor
      · rintro (rfl | ⟨hx, hholds⟩)
        · exact ⟨Or.inl rfl, htest⟩
        · exact ⟨Or.inr hx, hholds⟩
      · rintro ⟨rfl | hx, hholds⟩
        · exact Or.inl rfl
        · exact Or.inr ⟨hx, hholds⟩
    | false =>
      rw [if_neg Bool.false_ne_true, List.mem_cons, ih hrest]
      constructor
      · rintro ⟨hx, hholds⟩
        exact ⟨Or.inr hx, hholds⟩
      · rintro ⟨rfl | hx, hholds⟩
        · rw [htest] at hholds
          cases hholds
        · exact ⟨hx, hholds⟩

theorem largest_mem {lt : Value → Value → Py Bool} {best m : Value} {items : List Value}
    (h : largest lt best items = .ok m) : m ∈ best :: items := by
  induction items generalizing best with
  | nil =>
    cases h
    exact List.mem_cons_self
  | cons item items ih =>
    rw [largest] at h
    obtain ⟨less, -, h⟩ := bind_eq_ok.mp h
    cases less with
    | true => exact List.mem_cons_of_mem _ (ih h)
    | false =>
      rcases List.mem_cons.mp (ih h) with rfl | hm
      · exact List.mem_cons_self
      · exact List.mem_cons_of_mem _ (List.mem_cons_of_mem _ hm)

/-- The number that a run has as its identity. -/
def idNumber (run : Value) : Option ℚ := (run.get "id").number?

/-- Numbers are compared with numbers only. -/
theorem idLess_eq_ok {a b : Value} {less : Bool} (h : idLess a b = .ok less)
    (hnumber : (idNumber a).isSome = true ∨ (idNumber b).isSome = true) :
    ∃ m n, idNumber a = some m ∧ idNumber b = some n ∧ less = decide (m < n) := by
  rw [idLess] at h
  obtain ⟨i, hi, h⟩ := bind_eq_ok.mp h
  obtain ⟨j, hj, h⟩ := bind_eq_ok.mp h
  have ha : idNumber a = i.number? := by rw [idNumber, Value.get, Value.find?_of_item hi]; rfl
  have hb : idNumber b = j.number? := by rw [idNumber, Value.get, Value.find?_of_item hj]; rfl
  rw [ha, hb] at hnumber ⊢
  split at h
  · rcases hnumber with hnumber | hnumber
    · cases hnumber
    · cases hnumber
  · split at h
    · next m n hm hn => exact ⟨m, n, hm, hn, (Except.ok.inj h).symm⟩
    · cases h

theorem idNumber_of_largest {best m x : Value} {items : List Value} (h : largest idLess best items = .ok m)
    (hx : x ∈ items) (hnumber : (idNumber x).isSome = true) : (idNumber best).isSome = true := by
  induction items generalizing best with
  | nil => cases hx
  | cons item items ih =>
    rw [largest] at h
    obtain ⟨less, hless, h⟩ := bind_eq_ok.mp h
    have hitem (hsome : (idNumber item).isSome = true) : (idNumber best).isSome = true := by
      obtain ⟨q, -, hq, -⟩ := idLess_eq_ok hless (Or.inr hsome)
      rw [hq]
      rfl
    rcases List.mem_cons.mp hx with rfl | hx
    · exact hitem hnumber
    · cases less with
      | true => exact hitem (ih h hx)
      | false => exact ih h hx

/-- The largest identity is no smaller than any that is a number. -/
theorem largest_number {best m : Value} {items : List Value} {q : ℚ}
    (h : largest idLess best items = .ok m) (hbest : idNumber best = some q) :
    ∃ r, idNumber m = some r ∧ q ≤ r ∧ ∀ x ∈ items, ∀ n, idNumber x = some n → n ≤ r := by
  induction items generalizing best q with
  | nil =>
    cases h
    exact ⟨q, hbest, le_refl q, fun x hx => by cases hx⟩
  | cons item items ih =>
    rw [largest] at h
    obtain ⟨less, hless, h⟩ := bind_eq_ok.mp h
    obtain ⟨q', n, hq, hitem, rfl⟩ := idLess_eq_ok hless (Or.inl (by rw [hbest]; rfl))
    cases hbest.symm.trans hq
    by_cases hlt : q < n
    · rw [if_pos (decide_eq_true hlt)] at h
      obtain ⟨r, hr, hle, hall⟩ := ih h hitem
      refine ⟨r, hr, hlt.le.trans hle, List.forall_mem_cons.mpr ⟨fun n' hn' => ?_, hall⟩⟩
      cases hitem.symm.trans hn'
      exact hle
    · rw [if_neg (by simpa using hlt)] at h
      obtain ⟨r, hr, hle, hall⟩ := ih h hbest
      refine ⟨r, hr, hle, List.forall_mem_cons.mpr ⟨fun n' hn' => ?_, hall⟩⟩
      cases hitem.symm.trans hn'
      exact (not_lt.mp hlt).trans hle

theorem le_largest {best m x : Value} {items : List Value} {n : ℚ} (h : largest idLess best items = .ok m)
    (hx : x ∈ best :: items) (hn : idNumber x = some n) : ∃ r, idNumber m = some r ∧ n ≤ r := by
  rcases List.mem_cons.mp hx with rfl | hx
  · obtain ⟨r, hr, hle, -⟩ := largest_number h hn
    exact ⟨r, hr, hle⟩
  · obtain ⟨q, hq⟩ := Option.isSome_iff_exists.mp (idNumber_of_largest h hx (by rw [hn]; rfl))
    obtain ⟨r, hr, -, hall⟩ := largest_number h hq
    exact ⟨r, hr, hall x hx n hn⟩

/-- No run of the title is active, and the latest was updated before the pause. -/
structure Unseen (host : Host) (runs : List Value) (path title : PyStr) (now : Int) : Prop where
  ended : ∀ run ∈ runs, isRunOf path title run = .ok true → (run.get "status").isText "completed" = true
  paused : (∃ run ∈ runs, isRunOf path title run = .ok true) →
    ∃ latest ∈ runs, isRunOf path title latest = .ok true ∧
      (∀ run ∈ runs, isRunOf path title run = .ok true → ∀ n, idNumber run = some n →
        ∃ r, idNumber latest = some r ∧ n ≤ r) ∧
      ∃ updated t, latest.item "updated_at" = .ok updated ∧ instant host updated = .ok t ∧ t + pause ≤ now

theorem unseen_of_recentDispatch {host : Host} {runs : List Value} {path title : PyStr} {now : Int}
    (h : recentDispatch host runs path title now = .ok false) : Unseen host runs path title now := by
  rw [recentDispatch] at h
  obtain ⟨matching, hkept, h⟩ := bind_eq_ok.mp h
  split at h
  · cases h
  next hactive =>
    have hended : ∀ run ∈ matching, (run.get "status").isText "completed" = true := by
      intro run hrun
      by_contra hnot
      exact hactive (List.any_eq_true.mpr ⟨run, hrun, by simpa using hnot⟩)
    refine ⟨fun run hrun hof => hended run ((mem_keep hkept).mpr ⟨hrun, hof⟩), ?_⟩
    rintro ⟨run, hrun, hof⟩
    have hmem := (mem_keep hkept).mpr ⟨hrun, hof⟩
    cases matching with
    | nil => cases hmem
    | cons first others =>
      obtain ⟨latest, hlatest, h⟩ := bind_eq_ok.mp h
      obtain ⟨updated, hupdated, h⟩ := bind_eq_ok.mp h
      obtain ⟨t, ht, h⟩ := bind_eq_ok.mp h
      obtain ⟨hruns, hlatestOf⟩ := (mem_keep hkept).mp (largest_mem hlatest)
      have hpaused : decide (now - t < pause) = false := Except.ok.inj h
      rw [decide_eq_false_iff_not] at hpaused
      refine ⟨latest, hruns, hlatestOf, fun run hrun hof n hn => ?_, updated, t, hupdated, ht, by omega⟩
      exact le_largest hlatest ((mem_keep hkept).mpr ⟨hrun, hof⟩) hn

/-- The pull request as it was read again is still the one that was listed. -/
structure IsCurrent (repository : PyStr) (pr : Pull) (live : Value) : Prop where
  isOpen : live.item "state" = .ok (.str "open")
  notDraft : ∃ draft, live.item "draft" = .ok draft ∧ draft.truthy = false
  headRepository : headRepository live = .ok pr.headRepository
  headRef : ∃ ref listed, item₂ live "head" "ref" = .ok ref ∧ item₂ pr.value "head" "ref" = .ok listed ∧
    ref.pyEq listed = true
  user : ∃ user listed, live.item "user" = .ok user ∧ pr.value.item "user" = .ok listed ∧
    user.pyEq listed = true
  repository : baseRepository live = .ok (.str repository)
  head : item₂ live "head" "sha" = .ok (.str pr.head)
  base : item₂ live "base" "sha" = .ok (.str pr.base)
  baseRef : ∃ ref listed, item₂ live "base" "ref" = .ok ref ∧ item₂ pr.value "base" "ref" = .ok listed ∧
    ref.pyEq listed = true

theorem text_of_check {x : Py Value} {text : PyStr}
    (h : (do return (← x).isText text : Py Bool) = .ok true) : x = .ok (.str text) := by
  obtain ⟨value, hx, h⟩ := bind_eq_ok.mp h
  rw [hx, Value.isText_iff.mp (Except.ok.inj h)]

theorem same_of_check {x y : Py Value} (h : (do return (← x).pyEq (← y) : Py Bool) = .ok true) :
    ∃ v w, x = .ok v ∧ y = .ok w ∧ v.pyEq w = true := by
  obtain ⟨v, hx, h⟩ := bind_eq_ok.mp h
  obtain ⟨w, hy, h⟩ := bind_eq_ok.mp h
  exact ⟨v, w, hx, hy, Except.ok.inj h⟩

theorem isCurrent_of_isLive {repository : PyStr} {pr : Pull} {live : Value}
    (h : isLive repository pr live = .ok true) : IsCurrent repository pr live := by
  simp only [isLive, allOf_cons] at h
  obtain ⟨hopen, hdraft, hrepository, href, huser, hbaseRepository, hhead, hbase, hbaseRef, -⟩ := h
  refine ⟨text_of_check hopen, ?_, ?_, same_of_check href, same_of_check huser,
    text_of_check hbaseRepository, text_of_check hhead, text_of_check hbase, same_of_check hbaseRef⟩
  · obtain ⟨draft, hitem, hdraft⟩ := bind_eq_ok.mp hdraft
    exact ⟨draft, hitem, by simpa using Except.ok.inj hdraft⟩
  · obtain ⟨name, hname, hsame⟩ := bind_eq_ok.mp hrepository
    rw [hname, of_decide_eq_true (Except.ok.inj hsame)]

/-! ## 3. What a plan names -/

section

variable {α β : Type} {K : β → Prop} {x : ReconcileAct α} {f : α → ReconcileAct β}

/-- Whatever is returned has the property. -/
def Gives (K : β → Prop) (x : ReconcileAct β) : Prop := ∀ s tr a s', Ends x s tr (.ok a) s' → K a

theorem gives_bind (hf : ∀ a, Gives K (f a)) : Gives K (x >>= f) := by
  intro s tr b s' hends
  obtain ⟨_, tr₂, a, s₁, -, -, hrest⟩ := ends_bind_ok.mp hends
  exact hf a s₁ tr₂ b s' hrest

theorem gives_pure {b : β} (h : K b) : Gives K (pure b : ReconcileAct β) := by
  intro s tr a s' hends
  cases (ends_pure.mp hends).2.1
  exact h

theorem gives_raise {e : PyError} : Gives K (Act.raise e : ReconcileAct β) := by
  intro s tr a s' hends
  cases (ends_raise.mp hends).2.1

end

/-- What is dispatched is for the pull request with its head and its base; the inputs of a continuation
are those that the locator has given. -/
def Names (pr : Pull) (p : Plan) : Prop :=
  p.path = continuation ∨ p.inputs.get "pr_number" = .str (ofInt pr.number) ∧
    p.inputs.get "expected_head" = .str pr.head ∧ p.inputs.get "expected_base" = .str pr.base

section

variable {host : Host} {repository : PyStr} {now : Int} {pr : Pull} {repositoryId : Py PyStr}

theorem gives_none : Gives (fun found : Option Plan => ∀ p ∈ found, Names pr p) (pure none) :=
  gives_pure fun _ h => by cases h

theorem gives_some {p : Plan} (h : Names pr p) :
    Gives (fun found : Option Plan => ∀ p ∈ found, Names pr p) (pure (some p)) :=
  gives_pure fun _ hp => by
    cases hp
    exact h

theorem gives_planRerun {check : Value} :
    Gives (fun found => ∀ p ∈ found, Names pr p) (planRerun host repository pr check) := by
  refine gives_bind fun output => gives_bind fun summary => gives_bind fun owner => gives_bind fun run => ?_
  refine gives_bind fun status => ?_
  split
  · exact gives_none
  refine gives_bind fun attempt => gives_bind fun jobs => ?_
  split
  · exact gives_none
  refine gives_bind fun settled => ?_
  split
  · exact gives_none
  refine gives_bind fun ref => gives_bind fun runs => gives_bind fun target => ?_
  cases target with
  | none => exact gives_none
  | some target =>
    refine gives_bind fun conclusion => ?_
    split
    · exact gives_none
    · exact gives_some (Or.inr ⟨rfl, rfl, rfl⟩)

theorem gives_planReview :
    Gives (fun found => ∀ p ∈ found, Names pr p) (planReview host repository repositoryId pr) := by
  refine gives_bind fun reviews => gives_bind fun usable => ?_
  cases usable with
  | nil =>
    dsimp only
    split
    · exact gives_none
    split
    · exact gives_none
    refine gives_bind fun seen => ?_
    split
    · exact gives_none
    refine gives_bind fun found => ?_
    cases found with
    | error e =>
      dsimp only
      split
      · exact gives_none
      · exact gives_raise
    | ok inputs =>
      have hcontinued : Gives (fun found => ∀ p ∈ found, Names pr p) (do
          let plan ← planContinuation host pr inputs
          pure (some plan) : ReconcileAct (Option Plan)) := by
        intro s tr found s' hends
        obtain ⟨plan, hplan, hends⟩ := ends_lift_bind_ok.mp hends
        refine gives_some (Or.inl ?_) s tr found s' hends
        rw [planContinuation] at hplan
        obtain ⟨ref, -, hplan⟩ := bind_eq_ok.mp hplan
        obtain ⟨run, -, hplan⟩ := bind_eq_ok.mp hplan
        obtain ⟨review, -, hplan⟩ := bind_eq_ok.mp hplan
        cases hplan
        rfl
      cases inputs with
      | none => exact gives_none
      | _ => exact hcontinued
  | cons review others =>
    refine gives_bind fun latest => gives_bind fun ref => gives_bind fun id => ?_
    exact gives_some (Or.inr ⟨rfl, rfl, rfl⟩)

theorem gives_plan :
    Gives (fun found => ∀ p ∈ found, Names pr p) (plan host repository now repositoryId pr) := by
  refine gives_bind fun runs => gives_bind fun producers => ?_
  split
  · exact gives_none
  refine gives_bind fun created => ?_
  split
  · exact gives_none
  refine gives_bind fun completed => ?_
  split
  · exact gives_none
  refine gives_bind fun checks => gives_bind fun neutral => ?_
  rcases neutral with _ | ⟨check, _ | ⟨second, others⟩⟩
  · exact gives_planReview
  · exact gives_planRerun
  · exact gives_none

end

/-! ## 4. Dispatches -/

abbrev History := Trace ReconcileAns

/-- The dispatches that were asked for. -/
def dispatchesOf (h : History) : List ReconcileOp := (h.map fun e => e.1).filter IsDispatch

theorem dispatchesOf_append (h h' : History) :
    dispatchesOf (h ++ h') = dispatchesOf h ++ dispatchesOf h' := by
  rw [dispatchesOf, List.map_append, List.filter_append]
  rfl

theorem Only.noDispatch {α : Type} {x : ReconcileAct α} {s s' : Unit} {tr : History} {r : Except PyError α}
    (hx : Only IsQuiet x) (hends : Ends x s tr r s') : dispatchesOf tr = [] := by
  rw [dispatchesOf, List.filter_eq_nil_iff]
  intro op hop hdispatch
  obtain ⟨e, he, rfl⟩ := List.mem_map.mp hop
  rw [hx.ends hends e he] at hdispatch
  cases hdispatch

section

variable {host : Host} {repository : PyStr} {now : Int} {pr : Pull} {p : Plan} {dispatches : List Value}
  {s s' : Unit} {tr : History} {op : ReconcileOp} {repositoryId : Py PyStr} {value : Value}

/-- What is known of a dispatch for a pull request of the list when it is asked for. -/
inductive Granted (host : Host) (repository : PyStr) (now : Int) (repositoryId : Py PyStr)
    (dispatches : List Value) (value : Value) (h : History) (op : ReconcileOp) : Prop
  | intro {pr : Pull} {p : Plan} {live : Value} {before : History} (hbound : boundPull value = .ok pr)
      (hkept : isPassedOver repository pr = .ok false)
      (hplan : Ran h (plan host repository now repositoryId pr) (some p))
      (hunseen : Unseen host dispatches p.path p.title now)
      (hlast : h = before ++ [⟨.read (pullRoute repository pr), .ok live⟩])
      (hcurrent : IsCurrent repository pr live) (hnames : Names pr p) (hop : op = dispatchOf repository p) :
      Granted host repository now repositoryId dispatches value h op

/-- A dispatch that was asked for a pull request of the list. -/
def DispatchedFor (host : Host) (repository : PyStr) (now : Int) (repositoryId : Py PyStr) (h : History)
    (op : ReconcileOp) (value : Value) : Prop :=
  ∃ pr p, boundPull value = .ok pr ∧ Ran h (plan host repository now repositoryId pr) (some p) ∧
    op = dispatchOf repository p

theorem asks_carryOut (h : Asks (carryOut host repository now dispatches pr p) s tr op)
    (hop : IsDispatch op = true) : Unseen host dispatches p.path p.title now ∧
      (∃ live, tr = [⟨.read (pullRoute repository pr), .ok live⟩] ∧ IsCurrent repository pr live) ∧
      op = dispatchOf repository p := by
  obtain ⟨recent, hrecent, h⟩ := asks_lift_bind.mp h
  cases recent with
  | true => exact absurd h not_asks_pure
  | false =>
    rcases asks_bind.mp h with hread | ⟨tr₁, tr₂, live, s₁, rfl, hends, hrest⟩
    · rw [(asks_call.mp hread).2] at hop
      cases hop
    · obtain ⟨rfl, -⟩ := ends_call.mp hends
      obtain ⟨same, hlive, hrest⟩ := asks_lift_bind.mp hrest
      cases same with
      | false => exact absurd hrest not_asks_pure
      | true =>
        rcases asks_bind.mp hrest with hcall | ⟨_, _, _, _, -, -, hdone⟩
        · obtain ⟨rfl, rfl⟩ := asks_call.mp hcall
          have hcurrent := isCurrent_of_isLive hlive
          exact ⟨unseen_of_recentDispatch hrecent, ⟨live, List.append_nil _, hcurrent⟩, rfl⟩
        · exact absurd hdone not_asks_pure

theorem ends_carryOut {u : Unit} (h : Ends (carryOut host repository now dispatches pr p) s tr (.ok u) s') :
    dispatchesOf tr = [] ∨ dispatchesOf tr = [dispatchOf repository p] := by
  obtain ⟨recent, -, h⟩ := ends_lift_bind_ok.mp h
  cases recent with
  | true =>
    rw [(ends_pure.mp h).1]
    exact Or.inl rfl
  | false =>
    obtain ⟨live, tr₁, rfl, hrest⟩ := ends_call_bind_ok.mp h
    obtain ⟨same, -, hrest⟩ := ends_lift_bind_ok.mp hrest
    cases same with
    | false =>
      rw [(ends_pure.mp hrest).1]
      exact Or.inl rfl
    | true =>
      obtain ⟨answer, tr₂, rfl, hdone⟩ := ends_call_bind_ok.mp hrest
      rw [(ends_pure.mp hdone).1]
      exact Or.inr rfl

theorem Granted.prepend {h : History}
    (hgranted : Granted host repository now repositoryId dispatches value h op) (before : History) :
    Granted host repository now repositoryId dispatches value (before ++ h) op := by
  cases hgranted with
  | intro hbound hkept hplan hunseen hlast hcurrent hnames hop =>
    have hplanned := hplan.prepend before
    rw [hlast, ← List.append_assoc] at hplanned ⊢
    exact .intro hbound hkept hplanned hunseen rfl hcurrent hnames hop

/-- The body of the loop asks for a dispatch after what grants it, and for none before. -/
theorem asks_reconcilePull
    (h : Asks (reconcilePull host repository now repositoryId dispatches value) s tr op)
    (hop : IsDispatch op = true) :
    Granted host repository now repositoryId dispatches value tr op ∧ dispatchesOf tr = [] := by
  obtain ⟨pr, hbound, h⟩ := asks_lift_bind.mp h
  obtain ⟨passed, hkept, h⟩ := asks_lift_bind.mp h
  cases passed with
  | true => exact absurd h not_asks_pure
  | false =>
    rcases asks_bind.mp h with hplan | ⟨tr₁, tr₂, found, s₁, rfl, hends, hrest⟩
    · rw [quiet_plan s tr op hplan] at hop
      cases hop
    · cases found with
      | none => exact absurd hrest not_asks_pure
      | some p =>
        obtain ⟨hunseen, ⟨live, rfl, hcurrent⟩, rfl⟩ := asks_carryOut hrest hop
        have hplan := lasts_ran tr₁ [⟨.read (pullRoute repository pr), .ok live⟩]
          (ran_of_ends (h := []) hends)
        have hnames := gives_plan s tr₁ _ s₁ hends p rfl
        refine ⟨.intro hbound hkept hplan hunseen rfl hcurrent hnames rfl, ?_⟩
        rw [dispatchesOf_append, Only.noDispatch quiet_plan hends]
        rfl

theorem DispatchedFor.weaken {h h' : History}
    (hfor : DispatchedFor host repository now repositoryId h op value)
    (hran : ∀ pr p, Ran h (plan host repository now repositoryId pr) (some p) →
      Ran h' (plan host repository now repositoryId pr) (some p)) :
    DispatchedFor host repository now repositoryId h' op value := by
  obtain ⟨pr, p, hbound, hplan, hop⟩ := hfor
  exact ⟨pr, p, hbound, hran pr p hplan, hop⟩

theorem ends_reconcilePull {u : Unit}
    (h : Ends (reconcilePull host repository now repositoryId dispatches value) s tr (.ok u) s') :
    dispatchesOf tr = [] ∨ ∃ op, dispatchesOf tr = [op] ∧
      DispatchedFor host repository now repositoryId tr op value := by
  obtain ⟨pr, hbound, h⟩ := ends_lift_bind_ok.mp h
  obtain ⟨passed, -, h⟩ := ends_lift_bind_ok.mp h
  cases passed with
  | true =>
    rw [(ends_pure.mp h).1]
    exact Or.inl rfl
  | false =>
    obtain ⟨tr₁, tr₂, found, s₁, rfl, hends, hrest⟩ := ends_bind_ok.mp h
    rw [dispatchesOf_append, Only.noDispatch quiet_plan hends, List.nil_append]
    cases found with
    | none =>
      rw [(ends_pure.mp hrest).1]
      exact Or.inl rfl
    | some p =>
      have hplan := lasts_ran tr₁ tr₂ (ran_of_ends (h := []) hends)
      exact (ends_carryOut hrest).imp_right fun hone =>
        ⟨dispatchOf repository p, hone, pr, p, hbound, hplan, rfl⟩

/-- The dispatches for one more pull request, which was gone over before the others. -/
theorem dispatched_cons {u : Unit} {s₁ : Unit} {tr₁ tr₂ : History} {values earlier : List Value}
    (hends : Ends (reconcilePull host repository now repositoryId dispatches value) s tr₁ (.ok u) s₁)
    (hsub : earlier.Sublist values)
    (hall : List.Forall₂ (DispatchedFor host repository now repositoryId tr₂) (dispatchesOf tr₂) earlier) :
    ∃ earlier', earlier'.Sublist (value :: values) ∧
      List.Forall₂ (DispatchedFor host repository now repositoryId (tr₁ ++ tr₂))
        (dispatchesOf (tr₁ ++ tr₂)) earlier' := by
  have hlater : List.Forall₂ (DispatchedFor host repository now repositoryId (tr₁ ++ tr₂))
      (dispatchesOf tr₂) earlier :=
    hall.imp fun _ _ hfor => hfor.weaken fun _ _ hran => hran.prepend tr₁
  rw [dispatchesOf_append]
  rcases ends_reconcilePull hends with hnone | ⟨op, hone, hfor⟩
  · rw [hnone]
    exact ⟨earlier, hsub.cons value, hlater⟩
  · rw [hone]
    have hfirst := hfor.weaken fun _ _ hran => lasts_ran tr₁ tr₂ hran
    exact ⟨value :: earlier, hsub.cons_cons value, .cons hfirst hlater⟩

/-- What the loop asks, it asks for one of the pull requests, after it is done with those before. -/
theorem asks_reconcilePulls {values : List Value}
    (h : Asks (reconcilePulls host repository now repositoryId dispatches values) s tr op)
    (hop : IsDispatch op = true) :
    ∃ done value rest, values = done ++ value :: rest ∧
      Granted host repository now repositoryId dispatches value tr op ∧
      ∃ earlier, earlier.Sublist done ∧
        List.Forall₂ (DispatchedFor host repository now repositoryId tr) (dispatchesOf tr) earlier := by
  induction values generalizing s tr with
  | nil => exact absurd h not_asks_pure
  | cons value values ih =>
    rcases asks_bind.mp h with hasks | ⟨tr₁, tr₂, _, s₁, rfl, hends, hrest⟩
    · obtain ⟨hgranted, hnone⟩ := asks_reconcilePull hasks hop
      refine ⟨[], value, values, rfl, hgranted, [], List.Sublist.refl _, ?_⟩
      rw [hnone]
      exact .nil
    · obtain ⟨done, next, rest, rfl, hgranted, earlier, hsub, hall⟩ := ih hrest
      exact ⟨value :: done, next, rest, rfl, hgranted.prepend tr₁, dispatched_cons hends hsub hall⟩

/-- The job runs on the default branch, which is protected. -/
structure IsProtected (job : Job) (metadata : Value) : Prop where
  branch : ∃ branch ∈ (["develop", "main"] : List PyStr),
    metadata.item "default_branch" = .ok (.str branch) ∧ job.ref = some ("refs/heads/" ++ branch)
  isProtected : job.refProtected = some ("true" : PyStr)

theorem isProtected_of_branch {job : Job} {metadata : Value} {u : Unit}
    (h : protectedBranch job metadata = .ok u) : IsProtected job metadata := by
  obtain ⟨branch, hbranch, h⟩ := bind_eq_ok.mp h
  obtain ⟨known, hknown, h⟩ := bind_eq_ok.mp h
  obtain rfl := raiseUnless_eq_ok.mp h
  simp only [allOf_cons] at hknown
  obtain ⟨hdefault, href, hprotected, -⟩ := hknown
  constructor
  · obtain ⟨value, hvalue, hdefault⟩ := bind_eq_ok.mp hdefault
    obtain ⟨name, hname, hsame⟩ := List.any_eq_true.mp (Except.ok.inj hdefault)
    have hbranchValue : branch = .str name := by
      cases branch with
      | list _ => cases hvalue
      | dict _ => cases hvalue
      | _ => exact (Except.ok.inj hvalue).trans (Value.isText_iff.mp hsame)
    subst hbranchValue
    refine ⟨name, hname, hbranch, ?_⟩
    cases hjob : job.ref with
    | none =>
      rw [hjob] at href
      cases href
    | some ref =>
      rw [hjob] at href
      rw [of_decide_eq_true (Except.ok.inj href)]
  · cases hjob : job.refProtected with
    | none =>
      rw [hjob] at hprotected
      cases hprotected
    | some value =>
      rw [hjob] at hprotected
      rw [of_decide_eq_true (Except.ok.inj hprotected)]

/-- **Every dispatch is granted.**  Whatever a reconciliation is answered: when it asks for a dispatch, it
runs on the protected branch of a pilot with the mode enabled; the dispatch is for one pull request of the
list, that it has just read again and found as it was listed; of the title no dispatched run is active, and
the latest was updated before the pause; and its dispatches until then were for other pull requests of
the list before this one, one for each. -/
theorem dispatch_granted {job : Job} (h : Asks (reconcile host repository now job) s tr op)
    (hop : IsDispatch op = true) :
    repository ∈ pilots ∧ job.eventMode = some ("enabled" : PyStr) ∧
    ∃ metadata repositoryId dispatches pulls done value rest,
      Ran tr (Act.call (ReconcileOp.read ("repos/" ++ repository)) : ReconcileAct Value) metadata ∧
      IsProtected job metadata ∧ repositoryId = (metadata.item "id").map host.str ∧
      Ran tr (Act.call (ReconcileOp.inventory ("repos/" ++ repository)) : ReconcileAct (List Value))
        dispatches ∧
      Ran tr (pages ("repos/" ++ repository ++ "/pulls?state=open") none) pulls ∧
      pulls = done ++ value :: rest ∧
      Granted host repository now repositoryId dispatches value tr op ∧
      ∃ earlier, earlier.Sublist done ∧
        List.Forall₂ (DispatchedFor host repository now repositoryId tr) (dispatchesOf tr) earlier := by
  rw [reconcile] at h
  split at h
  · exact absurd h not_asks_pure
  next hmode =>
    rw [not_or, not_not, not_not] at hmode
    rcases asks_bind.mp h with hread | ⟨tr₁, tr₂, metadata, s₁, rfl, hends₁, hrest⟩
    · rw [(asks_call.mp hread).2] at hop
      cases hop
    obtain ⟨_, hprotected, hrest⟩ := asks_lift_bind.mp hrest
    rcases asks_bind.mp hrest with hread | ⟨tr₃, tr₄, dispatches, s₂, rfl, hends₂, hrest⟩
    · rw [(asks_call.mp hread).2] at hop
      cases hop
    rcases asks_bind.mp hrest with hread | ⟨tr₅, tr₆, pulls, s₃, rfl, hends₃, hrest⟩
    · rw [quiet_pages s₂ _ op hread] at hop
      cases hop
    obtain ⟨done, value, rest, hpulls, hgranted, earlier, hsub, hall⟩ := asks_reconcilePulls hrest hop
    have hnone : dispatchesOf (tr₁ ++ (tr₃ ++ (tr₅ ++ tr₆))) = dispatchesOf tr₆ := by
      rw [dispatchesOf_append, dispatchesOf_append, dispatchesOf_append,
        Only.noDispatch quiet_read hends₁, Only.noDispatch quiet_inventory hends₂,
        Only.noDispatch quiet_pages hends₃]
      rfl
    refine ⟨hmode.1, hmode.2, metadata, _, dispatches, pulls, done, value, rest, ?_,
      isProtected_of_branch hprotected, rfl, ?_, ?_, hpulls,
      ((hgranted.prepend tr₅).prepend tr₃).prepend tr₁, earlier, hsub, ?_⟩
    · exact lasts_ran tr₁ _ (ran_of_ends (h := []) hends₁)
    · exact (lasts_ran tr₃ _ (ran_of_ends (h := []) hends₂)).prepend tr₁
    · exact ((lasts_ran tr₅ tr₆ (ran_of_ends (h := []) hends₃)).prepend tr₃).prepend tr₁
    · rw [hnone]
      refine hall.imp fun _ _ hfor => hfor.weaken fun _ _ hran => ?_
      exact ((hran.prepend tr₅).prepend tr₃).prepend tr₁

end

def sampleHost : Host where
  fromisoformat _ := .ok 0
  loads _ := .error .jsonDecodeError
  str _ := "7"
  lowering := asciiLowering

def sampleRepository : PyStr := "lightning-it/shared-assets-lit"

def sampleSha : PyStr := "1111111111111111111111111111111111111111"

def sampleJob : Job := ⟨some "enabled", some "refs/heads/main", some "true"⟩

/-- One end of the pull request. -/
def sampleEnd : Value := .dict [("sha", .str sampleSha), ("ref", .str "main"),
  ("repo", .dict [("full_name", .str sampleRepository)])]

def samplePull : Value := .dict [("id", .int 1), ("number", .int 5), ("state", .str "open"),
  ("draft", .bool false), ("head", sampleEnd), ("base", sampleEnd), ("user", .dict [("type", .str "User")])]

/-- A run of the producer that has ended. -/
def sampleProducer : Value := .dict [("id", .int 2), ("event", .str "pull_request_target"),
  ("repository", .dict [("full_name", .str sampleRepository)]),
  ("head_repository", .dict [("full_name", .str sampleRepository)]), ("path", .str producer),
  ("head_sha", .str sampleSha), ("head_branch", .str "main"), ("pull_requests", .list []),
  ("created_at", .str "now"), ("status", .str "completed")]

def sampleReview : Value := .dict [("id", .int 7), ("commit_id", .str sampleSha),
  ("user", .dict [("login", .str "copilot-pull-request-reviewer")]), ("state", .str "COMMENTED"),
  ("body", .str "fine")]

/-- One pull request with a clean review, and nothing dispatched before. -/
def sampleAnswer : (op : ReconcileOp) → ReconcileAns op
  | .inventory _ => .ok []
  | .candidate _ _ _ _ | .dispatch _ _ _ => .ok .none
  | .read route =>
    if route.contains "/pulls?state=open" then .ok (.list [samplePull])
    else if route.contains "/actions/runs?" then
      .ok (.dict [("total_count", .int 1), ("workflow_runs", .list [sampleProducer])])
    else if route.contains "/check-runs?" then
      .ok (.dict [("total_count", .int 0), ("check_runs", .list [])])
    else if route.contains "/comments?" then .ok (.list [])
    else if route.contains "/reviews?" then .ok (.list [sampleReview])
    else if route.contains "/pulls/" then .ok samplePull
    else .ok (.dict [("id", .int 3), ("default_branch", .str "main")])

def sampleReconcile : ReconcileAct Unit := reconcile sampleHost sampleRepository 0 sampleJob

theorem dispatch_granted_sample : ∃ tr op, Asks sampleReconcile () tr op ∧ IsDispatch op = true ∧
    ∃ repositoryId dispatches value,
      Granted sampleHost sampleRepository 0 repositoryId dispatches value tr op := by
  have hasked : ((sampleReconcile.asked () fun _ => sampleAnswer).any fun e => IsDispatch e.1) = true := by
    decide +kernel
  obtain ⟨e, he, hdispatch⟩ := List.any_eq_true.mp hasked
  obtain ⟨before, later, hsplit⟩ := List.append_of_mem he
  obtain ⟨s, hends⟩ := @ends_result _ _ _ _ _ sampleReconcile () fun _ => sampleAnswer
  rw [hsplit] at hends
  have hasks : Asks sampleReconcile () before e.1 := Returns.prefix hends
  obtain ⟨-, -, _, repositoryId, dispatches, _, _, value, _, -, -, -, -, -, -, hgranted, -⟩ :=
    dispatch_granted hasks hdispatch
  exact ⟨before, e.1, hasks, hdispatch, repositoryId, dispatches, value, hgranted⟩

end Supplementary.Reconcile
