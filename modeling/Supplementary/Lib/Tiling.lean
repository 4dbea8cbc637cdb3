/-
# Tilings of half-open intervals

A list of intervals `[s, e)` tiles `[a, b)` when each starts where the one before it ends, none is
empty, and together they run from `a` to `b`.  Nothing here knows what is tiled: the order is an
arbitrary linear order.

The two facts callers need are that a tiling covers every point exactly once
(`Tiles.existsUnique`) and that clipping a tiling to a smaller interval tiles that interval
(`Tiles.clips`).  Intervals that overlap are merged on a stack (`absorb`), in order of their
starts: what comes out is disjoint, covers what went in and ends where some of it did.
-/
import Mathlib.Order.MinMax
import Mathlib.Tactic.Common

namespace Tiling

variable {α : Type*} [LinearOrder α]

/-- `Tiles ps a b`: the intervals of `ps`, in order, tile `[a, b)`. -/
def Tiles : List (α × α) → α → α → Prop
  | [], a, b => a = b
  | p :: ps, a, b => p.1 = a ∧ p.1 < p.2 ∧ Tiles ps p.2 b

/-- Two non-empty half-open intervals share a point. -/
def Meets (p q : α × α) : Prop := p.1 < q.2 ∧ q.1 < p.2

instance : DecidableRel (Meets (α := α)) := fun p q =>
  inferInstanceAs (Decidable (p.1 < q.2 ∧ q.1 < p.2))

@[simp] theorem tiles_nil {a b : α} : Tiles [] a b ↔ a = b := Iff.rfl

@[simp] theorem tiles_cons {p : α × α} {ps : List (α × α)} {a b : α} :
    Tiles (p :: ps) a b ↔ p.1 = a ∧ p.1 < p.2 ∧ Tiles ps p.2 b := Iff.rfl

/-! ## 1. Order -/

theorem Tiles.le {ps : List (α × α)} {a b : α} (h : Tiles ps a b) : a ≤ b := by
  induction ps generalizing a with
  | nil => exact le_of_eq h
  | cons p ps ih => exact h.1 ▸ (h.2.1.le.trans (ih h.2.2))

theorem Tiles.append {ps qs : List (α × α)} {a b c : α} (hp : Tiles ps a b) (hq : Tiles qs b c) :
    Tiles (ps ++ qs) a c := by
  induction ps generalizing a with
  | nil => exact hp ▸ hq
  | cons p ps ih => exact ⟨hp.1, hp.2.1, ih hp.2.2⟩

/-- Every tile is a non-empty interval inside the tiled one. -/
theorem Tiles.bounds {ps : List (α × α)} {a b : α} (h : Tiles ps a b) {p : α × α} (hp : p ∈ ps) :
    a ≤ p.1 ∧ p.1 < p.2 ∧ p.2 ≤ b := by
  induction ps generalizing a with
  | nil => cases hp
  | cons q ps ih =>
    obtain ⟨rfl, hlt, hrest⟩ := h
    rcases List.mem_cons.mp hp with rfl | hp
    · exact ⟨le_rfl, hlt, hrest.le⟩
    · have hb := ih hrest hp
      exact ⟨hlt.le.trans hb.1, hb.2⟩

/-! ## 2. Every point once -/

theorem Tiles.exists_mem {ps : List (α × α)} {a b x : α} (h : Tiles ps a b) (ha : a ≤ x)
    (hb : x < b) : ∃ p ∈ ps, p.1 ≤ x ∧ x < p.2 := by
  induction ps generalizing a with
  | nil => exact absurd (lt_of_le_of_lt ha hb) (by rw [tiles_nil] at h; exact h ▸ lt_irrefl _)
  | cons p ps ih =>
    rcases lt_or_ge x p.2 with hx | hx
    · exact ⟨p, by simp, h.1 ▸ ha, hx⟩
    · obtain ⟨q, hq, hqx⟩ := ih h.2.2 hx
      exact ⟨q, List.mem_cons_of_mem _ hq, hqx⟩

theorem Tiles.eq_of_mem {ps : List (α × α)} {a b x : α} (h : Tiles ps a b) {p q : α × α}
    (hp : p ∈ ps) (hq : q ∈ ps) (hpx : p.1 ≤ x ∧ x < p.2) (hqx : q.1 ≤ x ∧ x < q.2) : p = q := by
  induction ps generalizing a with
  | nil => cases hp
  | cons r ps ih =>
    rcases List.mem_cons.mp hp with rfl | hp' <;> rcases List.mem_cons.mp hq with rfl | hq'
    · rfl
    · exact absurd (hpx.2.trans_le ((h.2.2.bounds hq').1.trans hqx.1)) (lt_irrefl _)
    · exact absurd (hqx.2.trans_le ((h.2.2.bounds hp').1.trans hpx.1)) (lt_irrefl _)
    · exact ih h.2.2 hp' hq'

/-- **A tiling covers every point of the interval exactly once.** -/
theorem Tiles.existsUnique {ps : List (α × α)} {a b x : α} (h : Tiles ps a b) (ha : a ≤ x)
    (hb : x < b) : ∃! p, p ∈ ps ∧ p.1 ≤ x ∧ x < p.2 := by
  obtain ⟨p, hp, hpx⟩ := h.exists_mem ha hb
  exact ⟨p, ⟨hp, hpx⟩, fun q hq => h.eq_of_mem hq.1 hp hq.2 hpx⟩

/-! ## 3. Clipping -/

/-- The part of an interval inside `[lo, hi)`. -/
def clip (lo hi : α) (p : α × α) : α × α := (max p.1 lo, min p.2 hi)

/-- The parts inside `[lo, hi)` of the intervals that meet it. -/
def clips (lo hi : α) (ps : List (α × α)) : List (α × α) :=
  (ps.filter fun p => Meets p (lo, hi)).map (clip lo hi)

theorem clips_cons_of_meets {lo hi : α} {p : α × α} {ps : List (α × α)} (h : Meets p (lo, hi)) :
    clips lo hi (p :: ps) = clip lo hi p :: clips lo hi ps := by
  simp [clips, h]

theorem clips_cons_of_not_meets {lo hi : α} {p : α × α} {ps : List (α × α)}
    (h : ¬ Meets p (lo, hi)) : clips lo hi (p :: ps) = clips lo hi ps := by
  simp [clips, h]

/-- Nothing that starts at or after `hi` meets `[lo, hi)`. -/
theorem Tiles.clips_eq_nil {ps : List (α × α)} {a b lo hi : α} (h : Tiles ps a b) (ha : hi ≤ a) :
    clips lo hi ps = [] := by
  simp only [clips, List.map_eq_nil_iff, List.filter_eq_nil_iff, decide_eq_true_eq]
  rintro p hp ⟨hlt, -⟩
  exact absurd (hlt.trans_le (ha.trans (h.bounds hp).1)) (lt_irrefl _)

/-- The induction behind `Tiles.clips`: what is left to clip starts at `max a lo`. -/
theorem Tiles.clips_from {ps : List (α × α)} {a b lo hi : α} (h : Tiles ps a b) (hlo : lo < hi)
    (ha : a ≤ hi) (hb : hi ≤ b) : Tiles (clips lo hi ps) (max a lo) hi := by
  induction ps generalizing a with
  | nil =>
    have hab : a = hi := le_antisymm ha (hb.trans (le_of_eq h.symm))
    simp [clips, hab, hlo.le]
  | cons p ps ih =>
    obtain ⟨rfl, hlt, hrest⟩ := h
    rcases lt_or_ge p.1 hi with hstart | hstart
    · rcases lt_or_ge lo p.2 with hmeet | hbefore
      · rw [clips_cons_of_meets ⟨hstart, hmeet⟩]
        refine ⟨rfl, max_lt (lt_min hlt hstart) (lt_min hmeet hlo), ?_⟩
        simp only [clip]
        rcases le_or_gt p.2 hi with hstop | hstop
        · have hIH := ih hrest hstop
          rw [max_eq_left hmeet.le] at hIH
          rw [min_eq_left hstop]
          exact hIH
        · rw [hrest.clips_eq_nil hstop.le, min_eq_right hstop.le]
          exact rfl
      · rw [clips_cons_of_not_meets fun hm => absurd (hm.2.trans_le hbefore) (lt_irrefl _)]
        have hIH := ih hrest (hbefore.trans hlo.le)
        rw [max_eq_right hbefore] at hIH
        rw [max_eq_right (hlt.le.trans hbefore)]
        exact hIH
    · rw [clips_cons_of_not_meets fun hm => absurd (hm.1.trans_le hstart) (lt_irrefl _),
        hrest.clips_eq_nil (hstart.trans hlt.le), max_eq_left (hlo.le.trans hstart)]
      exact le_antisymm ha hstart

/-- **Clipping a tiling tiles the smaller interval.** -/
theorem Tiles.clips {ps : List (α × α)} {a b lo hi : α} (h : Tiles ps a b) (hlo : lo < hi)
    (ha : a ≤ lo) (hb : hi ≤ b) : Tiles (clips lo hi ps) lo hi := by
  have hc := h.clips_from hlo (ha.trans hlo.le) hb
  rwa [max_eq_right ha] at hc

/-! ## 4. Merging overlapping intervals -/

/-- Put an interval on a stack of disjoint ones that start no later: it joins the top one if it
starts before that one ends. -/
def absorb (merged : List (α × α)) (p : α × α) : List (α × α) :=
  match merged with
  | [] => [p]
  | top :: below => if p.1 < top.2 then (top.1, max p.2 top.2) :: below else p :: top :: below

/-- What a stack of merged intervals keeps, as later ones are absorbed: the intervals on it are
disjoint, top first. -/
def Stacked (merged : List (α × α)) : Prop := merged.Pairwise fun p q => q.2 ≤ p.1

/-- `p` lies inside one of the merged intervals. -/
def Covered (merged : List (α × α)) (p : α × α) : Prop := ∃ q ∈ merged, q.1 ≤ p.1 ∧ p.2 ≤ q.2

theorem absorb_stacked {merged : List (α × α)} {p : α × α} (h : Stacked merged)
    (hstart : ∀ q ∈ merged, q.1 ≤ p.1) : Stacked (absorb merged p) := by
  cases merged with
  | nil => exact List.pairwise_singleton _ _
  | cons top below =>
    obtain ⟨htop, hbelow⟩ := List.pairwise_cons.mp h
    simp only [absorb]
    split
    · exact List.pairwise_cons.mpr ⟨htop, hbelow⟩
    · rename_i hge
      refine List.pairwise_cons.mpr ⟨fun q hq => ?_, h⟩
      rcases List.mem_cons.mp hq with rfl | hq
      · exact not_lt.mp hge
      · exact (htop q hq).trans (hstart top (by simp))

/-- The starts stay below whatever starts no earlier than the absorbed interval. -/
theorem absorb_start {merged : List (α × α)} {p : α × α} {x : α}
    (hstart : ∀ q ∈ merged, q.1 ≤ x) (hp : p.1 ≤ x) : ∀ q ∈ absorb merged p, q.1 ≤ x := by
  cases merged with
  | nil => simpa [absorb] using hp
  | cons top below =>
    simp only [absorb]
    split <;> intro q hq <;> rcases List.mem_cons.mp hq with rfl | hq
    · exact hstart top (by simp)
    · exact hstart q (List.mem_cons_of_mem _ hq)
    · exact hp
    · exact hstart q hq

/-- Absorbing an interval covers it. -/
theorem absorb_covered_self {merged : List (α × α)} {p : α × α}
    (hstart : ∀ q ∈ merged, q.1 ≤ p.1) : Covered (absorb merged p) p := by
  cases merged with
  | nil => exact ⟨p, by simp [absorb], le_rfl, le_rfl⟩
  | cons top below =>
    simp only [absorb]
    split
    · exact ⟨_, List.mem_cons_self, hstart top (by simp), le_max_left _ _⟩
    · exact ⟨p, by simp, le_rfl, le_rfl⟩

/-- What was covered stays covered. -/
theorem Covered.absorb {merged : List (α × α)} {p q : α × α} (h : Covered merged q) :
    Covered (absorb merged p) q := by
  obtain ⟨r, hr, hlow, hhigh⟩ := h
  cases merged with
  | nil => cases hr
  | cons top below =>
    simp only [Tiling.absorb]
    split
    · rcases List.mem_cons.mp hr with rfl | hr
      · exact ⟨_, List.mem_cons_self, hlow, hhigh.trans (le_max_right _ _)⟩
      · exact ⟨r, List.mem_cons_of_mem _ hr, hlow, hhigh⟩
    · exact ⟨r, List.mem_cons_of_mem _ hr, hlow, hhigh⟩

/-- No new end appears: merged intervals end where one of the given ones did. -/
theorem absorb_stop {P : α → Prop} {merged : List (α × α)} {p : α × α}
    (hmerged : ∀ q ∈ merged, P q.2) (hp : P p.2) : ∀ q ∈ absorb merged p, P q.2 := by
  cases merged with
  | nil => simpa [absorb] using hp
  | cons top below =>
    simp only [absorb]
    split <;> intro q hq <;> rcases List.mem_cons.mp hq with rfl | hq
    · rcases max_choice p.2 top.2 with h | h <;> simp only [h]
      · exact hp
      · exact hmerged top (by simp)
    · exact hmerged q (List.mem_cons_of_mem _ hq)
    · exact hp
    · exact hmerged q hq

end Tiling
