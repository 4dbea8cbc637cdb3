/-
# Composing automata that read positions

An automaton moves between states and between positions of an input at once, so that a move may look
at what surrounds its position.  `Links ss t R` says what a part of it does for the whole: from one
of the states `ss` the target is reached exactly as it is reached from `t` after `R`.

Reaching is counted in moves.  Nothing is said about the part on the inside, hence parts compose in
any order; only a loop needs the count, since a body that reads nothing leads back to where it began.
-/
import Mathlib.Order.Basic
import Mathlib.Data.Nat.Basic
import Mathlib.Tactic.Common

namespace Thompson

variable {σ ι : Type}

/-- The target is reached in at most so many moves. -/
def Reach (step : σ → ι → σ → ι → Prop) (target : σ) : Nat → σ → ι → Prop
  | 0, s, _ => s = target
  | n + 1, s, i => s = target ∨ ∃ t j, step s i t j ∧ Reach step target n t j

/-- `R` so many times in a row. -/
def Runs (R : ι → ι → Prop) : Nat → ι → ι → Prop
  | 0, i, k => i = k
  | n + 1, i, k => ∃ j, R i j ∧ Runs R n j k

/-- From the states `ss` on to `t` by `R`, and in no other way. -/
structure Links (step : σ → ι → σ → ι → Prop) (target : σ) (ss : List σ) (t : σ)
    (R : ι → ι → Prop) : Prop where
  sound : ∀ s ∈ ss, ∀ n i, Reach step target n s i →
    ∃ k m, m ≤ n ∧ R i k ∧ Reach step target m t k
  complete : ∀ i k m, R i k → Reach step target m t k → ∃ s ∈ ss, ∃ n, Reach step target n s i

/-- A state all of whose moves stay at their position. -/
structure Forks (step : σ → ι → σ → ι → Prop) (target : σ) (s : σ) (ts : List σ) : Prop where
  inner : s ≠ target
  moves : ∀ i t j, step s i t j ↔ t ∈ ts ∧ j = i

section Compose

variable {step : σ → ι → σ → ι → Prop} {target : σ} {ss ss' : List σ} {s t m : σ}
  {R Q : ι → ι → Prop}

/-- A state that is not the target has to move. -/
theorem Reach.move (hs : s ≠ target) {n : Nat} {i : ι} (h : Reach step target n s i) :
    ∃ n', n = n' + 1 ∧ ∃ t j, step s i t j ∧ Reach step target n' t j := by
  cases n with
  | zero => exact absurd h hs
  | succ n =>
    rcases h with h | h
    · exact absurd h hs
    · exact ⟨n, rfl, h⟩

theorem Links.congr (h : Links step target ss t R) (hR : ∀ i k, R i k ↔ Q i k) :
    Links step target ss t Q := by
  obtain rfl : R = Q := funext fun i => funext fun k => propext (hR i k)
  exact h

theorem Links.refl (s : σ) : Links step target [s] s Eq := by
  refine ⟨fun x hx n i h => ?_, fun i k m hik h => ?_⟩
  · rw [List.mem_singleton.mp hx] at h
    exact ⟨i, n, le_rfl, rfl, h⟩
  · exact ⟨s, List.mem_singleton_self s, m, hik ▸ h⟩

theorem Links.trans (h : Links step target ss m R) (h' : Links step target [m] t Q) :
    Links step target ss t fun i k => ∃ j, R i j ∧ Q j k := by
  refine ⟨fun s hs n i hn => ?_, fun i k n ⟨j, hij, hjk⟩ hn => ?_⟩
  · obtain ⟨j, n₁, hn₁, hij, hm⟩ := h.sound s hs n i hn
    obtain ⟨k, n₂, hn₂, hjk, ht⟩ := h'.sound m (List.mem_singleton_self m) n₁ j hm
    exact ⟨k, n₂, hn₂.trans hn₁, ⟨j, hij, hjk⟩, ht⟩
  · obtain ⟨x, hx, n', hm⟩ := h'.complete j k n hjk hn
    rw [List.mem_singleton.mp hx] at hm
    exact h.complete i j n' hij hm

theorem Links.nil : Links step target [] t fun _ _ => False :=
  ⟨fun _ hs => (by cases hs), fun _ _ _ h => h.elim⟩

theorem Links.append (h : Links step target ss t R) (h' : Links step target ss' t Q) :
    Links step target (ss ++ ss') t fun i k => R i k ∨ Q i k := by
  refine ⟨fun s hs n i hn => ?_, fun i k n hik hn => ?_⟩
  · rcases List.mem_append.mp hs with hs | hs
    · obtain ⟨k, m, hm, hik, ht⟩ := h.sound s hs n i hn
      exact ⟨k, m, hm, Or.inl hik, ht⟩
    · obtain ⟨k, m, hm, hik, ht⟩ := h'.sound s hs n i hn
      exact ⟨k, m, hm, Or.inr hik, ht⟩
  · rcases hik with hik | hik
    · obtain ⟨s, hs, hreach⟩ := h.complete i k n hik hn
      exact ⟨s, List.mem_append_left _ hs, hreach⟩
    · obtain ⟨s, hs, hreach⟩ := h'.complete i k n hik hn
      exact ⟨s, List.mem_append_right _ hs, hreach⟩

/-- A state with one way on. -/
theorem Links.edge (hs : s ≠ target) (h : ∀ i x j, step s i x j ↔ x = t ∧ R i j) :
    Links step target [s] t R := by
  refine ⟨fun x hx n i hn => ?_, fun i k m hik hm => ?_⟩
  · rw [List.mem_singleton.mp hx] at hn
    obtain ⟨n', rfl, x, j, hstep, hreach⟩ := hn.move hs
    obtain ⟨rfl, hij⟩ := (h i x j).mp hstep
    exact ⟨j, n', Nat.le_succ n', hij, hreach⟩
  · exact ⟨s, List.mem_singleton_self s, m + 1, Or.inr ⟨t, k, (h i t k).mpr ⟨rfl, hik⟩, hm⟩⟩

/-- A fork does what one of its ways does. -/
theorem Links.fork (hs : Forks step target s ss) (h : Links step target ss t R) :
    Links step target [s] t R := by
  refine ⟨fun x hx n i hn => ?_, fun i k m hik hm => ?_⟩
  · rw [List.mem_singleton.mp hx] at hn
    obtain ⟨n', rfl, y, j, hstep, hreach⟩ := hn.move hs.inner
    obtain ⟨hy, rfl⟩ := (hs.moves i y j).mp hstep
    obtain ⟨k, m, hm, hik, ht⟩ := h.sound y hy n' j hreach
    exact ⟨k, m, hm.trans (Nat.le_succ n'), hik, ht⟩
  · obtain ⟨y, hy, n, hreach⟩ := h.complete i k m hik hm
    exact ⟨s, List.mem_singleton_self s, n + 1, Or.inr ⟨y, i, (hs.moves i y i).mpr ⟨hy, rfl⟩, hreach⟩⟩

/-- **The loop.**  A state that goes on to `t` or into a body that leads back to it.  Induction on
the moves in one direction and on the rounds in the other. -/
theorem Links.loop {a b : σ} (hs : Forks step target s [t, a]) (hbody : Links step target [a] b R)
    (hb : Forks step target b [s]) : Links step target [s] t fun i k => ∃ n, Runs R n i k := by
  have hsound : ∀ n i, Reach step target n s i →
      ∃ k m, m ≤ n ∧ (∃ r, Runs R r i k) ∧ Reach step target m t k := by
    intro n
    induction n using Nat.strong_induction_on with
    | h n ih =>
      intro i hn
      obtain ⟨n', rfl, x, j, hstep, hreach⟩ := hn.move hs.inner
      obtain ⟨hx, rfl⟩ := (hs.moves i x j).mp hstep
      rcases List.mem_cons.mp hx with rfl | hx
      · exact ⟨j, n', Nat.le_succ n', ⟨0, rfl⟩, hreach⟩
      · rw [List.mem_singleton.mp hx] at hreach
        obtain ⟨k, m, hm, hjk, hback⟩ := hbody.sound a (List.mem_singleton_self a) n' j hreach
        obtain ⟨m', rfl, y, k', hstep', hreach'⟩ := hback.move hb.inner
        obtain ⟨hy, rfl⟩ := (hb.moves k y k').mp hstep'
        rw [List.mem_singleton.mp hy] at hreach'
        obtain ⟨l, m'', hm'', ⟨r, hr⟩, ht⟩ := ih m' (by omega) k' hreach'
        exact ⟨l, m'', by omega, ⟨r + 1, k', hjk, hr⟩, ht⟩
  refine ⟨fun x hx n i hn => ?_, ?_⟩
  · rw [List.mem_singleton.mp hx] at hn
    exact hsound n i hn
  · rintro i k m ⟨r, hr⟩ hm
    refine ⟨s, List.mem_singleton_self s, ?_⟩
    induction r generalizing i with
    | zero =>
      obtain rfl : i = k := hr
      exact ⟨m + 1, Or.inr ⟨t, i, (hs.moves i t i).mpr ⟨List.mem_cons_self, rfl⟩, hm⟩⟩
    | succ r ih =>
      obtain ⟨j, hij, hr⟩ := hr
      obtain ⟨n, hn⟩ := ih j hr
      have hback : Reach step target (n + 1) b j :=
        Or.inr ⟨s, j, (hb.moves j s j).mpr ⟨List.mem_singleton_self s, rfl⟩, hn⟩
      obtain ⟨x, hx, n', hreach⟩ := hbody.complete i j (n + 1) hij hback
      rw [List.mem_singleton.mp hx] at hreach
      exact ⟨n' + 1, Or.inr ⟨a, i, (hs.moves i a i).mpr ⟨by simp, rfl⟩, hreach⟩⟩

/-- Rounds add up. -/
theorem runs_add {n r : Nat} {i k : ι} :
    Runs R (n + r) i k ↔ ∃ j, Runs R n i j ∧ Runs R r j k := by
  induction n generalizing i with
  | zero =>
    rw [Nat.zero_add]
    constructor
    · intro h
      exact ⟨i, rfl, h⟩
    · rintro ⟨j, rfl, h⟩
      exact h
  | succ n ih =>
    rw [show n + 1 + r = n + r + 1 by omega]
    constructor
    · rintro ⟨j, hij, h⟩
      obtain ⟨l, hjl, hlk⟩ := ih.mp h
      exact ⟨l, ⟨j, hij, hjl⟩, hlk⟩
    · rintro ⟨l, ⟨j, hij, hjl⟩, hlk⟩
      exact ⟨j, hij, ih.mpr ⟨l, hjl, hlk⟩⟩

end Compose

/-! ## Forwards -/

/-- Where a run from a start can be, from some position on. -/
inductive Visits (step : σ → ι → σ → ι → Prop) (start : σ → ι → Prop) : σ → ι → Prop
  | start {s i} (h : start s i) : Visits step start s i
  | move {s i t j} (h : Visits step start s i) (hstep : step s i t j) : Visits step start t j

/-- A run can be at the target somewhere exactly when the target is reached from some start. -/
theorem visits_iff_reach {step : σ → ι → σ → ι → Prop} {start : σ → ι → Prop} {target : σ} :
    (∃ i, Visits step start target i) ↔ ∃ s i, start s i ∧ ∃ n, Reach step target n s i := by
  constructor
  · rintro ⟨i, h⟩
    have hback : ∀ s i, Visits step start s i → ∀ n, Reach step target n s i →
        ∃ s i, start s i ∧ ∃ n, Reach step target n s i := by
      intro s i h
      induction h with
      | start h => exact fun n hn => ⟨_, _, h, n, hn⟩
      | move _ hstep ih => exact fun n hn => ih (n + 1) (Or.inr ⟨_, _, hstep, hn⟩)
    exact hback target i h 0 rfl
  · rintro ⟨s, i, hstart, n, hn⟩
    have hforth : ∀ n s i, Reach step target n s i → Visits step start s i →
        ∃ i, Visits step start target i := by
      intro n
      induction n with
      | zero =>
        intro s i hs hv
        obtain rfl : s = target := hs
        exact ⟨i, hv⟩
      | succ n ih =>
        intro s i hs hv
        rcases hs with rfl | ⟨t, j, hstep, hreach⟩
        · exact ⟨i, hv⟩
        · exact ih t j hreach (.move hv hstep)
    exact hforth n s i hn (.start hstart)

end Thompson
