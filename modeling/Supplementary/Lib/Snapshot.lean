/-
# Reading a changing collection twice

A collection that changes with time is read in parts, each at its own instant, and read again
later.  An entry that both reads saw was there all the time between, if whatever leaves and comes
back is told apart.  So the parts are a picture of one instant: the one between the two passes, if
they have as many keys as the collection had then.
-/
import Mathlib.Order.Basic
import Mathlib.Data.List.Perm.Subperm
import Mathlib.Data.List.Nodup

namespace Snapshot

variable {T α κ : Type} [Preorder T]

/-- What leaves and comes back is no longer `same` as it was: an entry seen at two instants has
been there, under its key, at each instant between. -/
def Returns (present : T → List α) (key : α → κ) (same : α → α → Prop) : Prop :=
  ∀ s u v, s ≤ u → u ≤ v → ∀ x ∈ present s, ∀ y ∈ present v, same y x → key x ∈ (present u).map key

/-- An entry that was read before the instant and again after it. -/
def Spans (present : T → List α) (same : α → α → Prop) (u : T) (x : α) : Prop :=
  ∃ s v, s ≤ u ∧ u ≤ v ∧ x ∈ present s ∧ ∃ y ∈ present v, same y x

variable {present : T → List α} {key : α → κ} {same : α → α → Prop}

theorem Returns.mem (h : Returns present key same) {u : T} {x : α} (hx : Spans present same u x) :
    key x ∈ (present u).map key := by
  obtain ⟨s, v, hs, hv, hmem, y, hy, hsame⟩ := hx
  exact h s u v hs hv x hmem y hy hsame

/-- **The two passes.**  Entries with distinct keys that span the instant, as many as were there,
are all that were there. -/
theorem Returns.perm (h : Returns present key same) {u : T} {seen : List α}
    (hspans : ∀ x ∈ seen, Spans present same u x) (hnodup : (seen.map key).Nodup)
    (hlength : seen.length = (present u).length) : (seen.map key).Perm ((present u).map key) := by
  have hsub : seen.map key ⊆ (present u).map key := by
    intro k hk
    obtain ⟨x, hx, rfl⟩ := List.mem_map.mp hk
    exact h.mem (hspans x hx)
  refine (List.subperm_of_subset hnodup hsub).perm_of_length_le ?_
  simp only [List.length_map, hlength, Nat.le_refl]

end Snapshot
