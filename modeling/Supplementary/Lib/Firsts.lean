/-
# The first of each kind

`firsts κ xs` keeps of each kind, told by `κ`, the element that comes first.  Which element that is
depends on the order of `xs`: any one can be brought to the front, and so can all elements with a
property at once.  What does not depend on the order is `exists_first` and `perm_map_firsts`.
-/
import Mathlib.Data.List.Nodup
import Mathlib.Data.List.Perm.Basic
import Mathlib.Data.List.Perm.Lattice
import Mathlib.Data.List.Dedup

namespace Firsts

variable {α β γ : Type} [DecidableEq β] {κ : α → β} {xs ys : List α} {seen : List β} {x y : α}

/-- The first elements of kinds not seen before. -/
def firstsFrom (κ : α → β) : (seen : List β) → List α → List α
  | _, [] => []
  | seen, x :: xs =>
    if κ x ∈ seen then firstsFrom κ seen xs else x :: firstsFrom κ (κ x :: seen) xs

def firsts (κ : α → β) (xs : List α) : List α := firstsFrom κ [] xs

theorem mem_firstsFrom : x ∈ firstsFrom κ seen xs ↔
    κ x ∉ seen ∧ ∃ before after, xs = before ++ x :: after ∧ ∀ y ∈ before, κ y ≠ κ x := by
  induction xs generalizing seen with
  | nil => simp [firstsFrom]
  | cons z xs ih =>
    rw [firstsFrom]
    split
    · next hz =>
      rw [ih]
      constructor
      · rintro ⟨hseen, before, after, rfl, hfirst⟩
        refine ⟨hseen, z :: before, after, rfl, ?_⟩
        intro y hy
        rcases List.mem_cons.mp hy with rfl | hy
        · exact fun heq => hseen (heq ▸ hz)
        · exact hfirst y hy
      · rintro ⟨hseen, before, after, heq, hfirst⟩
        cases before with
        | nil =>
          cases heq
          exact absurd hz hseen
        | cons b before =>
          cases heq
          exact ⟨hseen, before, after, rfl, fun y hy => hfirst y (List.mem_cons_of_mem _ hy)⟩
    · next hz =>
      rw [List.mem_cons, ih]
      constructor
      · rintro (rfl | ⟨hseen, before, after, rfl, hfirst⟩)
        · exact ⟨hz, [], xs, rfl, by simp⟩
        · rw [List.mem_cons, not_or] at hseen
          refine ⟨hseen.2, z :: before, after, rfl, ?_⟩
          intro y hy
          rcases List.mem_cons.mp hy with rfl | hy
          · exact Ne.symm hseen.1
          · exact hfirst y hy
      · rintro ⟨hseen, before, after, heq, hfirst⟩
        cases before with
        | nil =>
          cases heq
          exact .inl rfl
        | cons b before =>
          cases heq
          refine .inr ⟨?_, before, after, rfl, fun y hy => hfirst y (List.mem_cons_of_mem _ hy)⟩
          rw [List.mem_cons, not_or]
          exact ⟨Ne.symm (hfirst z List.mem_cons_self), hseen⟩

theorem mem_firsts : x ∈ firsts κ xs ↔
    ∃ before after, xs = before ++ x :: after ∧ ∀ y ∈ before, κ y ≠ κ x := by
  rw [firsts, mem_firstsFrom]
  simp

theorem mem_of_mem_firsts (h : x ∈ firsts κ xs) : x ∈ xs := by
  obtain ⟨before, after, rfl, -⟩ := mem_firsts.mp h
  simp

theorem exists_firstFrom (h : x ∈ xs) (hseen : κ x ∉ seen) :
    ∃ y ∈ firstsFrom κ seen xs, κ y = κ x := by
  induction xs generalizing seen with
  | nil => cases h
  | cons z xs ih =>
    rw [firstsFrom]
    split
    · next hz =>
      rcases List.mem_cons.mp h with rfl | h
      · exact absurd hz hseen
      · exact ih h hseen
    · by_cases hkind : κ x = κ z
      · exact ⟨z, List.mem_cons_self, hkind.symm⟩
      · rcases List.mem_cons.mp h with rfl | h
        · exact absurd rfl hkind
        · have hseen' : κ x ∉ κ z :: seen := by
            rw [List.mem_cons, not_or]
            exact ⟨hkind, hseen⟩
          obtain ⟨y, hy, heq⟩ := ih h hseen'
          exact ⟨y, List.mem_cons_of_mem _ hy, heq⟩

/-- Every kind has its first. -/
theorem exists_first (h : x ∈ xs) : ∃ y ∈ firsts κ xs, κ y = κ x :=
  exists_firstFrom h (List.not_mem_nil)

/-- No kind has two. -/
theorem nodup_map_firstsFrom : ((firstsFrom κ seen xs).map κ).Nodup := by
  induction xs generalizing seen with
  | nil => simp [firstsFrom]
  | cons z xs ih =>
    rw [firstsFrom]
    split
    · exact ih
    · rw [List.map_cons, List.nodup_cons]
      refine ⟨fun hmem => ?_, ih⟩
      obtain ⟨y, hy, heq⟩ := List.mem_map.mp hmem
      have hnew := (mem_firstsFrom.mp hy).1
      rw [heq] at hnew
      exact hnew List.mem_cons_self

theorem nodup_map_firsts : ((firsts κ xs).map κ).Nodup := nodup_map_firstsFrom

theorem mem_map_firsts {b : β} : b ∈ (firsts κ xs).map κ ↔ b ∈ xs.map κ := by
  constructor
  · intro h
    obtain ⟨y, hy, rfl⟩ := List.mem_map.mp h
    exact List.mem_map_of_mem (mem_of_mem_firsts hy)
  · intro h
    obtain ⟨x, hx, rfl⟩ := List.mem_map.mp h
    obtain ⟨y, hy, heq⟩ : ∃ y ∈ firsts κ xs, κ y = κ x := exists_first hx
    rw [← heq]
    exact List.mem_map_of_mem hy

/-- In another order the same kinds are there. -/
theorem perm_map_firsts (h : xs.Perm ys) : ((firsts κ xs).map κ).Perm ((firsts κ ys).map κ) := by
  rw [List.perm_ext_iff_of_nodup nodup_map_firsts nodup_map_firsts]
  intro b
  rw [mem_map_firsts, mem_map_firsts, (h.map κ).mem_iff]

/-- What is the same for all elements of a kind is the same in another order. -/
theorem perm_map_firsts_of_const {f : α → γ} (hconst : ∀ x ∈ xs, ∀ y ∈ xs, κ x = κ y → f x = f y)
    (h : xs.Perm ys) : ((firsts κ xs).map f).Perm ((firsts κ ys).map f) := by
  -- `f` factors through the kind
  let g : β → Option γ := fun b => (xs.find? fun x => κ x = b).map f
  have hg : ∀ x ∈ xs, g (κ x) = some (f x) := by
    intro x hx
    obtain ⟨y, hy⟩ : ∃ y, (xs.find? fun y => decide (κ y = κ x)) = some y := by
      cases hfind : xs.find? fun y => decide (κ y = κ x) with
      | some y => exact ⟨y, rfl⟩
      | none =>
        rw [List.find?_eq_none] at hfind
        exact absurd (by simp) (hfind x hx)
    have hkind := List.find?_some hy
    change Option.map f (xs.find? fun y => decide (κ y = κ x)) = some (f x)
    rw [hy, Option.map_some]
    exact congrArg some (hconst y (List.mem_of_find?_eq_some hy) x hx (by simpa using hkind))
  have hfirsts : ∀ zs, xs.Perm zs →
      ((firsts κ zs).map f).map some = ((firsts κ zs).map κ).map g := by
    intro zs hzs
    rw [List.map_map, List.map_map]
    refine List.map_congr_left fun x hx => ?_
    exact (hg x (hzs.mem_iff.mpr (mem_of_mem_firsts hx))).symm
  have hmap := (perm_map_firsts (κ := κ) h).map g
  rw [← hfirsts xs (.refl xs), ← hfirsts ys h] at hmap
  exact (List.map_perm_map_iff (fun _ _ h => Option.some.inj h)).mp hmap

/-! ## What an order can bring to the front -/

section

variable (p : α → Bool)

/-- With the elements that have a property in front, a first without it has none of its kind with it. -/
theorem not_of_firsts_front {zs : List α} (h : zs = xs.filter p ++ xs.filter (fun x => !p x))
    (hx : x ∈ firsts κ zs) (hp : p x = false) (hy : y ∈ xs) (hkind : κ y = κ x) : p y = false := by
  obtain ⟨before, after, heq, hfirst⟩ := mem_firsts.mp hx
  by_contra hpy
  rw [Bool.not_eq_false] at hpy
  rw [h] at heq
  rcases List.append_eq_append_iff.mp heq with ⟨t, hbefore, -⟩ | ⟨t, hfront, hrest⟩
  · refine hfirst y ?_ hkind
    rw [hbefore]
    exact List.mem_append_left _ (List.mem_filter.mpr ⟨hy, hpy⟩)
  · cases t with
    | nil =>
      rw [List.append_nil] at hfront
      refine hfirst y ?_ hkind
      rw [← hfront]
      exact List.mem_filter.mpr ⟨hy, hpy⟩
    | cons a t =>
      -- then `x` would stand among those with the property
      cases hrest
      have hmem : x ∈ xs.filter p := by
        rw [hfront]
        simp
      rw [(List.mem_filter.mp hmem).2] at hp
      cases hp

/-- The front is a part of the firsts. -/
theorem exists_first_front {zs : List α} (h : zs = xs.filter p ++ xs.filter (fun x => !p x))
    (hx : x ∈ xs) (hp : p x = true) : ∃ y ∈ firsts κ zs, κ y = κ x ∧ p y = true := by
  have hmem : x ∈ zs := by
    rw [h]
    exact List.mem_append_left _ (List.mem_filter.mpr ⟨hx, hp⟩)
  obtain ⟨y, hy, hkind⟩ := exists_first (κ := κ) hmem
  refine ⟨y, hy, hkind, ?_⟩
  by_contra hpy
  rw [Bool.not_eq_true] at hpy
  have := not_of_firsts_front p h hy hpy hx hkind.symm
  rw [hp] at this
  cases this

/-- If in every order some first has the property or in none, all elements of some kind have it. -/
theorem whole_of_stable (h : ∀ ys, ys.Perm xs →
      ((∃ x ∈ firsts κ ys, p x = true) ↔ ∃ x ∈ firsts κ xs, p x = true))
    (hx : x ∈ xs) (hp : p x = true) : ∃ y ∈ xs, ∀ z ∈ xs, κ z = κ y → p z = true := by
  have hfront : (xs.filter p ++ xs.filter fun x => !p x).Perm xs := List.filter_append_perm p xs
  have hback : (xs.filter (fun x => !p x) ++ xs.filter fun x => !!p x).Perm xs :=
    List.filter_append_perm (fun x => !p x) xs
  obtain ⟨y, hy, -, hpy⟩ := exists_first_front (κ := κ) p rfl hx hp
  have hsome := (h _ hfront).mp ⟨y, hy, hpy⟩
  obtain ⟨y, hy, hpy⟩ := (h _ hback).mpr hsome
  refine ⟨y, hback.mem_iff.mp (mem_of_mem_firsts hy), fun z hz hkind => ?_⟩
  have hnot := not_of_firsts_front (fun x => !p x) rfl hy (by simp [hpy]) hz hkind
  simpa using hnot

end

/-- Where it takes a whole kind, some first has the property in every order. -/
theorem exists_firsts_of_whole {p : α → Prop}
    (h : ∀ x ∈ xs, p x → ∃ y ∈ xs, ∀ z ∈ xs, κ z = κ y → p z) (hperm : ys.Perm xs) :
    (∃ x ∈ firsts κ ys, p x) ↔ ∃ x ∈ xs, p x := by
  constructor
  · rintro ⟨x, hx, hp⟩
    exact ⟨x, hperm.mem_iff.mp (mem_of_mem_firsts hx), hp⟩
  · rintro ⟨x, hx, hp⟩
    obtain ⟨y, hy, hwhole⟩ := h x hx hp
    obtain ⟨z, hz, hkind⟩ := exists_first (κ := κ) (hperm.mem_iff.mpr hy)
    exact ⟨z, hz, hwhole z (hperm.mem_iff.mp (mem_of_mem_firsts hz)) hkind⟩

/-- Two elements of one kind can take each other's place. -/
theorem firsts_swap (h : κ x = κ y) :
    ∃ rest, firsts κ (x :: y :: xs) = x :: rest ∧ firsts κ (y :: x :: xs) = y :: rest := by
  refine ⟨firstsFrom κ [κ x] xs, ?_, ?_⟩
  · simp [firsts, firstsFrom, h]
  · simp [firsts, firstsFrom, h]

end Firsts
