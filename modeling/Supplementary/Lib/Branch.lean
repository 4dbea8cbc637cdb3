/-
# A branch that is pushed to under compare and swap

A branch has a head, and every commit keeps the tree it was made with.  A writer names the head it
expects: it has seen a path absent in that commit, and its push adds a file there and nothing else.
Whoever else pushes leaves the guarded paths as they are.

`Evolves.holds`: what a guarded path holds at the head is never overwritten.
-/
import Mathlib.Logic.Function.Basic
import Mathlib.Tactic.Common

variable {Oid Path File : Type}

/-- The trees of the commits that there are, and the commit at the head. -/
structure Branch (Oid Path File : Type) where
  tree : Oid → Option (Path → Option File)
  head : Oid

namespace Branch

/-- The file at the path, at the head. -/
def Holds (b : Branch Oid Path File) (path : Path) (file : File) : Prop :=
  ∃ t, b.tree b.head = some t ∧ t path = some file

/-- There is such a commit, and no file at the path in it. -/
def Lacks (b : Branch Oid Path File) (oid : Oid) (path : Path) : Prop :=
  ∃ t, b.tree oid = some t ∧ t path = none

/-- Every file of every commit is as `P` says. -/
def Files (P : Path → File → Prop) (b : Branch Oid Path File) : Prop :=
  ∀ oid t path file, b.tree oid = some t → t path = some file → P path file

variable [DecidableEq Oid] {b b' : Branch Oid Path File} {t t' : Path → Option File} {oid new : Oid}
  {path : Path} {file : File}

/-- A new commit on top of the head. -/
def push (b : Branch Oid Path File) (new : Oid) (t : Path → Option File) : Branch Oid Path File :=
  ⟨Function.update b.tree new (some t), new⟩

/-! ## 1. One push -/

theorem tree_push_head : (b.push new t).tree (b.push new t).head = some t := Function.update_self ..

theorem tree_push_of_ne (h : oid ≠ new) : (b.push new t).tree oid = b.tree oid :=
  Function.update_of_ne h ..

/-- The commits that there were keep their trees. -/
theorem tree_push (hfresh : b.tree new = none) (h : b.tree oid = some t) :
    (b.push new t').tree oid = some t := by
  have hne : oid ≠ new := by
    rintro rfl
    rw [h] at hfresh
    cases hfresh
  rw [tree_push_of_ne hne, h]

theorem Lacks.push (h : b.Lacks oid path) (hfresh : b.tree new = none) :
    (b.push new t).Lacks oid path := by
  obtain ⟨t₀, htree, habsent⟩ := h
  exact ⟨t₀, tree_push hfresh htree, habsent⟩

theorem Files.push {P : Path → File → Prop} (h : Files P b)
    (hnew : ∀ path file, t path = some file → P path file) : Files P (b.push new t) := by
  intro oid t' path file htree hfile
  by_cases heq : oid = new
  · subst heq
    cases tree_push_head.symm.trans htree
    exact hnew path file hfile
  · rw [tree_push_of_ne heq] at htree
    exact h oid t' path file htree hfile

/-! ## 2. The pushes of all writers -/

variable [DecidableEq Path] {guarded : Path → Prop}

/-- One push, or none. -/
inductive Evolves (guarded : Path → Prop) : Branch Oid Path File → Branch Oid Path File → Prop
  | idle (b : Branch Oid Path File) : Evolves guarded b b
  | add {b : Branch Oid Path File} {t : Path → Option File} {path : Path} {file : File} {new : Oid}
      (hfresh : b.tree new = none) (htree : b.tree b.head = some t) (habsent : t path = none) :
      Evolves guarded b (b.push new (Function.update t path (some file)))
  | other {b : Branch Oid Path File} {t t' : Path → Option File} {new : Oid}
      (hfresh : b.tree new = none) (htree : b.tree b.head = some t)
      (hsame : ∀ path, guarded path → t' path = t path) : Evolves guarded b (b.push new t')

theorem Evolves.lacks (h : Evolves guarded b b') (hlacks : b.Lacks oid path) : b'.Lacks oid path := by
  cases h with
  | idle => exact hlacks
  | add hfresh _ _ => exact hlacks.push hfresh
  | other hfresh _ _ => exact hlacks.push hfresh

/-- **Nothing at a guarded path is overwritten.** -/
theorem Evolves.holds (h : Evolves guarded b b') (hguarded : guarded path)
    (hholds : b.Holds path file) : b'.Holds path file := by
  obtain ⟨t₀, htree₀, hfile⟩ := hholds
  cases h with
  | idle => exact ⟨t₀, htree₀, hfile⟩
  | @add t added _ _ _ htree habsent =>
    cases htree₀.symm.trans htree
    refine ⟨_, tree_push_head, ?_⟩
    have hne : path ≠ added := by
      rintro rfl
      rw [hfile] at habsent
      cases habsent
    rw [Function.update_of_ne hne, hfile]
  | other _ htree hsame =>
    cases htree₀.symm.trans htree
    exact ⟨_, tree_push_head, (hsame path hguarded).trans hfile⟩

end Branch
