/-
# What holds at every instant

Where nobody interferes, a program is the only one to change the world, and its log has every world
that there ever was.  `Through T I V` says that `T` held at every instant of a run, and what holds
of the world and of the variables right now.

A predicate is stable at an entry if it survives the removal of other entries and changes of
metadata; a program that removes nothing else keeps it.
-/
import Supplementary.Lib.Posix

namespace Machine

variable {World Call Fault Vars Err α : Type}

/-- Other processes do nothing. -/
def Quiet (env : Env World Fault) : Prop := ∀ n w, env.other n w = w

/-- `I` holds of the world and `V` of the variables, and `T` held before and after every step. -/
structure Through (T I : World → Prop) (V : Vars → Prop) (s : Run World Call Vars) : Prop where
  now : I s.world
  vars : V s.vars
  past : ∀ e ∈ s.log, T e.before ∧ T e.after

theorem Through.mono {T I J : World → Prop} {V : Vars → Prop} {s : Run World Call Vars}
    (h : Through T I V s) (hI : ∀ w, I w → J w) : Through T J V s := ⟨hI _ h.now, h.vars, h.past⟩

theorem Through.weaken {T T' I J : World → Prop} {V V' : Vars → Prop} {s : Run World Call Vars}
    (h : Through T I V s) (hT : ∀ w, T w → T' w) (hI : ∀ w, I w → J w) (hV : ∀ v, V v → V' v) :
    Through T' J V' s :=
  ⟨hI _ h.now, hV _ h.vars, fun e he => ⟨hT _ (h.past e he).1, hT _ (h.past e he).2⟩⟩

theorem through_pull {T I : World → Prop} {p : Prop} {V : Vars → Prop} {s : Run World Call Vars}
    (h : Through T (fun w => p ∧ I w) V s) : p ∧ Through T I V s :=
  ⟨h.now.1, h.now.2, h.vars, h.past⟩

section

variable {env : Env World Fault} {T I : World → Prop} {V : Vars → Prop}

/-- A step that does what `J` says or leaves the world alone. -/
theorem perform_through (hquiet : Quiet env) {call : Call}
    {act : Option Fault → World → Except Err α × World} {J : α → World → Prop}
    (hI : ∀ w, I w → T w) (hJ : ∀ a w, J a w → T w)
    (hok : ∀ f w a w', I w → act f w = (.ok a, w') → J a w')
    (herror : ∀ f w e w', I w → act f w = (.error e, w') → w' = w) :
    Triple env (Through T I V) (Program.perform call act) (fun a => Through T (J a) V)
      fun _ => Through T I V := by
  refine triple_perform (fun _ a w h hact => ?_) fun _ e w h hact => ?_
  · rw [hquiet] at hact ⊢
    have hafter := hok _ _ _ _ h.now hact
    exact ⟨hafter, h.vars, List.forall_mem_cons.mpr ⟨⟨hI _ h.now, hJ _ _ hafter⟩, h.past⟩⟩
  · rw [hquiet] at hact ⊢
    obtain rfl := herror _ _ _ _ h.now hact
    exact ⟨h.now, h.vars, List.forall_mem_cons.mpr ⟨⟨hI _ h.now, hI _ h.now⟩, h.past⟩⟩

/-- Assignments leave the world alone. -/
theorem assign_through {change : Vars → Vars} (h : ∀ v, V v → V (change v)) :
    Preserves env (Through T I V)
      (Program.assign change : Program World Call Fault Vars Err Unit) :=
  preserves_assign fun _ hs => ⟨hs.now, h _ hs.vars, hs.past⟩

/-- Nobody interferes, and the calls of `C` keep `P` where they leave the world alone. -/
structure Idle (env : Env World Fault) (C : Call → Prop) (P : Run World Call Vars → Prop) : Prop where
  quiet : Quiet env
  step : ∀ s call ok, C call → P s →
    P { s with log := ⟨call, s.world, s.world, ok⟩ :: s.log }

theorem through_idle {C : Call → Prop} (hquiet : Quiet env) (hI : ∀ w, I w → T w) :
    Idle env C (Through T I V : Run World Call Vars → Prop) :=
  ⟨hquiet, fun _ _ _ _ h =>
    ⟨h.now, h.vars, List.forall_mem_cons.mpr ⟨⟨hI _ h.now, hI _ h.now⟩, h.past⟩⟩⟩

end

end Machine

namespace Posix

open Machine

variable {Name Result Vars α : Type} {env : Env (World Name) Fault} {T I : World Name → Prop}
  {V : Vars → Prop}

/-! ## 1. Calls -/

/-- A call that does what `J` says or leaves the world alone. -/
theorem syscall_through (hquiet : Quiet env) {call : Call Name Result}
    {act : World Name → Except Errno (α × World Name)} {J : α → World Name → Prop}
    (hI : ∀ w, I w → T w) (hJ : ∀ a w, J a w → T w)
    (hok : ∀ w a w', I w → act w = .ok (a, w') → J a w') :
    Triple env (Through T I V) (syscall call act) (fun a => Through T (J a) V)
      fun _ => Through T I V := by
  refine perform_through hquiet hI hJ (fun f w a w' hw hact => ?_) fun f w e w' hw hact => ?_
  · split at hact
    · cases hact
    · cases hstep : act w with
      | error e => simp [hstep] at hact
      | ok r =>
        simp only [hstep, Prod.mk.injEq, Except.ok.injEq] at hact
        obtain ⟨rfl, rfl⟩ := hact
        exact hok w _ _ hw hstep
  · split at hact
    · cases hact
      rfl
    · cases hstep : act w with
      | error e =>
        simp only [hstep, Prod.mk.injEq] at hact
        exact hact.2.symm
      | ok r => simp [hstep] at hact

section

variable {C : Call Name Result → Prop} {P : Run (World Name) (Call Name Result) Vars → Prop}
  (hP : Idle env C P)

include hP

/-- A call that leaves the world alone; what it returns is what it found there. -/
theorem looking_triple {call : Call Name Result} (hcall : C call)
    {act : World Name → Except Errno (α × World Name)} {R : α → World Name → Prop}
    (hact : ∀ w a w', act w = .ok (a, w') → w' = w ∧ R a w) :
    Triple env P (syscall call act) (fun a s => R a s.world ∧ P s) fun _ => P := by
  refine triple_perform (fun s a w h hstep => ?_) fun s e w h hstep => ?_
  · rw [hP.quiet] at hstep ⊢
    split at hstep
    · cases hstep
    · cases hlook : act s.world with
      | error e => simp [hlook] at hstep
      | ok r =>
        simp only [hlook, Prod.mk.injEq, Except.ok.injEq] at hstep
        obtain ⟨rfl, rfl⟩ := hstep
        obtain ⟨hsame, hR⟩ := hact _ _ _ hlook
        rw [hsame]
        exact ⟨hR, hP.step s call true hcall h⟩
  · rw [hP.quiet] at hstep ⊢
    have hsame : w = s.world := by
      split at hstep
      · exact (Prod.mk.inj hstep).2.symm
      · cases hlook : act s.world with
        | error e =>
          simp only [hlook, Prod.mk.injEq] at hstep
          exact hstep.2.symm
        | ok r => simp [hlook] at hstep
    rw [hsame]
    exact hP.step s call false hcall h

theorem looking_idle {call : Call Name Result} (hcall : C call)
    {act : World Name → Except Errno (α × World Name)}
    (hact : ∀ w a w', act w = .ok (a, w') → w' = w) : Preserves env P (syscall call act) :=
  (@looking_triple _ _ _ _ _ _ _ hP call hcall act (fun _ _ => True) fun w a w' h =>
    ⟨hact w a w' h, trivial⟩).post fun _ _ h => h.2

/-- The calls that leave the world alone whatever it is. -/
theorem done_idle {call : Call Name Result} (hcall : C call) {f : World Name → α} :
    Preserves env P (syscall call fun w => .ok (f w, w)) :=
  looking_idle hP hcall fun w a w' hact => by
    cases hact
    rfl

theorem fstat_idle {i : Nat} (hcall : C (.fstat i)) :
    Preserves env P (fstat i : Sys Name Result Vars Stat) :=
  looking_idle hP hcall fun w a w' hact => by
    cases hinode : w.inode i with
    | none => simp [hinode] at hact
    | some n =>
      simp only [hinode, Except.ok.injEq, Prod.mk.injEq] at hact
      exact hact.2.symm

theorem readMore_idle {i : Nat} (hcall : C (.read i)) :
    ∀ n, Preserves env P (readMore i n : Sys Name Result Vars Unit)
  | 0 => preserves_pure
  | n + 1 => (done_idle hP hcall).bind fun _ => readMore_idle hcall n

theorem readAll_idle {i size : Nat} (hcall : C (.read i)) :
    Preserves env P (readAll i size : Sys Name Result Vars (List UInt8)) :=
  (done_idle hP hcall).bind fun _ => (readMore_idle hP hcall _).bind fun _ => preserves_pure

theorem print_idle {r : Result} (hcall : C (.print r)) :
    Preserves env P (print r : Sys Name Result Vars Unit) := by
  refine triple_perform (fun s a w h hact => ?_) fun s e w h hact => by cases hact
  cases hact
  rw [hP.quiet]
  exact hP.step s _ true hcall h

end

section

variable [DecidableEq Name] {k : Key Name} {i : Nat}

theorem World.find_eq_ok {w : World Name} {st : Stat} (h : w.find k = .ok st) :
    w.lookup k = some st.ino ∧ w.inode st.ino = some st.info := by
  unfold World.find at h
  cases hlookup : w.lookup k with
  | none => simp [hlookup] at h
  | some j =>
    cases hinode : w.inode j with
    | none => simp [hlookup, hinode] at h
    | some n =>
      simp only [hlookup, hinode, Except.ok.injEq] at h
      rw [← h]
      exact ⟨rfl, hinode⟩

section

variable {C : Call Name Result → Prop} {P : Run (World Name) (Call Name Result) Vars → Prop}
  (hP : Idle env C P)

include hP

theorem stat_idle (hcall : C (.stat k)) :
    Triple env P (stat k) (fun st s => s.world.find k = .ok st ∧ P s) fun _ => P :=
  @looking_triple _ _ _ _ _ _ _ hP _ hcall _ (fun st w => w.find k = .ok st) fun w a w' hact => by
    cases hfind : w.find k with
    | error e => simp [hfind, Except.map] at hact
    | ok st =>
      simp only [hfind, Except.map, Except.ok.injEq, Prod.mk.injEq] at hact
      exact ⟨hact.2.symm, by rw [hact.1]⟩

theorem openDirectory_idle (hcall : C (.open k)) :
    Triple env P (openDirectory k) (fun i s => s.world.lookup k = some i ∧ P s) fun _ => P :=
  @looking_triple _ _ _ _ _ _ _ hP _ hcall _ (fun i w => w.lookup k = some i) fun w a w' hact => by
    cases hfind : w.find k with
    | error e => simp [hfind, Except.bind] at hact
    | ok st =>
      simp only [hfind, Except.bind] at hact
      split at hact
      · cases hact
        exact ⟨rfl, (World.find_eq_ok hfind).1⟩
      · cases hact

theorem openReadable_idle {mayRead : Inode → Bool} (hcall : C (.open k)) :
    Preserves env P (openReadable mayRead k) :=
  looking_idle hP hcall fun w a w' hact => by
    cases hfind : w.find k with
    | error e => simp [hfind, Except.bind] at hact
    | ok st =>
      simp only [hfind, Except.bind] at hact
      split at hact
      · cases hact
        rfl
      · cases hact

end

/-! ## 2. Stable predicates -/

/-- Survives the removal of other entries, and changes of metadata. -/
structure Stable (target : Key Name) (I : World Name → Prop) : Prop where
  remove : ∀ w k, k ≠ target → I w → I (w.remove k)
  touch : ∀ w i, I w → I (w.touch i)

variable {target : Key Name}

theorem Stable.or {J : World Name → Prop} (hI : Stable target I) (hJ : Stable target J) :
    Stable target fun w => I w ∨ J w :=
  ⟨fun w k hk h => h.imp (hI.remove w k hk) (hJ.remove w k hk),
    fun w i h => h.imp (hI.touch w i) (hJ.touch w i)⟩

theorem rmdir_through (hquiet : Quiet env) (hI : ∀ w, I w → T w) (hstable : Stable target I)
    (hk : k ≠ target) : Preserves env (Through T I V) (rmdir k : Sys Name Result Vars Unit) := by
  refine syscall_through hquiet hI (fun _ => hI) fun w a w' hw hact => ?_
  cases hfind : w.find k with
  | error e => simp [hfind, Except.bind] at hact
  | ok st =>
    simp only [hfind, Except.bind] at hact
    split at hact
    · cases hact
    · split at hact
      · cases hact
        exact hstable.remove w k hk hw
      · cases hact

theorem unlink_through (hquiet : Quiet env) (hI : ∀ w, I w → T w) (hstable : Stable target I)
    (hk : k ≠ target) : Preserves env (Through T I V) (unlink k : Sys Name Result Vars Unit) := by
  refine syscall_through hquiet hI (fun _ => hI) fun w a w' hw hact => ?_
  cases hfind : w.find k with
  | error e => simp [hfind, Except.bind] at hact
  | ok st =>
    simp only [hfind, Except.bind] at hact
    split at hact
    · cases hact
    · cases hact
      exact hstable.touch _ _ (hstable.remove w k hk hw)

/-! ## 3. An entry and the inode behind it -/

/-- The entry leads to a certain inode with certain data. -/
def Linked (target : Key Name) (good : Inode → Prop) (w : World Name) : Prop :=
  ∃ i n, w.lookup target = some i ∧ w.inode i = some n ∧ good n

theorem stable_linked {good : Inode → Prop} (hgood : ∀ n, good n → good n.touched) :
    Stable target (Linked target good) := by
  refine ⟨fun w k hk h => ?_, fun w i h => ?_⟩
  · obtain ⟨j, n, hlookup, hinode, hn⟩ := h
    exact ⟨j, n, by rw [World.lookup_remove_ne (Ne.symm hk), hlookup], hinode, hn⟩
  · obtain ⟨j, n, hlookup, hinode, hn⟩ := h
    by_cases hij : j = i
    · refine ⟨j, n.touched, hlookup, ?_, hgood n hn⟩
      simp [World.touch, hij, hij ▸ hinode]
    · exact ⟨j, n, hlookup, by simp [World.touch, hij, hinode], hn⟩

/-- The entry is the one that it was in `w₀`, with the same data. -/
structure Intact (target : Key Name) (w₀ w : World Name) : Prop where
  lookup : w.lookup target = w₀.lookup target
  data : ∀ i n, w₀.lookup target = some i → w₀.inode i = some n →
    ∃ n', w.inode i = some n' ∧ n.Same n'

/-- And the inodes of `w₀` are still known. -/
structure Untouched (target : Key Name) (w₀ w : World Name) : Prop extends Intact target w₀ w where
  next : w₀.next ≤ w.next

theorem Intact.refl (target : Key Name) (w₀ : World Name) : Intact target w₀ w₀ :=
  ⟨rfl, fun _ n _ h => ⟨n, h, .refl n⟩⟩

theorem Untouched.refl (target : Key Name) (w₀ : World Name) : Untouched target w₀ w₀ :=
  ⟨.refl target w₀, Nat.le_refl _⟩

theorem stable_intact {w₀ : World Name} : Stable target (Intact target w₀) := by
  refine ⟨fun w k hk h => ?_, fun w i h => ?_⟩
  · exact ⟨by rw [World.lookup_remove_ne (Ne.symm hk), h.lookup], h.data⟩
  · refine ⟨h.lookup, fun j n hj hn => ?_⟩
    obtain ⟨n', hn', hsame⟩ := h.data j n hj hn
    obtain ⟨n'', hn'', hsame'⟩ := World.same_touch hn'
    exact ⟨n'', hn'', hsame.trans hsame'⟩

theorem stable_untouched {w₀ : World Name} : Stable target (Untouched target w₀) := by
  refine ⟨fun w k hk h => ⟨?_, h.next⟩, fun w i h => ⟨?_, h.next⟩⟩
  · exact stable_intact.remove w k hk h.toIntact
  · exact stable_intact.touch w i h.toIntact

/-- A new entry with a new inode. -/
theorem Untouched.create {w₀ w : World Name} (h : Untouched target w₀ w) (hw₀ : w₀.Wf) {n : Inode}
    (hk : k ≠ target) : Untouched target w₀ (w.create k n) := by
  refine ⟨⟨by rw [World.lookup_create, if_neg (Ne.symm hk), h.lookup], fun i n' hi hn' => ?_⟩,
    Nat.le_succ_of_le h.next⟩
  · have hlt := (hw₀.entry _ _ hi).2
    have hne : i ≠ w.next := by
      have := h.next
      omega
    simp only [World.create, Function.update_of_ne hne]
    exact h.data i n' hi hn'

/-- A change of an inode that was not there at first. -/
theorem Untouched.modify {w₀ w : World Name} (h : Untouched target w₀ w) (hw₀ : w₀.Wf)
    {change : Inode → Inode} (hi : w₀.next ≤ i) : Untouched target w₀ (w.modify i change) := by
  refine ⟨⟨h.lookup, fun j n hj hn => ?_⟩, h.next⟩
  have hlt := (hw₀.entry _ _ hj).2
  have hne : j ≠ i := by omega
  simp only [World.modify, Function.update_of_ne hne]
  exact h.data j n hj hn

end

end Posix
