/-
# What the writers leave

A writer does not touch the target up to the rename, and the rename puts a complete file in its
place; afterwards it only closes what it has open.  So an exception leaves the target as it was,
unless a call fails after the rename: `Late` says that one did.

The directory is known only when the writer has walked to it.  Everything is stated for the entries
`target` and `temporary` of a world `w₀` in which the call begins.
-/
import Supplementary.Atomic.Replace

namespace Supplementary.Atomic.Replace

open Machine Posix

abbrev State := Run (World PyStr) (Call PyStr Unit) Flags

/-! ## 1. The worlds of a call -/

/-- A regular file with exactly these bytes. -/
def Complete (payload : List UInt8) (n : Inode) : Prop := n.kind = .regular ∧ n.bytes = payload

/-- Apart from the target, all that was there is there, with the same data, and there is nothing
else but the temporary file. -/
structure Kept (target temporary : Key PyStr) (w₀ w : World PyStr) : Prop where
  wf : w.Wf
  next : w₀.next ≤ w.next
  entries : ∀ k i, k ≠ target → w₀.lookup k = some i → w.lookup k = some i
  others : ∀ k, k ≠ target → k ≠ temporary → w.lookup k = w₀.lookup k
  inodes : ∀ i n, w₀.inode i = some n → ∃ n', w.inode i = some n' ∧ n.Same n'

/-- The target is there as well. -/
structure Unreplaced (target temporary : Key PyStr) (w₀ w : World PyStr) : Prop
    extends Kept target temporary w₀ w where
  target : w.lookup target = w₀.lookup target

/-- The temporary file is a new one. -/
structure Staged (target temporary : Key PyStr) (w₀ : World PyStr) (f : Nat) (good : Inode → Prop)
    (w : World PyStr) : Prop extends Unreplaced target temporary w₀ w where
  entry : w.lookup temporary = some f
  fresh : w₀.next ≤ f
  inode : ∃ n, w.inode f = some n ∧ good n

/-- The target is the complete new file. -/
structure Replaced (target temporary : Key PyStr) (payload : List UInt8) (w₀ w : World PyStr) : Prop
    extends Kept target temporary w₀ w where
  linked : Linked target (Complete payload) w
  changed : w.lookup target ≠ w₀.lookup target
  vacant : w.lookup temporary = none

/-- The target is what it was or the new file. -/
def Sound (target temporary : Key PyStr) (payload : List UInt8) (w₀ w : World PyStr) : Prop :=
  Unreplaced target temporary w₀ w ∨ Replaced target temporary payload w₀ w

theorem wf_modify {w : World PyStr} (h : w.Wf) {i : Nat} {change : Inode → Inode} :
    (w.modify i change).Wf := by
  refine ⟨h.entry, fun j hj => ?_⟩
  have hnone := h.inode j hj
  by_cases hij : j = i
  · simp [World.modify, hij, hij ▸ hnone]
  · simp [World.modify, hij, hnone]

section

variable {target temporary : Key PyStr} {w₀ w : World PyStr} {payload : List UInt8} {f : Nat}

theorem Kept.touch (h : Kept target temporary w₀ w) {i : Nat} :
    Kept target temporary w₀ (w.touch i) := by
  refine ⟨h.wf.touch, h.next, h.entries, h.others, fun j n hj => ?_⟩
  obtain ⟨n', hn', hsame⟩ := h.inodes j n hj
  obtain ⟨n'', hn'', hsame'⟩ := World.same_touch hn'
  exact ⟨n'', hn'', hsame.trans hsame'⟩

/-- A change of an inode that was not there at first. -/
theorem Kept.modify (h : Kept target temporary w₀ w) (hw₀ : w₀.Wf) (hf : w₀.next ≤ f)
    {change : Inode → Inode} : Kept target temporary w₀ (w.modify f change) := by
  refine ⟨wf_modify h.wf, h.next, h.entries, h.others, fun j n hj => ?_⟩
  have hne : j ≠ f := by
    rintro rfl
    rw [hw₀.inode j hf] at hj
    cases hj
  simp only [World.modify, Function.update_of_ne hne]
  exact h.inodes j n hj

/-- The temporary file is removed. -/
theorem Kept.remove (h : Kept target temporary w₀ w) (hfree : w₀.lookup temporary = none) :
    Kept target temporary w₀ (w.remove temporary) := by
  refine ⟨h.wf.remove, h.next, fun k i hk hi => ?_, fun k hk ht => ?_, h.inodes⟩
  · have hne : k ≠ temporary := by
      rintro rfl
      rw [hfree] at hi
      cases hi
    rw [World.lookup_remove_ne hne]
    exact h.entries k i hk hi
  · rw [World.lookup_remove_ne ht]
    exact h.others k hk ht

/-- The target gets another inode. -/
theorem Kept.insert (h : Kept target temporary w₀ w) (htarget : target.1 < w₀.next)
    (hf : f < w.next) : Kept target temporary w₀ (w.insert target f) := by
  have hlt : target.1 < w.next := Nat.lt_of_lt_of_le htarget h.next
  refine ⟨h.wf.insert hlt hf, h.next, fun k i hk hi => ?_, fun k hk ht => ?_, h.inodes⟩
  · rw [World.lookup_insert_ne hk]
    exact h.entries k i hk hi
  · rw [World.lookup_insert_ne hk]
    exact h.others k hk ht

theorem Unreplaced.refl (hw₀ : w₀.Wf) : Unreplaced target temporary w₀ w₀ :=
  ⟨⟨hw₀, Nat.le_refl _, fun _ _ _ h => h, fun _ _ _ => rfl, fun _ n h => ⟨n, h, .refl n⟩⟩, rfl⟩

theorem Unreplaced.touch (h : Unreplaced target temporary w₀ w) {i : Nat} :
    Unreplaced target temporary w₀ (w.touch i) := ⟨h.toKept.touch, h.target⟩

theorem Unreplaced.remove (h : Unreplaced target temporary w₀ w) (hne : temporary ≠ target)
    (hfree : w₀.lookup temporary = none) :
    Unreplaced target temporary w₀ (w.remove temporary) := by
  refine ⟨h.toKept.remove hfree, ?_⟩
  rw [World.lookup_remove_ne (Ne.symm hne)]
  exact h.target

theorem Unreplaced.intact (h : Unreplaced target temporary w₀ w) : Intact target w₀ w :=
  ⟨h.target, fun i n _ hn => h.inodes i n hn⟩

/-- What is not there now was not there at first. -/
theorem Unreplaced.free (h : Unreplaced target temporary w₀ w) (hne : temporary ≠ target)
    (hnone : w.lookup temporary = none) : w₀.lookup temporary = none := by
  cases hlookup : w₀.lookup temporary with
  | none => rfl
  | some i =>
    rw [h.entries temporary i hne hlookup] at hnone
    cases hnone

/-- The temporary file is made. -/
theorem Unreplaced.create (h : Unreplaced target temporary w₀ w) (hw₀ : w₀.Wf)
    (hne : temporary ≠ target) (htemporary : temporary.1 < w₀.next)
    (hnone : w.lookup temporary = none) {n : Inode} {good : Inode → Prop} (hn : good n) :
    Staged target temporary w₀ w.next good (w.create temporary n) := by
  have hfree := h.free hne hnone
  have hlt : temporary.1 < w.next := Nat.lt_of_lt_of_le htemporary h.next
  refine ⟨⟨⟨h.wf.create hlt, Nat.le_succ_of_le h.next, fun k i hk hi => ?_, fun k hk ht => ?_,
    fun i n' hi => ?_⟩, ?_⟩, ?_, h.next, n, ?_, hn⟩
  · have hk' : k ≠ temporary := by
      rintro rfl
      rw [hfree] at hi
      cases hi
    rw [World.lookup_create, if_neg hk']
    exact h.entries k i hk hi
  · rw [World.lookup_create, if_neg ht]
    exact h.others k hk ht
  · have hi' : i ≠ w.next := by
      rintro rfl
      rw [hw₀.inode _ h.next] at hi
      cases hi
    simp only [World.create, Function.update_of_ne hi']
    exact h.inodes i n' hi
  · rw [World.lookup_create, if_neg (Ne.symm hne)]
    exact h.target
  · rw [World.lookup_create, if_pos rfl]
  · simp [World.create]

theorem Staged.change {good good' : Inode → Prop} (h : Staged target temporary w₀ f good w)
    (hw₀ : w₀.Wf) {change : Inode → Inode} (hchange : ∀ n, good n → good' (change n)) :
    Staged target temporary w₀ f good' (w.modify f change) := by
  obtain ⟨n, hn, hgood⟩ := h.inode
  refine ⟨⟨h.toKept.modify hw₀ h.fresh, h.target⟩, h.entry, h.fresh, change n, ?_, hchange n hgood⟩
  simp [World.modify, hn]

/-- The inode of the temporary file is not the target's. -/
theorem Staged.ne {good : Inode → Prop} (h : Staged target temporary w₀ f good w) (hw₀ : w₀.Wf) :
    w₀.lookup target ≠ some f := by
  intro hlookup
  have hlt := (hw₀.entry _ _ hlookup).2
  have hfresh := h.fresh
  omega

/-- The rename. -/
theorem Staged.replace (h : Staged target temporary w₀ f (Complete payload) w) (hw₀ : w₀.Wf)
    (hne : temporary ≠ target) (hfree : w₀.lookup temporary = none)
    (htarget : target.1 < w₀.next) :
    Replaced target temporary payload w₀ (((w.remove temporary).insert target f).touch f) := by
  obtain ⟨n, hn, hgood⟩ := h.inode
  have hlt := (h.wf.entry _ _ h.entry).2
  have hkept := (h.toKept.remove hfree).insert htarget hlt
  refine ⟨hkept.touch, ⟨f, n.touched, ?_, ?_, hgood⟩, ?_, ?_⟩
  · rw [World.lookup_touch, World.lookup_insert_self]
  · simp [World.touch, World.insert, World.remove, hn]
  · rw [World.lookup_touch, World.lookup_insert_self]
    exact Ne.symm (h.ne hw₀)
  · rw [World.lookup_touch, World.lookup_insert_ne hne, World.lookup_remove_self]

end

/-! ## 2. Calls that fail too late -/

/-- A call of this kind failed when the target was replaced already. -/
def Late (C : Call PyStr Unit → Prop) (target : Key PyStr) (w₀ : World PyStr)
    (log : List (Step (World PyStr) (Call PyStr Unit))) : Prop :=
  ∃ e ∈ log, C e.call ∧ e.ok = false ∧ e.before.lookup target ≠ w₀.lookup target

/-- What is known of the worlds of a run: `T` of those before the rename, and `T'` of all. -/
structure Watch (C : Call PyStr Unit → Prop) (target temporary : Key PyStr) (payload : List UInt8)
    (w₀ : World PyStr) (T T' : World PyStr → Prop) : Prop where
  calm : ∀ w, Unreplaced target temporary w₀ w → T w
  mono : ∀ w, T w → T' w
  after : ∀ w, Replaced target temporary payload w₀ w → T' w
  early : ∀ log : List (Step (World PyStr) (Call PyStr Unit)),
    (∀ e ∈ log, T e.before ∧ T e.after) → ¬ Late C target w₀ log

/-- The target is not replaced yet. -/
abbrev Calm (target temporary : Key PyStr) (w₀ : World PyStr) (T : World PyStr → Prop)
    (V : Flags → Prop) : State → Prop := Through T (Unreplaced target temporary w₀) V

/-- The target is replaced, and whether a call failed too late. -/
structure After (C : Call PyStr Unit → Prop) (target temporary : Key PyStr) (payload : List UInt8)
    (w₀ : World PyStr) (T : World PyStr → Prop) (q : Prop) (s : State) : Prop where
  through : Through T (Replaced target temporary payload w₀) (fun v => v.replaced = true) s
  late : Late C target w₀ s.log ↔ q

section

variable {C : Call PyStr Unit → Prop} {target temporary : Key PyStr} {payload : List UInt8}
  {w₀ w : World PyStr} {T T' : World PyStr → Prop} {q q' : Prop} {s : State}

/-- The worlds of a call that begins the run. -/
theorem watch_sound : Watch C target temporary payload w₀ (Unreplaced target temporary w₀)
    (Sound target temporary payload w₀) := by
  refine ⟨fun _ h => h, fun _ => Or.inl, fun _ => Or.inr, fun log hpast => ?_⟩
  rintro ⟨e, he, -, -, hne⟩
  exact hne (hpast e he).1.target

/-- Nothing but the last world. -/
theorem watch_last : Watch (fun _ => False) target temporary payload w₀ (fun _ => True)
    fun _ => True := by
  refine ⟨fun _ _ => trivial, fun _ _ => trivial, fun _ _ => trivial, fun log _ => ?_⟩
  rintro ⟨e, -, hC, -⟩
  exact hC

theorem late_cons {e : Step (World PyStr) (Call PyStr Unit)} {log} :
    Late C target w₀ (e :: log) ↔
      (C e.call ∧ e.ok = false ∧ e.before.lookup target ≠ w₀.lookup target) ∨
        Late C target w₀ log := by
  simp only [Late, List.mem_cons, or_and_right, exists_or, exists_eq_left]

theorem After.iff (h : After C target temporary payload w₀ T' q s) (hq : q ↔ q') :
    After C target temporary payload w₀ T' q' s := ⟨h.through, h.late.trans hq⟩

/-- A call that leaves the world alone. -/
theorem After.call (h : After C target temporary payload w₀ T' q s)
    (hwatch : Watch C target temporary payload w₀ T T') {call : Call PyStr Unit} {ok : Bool} :
    After C target temporary payload w₀ T' ((C call ∧ ok = false) ∨ q)
      { s with log := ⟨call, s.world, s.world, ok⟩ :: s.log } := by
  have hnow := hwatch.after _ h.through.now
  refine ⟨⟨h.through.now, h.through.vars, List.forall_mem_cons.mpr ⟨⟨hnow, hnow⟩,
    h.through.past⟩⟩, ?_⟩
  rw [late_cons, h.late]
  have hchanged := h.through.now.changed
  refine or_congr_left ⟨fun hcall => ⟨hcall.1, hcall.2.1⟩, fun hcall => ⟨hcall.1, hcall.2, hchanged⟩⟩

end

section

variable {env : Env (World PyStr) Fault} {α β : Type} {P Q E F : State → Prop}

theorem sys_triple {x : Posix.Sys PyStr Unit Flags α} {Q : α → State → Prop}
    (h : Triple env P x Q fun _ => E) : Triple env P (sys x) Q fun _ => E := Triple.mapError h

theorem sys_preserves {x : Posix.Sys PyStr Unit Flags α} (h : Preserves env P x) :
    Preserves env P (sys x) := sys_triple h

/-- Either of two preconditions. -/
theorem triple_or {x : Sys α} {Q : α → State → Prop} (hP : Triple env P x Q fun _ => E)
    (hF : Triple env F x Q fun _ => E) : Triple env (fun s => P s ∨ F s) x Q fun _ => E := by
  intro s hs
  rcases hs with hs | hs
  · exact hP s hs
  · exact hF s hs

theorem require_preserves {holds : Bool} {message : String} :
    Preserves env P (require holds message) :=
  Preserves.ite (fun _ => preserves_pure) fun _ => preserves_raise

/-- What a caught exception leaves is what an exception left. -/
def Handed {ε : Type} (Q : α → State → Prop) (E : State → Prop) : Except ε α → State → Prop
  | .ok a, s => Q a s
  | .error _, s => E s

/-- `try: x except OSError`. -/
theorem attempt_triple {x : Sys α} {Q : α → State → Prop} (h : Triple env P x Q fun _ => E) :
    Triple env P (attempt x) (Handed Q E) fun _ => E := by
  refine Triple.attempt (h.weaken (fun _ hs => hs) (fun _ _ ha => ha) fun e s he => ?_)
  cases e with
  | os errno => exact he
  | _ => exact he

/-- `try: x except BaseException`. -/
theorem attemptAny_triple {x : Sys α} {Q : α → State → Prop} (h : Triple env P x Q fun _ => E) :
    Triple env P (attemptAny x) (Handed Q E) fun _ => F :=
  Triple.attempt (h.weaken (fun _ hs => hs) (fun _ _ ha => ha) fun _ _ he => he)

/-- `try: x finally: last`, where `last` only says whether it was clean. -/
theorem closing_triple {x : Sys Unit} {last : Sys Bool} {message : String}
    (hx : Triple env P x (fun _ => Q) fun _ => E)
    {R : State → Prop} (hok : Triple env Q last (fun b s => if b = true then R s else F s) fun _ => F)
    (herror : Triple env E last (fun _ => F) fun _ => F) :
    Triple env P (closing x last message) (fun _ => R) fun _ => F := by
  refine Triple.bind (attemptAny_triple hx) fun r => ?_
  cases r with
  | error e => exact Triple.bind herror fun _ => triple_raise fun _ h => h
  | ok u =>
    refine Triple.bind hok fun clean => ?_
    cases clean with
    | true => exact triple_pure fun _ h => h
    | false => exact triple_raise fun _ h => h

theorem closing_preserves {x : Sys Unit} {last : Sys Bool} {message : String}
    (hx : Preserves env P x) (hlast : Preserves env P last) :
    Preserves env P (closing x last message) := by
  refine closing_triple hx (hlast.post fun b s h => ?_) hlast
  split
  · exact h
  · exact h

/-! ## 3. Calls before the rename -/

variable (hP : Idle env (fun _ => True) P)

include hP

theorem close_idle {i : Nat} : Preserves env P (sys (close i)) :=
  sys_preserves (done_idle hP (by trivial))

theorem closeDescriptorAfterError_idle {i : Nat} :
    Preserves env P (closeDescriptorAfterError i) := by
  refine (close_idle hP).attempt.bind fun r => ?_
  cases r with
  | ok u => exact preserves_pure
  | error e => exact preserves_pure

theorem failAfterDescriptorCleanup_idle {message : String} {i : Nat} {Q : α → State → Prop} :
    Triple env P (failAfterDescriptorCleanup message i) Q fun _ => P :=
  Triple.bind (closeDescriptorAfterError_idle hP) fun _ => triple_raise fun _ h => h

theorem fstatLinks_idle {i : Nat} : Preserves env P (fstatLinks i) := by
  refine sys_preserves (looking_idle hP trivial fun w a w' hact => ?_)
  cases hinode : w.inode i with
  | none => simp [hinode] at hact
  | some n =>
    simp only [hinode, Except.ok.injEq, Prod.mk.injEq] at hact
    exact hact.2.symm

/-! ### The walk to the parent directory -/

omit hP in
/-- The components that are opened. -/
def steps (components : List PyStr) : List PyStr := components.filter fun c => c ≠ "" ∧ c ≠ "."

variable {L : Key PyStr → Nat → Prop} (hL : ∀ s k i, P s → s.world.lookup k = some i → L k i)

include hL

theorem openNext_triple {name : String} {directory : Nat} {component : PyStr} :
    Triple env P (openNext name directory component)
      (fun i s => (∀ rest d, Path.Leads L i (steps rest) d →
        Path.Leads L directory (steps (component :: rest)) d) ∧ P s) fun _ => P := by
  unfold openNext
  split
  · next hskip =>
    refine triple_pure fun _ h => ⟨fun rest d hd => ?_, h⟩
    have hsteps : steps (component :: rest) = steps rest := by
      rcases hskip with rfl | rfl <;> rfl
    rw [hsteps]
    exact hd
  · next hskip =>
    split
    · exact failAfterDescriptorCleanup_idle hP
    · refine Triple.bind (attempt_triple (sys_triple (openDirectory_idle hP trivial))) fun r => ?_
      cases r with
      | error e => exact failAfterDescriptorCleanup_idle hP
      | ok following =>
        intro s hs
        have hentry := hL _ _ _ hs.2 hs.1
        have hleads : ∀ rest d, Path.Leads L following (steps rest) d →
            Path.Leads L directory (steps (component :: rest)) d := by
          intro rest d hd
          have hsteps : steps (component :: rest) = component :: steps rest :=
            List.filter_cons_of_pos (by simpa using hskip)
          rw [hsteps]
          exact ⟨following, hentry, hd⟩
        refine Triple.bind (closeDescriptorAfterError_idle hP) (fun closed => ?_) s hs.2
        cases closed with
        | true => exact triple_pure fun _ h => ⟨hleads, h⟩
        | false => exact failAfterDescriptorCleanup_idle hP

/-- The walk ends where the components lead. -/
theorem walk_triple {name : String} (components : List PyStr) : ∀ directory,
    Triple env P (walk name directory components)
      (fun d s => Path.Leads L directory (steps components) d ∧ P s) fun _ => P := by
  induction components with
  | nil =>
    intro directory
    exact triple_pure fun _ h => ⟨rfl, h⟩
  | cons component rest ih =>
    intro directory
    refine Triple.bind (openNext_triple hP hL) fun following => triple_of_prop fun hnext => ?_
    exact (ih following).post fun d s h => ⟨hnext rest d h.1, h.2⟩

omit hL in
theorem checkParent_idle {p : Params} {directory : Nat} :
    Preserves env P (checkParent p directory) := by
  refine (sys_preserves (fstat_idle hP trivial)).attempt.bind fun r => ?_
  cases r with
  | error e => exact failAfterDescriptorCleanup_idle hP
  | ok details =>
    refine Preserves.ite (fun _ => failAfterDescriptorCleanup_idle hP) fun _ => ?_
    refine Preserves.ite (fun _ => failAfterDescriptorCleanup_idle hP) fun _ => ?_
    exact Preserves.ite (fun _ => failAfterDescriptorCleanup_idle hP) fun _ => preserves_pure

theorem openOwnedParentDirectory_triple {p : Params} {requirement : String} :
    Triple env P (openOwnedParentDirectory p requirement)
      (fun d s => (∃ first, L p.start first ∧ Path.Leads L first (steps p.components) d) ∧ P s)
      fun _ => P := by
  refine Triple.bind require_preserves fun _ => Triple.bind require_preserves fun _ => ?_
  refine Triple.bind (attempt_triple (sys_triple (openDirectory_idle hP trivial))) fun r => ?_
  cases r with
  | error e => exact triple_raise fun _ h => h
  | ok first =>
    intro s hs
    have hentry := hL _ _ _ hs.2 hs.1
    refine Triple.bind (walk_triple hP hL p.components first) (fun d => ?_) s hs.2
    refine triple_of_prop fun hd => Triple.bind (checkParent_idle hP) fun _ => ?_
    exact triple_pure fun _ h => ⟨⟨first, hentry, hd⟩, h⟩

end

/-! ## 4. The new file -/

section

variable {env : Env (World PyStr) Fault} {C : Call PyStr Unit → Prop} {target temporary : Key PyStr}
  {payload : List UInt8} {w₀ : World PyStr} {T T' : World PyStr → Prop} {V : Flags → Prop} {f : Nat}
  {α : Type} (hquiet : Quiet env) (hwatch : Watch C target temporary payload w₀ T T')

include hquiet hwatch

theorem calm_idle : Idle env (fun _ => True) (Calm target temporary w₀ T V) :=
  through_idle hquiet hwatch.calm

theorem staged_idle {good : Inode → Prop} :
    Idle env (fun _ => True) (Through T (Staged target temporary w₀ f good) V : State → Prop) :=
  through_idle hquiet fun w h => hwatch.calm w h.toUnreplaced

omit hquiet hwatch in
theorem calm_of_staged {good : Inode → Prop} {s : State}
    (h : Through T (Staged target temporary w₀ f good) V s) : Calm target temporary w₀ T V s :=
  h.mono fun _ hw => hw.toUnreplaced

omit hquiet hwatch in
/-- What keeps the staged file, and leaves no more than the target as it was if it raises. -/
theorem staged_triple {good : Inode → Prop} {x : Sys α}
    (h : Preserves env (Through T (Staged target temporary w₀ f good) V) x) :
    Triple env (Through T (Staged target temporary w₀ f good) V) x
      (fun _ => Through T (Staged target temporary w₀ f good) V)
      fun _ => Calm target temporary w₀ T V :=
  h.weaken (fun _ h => h) (fun _ _ h => h) fun _ _ => calm_of_staged

variable (hw₀ : w₀.Wf)

include hw₀

/-- The temporary file is made where nothing is. -/
theorem createFile_triple (hne : temporary ≠ target) (htemporary : temporary.1 < w₀.next)
    {mode uid gid : Nat} :
    Triple env (Calm target temporary w₀ T V) (sys (createFile temporary mode uid gid))
      (fun f s => w₀.lookup temporary = none ∧
        Through T (Staged target temporary w₀ f (Complete [])) V s)
      fun _ => Calm target temporary w₀ T V := by
  refine sys_triple ((syscall_through hquiet (J := fun f w => w₀.lookup temporary = none ∧
    Staged target temporary w₀ f (Complete []) w) hwatch.calm
    (fun _ w h => hwatch.calm w h.2.toUnreplaced) fun w f w' hw hact => ?_).post
    fun _ _ h => through_pull h)
  split at hact
  · cases hact
  · next hnone =>
    cases hact
    have hnone' : w.lookup temporary = none := by simpa using hnone
    exact ⟨hw.free hne hnone', hw.create hw₀ hne htemporary hnone' ⟨rfl, rfl⟩⟩

/-- A change of the metadata of the temporary file. -/
theorem fchmod_triple {mode : Nat} :
    Triple env (Through T (Staged target temporary w₀ f (Complete [])) V) (sys (fchmod f mode))
      (fun _ => Through T (Staged target temporary w₀ f (Complete [])) V)
      fun _ => Calm target temporary w₀ T V := by
  refine staged_triple (sys_preserves (syscall_through hquiet
    (fun w h => hwatch.calm w h.toUnreplaced) (fun _ w h => hwatch.calm w h.toUnreplaced)
    fun w a w' hw hact => ?_))
  cases hact
  exact hw.change hw₀ fun n hn => hn

/-- One write, maybe of a part only. -/
theorem write_triple {written data : List UInt8} :
    Triple env (Through T (Staged target temporary w₀ f (Complete written)) V) (sys (write f data))
      (fun a => Through T (Staged target temporary w₀ f (Complete (written ++ data.take a))) V)
      fun _ => Calm target temporary w₀ T V := by
  refine sys_triple ((perform_through hquiet (J := fun a => Staged target temporary w₀ f
    (Complete (written ++ data.take a))) ?_ ?_ ?_ ?_).weaken (fun _ h => h)
    (fun _ _ h => h) fun _ _ => calm_of_staged)
  · exact fun w h => hwatch.calm w h.toUnreplaced
  · exact fun a w h => hwatch.calm w h.toUnreplaced
  · intro fault w a w' hw hact
    cases fault with
    | none =>
      cases hact
      exact hw.change hw₀ fun n hn => ⟨hn.1, by simp [hn.2]⟩
    | some fault =>
      cases fault with
      | fail e => cases hact
      | short n =>
        cases hact
        exact hw.change hw₀ fun m hm => ⟨hm.1, by simp [hm.2]⟩
  · intro fault w e w' hw hact
    cases fault with
    | none => cases hact
    | some fault =>
      cases fault with
      | fail e =>
        cases hact
        rfl
      | short n => cases hact

/-- The loop writes everything. -/
theorem writeAll_triple {e : Failure} (view : List UInt8) : ∀ written,
    Triple env (Through T (Staged target temporary w₀ f (Complete written)) V) (writeAll e f view)
      (fun _ => Through T (Staged target temporary w₀ f (Complete (written ++ view))) V)
      fun _ => Calm target temporary w₀ T V := by
  induction view using writeAll.induct with
  | case1 =>
    intro written
    unfold writeAll
    exact triple_pure fun _ h => by simpa using h
  | case2 byte rest ih =>
    intro written
    unfold writeAll
    refine Triple.bind (write_triple hquiet hwatch hw₀) fun a => ?_
    by_cases hzero : a = 0
    · rw [dif_pos hzero]
      exact triple_raise fun _ => calm_of_staged
    · rw [dif_neg hzero]
      refine (ih a hzero (written ++ (byte :: rest).take a)).post fun _ s h => ?_
      rw [List.append_assoc, List.take_append_drop] at h
      exact h

/-- The rename, which nothing failed before. -/
theorem rename_triple (hne : temporary ≠ target) (hfree : w₀.lookup temporary = none)
    (htarget : target.1 < w₀.next) :
    Triple env (Through T (Staged target temporary w₀ f (Complete payload)) V)
      (sys (rename temporary target))
      (fun _ s => Through T' (Replaced target temporary payload w₀) V s ∧ ¬ Late C target w₀ s.log)
      fun _ => Calm target temporary w₀ T V := by
  refine sys_triple (triple_syscall (R := fun w w' => w' = w) hquiet
    (fun s before a w hs hR hact => ?_) fun s before e hs hR => ?_)
  · rw [hR] at hact ⊢
    have hstaged := hs.now
    have hnow := hwatch.calm _ hstaged.toUnreplaced
    have hpast : ∀ e ∈ s.log, T' e.before ∧ T' e.after := fun e he =>
      ⟨hwatch.mono _ (hs.past e he).1, hwatch.mono _ (hs.past e he).2⟩
    have hearly : ¬ Late C target w₀ (⟨.rename temporary target, s.world, w, true⟩ :: s.log) := by
      rw [late_cons]
      rintro (⟨-, hok, -⟩ | hlate)
      · cases hok
      · exact hwatch.early s.log hs.past hlate
    cases hfind : s.world.find temporary with
    | error e => simp [hfind, Except.bind] at hact
    | ok st =>
      obtain ⟨hlookup, -⟩ := World.find_eq_ok hfind
      have hino : st.ino = f := Option.some.inj (hlookup.symm.trans hstaged.entry)
      have hother : s.world.lookup target ≠ some st.ino := by
        rw [hstaged.target, hino]
        exact hstaged.ne hw₀
      simp only [hfind, Except.bind] at hact
      split at hact
      · cases hact
      · rw [if_neg hother] at hact
        cases hact
        have hreplaced := hstaged.replace hw₀ hne hfree htarget
        rw [hino]
        rw [hino] at hearly
        exact ⟨⟨hreplaced, hs.vars, List.forall_mem_cons.mpr
          ⟨⟨hwatch.mono _ hnow, hwatch.after _ hreplaced⟩, hpast⟩⟩, hearly⟩
  · rw [hR]
    have hnow := hwatch.calm _ hs.now.toUnreplaced
    exact ⟨hs.now.toUnreplaced, hs.vars, List.forall_mem_cons.mpr ⟨⟨hnow, hnow⟩, hs.past⟩⟩

end

end Supplementary.Atomic.Replace
