/-
# What the steps of a path transaction leave

Nobody interferes here, and every system call may fail.  The steps that look leave any world as it
is; those that remove something private keep any predicate that is stable at the target.
-/
import Supplementary.Atomic.PathModule
import Supplementary.Lib.Instants

namespace Supplementary.Atomic.Path

open Machine Posix

abbrev State := Run (World PyStr) (Call PyStr Outcome) Flags

/-- Not a report of success. -/
def Unsuccessful : Call PyStr Outcome → Prop
  | .print o => o.failed = true
  | _ => True

section

variable {env : Env (World PyStr) Fault} {P : State → Prop} {p : Params} {α : Type}

/-! ## 1. Steps that look -/

theorem sys_triple {x : Posix.Sys PyStr Outcome Flags α} {Q : α → State → Prop}
    {E : State → Prop} (h : Triple env P x Q fun _ => E) : Triple env P (sys x) Q fun _ => E :=
  Triple.mapError h

theorem sys_preserves {x : Posix.Sys PyStr Outcome Flags α} (h : Preserves env P x) :
    Preserves env P (sys x) := sys_triple h

/-- `try: x except …`: what was handed over leaves what an exception left. -/
theorem attempt_triple {E : State → Prop} {x : Sys α} {Q : α → State → Prop}
    {ε : Type} {caught : Failure → Option ε} (h : Triple env P x Q fun _ => E) :
    Triple env P (Program.attempt caught x)
      (fun r s => match r with
        | .ok a => Q a s
        | .error _ => E s) fun _ => E := by
  refine Triple.attempt (h.weaken (fun _ hs => hs) (fun _ _ ha => ha) fun e s he => ?_)
  cases caught e with
  | some e' => exact he
  | none => exact he

theorem demand_preserves {holds : Bool} : Preserves env P (demand holds) :=
  Preserves.ite (fun _ => preserves_pure) fun _ => preserves_raise

/-- What only raises returns nowhere. -/
theorem raising {E : State → Prop} {x : Sys α} {Q : α → State → Prop}
    (h : Triple env P x (fun _ _ => False) fun _ => E) : Triple env P x Q fun _ => E :=
  h.post fun _ _ => False.elim

theorem exitJson_raises (hP : Idle env (fun _ => True) P) {changed : Bool}
    {checksum : Option PyStr} :
    Triple env P (exitJson (α := α) p changed checksum) (fun _ _ => False) fun _ => P :=
  Triple.bind (sys_preserves (print_idle hP trivial)) fun _ => triple_raise fun _ h => h

variable (hP : Idle env Unsuccessful P)

include hP

theorem failJson_raises {msg : String} {recoveryPath : Option PyStr} :
    Triple env P (failJson (α := α) p msg recoveryPath) (fun _ _ => False) fun _ => P :=
  Triple.bind (sys_preserves (print_idle hP rfl)) fun _ => triple_raise fun _ h => h

theorem require_idle {holds : Bool} {msg : String} : Preserves env P (require p holds msg) :=
  Preserves.ite (fun _ => preserves_pure) fun _ => raising (failJson_raises hP)

theorem close_idle {i : Nat} : Preserves env P (sys (close i)) :=
  sys_preserves (done_idle hP (by trivial))

theorem fsync_idle {i : Nat} : Preserves env P (sys (fsync i)) :=
  sys_preserves (done_idle hP (by trivial))

theorem look_idle {i : Nat} : Preserves env P (sys (fstat i)) :=
  sys_preserves (fstat_idle hP trivial)

theorem stat_triple {k : Key PyStr} :
    Triple env P (sys (stat k)) (fun st s => s.world.find k = .ok st ∧ P s) fun _ => P :=
  sys_triple (stat_idle hP trivial)

theorem stat_preserves {k : Key PyStr} : Preserves env P (sys (stat k)) :=
  (stat_triple hP).post fun _ _ h => h.2

theorem checksum_idle {i : Nat} : Preserves env P (checksum i) :=
  sys_preserves ((done_idle hP (by trivial)).bind fun _ =>
    (readAll_idle hP trivial).bind fun _ => preserves_pure)

theorem existing_idle {k : Key PyStr} : Preserves env P (existing k) := by
  refine (stat_preserves hP).attempt.bind fun r => ?_
  cases r with
  | ok st => exact preserves_pure
  | error e =>
    cases e with
    | os errno =>
      by_cases hnoent : errno = .noent
      · rw [hnoent]
        exact preserves_pure
      · cases errno <;> first | exact absurd rfl hnoent | exact preserves_raise
    | _ => exact preserves_raise

theorem openForReading_idle {k : Key PyStr} : Preserves env P (openForReading p k) :=
  sys_preserves (openReadable_idle hP trivial)

/-- A look through an open descriptor, which is closed at the end. -/
theorem closing_at_end {x : Sys α} {i : Nat} (hx : Preserves env P x) :
    Preserves env P (Program.ensuring x (sys (close i))) := hx.ensuring (close_idle hP)

theorem verifiedFile_idle {k : Key PyStr} {expected : Stat} {text : PyStr} :
    Preserves env P (verifiedFile p k expected text) := by
  refine (openForReading_idle hP).attempt.bind fun r => ?_
  cases r with
  | error e => exact preserves_pure
  | ok descriptor =>
    refine closing_at_end hP ((look_idle hP).bind fun opened => ?_)
    refine Preserves.ite (fun _ => ?_) fun _ => preserves_pure
    refine (checksum_idle hP).bind fun found => ?_
    refine Preserves.ite (fun _ => ?_) fun _ => preserves_pure
    exact (look_idle hP).bind fun _ => preserves_pure

theorem verifiedDescriptor_idle {i : Nat} {expected : Stat} {text : PyStr} :
    Preserves env P (verifiedDescriptor i expected text) := by
  refine (look_idle hP).bind fun opened => ?_
  refine Preserves.ite (fun _ => ?_) fun _ => preserves_pure
  refine (checksum_idle hP).bind fun found => ?_
  refine Preserves.ite (fun _ => ?_) fun _ => preserves_pure
  exact (look_idle hP).bind fun _ => preserves_pure

theorem fsyncDirectory_idle {i : Nat} : Preserves env P (fsyncDirectory i) := by
  refine (fsync_idle hP).attempt.bind fun r => ?_
  cases r with
  | ok u => exact preserves_pure
  | error e =>
    cases e with
    | os errno => cases errno <;> first | exact preserves_pure | exact preserves_raise
    | _ => exact preserves_raise

theorem requireExclusiveParent_idle {parent : Nat} :
    Preserves env P (requireExclusiveParent p parent) :=
  (look_idle hP).bind fun _ => demand_preserves.bind fun _ => sys_preserves (done_idle hP (by trivial))

/-! ## 2. The walk -/

omit hP in
/-- What the entries on the way lead to. -/
def Leads (L : Key PyStr → Nat → Prop) : Nat → List PyStr → Nat → Prop
  | current, [], d => d = current
  | current, name :: rest, d => ∃ following, L (current, name) following ∧ Leads L following rest d

theorem closing_triple {x : Sys α} {i : Nat} {Q : α → State → Prop}
    (hx : Triple env P x Q fun _ => P) : Triple env P (closing i x) Q fun _ => P := by
  refine Triple.bind (attempt_triple hx) fun r => ?_
  cases r with
  | ok a => exact triple_pure fun _ h => h
  | error e =>
    have hclose : Preserves env P (attempt (sys (close i))) := (close_idle hP).attempt
    exact Triple.bind hclose fun _ => triple_raise fun _ h => h

theorem closePrevious_idle {i j : Nat} : Preserves env P (closePrevious i j) := by
  refine (close_idle hP).attempt.bind fun r => ?_
  cases r with
  | ok u => exact preserves_pure
  | error e => exact (close_idle hP).attempt.bind fun _ => preserves_raise

theorem checkKnown_idle {depth i : Nat} : Preserves env P (checkKnown p depth i) := by
  unfold checkKnown checkIdentity
  split
  · exact preserves_pure
  · split
    · exact preserves_raise
    · exact (look_idle hP).bind fun _ => demand_preserves

/-- The walk reaches what the entries lead to, if `L` holds of the entries on the way. -/
theorem walk_triple {L : Key PyStr → Nat → Prop}
    (hL : ∀ s k i, P s → s.world.lookup k = some i → L k i) (components : List PyStr) :
    ∀ depth current, Triple env P (walk p depth current components)
      (fun d s => Leads L current components d ∧ P s) fun _ => P := by
  induction components with
  | nil =>
    intro depth current
    unfold walk
    refine closing_triple hP ?_
    split
    · exact triple_pure fun _ h => ⟨rfl, h⟩
    · exact triple_raise fun _ h => h
  | cons name rest ih =>
    intro depth current
    refine Triple.bind (closing_triple hP (sys_triple (openDirectory_idle hP trivial)))
      fun following => ?_
    intro s hs
    have hentry := hL _ _ _ hs.2 hs.1
    refine Triple.bind (closePrevious_idle hP) (fun _ => ?_) s hs.2
    refine Triple.bind (closing_triple hP (checkKnown_idle hP)) fun _ => ?_
    exact (ih (depth + 1) following).post fun d s h => ⟨⟨following, hentry, h.1⟩, h.2⟩

/-- The directory that the root and the components lead to. -/
theorem openBoundDirectory_triple {L : Key PyStr → Nat → Prop}
    (hL : ∀ s k i, P s → s.world.lookup k = some i → L k i) :
    Triple env P (openBoundDirectory p)
      (fun d s => Leads L p.root ("/" :: p.components) d ∧ P s) fun _ => P := by
  refine Triple.bind (sys_triple (openDirectory_idle hP trivial)) fun current => ?_
  intro s hs
  have hentry := hL _ _ _ hs.2 hs.1
  have hcheck : Preserves env P
      (if p.components = [] ∧ (p.identities 0).isNone then raiseOs else checkKnown p 0 current) :=
    Preserves.ite (fun _ => preserves_raise) fun _ => checkKnown_idle hP
  refine Triple.bind (closing_triple hP hcheck) (fun _ => ?_) s hs.2
  exact (walk_triple hP hL p.components 0 current).post fun d s h =>
    ⟨⟨current, hentry, h.1⟩, h.2⟩

theorem openBoundDirectory_idle : Preserves env P (openBoundDirectory p) :=
  (@openBoundDirectory_triple _ _ p hP (fun _ _ => True) fun _ _ _ _ _ => trivial).post
    fun _ _ h => h.2

theorem seenThrough_idle {original : Stat} {name : PyStr} :
    Preserves env P (seenThrough p original name) :=
  (openBoundDirectory_idle hP).bind fun _ => closing_at_end hP
    ((look_idle hP).bind fun _ => demand_preserves.bind fun _ => existing_idle hP)

theorem revalidatedEntry_idle {target : Key PyStr} :
    Preserves env P (revalidatedEntry p target) := by
  refine (look_idle hP).bind fun original => ?_
  refine (seenThrough_idle hP).bind fun observed => ?_
  refine (openBoundDirectory_idle hP).bind fun directory => ?_
  refine closing_at_end hP ((look_idle hP).bind fun found => ?_)
  refine demand_preserves.bind fun _ => (existing_idle hP).bind fun confirmed => ?_
  exact demand_preserves.bind fun _ => preserves_pure

end

/-! ## 3. Steps that remove something private -/

section

variable {env : Env (World PyStr) Fault} {T I : World PyStr → Prop} {V : Flags → Prop}
  {p : Params} {α : Type} (hquiet : Quiet env) (hI : ∀ w, I w → T w) {target : Key PyStr}
  (hstable : Stable target I)

include hquiet hI hstable

theorem removePrivateIfSame_through {k : Key PyStr} (hk : k ≠ target) {expected : Stat}
    {directory : Bool} : Preserves env (Through T I V) (removePrivateIfSame k expected directory) := by
  have hremove : Preserves env (Through T I V) (removeEntry k directory) := by
    refine Preserves.bind (sys_preserves ?_).attempt fun r => ?_
    · exact Preserves.ite (fun _ => rmdir_through hquiet hI hstable hk)
        fun _ => unlink_through hquiet hI hstable hk
    · cases r <;> exact preserves_pure
  refine (stat_preserves (through_idle hquiet hI)).attempt.bind fun r => ?_
  cases r with
  | ok current =>
    have hbranch : ∀ b : Bool, Preserves env (Through T I V)
        (if b then removeEntry k directory else pure false) := fun b =>
      Preserves.ite (fun _ => hremove) fun _ => preserves_pure
    exact hbranch _
  | error e =>
    cases e with
    | os errno => cases errno <;> exact preserves_pure
    | _ => exact preserves_pure

theorem abandon_raises {k : Key PyStr} (hk : k ≠ target) {expected : Stat} {e : Failure} :
    Triple env (Through T I V) (abandon (α := α) p k expected e) (fun _ _ => False)
      fun _ => Through T I V := by
  refine Triple.bind (removePrivateIfSame_through hquiet hI hstable hk) fun removed => ?_
  cases removed <;> exact triple_raise fun _ h => h

theorem closeAndAbandon_raises {k : Key PyStr} (hk : k ≠ target) {i : Nat} {expected : Stat}
    {e : Failure} : Triple env (Through T I V) (closeAndAbandon (α := α) p k i expected e)
      (fun _ _ => False) fun _ => Through T I V := by
  have hclose : Preserves env (Through T I V) (attempt (sys (close i))) :=
    (close_idle (through_idle hquiet hI)).attempt
  refine Triple.bind hclose fun r => ?_
  cases r with
  | ok u => exact abandon_raises hquiet hI hstable hk
  | error e => exact triple_raise fun _ h => h

/-- The workspace that is returned is the one that was opened. -/
theorem checkWorkspace_triple {k : Key PyStr} (hk : k ≠ target) {i : Nat} {expected : Stat} :
    Triple env (Through T I V) (checkWorkspace p k i expected)
      (fun r s => (r.1 = i ∧ r.2.1 = k.2) ∧ Through T I V s) fun _ => Through T I V := by
  have hlook : Preserves env (Through T I V) (attempt (sys (fstat i))) :=
    (look_idle (through_idle hquiet hI)).attempt
  refine Triple.bind hlook fun r => ?_
  cases r with
  | error e => exact raising (closeAndAbandon_raises hquiet hI hstable hk)
  | ok opened =>
    change Triple _ _ (if _ then _ else if _ then _ else _) _ _
    split
    · exact raising (closeAndAbandon_raises hquiet hI hstable hk)
    · split
      · exact raising (closeAndAbandon_raises hquiet hI hstable hk)
      · exact triple_pure fun _ h => ⟨⟨rfl, rfl⟩, h⟩

/-- What the name of the workspace leads to is what is opened. -/
theorem openWorkspace_triple {k : Key PyStr} (hk : k ≠ target) {L : Nat → Prop}
    (hL : ∀ w i, I w → w.lookup k = some i → L i) :
    Triple env (Through T I V) (openWorkspace p k)
      (fun r s => (L r.1 ∧ r.2.1 = k.2) ∧ Through T I V s) fun _ => Through T I V := by
  have hP : Idle env Unsuccessful (Through T I V) := through_idle hquiet hI
  refine Triple.bind (stat_preserves hP).attempt fun r => ?_
  cases r with
  | error e => exact triple_raise fun _ h => h
  | ok expected =>
    refine Triple.bind (attempt_triple (sys_triple (openDirectory_idle hP trivial))) fun r => ?_
    cases r with
    | error e => exact raising (abandon_raises hquiet hI hstable hk)
    | ok descriptor =>
      intro s hs
      have hentry := hL _ _ hs.2.now hs.1
      exact (checkWorkspace_triple hquiet hI hstable hk).post
        (fun r s h => ⟨⟨h.1.1 ▸ hentry, h.1.2⟩, h.2⟩) s hs.2

end

end Supplementary.Atomic.Path
