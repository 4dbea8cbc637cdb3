/-
# The writers are failure-atomic

`write_owned_regular_file` and `write_evidence_text` leave the target as it was or put the complete
new file in its place, whatever calls fail.  They raise as if nothing had been written where a call
fails after the rename: the first of them if it is a `close`, the second whatever it is.  The first
also removes the entry with its temporary name if it is not its own.

`write_materialized_workspace` leaves both files, or nothing of what it made.
-/
import Supplementary.Atomic.Writers

namespace Supplementary.Atomic.Replace

open Machine Posix

/-! ## 1. `write_materialized_workspace` -/

/-- A walk that follows no link ends where the path leads, as long as what was there is there. -/
def Resolves (p : Workspace) (w₀ : World PyStr) : Prop :=
  ∀ w : World PyStr, (∀ k i, w₀.lookup k = some i → w.lookup k = some i) →
    ∀ d, IsParent p.start p.components w d → d = p.output.1

/-- Both files are complete. -/
def Published (p : Workspace) (w : World PyStr) : Prop :=
  ∃ d payload, p.metadata = some payload ∧ w.lookup p.output = some d ∧
    Linked (p.patch.target d) (Complete p.diff) w ∧
      Linked ((p.review payload).target d) (Complete payload) w

/-- The removal of the output directory failed. -/
def CleanupFailed (p : Workspace) (s : State) : Prop :=
  ∃ e ∈ s.log, e.call = .rmdir p.output ∧ e.ok = false

/-- What is left of the output directory if a call raises. -/
def Withdrawn (p : Workspace) (w₀ : World PyStr) (s : State) : Prop :=
  s.world.lookup p.output = w₀.lookup p.output ∨ CleanupFailed p s

theorem leads_append {L : Key PyStr → Nat → Prop} {name : PyStr} {names : List PyStr} :
    ∀ {current d : Nat}, Path.Leads L current (names ++ [name]) d →
      ∃ m, Path.Leads L current names m ∧ L (m, name) d := by
  induction names with
  | nil =>
    rintro current d ⟨following, hentry, rfl⟩
    exact ⟨current, rfl, hentry⟩
  | cons first rest ih =>
    rintro current d ⟨following, hentry, hrest⟩
    obtain ⟨m, hm, hlast⟩ := ih hrest
    exact ⟨m, ⟨following, hentry, hm⟩, hlast⟩

section

variable {env : Env (World PyStr) Fault} {p : Workspace} {w₀ w : World PyStr} {V : Flags → Prop}

/-- The parent of the two files is the output directory. -/
theorem isParent_output (hresolves : Resolves p w₀) (hname : p.output.2 ≠ "" ∧ p.output.2 ≠ ".")
    (hw : ∀ k i, w₀.lookup k = some i → w.lookup k = some i) {d d' : Nat}
    (hd : w.lookup p.output = some d)
    (hparent : IsParent p.start (p.components ++ [p.output.2]) w d') : d' = d := by
  obtain ⟨first, hfirst, hleads⟩ := hparent
  have hlast : steps [p.output.2] = [p.output.2] := List.filter_cons_of_pos (by simpa using hname)
  have hsteps : steps (p.components ++ [p.output.2]) = steps p.components ++ [p.output.2] := by
    calc steps (p.components ++ [p.output.2])
        = steps p.components ++ steps [p.output.2] := List.filter_append ..
      _ = steps p.components ++ [p.output.2] := by rw [hlast]
  rw [hsteps] at hleads
  obtain ⟨m, hm, hlast⟩ := leads_append hleads
  obtain rfl := hresolves w hw m ⟨first, hfirst, hm⟩
  exact Option.some.inj (hlast.symm.trans hd)

/-- The world after the output directory was made. -/
def made (p : Workspace) (w₀ : World PyStr) : World PyStr :=
  { w₀.create p.output ⟨.directory, 0o700, p.euid, p.egid, [], 0, 0⟩ with own := w₀.next :: w₀.own }

theorem lookup_made {k : Key PyStr} :
    (made p w₀).lookup k = if k = p.output then some w₀.next else w₀.lookup k :=
  World.lookup_insert

theorem wf_made (hw₀ : w₀.Wf) (hout : p.output.1 < w₀.next) : (made p w₀).Wf :=
  have h := hw₀.create (n := ⟨.directory, 0o700, p.euid, p.egid, [], 0, 0⟩) hout
  ⟨h.entry, h.inode⟩

/-- Nothing is in a directory that is not there. -/
theorem lookup_fresh (hw₀ : w₀.Wf) {name : PyStr} : w₀.lookup (w₀.next, name) = none := by
  cases hlookup : w₀.lookup (w₀.next, name) with
  | none => rfl
  | some i => exact absurd (hw₀.entry _ _ hlookup).1 (Nat.lt_irrefl _)

theorem temporaryName_ne {token file : PyStr} (hfile : file.codePoints.head? ≠ some 46) :
    temporaryName token ≠ file := by
  rintro rfl
  exact hfile rfl

/-- What was there is there when the output directory was made. -/
theorem lookup_made_of (hnone : w₀.lookup p.output = none) {k : Key PyStr} {i : Nat}
    (h : w₀.lookup k = some i) : (made p w₀).lookup k = some i := by
  rw [lookup_made, if_neg]
  · exact h
  · rintro rfl
    rw [hnone] at h
    cases h

/-- The new directory is empty. -/
theorem lookup_made_fresh (hw₀ : w₀.Wf) (hout : p.output.1 < w₀.next) {name : PyStr} :
    (made p w₀).lookup (w₀.next, name) = none := by
  rw [lookup_made, if_neg]
  · exact lookup_fresh hw₀
  · intro heq
    rw [← heq] at hout
    exact Nat.lt_irrefl _ hout

/-- What the first file leaves of the new directory. -/
structure Between (p : Workspace) (w₀ w : World PyStr) : Prop where
  wf : w.Wf
  kept : ∀ k i, w₀.lookup k = some i → w.lookup k = some i
  output : w.lookup p.output = some w₀.next
  patch : Linked (p.patch.target w₀.next) (Complete p.diff) w
  vacant : ∀ token, w.lookup (w₀.next, temporaryName token) = none

/-- The first file is written into the new directory. -/
theorem between_of_replaced (hw₀ : w₀.Wf) (hout : p.output.1 < w₀.next)
    (hnone : w₀.lookup p.output = none)
    (h : Replaced (p.patch.target w₀.next) (p.patch.temporary w₀.next) p.diff (made p w₀) w) :
    Between p w₀ w := by
  have hdir : ∀ k : Key PyStr, k.1 < w₀.next → k ≠ p.patch.target w₀.next := by
    rintro k hk rfl
    exact Nat.lt_irrefl _ hk
  refine ⟨h.wf, fun k i hk => ?_, ?_, h.linked, fun token => ?_⟩
  · exact h.entries k i (hdir k (hw₀.entry k i hk).1) (lookup_made_of hnone hk)
  · exact h.entries _ _ (hdir _ hout) (by rw [lookup_made, if_pos rfl])
  · by_cases htoken : (w₀.next, temporaryName token) = p.patch.temporary w₀.next
    · rw [htoken]
      exact h.vacant
    · rw [h.others _ ?_ htoken]
      · exact lookup_made_fresh hw₀ hout
      · intro heq
        have hname : temporaryName token = ("change.patch" : PyStr) := congrArg Prod.snd heq
        exact temporaryName_ne (by decide) hname

/-- The second file is written, and the first one is still there. -/
theorem published_of_replaced (hout : p.output.1 < w₀.next) {w' : World PyStr}
    (hbetween : Between p w₀ w) {payload : List UInt8} (hmetadata : p.metadata = some payload)
    (h : Replaced ((p.review payload).target w₀.next) ((p.review payload).temporary w₀.next) payload
      w w') : Published p w' := by
  have hpatch : p.patch.target w₀.next ≠ (p.review payload).target w₀.next := by
    intro heq
    have hname : ("change.patch" : PyStr) = "review-metadata.json" := congrArg Prod.snd heq
    exact absurd hname (by decide)
  have houtput : p.output ≠ (p.review payload).target w₀.next := by
    intro heq
    have hdir := congrArg Prod.fst heq
    exact Nat.ne_of_lt hout hdir
  obtain ⟨i, n, hlookup, hinode, hcomplete⟩ := hbetween.patch
  obtain ⟨n', hinode', hsame⟩ := h.inodes i n hinode
  rw [Inode.Same] at hsame
  refine ⟨w₀.next, payload, hmetadata, h.entries _ _ houtput hbetween.output, ?_, h.linked⟩
  refine ⟨i, n', h.entries _ _ hpatch hlookup, hinode', ?_⟩
  rw [hsame]
  exact hcomplete

/-! ### The calls -/

section

variable (hquiet : Quiet env)

include hquiet

/-- A call whose exception is caught. -/
theorem attempt_syscall {α : Type} {P : State → Prop} {call : Call PyStr Unit}
    {act : World PyStr → Except Errno (α × World PyStr)} {Q : Except Errno α → State → Prop}
    {E : Failure → State → Prop}
    (hok : ∀ s a w, P s → act s.world = .ok (a, w) →
      Q (.ok a) { s with world := w, log := ⟨call, s.world, w, true⟩ :: s.log })
    (herror : ∀ s e, P s →
      Q (.error e) { s with log := ⟨call, s.world, s.world, false⟩ :: s.log }) :
    Triple env P (attempt (sys (syscall call act))) Q E := by
  refine Triple.attempt (Triple.mapError (triple_syscall (R := fun w w' => w' = w) hquiet
    (fun s before a w hs hR hact => ?_) fun s before e hs hR => ?_))
  · rw [hR] at hact ⊢
    exact hok s a w hs hact
  · rw [hR]
    exact herror s e hs

/-- The cleanup removes the directory, or says that it could not. -/
theorem removePartial_triple {E : Failure → State → Prop} :
    Triple env (fun _ => True) (removePartial p)
      (fun _ s => s.world.lookup p.output = none ∨ CleanupFailed p s) E := by
  have hunlink : ∀ file, Triple env (fun _ => True) (unlinkPartial p file)
      (fun _ _ => True) E := by
    intro file
    refine Triple.bind (Q := fun _ _ => True) ?_ fun _ => triple_pure fun _ _ => trivial
    exact attempt_syscall hquiet (fun _ _ _ _ _ => trivial) fun _ _ _ => trivial
  refine Triple.bind (hunlink _) fun _ => Triple.bind (hunlink _) fun _ => ?_
  refine Triple.bind (Q := fun _ s => s.world.lookup p.output = none ∨ CleanupFailed p s) ?_
    fun _ => triple_pure fun _ h => h
  refine attempt_syscall hquiet (fun s a w _ hact => Or.inl ?_) fun s e _ =>
    Or.inr ⟨_, List.mem_cons_self, rfl, rfl⟩
  cases hfind : s.world.find p.output with
  | error e => simp [hfind, Except.bind] at hact
  | ok st =>
    simp only [hfind, Except.bind] at hact
    split at hact
    · cases hact
    · split at hact
      · cases hact
        exact World.lookup_remove_self
      · cases hact

/-- Two files, or an exception. -/
theorem writeBoth_triple (hw₀ : w₀.Wf) (hout : p.output.1 < w₀.next)
    (hnone : w₀.lookup p.output = none) (hname : p.output.2 ≠ "" ∧ p.output.2 ≠ ".")
    (hresolves : Resolves p w₀) :
    Triple env (Through (fun _ => True) (· = made p w₀) fun _ => True) (writeBoth p)
      (fun _ s => Published p s.world) fun _ _ => True := by
  have hmade : ∀ k i, w₀.lookup k = some i → (made p w₀).lookup k = some i :=
    fun k i h => lookup_made_of hnone h
  have hdir : (made p w₀).lookup p.output = some w₀.next := by rw [lookup_made, if_pos rfl]
  have hfirst : Triple env (Through (fun _ => True) (· = made p w₀) fun _ => True)
      (writeOwnedRegularFile p.patch)
      (fun _ s => ∃ w, Between p w₀ w ∧ Through (fun _ => True) (· = w) (fun _ => True) s)
      fun _ _ => True := by
    refine Triple.weaken (writeOwnedRegularFile_triple hquiet (@watch_last (p.patch.target w₀.next)
      (p.patch.temporary w₀.next) p.diff (made p w₀)) (wf_made hw₀ hout) (fun _ => Iff.rfl)
      (fun _ => id) rfl fun d hd => ?_) (fun _ h => h) (fun _ s h => ⟨s.world, ?_, ?_⟩)
      fun _ _ _ => trivial
    · obtain rfl := isParent_output hresolves hname hmade hdir hd
      refine ⟨rfl, rfl, fun heq => ?_, lookup_made_fresh hw₀ hout⟩
      have hfile : temporaryName p.token = ("change.patch" : PyStr) := congrArg Prod.snd heq
      exact temporaryName_ne (by decide) hfile
    · exact between_of_replaced hw₀ hout hnone h.through.now
    · exact ⟨rfl, trivial, fun _ _ => ⟨trivial, trivial⟩⟩
  refine Triple.bind hfirst fun _ => triple_exists fun w => triple_of_prop fun hbetween => ?_
  cases hmetadata : p.metadata with
  | none => exact triple_raise fun _ _ => trivial
  | some payload =>
    refine Triple.weaken (writeOwnedRegularFile_triple hquiet
      (@watch_last ((p.review payload).target w₀.next) ((p.review payload).temporary w₀.next) payload
        w) hbetween.wf (fun _ => Iff.rfl) (fun _ => id) rfl fun d hd => ?_) (fun _ h => h)
      (fun _ s h => published_of_replaced hout hbetween hmetadata h.through.now)
      fun _ _ _ => trivial
    obtain rfl := isParent_output hresolves hname hbetween.kept hbetween.output hd
    refine ⟨rfl, rfl, fun heq => ?_, hbetween.vacant _⟩
    have hfile : temporaryName p.nextToken = ("review-metadata.json" : PyStr) :=
      congrArg Prod.snd heq
    exact temporaryName_ne (by decide) hfile

/-- Both files are there, or nothing of what the call made, if it can remove the directory. -/
theorem writeMaterializedWorkspace_triple (hw₀ : w₀.Wf) (hout : p.output.1 < w₀.next)
    (hresolves : Resolves p w₀) :
    Triple env (Through (fun _ => True) (· = w₀) fun _ => True) (writeMaterializedWorkspace p)
      (fun _ s => Published p s.world) fun _ => Withdrawn p w₀ := by
  have hidle : Idle env (fun _ => True)
      (Through (fun _ => True) (· = w₀) fun _ => True : State → Prop) :=
    through_idle hquiet fun _ _ => trivial
  have hsame : ∀ (e : Failure) (s : State), Through (fun _ => True) (· = w₀) (fun _ => True) s →
      Withdrawn p w₀ s := fun e s h => Or.inl (by rw [h.now])
  have hexists : Triple env (Through (fun _ => True) (· = w₀) fun _ => True) (outputExists p)
      (fun b s => (b = false → p.output.2 ≠ "" ∧ p.output.2 ≠ ".") ∧
        Through (fun _ => True) (· = w₀) (fun _ => True) s)
      fun _ => Withdrawn p w₀ := by
    unfold outputExists
    split
    · exact triple_pure fun _ h => ⟨fun hb => absurd hb (by decide), h⟩
    · next hnot =>
      rw [not_or] at hnot
      refine Triple.bind ((attempt_triple (sys_triple (stat_idle hidle trivial))).weaken
        (fun _ h => h) (fun _ _ h => h) hsame) fun r => ?_
      cases r with
      | ok st => exact triple_pure fun _ h => ⟨fun _ => hnot, h.2⟩
      | error e =>
        have hbranch : Triple env (Through (fun _ => True) (· = w₀) fun _ => True : State → Prop)
            (if isAbsence e = true then pure false else raise (.os e))
            (fun b s => (b = false → p.output.2 ≠ "" ∧ p.output.2 ≠ ".") ∧
              Through (fun _ => True) (· = w₀) (fun _ => True) s)
            fun _ => Withdrawn p w₀ := by
          split
          · exact triple_pure fun _ h => ⟨fun _ => hnot, h⟩
          · exact triple_raise fun s h => hsame (.os e) s h
        exact hbranch
  have habsent : ∀ (found : Bool) (message : String),
      Triple env (Through (fun _ => True) (· = w₀) fun _ => True : State → Prop)
        (require (!found) message)
        (fun _ s => found = false ∧ Through (fun _ => True) (· = w₀) (fun _ => True) s)
        fun _ => Withdrawn p w₀ := by
    intro found message
    cases found with
    | true => exact triple_raise fun s h => hsame (.materialization message) s h
    | false => exact triple_pure fun _ h => ⟨rfl, h⟩
  have hmkdir : Triple env (Through (fun _ => True) (· = w₀) fun _ => True : State → Prop)
      (attempt (sys (mkdir p.output 0o700 p.euid p.egid)))
      (fun r s => (r.isOk = true → w₀.lookup p.output = none ∧
          Through (fun _ => True) (· = made p w₀) (fun _ => True) s) ∧
        (r.isOk = false → Through (fun _ => True) (· = w₀) (fun _ => True) s))
      fun _ => Withdrawn p w₀ := by
    refine attempt_syscall hquiet (fun s a w hs hact => ⟨fun _ => ?_, fun h => by cases h⟩)
      fun s e hs => ⟨fun h => (by cases h), fun _ => ⟨hs.now, trivial, fun _ _ => ⟨trivial, trivial⟩⟩⟩
    rw [hs.now] at hact
    split at hact
    · cases hact
    · next hnone =>
      cases hact
      exact ⟨by simpa using hnone, rfl, trivial, fun _ _ => ⟨trivial, trivial⟩⟩
  refine Triple.bind hexists fun found => triple_of_prop fun hname => ?_
  refine Triple.bind (habsent found _) fun _ => triple_of_prop fun hfound => ?_
  refine Triple.bind hmkdir fun r => ?_
  cases r with
  | error e => exact triple_raise fun s h => hsame (.os e) s (h.2 rfl)
  | ok u =>
    intro s hs
    obtain ⟨hnone, hmade⟩ := hs.1 rfl
    refine Triple.bind (attemptAny_triple (writeBoth_triple hquiet hw₀ hout hnone (hname hfound)
      hresolves)) (fun r => ?_) s hmade
    cases r with
    | ok u => exact triple_pure fun _ h => h
    | error e =>
      refine Triple.bind (removePartial_triple hquiet) fun _ => triple_raise fun s h => ?_
      exact h.imp_left fun hgone => hgone.trans hnone.symm

end

end

/-! ## 2. Whole runs -/

/-- The target denotes what it denoted, or a regular file with exactly the payload. -/
def Exposes (target : Key PyStr) (payload : List UInt8) (w₀ w : World PyStr) : Prop :=
  Intact target w₀ w ∨ Linked target (Complete payload) w

/-- No other entry was removed or changed. -/
def KeepsOthers (target : Key PyStr) (w₀ w : World PyStr) : Prop :=
  ∀ k i, k ≠ target → w₀.lookup k = some i → w.lookup k = some i

/-- What a run of a writer from `w₀` is to leave, at every instant and in the end.  An exception
leaves the target alone exactly where no call of `C` fails too late. -/
structure FailureAtomic (C : Call PyStr Unit → Prop) (target : Key PyStr) (payload : List UInt8)
    (w₀ : World PyStr) (run : Except Failure Unit × State) : Prop where
  past : ∀ e ∈ run.2.log, (Exposes target payload w₀ e.before ∧ KeepsOthers target w₀ e.before) ∧
    Exposes target payload w₀ e.after ∧ KeepsOthers target w₀ e.after
  now : Exposes target payload w₀ run.2.world ∧ KeepsOthers target w₀ run.2.world
  complete : run.1 = .ok () → Linked target (Complete payload) run.2.world
  unchanged : (∀ e, run.1 = .error e → Intact target w₀ run.2.world) ↔
    ¬ Late C target w₀ run.2.log

section

variable {C : Call PyStr Unit → Prop} {target temporary : Key PyStr} {payload : List UInt8}
  {w₀ w : World PyStr}

theorem Sound.exposes (h : Sound target temporary payload w₀ w) :
    Exposes target payload w₀ w ∧ KeepsOthers target w₀ w := by
  rcases h with h | h
  · exact ⟨Or.inl h.intact, h.entries⟩
  · exact ⟨Or.inr h.linked, h.entries⟩

/-- What the triples of the two writers say of a run from its beginning. -/
theorem failureAtomic_of_triple {env : Env (World PyStr) Fault} {x : Sys Unit} {v : Flags}
    (h : Triple env (Through (Unreplaced target temporary w₀) (· = w₀) fun _ => True) x
      (fun _ => After C target temporary payload w₀ (Sound target temporary payload w₀) False)
      fun _ => Broken C target temporary payload w₀ (Unreplaced target temporary w₀)
        (Sound target temporary payload w₀) fun _ => True) :
    FailureAtomic C target payload w₀ (x env ⟨w₀, [], v⟩) := by
  have hafter : ∀ {s : State} {q : Prop},
      After C target temporary payload w₀ (Sound target temporary payload w₀) q s →
      (∀ e ∈ s.log, (Exposes target payload w₀ e.before ∧ KeepsOthers target w₀ e.before) ∧
        Exposes target payload w₀ e.after ∧ KeepsOthers target w₀ e.after) ∧
      Exposes target payload w₀ s.world ∧ KeepsOthers target w₀ s.world := fun {_ _} hs =>
    ⟨fun e he => ⟨(hs.through.past e he).1.exposes, (hs.through.past e he).2.exposes⟩,
      Sound.exposes (Or.inr hs.through.now)⟩
  have hrun := h ⟨w₀, [], v⟩ ⟨rfl, trivial, fun e he => absurd he List.not_mem_nil⟩
  split at hrun
  · next u s heq =>
    rw [heq]
    obtain ⟨hpast, hnow⟩ := hafter hrun
    exact ⟨hpast, hnow, fun _ => hrun.through.now.linked,
      iff_of_true (fun e he => by cases he) fun hlate => hrun.late.mp hlate⟩
  · next e s heq =>
    rw [heq]
    rcases hrun with hcalm | hlate
    · have hsound : ∀ w, Unreplaced target temporary w₀ w →
          Sound target temporary payload w₀ w := fun _ => Or.inl
      refine ⟨fun e he => ⟨(hsound _ (hcalm.past e he).1).exposes,
        (hsound _ (hcalm.past e he).2).exposes⟩, (hsound _ hcalm.now).exposes,
        fun hok => (by cases hok), iff_of_true (fun _ _ => hcalm.now.intact) ?_⟩
      exact (@watch_sound C target temporary payload w₀).early s.log hcalm.past
    · obtain ⟨hpast, hnow⟩ := hafter hlate
      refine ⟨hpast, hnow, fun hok => (by cases hok), iff_of_false (fun hintact => ?_) fun hnot => ?_⟩
      · exact hlate.through.now.changed (hintact e rfl).lookup
      · exact hnot (hlate.late.mpr trivial)

end

def sampleProcess : Process := ⟨0, 0, true, "00"⟩

/-- A file `/d/a` of one byte. -/
def sampleParams : Params :=
  { sampleProcess with
    start := (0, "/"), components := ["d"], file := "a", payload := [120], name := "report"
    maximum := 1, singleRuntime := false }

def sampleEvidence : Evidence := { sampleProcess with parent := (1, "d"), file := "a", text := "x" }

/-- A workspace `/d/w`. -/
def sampleWorkspace : Workspace :=
  { sampleProcess with
    start := (0, "/"), components := ["d"], output := (2, "w"), diff := [120]
    metadata := some [123, 125, 10], maximum := 1, singleRuntime := false, nextToken := "01" }

/-- The call with this number fails with `EIO`. -/
def failing (n : Nat) : Env (World PyStr) Fault :=
  ⟨fun k => if k = n then some (.fail (.other 5)) else none, fun _ w => w⟩

theorem isParent_sample {w : World PyStr}
    (hw : ∀ k i, Path.sampleWorld.lookup k = some i → w.lookup k = some i) {d : Nat}
    (h : IsParent (0, "/") ["d"] w d) : d = 2 := by
  obtain ⟨first, hfirst, second, hsecond, rfl⟩ := h
  have hroot : w.lookup (0, "/") = some 1 := hw _ _ (by decide)
  obtain rfl : first = 1 := Option.some.inj (hfirst.symm.trans hroot)
  have hdir : w.lookup (1, "d") = some 2 := hw _ _ (by decide)
  exact Option.some.inj (hsecond.symm.trans hdir)

theorem resolves_sample : Resolves sampleWorkspace Path.sampleWorld :=
  fun _ hw _ h => isParent_sample hw h

/-- The sample world where an entry has the temporary name already. -/
def occupiedWorld : World PyStr where
  inode i := match i with
    | 1 => some ⟨.directory, 0o755, 0, 0, [], 0, 0⟩
    | 2 => some ⟨.directory, 0o755, 0, 0, [], 0, 0⟩
    | 3 => some ⟨.regular, 0o644, 0, 0, [1], 0, 0⟩
    | _ => none
  entries := [((0, "/"), 1), ((1, "d"), 2), ((2, temporaryName "00"), 3)]
  next := 4
  own := []

end Supplementary.Atomic.Replace
