/-
# Runs of the two writers

`write_owned_regular_file` and `write_evidence_text` return when the target is replaced and nothing
failed afterwards.  They raise before the rename, or because a call failed after it: in the first of
them only a `close`, in the second any call.
-/
import Supplementary.Atomic.PathAtomic
import Supplementary.Atomic.ReplaceRuns

namespace Supplementary.Atomic.Replace

open Machine Posix

/-! ## 1. `write_owned_regular_file` -/

/-- `os.close(fd)`. -/
def IsClose (call : Call PyStr Unit) : Prop := ∃ i, call = .close i

/-- The directory that the walk ends in. -/
def IsParent (start : Key PyStr) (components : List PyStr) (w : World PyStr) (d : Nat) : Prop :=
  ∃ first, w.lookup start = some first ∧
    Path.Leads (fun k i => w.lookup k = some i) first (steps components) d

section

variable {env : Env (World PyStr) Fault} {C : Call PyStr Unit → Prop} {target temporary : Key PyStr}
  {payload : List UInt8} {w₀ : World PyStr} {T T' : World PyStr → Prop} {V : Flags → Prop} {q c : Prop}
  (hquiet : Quiet env) (hwatch : Watch C target temporary payload w₀ T T')

include hquiet hwatch

/-! ### After the rename -/

/-- A call that looks, after the rename. -/
theorem looking_after {call : Call PyStr Unit} :
    Triple env (After C target temporary payload w₀ T' q)
      (sys (syscall call fun w => .ok ((), w)))
      (fun _ => After C target temporary payload w₀ T' q)
      fun _ => After C target temporary payload w₀ T' (C call ∨ q) := by
  refine sys_triple (triple_syscall (R := fun w w' => w' = w) hquiet
    (fun s before a w hs hR hact => ?_) fun s before e hs hR => ?_)
  · cases hact
    rw [hR]
    exact (hs.call hwatch).iff (by simp)
  · rw [hR]
    exact (hs.call hwatch).iff (by simp)

/-- The same where an `OSError` is caught. -/
theorem attempt_after {call : Call PyStr Unit} {E : Failure → State → Prop} :
    Triple env (After C target temporary payload w₀ T' q)
      (attempt (sys (syscall call fun w => .ok ((), w))))
      (fun r => After C target temporary payload w₀ T' ((C call ∧ r.isOk = false) ∨ q)) E := by
  refine Triple.attempt (Triple.mapError (triple_syscall (R := fun w w' => w' = w) hquiet
    (fun s before a w hs hR hact => ?_) fun s before e hs hR => ?_))
  · cases hact
    rw [hR]
    exact hs.call hwatch
  · rw [hR]
    exact hs.call hwatch

/-- A failed `close` is late. -/
theorem closeDescriptorAfterError_after (hC : ∀ i, C (.close i) ↔ c) {i : Nat}
    {E : Failure → State → Prop} :
    Triple env (After C target temporary payload w₀ T' q) (closeDescriptorAfterError i)
      (fun b => After C target temporary payload w₀ T' ((c ∧ b = false) ∨ q)) E := by
  refine Triple.bind (attempt_after hquiet hwatch) fun r => ?_
  cases r with
  | ok u => exact triple_pure fun _ h => h.iff (by simp [Except.isOk, Except.toBool])
  | error e => exact triple_pure fun _ h => h.iff (by simp [Except.isOk, Except.toBool, hC])

/-- The cleanup after the rename only closes. -/
theorem cleanUp_after (hC : ∀ i, C (.close i) ↔ c) {p : Params} {directory : Nat}
    {E : Failure → State → Prop} :
    Triple env (After C target temporary payload w₀ T' False) (cleanUp p directory)
      (fun b s => if b = true then After C target temporary payload w₀ T' False s
        else After C target temporary payload w₀ T' c s) E := by
  have htemporary : Triple env (After C target temporary payload w₀ T' False) closeTemporary
      (fun b => After C target temporary payload w₀ T' (c ∧ b = false)) E := by
    refine Triple.bind (triple_locals (Q := fun _ => After C target temporary payload w₀ T' False)
      fun _ h => h) fun v => ?_
    cases v.descriptor with
    | none => exact triple_pure fun _ h => h.iff (by simp)
    | some descriptor =>
      refine Triple.bind (Q := fun _ => After C target temporary payload w₀ T' False)
        (triple_assign fun s h => ?_) fun _ => ?_
      · exact ⟨⟨h.through.now, h.through.vars, h.through.past⟩, h.late⟩
      · exact (closeDescriptorAfterError_after hquiet hwatch hC).post fun b _ h => h.iff (by simp)
  have hunlink : ∀ b : Bool, Triple env (After C target temporary payload w₀ T' (c ∧ b = false))
      (unlinkTemporary p directory)
      (fun b' s => b' = true ∧ After C target temporary payload w₀ T' (c ∧ b = false) s) E := by
    intro b
    refine Triple.bind (triple_locals (Q := fun v s => v.replaced = true ∧
      After C target temporary payload w₀ T' (c ∧ b = false) s) fun s h => ⟨h.through.vars, h⟩)
      fun v => triple_of_prop fun hreplaced => ?_
    rw [if_pos hreplaced]
    exact triple_pure fun _ h => ⟨rfl, h⟩
  refine Triple.bind htemporary fun closed => Triple.bind (hunlink closed) fun unlinked => ?_
  refine triple_of_prop fun hunlinked => ?_
  refine Triple.bind (closeDescriptorAfterError_after hquiet hwatch hC) fun closedDirectory => ?_
  refine triple_pure fun s h => ?_
  rw [hunlinked]
  cases closed with
  | true =>
    cases closedDirectory with
    | true => exact h.iff (by simp)
    | false => exact h.iff (by simp)
  | false => exact h.iff (by simp +contextual)

/-! ### Before the rename -/

/-- The temporary file, or nothing, is removed. -/
theorem unlink_calm (hne : temporary ≠ target) (hfree : w₀.lookup temporary = none) :
    Preserves env (Calm target temporary w₀ T V) (sys (unlink temporary)) := by
  refine sys_preserves (syscall_through hquiet hwatch.calm (fun _ => hwatch.calm)
    fun w a w' hw hact => ?_)
  cases hfind : w.find temporary with
  | error e => simp [hfind, Except.bind] at hact
  | ok st =>
    simp only [hfind, Except.bind] at hact
    split at hact
    · cases hact
    · cases hact
      exact (hw.remove hne hfree).touch

theorem cleanUp_calm {p : Params} {directory : Nat} (htemporary : p.temporary directory = temporary)
    (hne : temporary ≠ target) (hfree : w₀.lookup temporary = none) :
    Preserves env (Calm target temporary w₀ T fun _ => True) (cleanUp p directory) := by
  have hidle := calm_idle (V := fun _ => True) hquiet hwatch
  have hclosed : Preserves env (Calm target temporary w₀ T fun _ => True) closeTemporary := by
    refine preserves_locals.bind fun v => ?_
    cases v.descriptor with
    | none => exact preserves_pure
    | some descriptor =>
      exact (assign_through fun _ _ => trivial).bind fun _ => closeDescriptorAfterError_idle hidle
  have hunlink : Preserves env (Calm target temporary w₀ T fun _ => True)
      (unlinkTemporary p directory) := by
    refine preserves_locals.bind fun v => Preserves.ite (fun _ => preserves_pure) fun _ => ?_
    rw [htemporary]
    refine (unlink_calm hquiet hwatch hne hfree).attempt.bind fun r => ?_
    cases r with
    | ok u => exact preserves_pure
    | error e => cases e <;> exact preserves_pure
  refine hclosed.bind fun _ => hunlink.bind fun _ => ?_
  exact (closeDescriptorAfterError_idle hidle).bind fun _ => preserves_pure

theorem checkExisting_calm {p : Params} {directory : Nat} :
    Preserves env (Calm target temporary w₀ T V) (checkExisting p directory) := by
  have hidle := calm_idle (V := V) hquiet hwatch
  have hopen : Preserves env (Calm target temporary w₀ T V) (sys (openAt (p.target directory))) := by
    refine sys_preserves (looking_idle hidle trivial fun w a w' hact => ?_)
    cases hfind : w.find (p.target directory) with
    | error e => simp [hfind, Except.map] at hact
    | ok st =>
      simp only [hfind, Except.map, Except.ok.injEq, Prod.mk.injEq] at hact
      exact hact.2.symm
  refine hopen.attempt.bind fun r => ?_
  cases r with
  | ok existing =>
    refine closing_preserves ?_ (closeDescriptorAfterError_idle hidle)
    refine (fstatLinks_idle hidle).bind fun found => ?_
    exact require_preserves.bind fun _ => require_preserves.bind fun _ => require_preserves
  | error e =>
    cases e with
    | noent => exact preserves_pure
    | _ => exact preserves_raise

variable (hw₀ : w₀.Wf)

include hw₀

/-- The temporary file has exactly the payload when it is closed. -/
theorem stageOwned_triple {p : Params} {directory : Nat} (htemporary : p.temporary directory = temporary)
    (hne : temporary ≠ target) (hlt : temporary.1 < w₀.next) :
    Triple env (Calm target temporary w₀ T fun _ => True) (stageOwned p directory)
      (fun _ s => ∃ f, Through T (Staged target temporary w₀ f (Complete p.payload))
        (fun _ => True) s)
      fun _ => Calm target temporary w₀ T fun _ => True := by
  unfold stageOwned
  rw [htemporary]
  refine Triple.bind ((createFile_triple hquiet hwatch hw₀ hne hlt).post fun _ _ h => h.2) fun f => ?_
  have hlook : ∀ {good : Inode → Prop}, Triple env
      (Through T (Staged target temporary w₀ f good) fun _ => True) (fstatLinks f)
      (fun _ => Through T (Staged target temporary w₀ f good) fun _ => True)
      fun _ => Calm target temporary w₀ T fun _ => True := fun {good} =>
    staged_triple (fstatLinks_idle (staged_idle hquiet hwatch))
  have hassign : ∀ {good : Inode → Prop} {change : Flags → Flags}, Triple env
      (Through T (Staged target temporary w₀ f good) fun _ => True) (Program.assign change)
      (fun _ => Through T (Staged target temporary w₀ f good) fun _ => True)
      fun _ => Calm target temporary w₀ T fun _ => True := fun {_ _} =>
    staged_triple (assign_through fun _ _ => trivial)
  have hrequire : ∀ {good : Inode → Prop} {holds : Bool} {message : String}, Triple env
      (Through T (Staged target temporary w₀ f good) fun _ => True) (require holds message)
      (fun _ => Through T (Staged target temporary w₀ f good) fun _ => True)
      fun _ => Calm target temporary w₀ T fun _ => True := fun {_ _ _} =>
    staged_triple require_preserves
  refine Triple.bind hassign fun _ => Triple.bind hlook fun created => ?_
  refine Triple.bind hrequire fun _ => Triple.bind hrequire fun _ => ?_
  refine Triple.bind (fchmod_triple hquiet hwatch hw₀) fun _ => ?_
  refine Triple.bind (writeAll_triple hquiet hwatch hw₀ p.payload []) fun _ => ?_
  rw [List.nil_append]
  have hidle : Idle env (fun _ => True)
      (Through T (Staged target temporary w₀ f (Complete p.payload)) fun _ => True : State → Prop) :=
    staged_idle hquiet hwatch
  refine Triple.bind (staged_triple (sys_preserves (done_idle hidle trivial))) fun _ => ?_
  refine Triple.bind hlook fun written => Triple.bind hrequire fun _ => ?_
  refine Triple.bind (staged_triple (sys_preserves (done_idle hidle trivial))) fun _ => ?_
  refine Triple.bind (staged_triple (sys_preserves (readAll_idle hidle trivial))) fun bytes => ?_
  refine Triple.bind hrequire fun _ => Triple.bind hassign fun _ => ?_
  refine Triple.bind (staged_triple (closeDescriptorAfterError_idle hidle)) fun closed => ?_
  exact Triple.post hrequire fun _ _ h => ⟨f, h⟩

/-- The `try` block raises before the rename only. -/
theorem replaceOwned_triple {p : Params} {directory : Nat} (hC : ∀ i, ¬ C (.fsync i))
    (hpayload : p.payload = payload) (htarget : p.target directory = target)
    (htemporary : p.temporary directory = temporary) (hne : temporary ≠ target)
    (hfree : w₀.lookup temporary = none) (hlt : directory < w₀.next) :
    Triple env (Calm target temporary w₀ T fun _ => True) (replaceOwned p directory)
      (fun _ => After C target temporary payload w₀ T' False)
      fun _ => Calm target temporary w₀ T fun _ => True := by
  have htarget_lt : target.1 < w₀.next := htarget ▸ hlt
  have htemporary_lt : temporary.1 < w₀.next := htemporary ▸ hlt
  refine Triple.bind (checkExisting_calm hquiet hwatch) fun _ => ?_
  refine Triple.bind (stageOwned_triple hquiet hwatch hw₀ htemporary hne htemporary_lt) fun _ => ?_
  refine triple_exists fun f => ?_
  rw [htarget, htemporary, hpayload]
  refine Triple.bind (rename_triple hquiet hwatch hw₀ hne hfree htarget_lt) fun _ => ?_
  refine Triple.bind (Q := fun _ => After C target temporary payload w₀ T' False)
    (triple_assign fun s h => ?_) fun _ => ?_
  · exact ⟨⟨h.1.now, rfl, h.1.past⟩, iff_of_false h.2 id⟩
  · refine Triple.bind (attempt_after hquiet hwatch) fun r => ?_
    exact triple_pure fun _ h => h.iff (by simp [hC])

/-- A call that knows nothing of the directory yet. -/
theorem writeOwnedRegularFile_triple {p : Params} (hclose : ∀ i, C (.close i) ↔ c)
    (hfsync : ∀ i, ¬ C (.fsync i)) (hpayload : p.payload = payload)
    (hparent : ∀ d, IsParent p.start p.components w₀ d → p.target d = target ∧
      p.temporary d = temporary ∧ temporary ≠ target ∧ w₀.lookup temporary = none) :
    Triple env (Through T (· = w₀) fun _ => True) (writeOwnedRegularFile p)
      (fun _ => After C target temporary payload w₀ T' False)
      fun _ s => Calm target temporary w₀ T (fun _ => True) s ∨
        After C target temporary payload w₀ T' c s := by
  have hstart : ∀ w, w = w₀ → Unreplaced target temporary w₀ w := by
    rintro w rfl
    exact .refl hw₀
  have hcalm : ∀ (e : Failure) (s : State), Through T (· = w₀) (fun _ => True) s →
      Calm target temporary w₀ T (fun _ => True) s ∨
        After C target temporary payload w₀ T' c s := fun e s h =>
    Or.inl (h.mono hstart)
  have hidle : Idle env (fun _ => True) (Through T (· = w₀) fun _ => True : State → Prop) :=
    through_idle hquiet fun w hw => hwatch.calm w (hstart w hw)
  unfold writeOwnedRegularFile
  refine Triple.bind (Triple.weaken (assign_through fun _ _ => trivial) (fun _ h => h)
    (fun _ _ h => h) hcalm) fun _ => ?_
  refine Triple.bind (Triple.weaken require_preserves (fun _ h => h) (fun _ _ h => h) hcalm)
    fun _ => ?_
  refine Triple.bind (Triple.weaken require_preserves (fun _ h => h) (fun _ _ h => h) hcalm)
    fun _ => ?_
  refine Triple.bind (Triple.weaken (openOwnedParentDirectory_triple hidle
    (L := fun k i => w₀.lookup k = some i) fun s k i hs hi => hs.now ▸ hi) (fun _ h => h)
    (fun _ _ h => h) hcalm) fun directory => triple_of_prop fun hd => ?_
  obtain ⟨htarget, htemporary, hne, hfree⟩ := hparent directory hd
  have hlt : directory < w₀.next := by
    obtain ⟨first, hfirst, hrest⟩ := hd
    exact hrest.lt_next hw₀ (hw₀.entry _ _ hfirst).2
  have hreplace := replaceOwned_triple hquiet hwatch hw₀ hfsync hpayload htarget htemporary hne
    hfree hlt
  refine Triple.pre (closing_triple (Triple.mapError hreplace) ?_ ?_) fun s h => h.mono hstart
  · refine (cleanUp_after hquiet hwatch hclose).post fun b s h => ?_
    split at h
    · next hb =>
      rw [if_pos hb]
      exact h
    · next hb =>
      rw [if_neg hb]
      exact Or.inr h
  · exact Triple.weaken (cleanUp_calm hquiet hwatch htemporary hne hfree) (fun _ h => h)
      (fun _ _ h => Or.inl h) fun _ _ h => Or.inl h

/-! ## 2. `write_evidence_text` -/

omit hquiet hwatch hw₀ in
/-- A temporary file has another name than the target. -/
theorem evidence_temporary_ne {p : Evidence} {directory : Nat} :
    p.temporary directory ≠ p.target directory := by
  intro heq
  have hname := congrArg (fun k : Key PyStr => k.2.codePoints.length) heq
  have hlength (s t : PyStr) :
      (s ++ t).codePoints.length = s.codePoints.length + t.codePoints.length := List.length_append
  simp only [Evidence.temporary, Evidence.target, hlength] at hname
  have hdot : (PyStr.ofString ".").codePoints.length = 1 := rfl
  omega

omit hw₀ in
/-- The cleanup after the rename only closes, and what it raises is late. -/
theorem cleanUpEvidence_after (hC : ∀ call, C call) {p : Evidence} {directory : Nat} :
    Triple env (After C target temporary payload w₀ T' q) (cleanUpEvidence p directory)
      (fun _ => After C target temporary payload w₀ T' q)
      fun _ => After C target temporary payload w₀ T' True := by
  have hclose : ∀ i, Triple env (After C target temporary payload w₀ T' q) (sys (close i))
      (fun _ => After C target temporary payload w₀ T' q)
      fun _ => After C target temporary payload w₀ T' True := fun i =>
    (looking_after hquiet hwatch).weaken (fun _ h => h) (fun _ _ h => h) fun _ _ h =>
      h.iff (by simp [hC])
  refine Triple.bind (triple_locals (Q := fun v s => v.replaced = true ∧
    After C target temporary payload w₀ T' q s) fun s h => ⟨h.through.vars, h⟩)
    fun v => triple_of_prop fun hreplaced => ?_
  have hopened : Triple env (After C target temporary payload w₀ T' q) (closeEvidence v)
      (fun _ => After C target temporary payload w₀ T' q)
      fun _ => After C target temporary payload w₀ T' True := by
    unfold closeEvidence
    cases v.descriptor with
    | none => exact triple_pure fun _ h => h
    | some descriptor => exact hclose descriptor
  have hremoved : removeEvidence p directory v = pure () := by
    unfold removeEvidence
    cases v.identity with
    | none => rfl
    | some identity => exact if_pos hreplaced
  rw [hremoved]
  exact Triple.bind hopened fun _ => Triple.bind (triple_pure fun _ h => h) fun _ => hclose directory

/-- A temporary file is only known where there was none. -/
def Known (temporary : Key PyStr) (w₀ : World PyStr) (v : Flags) : Prop :=
  v.identity ≠ none → w₀.lookup temporary = none

omit hw₀ in
theorem cleanUpEvidence_calm {p : Evidence} {directory : Nat}
    (htemporary : p.temporary directory = temporary) (hne : temporary ≠ target) :
    Preserves env (Calm target temporary w₀ T (Known temporary w₀))
      (cleanUpEvidence p directory) := by
  have hidle : Idle env (fun _ => True) (Calm target temporary w₀ T (Known temporary w₀)) :=
    calm_idle hquiet hwatch
  have hunlink : ∀ identity, w₀.lookup temporary = none →
      Preserves env (Calm target temporary w₀ T (Known temporary w₀))
        (unlinkEvidence p directory identity) := by
    intro identity hfree
    unfold unlinkEvidence
    rw [htemporary]
    refine Preserves.bind (Preserves.attempt ?_) fun r => ?_
    · refine Preserves.bind ((sys_triple (stat_idle hidle trivial)).post fun _ _ h => h.2)
        fun current => Preserves.ite (fun _ => ?_) fun _ => preserves_pure
      exact unlink_calm hquiet hwatch hne hfree
    · cases r with
      | ok u => exact preserves_pure
      | error e =>
        cases e with
        | noent => exact preserves_pure
        | _ => exact preserves_raise
  refine Triple.bind (triple_locals (Q := fun v s => Known temporary w₀ v ∧
    Calm target temporary w₀ T (Known temporary w₀) s) fun s h => ⟨h.vars, h⟩)
    fun v => triple_of_prop fun hknown => ?_
  have hclose : ∀ i, Preserves env (Calm target temporary w₀ T (Known temporary w₀))
      (sys (close i)) := fun i => close_idle hidle
  have hopened : Preserves env (Calm target temporary w₀ T (Known temporary w₀))
      (closeEvidence v) := by
    unfold closeEvidence
    cases v.descriptor with
    | none => exact preserves_pure
    | some descriptor => exact hclose descriptor
  have hremoved : Preserves env (Calm target temporary w₀ T (Known temporary w₀))
      (removeEvidence p directory v) := by
    unfold removeEvidence
    cases hidentity : v.identity with
    | none => exact preserves_pure
    | some identity =>
      refine Preserves.ite (fun _ => preserves_pure) fun _ => hunlink identity (hknown ?_)
      simp [hidentity]
  exact Preserves.bind hopened fun _ => Preserves.bind hremoved fun _ => hclose directory

/-- What the `try` block leaves if it raises. -/
def Broken (C : Call PyStr Unit → Prop) (target temporary : Key PyStr) (payload : List UInt8)
    (w₀ : World PyStr) (T T' : World PyStr → Prop) (V : Flags → Prop) (s : State) : Prop :=
  Calm target temporary w₀ T V s ∨ After C target temporary payload w₀ T' True s

theorem replaceEvidence_triple (hC : ∀ call, C call) {p : Evidence} {directory : Nat}
    (hpayload : ∀ data, p.text.utf8Encode = some data → data = payload)
    (htarget : p.target directory = target) (htemporary : p.temporary directory = temporary)
    (hlt : directory < w₀.next) :
    Triple env (Calm target temporary w₀ T (Known temporary w₀)) (replaceEvidence p directory)
      (fun _ => After C target temporary payload w₀ T' False)
      fun _ => Broken C target temporary payload w₀ T T' (Known temporary w₀) := by
  have hne : temporary ≠ target := htarget ▸ htemporary ▸ evidence_temporary_ne
  have htarget_lt : target.1 < w₀.next := htarget ▸ hlt
  have htemporary_lt : temporary.1 < w₀.next := htemporary ▸ hlt
  have hidle : Idle env (fun _ => True) (Calm target temporary w₀ T (Known temporary w₀)) :=
    calm_idle hquiet hwatch
  have hcalm : ∀ (e : Failure) (s : State), Calm target temporary w₀ T (Known temporary w₀) s →
      Broken C target temporary payload w₀ T T' (Known temporary w₀) s := fun _ _ h => Or.inl h
  have hcheck : Preserves env (Calm target temporary w₀ T (Known temporary w₀))
      (checkEvidence p directory) := by
    have hstat : Preserves env (Calm target temporary w₀ T (Known temporary w₀))
        (sys (stat (p.target directory))) :=
      (sys_triple (stat_idle hidle trivial)).post fun _ _ h => h.2
    refine hstat.attempt.bind fun r => ?_
    cases r with
    | ok existing => exact Preserves.ite (fun _ => preserves_raise) fun _ => preserves_pure
    | error e =>
      cases e with
      | noent => exact preserves_pure
      | _ => exact preserves_raise
  refine Triple.bind (Triple.weaken hcheck (fun _ h => h) (fun _ _ h => h) hcalm) fun _ => ?_
  rw [htemporary, htarget]
  refine Triple.bind ((createFile_triple hquiet hwatch hw₀ hne htemporary_lt).weaken (fun _ h => h)
    (fun _ _ h => h) hcalm) fun f => triple_of_prop fun hfree => ?_
  have hknown : ∀ (change : Flags → Flags) v, Known temporary w₀ v → Known temporary w₀ (change v) :=
    fun _ _ _ _ => hfree
  have hstaged : ∀ {good : Inode → Prop} {α : Type} {x : Sys α},
      Preserves env (Through T (Staged target temporary w₀ f good) (Known temporary w₀)) x →
      Triple env (Through T (Staged target temporary w₀ f good) (Known temporary w₀)) x
        (fun _ => Through T (Staged target temporary w₀ f good) (Known temporary w₀))
        fun _ => Broken C target temporary payload w₀ T T' (Known temporary w₀) :=
    fun {_ _ _} h => (staged_triple h).weaken (fun _ h => h) (fun _ _ h => h) hcalm
  have hlook : ∀ {good : Inode → Prop}, Idle env (fun _ => True)
      (Through T (Staged target temporary w₀ f good) (Known temporary w₀) : State → Prop) :=
    fun {_} => staged_idle hquiet hwatch
  refine Triple.bind (hstaged (assign_through (hknown _))) fun _ => ?_
  refine Triple.bind (hstaged (sys_preserves (fstat_idle hlook trivial))) fun created => ?_
  refine Triple.bind (hstaged (assign_through (hknown _))) fun _ => ?_
  have hencode : Triple env
      (Through T (Staged target temporary w₀ f (Complete [])) (Known temporary w₀))
      (encodeEvidence p) (fun data s => data = payload ∧
        Through T (Staged target temporary w₀ f (Complete [])) (Known temporary w₀) s)
      fun _ => Broken C target temporary payload w₀ T T' (Known temporary w₀) := by
    unfold encodeEvidence
    cases hdata : p.text.utf8Encode with
    | none => exact triple_raise fun _ h => Or.inl (calm_of_staged h)
    | some data => exact triple_pure fun _ h => ⟨hpayload data hdata, h⟩
  refine Triple.bind hencode fun data => triple_of_prop fun hdata => ?_
  rw [hdata]
  refine Triple.bind ((writeAll_triple hquiet hwatch hw₀ payload []).weaken (fun _ h => h)
    (fun _ _ h => h) hcalm) fun _ => ?_
  rw [List.nil_append]
  refine Triple.bind (hstaged (sys_preserves (done_idle hlook trivial))) fun _ => ?_
  refine Triple.bind ((rename_triple hquiet hwatch hw₀ hne hfree htarget_lt).weaken (fun _ h => h)
    (fun _ _ h => h) hcalm) fun _ => ?_
  refine Triple.bind (Q := fun _ => After C target temporary payload w₀ T' False)
    (triple_assign fun s h => ?_) fun _ => ?_
  · exact ⟨⟨h.1.now, rfl, h.1.past⟩, iff_of_false h.2 id⟩
  · exact (looking_after hquiet hwatch).weaken (fun _ h => h) (fun _ _ h => h) fun _ _ h =>
      Or.inr (h.iff (by simp [hC]))

theorem writeEvidenceText_triple (hC : ∀ call, C call) {p : Evidence}
    (hpayload : ∀ data, p.text.utf8Encode = some data → data = payload)
    (hparent : ∀ d, w₀.lookup p.parent = some d → p.target d = target ∧
      p.temporary d = temporary) :
    Triple env (Through T (· = w₀) fun _ => True) (writeEvidenceText p)
      (fun _ => After C target temporary payload w₀ T' False)
      fun _ => Broken C target temporary payload w₀ T T' fun _ => True := by
  have hstart : ∀ w, w = w₀ → Unreplaced target temporary w₀ w := by
    rintro w rfl
    exact .refl hw₀
  have hidle : Idle env (fun _ => True) (Through T (· = w₀) (Known temporary w₀) : State → Prop) :=
    through_idle hquiet fun w hw => hwatch.calm w (hstart w hw)
  refine Triple.bind (Q := fun _ => Through T (· = w₀) (Known temporary w₀))
    (triple_assign fun s h => ⟨h.now, fun hsome => absurd rfl hsome, h.past⟩) fun _ => ?_
  refine Triple.bind ((sys_triple (openDirectory_idle hidle trivial)).weaken (fun _ h => h)
    (fun _ _ h => h) fun _ s h => Or.inl (h.weaken (fun _ h => h) hstart fun _ _ => trivial))
    fun directory => ?_
  intro s hs
  have hd : w₀.lookup p.parent = some directory := hs.2.now ▸ hs.1
  obtain ⟨htarget, htemporary⟩ := hparent directory hd
  have hne : temporary ≠ target := htarget ▸ htemporary ▸ evidence_temporary_ne
  have hreplace := replaceEvidence_triple hquiet hwatch hw₀ hC hpayload htarget htemporary
    (hw₀.entry _ _ hd).2
  have hbody : Triple env (Calm target temporary w₀ T (Known temporary w₀))
      (evidently (replaceEvidence p directory))
      (fun _ => After C target temporary payload w₀ T' False)
      fun _ => Broken C target temporary payload w₀ T T' (Known temporary w₀) :=
    Triple.mapError hreplace
  refine Triple.ensuring hbody (fun _ => ?_) (fun e => ?_) s (hs.2.mono hstart)
  · exact (cleanUpEvidence_after hquiet hwatch hC).weaken (fun _ h => h) (fun _ _ h => h)
      fun _ _ => Or.inr
  · refine triple_or ?_ ?_
    · exact Triple.weaken (cleanUpEvidence_calm hquiet hwatch htemporary hne) (fun _ h => h)
        (fun _ s h => Or.inl (h.weaken (fun _ h => h) (fun _ h => h) fun _ _ => trivial))
        fun _ s h => Or.inl (h.weaken (fun _ h => h) (fun _ h => h) fun _ _ => trivial)
    · exact (cleanUpEvidence_after hquiet hwatch hC).weaken (fun _ h => h) (fun _ _ => Or.inr)
        fun _ _ => Or.inr

end

end Supplementary.Atomic.Replace
