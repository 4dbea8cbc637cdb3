/-
# Check mode, real mode and a second run agree

Where no call fails, check mode takes every decision of the real run, because they share everything
up to the decision: it refuses what the real run refuses, and reports what the real run reports.  From
the decision on nothing is refused any more, and what the writer leaves is what the verifier accepts.
-/
import Supplementary.Atomic.PathInstall

namespace Supplementary.Atomic.Path

open Machine Posix

section

variable {p : Params} {w w₀ : World PyStr} {v : Flags} {target : Key PyStr} {parent : Nat}
  {name : PyStr} {names : List PyStr}

/-! ## 1. A file -/

theorem goes_keepFile {st : Stat} {desired : PyStr} (hresolve : resolve p w = .ok parent)
    (hfound : Found w (parent, name) (some st)) :
    Goes (keepFile p (parent, name) st desired) w v (.error .exit) w v
      [{ failed := false, changed := false, path := p.path, checksum := some desired }] := by
  obtain ⟨m, hm, -⟩ := inode_of_resolve hresolve
  refine (goes_revalidatedEntry hresolve hm hfound.1 hfound.2).bind ?_
  exact (goes_require (sameSnapshot_self _)).bind goes_exitJson

/-- The file that is asked for is there already. -/
theorem goes_writeFile_again {st : Stat} {payload : List UInt8} (hresolve : resolve p w = .ok parent)
    (h : Prepared p w (parent, name) payload (some (st, Sha256.hexdigest payload)))
    (hread : effectiveUserCanRead p p.mode p.uid p.gid = true) :
    Goes (writeFile p (parent, name) names) w v (.error .exit) w v
      [{ failed := false, changed := false, path := p.path
         checksum := some (Sha256.hexdigest payload) }] := by
  have hdigest : isDigest (Sha256.hexdigest payload) = true := by
    rw [isDigest, Sha256.length_hexdigest]
    simp only [decide_true, Bool.true_and, List.all_eq_true, Bool.or_eq_true, Bool.and_eq_true,
      decide_eq_true_eq]
    exact fun c hc => Sha256.hexdigest_digits hc
  refine (goes_prepareFile h hdigest hread).bind ?_
  have hkept : isKept (some (st, Sha256.hexdigest payload)) (Sha256.hexdigest payload) = some st :=
    if_pos rfl
  change Goes (replaceFile p (parent, name) names payload _) _ _ _ _ _ _
  unfold replaceFile
  rw [hkept]
  exact goes_keepFile hresolve h.bound.1

/-- Both runs refuse, or both succeed with the same report; a run without a change changes nothing,
and then nothing is left to do for `again`. -/
def Agrees (check real : List PyStr → Sys Unit) (again : Option PyStr → List PyStr → Sys Unit)
    (names : List PyStr) (w₀ : World PyStr) : Prop :=
  (∃ e out, IsRefusal e out ∧ (∀ names, Goes (check names) w₀ {} (.error e) w₀ {} out) ∧
    ∀ names, Goes (real names) w₀ {} (.error e) w₀ {} out) ∨
  ∃ o w v, o.failed = false ∧ (∀ names, Goes (check names) w₀ {} (.error .exit) w₀ {} [o]) ∧
    Goes (real names) w₀ {} (.error .exit) w v [o] ∧ (o.changed = false → w = w₀) ∧
    Dirs w₀ w ∧ ∀ names,
      Goes (again o.checksum names) w {} (.error .exit) w {} [{ o with changed := false }]

theorem writeFile_agrees (hw₀ : w₀.Wf) (hgrounded : Grounded w₀)
    (hresolve : resolve p w₀ = .ok parent) (hread : effectiveUserCanRead p p.mode p.uid p.gid = true)
    (hname : name ∉ names) (hfree : ∃ name ∈ names, w₀.lookup (parent, name) = none) :
    Agrees (writeFile { p with checkMode := true } (parent, name))
      (writeFile { p with checkMode := false } (parent, name))
      (fun checksum => writeFile { p with checkMode := false, expectedChecksum := checksum }
        (parent, name)) names w₀ := by
  rcases @settles_prepareFile { p with checkMode := false } w₀ {} (parent, name) hgrounded with
    ⟨⟨payload, before⟩, hprepare, hprepared⟩ | ⟨e, out, hprepare, he⟩
  · -- the decision is the same, because it does not depend on the mode
    have hcheck : ∀ {names w v r out},
        Goes (replaceFile { p with checkMode := true } (parent, name) names payload before) w₀ {} r w
          v out → Goes (writeFile { p with checkMode := true } (parent, name) names) w₀ {} r w v
          out := fun h => Goes.bind (a := (payload, before)) hprepare h
    have hreal : ∀ {names w v r out},
        Goes (replaceFile { p with checkMode := false } (parent, name) names payload before) w₀ {} r
          w v out → Goes (writeFile { p with checkMode := false } (parent, name) names) w₀ {} r w v
          out := fun h => Goes.bind (a := (payload, before)) hprepare h
    cases hkept : isKept before (Sha256.hexdigest payload) with
    | some found =>
      obtain ⟨st, text, rfl, htext, hst⟩ : ∃ st text, before = some (st, text) ∧
          text = Sha256.hexdigest payload ∧ st = found := by
        cases before with
        | none => cases hkept
        | some b =>
          simp only [isKept] at hkept
          split at hkept
          · next htext => exact ⟨b.1, b.2, rfl, htext, Option.some.inj hkept⟩
          · cases hkept
      subst hst htext
      let o : Outcome := { failed := false, changed := false, path := p.path
                           checksum := some (Sha256.hexdigest payload) }
      refine Or.inr ⟨o, w₀, {}, rfl, fun names => hcheck ?_, hreal ?_, fun _ => rfl, .refl w₀,
        fun names => ?_⟩
      · unfold replaceFile
        rw [hkept]
        exact goes_keepFile (p := { p with checkMode := true }) hresolve hprepared.bound.1
      · unfold replaceFile
        rw [hkept]
        exact goes_keepFile (p := { p with checkMode := false }) hresolve hprepared.bound.1
      · obtain ⟨hfound, hkind, hmatch, -, htext⟩ := hprepared.bound
        exact goes_writeFile_again
          (p := { p with checkMode := false, expectedChecksum := some (Sha256.hexdigest payload) })
          hresolve ⟨hprepared.exclusive, hprepared.content, hfound, hkind, hmatch, rfl, htext⟩ hread
    | none =>
      obtain ⟨wname, hmem, w₁, hmade, hworkspace⟩ :=
        @goes_privateWorkspace { p with checkMode := false } w₀ {} parent names hfree
      have hne : wname ≠ name := by
        rintro rfl
        exact hname hmem
      obtain ⟨w, v, n, hcommit, hinstalled, hcomplete⟩ :=
        @goes_commitFile { p with checkMode := false } w₀ w₁ parent name wname payload before hw₀
          hmade hne hresolve hprepared.bound hread
      let o : Outcome := { failed := false, changed := true, path := p.path
                           checksum := some (Sha256.hexdigest payload) }
      refine Or.inr ⟨o, w, v, rfl, fun names => hcheck ?_, hreal ?_, fun h => (by cases h),
        hinstalled.dirs, fun names => ?_⟩
      · unfold replaceFile
        rw [hkept]
        exact goes_exitJson
      · unfold replaceFile
        rw [hkept]
        exact hworkspace.bind hcommit
      · obtain ⟨f, hfound⟩ := hinstalled.target
        obtain ⟨m, hm, hholds⟩ := hprepared.exclusive
        obtain ⟨hkind, hbytes, hmode, huid, hgid⟩ := hcomplete
        have hexclusive : Exclusive p w parent :=
          ⟨m, hinstalled.dirs.inode_of_resolve hresolve hm, hholds⟩
        have hmatch : isMatch p ⟨f, n⟩ = true := by simp [isMatch, hmode, huid, hgid]
        exact goes_writeFile_again
          (p := { p with checkMode := false, expectedChecksum := some (Sha256.hexdigest payload) })
          (resolve_dirs hinstalled.dirs hresolve).1
          ⟨hexclusive, hprepared.content, hfound, hkind, hmatch, rfl, by rw [← hbytes]⟩ hread
  · exact Or.inl ⟨e, out, he, fun _ => Goes.bind_error hprepare, fun _ => hprepare.bind_error⟩

/-! ## 2. A directory -/

/-- The directory that is asked for is there already. -/
theorem goes_createDirectory_again {st : Stat} (hresolve : resolve p w = .ok parent)
    (hexclusive : Exclusive p w parent) (hfound : Found w (parent, name) (some st))
    (hkind : st.info.kind = .directory) (hmatch : isMatch p st = true) :
    Goes (createDirectory p (parent, name) names) w v (.error .exit) w v
      [{ failed := false, changed := false, path := p.path }] := by
  obtain ⟨m, hm, -⟩ := inode_of_resolve hresolve
  have hsame : isDirectoryEntry (some st) (some st) = true := sameDirectoryIdentity_self hkind
  refine (goes_requireExclusiveParent hexclusive).bind ((goes_existing_found hfound).bind ?_)
  refine (goes_require (by simp [hkind, hmatch])).bind ?_
  refine (goes_revalidatedEntry hresolve hm hfound.1 hfound.2).bind ?_
  exact (goes_require hsame).bind goes_exitJson

theorem createDirectory_agrees (hw₀ : w₀.Wf) (hgrounded : Grounded w₀)
    (hresolve : resolve p w₀ = .ok parent) (hname : name ∉ names)
    (hfree : ∃ name ∈ names, w₀.lookup (parent, name) = none) :
    Agrees (createDirectory { p with checkMode := true } (parent, name))
      (createDirectory { p with checkMode := false } (parent, name))
      (fun _ => createDirectory { p with checkMode := false } (parent, name)) names w₀ := by
  rcases @settles_requireExclusiveParent p w₀ {} parent with
    ⟨_, hrequire, hexclusive⟩ | ⟨e, out, hrequire, he⟩
  · obtain ⟨found, hfound⟩ := found_of_grounded hgrounded (parent, name)
    have hexisting := @goes_existing_found w₀ {} _ _ hfound
    cases found with
    | some st =>
      by_cases hwanted : st.info.kind = .directory ∧ isMatch p st = true
      · let o : Outcome := { failed := false, changed := false, path := p.path }
        have hkeep : ∀ b names, Goes (createDirectory { p with checkMode := b } (parent, name) names)
            w₀ {} (.error .exit) w₀ {} [o] := fun b _ =>
          goes_createDirectory_again (p := { p with checkMode := b }) hresolve hexclusive hfound
            hwanted.1 hwanted.2
        exact Or.inr ⟨o, w₀, {}, rfl, hkeep true, hkeep false names, fun _ => rfl, .refl w₀,
          hkeep false⟩
      · have hmsg : ∀ b names, Goes (createDirectory { p with checkMode := b } (parent, name) names)
            w₀ {} (.error .exit) w₀ {} [{
              failed := true, msg := "directory boundary has an unexpected identity or metadata"
              path := p.path }] := by
          intro b names
          refine Goes.bind (a := ()) hrequire (hexisting.bind (Goes.bind_error ?_))
          refine goes_if_neg (fun h => hwanted ?_) goes_failJson
          simp only [Bool.and_eq_true, decide_eq_true_eq] at h
          exact h
        exact Or.inl ⟨.exit, _, ⟨_, rfl, rfl⟩, hmsg true, hmsg false⟩
    | none =>
      let o : Outcome := { failed := false, changed := true, path := p.path }
      obtain ⟨wname, hmem, w₁, hmade, hworkspace⟩ :=
        @goes_privateWorkspace { p with checkMode := false } w₀ {} parent names hfree
      have hne : wname ≠ name := by
        rintro rfl
        exact hname hmem
      obtain ⟨w, v, n, hcommit, hinstalled, hready⟩ :=
        @goes_commitDirectory { p with checkMode := false } w₀ w₁ parent name wname hw₀ hmade hne
          hresolve hfound
      refine Or.inr ⟨o, w, v, rfl, fun names => ?_, ?_, fun h => (by cases h), hinstalled.dirs,
        fun names => ?_⟩
      · exact Goes.bind (a := ()) hrequire (hexisting.bind goes_exitJson)
      · exact Goes.bind (a := ()) hrequire (hexisting.bind (hworkspace.bind hcommit))
      · obtain ⟨f, hentry⟩ := hinstalled.target
        obtain ⟨m, hm, hholds⟩ := hexclusive
        obtain ⟨hkind, hmode, huid, hgid⟩ := hready
        have hexclusive : Exclusive p w parent :=
          ⟨m, hinstalled.dirs.inode_of_resolve hresolve hm, hholds⟩
        exact goes_createDirectory_again (p := { p with checkMode := false })
          (resolve_dirs hinstalled.dirs hresolve).1 hexclusive hentry hkind
          (by simp [isMatch, hmode, huid, hgid])
  · exact Or.inl ⟨e, out, he, fun _ => Goes.bind_error hrequire, fun _ => Goes.bind_error hrequire⟩

end

/-! ## 3. The module -/

/-- The request in check mode or in real mode. -/
def Request.inCheckMode (r : Request) (checkMode : Bool) : Request :=
  { r with params := { r.params with checkMode } }

/-- The request of a second run: a file is expected to have the checksum that was returned. -/
def Request.again (r : Request) (checksum : Option PyStr) : Request :=
  match r.state with
  | .directory => r
  | .file => { r with params := { r.params with expectedChecksum := checksum } }

/-- A run in which nothing fails and nobody interferes. -/
def run (r : Request) (names : List PyStr) (w : World PyStr) : State :=
  (main r names calm ⟨w, [], {}⟩).2

/-- The arguments that are validated. -/
def Valid (r : Request) (mode uid gid : Nat) : Prop :=
  parseMode r.mode = some mode ∧ r.owner = some uid ∧ r.group = some gid ∧
    (r.state = .file → effectiveUserCanRead r.params mode uid gid = true)

section

variable {r : Request} {mode uid gid : Nat} {w w' : World PyStr} {v v' : Flags} {names : List PyStr}
  {out : List Outcome}

theorem goes_validate (h : Valid r mode uid gid) :
    Goes (validate r) w v (.ok { r.params with mode, uid, gid }) w v [] := by
  obtain ⟨hmode, huid, hgid, hread⟩ := h
  unfold validate
  rw [hmode, huid, hgid]
  refine goes_if_neg (fun hbad => ?_) goes_pure
  rw [hread hbad.1] at hbad
  cases hbad.2

theorem goes_validate_error (h : ∀ mode uid gid, ¬ Valid r mode uid gid) :
    Goes (validate r) w v (.error .value) w v [] := by
  unfold validate
  split
  · next mode uid gid hmode huid hgid =>
    by_cases hbad : r.state = .file ∧ effectiveUserCanRead r.params mode uid gid = false
    · exact goes_if_pos hbad goes_raise
    · refine absurd ⟨hmode, huid, hgid, fun hstate => ?_⟩ (h mode uid gid)
      simpa [hstate] using hbad
  · exact goes_raise

theorem leads_of_walkAt {identities : Nat → Option (Option Nat)} {components : List PyStr} {d : Nat} :
    ∀ {depth current}, walkAt identities w depth current components = .ok d →
      Leads (fun k i => w.lookup k = some i) current components d := by
  induction components with
  | nil =>
    intro depth current h
    unfold walkAt at h
    split at h
    · exact (Except.ok.inj h).symm
    · cases h
  | cons name rest ih =>
    intro depth current h
    unfold walkAt at h
    cases hopen : directoryAt w (current, name) with
    | error e => simp [hopen, Except.bind] at h
    | ok following =>
      cases hknown : knownAt identities w (depth + 1) following with
      | error e => simp [hopen, hknown, Except.bind] at h
      | ok u =>
        simp only [hopen, hknown, Except.bind] at h
        obtain ⟨n, hk, -⟩ := directoryAt_eq_ok hopen
        exact ⟨following, hk, ih h⟩

theorem isParent_of_resolve {p : Params} {d : Nat} (h : resolve p w = .ok d) : IsParent p w d := by
  unfold resolve at h
  cases hopen : directoryAt w (p.root, "/") with
  | error e => simp [hopen, Except.bind] at h
  | ok current =>
    simp only [hopen, Except.bind] at h
    obtain ⟨n, hk, -⟩ := directoryAt_eq_ok hopen
    split at h
    · cases h
    · exact ⟨current, hk, leads_of_walkAt h⟩

/-- A transaction that ends the module. -/
theorem goes_main {parent : Nat} {e : Failure} (hvalid : Valid r mode uid gid)
    (hresolve : resolve r.params w = .ok parent)
    (h : Goes (transact r { r.params with mode, uid, gid } parent names) w v (.error e) w' v' out) :
    Goes (perform r names) w v (.error e) w' v' out := by
  have hclose : Goes (closeParent parent) w' v' (.ok ()) w' v' [] := goes_close.attempt.bind goes_pure
  refine (goes_validate hvalid).bind ?_
  exact Goes.bind (a := parent)
    (goes_openBoundDirectory_of (p := { r.params with mode, uid, gid }) hresolve) (h.ensuring hclose)

theorem run_of (h : Goes (main r names) w {} (.error .exit) w' v' out) :
    printed (run r names w).log = out ∧ (run r names w).world = w' := by
  obtain ⟨new, hnew, hout⟩ := h []
  unfold run
  rw [hnew, List.append_nil]
  exact ⟨hout, rfl⟩

/-- What the transaction printed is printed. -/
theorem run_exits (h : Goes (perform r names) w {} (.error .exit) w' v' out) :
    printed (run r names w).log = out ∧ (run r names w).world = w' :=
  run_of (h.attempt_uncaught rfl).bind_error

/-- A refusal is reported. -/
theorem run_refuses {e : Failure} (he : IsRefusal e out)
    (h : Goes (perform r names) w {} (.error e) w {} out) :
    ∃ o, printed (run r names w).log = [o] ∧ o.failed = true ∧ (run r names w).world = w := by
  have hfail : ∀ path, Goes (main r names) w {} (.error .exit) w {} [{
      failed := true, msg := "atomic path mutation failed", path := r.params.path
      recoveryPath := path }] →
      ∃ o, printed (run r names w).log = [o] ∧ o.failed = true ∧ (run r names w).world = w :=
    fun path hmain => ⟨_, (run_of hmain).1, rfl, (run_of hmain).2⟩
  cases e with
  | exit =>
    obtain ⟨o, rfl, ho⟩ := he
    exact ⟨o, (run_exits h).1, ho, (run_exits h).2⟩
  | preservedWorkspace path =>
    obtain rfl : out = [] := he
    exact hfail (some path) (Goes.bind (h.attempt_error rfl) goes_failJson)
  | os e =>
    obtain rfl : out = [] := he
    exact hfail none (Goes.bind (h.attempt_error rfl) goes_failJson)
  | preservedRecovery entry =>
    obtain rfl : out = [] := he
    exact hfail none (Goes.bind (h.attempt_error rfl) goes_failJson)
  | value =>
    obtain rfl : out = [] := he
    exact hfail none (Goes.bind (h.attempt_error rfl) goes_failJson)

/-- What check mode, a real run and a second run have to do with each other. -/
structure Agreement (r : Request) (names names' names'' : List PyStr) (w : World PyStr)
    (check real : Outcome) : Prop where
  checked : printed (run (r.inCheckMode true) names' w).log = [check]
  reported : printed (run (r.inCheckMode false) names w).log = [real]
  /-- Check mode changes nothing. -/
  dry : (run (r.inCheckMode true) names' w).world = w
  failed : check.failed = real.failed
  report : real.failed = false → check.changed = real.changed ∧ check.checksum = real.checksum
  /-- A run that reports no change changes nothing. -/
  unchanged : real.changed = false → (run (r.inCheckMode false) names w).world = w
  /-- After a success there is nothing left to do. -/
  again : real.failed = false →
    ∃ o, o.failed = false ∧ o.changed = false ∧
      printed (run ((r.inCheckMode false).again real.checksum) names''
        (run (r.inCheckMode false) names w).world).log = [o] ∧
      (run ((r.inCheckMode false).again real.checksum) names''
        (run (r.inCheckMode false) names w).world).world = (run (r.inCheckMode false) names w).world

theorem agreement_of_refusals {names' names'' : List PyStr} {e e' : Failure}
    {out' : List Outcome} (he : IsRefusal e out) (he' : IsRefusal e' out')
    (hcheck : Goes (perform (r.inCheckMode true) names') w {} (.error e) w {} out)
    (hreal : Goes (perform (r.inCheckMode false) names) w {} (.error e') w {} out') :
    ∃ check real, Agreement r names names' names'' w check real := by
  obtain ⟨check, hcheck, hfailed, hworld⟩ := run_refuses he hcheck
  obtain ⟨real, hreal, hfailed', hworld'⟩ := run_refuses he' hreal
  refine ⟨check, real, hcheck, hreal, hworld, hfailed.trans hfailed'.symm, fun h => ?_,
    fun _ => hworld', fun h => ?_⟩
  · rw [hfailed'] at h
    cases h
  · rw [hfailed'] at h
    cases h

/-- The three transactions of a request. -/
def TransactionsAgree (r : Request) (p : Params) (parent : Nat) (names : List PyStr)
    (w : World PyStr) : Prop :=
  Agrees (transact (r.inCheckMode true) { p with checkMode := true } parent)
    (transact (r.inCheckMode false) { p with checkMode := false } parent)
    (fun checksum => transact ((r.inCheckMode false).again checksum)
      { ((r.inCheckMode false).again checksum).params with
        mode := p.mode, uid := p.uid, gid := p.gid } parent) names w

theorem transact_agrees {parent : Nat} (hw : w.Wf) (hgrounded : Grounded w)
    (hresolve : resolve r.params w = .ok parent) (hvalid : Valid r mode uid gid)
    (hname : r.name ∉ names) (hfree : ∃ name ∈ names, w.lookup (parent, name) = none) :
    TransactionsAgree r { r.params with mode, uid, gid } parent names w := by
  unfold TransactionsAgree transact Request.again Request.inCheckMode
  cases hstate : r.state with
  | directory =>
    exact createDirectory_agrees (p := { r.params with mode, uid, gid }) hw hgrounded hresolve hname
      hfree
  | file =>
    exact writeFile_agrees (p := { r.params with mode, uid, gid }) hw hgrounded hresolve
      (hvalid.2.2.2 hstate) hname hfree

theorem Valid.again (h : Valid r mode uid gid) (checksum : Option PyStr) :
    Valid ((r.inCheckMode false).again checksum) mode uid gid := by
  unfold Request.again
  split <;> exact h

theorem resolve_again (checksum : Option PyStr) :
    resolve ((r.inCheckMode false).again checksum).params w = resolve r.params w := by
  unfold Request.again
  split <;> rfl

/-- **Check mode, real mode and a second run agree**, where no system call fails and nobody
interferes: check mode changes nothing, it fails when the real run fails and otherwise reports the
same; a real run that reports no change changes nothing; and after a real run that succeeds, a second
one has nothing to do.  `names` are the random names that the workspace of the real run can get. -/
theorem main_agrees (hw : w.Wf) (hgrounded : Grounded w) (hname : r.name ∉ names)
    (hfree : ∀ parent, IsParent r.params w parent →
      ∃ name ∈ names, w.lookup (parent, name) = none) (names' names'' : List PyStr) :
    ∃ check real, Agreement r names names' names'' w check real := by
  by_cases hvalid : ∃ mode uid gid, Valid r mode uid gid
  · obtain ⟨mode, uid, gid, hvalid⟩ := hvalid
    cases hresolve : resolve r.params w with
    | error e =>
      have hrefuses : ∀ b names, Goes (perform (r.inCheckMode b) names) w {} (.error (.os e)) w {}
          [] := by
        intro b names
        have hopen := @goes_openBoundDirectory { r.params with mode, uid, gid, checkMode := b } w {}
        have hresolve' : resolve { r.params with mode, uid, gid, checkMode := b } w = .error e :=
          hresolve
        rw [hresolve'] at hopen
        exact (goes_validate (r := r.inCheckMode b) hvalid).bind hopen.bind_error
      have he : IsRefusal (.os e) [] := rfl
      exact agreement_of_refusals he he (hrefuses true names') (hrefuses false names)
    | ok parent =>
      rcases transact_agrees hw hgrounded hresolve hvalid hname
        (hfree parent (isParent_of_resolve hresolve)) with
        ⟨e, out, he, hcheck, hreal⟩ | ⟨o, w', v', ho, hcheck, hreal, hsame, hdirs, hagain⟩
      · exact agreement_of_refusals he he
          (goes_main (r := r.inCheckMode true) hvalid hresolve (hcheck names'))
          (goes_main (r := r.inCheckMode false) hvalid hresolve (hreal names))
      · have hcheck' := run_exits (goes_main (r := r.inCheckMode true) hvalid hresolve (hcheck names'))
        have hreal' := run_exits (goes_main (r := r.inCheckMode false) hvalid hresolve (hreal))
        have hresolve' : resolve ((r.inCheckMode false).again o.checksum).params w' = .ok parent := by
          rw [resolve_again]
          exact (resolve_dirs hdirs hresolve).1
        have hagain' := run_exits (goes_main (hvalid.again o.checksum) hresolve' (hagain names''))
        refine ⟨o, o, hcheck'.1, hreal'.1, hcheck'.2, rfl, fun _ => ⟨rfl, rfl⟩, fun h => ?_,
          fun _ => ⟨{ o with changed := false }, ho, rfl, ?_⟩⟩
        · rw [hreal'.2, hsame h]
        · rw [hreal'.2]
          exact hagain'
  · have hinvalid : ∀ mode uid gid, ¬ Valid r mode uid gid := fun mode uid gid h =>
      hvalid ⟨mode, uid, gid, h⟩
    have hrefuses : ∀ b names, Goes (perform (r.inCheckMode b) names) w {} (.error .value) w {} [] :=
      fun b names => (goes_validate_error (r := r.inCheckMode b) hinvalid).bind_error
    have he : IsRefusal .value [] := rfl
    exact agreement_of_refusals he he (hrefuses true names') (hrefuses false names)

end

theorem grounded_sampleWorld : Grounded sampleWorld := by
  intro k i hi
  have hmem := World.lookup_mem hi
  simp only [sampleWorld, List.mem_cons, List.not_mem_nil, or_false, Prod.mk.injEq] at hmem
  rcases hmem with ⟨-, rfl⟩ | ⟨-, rfl⟩
  · exact ⟨_, rfl⟩
  · exact ⟨_, rfl⟩

theorem main_agrees_sample :
    ∃ check real, Agreement sampleRequest ["w"] [] [] sampleWorld check real := by
  refine main_agrees wf_sampleWorld grounded_sampleWorld (by decide) (fun parent hparent => ?_) [] []
  obtain rfl := Leads.unique isParent_sampleWorld hparent
  exact ⟨"w", List.mem_cons_self, by decide⟩

end Supplementary.Atomic.Path
