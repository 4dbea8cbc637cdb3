/-
# Path transactions in which nothing fails

Without faults a transaction is a function of the world.  First what it decides from what it sees,
for better or worse, and then what the steps of its happy way leave.
-/
import Supplementary.Atomic.PathSteps
import Supplementary.Lib.Calm

namespace Supplementary.Atomic.Path

open Machine Posix

section

variable {p : Params} {α β : Type} {w w₁ w₂ : World PyStr} {v v₁ v₂ : Flags} {k : Key PyStr}
  {i : Nat} {n : Inode} {out : List Outcome}

/-! ## 1. Single steps -/

theorem goes_sys {a : α} {x : Posix.Sys PyStr Outcome Flags α} (h : Goes x w v (.ok a) w₁ v₁ out) :
    Goes (sys x) w v (.ok a) w₁ v₁ out := h.mapError

theorem goes_sys_error {e : Errno} {x : Posix.Sys PyStr Outcome Flags α}
    (h : Goes x w v (.error (.os e)) w₁ v₁ out) : Goes (sys x) w v (.error (.os e)) w₁ v₁ out :=
  h.mapError

theorem goes_if_pos {c : Prop} [Decidable c] {x y : Sys α} {r : Except Failure α} (hc : c)
    (hx : Goes x w v r w₁ v₁ out) : Goes (if c then x else y) w v r w₁ v₁ out := by
  rw [if_pos hc]
  exact hx

theorem goes_if_neg {c : Prop} [Decidable c] {x y : Sys α} {r : Except Failure α} (hc : ¬ c)
    (hy : Goes y w v r w₁ v₁ out) : Goes (if c then x else y) w v r w₁ v₁ out := by
  rw [if_neg hc]
  exact hy

theorem goes_demand {holds : Bool} (h : holds = true) :
    Goes (demand holds) w v (.ok ()) w v [] := goes_if_pos h goes_pure

theorem goes_require {holds : Bool} {msg : String} (h : holds = true) :
    Goes (require p holds msg) w v (.ok ()) w v [] := goes_if_pos h goes_pure

theorem goes_failJson {msg : String} {path : Option PyStr} :
    Goes (failJson (α := α) p msg path) w v (.error .exit) w v
      [{ failed := true, msg, path := p.path, recoveryPath := path }] := by
  intro log
  exact ⟨[⟨.print _, w, w, true⟩], rfl, rfl⟩

theorem goes_exitJson {changed : Bool} {checksum : Option PyStr} :
    Goes (exitJson (α := α) p changed checksum) w v (.error .exit) w v
      [{ failed := false, changed, path := p.path, checksum }] := by
  intro log
  exact ⟨[⟨.print _, w, w, true⟩], rfl, rfl⟩

theorem goes_close : Goes (sys (close i)) w v (.ok ()) w v [] := goes_sys (goes_syscall rfl rfl)

theorem goes_fsync : Goes (sys (fsync i)) w v (.ok ()) w v [] := goes_sys (goes_syscall rfl rfl)

theorem goes_look (hn : w.inode i = some n) :
    Goes (sys (fstat i)) w v (.ok ⟨i, n⟩) w v [] := goes_sys (goes_fstat hn)

theorem goes_checksum (hn : w.inode i = some n) :
    Goes (checksum i) w v (.ok (Sha256.hexdigest n.bytes)) w v [] :=
  goes_sys (Goes.bind (goes_syscall rfl rfl) ((goes_readAll hn).bind goes_pure))

theorem goes_existing (hk : w.lookup k = some i) (hn : w.inode i = some n) :
    Goes (existing k) w v (.ok (some ⟨i, n⟩)) w v [] :=
  (goes_sys (goes_stat hk hn)).attempt.bind goes_pure

theorem goes_existing_none (hk : w.lookup k = none) :
    Goes (existing k) w v (.ok none) w v [] := by
  have hstat : Goes (sys (stat k)) w v (.error (.os .noent)) w v [] :=
    goes_sys_error (goes_syscall_error (by simp [World.find_none hk, Except.map]) rfl)
  exact Goes.bind (hstat.attempt_error rfl) goes_pure

theorem goes_fsyncDirectory : Goes (fsyncDirectory i) w v (.ok ()) w v [] :=
  goes_fsync.attempt.bind goes_pure

theorem sameIdentity_self (st : Stat) : st.sameIdentity st = true := by
  simp [Stat.sameIdentity]

theorem sameSnapshot_self (st : Stat) : st.sameSnapshot st = true := by
  simp [Stat.sameSnapshot, sameIdentity_self]

theorem sameEntrySnapshot_self (st : Option Stat) : sameEntrySnapshot st st = true := by
  cases st with
  | none => rfl
  | some st =>
    simp only [sameEntrySnapshot]
    split
    · next h =>
      have hkind : st.info.kind = .directory := h.elim id id
      simp [sameDirectoryIdentity, sameInode, hkind]
    · exact sameSnapshot_self st

theorem goes_openForReading (hk : w.lookup k = some i) (hn : w.inode i = some n)
    (hread : effectiveUserCanRead p n.mode n.uid n.gid = true) :
    Goes (openForReading p k) w v (.ok i) w v [] := goes_sys (goes_openReadable hk hn hread)

theorem goes_verifiedFile (hk : w.lookup k = some i) (hn : w.inode i = some n)
    (hread : effectiveUserCanRead p n.mode n.uid n.gid = true) {expected : Stat}
    (hexpected : (⟨i, n⟩ : Stat).sameIdentity expected = true) {text : PyStr}
    (htext : Sha256.hexdigest n.bytes = text) :
    Goes (verifiedFile p k expected text) w v (.ok true) w v [] := by
  refine (goes_openForReading hk hn hread).attempt.bind ?_
  refine Goes.ensuring ?_ goes_close
  refine (goes_look hn).bind (goes_if_pos hexpected ?_)
  refine (goes_checksum hn).bind (goes_if_pos htext ?_)
  rw [← sameSnapshot_self ⟨i, n⟩]
  exact (goes_look hn).bind goes_pure

theorem goes_verifiedDescriptor (hn : w.inode i = some n) {text : PyStr}
    (htext : Sha256.hexdigest n.bytes = text) :
    Goes (verifiedDescriptor i ⟨i, n⟩ text) w v (.ok true) w v [] := by
  refine (goes_look hn).bind (goes_if_pos (sameSnapshot_self _) ?_)
  refine (goes_checksum hn).bind (goes_if_pos htext ?_)
  rw [← sameSnapshot_self ⟨i, n⟩]
  exact (goes_look hn).bind goes_pure

/-! ## 2. The walk -/

/-- The directory behind an entry. -/
def directoryAt (w : World PyStr) (k : Key PyStr) : Except Errno Nat :=
  (w.find k).bind fun st => if st.info.kind = .directory then .ok st.ino else .error .notdir

/-- A known identity is compared. -/
def knownAt (identities : Nat → Option (Option Nat)) (w : World PyStr) (depth i : Nat) :
    Except Errno Unit :=
  match identities depth with
  | none => .ok ()
  | some none => .error (.other 0)
  | some (some identity) =>
    match w.inode i with
    | none => .error (.other 9)
    | some _ => if i = identity then .ok () else .error (.other 0)

/-- Where the walk leads. -/
def walkAt (identities : Nat → Option (Option Nat)) (w : World PyStr) :
    (depth current : Nat) → List PyStr → Except Errno Nat
  | depth, current, [] => if (identities depth).isSome then .ok current else .error (.other 0)
  | depth, current, name :: rest =>
    (directoryAt w (current, name)).bind fun following =>
      (knownAt identities w (depth + 1) following).bind fun _ =>
        walkAt identities w (depth + 1) following rest

/-- The directory that the module opens. -/
def resolve (p : Params) (w : World PyStr) : Except Errno Nat :=
  (directoryAt w (p.root, "/")).bind fun current =>
    (if p.components = [] ∧ (p.identities 0).isNone then .error (.other 0)
      else knownAt p.identities w 0 current).bind fun _ =>
        walkAt p.identities w 0 current p.components

theorem goes_openDirectory_at :
    Goes (sys (openDirectory k)) w v ((directoryAt w k).mapError .os) w v [] := by
  unfold directoryAt
  cases hfind : w.find k with
  | error e => exact goes_sys_error (goes_syscall_error (by simp [hfind, Except.bind]) rfl)
  | ok st =>
    simp only [Except.bind]
    split
    · next hkind =>
      exact goes_sys (goes_syscall (by simp [hfind, Except.bind, hkind]) rfl)
    · next hkind =>
      exact goes_sys_error (goes_syscall_error (by simp [hfind, Except.bind, hkind]) rfl)

theorem goes_closing {x : Sys α} {r : Except Errno α}
    (hx : Goes x w v (r.mapError .os) w v []) : Goes (closing i x) w v (r.mapError .os) w v [] := by
  cases r with
  | ok a => exact hx.attempt.bind goes_pure
  | error e =>
    refine Goes.bind (hx.attempt_error rfl) ?_
    exact Goes.bind goes_close.attempt goes_raise

theorem goes_closePrevious {j : Nat} : Goes (closePrevious i j) w v (.ok ()) w v [] :=
  goes_close.attempt.bind goes_pure

theorem goes_checkKnown {depth : Nat} :
    Goes (checkKnown p depth i) w v ((knownAt p.identities w depth i).mapError .os) w v [] := by
  unfold checkKnown knownAt checkIdentity
  cases p.identities depth with
  | none => exact goes_pure
  | some expected =>
    cases expected with
    | none => exact goes_raise
    | some identity =>
      simp only
      cases hn : w.inode i with
      | none =>
        exact (goes_sys_error (goes_syscall_error (by simp [hn]) rfl)).bind_error
      | some n =>
        refine (goes_look hn).bind ?_
        by_cases hi : i = identity
        · rw [if_pos hi]
          exact goes_demand (by simpa using hi)
        · rw [if_neg hi]
          exact goes_if_neg (by simpa using hi) goes_raise

/-- A bind of steps that do not change anything. -/
theorem Goes.still_bind {x : Sys α} {f : α → Sys β} {r : Except Errno α} {g : α → Except Errno β}
    (hx : Goes x w v (r.mapError .os) w v [])
    (hf : ∀ a, Goes (f a) w v ((g a).mapError .os) w v []) :
    Goes (x >>= f) w v ((r.bind g).mapError .os) w v [] := by
  cases r with
  | ok a => exact hx.bind (hf a)
  | error e => exact hx.bind_error

theorem goes_walk (components : List PyStr) : ∀ depth current,
    Goes (walk p depth current components) w v
      ((walkAt p.identities w depth current components).mapError .os) w v [] := by
  induction components with
  | nil =>
    intro depth current
    unfold walk walkAt
    refine goes_closing ?_
    by_cases hknown : (p.identities depth).isSome = true
    · rw [if_pos hknown, if_pos hknown]
      exact goes_pure
    · rw [if_neg hknown, if_neg hknown]
      exact goes_raise
  | cons name rest ih =>
    intro depth current
    unfold walk walkAt
    refine Goes.still_bind (goes_closing goes_openDirectory_at) fun following => ?_
    refine goes_closePrevious.bind ?_
    exact Goes.still_bind (goes_closing goes_checkKnown) fun _ => ih (depth + 1) following

theorem goes_openBoundDirectory :
    Goes (openBoundDirectory p) w v ((resolve p w).mapError .os) w v [] := by
  unfold openBoundDirectory resolve
  refine Goes.still_bind goes_openDirectory_at fun current => ?_
  refine Goes.still_bind (goes_closing ?_) fun _ => goes_walk p.components 0 current
  by_cases h : p.components = [] ∧ (p.identities 0).isNone = true
  · rw [if_pos h, if_pos h]
    exact goes_raise
  · rw [if_neg h, if_neg h]
    exact goes_checkKnown

/-- The directories and their entries are still there. -/
def Dirs (w w' : World PyStr) : Prop :=
  ∀ k i n, w.lookup k = some i → w.inode i = some n → n.kind = .directory →
    w'.lookup k = some i ∧ w'.inode i = some n

theorem Dirs.refl (w : World PyStr) : Dirs w w := fun _ _ _ hk hn _ => ⟨hk, hn⟩

theorem directoryAt_eq_ok (h : directoryAt w k = .ok i) :
    ∃ n, w.lookup k = some i ∧ w.inode i = some n ∧ n.kind = .directory := by
  unfold directoryAt at h
  cases hfind : w.find k with
  | error e => simp [hfind, Except.bind] at h
  | ok st =>
    simp only [hfind, Except.bind] at h
    split at h
    · next hkind =>
      cases h
      obtain ⟨hk, hn⟩ := World.find_eq_ok hfind
      exact ⟨st.info, hk, hn, hkind⟩
    · cases h

theorem directoryAt_of (hk : w.lookup k = some i) (hn : w.inode i = some n)
    (hkind : n.kind = .directory) : directoryAt w k = .ok i := by
  simp only [directoryAt, World.find_of hk hn, Except.bind, if_pos hkind]

/-- The walk leads to the same directory as long as the directories stay. -/
theorem walkAt_dirs {identities : Nat → Option (Option Nat)} (hdirs : Dirs w w₁)
    {components : List PyStr} {d : Nat} : ∀ {depth current},
    (∃ k n, w.lookup k = some current ∧ w.inode current = some n ∧ n.kind = .directory) →
    walkAt identities w depth current components = .ok d →
      walkAt identities w₁ depth current components = .ok d ∧
        ∃ k n, w.lookup k = some d ∧ w.inode d = some n ∧ n.kind = .directory := by
  induction components with
  | nil =>
    intro depth current hcurrent h
    unfold walkAt at h ⊢
    split at h
    · cases h
      exact ⟨by rw [if_pos ‹_›], hcurrent⟩
    · cases h
  | cons name rest ih =>
    intro depth current hcurrent h
    unfold walkAt at h ⊢
    cases hopen : directoryAt w (current, name) with
    | error e => simp [hopen, Except.bind] at h
    | ok following =>
      obtain ⟨n, hk, hn, hkind⟩ := directoryAt_eq_ok hopen
      obtain ⟨hk', hn'⟩ := hdirs _ _ _ hk hn hkind
      rw [directoryAt_of hk' hn' hkind]
      simp only [hopen, Except.bind] at h ⊢
      have hsame : knownAt identities w₁ (depth + 1) following =
          knownAt identities w (depth + 1) following := by
        simp only [knownAt, hn, hn']
      rw [hsame]
      cases hknown : knownAt identities w (depth + 1) following with
      | error e => simp [hknown] at h
      | ok u =>
        simp only [hknown] at h ⊢
        exact ih ⟨_, n, hk, hn, hkind⟩ h

theorem resolve_dirs (hdirs : Dirs w w₁) {d : Nat} (h : resolve p w = .ok d) :
    resolve p w₁ = .ok d ∧ ∃ k n, w.lookup k = some d ∧ w.inode d = some n ∧ n.kind = .directory := by
  unfold resolve at h ⊢
  cases hopen : directoryAt w (p.root, "/") with
  | error e => simp [hopen, Except.bind] at h
  | ok current =>
    obtain ⟨n, hk, hn, hkind⟩ := directoryAt_eq_ok hopen
    obtain ⟨hk', hn'⟩ := hdirs _ _ _ hk hn hkind
    rw [directoryAt_of hk' hn' hkind]
    have hsame : knownAt p.identities w₁ 0 current = knownAt p.identities w 0 current := by
      simp only [knownAt, hn, hn']
    simp only [hopen, Except.bind] at h ⊢
    rw [hsame]
    split at h
    · cases h
    · exact walkAt_dirs hdirs ⟨_, n, hk, hn, hkind⟩ h

theorem goes_openBoundDirectory_of {d : Nat} (h : resolve p w = .ok d) :
    Goes (openBoundDirectory p) w v (.ok d) w v [] := by
  have hgoes := @goes_openBoundDirectory p w v
  rw [h] at hgoes
  exact hgoes

/-- The target is seen through the canonical path. -/
theorem goes_revalidatedEntry {parent : Nat} {name : PyStr} {m : Inode}
    (hresolve : resolve p w = .ok parent) (hparent : w.inode parent = some m)
    (hk : w.lookup (parent, name) = some i) (hn : w.inode i = some n) :
    Goes (revalidatedEntry p (parent, name)) w v (.ok (some ⟨i, n⟩)) w v [] := by
  have hsame : sameInode ⟨parent, m⟩ ⟨parent, m⟩ = true := by simp [sameInode]
  refine (goes_look hparent).bind ?_
  have hseen : Goes (seenThrough p ⟨parent, m⟩ name) w v (.ok (some ⟨i, n⟩)) w v [] := by
    refine (goes_openBoundDirectory_of hresolve).bind (Goes.ensuring ?_ goes_close)
    refine (goes_look hparent).bind ((goes_demand hsame).bind ?_)
    exact goes_existing hk hn
  refine hseen.bind ((goes_openBoundDirectory_of hresolve).bind (Goes.ensuring ?_ goes_close))
  refine (goes_look hparent).bind ((goes_demand hsame).bind ?_)
  refine (goes_existing hk hn).bind ?_
  exact (goes_demand (sameEntrySnapshot_self _)).bind goes_pure

/-! ## 3. Steps that may refuse -/

/-- A refusal is a report of failure, or an exception that is no exit. -/
def IsRefusal : Failure → List Outcome → Prop
  | .exit, out => ∃ o, out = [o] ∧ o.failed = true
  | _, out => out = []

/-- Nothing is changed: the program returns what `Q` says, or it refuses. -/
def Settles (x : Sys α) (w : World PyStr) (v : Flags) (Q : α → Prop) : Prop :=
  (∃ a, Goes x w v (.ok a) w v [] ∧ Q a) ∨
    ∃ e out, Goes x w v (.error e) w v out ∧ IsRefusal e out

section

variable {x : Sys α} {f : α → Sys β} {Q : α → Prop} {R : β → Prop}

theorem settles_of {a : α} (h : Goes x w v (.ok a) w v []) (ha : Q a) : Settles x w v Q :=
  Or.inl ⟨a, h, ha⟩

theorem settles_pure {a : α} (ha : Q a) : Settles (pure a) w v Q := settles_of goes_pure ha

theorem settles_failJson {msg : String} {path : Option PyStr} :
    Settles (failJson p msg path) w v Q := Or.inr ⟨_, _, goes_failJson, _, rfl, rfl⟩

theorem settles_raiseOs : Settles raiseOs w v Q := Or.inr ⟨_, _, goes_raise, rfl⟩

theorem Settles.bind (hx : Settles x w v Q) (hf : ∀ a, Q a → Settles (f a) w v R) :
    Settles (x >>= f) w v R := by
  rcases hx with ⟨a, hgoes, ha⟩ | ⟨e, out, hgoes, he⟩
  · rcases hf a ha with ⟨b, hgoes', hb⟩ | ⟨e, out, hgoes', he⟩
    · exact Or.inl ⟨b, hgoes.bind hgoes', hb⟩
    · exact Or.inr ⟨e, out, hgoes.bind hgoes', he⟩
  · exact Or.inr ⟨e, out, hgoes.bind_error, he⟩

theorem Settles.weaken {Q' : α → Prop} (hx : Settles x w v Q) (hQ : ∀ a, Q a → Q' a) :
    Settles x w v Q' := by
  rcases hx with ⟨a, hgoes, ha⟩ | hrefusal
  · exact Or.inl ⟨a, hgoes, hQ a ha⟩
  · exact Or.inr hrefusal

theorem Settles.after {a : α} (hx : Goes x w v (.ok a) w v []) (hf : Settles (f a) w v R) :
    Settles (x >>= f) w v R :=
  Settles.bind (settles_of (Q := fun b => b = a) hx rfl) fun b hb => by
    rw [hb]
    exact hf

theorem Settles.ensuring {last : Sys Unit} (hx : Settles x w v Q)
    (hlast : Goes last w v (.ok ()) w v []) : Settles (Program.ensuring x last) w v Q := by
  rcases hx with ⟨a, hgoes, ha⟩ | ⟨e, out, hgoes, he⟩
  · exact Or.inl ⟨a, hgoes.ensuring hlast, ha⟩
  · exact Or.inr ⟨e, out, hgoes.ensuring hlast, he⟩

end

theorem settles_demand {holds : Bool} : Settles (demand holds) w v fun _ => holds = true := by
  by_cases h : holds = true
  · exact settles_of (goes_demand h) h
  · unfold demand
    rw [if_neg h]
    exact settles_raiseOs

theorem settles_require {holds : Bool} {msg : String} :
    Settles (require p holds msg) w v fun _ => holds = true := by
  by_cases h : holds = true
  · exact settles_of (goes_require h) h
  · unfold require
    rw [if_neg h]
    exact settles_failJson

theorem settles_look : Settles (sys (fstat i)) w v fun st => st.ino = i ∧ w.inode i = some st.info := by
  cases hn : w.inode i with
  | some n => exact settles_of (goes_look hn) ⟨rfl, rfl⟩
  | none =>
    exact Or.inr ⟨_, _, goes_sys_error (goes_syscall_error (e := .other 9) (by simp [hn]) rfl), rfl⟩

/-- Every entry leads to an inode. -/
def Grounded (w : World PyStr) : Prop := ∀ k i, w.lookup k = some i → ∃ n, w.inode i = some n

/-- What an entry is found to be. -/
def Found (w : World PyStr) (k : Key PyStr) : Option Stat → Prop
  | none => w.lookup k = none
  | some st => w.lookup k = some st.ino ∧ w.inode st.ino = some st.info

theorem goes_existing_found {found : Option Stat} (h : Found w k found) :
    Goes (existing k) w v (.ok found) w v [] := by
  cases found with
  | none => exact goes_existing_none h
  | some st => exact goes_existing h.1 h.2

theorem found_of_grounded (hw : Grounded w) (k : Key PyStr) : ∃ found, Found w k found := by
  cases hk : w.lookup k with
  | none => exact ⟨none, hk⟩
  | some i =>
    obtain ⟨n, hn⟩ := hw k i hk
    exact ⟨some ⟨i, n⟩, hk, hn⟩

/-! ## 4. The parent directory and the target -/

/-- Only the effective user can write to the directory. -/
def Exclusive (p : Params) (w : World PyStr) (parent : Nat) : Prop :=
  ∃ m, w.inode parent = some m ∧ (m.uid = p.euid && m.mode &&& 0o022 = 0) = true

theorem settles_requireExclusiveParent :
    Settles (requireExclusiveParent p i) w v fun _ => Exclusive p w i := by
  refine settles_look.bind fun st hst => settles_demand.bind fun _ hholds => ?_
  exact settles_of (goes_sys (goes_syscall rfl rfl)) ⟨st.info, hst.2, hholds⟩

theorem goes_requireExclusiveParent (h : Exclusive p w i) :
    Goes (requireExclusiveParent p i) w v (.ok ()) w v [] := by
  obtain ⟨m, hm, hholds⟩ := h
  exact (goes_look hm).bind ((goes_demand hholds).bind (goes_sys (goes_syscall rfl rfl)))

theorem settles_encodeContent :
    Settles (encodeContent p) w v fun payload => p.content.bind PyStr.utf8Encode = some payload := by
  unfold encodeContent
  cases hcontent : p.content with
  | none => exact settles_failJson
  | some content =>
    dsimp only [Option.bind]
    cases hpayload : content.utf8Encode with
    | none => exact Or.inr ⟨_, _, goes_raise, rfl⟩
    | some payload => exact settles_pure rfl

theorem goes_encodeContent {payload : List UInt8}
    (h : p.content.bind PyStr.utf8Encode = some payload) :
    Goes (encodeContent p) w v (.ok payload) w v [] := by
  obtain ⟨content, hcontent, hpayload⟩ := Option.bind_eq_some_iff.mp h
  unfold encodeContent
  simp only [hcontent, hpayload]
  exact goes_pure

theorem settles_checkExpected : Settles (checkExpected p) w v fun _ => True := by
  unfold checkExpected
  split
  · exact settles_pure trivial
  · exact settles_require.weaken fun _ _ => trivial

/-- What a new file replaces: a file of the wanted metadata with the expected checksum. -/
def Bound (p : Params) (w : World PyStr) (target : Key PyStr) : Option (Stat × PyStr) → Prop
  | none => w.lookup target = none
  | some (st, text) => Found w target (some st) ∧ st.info.kind = .regular ∧ isMatch p st = true ∧
      p.expectedChecksum = some text ∧ Sha256.hexdigest st.info.bytes = text

variable {target : Key PyStr} {before : Stat} {expected : PyStr}

theorem settles_bindExisting (hfound : Found w target (some before)) :
    Settles (bindExisting p target before expected) w v
      fun st => st = before ∧ Sha256.hexdigest before.info.bytes = expected := by
  obtain ⟨hk, hn⟩ := hfound
  by_cases hread : effectiveUserCanRead p before.info.mode before.info.uid before.info.gid = true
  · refine Settles.after (goes_openForReading hk hn hread) (Settles.ensuring ?_ goes_close)
    refine Settles.after (goes_look hn) (Settles.after (goes_require (sameSnapshot_self _)) ?_)
    refine Settles.after (goes_checksum hn) (settles_require.bind fun _ htext => ?_)
    refine Settles.after (goes_look hn) (Settles.after (goes_require (sameSnapshot_self _)) ?_)
    exact settles_pure ⟨rfl, by simpa using htext⟩
  · have hopen : Goes (openForReading p target) w v (.error (.os (.other 13))) w v [] :=
      goes_sys_error (goes_syscall_error
        (by simp only [World.find_of hk hn, Except.bind, if_neg hread]) rfl)
    exact Or.inr ⟨_, _, hopen.bind_error, rfl⟩

theorem goes_bindExisting (hfound : Found w target (some before))
    (hread : effectiveUserCanRead p before.info.mode before.info.uid before.info.gid = true)
    (htext : Sha256.hexdigest before.info.bytes = expected) :
    Goes (bindExisting p target before expected) w v (.ok before) w v [] := by
  obtain ⟨hk, hn⟩ := hfound
  refine (goes_openForReading hk hn hread).bind (Goes.ensuring ?_ goes_close)
  refine (goes_look hn).bind ((goes_require (sameSnapshot_self _)).bind ?_)
  refine (goes_checksum hn).bind ((goes_require (by simpa using htext)).bind ?_)
  exact (goes_look hn).bind ((goes_require (sameSnapshot_self _)).bind goes_pure)

theorem settles_bindBefore {found : Option Stat} (hfound : Found w target found) :
    Settles (bindBefore p target found) w v (Bound p w target) := by
  cases found with
  | none => exact settles_require.bind fun _ _ => settles_pure hfound
  | some st =>
    refine settles_require.bind fun _ hmatch => ?_
    simp only [Bool.and_eq_true, decide_eq_true_eq] at hmatch
    cases hexpected : p.expectedChecksum with
    | none => exact settles_failJson
    | some text =>
      refine (settles_bindExisting hfound).bind fun bound hbound => ?_
      obtain ⟨rfl, htext⟩ := hbound
      exact settles_pure ⟨hfound, hmatch.1, hmatch.2, hexpected, htext⟩

/-- A file that is bound has passed every check. -/
theorem goes_bindBefore (hbound : Bound p w target (some (before, expected)))
    (hread : effectiveUserCanRead p p.mode p.uid p.gid = true) :
    Goes (bindBefore p target (some before)) w v (.ok (some (before, expected))) w v [] := by
  obtain ⟨hfound, hkind, hmatch, hexpected, htext⟩ := hbound
  have hmeta := hmatch
  simp only [isMatch, Bool.and_eq_true, decide_eq_true_eq] at hmeta
  refine (goes_require (by simp [hkind, hmatch])).bind ?_
  rw [hexpected]
  refine (goes_bindExisting hfound ?_ htext).bind goes_pure
  rw [hmeta.1.1, hmeta.1.2, hmeta.2]
  exact hread

/-- The new content and what it replaces, if nothing is refused. -/
structure Prepared (p : Params) (w : World PyStr) (target : Key PyStr) (payload : List UInt8)
    (before : Option (Stat × PyStr)) : Prop where
  exclusive : Exclusive p w target.1
  content : p.content.bind PyStr.utf8Encode = some payload
  bound : Bound p w target before

theorem settles_prepareFile (hw : Grounded w) :
    Settles (prepareFile p target) w v fun r => Prepared p w target r.1 r.2 := by
  refine settles_requireExclusiveParent.bind fun _ hexclusive => ?_
  refine settles_encodeContent.bind fun payload hpayload => ?_
  obtain ⟨found, hfound⟩ := found_of_grounded hw target
  refine Settles.after (goes_existing_found hfound) (settles_checkExpected.bind fun _ _ => ?_)
  refine (settles_bindBefore hfound).bind fun before hbound => ?_
  exact settles_pure ⟨hexclusive, hpayload, hbound⟩

/-- A file that is there is prepared again. -/
theorem goes_prepareFile {payload : List UInt8}
    (h : Prepared p w target payload (some (before, expected))) (hdigest : isDigest expected = true)
    (hread : effectiveUserCanRead p p.mode p.uid p.gid = true) :
    Goes (prepareFile p target) w v (.ok (payload, some (before, expected))) w v [] := by
  refine (goes_requireExclusiveParent h.exclusive).bind ((goes_encodeContent h.content).bind ?_)
  refine (goes_existing_found h.bound.1).bind ?_
  refine Goes.bind (a := ()) ?_ ((goes_bindBefore h.bound hread).bind goes_pure)
  unfold checkExpected
  rw [h.bound.2.2.2.1]
  exact goes_require hdigest

end

end Supplementary.Atomic.Path
