/-
# Runs in which nothing fails

Where no call is made to fail and nobody interferes, a program is a function of the world and of its
variables.  `Goes x w v r w' v' out` says what comes of it, and what it prints on the way.
-/
import Supplementary.Lib.Posix

namespace Posix

open Machine

variable {Name Result Vars Err α β : Type}

/-- Nothing fails and nobody interferes. -/
def calm : Env (World Name) Fault := ⟨fun _ => none, fun _ w => w⟩

/-- What has been printed, the newest first. -/
def printed (log : List (Step (World Name) (Call Name Result))) : List Result :=
  log.filterMap fun e => match e.call with
    | .print r => some r
    | _ => none

theorem printed_append (log log' : List (Step (World Name) (Call Name Result))) :
    printed (log ++ log') = printed log ++ printed log' := List.filterMap_append ..

/-! ## 1. What comes of a program -/

/-- The program ends with `r`, in this world and with these variables, and prints `out`. -/
def Goes (x : Program (World Name) (Call Name Result) Fault Vars Err α) (w : World Name) (v : Vars)
    (r : Except Err α) (w' : World Name) (v' : Vars) (out : List Result) : Prop :=
  ∀ log, ∃ new, x calm ⟨w, log, v⟩ = (r, ⟨w', new ++ log, v'⟩) ∧ printed new = out

section

variable {x : Program (World Name) (Call Name Result) Fault Vars Err α}
  {f : α → Program (World Name) (Call Name Result) Fault Vars Err β} {w w₁ w₂ : World Name}
  {v v₁ v₂ : Vars} {a : α} {e : Err} {out : List Result}

theorem goes_pure : Goes (pure a : Program (World Name) (Call Name Result) Fault Vars Err α) w v
    (.ok a) w v [] := fun _ => ⟨[], rfl, rfl⟩

theorem goes_raise : Goes (Program.raise e : Program (World Name) (Call Name Result) Fault Vars Err α)
    w v (.error e) w v [] := fun _ => ⟨[], rfl, rfl⟩

theorem goes_locals : Goes (Program.locals : Program (World Name) (Call Name Result) Fault Vars Err Vars)
    w v (.ok v) w v [] := fun _ => ⟨[], rfl, rfl⟩

theorem goes_assign {change : Vars → Vars} :
    Goes (Program.assign change : Program (World Name) (Call Name Result) Fault Vars Err Unit) w v
      (.ok ()) w (change v) [] := fun _ => ⟨[], rfl, rfl⟩

theorem Goes.bind {r : Except Err β} (hx : Goes x w v (.ok a) w₁ v₁ [])
    (hf : Goes (f a) w₁ v₁ r w₂ v₂ out) : Goes (x >>= f) w v r w₂ v₂ out := by
  intro log
  obtain ⟨new, hnew, hout⟩ := hx log
  obtain ⟨new', hnew', hout'⟩ := hf (new ++ log)
  refine ⟨new' ++ new, ?_, by rw [printed_append, hout, hout', List.append_nil]⟩
  change Program.bind x f calm _ = _
  rw [Program.bind, hnew, List.append_assoc]
  exact hnew'

theorem Goes.bind_error (hx : Goes x w v (.error e) w₁ v₁ out) :
    Goes (x >>= f) w v (.error e) w₁ v₁ out := by
  intro log
  obtain ⟨new, hnew, hout⟩ := hx log
  refine ⟨new, ?_, hout⟩
  change Program.bind x f calm _ = _
  rw [Program.bind, hnew]

theorem Goes.mapError {Err' : Type} {g : Err → Err'} {r : Except Err α}
    (hx : Goes x w v r w₁ v₁ out) : Goes (Program.mapError g x) w v (r.mapError g) w₁ v₁ out := by
  intro log
  obtain ⟨new, hnew, hout⟩ := hx log
  refine ⟨new, ?_, hout⟩
  cases r with
  | ok a => simp only [Program.mapError, hnew, Except.mapError]
  | error e => simp only [Program.mapError, hnew, Except.mapError]

theorem Goes.attempt {ε : Type} {caught : Err → Option ε} (hx : Goes x w v (.ok a) w₁ v₁ out) :
    Goes (Program.attempt caught x) w v (.ok (.ok a)) w₁ v₁ out := by
  intro log
  obtain ⟨new, hnew, hout⟩ := hx log
  exact ⟨new, by simp only [Program.attempt, hnew], hout⟩

theorem Goes.attempt_error {ε : Type} {caught : Err → Option ε} {e' : ε}
    (hx : Goes x w v (.error e) w₁ v₁ out) (hcaught : caught e = some e') :
    Goes (Program.attempt caught x) w v (.ok (.error e')) w₁ v₁ out := by
  intro log
  obtain ⟨new, hnew, hout⟩ := hx log
  exact ⟨new, by simp only [Program.attempt, hnew, hcaught], hout⟩

theorem Goes.attempt_uncaught {ε : Type} {caught : Err → Option ε}
    (hx : Goes x w v (.error e) w₁ v₁ out) (hcaught : caught e = none) :
    Goes (Program.attempt caught x) w v (.error e) w₁ v₁ out := by
  intro log
  obtain ⟨new, hnew, hout⟩ := hx log
  exact ⟨new, by simp only [Program.attempt, hnew, hcaught], hout⟩

theorem Goes.ensuring {last : Program (World Name) (Call Name Result) Fault Vars Err Unit}
    {r : Except Err α} (hx : Goes x w v r w₁ v₁ out) (hlast : Goes last w₁ v₁ (.ok ()) w₂ v₂ []) :
    Goes (Program.ensuring x last) w v r w₂ v₂ out := by
  intro log
  obtain ⟨new, hnew, hout⟩ := hx log
  obtain ⟨new', hnew', hout'⟩ := hlast (new ++ log)
  refine ⟨new' ++ new, ?_, by rw [printed_append, hout, hout', List.nil_append]⟩
  simp only [Program.ensuring, hnew, hnew', List.append_assoc]

end

/-! ## 2. System calls -/

section

variable {w w' : World Name} {v : Vars} {a : α} {i : Nat} {n : Inode}

/-- A call prints nothing, unless it is a print. -/
theorem goes_syscall {call : Call Name Result} {act : World Name → Except Errno (α × World Name)}
    (hact : act w = .ok (a, w')) (hcall : printed [⟨call, w, w', true⟩] = []) :
    Goes (syscall call act : Sys Name Result Vars α) w v (.ok a) w' v [] := by
  intro log
  refine ⟨[⟨call, w, w', true⟩], ?_, hcall⟩
  simp only [syscall, Program.perform, calm, hact]
  rfl

theorem goes_syscall_error {call : Call Name Result}
    {act : World Name → Except Errno (α × World Name)} {e : Errno} (hact : act w = .error e)
    (hcall : printed [⟨call, w, w, false⟩] = []) :
    Goes (syscall call act : Sys Name Result Vars α) w v (.error (.os e)) w v [] := by
  intro log
  refine ⟨[⟨call, w, w, false⟩], ?_, hcall⟩
  simp only [syscall, Program.perform, calm, hact]
  rfl

theorem goes_fstat (hn : w.inode i = some n) :
    Goes (fstat i : Sys Name Result Vars Stat) w v (.ok ⟨i, n⟩) w v [] :=
  goes_syscall (by simp only [hn]) rfl

theorem goes_readMore : ∀ m, Goes (readMore i m : Sys Name Result Vars Unit) w v (.ok ()) w v []
  | 0 => goes_pure
  | m + 1 => Goes.bind (goes_syscall rfl rfl) (goes_readMore m)

theorem goes_readAll {size : Nat} (hn : w.inode i = some n) :
    Goes (readAll i size : Sys Name Result Vars (List UInt8)) w v (.ok n.bytes) w v [] := by
  refine Goes.bind (a := n.bytes) (goes_syscall ?_ rfl) ((goes_readMore _).bind goes_pure)
  simp only [hn, Option.map_some, Option.getD_some]

variable [DecidableEq Name] {k : Key Name}

theorem World.find_of (hk : w.lookup k = some i) (hn : w.inode i = some n) :
    w.find k = .ok ⟨i, n⟩ := by
  simp only [World.find, hk, hn]

theorem World.find_none (hk : w.lookup k = none) : w.find k = .error .noent := by
  simp only [World.find, hk]

theorem goes_stat (hk : w.lookup k = some i) (hn : w.inode i = some n) :
    Goes (stat k : Sys Name Result Vars Stat) w v (.ok ⟨i, n⟩) w v [] :=
  goes_syscall (by simp only [World.find_of hk hn, Except.map]) rfl

theorem goes_openDirectory (hk : w.lookup k = some i) (hn : w.inode i = some n)
    (hkind : n.kind = .directory) :
    Goes (openDirectory k : Sys Name Result Vars Nat) w v (.ok i) w v [] :=
  goes_syscall (by simp only [World.find_of hk hn, Except.bind, if_pos hkind]) rfl

theorem goes_openReadable {mayRead : Inode → Bool} (hk : w.lookup k = some i)
    (hn : w.inode i = some n) (hmay : mayRead n = true) :
    Goes (openReadable mayRead k : Sys Name Result Vars Nat) w v (.ok i) w v [] :=
  goes_syscall (by simp only [World.find_of hk hn, Except.bind, if_pos hmay]) rfl

theorem goes_mkdir {mode uid gid : Nat} (hk : w.lookup k = none) :
    Goes (mkdir k mode uid gid : Sys Name Result Vars Unit) w v (.ok ())
      { w.create k ⟨.directory, mode, uid, gid, [], 0, 0⟩ with own := w.next :: w.own } v [] :=
  goes_syscall (by simp [hk]) rfl

theorem goes_createFile {mode uid gid : Nat} (hk : w.lookup k = none) :
    Goes (createFile k mode uid gid : Sys Name Result Vars Nat) w v (.ok w.next)
      (w.create k ⟨.regular, mode, uid, gid, [], 0, 0⟩) v [] :=
  goes_syscall (by simp [hk]) rfl

theorem goes_rmdir (hk : w.lookup k = some i) (hn : w.inode i = some n)
    (hkind : n.kind = .directory) (hempty : w.isEmpty i = true) :
    Goes (rmdir k : Sys Name Result Vars Unit) w v (.ok ()) (w.remove k) v [] :=
  goes_syscall (by simp [World.find_of hk hn, Except.bind, hkind, hempty]) rfl

theorem goes_unlink (hk : w.lookup k = some i) (hn : w.inode i = some n)
    (hkind : n.kind ≠ .directory) :
    Goes (unlink k : Sys Name Result Vars Unit) w v (.ok ()) ((w.remove k).touch i) v [] :=
  goes_syscall (by simp [World.find_of hk hn, Except.bind, hkind]) rfl

theorem goes_renameNoreplace {k' : Key Name} (hk : w.lookup k = some i) (hn : w.inode i = some n)
    (hk' : w.lookup k' = none) :
    Goes (renameNoreplace k k' : Sys Name Result Vars Unit) w v (.ok ())
      (((w.remove k).insert k' i).touch i) v [] :=
  goes_syscall (by simp [World.find_of hk hn, Except.bind, hk']) rfl

theorem goes_renameExchange {k' : Key Name} {j : Nat} {m : Inode} (hk : w.lookup k = some i)
    (hn : w.inode i = some n) (hk' : w.lookup k' = some j) (hm : w.inode j = some m) :
    Goes (renameExchange k k' : Sys Name Result Vars Unit) w v (.ok ())
      ((((w.insert k j).insert k' i).touch i).touch j) v [] :=
  goes_syscall (by simp [World.find_of hk hn, World.find_of hk' hm, Except.bind]) rfl

end

end Posix
