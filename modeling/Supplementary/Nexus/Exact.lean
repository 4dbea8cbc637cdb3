/-
# Staging is exact

Every execution of `stage`, whatever the server answers and wherever a file operation fails.  `seen` is
what a history comes to: how often the artifact was read back and sent, what the last reading gave, and
the two files.

`stage_exact`: the candidate is sent at most once, and only after the artifact was looked for and not
found; what is staged was read back from the server in full, with the size and the digest of the
candidate; the file it was read into is removed however the execution ends; and the output is written
only where it returns.
-/
import Supplementary.Nexus.Stage
import Supplementary.Lib.Answered

namespace Supplementary.Nexus

open Supplementary PyStr Effects

/-! ## 1. What a history comes to -/

abbrev History := Trace StageAns

structure Seen where
  gets : Nat
  puts : List Request
  /-- The last reading was answered with 404. -/
  absent : Bool
  /-- What was read since the last request for the artifact. -/
  body : Bytes
  /-- The file that is read back into. -/
  file : Option Bytes
  output : Option Value

def isNotFound : Checked Unit → Bool
  | .error (.http code) => code = 404
  | _ => false

def Seen.after (s : Seen) : Event StageAns → Seen
  | ⟨.request r, answer⟩ => match r.method with
    | .get => { s with gets := s.gets + 1, absent := isNotFound answer, body := [] }
    | .put _ => { s with puts := s.puts ++ [r] }
  | ⟨.read, .ok chunk⟩ => { s with body := s.body ++ chunk }
  | ⟨.create, .ok _⟩ => { s with file := some [] }
  | ⟨.write chunk, .ok _⟩ => { s with file := s.file.map (· ++ chunk) }
  | ⟨.unlink, .ok _⟩ => { s with file := none }
  | ⟨.writeOutput v, .ok _⟩ => { s with output := some v }
  | _ => s

def seen (h : History) : Seen := h.foldl Seen.after ⟨0, [], false, [], none, none⟩

@[simp] theorem seen_snoc (h : History) (e : Event StageAns) : seen (h ++ [e]) = (seen h).after e := by
  rw [seen, List.foldl_append]
  rfl

/-- The answer tells of the file what is so. -/
def Tells (s : Seen) : Event StageAns → Prop
  | ⟨.isFile, .ok there⟩ => there = s.file.isSome
  | ⟨.digest, .ok digest⟩ => ∃ content, s.file = some content ∧ digest = Sha256.hexdigest content
  | _ => True

/-- Every answer about the file was true when it was given. -/
def Honest (h : History) : Prop := ∀ pre e post, h = pre ++ e :: post → Tells (seen pre) e

theorem Honest.left {h tr : History} (hhonest : Honest (h ++ tr)) : Honest h := by
  rintro pre e post rfl
  exact hhonest pre e (post ++ tr) (by simp)

theorem Honest.last {h : History} {e : Event StageAns} (hhonest : Honest (h ++ [e])) :
    Tells (seen h) e := hhonest h e [] rfl

/-- The removal of the file did not fail. -/
def Removes (h : History) : Prop :=
  ∀ e : Raised, (⟨.isFile, .error e⟩ : Event StageAns) ∉ h ∧ (⟨.unlink, .error e⟩ : Event StageAns) ∉ h

/-- The file is gone, if the answers about it were true and its removal did not fail. -/
def Tidy (h : History) : Prop := Honest h → Removes h → (seen h).file = none

/-! ## 2. What may be asked -/

/-- The artifact is read back before and after it was sent; it is sent once, where it was not found. -/
def Admissible (s : Staging) (h : History) : StageOp → Prop
  | .request r => r.url = s.remote ∧ match r.method with
    | .get => (seen h).gets = (seen h).puts.length
    | .put data => data = s.candidate.content ∧ (seen h).gets = 1 ∧ (seen h).absent = true ∧
        (seen h).puts = []
  | _ => True

variable {s : Staging} {α β : Type} {P : History → Prop} {Q : Checked β → History → Prop}

theorem tracks_ask {op : StageOp} {R : op.Result → History → Prop} {f : op.Result → StageAct β}
    (hA : ∀ h, P h → Admissible s h op) (hok : ∀ h a, P h → R a (h ++ [⟨op, .ok a⟩]))
    (herror : ∀ h e, P h → Q (.error e) (h ++ [⟨op, .error e⟩]))
    (hf : ∀ a, Tracks (Admissible s) (R a) (f a) Q) : Tracks (Admissible s) P (ask op >>= f) Q := by
  refine Tracks.bind (Q := fun r h => (∀ a, r = .ok a → R a h) ∧ ∀ e, r = .error e → Q (.error e) h)
    (tracks_call hA fun h r hh => ⟨?_, ?_⟩) (fun a => (hf a).weaken (fun h hh => hh.1 a rfl) fun _ _ hQ => hQ)
    fun e h hh => hh.2 e rfl
  · rintro a rfl
    exact hok h a hh
  · rintro e rfl
    exact herror h e hh

theorem tracks_raised {e : Raised} (hQ : ∀ h, P h → Q (.error e) h) :
    Tracks (Admissible s) P (Act.raise e : StageAct β) Q := tracks_ofExcept hQ

theorem tracks_returned {a : β} (hQ : ∀ h, P h → Q (.ok a) h) :
    Tracks (Admissible s) P (pure a : StageAct β) Q := tracks_ofExcept hQ

/-! ## 3. Reading back -/

/-- The artifact was asked for and sent so often; nothing is written. -/
structure Counted (gets : Nat) (puts : List Request) (h : History) : Prop where
  gets : (seen h).gets = gets
  puts : (seen h).puts = puts
  output : (seen h).output = none

/-- The file has what was read, and that many octets. -/
structure Held (gets : Nat) (puts : List Request) (size : Nat) (h : History) : Prop extends
    Counted gets puts h where
  file : (seen h).file = some (seen h).body
  size : (seen h).body.length = size

/-- There is no file yet. -/
structure Clear (gets : Nat) (puts : List Request) (h : History) : Prop extends Counted gets puts h where
  clear : (seen h).file = none

section

variable {gets : Nat} {puts : List Request}

/-- An operation that neither asks for the artifact nor writes the output. -/
def IsLocal : StageOp → Prop
  | .request _ | .writeOutput _ => False
  | _ => True

theorem counted_local {h : History} {e : Event StageAns} (hh : Counted gets puts h) (he : IsLocal e.1) :
    Counted gets puts (h ++ [e]) := by
  obtain ⟨op, answer⟩ := e
  rcases hh with ⟨hgets, hputs, houtput⟩
  constructor <;> rw [seen_snoc] <;> cases op <;> first
    | exact he.elim
    | (cases answer <;> assumption)

/-- The induction is on the room that is left; what was read so far is in the file. -/
theorem tracks_receive (size : Nat) : Tracks (Admissible s) (Held gets puts size) (receive size)
    fun r h => Counted gets puts h ∧ ∀ n, r = .ok n → Held gets puts n h := by
  induction hroom : maxCandidateBytes - size using Nat.strongRecOn generalizing size with
  | _ room ih =>
    rw [receive]
    refine tracks_ask (R := fun (chunk : Bytes) h => Counted gets puts h ∧
      (seen h).body.length = size + chunk.length ∧ ∃ content, (seen h).file = some content ∧
        (seen h).body = content ++ chunk) (fun _ _ => trivial) (fun h chunk hh => ?_) (fun h e hh => ?_)
      fun chunk => ?_
    · refine ⟨counted_local hh.toCounted trivial, ?_, (seen h).body, ?_, ?_⟩
      · rw [seen_snoc, ← hh.size]
        exact List.length_append
      · rw [seen_snoc]
        exact hh.file
      · rw [seen_snoc]
        rfl
    · exact ⟨counted_local hh.toCounted trivial, fun n heq => by cases heq⟩
    split
    · next hempty =>
      refine tracks_returned fun h hh => ⟨hh.1, fun n heq => ?_⟩
      cases heq
      rcases hh with ⟨hcounted, hlength, content, hfile, hbody⟩
      rw [hempty, List.append_nil] at hbody
      rw [hempty] at hlength
      exact ⟨hcounted, hbody ▸ hfile, hlength⟩
    · next hsome =>
      split
      · exact tracks_raised fun h hh => ⟨hh.1, fun n heq => by cases heq⟩
      · have hpos := List.length_pos_iff.mpr hsome
        refine tracks_ask (R := fun _ => Held gets puts (size + chunk.length)) (fun _ _ => trivial)
          (fun h _ hh => ?_) (fun h e hh => ?_) fun _ => ih _ (by omega) _ rfl
        · rcases hh with ⟨hcounted, hlength, content, hfile, hbody⟩
          refine ⟨counted_local hcounted trivial, ?_, ?_⟩
          · rw [seen_snoc]
            change (seen h).file.map (· ++ chunk) = some (seen h).body
            rw [hfile, hbody]
            rfl
          · rw [seen_snoc]
            exact hlength
        · exact ⟨counted_local hh.1 trivial, fun n heq => by cases heq⟩

/-- A request for the artifact. -/
theorem tracks_get (hgets : gets = puts.length) {header : PyStr} :
    Tracks (Admissible s) (Clear gets puts) (openRequest ⟨.get, s.remote, header⟩) fun r h =>
      Clear (gets + 1) puts h ∧ (r = .error (.http 404) → (seen h).absent = true) ∧
        (∀ u, r = .ok u → (seen h).body = []) := by
  have hcall : Tracks (Admissible s) (Clear gets puts)
      (ask (.request ⟨.get, s.remote, header⟩) : StageAct Unit) fun r h => Clear (gets + 1) puts h ∧
        (r = .error (.http 404) → (seen h).absent = true) ∧ (∀ u, r = .ok u → (seen h).body = []) := by
    refine tracks_call (fun h hh => ⟨rfl, ?_⟩) fun h r hh => ⟨⟨⟨?_, ?_, ?_⟩, ?_⟩, ?_, ?_⟩
    · change (seen h).gets = (seen h).puts.length
      rw [hh.gets, hh.puts, hgets]
    · rw [seen_snoc]
      exact congrArg Nat.succ hh.gets
    · rw [seen_snoc]
      exact hh.puts
    · rw [seen_snoc]
      exact hh.output
    · rw [seen_snoc]
      exact hh.clear
    · rintro rfl
      rw [seen_snoc]
      rfl
    · intro u _
      rw [seen_snoc]
      rfl
  refine hcall.attempt_bind fun r => ?_
  cases r with
  | ok u => exact tracks_returned fun h hh => hh
  | error e =>
    dsimp only
    split
    · exact tracks_raised fun h hh => ⟨hh.1, fun heq => (by cases heq), fun u heq => by cases heq⟩
    · exact tracks_raised fun h hh => hh

/-- What `readback` finds. -/
theorem tracks_readback (hgets : gets = puts.length) {header : PyStr} :
    Tracks (Admissible s) (Clear gets puts) (readback s.remote header) fun r h =>
      Counted (gets + 1) puts h ∧ (r = .ok none → Clear (gets + 1) puts h ∧ (seen h).absent = true) ∧
        ∀ n, r = .ok (some n) → Held (gets + 1) puts n h := by
  have herror : ∀ (e : Raised) h, Counted (gets + 1) puts h → Counted (gets + 1) puts h ∧
      ((Except.error e : Checked (Option Nat)) = .ok none → Clear (gets + 1) puts h ∧ (seen h).absent = true) ∧
        ∀ n, (Except.error e : Checked (Option Nat)) = .ok (some n) → Held (gets + 1) puts n h :=
    fun e h hh => ⟨hh, fun heq => (by cases heq), fun n heq => by cases heq⟩
  refine (tracks_get hgets).attempt_bind fun r => ?_
  split
  · next code =>
    split
    · next hcode =>
      exact tracks_returned fun h hh => ⟨hh.1.toCounted, fun _ => ⟨hh.1, hh.2.1 (by rw [hcode])⟩,
        fun n heq => by cases heq⟩
    · refine tracks_ask (R := fun _ => Counted (gets + 1) puts) (fun _ _ => trivial)
        (fun h _ hh => counted_local hh.1.toCounted trivial)
        (fun h e hh => herror e _ (counted_local hh.1.toCounted trivial)) fun _ => ?_
      exact tracks_raised fun h hh => herror _ h hh
  · exact tracks_raised fun h hh => herror _ h hh.1.toCounted
  · refine tracks_ask (R := fun _ => Held (gets + 1) puts 0) (fun _ _ => trivial) (fun h _ hh => ?_)
      (fun h e hh => herror e _ (counted_local hh.1.toCounted trivial)) fun _ => ?_
    · have hbody := hh.2.2 () rfl
      refine ⟨counted_local hh.1.toCounted trivial, ?_, ?_⟩
      · rw [seen_snoc]
        exact congrArg some hbody.symm
      · rw [seen_snoc]
        exact congrArg List.length hbody
    · refine tracks_ask (R := fun _ => Held (gets + 1) puts 0) (fun _ _ => trivial)
        (fun h _ hh => ⟨counted_local hh.toCounted trivial, by rw [seen_snoc]; exact hh.file,
          by rw [seen_snoc]; exact hh.size⟩)
        (fun h e hh => herror e _ (counted_local hh.toCounted trivial)) fun status => ?_
      split
      · refine (tracks_receive 0).bind (fun size => ?_) fun e h hh => herror e h hh.1
        refine tracks_returned fun h hh => ⟨hh.1, fun heq => (by cases heq), fun n heq => ?_⟩
        cases heq
        exact hh.2 size rfl
      · exact tracks_raised fun h hh => herror _ h hh.toCounted

end

/-! ## 4. Sending -/

/-- What is sent. -/
def Staging.sent (s : Staging) : Request := ⟨.put s.candidate.content, s.remote, s.header⟩

/-- An operation that changes nothing of what a history comes to. -/
def IsIdle : StageOp → Prop
  | .outputTaken | .mkdir | .fileTaken | .getcode | .readError | .digest | .isFile => True
  | _ => False

theorem seen_idle {h : History} {e : Event StageAns} (he : IsIdle e.1) : seen (h ++ [e]) = seen h := by
  obtain ⟨op, answer⟩ := e
  rw [seen_snoc]
  cases op <;> first
    | exact he.elim
    | rfl

theorem clear_idle {gets : Nat} {puts : List Request} {h : History} {e : Event StageAns}
    (hh : Clear gets puts h) (he : IsIdle e.1) : Clear gets puts (h ++ [e]) := by
  rcases hh with ⟨⟨hgets, hputs, houtput⟩, hclear⟩
  constructor
  · constructor <;> rw [seen_idle he] <;> assumption
  · rw [seen_idle he]
    exact hclear

theorem tracks_upload : Tracks (Admissible s) (fun h => Clear 1 [] h ∧ (seen h).absent = true)
    (upload s.remote s.header s.candidate.content) fun _ => Clear 1 [s.sent] := by
  have hput : Tracks (Admissible s) (fun h => Clear 1 [] h ∧ (seen h).absent = true)
      (openRequest s.sent) fun _ => Clear 1 [s.sent] := by
    have hcall : Tracks (Admissible s) (fun h => Clear 1 [] h ∧ (seen h).absent = true)
        (ask (.request s.sent) : StageAct Unit) fun _ => Clear 1 [s.sent] := by
      refine tracks_call (fun h hh => ⟨rfl, rfl, hh.1.gets, hh.2, hh.1.puts⟩) fun h r hh =>
        ⟨⟨?_, ?_, ?_⟩, ?_⟩ <;> rw [seen_snoc]
      · exact hh.1.gets
      · exact congrArg (· ++ [s.sent]) hh.1.puts
      · exact hh.1.output
      · exact hh.1.clear
    refine hcall.attempt_bind fun r => ?_
    cases r with
    | ok u => exact tracks_returned fun h hh => hh
    | error e =>
      dsimp only
      split <;> exact tracks_raised fun h hh => hh
  refine hput.attempt_bind fun r => ?_
  split
  · exact tracks_ask (R := fun _ => Clear 1 [s.sent]) (fun _ _ => trivial) (fun h _ hh => clear_idle hh trivial)
      (fun h _ hh => clear_idle hh trivial) fun _ => tracks_raised fun h hh => hh
  · exact tracks_raised fun h hh => hh
  · refine tracks_ask (R := fun _ => Clear 1 [s.sent]) (fun _ _ => trivial)
      (fun h _ hh => clear_idle hh trivial) (fun h _ hh => clear_idle hh trivial) fun status => ?_
    split
    · exact tracks_returned fun h hh => hh
    · exact tracks_raised fun h hh => hh

/-! ## 5. The transfer -/

/-- What was read last is the candidate, by its size and, if the file was read truly, its digest. -/
structure Verified (s : Staging) (uploaded : Bool) (h : History) : Prop where
  puts : (seen h).puts = if uploaded then [s.sent] else []
  size : (seen h).body.length = s.size
  digest : Honest h → Sha256.hexdigest (seen h).body = s.digest

/-- Nothing is written, and the candidate was sent once at most. -/
structure Settled (h : History) : Prop where
  puts : (seen h).puts.length ≤ 1
  output : (seen h).output = none

theorem Counted.settled {gets : Nat} {puts : List Request} {h : History} (hh : Counted gets puts h)
    (hputs : puts.length ≤ 1) : Settled h := ⟨hh.puts ▸ hputs, hh.output⟩

theorem tracks_confirm {gets : Nat} {puts : List Request} (hputs : puts.length ≤ 1) (found : Option Nat) :
    Tracks (Admissible s) (fun h => Counted gets puts h ∧ ∀ n, found = some n → Held gets puts n h)
      (confirm s found) fun r h => Settled h ∧ ∀ u, r = .ok u → (seen h).puts = puts ∧
        (seen h).body.length = s.size ∧ (Honest h → Sha256.hexdigest (seen h).body = s.digest) := by
  cases found with
  | none => exact tracks_raised fun h hh => ⟨hh.1.settled hputs, fun u heq => by cases heq⟩
  | some size =>
    rw [confirm.eq_def]
    dsimp only
    split
    · exact tracks_raised fun h hh => ⟨hh.1.settled hputs, fun u heq => by cases heq⟩
    · next hsize =>
      rw [not_not] at hsize
      refine tracks_ask (R := fun digest h => Counted gets puts h ∧
        (seen h).body.length = s.size ∧ (Honest h → Sha256.hexdigest (seen h).body = digest))
        (fun _ _ => trivial) (fun h digest hh => ?_) (fun h e hh => ?_) fun digest => ?_
      · have hheld := hh.2 size rfl
        refine ⟨counted_local hh.1 trivial, ?_, fun hhonest => ?_⟩
        · rw [seen_idle (e := ⟨.digest, .ok digest⟩) trivial, hheld.size, hsize]
        · rcases hhonest.last with ⟨content, hfile, hdigest⟩
          cases hheld.file.symm.trans hfile
          rw [seen_idle (e := ⟨.digest, .ok digest⟩) trivial]
          exact hdigest.symm
      · exact ⟨(counted_local (e := ⟨.digest, .error e⟩) hh.1 trivial).settled hputs,
          fun u heq => by cases heq⟩
      · split
        · next hsame =>
          exact tracks_returned fun h hh => ⟨hh.1.settled hputs, fun _ _ =>
            ⟨hh.1.puts, hh.2.1, fun hhonest => (hh.2.2 hhonest).trans hsame⟩⟩
        · exact tracks_raised fun h hh => ⟨hh.1.settled hputs, fun u heq => by cases heq⟩

theorem tracks_transfer : Tracks (Admissible s) (Clear 0 []) (transfer s) fun r h =>
    Settled h ∧ ∀ uploaded, r = .ok uploaded → Verified s uploaded h := by
  have herror : ∀ (e : Raised) h, Settled h → Settled h ∧ ∀ uploaded,
      (Except.error e : Checked Bool) = .ok uploaded → Verified s uploaded h :=
    fun e h hh => ⟨hh, fun uploaded heq => by cases heq⟩
  refine (tracks_readback (rfl : 0 = ([] : List Request).length)).bind (fun found => ?_)
    fun e h hh => herror e h (hh.1.settled (Nat.zero_le 1))
  split
  · next hnone =>
    refine Tracks.bind (tracks_upload.weaken (fun h hh => hh.2.1 (congrArg _ hnone)) fun _ _ hQ => hQ)
      (fun _ => ?_) fun e h hh => herror e h (hh.toCounted.settled (Nat.le_refl 1))
    refine (tracks_readback (rfl : 1 = [s.sent].length)).bind (fun found => ?_)
      fun e h hh => herror e h (hh.1.settled (Nat.le_refl 1))
    refine Tracks.bind ((tracks_confirm (show [s.sent].length ≤ 1 from Nat.le_refl 1) found).weaken
      (fun h hh => ⟨hh.1, fun n hn => hh.2.2 n (congrArg _ hn)⟩) fun _ _ hQ => hQ) (fun u => ?_)
      fun e h hh => herror e h hh.1
    refine tracks_returned fun h hh => ⟨hh.1, fun uploaded heq => ?_⟩
    cases heq
    rcases hh.2 u rfl with ⟨hputs, hsize, hdigest⟩
    exact ⟨hputs, hsize, hdigest⟩
  · refine Tracks.bind ((tracks_confirm (show ([] : List Request).length ≤ 1 from Nat.zero_le 1) found).weaken
      (fun h hh => ⟨hh.1, fun n hn => hh.2.2 n (congrArg _ hn)⟩) fun _ _ hQ => hQ) (fun u => ?_)
      fun e h hh => herror e h hh.1
    refine tracks_returned fun h hh => ⟨hh.1, fun uploaded heq => ?_⟩
    cases heq
    rcases hh.2 u rfl with ⟨hputs, hsize, hdigest⟩
    exact ⟨hputs, hsize, hdigest⟩

/-! ## 6. The end -/

theorem Removes.left {h tr : History} (hremoves : Removes (h ++ tr)) : Removes h := fun e =>
  ⟨fun hmem => (hremoves e).1 (List.mem_append_left _ hmem),
    fun hmem => (hremoves e).2 (List.mem_append_left _ hmem)⟩

theorem Tidy.append {h tr : History} (htidy : Tidy h) (hfile : (seen (h ++ tr)).file = (seen h).file) :
    Tidy (h ++ tr) := fun hhonest hremoves => hfile.trans (htidy hhonest.left hremoves.left)

theorem tidy_of_clear {gets : Nat} {puts : List Request} {h : History} (hh : Clear gets puts h) : Tidy h :=
  fun _ _ => hh.clear

def IsRemoval : StageOp → Prop
  | .isFile | .unlink => True
  | _ => False

/-- Whatever was the case, the file is gone at the end, or its removal failed. -/
theorem tracks_cleanup (hP : ∀ h (e : Event StageAns), P h → IsRemoval e.1 → P (h ++ [e])) :
    Tracks (Admissible s) P cleanup fun _ h => P h ∧ Tidy h := by
  refine tracks_ask (R := fun there h => P h ∧ (Honest h → there = (seen h).file.isSome))
    (fun _ _ => trivial) (fun h there hh => ⟨hP h _ hh trivial, fun hhonest => ?_⟩)
    (fun h e hh => ⟨hP h _ hh trivial, fun _ hremoves => ?_⟩) fun there => ?_
  · rw [seen_idle (e := ⟨.isFile, .ok there⟩) trivial]
    exact hhonest.last
  · exact absurd (List.mem_append_right h (List.mem_singleton_self _)) (hremoves e).1
  · cases there with
    | true =>
      refine tracks_call (fun _ _ => trivial) fun h r hh => ⟨hP h _ hh.1 trivial, fun _ hremoves => ?_⟩
      cases r with
      | ok u => rw [seen_snoc]; rfl
      | error e => exact absurd (List.mem_append_right h (List.mem_singleton_self _)) (hremoves e).2
    | false =>
      refine tracks_returned fun h hh => ⟨hh.1, fun hhonest _ => ?_⟩
      exact Option.isSome_eq_false_iff.mp (hh.2 hhonest).symm |> Option.isNone_iff_eq_none.mp

theorem settled_removal {h : History} {e : Event StageAns} (hh : Settled h) (he : IsRemoval e.1) :
    Settled (h ++ [e]) := by
  obtain ⟨op, answer⟩ := e
  rcases hh with ⟨hputs, houtput⟩
  constructor <;> rw [seen_snoc] <;> cases op <;> first
    | exact he.elim
    | (cases answer <;> assumption)

theorem verified_removal {uploaded : Bool} {h : History} {e : Event StageAns} (hh : Verified s uploaded h)
    (he : IsRemoval e.1) : Verified s uploaded (h ++ [e]) := by
  have hsame : (seen (h ++ [e])).puts = (seen h).puts ∧ (seen (h ++ [e])).body = (seen h).body := by
    obtain ⟨op, answer⟩ := e
    constructor <;> rw [seen_snoc] <;> cases op <;> first
      | exact he.elim
      | (cases answer <;> rfl)
  refine ⟨hsame.1.trans hh.puts, ?_, fun hhonest => ?_⟩
  · rw [hsame.2, hh.size]
  · rw [hsame.2, hh.digest hhonest.left]

theorem tracks_transferred : Tracks (Admissible s) (Clear 0 []) ((transfer s).ensuring cleanup) fun r h =>
    Settled h ∧ Tidy h ∧ ∀ uploaded, r = .ok uploaded → Verified s uploaded h := by
  refine tracks_transfer.attempt_bind fun r => ?_
  refine (tracks_cleanup fun h e hh he => ⟨settled_removal hh.1 he, fun uploaded heq =>
    verified_removal (hh.2 uploaded heq) he⟩).bind (fun _ => ?_) fun e h hh =>
      ⟨hh.1.1, hh.2, fun uploaded heq => by cases heq⟩
  exact tracks_ofExcept fun h hh => ⟨hh.1.1, hh.2, hh.1.2⟩

/-- How an execution ends. -/
structure Outcome (s : Staging) (r : Checked Value) (h : History) : Prop where
  once : (seen h).puts.length ≤ 1
  tidy : Tidy h
  failed : ∀ e, r = .error e → (seen h).output = none
  staged : ∀ v, r = .ok v → (seen h).output = some v ∧ ∃ uploaded, v = payload s uploaded ∧
    Verified s uploaded h

theorem outcome_error {e : Raised} {h : History} (hsettled : Settled h) (htidy : Tidy h) :
    Outcome s (.error e) h :=
  ⟨hsettled.puts, htidy, fun _ _ => hsettled.output, fun v heq => by cases heq⟩

variable {platform : Platform} {candidate : Candidate} {baseUrl repository username password : PyStr}

theorem tracks_stage (hs : prepare platform candidate baseUrl repository username password = .ok s) :
    Tracks (Admissible s) (Clear 0 [])
      (stage platform candidate baseUrl repository username password) (Outcome s) := by
  have hidle : ∀ (op : StageOp), IsIdle op → ∀ h r, Clear 0 [] h → Clear 0 [] (h ++ [⟨op, r⟩]) :=
    fun op hop h r hh => clear_idle hh hop
  have hfail : ∀ e h, Clear 0 [] h → Outcome s (.error e) h := fun e h hh =>
    outcome_error (hh.toCounted.settled (Nat.zero_le 1)) (tidy_of_clear hh)
  refine tracks_lift_bind (fun s' hs' => ?_) fun e h he => ?_
  · cases hs.symm.trans hs'
    refine tracks_ask (R := fun _ => Clear 0 []) (fun _ _ => trivial)
      (fun h r => hidle .outputTaken trivial h _)
      (fun h e hh => hfail e _ (hidle .outputTaken trivial h _ hh)) fun taken => ?_
    split
    · exact tracks_raised fun h hh => hfail _ h hh
    · refine tracks_ask (R := fun _ => Clear 0 []) (fun _ _ => trivial)
        (fun h r => hidle .mkdir trivial h _)
        (fun h e hh => hfail e _ (hidle .mkdir trivial h _ hh)) fun _ => ?_
      refine tracks_ask (R := fun _ => Clear 0 []) (fun _ _ => trivial)
        (fun h r => hidle .fileTaken trivial h _)
        (fun h e hh => hfail e _ (hidle .fileTaken trivial h _ hh)) fun taken => ?_
      split
      · exact tracks_raised fun h hh => hfail _ h hh
      · refine tracks_transferred.bind (fun uploaded => ?_) fun e h hh => outcome_error hh.1 hh.2.1
        refine tracks_ask (R := fun _ h =>
          Outcome s (.ok (payload s uploaded)) h) (fun _ _ => trivial) (fun h u hh => ?_) (fun h e hh => ?_)
          fun _ => tracks_returned fun h hh => hh
        · have hverified := hh.2.2 uploaded rfl
          refine ⟨?_, hh.2.1.append (by rw [seen_snoc]; rfl), fun e heq => (by cases heq), fun v heq => ?_⟩
          · rw [seen_snoc]
            exact hh.1.puts
          · cases heq
            refine ⟨by rw [seen_snoc]; rfl, uploaded, rfl, ?_, ?_, fun hhonest => ?_⟩
            · rw [seen_snoc]
              exact hverified.puts
            · rw [seen_snoc]
              exact hverified.size
            · rw [seen_snoc]
              exact hverified.digest hhonest.left
        · refine outcome_error ⟨?_, ?_⟩ (hh.2.1.append (by rw [seen_snoc]; rfl)) <;> rw [seen_snoc]
          · exact hh.1.puts
          · exact hh.1.output
  · rw [hs] at he
    cases he

/-- What `prepare` returns is of the candidate. -/
theorem prepare_eq_ok (h : prepare platform candidate baseUrl repository username password = .ok s) :
    s.candidate = candidate ∧ s.size = candidate.content.length ∧
      s.digest = Sha256.hexdigest candidate.content ∧
      artifactUrl s.url candidate.name = .ok s.remote ∧
      repositoryUrl platform baseUrl repository = .ok s.url := by
  rcases bind_eq_ok.mp h with ⟨⟨size, digest⟩, hcandidate, h⟩
  rcases bind_eq_ok.mp h with ⟨url, hurl, h⟩
  rcases bind_eq_ok.mp h with ⟨remote, hremote, h⟩
  rcases bind_eq_ok.mp h with ⟨header, -, h⟩
  cases h
  rcases bind_eq_ok.mp hcandidate with ⟨_, -, hcandidate⟩
  rcases bind_eq_ok.mp hcandidate with ⟨_, -, hcandidate⟩
  rcases bind_eq_ok.mp hcandidate with ⟨_, -, hcandidate⟩
  cases hcandidate
  exact ⟨rfl, rfl, rfl, hremote, hurl⟩

/-- **Staging is exact.**  Where the arguments are accepted, every request of an execution is for the
artifact's URL, and the candidate is sent only once the artifact was looked for and not found; however
the execution ends, it was sent once at most, the file that was read back into is gone, and the output
is written only if it returns; and if it returns, what was read back last has the size and the digest
of the candidate.  (The file counts as gone, and the digest as read, where the answers about the file
were true and its removal did not fail.) -/
theorem stage_exact (hs : prepare platform candidate baseUrl repository username password = .ok s) :
    (∀ tr op, Asks (stage platform candidate baseUrl repository username password) () tr op →
      Admissible s tr op) ∧
    ∀ tr r u, Ends (stage platform candidate baseUrl repository username password) () tr r u →
      (seen tr).puts.length ≤ 1 ∧ Tidy tr ∧ (∀ e, r = .error e → (seen tr).output = none) ∧
      ∀ v, r = .ok v → (seen tr).output = some v ∧ ∃ uploaded, v = payload s uploaded ∧
        (seen tr).puts = (if uploaded then [s.sent] else []) ∧
        (seen tr).body.length = candidate.content.length ∧
        (Honest tr → Sha256.hexdigest (seen tr).body = Sha256.hexdigest candidate.content) := by
  have hstart : Clear 0 [] ([] : History) := ⟨⟨rfl, rfl, rfl⟩, rfl⟩
  rcases tracks_stage hs [] () hstart with ⟨hasks, hends⟩
  rcases prepare_eq_ok hs with ⟨-, hsize, hdigest, -, -⟩
  refine ⟨hasks, fun tr r u hend => ?_⟩
  rcases hends tr r u hend with ⟨honce, htidy, hfailed, hstaged⟩
  refine ⟨honce, htidy, hfailed, fun v hv => ?_⟩
  rcases hstaged v hv with ⟨houtput, uploaded, heq, hverified⟩
  exact ⟨houtput, uploaded, heq, hverified.puts, hsize ▸ hverified.size,
    fun hhonest => hdigest ▸ hverified.digest hhonest⟩

/-! ## 7. A run -/

def sampleCandidate : Candidate := ⟨true, "lit-supplementary-1.0.0.tar.gz", [1, 2, 3]⟩

def samplePlatform : Platform where
  rt := ⟨fun _ => "", 1000, fun s => ⟨s, none⟩, []⟩
  isIpLiteral := fun _ => false
  isNormalNetloc := fun _ => true

def samplePrepared : Checked Staging :=
  prepare samplePlatform sampleCandidate "https://nexus.example/repository/galaxy/" "galaxy" "user" "pass"

def sampleStage : StageAct Value :=
  stage samplePlatform sampleCandidate "https://nexus.example/repository/galaxy/" "galaxy" "user" "pass"

/-- The artifact is not there, is sent, and is there then. -/
def sampleAnswer (j : Nat) : (op : StageOp) → StageAns op
  | .request _ => if j = 3 then .error (.http 404) else .ok ()
  | .getcode => .ok (if j = 5 then 201 else 200)
  | .read => .ok (if j = 9 then [1, 2, 3] else [])
  | .digest => .ok (Sha256.hexdigest [1, 2, 3])
  | .outputTaken | .fileTaken => .ok false
  | .isFile => .ok true
  | .mkdir | .readError | .create | .write _ | .unlink | .writeOutput _ => .ok ()

theorem sample_runs : (samplePrepared.isOk && (sampleStage.result () sampleAnswer).isOk) = true := by
  decide +kernel

theorem stage_exact_sample : ∃ s tr v, samplePrepared = .ok s ∧ Ends sampleStage () tr (.ok v) () ∧
    (seen tr).puts.length ≤ 1 ∧ (seen tr).output = some v ∧ (seen tr).body.length = 3 := by
  have hruns := sample_runs
  rw [Bool.and_eq_true] at hruns
  rcases exists_of_isOk hruns.1 with ⟨s, hs⟩
  rcases exists_of_isOk hruns.2 with ⟨v, hv⟩
  rcases @ends_result _ _ _ _ _ sampleStage () sampleAnswer with ⟨u, hends⟩
  rw [hv] at hends
  rcases (stage_exact hs).2 _ _ u hends with ⟨honce, -, -, hstaged⟩
  rcases hstaged v rfl with ⟨houtput, uploaded, -, -, hsize, -⟩
  exact ⟨s, _, v, hs, hends, honce, houtput, hsize⟩

end Supplementary.Nexus
