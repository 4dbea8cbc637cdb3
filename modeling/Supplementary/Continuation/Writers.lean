/-
# Any number of writers

The journal of one repository, and any number of programs that write to it in any order, one operation
at a time.  A commit that is sent lands if the head is as it expects, or does not land, and its answer
may be lost; an answer that shows a commit is given only for one that landed.  Others push too, and
delete no record.

`Disciplined` is what a program has to keep: it adds a record only where it has seen that there is
none, and it posts at most once, when it is ready.  `run_inv`: then every path is added to at most
once, what was seen is there, and whoever posted was ready.
-/
import Supplementary.Continuation.Runs
import Supplementary.Lib.History

namespace Supplementary.Continuation

open Effects PyStr Native

/-! ## 1. The world -/

/-- The journal, the commits that were sent and those that landed, and what each program has asked and
was answered. -/
structure WriterWorld (ι : Type) where
  branch : JournalBranch
  sent : List (ι × Value)
  landed : List (ι × Value)
  history : ι → History

/-- There is a record at the path. -/
def HasRecord (rt : Runtime) (t : PyStr → Option Bytes) (path : PyStr) : Prop :=
  ∃ raw, t path = some raw ∧ IsRecord rt raw

/-- The answer shows a commit. -/
def ShowsCommit (result : Value) : Prop :=
  ∃ commit oid, itemAt result ["data", "createCommitOnBranch", "commit"] = .ok commit ∧
    commit.item "oid" = .ok (.str oid)

/-- A read that is answered shows what is there, and a commit is shown only if it has landed; any other
answer may come back. -/
def WriterWorld.Answers {ι : Type} (w : WriterWorld ι) (repo : PyStr) (i : ι) :
    (op : ContinuationOp) → ContinuationAns op → Prop
  | .read request _, answer => ∀ result, answer = .ok result → Truthful w.branch repo request result
  | .commit payload, answer => ∀ result, answer = .ok result → ShowsCommit result →
      (i, payload) ∈ w.landed
  | _, _ => True

section

variable {ι α : Type} [DecidableEq ι] (rt : Runtime) (repo : PyStr) (program : ι → ContinuationAct α)

/-- One step of a program, of the server or of another writer. -/
inductive WriterStep : WriterWorld ι → WriterWorld ι → Prop
  | sends {w : WriterWorld ι} {i : ι} {payload : Value}
      (hasks : Asks (program i) none (w.history i) (.commit payload)) :
      WriterStep w { w with sent := (i, payload) :: w.sent }
  | lands {w : WriterWorld ι} {i : ι} {payload : Value} {t : PyStr → Option Bytes} {path new : PyStr}
      {raw : Bytes} (hsent : (i, payload) ∈ w.sent) (hfor : isFor repo payload = true)
      (hhead : (inputOf payload).get "expectedHeadOid" = .str w.branch.head)
      (haddition : addition payload = some (path, raw)) (hfresh : w.branch.tree new = none)
      (htree : w.branch.tree w.branch.head = some t) :
      WriterStep w { w with
        branch := w.branch.push new (Function.update t path (some raw))
        landed := (i, payload) :: w.landed }
  | answers {w : WriterWorld ι} {i : ι} {op : ContinuationOp} {answer : ContinuationAns op}
      (hasks : Asks (program i) none (w.history i) op) (hanswers : w.Answers repo i op answer) :
      WriterStep w { w with
        history := Function.update w.history i (w.history i ++ [⟨op, answer⟩]) }
  | other {w : WriterWorld ι} {t t' : PyStr → Option Bytes} {new : PyStr}
      (hfresh : w.branch.tree new = none) (htree : w.branch.tree w.branch.head = some t)
      (hkept : ∀ path, HasRecord rt t path → HasRecord rt t' path) :
      WriterStep w { w with branch := w.branch.push new t' }

end

/-- Nothing was asked or sent yet. -/
structure WriterWorld.Starts {ι : Type} (w : WriterWorld ι) : Prop where
  sent : w.sent = []
  landed : w.landed = []
  history : ∀ i, w.history i = []

/-! ## 2. Posts -/

def isSend (e : Event ContinuationAns) : Bool :=
  match e.1 with
  | .send _ _ => true
  | _ => false

def sends (h : History) : History := h.filter isSend

theorem sends_of_not_send {h : History} {e : Event ContinuationAns} (he : isSend e = false) :
    sends (h ++ [e]) = sends h := by
  rw [sends, List.filter_append, List.filter_cons, he]
  exact List.append_nil _

theorem sends_read {h : History} {e : Event ContinuationAns} (he : IsRead e.1) :
    sends (h ++ [e]) = sends h := by
  refine sends_of_not_send ?_
  obtain ⟨op, answer⟩ := e
  cases op with
  | send _ _ => exact he.elim
  | _ => rfl

theorem sends_commit {h : History} {payload : Value} {answer : Py Value} :
    sends (h ++ [⟨.commit payload, answer⟩]) = sends h := sends_of_not_send rfl

/-! ## 3. Programs -/

variable {ι α : Type} {rt : Runtime} {repo : PyStr} {program : ι → ContinuationAct α}

/-- The commit adds a record where there was seen to be none. -/
inductive Adds (rt : Runtime) (h : History) : Value → Prop
  | intro {journal : Journal} {path : PyStr} {entries : List (PyStr × Value)} {raw : Bytes}
      (hraw : recordBytes rt (.dict entries) = .ok raw) (habsent : Saw rt h journal path .none) :
      Adds rt h (commitPayload journal path raw)

theorem Adds.append {h h' : History} {payload : Value} (hadds : Adds rt h payload) :
    Adds rt (h ++ h') payload := by
  cases hadds with
  | intro hraw habsent => exact .intro hraw habsent.append

/-- The programs add records only where there are none, and post once at most, when they are ready. -/
structure Disciplined (rt : Runtime) (program : ι → ContinuationAct α) (ready : ι → History → Prop) :
    Prop where
  commit : ∀ i h payload, Asks (program i) none h (.commit payload) → Adds rt h payload
  send : ∀ i h route payload, Asks (program i) none h (.send route payload) →
    sends h = [] ∧ ready i h
  append : ∀ i h h', ready i h → ready i (h ++ h')

/-! ## 4. The invariant -/

def pathOf (payload : Value) : Option PyStr := (addition payload).map Prod.fst

theorem pathOf_commitPayload (journal : Journal) (path : PyStr) (raw : Bytes) :
    pathOf (commitPayload journal path raw) = some path := by
  rw [pathOf, addition_commitPayload]
  rfl

/-- The commit landed on this branch, and what it added is there. -/
structure IsLanded (rt : Runtime) (repo : PyStr) (b : JournalBranch) (payload : Value) : Prop where
  isFor : isFor repo payload = true
  recorded : ∃ path t, pathOf payload = some path ∧ b.tree b.head = some t ∧ HasRecord rt t path

structure WriterInv (rt : Runtime) (repo : PyStr) (ready : ι → History → Prop) (w : WriterWorld ι) :
    Prop where
  sent : ∀ i payload, (i, payload) ∈ w.sent → Adds rt (w.history i) payload
  /-- What was seen is in the commit that it was seen in. -/
  shown : ∀ i journal path record, journal.repo = repo → Saw rt (w.history i) journal path record →
    ∃ t, w.branch.tree journal.oid = some t ∧ ReadsAs rt (t path) record
  landed : ∀ i payload, (i, payload) ∈ w.landed → IsLanded rt repo w.branch payload
  /-- No path was added to twice. -/
  distinct : w.landed.Pairwise fun x y => pathOf x.2 ≠ pathOf y.2
  /-- A commit that was shown has landed. -/
  answered : ∀ i payload result, (⟨.commit payload, .ok result⟩ : Event ContinuationAns) ∈ w.history i →
    ShowsCommit result → (i, payload) ∈ w.landed
  posts : ∀ i, (sends (w.history i)).length ≤ 1 ∧ (sends (w.history i) ≠ [] → ready i (w.history i))

variable {ready : ι → History → Prop} {w w' : WriterWorld ι}

theorem WriterWorld.Starts.inv (h : w.Starts) : WriterInv rt repo ready w where
  sent i payload hmem := by
    rw [h.sent] at hmem
    cases hmem
  shown i journal path record _ hsaw := by
    rw [h.history i] at hsaw
    obtain ⟨e, he, -⟩ := hsaw
    cases he
  landed i payload hmem := by
    rw [h.landed] at hmem
    cases hmem
  distinct := by
    rw [h.landed]
    exact List.Pairwise.nil
  answered i payload result hmem := by
    rw [h.history i] at hmem
    cases hmem
  posts i := by
    rw [h.history i]
    exact ⟨Nat.zero_le 1, fun hne => absurd rfl hne⟩

theorem not_hasRecord_of_readsAs {t : PyStr → Option Bytes} {path : PyStr}
    (h : ReadsAs rt (t path) .none) : ¬ HasRecord rt t path := by
  rintro ⟨raw, hfile, hrecord⟩
  rw [hfile] at h
  cases h with
  | text hencode hloads => exact hrecord _ hencode hloads

/-- Two commits that landed on one path are the same commit of one program. -/
theorem WriterInv.unique {i j : ι} {payload payload' : Value} (hinv : WriterInv rt repo ready w)
    (hi : (i, payload) ∈ w.landed) (hj : (j, payload') ∈ w.landed)
    (hpath : pathOf payload = pathOf payload') : i = j := by
  have hsame : w.landed.Pairwise fun x y => pathOf x.2 = pathOf y.2 → x = y :=
    hinv.distinct.imp fun hne heq => absurd heq hne
  have hflip : w.landed.Pairwise fun x y => pathOf y.2 = pathOf x.2 → y = x :=
    hinv.distinct.imp fun hne heq => absurd heq.symm hne
  exact congrArg Prod.fst (hsame.forall_of_forall_of_flip (fun _ _ _ => rfl) hflip hi hj hpath)

/-! ## 5. One step -/

theorem IsLanded.push {b : JournalBranch} {payload : Value} {new : PyStr}
    {t t' : PyStr → Option Bytes} (h : IsLanded rt repo b payload) (htree : b.tree b.head = some t)
    (hkept : ∀ path, HasRecord rt t path → HasRecord rt t' path) :
    IsLanded rt repo (b.push new t') payload := by
  obtain ⟨hfor, path, t₀, hpath, htree₀, hrecord⟩ := h
  cases htree.symm.trans htree₀
  exact ⟨hfor, path, t', hpath, Branch.tree_push_head, hkept path hrecord⟩

/-- A commit lands where there was no record, and leaves one. -/
theorem landing {i : ι} {payload : Value} {t : PyStr → Option Bytes} {path : PyStr} {raw : Bytes}
    (hinv : WriterInv rt repo ready w) (hsent : (i, payload) ∈ w.sent)
    (hfor : isFor repo payload = true)
    (hhead : (inputOf payload).get "expectedHeadOid" = .str w.branch.head)
    (haddition : addition payload = some (path, raw)) (htree : w.branch.tree w.branch.head = some t) :
    ¬ HasRecord rt t path ∧ IsRecord rt raw := by
  have hadds := hinv.sent i payload hsent
  cases hadds with
  | @intro journal path' entries raw' hraw habsent =>
    rw [addition_commitPayload] at haddition
    cases haddition
    have hoid : journal.oid = w.branch.head := Value.str.inj hhead
    obtain ⟨t', htree', hreads⟩ := hinv.shown i journal path .none (repo_of_isFor hfor) habsent
    rw [hoid] at htree'
    cases htree.symm.trans htree'
    exact ⟨not_hasRecord_of_readsAs hreads, isRecord_recordBytes hraw⟩

theorem hasRecord_update {t : PyStr → Option Bytes} {path other : PyStr} {raw : Bytes}
    (hrecord : IsRecord rt raw) (h : HasRecord rt t other) :
    HasRecord rt (Function.update t path (some raw)) other := by
  by_cases heq : other = path
  · subst heq
    exact ⟨raw, Function.update_self .., hrecord⟩
  · obtain ⟨file, hfile, hother⟩ := h
    exact ⟨file, (Function.update_of_ne heq ..).trans hfile, hother⟩

theorem WriterInv.lands {i : ι} {payload : Value} {t : PyStr → Option Bytes} {path new : PyStr}
    {raw : Bytes} (hinv : WriterInv rt repo ready w) (hsent : (i, payload) ∈ w.sent)
    (hfor : isFor repo payload = true)
    (hhead : (inputOf payload).get "expectedHeadOid" = .str w.branch.head)
    (haddition : addition payload = some (path, raw)) (hfresh : w.branch.tree new = none)
    (htree : w.branch.tree w.branch.head = some t) :
    WriterInv rt repo ready { w with
      branch := w.branch.push new (Function.update t path (some raw))
      landed := (i, payload) :: w.landed } := by
  obtain ⟨habsent, hrecord⟩ := landing hinv hsent hfor hhead haddition htree
  have hpath : pathOf payload = some path := by rw [pathOf, haddition]; rfl
  refine ⟨hinv.sent, fun j journal path record hrepo hsaw => ?_, fun j payload' hmem => ?_, ?_,
    fun j payload' result hmem hshows => ?_, hinv.posts⟩
  · obtain ⟨t', htree', hreads⟩ := hinv.shown j journal path record hrepo hsaw
    exact ⟨t', Branch.tree_push hfresh htree', hreads⟩
  · rcases List.mem_cons.mp hmem with heq | hmem
    · cases heq
      exact ⟨hfor, path, _, hpath, Branch.tree_push_head, raw, Function.update_self .., hrecord⟩
    · exact (hinv.landed j payload' hmem).push htree fun _ => hasRecord_update hrecord
  · refine List.Pairwise.cons (fun x hx hsame => ?_) hinv.distinct
    obtain ⟨-, path', t', hpath', htree', hthere⟩ := hinv.landed x.1 x.2 hx
    cases htree.symm.trans htree'
    rw [← hsame, hpath, Option.some.injEq] at hpath'
    exact habsent (hpath' ▸ hthere)
  · exact List.mem_cons_of_mem _ (hinv.answered j payload' result hmem hshows)

theorem WriterInv.other {t t' : PyStr → Option Bytes} {new : PyStr} (hinv : WriterInv rt repo ready w)
    (hfresh : w.branch.tree new = none) (htree : w.branch.tree w.branch.head = some t)
    (hkept : ∀ path, HasRecord rt t path → HasRecord rt t' path) :
    WriterInv rt repo ready { w with branch := w.branch.push new t' } := by
  refine ⟨hinv.sent, fun j journal path record hrepo hsaw => ?_, fun j payload hmem => ?_,
    hinv.distinct, hinv.answered, hinv.posts⟩
  · obtain ⟨t₀, htree₀, hreads⟩ := hinv.shown j journal path record hrepo hsaw
    exact ⟨t₀, Branch.tree_push hfresh htree₀, hreads⟩
  · exact (hinv.landed j payload hmem).push htree hkept

section

variable {i : ι} {op : ContinuationOp} {answer : ContinuationAns op}

/-- What an answer shows is in the commit that it is shown of. -/
theorem WriterInv.shown_answer (hinv : WriterInv rt repo ready w) (hanswers : w.Answers repo i op answer)
    {journal : Journal} {path : PyStr} {record : Value} (hrepo : journal.repo = repo)
    (hsaw : Saw rt (w.history i ++ [⟨op, answer⟩]) journal path record) :
    ∃ t, w.branch.tree journal.oid = some t ∧ ReadsAs rt (t path) record := by
  obtain ⟨e, he, hshows⟩ := hsaw
  rcases List.mem_append.mp he with he | he
  · exact hinv.shown i journal path record hrepo ⟨e, he, hshows⟩
  · rw [List.mem_singleton.mp he] at hshows
    cases hshows with
    | intro hrequest hrecord => exact readsAs_of_recordOf (hanswers _ rfl) hrequest hrepo hrecord

theorem WriterInv.landed_answer (hinv : WriterInv rt repo ready w)
    (hanswers : w.Answers repo i op answer) {payload result : Value}
    (hmem : (⟨.commit payload, .ok result⟩ : Event ContinuationAns) ∈ w.history i ++ [⟨op, answer⟩])
    (hshows : ShowsCommit result) : (i, payload) ∈ w.landed := by
  rcases List.mem_append.mp hmem with hmem | hmem
  · exact hinv.answered i payload result hmem hshows
  · cases List.mem_singleton.mp hmem
    exact hanswers result rfl hshows

/-- The post is the first one, of a program that is ready. -/
theorem WriterInv.posts_answer (hdisciplined : Disciplined rt program ready)
    (hinv : WriterInv rt repo ready w) (hasks : Asks (program i) none (w.history i) op) :
    (sends (w.history i ++ [⟨op, answer⟩])).length ≤ 1 ∧
      (sends (w.history i ++ [⟨op, answer⟩]) ≠ [] → ready i (w.history i ++ [⟨op, answer⟩])) := by
  obtain ⟨hlength, hready⟩ := hinv.posts i
  cases op with
  | send route payload =>
    obtain ⟨hnone, hnow⟩ := hdisciplined.send i _ route payload hasks
    refine ⟨?_, fun _ => hdisciplined.append i _ _ hnow⟩
    rw [sends] at hnone
    rw [sends, List.filter_append, List.length_append, hnone]
    exact Nat.le_refl 1
  | _ =>
    rw [sends_of_not_send rfl]
    exact ⟨hlength, fun hne => hdisciplined.append i _ _ (hready hne)⟩

end

variable [DecidableEq ι]

theorem WriterInv.answers {i : ι} {op : ContinuationOp} {answer : ContinuationAns op}
    (hdisciplined : Disciplined rt program ready) (hinv : WriterInv rt repo ready w)
    (hasks : Asks (program i) none (w.history i) op) (hanswers : w.Answers repo i op answer) :
    WriterInv rt repo ready { w with
      history := Function.update w.history i (w.history i ++ [⟨op, answer⟩]) } := by
  refine ⟨?_, ?_, hinv.landed, hinv.distinct, ?_, ?_⟩
  · exact (Function.forall_update_iff w.history (p := fun j h => ∀ payload, (j, payload) ∈ w.sent →
      Adds rt h payload)).mpr
      ⟨fun payload hmem => (hinv.sent i payload hmem).append, fun j _ => hinv.sent j⟩
  · exact (Function.forall_update_iff w.history (p := fun _ h => ∀ journal path record,
      journal.repo = repo → Saw rt h journal path record →
        ∃ t, w.branch.tree journal.oid = some t ∧ ReadsAs rt (t path) record)).mpr
      ⟨fun _ _ _ hrepo hsaw => hinv.shown_answer hanswers hrepo hsaw, fun j _ => hinv.shown j⟩
  · exact (Function.forall_update_iff w.history (p := fun j h => ∀ payload result,
      (⟨.commit payload, .ok result⟩ : Event ContinuationAns) ∈ h → ShowsCommit result →
        (j, payload) ∈ w.landed)).mpr
      ⟨fun _ _ hmem hshows => hinv.landed_answer hanswers hmem hshows, fun j _ => hinv.answered j⟩
  · exact (Function.forall_update_iff w.history (p := fun j h => (sends h).length ≤ 1 ∧
      (sends h ≠ [] → ready j h))).mpr
      ⟨hinv.posts_answer hdisciplined hasks, fun j _ => hinv.posts j⟩

theorem WriterStep.inv (hdisciplined : Disciplined rt program ready)
    (h : WriterStep rt repo program w w') (hinv : WriterInv rt repo ready w) :
    WriterInv rt repo ready w' := by
  cases h with
  | @sends i payload hasks =>
    refine ⟨fun j payload' hmem => ?_, hinv.shown, hinv.landed, hinv.distinct, hinv.answered, hinv.posts⟩
    rcases List.mem_cons.mp hmem with heq | hmem
    · cases heq
      exact hdisciplined.commit i _ payload hasks
    · exact hinv.sent j payload' hmem
  | lands hsent hfor hhead haddition hfresh htree =>
    exact hinv.lands hsent hfor hhead haddition hfresh htree
  | answers hasks hanswers => exact hinv.answers hdisciplined hasks hanswers
  | other hfresh htree hkept => exact hinv.other hfresh htree hkept

/-! ## 6. Runs -/

/-- **Every run of disciplined programs** keeps the invariant. -/
theorem writer_run_inv (hdisciplined : Disciplined rt program ready) (hinv : WriterInv rt repo ready w)
    (hrun : Relation.ReflTransGen (WriterStep rt repo program) w w') : WriterInv rt repo ready w' := by
  induction hrun with
  | refl => exact hinv
  | tail _ hstep ih => exact hstep.inv hdisciplined ih

/-- The program has posted, or is posting. -/
def Posts (x : ContinuationAct α) (h : History) : Prop :=
  sends h ≠ [] ∨ ∃ route payload, Asks x none h (.send route payload)

omit [DecidableEq ι] in
theorem ready_of_posts {i : ι} (hdisciplined : Disciplined rt program ready)
    (hinv : WriterInv rt repo ready w) (h : Posts (program i) (w.history i)) : ready i (w.history i) := by
  rcases h with hsent | ⟨route, payload, hasks⟩
  · exact (hinv.posts i).2 hsent
  · exact (hdisciplined.send i _ route payload hasks).2

/-- A stretch of a program that the world does not change in. -/
theorem writer_run_idle {i : ι} {stretch post : History} {r : Py α} {s : Option Visibility}
    (hends : Ends (program i) none (w.history i ++ stretch ++ post) r s)
    (hanswers : ∀ e ∈ stretch, w.Answers repo i e.1 e.2) :
    Relation.ReflTransGen (WriterStep rt repo program) w
      { w with history := Function.update w.history i (w.history i ++ stretch) } := by
  induction stretch generalizing w with
  | nil =>
    rw [List.append_nil, Function.update_eq_self]
  | cons e stretch ih =>
    obtain ⟨hanswer, hrest⟩ := List.forall_mem_cons.mp hanswers
    rw [List.append_assoc, List.cons_append] at hends
    have hasks : Asks (program i) none (w.history i) e.1 := Returns.prefix hends
    refine .head (WriterStep.answers hasks hanswer) ?_
    have hgo := @ih { w with history := Function.update w.history i (w.history i ++ [e]) }
      (by simpa using hends) hrest
    dsimp only at hgo
    rw [Function.update_self, Function.update_idem, List.append_assoc, List.singleton_append] at hgo
    exact hgo

end Supplementary.Continuation
