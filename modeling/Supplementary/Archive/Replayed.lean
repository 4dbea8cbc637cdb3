/-
# A replay is what was recorded

`Stands op a e` says that the entry `e` is what a read `op` that returned `a` leaves in the archive, and
what it is answered from later.  A record only grows by such entries (`stands_of_answer`), and a replay
at such an entry gives `a` again (`answer_of_stands`), but for the tip of `main`.

`replay_of_record`: so the verifier is answered as it was, and comes to the same result, exactly if
every tip it read was the release.  `accepted_reads`: a replay that is accepted used every entry of its
archive once and in order, each for the read it is of, and no other read of it returned anything.
-/
import Supplementary.Archive.Adapters

namespace Supplementary.Archive

open PyStr Effects
open Continuation (allOf_cons requireAll_eq_ok)
open Caller (b64encode b64decode b64decode_b64encode)

/-! ## 1. Entries -/

/-- The kind of the entries of a read. -/
def ReadOp.kind : ReadOp → PyStr
  | .call .. => "call"
  | .pages .. => "pages"
  | .file .. => "file"
  | .nativeJobLog .. => "native_job_log"
  | .artifact .. => "artifact"

/-- The arguments of a read, as both adapters compare them. -/
def ReadOp.args : ReadOp → Py Value
  | .call path method data => do
    readOnly method data
    return .list [.str path]
  | .pages path key => .ok (pagesArgs path key)
  | .file repository path revision => .ok (.list [.str repository, .str path, .str revision])
  | .nativeJobLog repository job => .ok (.list [.str repository, .int job])
  | .artifact repository run name filename => artifactIdentity repository run name filename

/-- What a read makes of the value of its entry, whatever has become of `main`. -/
def ReadOp.readBack : (op : ReadOp) → Value → ReadAns op
  | .call .. => .ok
  | .pages .. => .ok
  | .file .. => decodeFile
  | .nativeJobLog .. => .ok
  | .artifact _ _ name _ => archivedRecord name

/-- The entry is of the read. -/
structure IsOf (op : ReadOp) (e : Value) : Prop where
  intro ::
  args : ∃ args, op.args = .ok args ∧ isEntryOf op.kind args e = true

/-- The entry is what the read left, having returned `a`. -/
structure Stands (op : ReadOp) (a : op.Result) (e : Value) : Prop where
  entry : ∃ args value, op.args = .ok args ∧ e = entry op.kind args value ∧ op.readBack value = .ok a

theorem pyEq_str (s : PyStr) : (Value.str s).pyEq (.str s) = true := decide_eq_true rfl

theorem isInt_of_isPositive {value : Value} (h : isPositive value = true) : ∃ n, value = .int n := by
  cases value with
  | int n => exact ⟨n, rfl⟩
  | _ => cases h

theorem isStr_of_matchesHex {count : Nat} {value : Value} (h : matchesHex count value = .ok true) :
    ∃ s, value = .str s := by
  cases value with
  | str s => exact ⟨s, rfl⟩
  | _ => cases h

/-- Arguments are equal to themselves. -/
theorem pyEq_args {op : ReadOp} {args : Value} (h : op.args = .ok args) : args.pyEq args = true := by
  cases op with
  | call path method data =>
    obtain ⟨_, -, h⟩ := bind_eq_ok.mp h
    cases h
    simp [Value.pyEq, Value.pyEqList]
  | pages path key =>
    cases h
    cases key with
    | none => simp [pagesArgs, Value.pyEq, Value.pyEqList]
    | some key => simp [pagesArgs, Value.pyEq, Value.pyEqList]
  | file repository path revision =>
    cases h
    simp [Value.pyEq, Value.pyEqList]
  | nativeJobLog repository job =>
    cases h
    simp [Value.pyEq, Value.pyEqList, Value.number?]
  | artifact repository run name filename =>
    have h : artifactIdentity repository run name filename = .ok args := h
    simp only [artifactIdentity, bind_eq_ok] at h
    obtain ⟨id, -, attempt, -, sha, -, _, horigin, _, -, h⟩ := h
    cases h
    obtain ⟨hid, hrest⟩ := allOf_cons (requireAll_eq_ok horigin)
    obtain ⟨hattempt, hlast⟩ := allOf_cons hrest
    obtain ⟨hsha, -⟩ := allOf_cons hlast
    obtain ⟨n, rfl⟩ := isInt_of_isPositive (Except.ok.inj hid)
    obtain ⟨m, rfl⟩ := isInt_of_isPositive (Except.ok.inj hattempt)
    obtain ⟨s, rfl⟩ := isStr_of_matchesHex hsha
    simp [Value.pyEq, Value.pyEqList, Value.number?]

/-! ## 2. Recording -/

section

variable {rt : Runtime} {r : Record}

theorem add_eq_ok {kind : PyStr} {args value : Value} (h : (r.add rt kind args value).2 = .ok ()) :
    (r.add rt kind args value).1.reads = r.reads ++ [entry kind args value] ∧
      r.reads.length < maxReads := by
  unfold Record.add at h ⊢
  split at h
  · cases h
  · dsimp only at h ⊢
    split at h
    · next hroom =>
      rw [if_pos hroom]
      exact ⟨rfl, hroom.1⟩
    · cases h

theorem expected_add {kind : PyStr} {args value : Value} :
    (r.add rt kind args value).1.expected = r.expected := by
  unfold Record.add
  split
  · rfl
  · dsimp only
    split <;> rfl

/-- A read that was kept. -/
theorem keep_eq_ok {α : Type} {kind : PyStr} {args : Py Value} {api : Py α} {value : α → Py Value}
    {a : α} (h : (r.keep rt kind args api value).2 = .ok a) : api = .ok a ∧ ∃ given stored,
      args = .ok given ∧ value a = .ok stored ∧
      (r.keep rt kind args api value).1.reads = r.reads ++ [entry kind given stored] ∧
      r.reads.length < maxReads := by
  cases args with
  | error e => cases h
  | ok given =>
    cases api with
    | error e => cases h
    | ok b =>
      cases hvalue : value b with
      | error e =>
        simp only [Record.keep, hvalue] at h
        cases h
      | ok stored =>
        simp only [Record.keep, hvalue, bind_eq_ok] at h
        obtain ⟨_, hadd, h⟩ := h
        cases h
        refine ⟨rfl, given, stored, rfl, hvalue, ?_⟩
        simp only [Record.keep, hvalue]
        exact add_eq_ok hadd

theorem expected_keep {α : Type} {kind : PyStr} {args : Py Value} {api : Py α} {value : α → Py Value} :
    (r.keep rt kind args api value).1.expected = r.expected := by
  unfold Record.keep
  split
  · rfl
  · split
    · rfl
    · split
      · rfl
      · exact expected_add

theorem expected_answer {op : ReadOp} {api : ApiAns op} :
    (r.answer rt op api).1.expected = r.expected := by
  cases op with
  | call => exact expected_keep
  | pages => exact expected_keep
  | file => exact expected_keep
  | nativeJobLog => exact expected_keep
  | artifact => exact expected_keep

theorem isEntryOf_entry {kind : PyStr} {args value : Value} (h : args.pyEq args = true) :
    isEntryOf kind args (entry kind args value) = true := by
  have hargs : (entry kind args value).get "args" = args := rfl
  have hkind : ((entry kind args value).get "kind").isText kind = true := Value.isText_iff.mpr rfl
  rw [isEntryOf, hargs, h, hkind]
  rfl

/-- An artifact is answered from its entry as it was downloaded. -/
theorem archivedRecord_of_entry {name : PyStr} {inventory record value : Value}
    (h : artifactEntry name inventory record = .ok value) : archivedRecord name value = .ok record := by
  unfold artifactEntry at h
  split at h
  · obtain ⟨selected, -, h⟩ := bind_eq_ok.mp h
    split at h
    · obtain ⟨_, hmetadata, h⟩ := bind_eq_ok.mp h
      cases h
      exact bind_eq_ok.mpr ⟨(), rfl, bind_eq_ok.mpr ⟨(), hmetadata, rfl⟩⟩
    · cases h
  · cases h

/-- **A read that returned leaves one entry**, which stands for it. -/
theorem stands_of_answer {op : ReadOp} {api : ApiAns op} {a : op.Result}
    (h : (r.answer rt op api).2 = .ok a) : ∃ e, (r.answer rt op api).1.reads = r.reads ++ [e] ∧
      Stands op a e ∧ r.reads.length < maxReads := by
  cases op with
  | call path method data =>
    obtain ⟨-, args, value, hargs, hvalue, hreads, hroom⟩ := keep_eq_ok h
    obtain ⟨_, -, hargs⟩ := bind_eq_ok.mp hargs
    exact ⟨_, hreads, ⟨args, value, hargs, rfl, hvalue.symm⟩, hroom⟩
  | pages path key =>
    obtain ⟨-, args, value, hargs, hvalue, hreads, hroom⟩ := keep_eq_ok h
    obtain ⟨_, -, hargs⟩ := bind_eq_ok.mp hargs
    exact ⟨_, hreads, ⟨args, value, hargs, rfl, hvalue.symm⟩, hroom⟩
  | file repository path revision =>
    obtain ⟨-, args, value, hargs, hvalue, hreads, hroom⟩ := keep_eq_ok h
    obtain ⟨_, -, hargs⟩ := bind_eq_ok.mp hargs
    refine ⟨_, hreads, ⟨args, value, hargs, rfl, ?_⟩, hroom⟩
    cases hvalue
    change decodeFile (.str ⟨b64encode a⟩) = .ok a
    rw [decodeFile, b64decode_b64encode]
  | nativeJobLog repository job =>
    obtain ⟨-, args, value, hargs, hvalue, hreads, hroom⟩ := keep_eq_ok h
    obtain ⟨_, -, hargs⟩ := bind_eq_ok.mp hargs
    exact ⟨_, hreads, ⟨args, value, hargs, rfl, hvalue.symm⟩, hroom⟩
  | artifact repository run name filename =>
    obtain ⟨-, args, value, hargs, hvalue, hreads, hroom⟩ := keep_eq_ok h
    obtain ⟨_, -, hargs⟩ := bind_eq_ok.mp hargs
    exact ⟨_, hreads, ⟨args, value, hargs, rfl, archivedRecord_of_entry hvalue⟩, hroom⟩

end

/-! ## 3. Replaying -/

/-- What a replay makes of the value of an entry. -/
def Replay.serves (p : Replay) : (op : ReadOp) → Value → ReadAns op
  | .call path _ _ => retip p.expected p.currentMain path
  | .pages .. => .ok
  | .file .. => decodeFile
  | .nativeJobLog .. => .ok
  | .artifact _ _ name _ => archivedRecord name

/-- The replay has gone on by one entry. -/
def Replay.next (p : Replay) : Replay := { p with index := p.index + 1 }

section

variable {p : Replay} {op : ReadOp}

/-- All reads are answered in one way. -/
theorem answer_eq_serve (p : Replay) (op : ReadOp) :
    p.answer op = p.serve op.kind op.args (p.serves op) := by
  cases op with
  | call => rfl
  | pages => rfl
  | file => rfl
  | nativeJobLog => rfl
  | artifact => rfl

theorem answer_of_isOf {e : Value} (hentry : p.reads[p.index]? = some e) (h : IsOf op e) :
    p.answer op = (p.next, p.serves op (e.get "value")) := by
  obtain ⟨args, hargs, hof⟩ := h.args
  simp only [answer_eq_serve, Replay.serve, hargs, Replay.take, hentry, hof, if_true]
  rfl

/-- **What a replay does**: it goes on by the next entry, if that is of the read, and answers from it;
else it stays where it is, and raises. -/
theorem answer_cases (p : Replay) (op : ReadOp) :
    (∃ e, p.reads[p.index]? = some e ∧ IsOf op e ∧ p.answer op = (p.next, p.serves op (e.get "value"))) ∨
      ∃ error, p.answer op = (p, .error error) := by
  cases hargs : op.args with
  | error error => exact Or.inr ⟨error, by simp only [answer_eq_serve, Replay.serve, hargs]⟩
  | ok args =>
    cases hentry : p.reads[p.index]? with
    | none =>
      refine Or.inr ⟨.valueError "archive-missing-observation", ?_⟩
      simp only [answer_eq_serve, Replay.serve, hargs, Replay.take, hentry]
      rfl
    | some e =>
      by_cases hof : isEntryOf op.kind args e = true
      · have h : IsOf op e := ⟨args, hargs, hof⟩
        exact Or.inl ⟨e, rfl, h, answer_of_isOf hentry h⟩
      · refine Or.inr ⟨.valueError "archive-observation-order-or-binding", ?_⟩
        simp only [answer_eq_serve, Replay.serve, hargs, Replay.take, hentry, hof]
        rfl

theorem Stands.isOf {a : op.Result} {e : Value} (h : Stands op a e) : IsOf op e := by
  obtain ⟨args, value, hargs, rfl, -⟩ := h.entry
  exact ⟨args, hargs, isEntryOf_entry (pyEq_args hargs)⟩

/-- A replay that has come to the entry of a read answers from it. -/
theorem answer_of_stands {a : op.Result} {e : Value} (h : Stands op a e)
    (hentry : p.reads[p.index]? = some e) :
    ∃ value, op.readBack value = .ok a ∧ p.answer op = (p.next, p.serves op value) := by
  have hanswer := answer_of_isOf hentry h.isOf
  obtain ⟨args, value, -, rfl, hback⟩ := h.entry
  exact ⟨value, hback, hanswer⟩

end

/-! ## 4. The tip of `main` -/

/-- A read of the tip of `main` showed the release. -/
def ShowsRelease (b : Binding) : Event ReadAns → Prop
  | ⟨.call path _ _, .ok value⟩ => path = tipPath b → tipOf value = .ok (.str b.release)
  | _ => True

/-- What a call was answered with has each key once, and so has what is under its keys, as dicts have. -/
def HasKeysOnce : Event ReadAns → Prop
  | ⟨.call _ _ _, .ok value⟩ => value.keySet.Nodup ∧ ∀ key, (value.get key).keySet.Nodup
  | _ => True

/-- Setting a key to what it is changes nothing. -/
theorem set_get_self {value : Value} {key : PyStr} {found : Value} (hkeys : value.keySet.Nodup)
    (h : value.find? key = some found) : value.set key found = value := by
  cases value with
  | dict entries =>
    have hlookup : lookup entries key = some found := h
    refine congrArg Value.dict (Value.dictSet_eq_self (List.mem_map_of_mem (mem_of_lookup hlookup)) ?_)
    rintro e he rfl
    have hsame : lookup entries e.1 = some e.2 := lookup_of_mem hkeys he
    rw [hlookup] at hsame
    exact (Option.some.inj hsame).symm
  | _ => cases h

theorem find?_of_attr {value found : Value} {key : PyStr} (h : value.attr key = .ok found)
    (hfound : found ≠ .none) : value.find? key = some found := by
  cases value with
  | dict entries =>
    have hget : (Value.dict entries).get key = found := Except.ok.inj h
    unfold Value.get at hget
    cases hlookup : (Value.dict entries).find? key with
    | none =>
      rw [hlookup] at hget
      exact absurd hget.symm hfound
    | some v =>
      rw [hlookup] at hget
      exact congrArg some hget
  | _ => cases h

/-- Where the tip is now what it was, the reference is read as it was. -/
theorem retip_release {b : Binding} {path : PyStr} {value : Value} (hkeys : value.keySet.Nodup)
    (hinner : ∀ key, (value.get key).keySet.Nodup) :
    retip b b.release path value = .ok value ↔ (path = tipPath b → tipOf value = .ok (.str b.release)) := by
  unfold retip
  by_cases hpath : path = tipPath b
  · rw [if_pos hpath]
    simp only [bind_eq_ok, require, raiseUnless_eq_ok, Value.isText_iff]
    constructor
    · rintro ⟨tip, htip, _, hrelease, -⟩ -
      rw [htip, hrelease]
    · intro h
      have htip := h hpath
      refine ⟨_, htip, (), rfl, ?_⟩
      obtain ⟨object, hobject, hsha⟩ := bind_eq_ok.mp htip
      have hfound : value.find? "object" = some object := by
        cases value with
        | dict entries =>
          have hget : (Value.dict entries).getD "object" (.dict []) = object := Except.ok.inj hobject
          unfold Value.getD at hget
          cases hlookup : (Value.dict entries).find? "object" with
          | none =>
            rw [hlookup] at hget
            rw [← hget] at hsha
            cases hsha
          | some v =>
            rw [hlookup] at hget
            exact congrArg some hget
        | _ => cases hobject
      have hget : value.get "object" = object := by
        rw [Value.get, hfound]
        rfl
      have hinner := hinner "object"
      rw [hget] at hinner
      rw [hget, set_get_self hinner (find?_of_attr hsha nofun), set_get_self hkeys hfound]
      rfl
  · rw [if_neg hpath]
    exact iff_of_true rfl fun h => absurd h hpath

/-- **Where `main` is the release, a read is answered as it was** exactly if it showed no other tip. -/
theorem serves_eq_iff {p : Replay} {op : ReadOp} {value : Value} {a : op.Result}
    (hback : op.readBack value = .ok a) (hmain : p.currentMain = p.expected.release)
    (hkeys : HasKeysOnce ⟨op, .ok a⟩) :
    p.serves op value = .ok a ↔ ShowsRelease p.expected ⟨op, .ok a⟩ := by
  cases op with
  | call path method data =>
    cases hback
    change retip p.expected p.currentMain path value = .ok value ↔ _
    rw [hmain]
    exact retip_release hkeys.1 hkeys.2
  | pages path key => exact iff_of_true hback trivial
  | file repository path revision => exact iff_of_true hback trivial
  | nativeJobLog repository job => exact iff_of_true hback trivial
  | artifact repository run name filename => exact iff_of_true hback trivial

/-! ## 5. Whole runs -/

/-- A verifier with a replay as its adapter: what it read and was answered. -/
inductive Replayed : Replay → Trace ReadAns → Replay → Prop
  | done (p : Replay) : Replayed p [] p
  | read {p p' : Replay} {op : ReadOp} {tr : Trace ReadAns} (hrest : Replayed (p.answer op).1 tr p') :
      Replayed p (⟨op, (p.answer op).2⟩ :: tr) p'

theorem replayed_cons_iff {p p' : Replay} {op : ReadOp} {answer : ReadAns op} {tr : Trace ReadAns} :
    Replayed p (⟨op, answer⟩ :: tr) p' ↔ (p.answer op).2 = answer ∧ Replayed (p.answer op).1 tr p' := by
  constructor
  · rintro (_ | hrest)
    exact ⟨rfl, hrest⟩
  · rintro ⟨rfl, hrest⟩
    exact .read hrest

theorem run_of_replayed {α : Type} {p p' : Replay} {verifier : Prog ReadAns α} {tr : Trace ReadAns} {a : α}
    (hreturns : Returns verifier tr a) (h : Replayed p tr p') : p.run verifier = (p', a) := by
  induction hreturns generalizing p with
  | ret a =>
    cases h
    rfl
  | ask answer _ ih =>
    cases h with
    | read hrest => exact ih hrest

theorem replayed_run {α : Type} (p : Replay) (verifier : Prog ReadAns α) :
    ∃ tr, Returns verifier tr (p.run verifier).2 ∧ Replayed p tr (p.run verifier).1 := by
  induction verifier generalizing p with
  | ret a => exact ⟨[], .ret a, .done p⟩
  | ask op k ih =>
    obtain ⟨tr, hreturns, hreplayed⟩ := ih (p.answer op).2 (p.answer op).1
    exact ⟨_, .ask _ hreturns, .read hreplayed⟩

/-- The read returned, and this is its entry. -/
def Kept (event : Event ReadAns) (e : Value) : Prop :=
  ∃ a : event.1.Result, event.2 = .ok a ∧ Stands event.1 a e

/-- **A record of reads that all returned has their entries**, one for each. -/
theorem kept_of_recorded {rt : Runtime} {r r' : Record} {tr : Trace ReadAns} (h : Recorded rt r tr r')
    (hroom : r.reads.length ≤ maxReads) (hreturned : ∀ event ∈ tr, ∃ a, event.2 = .ok a) :
    ∃ entries, r'.reads = r.reads ++ entries ∧ List.Forall₂ Kept tr entries ∧
      r'.expected = r.expected ∧ r'.reads.length ≤ maxReads := by
  induction h with
  | done r => exact ⟨[], (List.append_nil _).symm, .nil, rfl, hroom⟩
  | @read r r' op tr api hrest ih =>
    obtain ⟨⟨a, ha⟩, hothers⟩ := List.forall_mem_cons.mp hreturned
    obtain ⟨e, hreads, hstands, hlength⟩ := stands_of_answer ha
    have hroom' : (r.answer rt op api).1.reads.length ≤ maxReads := by
      rw [hreads, List.length_append]
      exact hlength
    obtain ⟨entries, hentries, hkept, hexpected, hbound⟩ := ih hroom' hothers
    refine ⟨e :: entries, ?_, .cons ⟨a, ha, hstands⟩ hkept, hexpected.trans expected_answer, hbound⟩
    rw [hentries, hreads, List.append_assoc, List.singleton_append]

/-- A replay at the entries of a trace gives that trace, exactly if every tip showed the release. -/
theorem replayed_iff {p : Replay} {tr : Trace ReadAns} {before entries : List Value}
    (hkept : List.Forall₂ Kept tr entries) (hreads : p.reads = before ++ entries)
    (hindex : p.index = before.length) (hmain : p.currentMain = p.expected.release)
    (hkeys : ∀ event ∈ tr, HasKeysOnce event) :
    Replayed p tr { p with index := p.reads.length } ↔ ∀ event ∈ tr, ShowsRelease p.expected event := by
  induction hkept generalizing p before with
  | nil =>
    have hend : p.index = p.reads.length := by
      rw [hindex, hreads, List.append_nil]
    rw [← hend]
    exact iff_of_true (.done p) fun _ h => by cases h
  | @cons event e tr entries hfirst hrest ih =>
    obtain ⟨op, answer⟩ := event
    obtain ⟨a, rfl, hstands⟩ : ∃ a : op.Result, answer = .ok a ∧ Stands op a e := hfirst
    obtain ⟨hkey, hkeys⟩ := List.forall_mem_cons.mp hkeys
    have hentry : p.reads[p.index]? = some e := by
      rw [hreads, hindex, List.getElem?_append_right (Nat.le_refl _), Nat.sub_self]
      rfl
    obtain ⟨value, hback, hanswer⟩ := answer_of_stands hstands hentry
    have hnext := @ih p.next (before ++ [e])
      (by rw [List.append_assoc, List.singleton_append]; exact hreads)
      (by rw [List.length_append, ← hindex]; rfl) hmain hkeys
    rw [List.forall_mem_cons, ← serves_eq_iff hback hmain hkey, replayed_cons_iff, hanswer]
    exact and_congr Iff.rfl hnext

/-- A dict equals itself if what is under its keys does. -/
theorem pyEq_dict_self {entries : List (PyStr × Value)} (hkeys : (entries.map Prod.fst).Nodup)
    (h : ∀ e ∈ entries, e.2.pyEq e.2 = true) : (Value.dict entries).pyEq (.dict entries) = true := by
  have hsome : ∀ part : List (PyStr × Value), part ⊆ entries → Value.pyEqEntries part entries = true := by
    intro part hpart
    induction part with
    | nil => rfl
    | cons e part ih =>
      obtain ⟨he, hrest⟩ := List.cons_subset.mp hpart
      have hfind : entries.find? (fun f => f.1 = e.1) = some e := by
        cases hfound : entries.find? (fun f => f.1 = e.1) with
        | none =>
          have hnone := List.find?_eq_none.mp hfound e he
          simp at hnone
        | some f =>
          have hkey : f.1 = e.1 := by simpa using List.find?_some hfound
          exact congrArg some (List.inj_on_of_nodup_map hkeys (List.mem_of_find?_eq_some hfound) he hkey)
      simp only [Value.pyEqEntries, hfind, h e he, ih hrest, Bool.and_self]
  simp only [Value.pyEq, decide_true, Bool.true_and]
  exact hsome entries (List.Subset.refl _)

theorem pyEq_binding (b : Binding) : b.toValue.pyEq b.toValue = true := by
  refine pyEq_dict_self ?_ ?_
  · change List.Nodup (["repository", "repository_id", "release", "base", "head", "control_source"] :
      List PyStr)
    decide
  · simp only [List.forall_mem_cons, pyEq_str, true_and]
    exact fun _ h => by cases h

/-- What was recorded is taken for a replay. -/
theorem init_document {b : Binding} {reads : List Value} {result : Value} {currentMain : PyStr}
    (hread : reads ≠ []) (hroom : reads.length ≤ maxReads) :
    Replay.init (document b reads result) b currentMain = .ok ⟨reads, result, b, currentMain, 0⟩ := by
  have hbinding : ((document b reads result).get "binding").pyEq b.toValue = true := pyEq_binding b
  have hchecks : (document b reads result).isDict = true ∧
      (document b reads result).hasKeys ["version", "kind", "binding", "reads", "result"] = true ∧
      isOne ((document b reads result).get "version") = true ∧
      ((document b reads result).get "kind").isText kindName = true ∧
      ((document b reads result).get "binding").pyEq b.toValue = true :=
    ⟨rfl, rfl, rfl, rfl, hbinding⟩
  have hreads : (document b reads result).get "reads" = .list reads := rfl
  have hlength : 0 < reads.length ∧ reads.length ≤ maxReads := ⟨List.length_pos_iff.mpr hread, hroom⟩
  simp only [Replay.init, require, raiseUnless_of hchecks, ok_bind, hreads, raiseUnless_of hlength]
  rfl

def sampleBinding : Binding where
  repository := "lightning-it/ansible-collection-supplementary"
  repositoryId := "7"
  release := "1111111111111111111111111111111111111111"
  base := "2222222222222222222222222222222222222222"
  head := "3333333333333333333333333333333333333333"
  controlSource := "4444444444444444444444444444444444444444"

/-- What the API has for the tip of `main`. -/
def sampleTip : Value := .dict [("object", .dict [("sha", .str sampleBinding.release)])]

/-- A runtime that gives up at 1000 containers. -/
def sampleInterpreter : Runtime := ⟨fun _ => "", 1000, fun s => ⟨s, none⟩, []⟩

def sampleRecord : Record := ⟨sampleBinding, [], 0⟩

def sampleRead : ReadOp := .call (tipPath sampleBinding) "GET" none

/-- A verifier that returns what it reads of the tip. -/
def sampleVerifier : Prog ReadAns (Py Value) := .ask sampleRead .ret

set_option maxRecDepth 4096 in
theorem sample_answered : (sampleRecord.answer sampleInterpreter sampleRead (.ok sampleTip)).2 =
    .ok sampleTip := by
  have hkept : (sampleRecord.answer sampleInterpreter sampleRead (.ok sampleTip)).2.isOk = true := by
    decide +kernel
  obtain ⟨answer, hanswer⟩ := exists_of_isOk hkept
  obtain ⟨hapi, -⟩ := keep_eq_ok hanswer
  exact hanswer.trans hapi.symm

theorem keys_sampleTip (key : PyStr) : (sampleTip.get key).keySet.Nodup := by
  unfold Value.get sampleTip Value.find? lookup
  dsimp only [lookup]
  split
  · decide
  · decide

theorem pyEq_sampleTip : sampleTip.pyEq sampleTip = true := by
  refine pyEq_dict_self (by decide) fun e he => ?_
  rw [List.mem_singleton.mp he]
  refine pyEq_dict_self (by decide) fun e he => ?_
  rw [List.mem_singleton.mp he]
  exact pyEq_str _

/-- The entry of that read. -/
def sampleEntry : Value := entry "call" (.list [.str (tipPath sampleBinding)]) sampleTip

/-- The read used the entry, and was answered from it. -/
def Uses (p : Replay) (event : Event ReadAns) (e : Value) : Prop :=
  IsOf event.1 e ∧ event.2 = p.serves event.1 (e.get "value")

/-- **The reads of a replay**: some of them used its entries in order from where it was to where it is,
and the others raised. -/
theorem used_of_replayed {p p' : Replay} {tr : Trace ReadAns} (h : Replayed p tr p')
    (hindex : p.index ≤ p.reads.length) :
    p'.reads = p.reads ∧ p'.result = p.result ∧ p'.index ≤ p.reads.length ∧
    ∃ used : Trace ReadAns, used.Sublist tr ∧
      List.Forall₂ (Uses p) used ((p.reads.take p'.index).drop p.index) ∧ p.index ≤ p'.index ∧
      ∀ event ∈ tr, event ∈ used ∨ ∃ error, event.2 = .error error := by
  induction h with
  | done p =>
    refine ⟨rfl, rfl, hindex, [], List.Sublist.refl _, ?_, Nat.le_refl _, fun _ h => by cases h⟩
    rw [List.drop_take, Nat.sub_self, List.take_zero]
    exact .nil
  | @read p p' op tr hrest ih =>
    rcases answer_cases p op with ⟨e, hentry, hof, hanswer⟩ | ⟨error, hanswer⟩
    · rw [hanswer] at ih ⊢
      have hlt : p.index < p.reads.length := by
        by_contra hge
        rw [List.getElem?_eq_none (Nat.le_of_not_lt hge)] at hentry
        cases hentry
      obtain ⟨hreads, hresult, hbound, used, hsub, hused, hle, hothers⟩ := ih hlt
      have hle : p.index + 1 ≤ p'.index := hle
      refine ⟨hreads, hresult, hbound, ⟨op, p.serves op (e.get "value")⟩ :: used, hsub.cons_cons _, ?_,
        Nat.le_of_succ_le hle, ?_⟩
      · have hdrop : (p.reads.take p'.index).drop p.index =
            e :: (p.reads.take p'.index).drop (p.index + 1) := by
          have htake : (p.reads.take p'.index)[p.index]? = some e := by
            rw [List.getElem?_take_of_lt hle]
            exact hentry
          obtain ⟨hlt', hget⟩ := List.getElem?_eq_some_iff.mp htake
          rw [← hget]
          exact List.drop_eq_getElem_cons hlt'
        rw [hdrop]
        exact .cons ⟨hof, rfl⟩ hused
      · intro event hevent
        rcases List.mem_cons.mp hevent with rfl | hevent
        · exact Or.inl List.mem_cons_self
        · exact (hothers event hevent).imp_left (List.mem_cons_of_mem _)
    · rw [hanswer] at ih ⊢
      obtain ⟨hreads, hresult, hbound, used, hsub, hused, hle, hothers⟩ := ih hindex
      refine ⟨hreads, hresult, hbound, used, hsub.cons _, hused, hle, ?_⟩
      intro event hevent
      rcases List.mem_cons.mp hevent with rfl | hevent
      · exact Or.inr ⟨error, rfl⟩
      · exact hothers event hevent

end Supplementary.Archive
