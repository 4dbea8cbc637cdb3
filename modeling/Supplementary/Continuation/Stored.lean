/-
# What the server stores and shows

The server takes the contents of a file out of a payload (`addition`), and an answer to a read shows
what is at a path in a commit (`Truthful`).  A record that `create` adds is a JSON object, so it is
never read back as `None`: where `read` returns `None`, there is no file (`lacks_of_recordOf`).
-/
import Supplementary.Continuation.Tries
import Supplementary.Lib.Branch
import Supplementary.Python.Incremental
import Supplementary.Python.JsonGrammar

namespace Supplementary.Caller

/-! ## 1. Base64 -/

theorem sextet?_sextet {n : Nat} (h : n < 64) : sextet? (sextet n) = some n := by
  have hall : ∀ n < 64, sextet? (sextet n) = some n := by decide +kernel
  exact hall n h

theorem sextet_ne {n : Nat} (h : n < 64) : sextet n ≠ 61 := by
  have hall : ∀ n < 64, sextet n ≠ 61 := by decide +kernel
  exact hall n h

/-- **What is decoded is what was encoded.** -/
theorem b64decode_b64encode (raw : Bytes) : b64decode (b64encode raw) = some raw := by
  induction raw using b64encode.induct with
  | case1 => rfl
  | case2 a =>
    have ha := a.toNat_lt
    have hfirst : (a.toNat / 4 * 4 + a.toNat % 4 * 16 / 16).toUInt8 = a :=
      ofNat_eq_of_toNat (by omega)
    rw [b64encode, b64decode, sextet?_sextet (by omega), sextet?_sextet (by omega)]
    simp only [Option.bind_eq_bind, Option.bind_some, and_self, if_true, hfirst]
    rfl
  | case3 a b =>
    have ha := a.toNat_lt
    have hb := b.toNat_lt
    have hfirst : (a.toNat / 4 * 4 + (a.toNat % 4 * 16 + b.toNat / 16) / 16).toUInt8 = a :=
      ofNat_eq_of_toNat (by omega)
    have hsecond : ((a.toNat % 4 * 16 + b.toNat / 16) % 16 * 16 + b.toNat % 16 * 4 / 4).toUInt8 = b :=
      ofNat_eq_of_toNat (by omega)
    have hne := @sextet_ne (b.toNat % 16 * 4) (by omega)
    rw [b64encode, b64decode, sextet?_sextet (by omega), sextet?_sextet (by omega)]
    simp only [Option.bind_eq_bind, Option.bind_some, hne, false_and, if_false, and_self, if_true,
      sextet?_sextet (show b.toNat % 16 * 4 < 64 by omega), hfirst, hsecond]
    rfl
  | case4 a b c rest ih =>
    have ha := a.toNat_lt
    have hb := b.toNat_lt
    have hc := c.toNat_lt
    have hfirst : (a.toNat / 4 * 4 + (a.toNat % 4 * 16 + b.toNat / 16) / 16).toUInt8 = a :=
      ofNat_eq_of_toNat (by omega)
    have hsecond : ((a.toNat % 4 * 16 + b.toNat / 16) % 16 * 16 +
        (b.toNat % 16 * 4 + c.toNat / 64) / 4).toUInt8 = b := ofNat_eq_of_toNat (by omega)
    have hthird : ((b.toNat % 16 * 4 + c.toNat / 64) % 4 * 64 + c.toNat % 64).toUInt8 = c :=
      ofNat_eq_of_toNat (by omega)
    have hne := @sextet_ne (b.toNat % 16 * 4 + c.toNat / 64) (by omega)
    have hne' := @sextet_ne (c.toNat % 64) (by omega)
    rw [b64encode, List.cons_append, List.cons_append, List.cons_append, List.cons_append,
      List.nil_append, b64decode, sextet?_sextet (by omega), sextet?_sextet (by omega)]
    simp only [Option.bind_eq_bind, Option.bind_some, hne, hne', false_and, if_false,
      sextet?_sextet (show b.toNat % 16 * 4 + c.toNat / 64 < 64 by omega),
      sextet?_sextet (show c.toNat % 64 < 64 by omega), ih, hfirst, hsecond, hthird]
    rfl

end Supplementary.Caller

namespace Supplementary.Continuation

open Effects PyStr Native

variable {rt : Runtime}

/-! ## 2. Records -/

/-- The octets are not those of a JSON `null`. -/
def IsRecord (rt : Runtime) (raw : Bytes) : Prop :=
  ∀ text : PyStr, text.utf8Encode = some raw → Json.loads rt uniqueHooks text ≠ .ok .none

/-- An octet of ASCII is a character of its own. -/
theorem codePoints_of_utf8Encode {text : PyStr} {b : UInt8} {rest : Bytes} (hb : b.toNat < 128)
    (h : text.utf8Encode = some (b :: rest)) : ∃ points, text.codePoints = b.toNat :: points := by
  obtain ⟨hencodable, hoctets⟩ := PyStr.utf8Encode_eq_some.mp h
  obtain ⟨points⟩ := text
  cases points with
  | nil => cases hoctets
  | cons v points =>
    refine ⟨points, ?_⟩
    have hsome : (utf8EncodePoint v).isSome = true := hencodable v List.mem_cons_self
    obtain ⟨octets, hv⟩ := Option.isSome_iff_exists.mp hsome
    have hfirst : octets ++ (⟨points⟩ : PyStr).octets = b :: rest := by
      have hcons : (⟨v :: points⟩ : PyStr).octets =
          (utf8EncodePoint v).getD [] ++ (⟨points⟩ : PyStr).octets := rfl
      rw [← hoctets, hcons, hv]
      rfl
    by_cases hlow : v ≤ 0x7f
    · rw [utf8EncodePoint, if_pos hlow] at hv
      cases hv
      rw [← (List.cons.inj hfirst).1, toNat_toUInt8 (by omega)]
    · have hhigh := Json.octetsOf_other (show 128 ≤ v by omega) b.toNat
      cases octets with
      | nil => exact absurd rfl (utf8EncodePoint_ne_nil hv)
      | cons c octets =>
        have hmem : b.toNat ∈ Json.octetsOf v := by
          rw [Json.octetsOf, hv, ← (List.cons.inj hfirst).1]
          exact List.mem_cons_self
        exact absurd (hhigh hmem) (by omega)

theorem isRecord_recordBytes {entries : List (PyStr × Value)} {raw : Bytes}
    (h : recordBytes rt (.dict entries) = .ok raw) : IsRecord rt raw := by
  have hbrace : ∃ rest, raw = 123 :: rest := by
    unfold recordBytes at h
    cases hdepth : rt.maxDepth with
    | zero =>
      rw [hdepth, dumps] at h
      cases h
    | succ depth =>
      rw [hdepth, dumps] at h
      obtain ⟨texts, -, h⟩ := bind_eq_ok.mp h
      cases h
      exact ⟨_, rfl⟩
  obtain ⟨rest, rfl⟩ := hbrace
  intro text htext hloads
  obtain ⟨points, hpoints⟩ := codePoints_of_utf8Encode (by decide) htext
  obtain ⟨entries, hdict⟩ := Json.loads_brace hpoints hloads
  cases hdict

/-! ## 3. What a payload adds -/

/-- The file that a payload adds: its path and its octets. -/
def addition (payload : Value) : Option (PyStr × Bytes) :=
  match ((inputOf payload).get "fileChanges").get "additions" with
  | .list [file] =>
    match file.get "path", file.get "contents" with
    | .str path, .str contents => (Caller.b64decode contents.codePoints).map fun raw => (path, raw)
    | _, _ => none
  | _ => none

/-- The payload is for the journal of the repository. -/
def isFor (repo : PyStr) (payload : Value) : Bool :=
  let branch := (inputOf payload).get "branch"
  (branch.get "repositoryNameWithOwner").isText repo &&
    (branch.get "branchName").isText "lit-review-operations"

theorem addition_commitPayload (journal : Journal) (path : PyStr) (raw : Bytes) :
    addition (commitPayload journal path raw) = some (path, raw) := by
  have heq : addition (commitPayload journal path raw) =
      (Caller.b64decode (Caller.b64encode raw)).map fun raw => (path, raw) := rfl
  rw [heq, Caller.b64decode_b64encode]
  rfl

theorem repo_of_isFor {repo path : PyStr} {journal : Journal} {raw : Bytes}
    (h : isFor repo (commitPayload journal path raw) = true) : journal.repo = repo := by
  have htext := (Bool.and_eq_true_iff.mp h).1
  exact Value.str.inj (Value.isText_iff.mp htext)

/-! ## 4. What an answer shows -/

/-- What an object of the answer shows of the file: that there is none, or its text. -/
def ShowsFile (object : Value) (file : Option Bytes) : Prop :=
  (object.isNone = true → file = none) ∧
    ∀ text, (object.get "isTruncated").isFalse = true → object.get "text" = .str text →
      ∃ raw, file = some raw ∧ text.utf8Encode = some raw

/-- An answer that names the commit of the journal shows what is at the path in that commit. -/
def Truthful (b : Branch PyStr PyStr Bytes) (repo : PyStr) (request : Paging.Request)
    (result : Value) : Prop :=
  ∀ journal path data object, readRequest journal path = .ok request → journal.repo = repo →
    itemAt result ["data", "repository"] = .ok data →
    itemIs data ["source"] (.dict [("__typename", .str "Commit"), ("oid", .str journal.oid)]) =
      .ok true →
    data.item "record" = .ok object →
      ∃ t, b.tree journal.oid = some t ∧ ShowsFile object (t path)

theorem readRequest_eq_ok {journal : Journal} {path : PyStr} {request : Paging.Request}
    (h : readRequest journal path = .ok request) : ∃ owner name, request =
      ⟨"graphql", ["-f", readQuery, "-f", "owner=" ++ owner, "-f", "name=" ++ name,
        "-f", "oid=" ++ journal.oid, "-f", "manifest=" ++ journal.oid ++ ":manifest.json",
        "-f", "record=" ++ journal.oid ++ ":" ++ path]⟩ := by
  unfold readRequest at h
  split at h
  · cases h
    exact ⟨_, _, rfl⟩
  · cases h

theorem append_left_cancel {s t u : PyStr} (h : s ++ t = s ++ u) : t = u :=
  PyStr.ext (List.append_cancel_left (congrArg PyStr.codePoints h))

/-- A request names its commit and its path. -/
theorem request_injective {journal journal' : Journal} {path path' : PyStr} {request : Paging.Request}
    (h : readRequest journal path = .ok request) (h' : readRequest journal' path' = .ok request) :
    journal.oid = journal'.oid ∧ path = path' := by
  obtain ⟨owner, name, rfl⟩ := readRequest_eq_ok h
  obtain ⟨owner', name', heq⟩ := readRequest_eq_ok h'
  simp only [Paging.Request.mk.injEq, List.cons.injEq, true_and, and_true] at heq
  obtain ⟨-, -, hoid, -, hrecord⟩ := heq
  have hsame := append_left_cancel hoid
  rw [hsame] at hrecord
  exact ⟨hsame, append_left_cancel hrecord⟩

theorem get_of_item {value v : Value} {key : PyStr} (h : value.item key = .ok v) :
    value.get key = v := by
  cases value with
  | dict entries =>
    unfold Value.item at h
    dsimp only at h
    unfold Value.get
    split at h
    · next w hw =>
      rw [hw]
      exact Except.ok.inj h
    · cases h
  | _ => cases h

theorem blob_eq_ok {value record : Value} (h : blob rt value = .ok record) :
    ∃ text, (value.get "isTruncated").isFalse = true ∧ value.get "text" = .str text ∧
      Json.loads rt uniqueHooks text = .ok record := by
  obtain ⟨_, hblob, h⟩ := bind_eq_ok.mp h
  obtain ⟨text, htext, h⟩ := bind_eq_ok.mp h
  have hshape := raiseUnless_eq_ok.mp hblob
  rw [Bool.and_eq_true, Bool.and_eq_true] at hshape
  cases text with
  | str text =>
    obtain ⟨size, -, h⟩ := bind_eq_ok.mp h
    obtain ⟨_, -, h⟩ := bind_eq_ok.mp h
    split at h
    · cases h
    · obtain ⟨_, -, h⟩ := bind_eq_ok.mp h
      exact ⟨text, hshape.2, get_of_item htext, h⟩
  | _ => cases h

theorem allOf_cons {condition : Py Bool} {rest : List (Py Bool)}
    (h : allOf (condition :: rest) = .ok true) : condition = .ok true ∧ allOf rest = .ok true := by
  obtain ⟨holds, hfirst, h⟩ := bind_eq_ok.mp h
  cases holds with
  | true => exact ⟨hfirst, h⟩
  | false => cases h

theorem requireAll_eq_ok {message : String} {conditions : List (Py Bool)} {u : Unit}
    (h : requireAll message conditions = .ok u) : allOf conditions = .ok true := by
  obtain ⟨holds, hall, h⟩ := bind_eq_ok.mp h
  rw [hall, raiseUnless_eq_ok.mp h]

/-- What `read` returns of a file: `None` for none, and what its text means. -/
inductive ReadsAs (rt : Runtime) : Option Bytes → Value → Prop
  | absent : ReadsAs rt none .none
  | text {raw : Bytes} {text : PyStr} {record : Value} (hencode : text.utf8Encode = some raw)
      (hloads : Json.loads rt uniqueHooks text = .ok record) : ReadsAs rt (some raw) record

/-- **What `read` returns is what is there.** -/
theorem readsAs_of_recordOf {b : Branch PyStr PyStr Bytes} {repo path : PyStr} {journal : Journal}
    {request : Paging.Request} {result record : Value} (htruth : Truthful b repo request result)
    (hrequest : readRequest journal path = .ok request) (hrepo : journal.repo = repo)
    (h : recordOf rt journal result = .ok record) :
    ∃ t, b.tree journal.oid = some t ∧ ReadsAs rt (t path) record := by
  obtain ⟨_, -, h⟩ := bind_eq_ok.mp h
  obtain ⟨_, -, h⟩ := bind_eq_ok.mp h
  obtain ⟨data, hdata, h⟩ := bind_eq_ok.mp h
  obtain ⟨_, hmixed, h⟩ := bind_eq_ok.mp h
  obtain ⟨_, -, h⟩ := bind_eq_ok.mp h
  obtain ⟨_, -, h⟩ := bind_eq_ok.mp h
  obtain ⟨_, -, h⟩ := bind_eq_ok.mp h
  obtain ⟨_, -, h⟩ := bind_eq_ok.mp h
  obtain ⟨object, hobject, h⟩ := bind_eq_ok.mp h
  have hsource := (allOf_cons (allOf_cons (requireAll_eq_ok hmixed)).2).1
  obtain ⟨t, htree, hnone, htext⟩ :=
    htruth journal path data object hrequest hrepo hdata hsource hobject
  refine ⟨t, htree, ?_⟩
  split at h
  · next hisNone =>
    cases h
    rw [hnone hisNone]
    exact .absent
  · obtain ⟨text, htruncated, hget, hloads⟩ := blob_eq_ok h
    obtain ⟨raw, hfile, hencode⟩ := htext text htruncated hget
    rw [hfile]
    exact .text hencode hloads

/-- Where `read` returns `None` there is no file, if every file there is a record. -/
theorem lacks_of_recordOf {b : Branch PyStr PyStr Bytes} {repo path : PyStr} {journal : Journal}
    {request : Paging.Request} {result : Value} (htruth : Truthful b repo request result)
    (hrequest : readRequest journal path = .ok request) (hrepo : journal.repo = repo)
    (hfiles : ∀ oid t raw, b.tree oid = some t → t path = some raw → IsRecord rt raw)
    (h : recordOf rt journal result = .ok .none) : b.Lacks journal.oid path := by
  obtain ⟨t, htree, hreads⟩ := readsAs_of_recordOf htruth hrequest hrepo h
  refine ⟨t, htree, ?_⟩
  generalize hfile : t path = file at hreads
  cases hreads with
  | absent => rfl
  | text hencode hloads => exact absurd hloads (hfiles journal.oid t _ htree hfile _ hencode)

end Supplementary.Continuation
