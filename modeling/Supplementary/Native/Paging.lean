/-
# Inventories read page by page

`pages` of the review requests' proof reads a REST inventory in pages of a hundred, and `threads` of
the recovery reads the review threads by cursor.  Neither is told how much there is to read: the one
stops at the first page that is not full, the other where the answer says so.  Both read ten pages at
most.

The environment answers each request, and answers it as it likes at another time.  `showsPage` and
`ShowsThreads` are the answers of an inventory that stays as it is.
-/
import Supplementary.Lib.Answered
import Supplementary.Native.Election

namespace Supplementary.Native.Paging

open Effects PyStr

/-! ## 1. The environment -/

/-- A call of `gh api`: its route and its fields.  The answer is the JSON value read, or what the call
raised. -/
structure Request where
  route : PyStr
  fields : List PyStr
  deriving DecidableEq

abbrev Answer : Request → Type := Fallible PyError fun _ => Value

abbrev GhAct (α : Type) : Type := Act Answer Unit PyError α

/-- `proof.api(route, fields=fields)`. -/
def proofApi (request : Request) : GhAct Value := Act.call request

/-- `api(route, fields=fields)` of the recovery: what is not available stops the whole sweep. -/
def api (request : Request) : GhAct Value :=
  (proofApi request).catching fun e =>
    if e.isValueError || e.isSubprocessError || e = .osError then
      Act.raise (.globalReadFailure "API read failed")
    else Act.raise e

/-! ## 2. `pages` -/

/-- `f"{route}{'&' if '?' in route else '?'}per_page=100&page={page}"`. -/
def pageRoute (route : PyStr) (page : Nat) : PyStr :=
  route ++ (if route.contains "?" then "&" else "?" : String) ++ "per_page=100&page=" ++ ofInt page

def pageRequest (route : PyStr) (page : Nat) : Request := ⟨pageRoute route page, []⟩

/-- `response if key is None else response[key]`. -/
def batchOf (response : Value) : Option PyStr → Py Value
  | none => .ok response
  | some key => response.item key

/-- `if key:`. -/
def isCounted : Option PyStr → Bool
  | none => false
  | some key => key ≠ ""

/-- The total that the response reports, which is the same as on the pages before. -/
def checkTotal (key : Option PyStr) (total : Option Int) (response : Value) : Py (Option Int) :=
  if isCounted key then do
    let count ← inventoryCount (← response.item "total_count")
    require (total = none ∨ total = some count) "changing inventory"
    return some count
  else .ok total

/-- One page: its items, and the total. -/
def readPage (key : Option PyStr) (total : Option Int) (response : Value) :
    Py (List Value × Option Int) := do
  let batch ← pageItems (← batchOf response key)
  let total ← checkTotal key total response
  return (batch, total)

/-- The last page was read. -/
def checkComplete (total : Option Int) (result : List Value) : Py (List Value) := do
  require (total = none ∨ total = some (result.length : Int)) "incomplete inventory"
  require (∀ item ∈ result, (item.isDict && positive (item.get "id")) = true) "item identity"
  require ((result.map fun item => identity (item.get "id")).Nodup) "duplicate inventory"
  return result

/-- The loop of `pages` from a page on, with the total and what was read so far. -/
def pagesFrom (route : PyStr) (key : Option PyStr) :
    (left page : Nat) → (total : Option Int) → List Value → GhAct (List Value)
  | 0, _, _, _ => Act.raise (.valueError "inventory limit")
  | left + 1, page, total, result => do
    let response ← proofApi (pageRequest route page)
    let (batch, total) ← readPage key total response
    if batch.length < 100 then checkComplete total (result ++ batch)
    else pagesFrom route key left (page + 1) total (result ++ batch)

/-- `pages(route, key)`. -/
def pages (route : PyStr) (key : Option PyStr) : GhAct (List Value) :=
  pagesFrom route key 10 1 none []

/-! ## 3. `threads` -/

def threadsQuery : PyStr :=
  "query=query($owner:String!,$name:String!,$number:Int!,$after:String)" ++
  "\x7brepository(owner:$owner,name:$name)\x7bpullRequest(number:$number)" ++
  "\x7breviewThreads(first:100,after:$after)\x7bnodes\x7bid isResolved\x7d" ++
  " pageInfo\x7bhasNextPage endCursor\x7d\x7d\x7d\x7d\x7d"

/-- `[] if cursor is None else ["-f", f"after={cursor}"]`. -/
def afterFields : Option PyStr → List PyStr
  | none => []
  | some cursor => ["-f", "after=" ++ cursor]

/-- The request for the threads after a cursor; a repository's name has an owner and a name. -/
def threadsRequest (repo : PyStr) (number : Int) (cursor : Option PyStr) : Py Request :=
  match repo.split '/' with
  | owner :: name :: _ => .ok ⟨"graphql", (["-f", threadsQuery, "-f", "owner=" ++ owner,
      "-f", "name=" ++ name, "-F", "number=" ++ ofInt number] : List PyStr) ++ afterFields cursor⟩
  | _ => .error .indexError

/-- `key in value` for a key that is text. -/
def hasKey (value : Value) (key : PyStr) : Py Bool :=
  match value with
  | .dict entries => .ok ((lookup entries key).isSome)
  | .list items => .ok (items.any fun item => item.isText key)
  | .str s => .ok (s.contains key)
  | _ => .error .typeError

/-- `result["data"]["repository"]["pullRequest"]["reviewThreads"]`. -/
def connectionOf (result : Value) : Py Value := do
  let data ← result.item "data"
  let repository ← data.item "repository"
  let pullRequest ← repository.item "pullRequest"
  pullRequest.item "reviewThreads"

/-- A list of at most a hundred threads. -/
def threadNodes : Value → Py (List Value)
  | .list items => do
    require (items.length ≤ 100) "thread inventory"
    return items
  | _ => .error (.valueError "thread inventory")

/-- The identity of one thread, which is text and not seen before. -/
def noteThread (seen : List PyStr) (item : Value) : Py (List PyStr) := do
  match ← item.item "id" with
  | .str id => do
    require (id ≠ "" ∧ id ∉ seen) "duplicate thread"
    return seen ++ [id]
  | _ => .error (.valueError "duplicate thread")

/-- `page["hasNextPage"]`. -/
def hasNextPage (page : Value) : Py Bool := do
  match ← page.item "hasNextPage" with
  | .bool b => .ok b
  | _ => .error (.valueError "thread pagination")

/-- `all(item["isResolved"] is True for item in nodes)`. -/
def allResolved : List Value → Py Bool
  | [] => .ok true
  | item :: nodes => do
    if (← item.item "isResolved").isTrue then allResolved nodes else .ok false

/-- The identity that a thread was noted under. -/
def threadId (item : Value) : PyStr :=
  match item.get "id" with
  | .str id => id
  | _ => ""

/-- `sorted(nodes, key=lambda item: item["id"])`. -/
def sortThreads (nodes : List Value) : List Value :=
  nodes.insertionSort fun a b => (threadId a).le (threadId b)

/-- The last page was read. -/
def closeThreads (nodes : List Value) : Py (List Value) := do
  if ← allResolved nodes then return sortThreads nodes
  else .error (.candidateClosed "unresolved thread")

/-- `page["endCursor"]` after a full page: text, and another one than before. -/
def nextCursor (cursor : Option PyStr) (batch : List Value) (page : Value) : Py PyStr := do
  require (batch.length = 100) "incomplete thread inventory"
  match ← page.item "endCursor" with
  | .str next => do
    require (next ≠ "" ∧ some next ≠ cursor) "incomplete thread inventory"
    return next
  | _ => .error (.valueError "incomplete thread inventory")

/-- One page of threads: the threads, the identities seen with it, and the cursor of the next page if
there is one. -/
def readThreads (cursor : Option PyStr) (seen : List PyStr) (result : Value) :
    Py (List Value × List PyStr × Option PyStr) := do
  require ((← hasKey result "errors") = false) "partial thread inventory"
  let connection ← connectionOf result
  let batch ← threadNodes (← connection.item "nodes")
  let seen ← batch.foldlM noteThread seen
  let page ← connection.item "pageInfo"
  if ← hasNextPage page then do
    let next ← nextCursor cursor batch page
    return (batch, seen, some next)
  else return (batch, seen, none)

/-- The loop of `threads`. -/
def threadsFrom (repo : PyStr) (number : Int) :
    (left : Nat) → (cursor : Option PyStr) → (seen : List PyStr) → List Value → GhAct (List Value)
  | 0, _, _, _ => Act.raise (.valueError "thread inventory limit")
  | left + 1, cursor, seen, nodes => do
    let request ← threadsRequest repo number cursor
    let result ← api request
    let (batch, seen, next) ← readThreads cursor seen result
    if next = none then closeThreads (nodes ++ batch)
    else threadsFrom repo number left next seen (nodes ++ batch)

/-- `threads(repo, number)`. -/
def threads (repo : PyStr) (number : Int) : GhAct (List Value) :=
  threadsFrom repo number 10 none [] []


/-! ## 4. An inventory that stays as it is -/

/-- The items of a page, where the first page is page zero. -/
def pageSlice (items : List Value) (page : Nat) : List Value := (items.drop (100 * page)).take 100

/-- The response shows a page of the inventory, and its true total. -/
structure ShowsPage (items : List Value) (key : Option PyStr) (page : Nat) (response : Value) :
    Prop where
  batch : batchOf response key = .ok (.list (pageSlice items page))
  total : isCounted key = true → response.item "total_count" = .ok (.int items.length)

/-- Every page, up to the first that is not full, is served. -/
def ServesPages (items : List Value) (route : PyStr) (key : Option PyStr)
    (answer : Request → Py Value) : Prop :=
  ∀ page < 10, 100 * page ≤ items.length →
    ∃ response, answer (pageRequest route (page + 1)) = .ok response ∧
      ShowsPage items key page response

/-- Objects with positive identities that differ. -/
def Identified (items : List Value) : Prop :=
  (∀ item ∈ items, (item.isDict && positive (item.get "id")) = true) ∧
    (items.map fun item => identity (item.get "id")).Nodup

/-- The result shows a page of the threads, and the cursor of its end if more follow. -/
def ShowsThreads (items : List Value) (page : Nat) (cursor : PyStr) (result : Value) : Prop :=
  hasKey result "errors" = .ok false ∧ ∃ connection pageInfo, connectionOf result = .ok connection ∧
    connection.item "nodes" = .ok (.list (pageSlice items page)) ∧
    connection.item "pageInfo" = .ok pageInfo ∧
    pageInfo.item "hasNextPage" = .ok (.bool (decide (100 * (page + 1) < items.length))) ∧
    (100 * (page + 1) < items.length → pageInfo.item "endCursor" = .ok (.str cursor))

/-- The cursor that a page is asked for with. -/
def cursorBefore (cursors : Nat → PyStr) : Nat → Option PyStr
  | 0 => none
  | page + 1 => some (cursors page)

/-- Every page of threads is served, and the cursors that are handed out differ. -/
structure ServesThreads (items : List Value) (cursors : Nat → PyStr) (repo : PyStr) (number : Int)
    (answer : Request → Py Value) : Prop where
  nonempty : ∀ page, 100 * (page + 1) < items.length → cursors page ≠ ""
  distinct : ∀ page page', 100 * (page + 1) < items.length → 100 * (page' + 1) < items.length →
    cursors page = cursors page' → page = page'
  serves : ∀ page < 10, page = 0 ∨ 100 * page < items.length →
    ∃ request result, threadsRequest repo number (cursorBefore cursors page) = .ok request ∧
      answer request = .ok result ∧ ShowsThreads items page (cursors page) result

/-- A thread with an identity, which is text. -/
def HasId (item : Value) : Prop := item.item "id" = .ok (.str (threadId item)) ∧ threadId item ≠ ""

/-- Threads with identities that differ, all of them resolved. -/
structure AllSettled (items : List Value) : Prop where
  ids : ∀ item ∈ items, HasId item
  distinct : (items.map threadId).Nodup
  resolved : ∀ item ∈ items, item.item "isResolved" = .ok (.bool true)

section

variable {items result out : List Value} {page : Nat}

theorem length_pageSlice : (pageSlice items page).length = min 100 (items.length - 100 * page) := by
  rw [pageSlice, List.length_take, List.length_drop]

/-- A page goes on where the pages before it end. -/
theorem take_pageSlice : items.take (100 * page) ++ pageSlice items page =
    items.take (100 * (page + 1)) := by
  rw [pageSlice, Nat.mul_add, Nat.mul_one, List.take_add]

end

section

variable {answer : Request → Py Value} {request : Request} {response : Value} {tr : Trace Answer}

/-- What is served is not refused. -/
theorem not_refused (hanswer : answer request = .ok response) (hfixed : ∀ e ∈ tr, e.2 = answer e.1)
    {e : PyError} : (⟨request, .error e⟩ : Event Answer) ∉ tr := by
  intro hmem
  have hraised := hfixed _ hmem
  rw [hanswer] at hraised
  cases hraised

/-- What is served is what is answered. -/
theorem eq_of_answered (hanswer : answer request = .ok response)
    (hfixed : ∀ e ∈ tr, e.2 = answer e.1) {response' : Value}
    (hmem : (⟨request, .ok response'⟩ : Event Answer) ∈ tr) : response' = response := by
  have hsame := hfixed _ hmem
  rw [hanswer] at hsame
  exact Except.ok.inj hsame

end

/-! ## 5. `pages` -/

section Pages

variable {items result out : List Value} {route : PyStr} {key : Option PyStr} {total : Option Int}
  {response : Value} {left page : Nat} {s s' : Unit} {tr : Trace Answer} {r : Py (List Value)}

@[simp] theorem require_eq_ok {condition : Prop} [Decidable condition] {message : String} {u : Unit} :
    require condition message = .ok u ↔ condition := raiseUnless_eq_ok

theorem require_of {condition : Prop} [Decidable condition] {message : String} (h : condition) :
    require condition message = .ok () := raiseUnless_of h

theorem checkComplete_eq_ok : checkComplete total result = .ok out ↔
    (total = none ∨ total = some (result.length : Int)) ∧ Identified result ∧ out = result := by
  simp only [checkComplete, bind_eq_ok, require_eq_ok, pure_eq_ok, Identified, exists_and_left,
    exists_const, and_assoc, @eq_comm _ out]

theorem inventoryCount_eq_ok {v : Value} {n : Int} : inventoryCount v = .ok n ↔
    v = .int n ∧ 0 ≤ n ∧ n < 1000 := by
  cases v with
  | int m =>
    simp only [inventoryCount, bind_eq_ok, require_eq_ok, pure_eq_ok, exists_const, Value.int.injEq]
    constructor
    · rintro ⟨hm, rfl⟩
      exact ⟨rfl, hm⟩
    · rintro ⟨rfl, hm⟩
      exact ⟨hm, rfl⟩
  | _ => simp [inventoryCount]

theorem pageItems_eq_ok {v : Value} {batch : List Value} : pageItems v = .ok batch ↔
    v = .list batch ∧ batch.length ≤ 100 := by
  cases v with
  | list items =>
    simp only [pageItems, bind_eq_ok, require_eq_ok, pure_eq_ok, exists_const, Value.list.injEq]
    constructor
    · rintro ⟨hlength, rfl⟩
      exact ⟨rfl, hlength⟩
    · rintro ⟨rfl, hlength⟩
      exact ⟨hlength, rfl⟩
  | _ => simp [pageItems]

/-- What one page says. -/
theorem readPage_eq_ok {batch : List Value} {total' : Option Int} :
    readPage key total response = .ok (batch, total') ↔
      (batchOf response key = .ok (.list batch) ∧ batch.length ≤ 100) ∧
        checkTotal key total response = .ok total' := by
  simp only [readPage, bind_eq_ok, pageItems_eq_ok, pure_eq_ok, Prod.mk.injEq]
  constructor
  · rintro ⟨_, hbatch, _, ⟨rfl, hlength⟩, _, htotal, rfl, rfl⟩
    exact ⟨⟨hbatch, hlength⟩, htotal⟩
  · rintro ⟨⟨hbatch, hlength⟩, htotal⟩
    exact ⟨_, hbatch, batch, ⟨rfl, hlength⟩, total', htotal, rfl, rfl⟩

theorem checkTotal_counted {total' : Option Int} (hkey : isCounted key = true) :
    checkTotal key total response = .ok total' ↔ ∃ count, total' = some count ∧
      response.item "total_count" = .ok (.int count) ∧ (0 ≤ count ∧ count < 1000) ∧
        (total = none ∨ total = some count) := by
  simp only [checkTotal, if_pos hkey, bind_eq_ok, inventoryCount_eq_ok, require_eq_ok, pure_eq_ok,
    exists_const]
  constructor
  · rintro ⟨_, hitem, count, ⟨rfl, hcount⟩, htotal, rfl⟩
    exact ⟨count, rfl, hitem, hcount, htotal⟩
  · rintro ⟨count, rfl, hitem, hcount, htotal⟩
    exact ⟨_, hitem, count, ⟨rfl, hcount⟩, htotal, rfl⟩

/-- One request is made for a page, and the inventory goes on, ends or is refused. -/
theorem ends_pagesFrom_succ : Ends (pagesFrom route key (left + 1) page total result) s tr r s' ↔
    (∃ e, tr = [⟨pageRequest route page, .error e⟩] ∧ r = .error e) ∨
    ∃ response tr', tr = ⟨pageRequest route page, .ok response⟩ :: tr' ∧
      ((∃ e, readPage key total response = .error e ∧ tr' = [] ∧ r = .error e) ∨
        ∃ batch total', readPage key total response = .ok (batch, total') ∧
          if batch.length < 100 then tr' = [] ∧ r = checkComplete total' (result ++ batch)
          else Ends (pagesFrom route key left (page + 1) total' (result ++ batch)) s tr' r s') := by
  simp only [pagesFrom, proofApi, ends_call_bind, ends_lift_bind, Prod.exists, and_true]
  refine or_congr Iff.rfl (exists₂_congr fun response tr' => and_congr Iff.rfl
    (or_congr Iff.rfl (exists₂_congr fun batch total' => and_congr Iff.rfl ?_)))
  split
  · rw [ends_lift, and_iff_left rfl]
  · rfl

/-- Each page costs one request. -/
theorem length_pagesFrom (h : Ends (pagesFrom route key left page total result) s tr r s') :
    tr.length ≤ left := by
  induction left generalizing page total result tr with
  | zero =>
    obtain ⟨rfl, -⟩ := ends_raise.mp h
    exact Nat.le_refl 0
  | succ left ih =>
    rcases ends_pagesFrom_succ.mp h with ⟨e, rfl, -⟩ | ⟨response, tr', rfl, hpage⟩
    · simp
    rw [List.length_cons]
    rcases hpage with ⟨e, -, rfl, -⟩ | ⟨batch, total', -, hpage⟩
    · simp
    split at hpage
    · obtain ⟨rfl, -⟩ := hpage
      simp
    · exact Nat.succ_le_succ (ih hpage)

/-- The total is unknown, or the true one. -/
def TotalOf (items : List Value) (key : Option PyStr) (total : Option Int) : Prop :=
  total = none ∨ isCounted key = true ∧ total = some (items.length : Int)

/-- A page of an inventory that is not too large is read. -/
theorem readPage_shows (hshows : ShowsPage items key page response) (htotal : TotalOf items key total)
    (hlength : isCounted key = true → items.length < 1000) :
    ∃ total', readPage key total response = .ok (pageSlice items page, total') ∧
      TotalOf items key total' := by
  have hbatch : (pageSlice items page).length ≤ 100 := by
    rw [length_pageSlice]
    omega
  by_cases hkey : isCounted key = true
  · refine ⟨some items.length, readPage_eq_ok.mpr ⟨⟨hshows.batch, hbatch⟩, ?_⟩, Or.inr ⟨hkey, rfl⟩⟩
    refine (checkTotal_counted hkey).mpr ⟨_, rfl, hshows.total hkey, ?_, ?_⟩
    · have := hlength hkey
      omega
    · rcases htotal with rfl | ⟨-, rfl⟩
      · exact Or.inl rfl
      · exact Or.inr rfl
  · exact ⟨total, readPage_eq_ok.mpr ⟨⟨hshows.batch, hbatch⟩, if_neg hkey⟩, htotal⟩

/-- A total of a thousand is refused on the first page. -/
theorem not_readPage_large (hshows : ShowsPage items key page response) (hkey : isCounted key = true)
    (hlength : ¬ items.length < 1000) {batch : List Value} {total' : Option Int} :
    readPage key total response ≠ .ok (batch, total') := by
  intro h
  obtain ⟨count, -, hitem, ⟨-, hcount⟩, -⟩ := (checkTotal_counted hkey).mp (readPage_eq_ok.mp h).2
  rw [hshows.total hkey] at hitem
  cases hitem
  omega

/-- **The loop of `pages` over an inventory that stays as it is.** -/
theorem pagesFrom_served {answer : Request → Py Value} (hserves : ServesPages items route key answer)
    (hleft : left + page = 10) (htotal : TotalOf items key total) (hpage : 100 * page ≤ items.length)
    (h : Ends (pagesFrom route key left (page + 1) total (items.take (100 * page))) s tr r s')
    (hfixed : ∀ e ∈ tr, e.2 = answer e.1) :
    r = .ok out ↔ items.length < 1000 ∧ Identified items ∧ out = items := by
  induction left generalizing page total tr with
  | zero =>
    obtain ⟨-, rfl, -⟩ := ends_raise.mp h
    refine iff_of_false (by rintro ⟨⟩) ?_
    rintro ⟨hlength, -⟩
    omega
  | succ left ih =>
    obtain ⟨response, hanswer, hshows⟩ := hserves page (by omega) hpage
    rcases ends_pagesFrom_succ.mp h with ⟨e, rfl, -⟩ | ⟨response', tr', rfl, hrest⟩
    · exact absurd (List.mem_singleton_self _) (not_refused hanswer hfixed)
    obtain rfl := eq_of_answered hanswer hfixed List.mem_cons_self
    by_cases hlarge : isCounted key = true ∧ ¬ items.length < 1000
    · rcases hrest with ⟨e, -, -, rfl⟩ | ⟨batch, total', hread, -⟩
      · exact iff_of_false (by rintro ⟨⟩) fun hall => hlarge.2 hall.1
      · exact absurd hread (not_readPage_large hshows hlarge.1 hlarge.2)
    · obtain ⟨total', hread, htotal'⟩ := readPage_shows hshows htotal fun hkey =>
        by_contra fun hlength => hlarge ⟨hkey, hlength⟩
      rcases hrest with ⟨e, herror, -⟩ | ⟨batch, total'', hread', hrest⟩
      · rw [hread] at herror
        cases herror
      rw [hread] at hread'
      cases hread'
      rw [take_pageSlice, length_pageSlice] at hrest
      split at hrest
      · next hlast =>
        obtain ⟨-, rfl⟩ := hrest
        have hlength : items.length < 1000 := by omega
        rw [List.take_of_length_le (by omega), checkComplete_eq_ok]
        refine ⟨fun hok => ⟨hlength, hok.2⟩, fun hok => ⟨?_, hok.2⟩⟩
        exact htotal'.imp_right And.right
      · exact ih (by omega) htotal' (by omega) hrest fun e he => hfixed e (List.mem_cons_of_mem _ he)

/-- The answer reports a total. -/
def Reports (total : Int) (answer : Py Value) : Prop :=
  ∃ response, answer = .ok response ∧ response.item "total_count" = .ok (.int total)

/-- **The loop of `pages`, whatever it is answered**, when the total is counted. -/
theorem pagesFrom_reported (hkey : isCounted key = true)
    (h : Ends (pagesFrom route key left page total result) s tr (.ok out) s') :
    Identified out ∧ (∀ count, total = some count → count = out.length) ∧
      ∀ e ∈ tr, Reports out.length e.2 := by
  induction left generalizing page total result tr with
  | zero =>
    obtain ⟨-, herror, -⟩ := ends_raise.mp h
    cases herror
  | succ left ih =>
    rcases ends_pagesFrom_succ.mp h with ⟨e, -, herror⟩ | ⟨response, tr', rfl, hpage⟩
    · cases herror
    rcases hpage with ⟨e, -, -, herror⟩ | ⟨batch, total', hread, hpage⟩
    · cases herror
    obtain ⟨count, rfl, hitem, -, hsame⟩ := (checkTotal_counted hkey).mp (readPage_eq_ok.mp hread).2
    have hrest : Identified out ∧ count = out.length ∧ ∀ e ∈ tr', Reports out.length e.2 := by
      split at hpage
      · obtain ⟨rfl, hcheck⟩ := hpage
        obtain ⟨hcount, hidentified, rfl⟩ := checkComplete_eq_ok.mp hcheck.symm
        refine ⟨hidentified, ?_, by intro e he; cases he⟩
        simpa using hcount
      · obtain ⟨hidentified, hcount, hreports⟩ := ih hpage
        exact ⟨hidentified, hcount count rfl, hreports⟩
    obtain ⟨hidentified, rfl, hreports⟩ := hrest
    refine ⟨hidentified, ?_, ?_⟩
    · rintro count rfl
      rcases hsame with hsame | hsame
      · cases hsame
      · exact Option.some.inj hsame
    · intro e he
      rcases List.mem_cons.mp he with rfl | he
      · exact ⟨response, rfl, hitem⟩
      · exact hreports e he

end Pages


/-! ## 6. `threads` -/

section Threads

variable {items nodes out batch : List Value} {cursors : Nat → PyStr} {repo : PyStr} {number : Int}
  {cursor : Option PyStr} {seen seen' : List PyStr} {item result page : Value} {left : Nat}
  {s s' : Unit} {tr : Trace Answer} {r : Py (List Value)}

theorem threadId_of_item {id : PyStr} (h : item.item "id" = .ok (.str id)) : threadId item = id := by
  unfold threadId Value.get
  rw [Value.find?_of_item h]
  rfl

theorem noteThread_eq_ok : noteThread seen item = .ok seen' ↔
    HasId item ∧ threadId item ∉ seen ∧ seen' = seen ++ [threadId item] := by
  simp only [noteThread, bind_eq_ok]
  constructor
  · rintro ⟨v, hitem, h⟩
    split at h
    · next id =>
      simp only [bind_eq_ok, require_eq_ok, pure_eq_ok, exists_const] at h
      obtain ⟨⟨hne, hnew⟩, rfl⟩ := h
      have hid := threadId_of_item hitem
      exact ⟨⟨by rw [hid]; exact hitem, by rw [hid]; exact hne⟩, by rw [hid]; exact hnew, by rw [hid]⟩
    · cases h
  · rintro ⟨⟨hitem, hne⟩, hnew, rfl⟩
    refine ⟨_, hitem, ?_⟩
    simp only [bind_eq_ok, require_eq_ok, pure_eq_ok, exists_const]
    exact ⟨⟨hne, hnew⟩, trivial⟩

/-- A page of threads is noted if every one of them is new. -/
theorem noteThreads_eq_ok (hseen : seen.Nodup) : batch.foldlM noteThread seen = .ok seen' ↔
    (∀ item ∈ batch, HasId item) ∧ (seen ++ batch.map threadId).Nodup ∧
      seen' = seen ++ batch.map threadId := by
  induction batch generalizing seen with
  | nil =>
    simp only [List.foldlM_nil, pure_eq_ok, List.map_nil, List.append_nil]
    exact ⟨fun h => ⟨fun _ hmem => (by cases hmem), hseen, h.symm⟩, fun h => h.2.2.symm⟩
  | cons item batch ih =>
    simp only [List.foldlM_cons, bind_eq_ok, noteThread_eq_ok, List.forall_mem_cons, List.map_cons]
    constructor
    · rintro ⟨_, ⟨hid, hnew, rfl⟩, h⟩
      have hnext : (seen ++ [threadId item]).Nodup := hseen.append (List.nodup_singleton _) (by simpa)
      obtain ⟨hids, hnodup, rfl⟩ := (ih hnext).mp h
      rw [List.append_assoc] at hnodup
      exact ⟨⟨hid, hids⟩, hnodup, List.append_assoc _ _ _⟩
    · rintro ⟨⟨hid, hids⟩, hnodup, rfl⟩
      have happend : seen ++ threadId item :: batch.map threadId =
          (seen ++ [threadId item]) ++ batch.map threadId := by simp
      rw [happend] at hnodup
      have hnext := hnodup.of_append_left
      refine ⟨_, ⟨hid, ?_, rfl⟩, (ih hnext).mpr ⟨hids, hnodup, happend⟩⟩
      intro hmem
      exact List.disjoint_of_nodup_append hnext hmem (List.mem_singleton_self _)

theorem isTrue_iff {v : Value} : v.isTrue = true ↔ v = .bool true := by
  constructor
  · intro h
    unfold Value.isTrue at h
    split at h
    · rfl
    · cases h
  · rintro rfl
    rfl

theorem allResolved_eq_true : allResolved nodes = .ok true ↔
    ∀ item ∈ nodes, item.item "isResolved" = .ok (.bool true) := by
  induction nodes with
  | nil => simp [allResolved]
  | cons item nodes ih =>
    simp only [allResolved, bind_eq_ok, List.forall_mem_cons, ← ih]
    constructor
    · rintro ⟨v, hitem, h⟩
      split at h
      · next htrue =>
        rw [isTrue_iff] at htrue
        exact ⟨htrue ▸ hitem, h⟩
      · cases h
    · rintro ⟨hitem, h⟩
      exact ⟨_, hitem, h⟩

theorem closeThreads_eq_ok : closeThreads nodes = .ok out ↔
    (∀ item ∈ nodes, item.item "isResolved" = .ok (.bool true)) ∧ out = sortThreads nodes := by
  simp only [closeThreads, bind_eq_ok, ← allResolved_eq_true]
  constructor
  · rintro ⟨b, hb, h⟩
    cases b with
    | false => cases h
    | true =>
      cases h
      exact ⟨hb, rfl⟩
  · rintro ⟨hb, rfl⟩
    exact ⟨true, hb, rfl⟩

/-- The call of the recovery asks once. -/
theorem ends_api {request : Request} {r : Py Value} (h : Ends (api request) s tr r s') :
    (∃ e e', tr = [⟨request, .error e⟩] ∧ r = .error e') ∨
      ∃ result, tr = [⟨request, .ok result⟩] ∧ r = .ok result := by
  rcases ends_catching.mp h with ⟨result, rfl, hcall⟩ | ⟨tr₁, tr₂, e, s₁, rfl, hcall, hraise⟩
  · obtain ⟨rfl, -⟩ := ends_call.mp hcall
    exact Or.inr ⟨result, rfl, rfl⟩
  · obtain ⟨rfl, -⟩ := ends_call.mp hcall
    split at hraise
    · obtain ⟨rfl, rfl, -⟩ := ends_raise.mp hraise
      exact Or.inl ⟨e, _, rfl, rfl⟩
    · obtain ⟨rfl, rfl, -⟩ := ends_raise.mp hraise
      exact Or.inl ⟨e, _, rfl, rfl⟩

/-- One request is made for a page of threads, and the inventory goes on, ends or is refused. -/
theorem threadsFrom_cases
    (h : Ends (threadsFrom repo number (left + 1) cursor seen nodes) s tr r s') :
    (∃ e, threadsRequest repo number cursor = .error e ∧ tr = [] ∧ r = .error e) ∨
    ∃ request, threadsRequest repo number cursor = .ok request ∧
      ((∃ e e', tr = [⟨request, .error e⟩] ∧ r = .error e') ∨
      ∃ result tr', tr = ⟨request, .ok result⟩ :: tr' ∧
        ((∃ e, readThreads cursor seen result = .error e ∧ tr' = [] ∧ r = .error e) ∨
        ∃ batch seen' next, readThreads cursor seen result = .ok (batch, seen', next) ∧
          if next = none then tr' = [] ∧ r = closeThreads (nodes ++ batch)
          else Ends (threadsFrom repo number left next seen' (nodes ++ batch)) s tr' r s')) := by
  simp only [threadsFrom] at h
  rcases ends_lift_bind.mp h with ⟨e, hrequest, rfl, rfl, -⟩ | ⟨request, hrequest, hrest⟩
  · exact Or.inl ⟨e, hrequest, rfl, rfl⟩
  refine Or.inr ⟨request, hrequest, ?_⟩
  rcases ends_bind.mp hrest with ⟨e, rfl, hcall⟩ | ⟨tr₁, tr', result, _, rfl, hcall, hread⟩
  · rcases ends_api hcall with ⟨e', e'', rfl, -⟩ | ⟨result, -, herror⟩
    · exact Or.inl ⟨e', e, rfl, rfl⟩
    · cases herror
  rcases ends_api hcall with ⟨e', e'', -, herror⟩ | ⟨result', rfl, hresult⟩
  · cases herror
  cases hresult
  refine Or.inr ⟨result, tr', rfl, ?_⟩
  rcases ends_lift_bind.mp hread with ⟨e, hraise, rfl, rfl, -⟩ | ⟨⟨batch, seen', next⟩, hok, hnext⟩
  · exact Or.inl ⟨e, hraise, rfl, rfl⟩
  refine Or.inr ⟨batch, seen', next, hok, ?_⟩
  simp only at hnext
  split at hnext
  · next hnone =>
    obtain ⟨rfl, rfl, -⟩ := ends_lift.mp hnext
    rw [if_pos hnone]
    exact ⟨rfl, rfl⟩
  · next hsome =>
    rw [if_neg hsome]
    exact hnext

/-- Each page of threads costs one request. -/
theorem length_threadsFrom (h : Ends (threadsFrom repo number left cursor seen nodes) s tr r s') :
    tr.length ≤ left := by
  induction left generalizing cursor seen nodes tr with
  | zero =>
    obtain ⟨rfl, -⟩ := ends_raise.mp h
    exact Nat.le_refl 0
  | succ left ih =>
    rcases threadsFrom_cases h with ⟨e, -, rfl, -⟩ | ⟨request, -, hanswer⟩
    · simp
    rcases hanswer with ⟨e, e', rfl, -⟩ | ⟨result, tr', rfl, hpage⟩
    · simp
    rw [List.length_cons]
    rcases hpage with ⟨e, -, rfl, -⟩ | ⟨batch, seen', next, -, hpage⟩
    · simp
    split at hpage
    · obtain ⟨rfl, -⟩ := hpage
      simp
    · exact Nat.succ_le_succ (ih hpage)

/-- A page of threads that is served is refused for its threads only. -/
theorem readThreads_shows {index : Nat} {next : PyStr} (hshows : ShowsThreads items index next result)
    (hnext : 100 * (index + 1) < items.length → next ≠ "" ∧ some next ≠ cursor) :
    readThreads cursor seen result = (pageSlice items index).foldlM noteThread seen >>= fun seen' =>
      .ok (pageSlice items index, seen',
        if 100 * (index + 1) < items.length then some next else none) := by
  obtain ⟨herrors, connection, pageInfo, hconnection, hnodes, hpage, hmore, hcursor⟩ := hshows
  have hlength := @length_pageSlice items index
  have hbatch : threadNodes (.list (pageSlice items index)) = .ok (pageSlice items index) := by
    simp only [threadNodes, bind_eq_ok, require_eq_ok, pure_eq_ok, exists_const, and_true]
    omega
  simp only [readThreads, herrors, hconnection, hnodes, hbatch, hpage, ok_bind, hasNextPage, hmore]
  rw [require_of trivial, ok_bind]
  congr 1
  funext seen'
  by_cases h : 100 * (index + 1) < items.length
  · obtain ⟨hne, hother⟩ := hnext h
    have hfull : (pageSlice items index).length = 100 := by omega
    have hcursor' : next ≠ "" ∧ some next ≠ cursor := ⟨hne, hother⟩
    simp only [h, decide_true, if_true, nextCursor, require_of hfull, hcursor h, require_of hcursor',
      ok_bind, pure_bind]
    rfl
  · simp only [h, decide_false, if_false, Bool.false_eq_true]
    rfl

/-- **The loop of `threads` over threads that stay as they are.** -/
theorem threadsFrom_served {answer : Request → Py Value} {index : Nat}
    (hserves : ServesThreads items cursors repo number answer)
    (hleft : left + index = 10) (hindex : index = 0 ∨ 100 * index < items.length)
    (hids : ∀ item ∈ items.take (100 * index), HasId item)
    (hnodup : ((items.take (100 * index)).map threadId).Nodup)
    (h : Ends (threadsFrom repo number left (cursorBefore cursors index)
      ((items.take (100 * index)).map threadId) (items.take (100 * index))) s tr r s')
    (hfixed : ∀ e ∈ tr, e.2 = answer e.1) :
    r = .ok out ↔ items.length ≤ 1000 ∧ AllSettled items ∧ out = sortThreads items := by
  induction left generalizing index tr with
  | zero =>
    obtain ⟨-, rfl, -⟩ := ends_raise.mp h
    refine iff_of_false (by rintro ⟨⟩) ?_
    rintro ⟨hlength, -⟩
    omega
  | succ left ih =>
    obtain ⟨request, result, hrequest, hanswer, hshows⟩ := hserves.serves index (by omega) hindex
    rcases threadsFrom_cases h with ⟨e, herror, -⟩ | ⟨request', hrequest', hasked⟩
    · rw [hrequest] at herror
      cases herror
    obtain rfl : request' = request := by
      rw [hrequest] at hrequest'
      exact (Except.ok.inj hrequest').symm
    rcases hasked with ⟨e, e', rfl, -⟩ | ⟨result', tr', rfl, hread⟩
    · exact absurd (List.mem_singleton_self _) (not_refused hanswer hfixed)
    obtain rfl := eq_of_answered hanswer hfixed List.mem_cons_self
    have hnext : 100 * (index + 1) < items.length →
        cursors index ≠ "" ∧ some (cursors index) ≠ cursorBefore cursors index := by
      intro hmore
      refine ⟨hserves.nonempty index hmore, ?_⟩
      cases index with
      | zero => rintro ⟨⟩
      | succ index =>
        intro hsame
        have := hserves.distinct _ _ hmore (by omega) (Option.some.inj hsame)
        omega
    rw [readThreads_shows hshows hnext] at hread
    by_cases hgood : (∀ item ∈ items.take (100 * (index + 1)), HasId item) ∧
        ((items.take (100 * (index + 1))).map threadId).Nodup
    · have hnoted : (pageSlice items index).foldlM noteThread ((items.take (100 * index)).map threadId) =
          .ok ((items.take (100 * (index + 1))).map threadId) := by
        rw [noteThreads_eq_ok hnodup, ← List.map_append, take_pageSlice]
        refine ⟨fun item hmem => hgood.1 item ?_, hgood.2, rfl⟩
        rw [← take_pageSlice]
        exact List.mem_append_right _ hmem
      simp only [hnoted, ok_bind, reduceCtorEq, false_and, exists_false, false_or, Except.ok.injEq,
        Prod.mk.injEq] at hread
      obtain ⟨_, _, _, ⟨rfl, rfl, rfl⟩, hrest⟩ := hread
      rw [take_pageSlice] at hrest
      by_cases hmore : 100 * (index + 1) < items.length
      · rw [if_pos hmore, if_neg (by rintro ⟨⟩)] at hrest
        exact ih (by omega) (Or.inr hmore) hgood.1 hgood.2 hrest
          fun e he => hfixed e (List.mem_cons_of_mem _ he)
      · rw [if_neg hmore, if_pos rfl] at hrest
        obtain ⟨-, rfl⟩ := hrest
        rw [List.take_of_length_le (by omega)] at hgood ⊢
        rw [closeThreads_eq_ok]
        constructor
        · rintro ⟨hresolved, rfl⟩
          exact ⟨by omega, ⟨hgood.1, hgood.2, hresolved⟩, rfl⟩
        · rintro ⟨-, hsettled, rfl⟩
          exact ⟨hsettled.resolved, rfl⟩
    · have hraises : ∀ b, (pageSlice items index).foldlM noteThread
          ((items.take (100 * index)).map threadId) ≠ .ok b := by
        intro b hb
        rw [noteThreads_eq_ok hnodup, ← List.map_append, take_pageSlice] at hb
        refine hgood ⟨?_, hb.2.1⟩
        rw [← take_pageSlice]
        exact List.forall_mem_append.mpr ⟨hids, hb.1⟩
      rcases hread with ⟨e, -, -, rfl⟩ | ⟨batch, seen', next, hok, -⟩
      · refine iff_of_false (by rintro ⟨⟩) ?_
        rintro ⟨-, hsettled, -⟩
        refine hgood ⟨fun item hmem => hsettled.ids item (List.mem_of_mem_take hmem), ?_⟩
        exact hsettled.distinct.sublist ((List.take_sublist _ _).map threadId)
      · obtain ⟨b, hb, -⟩ := bind_eq_ok.mp hok
        exact absurd hb (hraises b)

theorem perm_sortThreads : (sortThreads nodes).Perm nodes := List.perm_insertionSort _ nodes

theorem pairwise_sortThreads :
    (sortThreads nodes).Pairwise fun a b => (threadId a).le (threadId b) := by
  have : Std.Total fun a b : Value => (threadId a).le (threadId b) :=
    ⟨fun a b => List.le_total (threadId a).codePoints (threadId b).codePoints⟩
  have : IsTrans Value fun a b => (threadId a).le (threadId b) :=
    ⟨fun a b c h h' => List.le_trans h h'⟩
  exact List.pairwise_insertionSort (fun a b => (threadId a).le (threadId b)) nodes

end Threads


/-! ## 7. Complete, or refused -/

/-- What is no result is an exception. -/
theorem exists_error {α : Type} {r : Py α} (h : ∀ a, r ≠ .ok a) : ∃ e, r = .error e := by
  cases r with
  | ok a => exact absurd rfl (h a)
  | error e => exact ⟨e, rfl⟩

section

variable {items out : List Value} {answer : Request → Py Value}

/-- The answers of what stays as it is do not depend on when they are asked for. -/
theorem fixed_asked {α : Type} (x : GhAct α) :
    ∀ e ∈ x.asked () (fun _ => answer), e.2 = answer e.1 := by
  intro e he
  obtain ⟨_, h⟩ := answered_asked e he
  exact h

theorem pages_served {route : PyStr} {key : Option PyStr}
    (hserves : ServesPages items route key answer) :
    (pages route key).result () (fun _ => answer) = .ok out ↔
      items.length < 1000 ∧ Identified items ∧ out = items := by
  obtain ⟨_, h⟩ := @ends_result _ _ _ _ _ (pages route key) () (fun _ => answer)
  exact pagesFrom_served hserves rfl (Or.inl rfl) (Nat.zero_le _) h (fixed_asked _)

theorem threads_served {cursors : Nat → PyStr} {repo : PyStr} {number : Int}
    (hserves : ServesThreads items cursors repo number answer) :
    (threads repo number).result () (fun _ => answer) = .ok out ↔
      items.length ≤ 1000 ∧ AllSettled items ∧ out = sortThreads items := by
  obtain ⟨_, h⟩ := @ends_result _ _ _ _ _ (threads repo number) () (fun _ => answer)
  exact threadsFrom_served hserves rfl (Or.inl rfl) (fun _ hmem => (by cases hmem)) List.nodup_nil h
    (fixed_asked _)

end

/-- **Complete paging, or an error.**  Of an inventory that stays as it is, `pages` returns every item
once and in order if there are fewer than a thousand and their identities differ, and raises
otherwise; `threads` returns every thread once, sorted, if there are at most a thousand, with
identities that differ and all resolved, and raises otherwise.  Whatever is answered, `pages` with a
key returns no identity twice and as many items as every page that it read reported, and neither asks
more than ten times. -/
theorem complete_or_raises :
    (∀ items route key answer, ServesPages items route key answer →
      (items.length < 1000 ∧ Identified items →
        (pages route key).result () (fun _ => answer) = .ok items) ∧
      (¬ (items.length < 1000 ∧ Identified items) →
        ∃ e, (pages route key).result () (fun _ => answer) = .error e)) ∧
    (∀ items cursors repo number answer, ServesThreads items cursors repo number answer →
      (items.length ≤ 1000 ∧ AllSettled items →
        ∃ out, (threads repo number).result () (fun _ => answer) = .ok out ∧ out.Perm items ∧
          out.Pairwise fun a b => (threadId a).le (threadId b)) ∧
      (¬ (items.length ≤ 1000 ∧ AllSettled items) →
        ∃ e, (threads repo number).result () (fun _ => answer) = .error e)) ∧
    (∀ (route key : PyStr) (answers : Nat → Request → Py Value) (out : List Value), key ≠ "" →
      (pages route (some key)).result () answers = .ok out →
        Identified out ∧
          ∀ e ∈ (pages route (some key)).asked () answers, Reports out.length e.2) ∧
    ∀ answers : Nat → Request → Py Value,
      (∀ route key, ((pages route key).asked () answers).length ≤ 10) ∧
        ∀ repo number, ((threads repo number).asked () answers).length ≤ 10 := by
  refine ⟨?_, ?_, ?_, ?_⟩
  · intro items route key answer hserves
    constructor
    · intro hgood
      exact (pages_served hserves).mpr ⟨hgood.1, hgood.2, rfl⟩
    · intro hbad
      refine exists_error fun out hok => hbad ?_
      obtain ⟨hlength, hidentified, -⟩ := (pages_served hserves).mp hok
      exact ⟨hlength, hidentified⟩
  · intro items cursors repo number answer hserves
    constructor
    · intro hgood
      exact ⟨sortThreads items, (threads_served hserves).mpr ⟨hgood.1, hgood.2, rfl⟩,
        perm_sortThreads, pairwise_sortThreads⟩
    · intro hbad
      refine exists_error fun out hok => hbad ?_
      obtain ⟨hlength, hsettled, -⟩ := (threads_served hserves).mp hok
      exact ⟨hlength, hsettled⟩
  · intro route key answers out hkey hok
    obtain ⟨_, h⟩ := @ends_result _ _ _ _ _ (pages route (some key)) () answers
    rw [hok] at h
    have hcounted : isCounted (some key) = true := decide_eq_true hkey
    obtain ⟨hidentified, -, hreports⟩ := pagesFrom_reported hcounted h
    exact ⟨hidentified, hreports⟩
  · intro answers
    constructor
    · intro route key
      obtain ⟨_, h⟩ := @ends_result _ _ _ _ _ (pages route key) () answers
      exact length_pagesFrom h
    · intro repo number
      obtain ⟨_, h⟩ := @ends_result _ _ _ _ _ (threads repo number) () answers
      exact length_threadsFrom h

/-- A full page of jobs. -/
def sampleJobs : List Value := (List.range 100).map fun n => .dict [("id", .int (n + 1))]

/-- A first page of jobs, and an empty second one. -/
def sampleJobsAnswer (request : Request) : Py Value :=
  .ok (.dict [("jobs", .list (if request = pageRequest "jobs" 1 then sampleJobs else [])),
    ("total_count", .int 100)])

/-- A full page of threads, and no more. -/
def sampleThreads : List Value :=
  (List.range 100).map fun n => .dict [("id", .str ⟨[84, n]⟩), ("isResolved", .bool true)]

def sampleThreadsAnswer (_ : Request) : Py Value :=
  .ok (.dict [("data", .dict [("repository", .dict [("pullRequest", .dict [("reviewThreads",
    .dict [("nodes", .list sampleThreads),
      ("pageInfo", .dict [("hasNextPage", .bool false), ("endCursor", .str "c")])])])])])])

theorem serves_sampleJobs : ServesPages sampleJobs "jobs" (some "jobs") sampleJobsAnswer := by
  intro page _ hpage
  have hlength : sampleJobs.length = 100 := by simp [sampleJobs]
  obtain rfl | rfl : page = 0 ∨ page = 1 := by omega
  · refine ⟨_, rfl, ?_, fun _ => rfl⟩
    rw [if_pos rfl]
    rfl
  · refine ⟨_, rfl, ?_, fun _ => rfl⟩
    rw [if_neg (by decide +kernel)]
    rfl

theorem serves_sampleThreads :
    ServesThreads sampleThreads (fun _ => "c") "owner/name" 7 sampleThreadsAnswer where
  nonempty := by
    intro _ _
    decide
  distinct := by
    intro page page' hpage
    have hlength : sampleThreads.length = 100 := by simp [sampleThreads]
    omega
  serves := by
    intro page _ hpage
    have hlength : sampleThreads.length = 100 := by simp [sampleThreads]
    obtain rfl : page = 0 := by omega
    refine ⟨_, _, rfl, rfl, rfl, _, _, rfl, rfl, rfl, ?_, ?_⟩
    · rw [hlength]
      rfl
    · omega

theorem complete_or_raises_sample :
    (pages "jobs" (some "jobs")).result () (fun _ => sampleJobsAnswer) = .ok sampleJobs ∧
    (∃ out, (threads "owner/name" 7).result () (fun _ => sampleThreadsAnswer) = .ok out ∧
      out.Perm sampleThreads ∧ out.Pairwise fun a b => (threadId a).le (threadId b)) ∧
    ∀ e ∈ (pages "jobs" (some "jobs")).asked () (fun _ => sampleJobsAnswer),
      Reports sampleJobs.length e.2 := by
  have hjobs := (complete_or_raises.1 _ _ _ _ serves_sampleJobs).1
    ⟨by simp [sampleJobs], by decide +kernel, by decide +kernel⟩
  refine ⟨hjobs, ?_, ?_⟩
  · refine (complete_or_raises.2.1 _ _ _ _ _ serves_sampleThreads).1 ⟨by simp [sampleThreads], ?_, ?_, ?_⟩
    · intro item hitem
      obtain ⟨n, -, rfl⟩ := List.mem_map.mp hitem
      exact ⟨rfl, by rintro ⟨⟩⟩
    · decide +kernel
    · intro item hitem
      obtain ⟨n, -, rfl⟩ := List.mem_map.mp hitem
      rfl
  · exact (complete_or_raises.2.2.1 "jobs" "jobs" _ _ (by decide) hjobs).2

end Supplementary.Native.Paging
