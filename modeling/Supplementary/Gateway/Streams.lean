/-
# What a stream is accepted for

`completedStream` returns a response exactly for the payloads within the byte limit that are the wire
form of a completed stream with that response (`completedStream_eq_ok`).  The two loops of the
source are taken apart from the inside: a line of a block, the fold over its lines, the fold over
the blocks, the events.
-/
import Supplementary.Gateway.Events
import Supplementary.Python.Incremental

namespace Supplementary.Gateway

open Supplementary Review PyStr

/-! ## 1. Lines -/

/-- What a line adds to the block. -/
def Line.addTo : Line → Block → Block
  | .comment _, block => block
  | .event name, block => { block with eventName := some name }
  | .data text, block => { block with data := block.data ++ [text] }

/-- A line may be read after what the block holds. -/
def Line.fits : Line → Block → Prop
  | .event _, block => block.eventName = none
  | _, _ => True

theorem partitionColon_append {field value : PyStr} (h : 58 ∉ field.codePoints) :
    (field ++ ":" ++ value).partitionColon = some (field, value) := by
  have hspan : (field.codePoints ++ 58 :: value.codePoints).span (· ≠ 58) =
      (field.codePoints, 58 :: value.codePoints) := by
    generalize field.codePoints = points at h
    induction points with
    | nil => simp [List.span_eq_takeWhile_dropWhile]
    | cons c points ih =>
      rw [List.mem_cons, not_or] at h
      have hc : c ≠ 58 := fun heq => h.1 heq.symm
      have hrest := ih h.2
      rw [List.span_eq_takeWhile_dropWhile, Prod.mk.injEq] at hrest
      rw [List.span_eq_takeWhile_dropWhile, List.cons_append,
        List.takeWhile_cons_of_pos (by simpa using hc), List.dropWhile_cons_of_pos (by simpa using hc),
        hrest.1, hrest.2]
  have hpoints : (field ++ ":" ++ value).codePoints = field.codePoints ++ 58 :: value.codePoints := by
    rw [codePoints_append, codePoints_append, List.append_assoc]
    rfl
  rw [partitionColon, hpoints, hspan]

theorem partitionColon_eq_some {s field value : PyStr} (h : s.partitionColon = some (field, value)) :
    s = field ++ ":" ++ value := by
  rw [partitionColon, List.span_eq_takeWhile_dropWhile] at h
  split at h
  · next before c after heq =>
    cases h
    rw [Prod.mk.injEq] at heq
    have hc : c = 58 := by
      have hhead := List.head?_dropWhile_not (· ≠ 58) s.codePoints
      rw [heq.2] at hhead
      simpa using hhead
    apply PyStr.ext
    calc s.codePoints
        = s.codePoints.takeWhile (· ≠ 58) ++ s.codePoints.dropWhile (· ≠ 58) :=
          List.takeWhile_append_dropWhile.symm
      _ = before ++ (c :: after) := by rw [heq.1, heq.2]
      _ = before ++ [58] ++ after := by rw [hc, List.append_assoc]; rfl
  · cases h

/-- `value.removeprefix(" ")` recovers the value. -/
theorem afterColon_iff {value tail : PyStr} : AfterColon value tail ↔
    (if tail.startsWith " " then ⟨tail.codePoints.drop 1⟩ else tail) = value := by
  by_cases hblank : tail.startsWith " " = true
  · obtain ⟨rest, rfl⟩ := startsWith_iff.mp hblank
    rw [if_pos hblank]
    constructor
    · rintro (h | ⟨rfl, h⟩)
      · have hpoints := congrArg PyStr.codePoints h
        rw [codePoints_append, codePoints_append] at hpoints
        exact PyStr.ext (List.append_cancel_left hpoints)
      · rw [hblank] at h
        cases h
    · intro h
      exact .inl (by rw [← h]; rfl)
  · rw [if_neg hblank]
    constructor
    · rintro (rfl | ⟨h, -⟩)
      · exact absurd (startsWith_iff.mpr ⟨_, rfl⟩) hblank
      · exact h
    · rintro rfl
      exact .inr ⟨rfl, by simpa using hblank⟩

theorem blockLine_comment {block : Block} {s : PyStr} (h : s.startsWith ":" = true) :
    blockLine block s = .ok block := by rw [blockLine, if_pos h]

/-- A field, its name free of colons. -/
theorem blockLine_field {block : Block} {field value tail : PyStr}
    (hfield : 58 ∉ field.codePoints) (hne : field.codePoints ≠ []) (htail : AfterColon value tail) :
    blockLine block (field ++ ":" ++ tail) =
      if field = "event" then do
        require (block.eventName.isNone = true) "transport-sse-event"
        .ok { block with eventName := some value }
      else if field = "data" then .ok { block with data := block.data ++ [value] }
      else .error (.reviewError "transport-sse-field") := by
  have hstart : (field ++ ":" ++ tail).startsWith ":" = false := by
    rw [Bool.eq_false_iff]
    intro hcolon
    obtain ⟨rest, hrest⟩ := startsWith_iff.mp hcolon
    obtain ⟨c, points, hpoints⟩ := List.exists_cons_of_ne_nil hne
    have hhead := congrArg (fun t : PyStr => t.codePoints.head?) hrest
    simp only [codePoints_append, hpoints] at hhead
    have hc : some c = some 58 := hhead
    cases hc
    exact hfield (by rw [hpoints]; exact List.mem_cons_self)
  rw [blockLine, hstart, if_neg (by simp), partitionColon_append hfield]
  simp only [afterColon_iff.mp htail]

theorem blockLine_eq_ok {block block' : Block} {s : PyStr} : blockLine block s = .ok block' ↔
    ∃ line : Line, line.Spells s ∧ line.fits block ∧ line.addTo block = block' := by
  constructor
  · intro h
    by_cases hcomment : s.startsWith ":" = true
    · obtain ⟨text, htext⟩ := startsWith_iff.mp hcomment
      rw [blockLine_comment hcomment] at h
      cases h
      exact ⟨.comment text, htext, trivial, rfl⟩
    · rw [blockLine, if_neg hcomment] at h
      split at h
      · cases h
      · next field tail hpartition =>
        have hs := partitionColon_eq_some hpartition
        simp only at h
        split at h
        · next hfield =>
          simp only [bind_eq_ok, require_eq_ok] at h
          obtain ⟨_, hnone, hblock⟩ := h
          cases hblock
          refine ⟨.event _, ⟨tail, ?_, afterColon_iff.mpr rfl⟩, Option.isNone_iff_eq_none.mp hnone,
            rfl⟩
          rw [hs, hfield]
          rfl
        · split at h
          · next hfield =>
            cases h
            refine ⟨.data _, ⟨tail, ?_, afterColon_iff.mpr rfl⟩, trivial, rfl⟩
            rw [hs, hfield]
            rfl
          · cases h
  · rintro ⟨line, hspells, hfits, rfl⟩
    cases line with
    | comment text =>
      rw [blockLine_comment (startsWith_iff.mpr ⟨text, hspells⟩)]
      rfl
    | event name =>
      obtain ⟨tail, rfl, htail⟩ := hspells
      have hname : ("event:" ++ tail : PyStr) = "event" ++ ":" ++ tail := rfl
      rw [hname, blockLine_field (by decide) (by decide) htail, if_pos rfl]
      have hnone : block.eventName = none := hfits
      rw [hnone]
      rfl
    | data text =>
      obtain ⟨tail, rfl, htail⟩ := hspells
      have hname : ("data:" ++ tail : PyStr) = "data" ++ ":" ++ tail := rfl
      rw [hname, blockLine_field (by decide) (by decide) htail, if_neg (by decide), if_pos rfl]
      rfl

/-! ## 2. Blocks -/

theorem eventsOf_cons (line : Line) (lines : List Line) :
    eventsOf (line :: lines) = eventsOf [line] ++ eventsOf lines := by
  cases line <;> simp [eventsOf]

theorem dataOf_cons (line : Line) (lines : List Line) :
    dataOf (line :: lines) = dataOf [line] ++ dataOf lines := by
  cases line <;> simp [dataOf]

/-- The loop over the lines of a block. -/
theorem foldlM_blockLine {block block' : Block} {spelled : List PyStr} :
    spelled.foldlM blockLine block = .ok block' ↔
      ∃ lines, List.Forall₂ Line.Spells lines spelled ∧
        block'.data = block.data ++ dataOf lines ∧
        block'.eventName.toList = block.eventName.toList ++ eventsOf lines := by
  induction spelled generalizing block with
  | nil =>
    rw [List.foldlM_nil, pure_eq_ok]
    constructor
    · rintro rfl
      exact ⟨[], .nil, by simp [dataOf], by simp [eventsOf]⟩
    · rintro ⟨lines, hlines, hdata, hevent⟩
      cases hlines
      obtain ⟨name, data⟩ := block
      obtain ⟨name', data'⟩ := block'
      simp only [dataOf, eventsOf, List.filterMap_nil, List.append_nil] at hdata hevent
      cases name <;> cases name' <;> simp_all
  | cons s spelled ih =>
    rw [List.foldlM_cons, bind_eq_ok]
    constructor
    · rintro ⟨next, hnext, hrest⟩
      obtain ⟨line, hspells, hfits, rfl⟩ := blockLine_eq_ok.mp hnext
      obtain ⟨lines, hlines, hdata, hevent⟩ := ih.mp hrest
      refine ⟨line :: lines, .cons hspells hlines, ?_, ?_⟩
      · rw [hdata, dataOf_cons]
        cases line <;> simp [Line.addTo, dataOf]
      · rw [hevent, eventsOf_cons]
        cases line with
        | event name =>
          have hnone : block.eventName = none := hfits
          simp [Line.addTo, eventsOf, hnone]
        | comment text => simp [Line.addTo, eventsOf]
        | data text => simp [Line.addTo, eventsOf]
    · rintro ⟨lines, hlines, hdata, hevent⟩
      cases hlines with
      | @cons line _ lines _ hspells hlines =>
        have hfits : line.fits block := by
          cases line with
          | event name =>
            rw [eventsOf_cons] at hevent
            cases hname : block.eventName with
            | none => exact hname
            | some other =>
              have hlength := congrArg List.length hevent
              have hle : block'.eventName.toList.length ≤ 1 := Option.length_toList_le
              simp [hname, eventsOf] at hlength
              omega
          | comment text => trivial
          | data text => trivial
        refine ⟨_, blockLine_eq_ok.mpr ⟨line, hspells, hfits, rfl⟩, ih.mpr ⟨lines, hlines, ?_, ?_⟩⟩
        · rw [hdata, dataOf_cons]
          cases line <;> simp [Line.addTo, dataOf]
        · rw [hevent, eventsOf_cons]
          cases line with
          | event name =>
            have hnone : block.eventName = none := hfits
            simp [Line.addTo, eventsOf, hnone]
          | comment text => simp [Line.addTo, eventsOf]
          | data text => simp [Line.addTo, eventsOf]

theorem eventKind_eq_ok {value : Value} {kind : PyStr} : eventKind value = .ok kind ↔
    value = .str kind ∧ kind.startsWith "response." = true := by
  cases value with
  | str s =>
    simp only [eventKind, bind_eq_ok, require_eq_ok, Value.str.injEq, Except.ok.injEq]
    constructor
    · rintro ⟨_, h, rfl⟩
      exact ⟨rfl, h⟩
    · rintro ⟨rfl, h⟩
      exact ⟨(), h, rfl⟩
  | _ => simp [eventKind]

/-- The name of a block only has to be the kind of its event. -/
theorem streamEvent_eq_ok {stream stream' : Stream} {name : Option PyStr} {event : Value} :
    streamEvent stream name event = .ok stream' ↔ streamEvent stream none event = .ok stream' ∧
      (name = none ∨ ∃ kind, event.get "type" = .str kind ∧ name = some kind) := by
  simp only [streamEvent, bind_eq_ok, require_eq_ok]
  constructor
  · rintro ⟨u, hdict, kind, hkind, v, hname, hrest⟩
    refine ⟨⟨u, hdict, kind, hkind, v, .inl trivial, hrest⟩, hname.imp_right fun h => ?_⟩
    exact ⟨kind, (eventKind_eq_ok.mp hkind).1, h⟩
  · rintro ⟨⟨u, hdict, kind, hkind, v, -, hrest⟩, hname⟩
    refine ⟨u, hdict, kind, hkind, v, hname.imp_right ?_, hrest⟩
    rintro ⟨kind', hkind', rfl⟩
    rw [(eventKind_eq_ok.mp hkind).1] at hkind'
    cases hkind'
    rfl

/-- An event without its block: nothing may have been completed before it. -/
def acceptEvent (stream : Stream) (event : Value) : Py Stream := do
  require (stream.result.isNone = true) "transport-after-completion"
  streamEvent stream none event

theorem Line.Spells.ne_nil {line : Line} {s : PyStr} (h : line.Spells s) : s.codePoints ≠ [] := by
  cases line with
  | comment text =>
    rw [show s = ":" ++ text from h]
    exact List.cons_ne_nil _ _
  | event name =>
    obtain ⟨tail, rfl, -⟩ := h
    exact List.cons_ne_nil _ _
  | data text =>
    obtain ⟨tail, rfl, -⟩ := h
    exact List.cons_ne_nil _ _

section

variable {decode : PyStr → Py Value} {stream stream' : Stream} {text : PyStr}

/-- What a block that is not blank is read as. -/
theorem blockBy_lines {spelled : List PyStr} (htext : text.length ≠ 0)
    (hsegments : text.segments "\n" = spelled) :
    blockBy decode stream text = .ok stream' ↔ ∃ lines, List.Forall₂ Line.Spells lines spelled ∧
      ((Carries decode lines none ∧ stream' = stream) ∨ ∃ event, Carries decode lines (some event) ∧
        acceptEvent stream event = .ok stream') := by
  rw [blockBy, if_neg htext, hsegments, bind_eq_ok]
  constructor
  · rintro ⟨⟨name, data⟩, hblock, hrest⟩
    obtain ⟨lines, hlines, hdata, hevent⟩ := foldlM_blockLine.mp hblock
    simp only [Option.toList_none, List.nil_append] at hdata hevent hrest
    refine ⟨lines, hlines, ?_⟩
    split at hrest
    · next hnil =>
      simp only [bind_eq_ok, require_eq_ok] at hrest
      obtain ⟨_, hnone, hstream⟩ := hrest
      cases hstream
      rw [Option.isNone_iff_eq_none] at hnone
      rw [hnone] at hevent
      exact .inl ⟨⟨hdata ▸ hnil, hevent.symm⟩, rfl⟩
    · next hdatum =>
      simp only [bind_eq_ok, require_eq_ok] at hrest
      obtain ⟨_, hresult, event, hdecode, hevents⟩ := hrest
      obtain ⟨haccept, hname⟩ := streamEvent_eq_ok.mp hevents
      refine .inr ⟨event, ⟨hdata ▸ hdatum, hdata ▸ hdecode, ?_⟩, ?_⟩
      · rcases hname with rfl | ⟨kind, hkind, rfl⟩
        · exact .inl hevent.symm
        · exact .inr ⟨kind, hkind, hevent.symm⟩
      · rw [acceptEvent, bind_eq_ok]
        exact ⟨(), require_eq_ok.mpr hresult, haccept⟩
  · rintro ⟨lines, hlines, hcase⟩
    have hblock : ∀ name : Option PyStr, name.toList = eventsOf lines →
        spelled.foldlM blockLine {} = .ok ⟨name, dataOf lines⟩ := by
      intro name hname
      exact foldlM_blockLine.mpr ⟨lines, hlines, by simp, by simpa using hname⟩
    rcases hcase with ⟨⟨hdata, hevents⟩, rfl⟩ | ⟨event, ⟨hdata, hdecode, hevents⟩, haccept⟩
    · refine ⟨_, hblock none (by rw [hevents]; rfl), ?_⟩
      simp only [hdata, if_pos]
      rfl
    · rw [acceptEvent, bind_eq_ok] at haccept
      obtain ⟨_, hresult, haccept⟩ := haccept
      rcases hevents with hevents | ⟨kind, hkind, hevents⟩
      · refine ⟨_, hblock none (by rw [hevents]; rfl), ?_⟩
        rw [if_neg hdata]
        simp only [bind_eq_ok]
        exact ⟨(), hresult, event, hdecode, haccept⟩
      · refine ⟨_, hblock (some kind) (by rw [hevents]; rfl), ?_⟩
        rw [if_neg hdata]
        simp only [bind_eq_ok]
        exact ⟨(), hresult, event, hdecode,
          streamEvent_eq_ok.mpr ⟨haccept, .inr ⟨kind, hkind, rfl⟩⟩⟩

theorem join_ne_nil {spelled : List PyStr} (hne : spelled ≠ [])
    (h : ∀ s ∈ spelled, s.codePoints ≠ []) : (PyStr.join "\n" spelled).length ≠ 0 := by
  obtain ⟨s, rest, rfl⟩ := List.exists_cons_of_ne_nil hne
  have hs : 0 < s.codePoints.length := List.length_pos_iff.mpr (h s List.mem_cons_self)
  cases rest with
  | nil => exact Nat.ne_of_gt hs
  | cons t rest =>
    rw [join_cons_cons, PyStr.length, codePoints_append, codePoints_append]
    simp only [List.length_append]
    omega

/-- **A block of a stream is a frame**, and its content an event of the stream. -/
theorem blockBy_eq_ok : blockBy decode stream text = .ok stream' ↔
    ∃ frame : Frame decode, frame.text = text ∧ ((frame.content = none ∧ stream' = stream) ∨
      ∃ event, frame.content = some event ∧ acceptEvent stream event = .ok stream') := by
  constructor
  · intro h
    by_cases htext : text.length = 0
    · rw [blockBy, if_pos htext] at h
      cases h
      have hempty : text = PyStr.join "\n" [] := PyStr.ext (List.length_eq_zero_iff.mp htext)
      exact ⟨⟨[], text, none, ⟨[], .nil, by simp, hempty⟩, rfl, rfl⟩, rfl, .inl ⟨rfl, rfl⟩⟩
    · obtain ⟨lines, hlines, hcase⟩ := (blockBy_lines htext rfl).mp h
      have hblock : IsBlock lines text :=
        ⟨_, hlines, fun s hs => not_mem_of_mem_segments hs,
          (join_segments text (List.cons_ne_nil _ _)).symm⟩
      rcases hcase with ⟨hcarries, rfl⟩ | ⟨event, hcarries, haccept⟩
      · exact ⟨⟨lines, text, none, hblock, hcarries⟩, rfl, .inl ⟨rfl, rfl⟩⟩
      · exact ⟨⟨lines, text, some event, hblock, hcarries⟩, rfl, .inr ⟨event, rfl, haccept⟩⟩
  · rintro ⟨⟨lines, text, content, ⟨spelled, hspelled, hnewline, rfl⟩, hcarries⟩, rfl, hcase⟩
    simp only at hcase ⊢
    by_cases hne : spelled = []
    · subst hne
      cases hspelled
      rcases hcase with ⟨-, rfl⟩ | ⟨event, rfl, -⟩
      · rfl
      · exact absurd rfl hcarries.1
    · have hnonempty : ∀ s ∈ spelled, s.codePoints ≠ [] := by
        intro s hs
        obtain ⟨line, -, hline⟩ := exists_left_of_forall₂ hspelled hs
        exact hline.ne_nil
      refine (blockBy_lines (join_ne_nil hne hnonempty) (segments_join hne hnewline)).mpr
        ⟨lines, hspelled, ?_⟩
      rcases hcase with ⟨rfl, rfl⟩ | ⟨event, rfl, haccept⟩
      · exact .inl ⟨hcarries, rfl⟩
      · exact .inr ⟨event, hcarries, haccept⟩

/-- The loop over the blocks. -/
theorem foldlM_blockBy {texts : List PyStr} : texts.foldlM (blockBy decode) stream = .ok stream' ↔
    ∃ frames : List (Frame decode), frames.map Frame.text = texts ∧
      (frames.filterMap Frame.content).foldlM acceptEvent stream = .ok stream' := by
  induction texts generalizing stream with
  | nil =>
    constructor
    · intro h
      exact ⟨[], rfl, h⟩
    · rintro ⟨frames, hframes, h⟩
      rw [List.map_eq_nil_iff] at hframes
      subst hframes
      exact h
  | cons text texts ih =>
    rw [List.foldlM_cons, bind_eq_ok]
    constructor
    · rintro ⟨next, hnext, hrest⟩
      obtain ⟨frame, rfl, hcase⟩ := blockBy_eq_ok.mp hnext
      obtain ⟨frames, rfl, hframes⟩ := ih.mp hrest
      refine ⟨frame :: frames, rfl, ?_⟩
      rcases hcase with ⟨hcontent, rfl⟩ | ⟨event, hcontent, haccept⟩
      · rw [List.filterMap_cons_none hcontent]
        exact hframes
      · rw [List.filterMap_cons_some hcontent, List.foldlM_cons, haccept]
        exact hframes
    · rintro ⟨frames, hframes, h⟩
      obtain ⟨frame, frames, rfl, rfl, rfl⟩ := List.map_eq_cons_iff.mp hframes
      cases hcontent : frame.content with
      | none =>
        rw [List.filterMap_cons_none hcontent] at h
        exact ⟨stream, blockBy_eq_ok.mpr ⟨frame, rfl, .inl ⟨hcontent, rfl⟩⟩,
          ih.mpr ⟨frames, rfl, h⟩⟩
      | some event =>
        rw [List.filterMap_cons_some hcontent, List.foldlM_cons, bind_eq_ok] at h
        obtain ⟨next, haccept, hrest⟩ := h
        exact ⟨next, blockBy_eq_ok.mpr ⟨frame, rfl, .inr ⟨event, hcontent, haccept⟩⟩,
          ih.mpr ⟨frames, rfl, hrest⟩⟩

end

/-! ## 3. Events -/

theorem isText_id {response : Value} {identity : PyStr} :
    (response.get "id").isText identity = true ↔ response.get "id" = .str identity :=
  Value.isText_iff

theorem sameIdentity_eq_ok {identity : PyStr} {event : Value} {u : Unit} :
    sameIdentity identity (event.find? "response") = .ok u ↔ IsAbout identity event := by
  rw [IsAbout]
  cases event.find? "response" with
  | none => simp [sameIdentity]
  | some response => simp [sameIdentity, isText_id]

/-- The state after some events, none of them the last one. -/
def streamAt (identity : Option PyStr) (number : Nat) : Stream :=
  ⟨none, identity, (number : Int) - 1, number⟩

/-- What an event does to a stream that has not been completed. -/
theorem acceptEvent_eq_ok {identity : Option PyStr} {number : Nat} {event : Value}
    {stream : Stream} : acceptEvent (streamAt identity number) event = .ok stream ↔
      ∃ kind identity', IsEvent event kind number ∧ number + 1 ≤ 100000 ∧
        streamIdentity (streamAt identity number) kind (number + 1) event = .ok identity' ∧
        IsAbout identity' event ∧
        if kind = "response.completed" then (event.get "response").isDict = true ∧
          stream = { streamAt (some identity') (number + 1) with
            result := some (event.get "response") }
        else stream = streamAt (some identity') (number + 1) := by
  have hnext : ∀ identity' : PyStr, (⟨none, some identity', (number : Int) - 1 + 1, number + 1⟩ :
      Stream) = streamAt (some identity') (number + 1) := by
    intro identity'
    simp [streamAt]
  simp only [acceptEvent, streamEvent, bind_eq_ok, require_eq_ok]
  constructor
  · rintro ⟨_, -, _, hdict, kind, hkind, _, -, n, hn, _, hcount, _, hlive, identity', hidentity, _,
      habout, hrest⟩
    have hnumber := integer_eq_ok hn
    have hvalue : n.1 = (number : Int) := by
      have hlow := n.2.1
      have hhigh := n.2.2
      simp only [streamAt] at hlow hhigh
      omega
    rw [hvalue] at hnumber
    obtain ⟨htyped, hresponse⟩ := eventKind_eq_ok.mp hkind
    refine ⟨kind, identity', ⟨hdict, htyped, hresponse, hnumber, hlive⟩, hcount, hidentity,
      sameIdentity_eq_ok.mp habout, ?_⟩
    split at hrest
    · next hcompleted =>
      simp only [bind_eq_ok, require_eq_ok] at hrest
      obtain ⟨_, hshape, hstream⟩ := hrest
      cases hstream
      rw [if_pos hcompleted]
      exact ⟨hshape, by rw [← hnext]; rfl⟩
    · next hcompleted =>
      cases hrest
      rw [if_neg hcompleted, ← hnext]
      rfl
  · rintro ⟨kind, identity', ⟨hdict, htyped, hresponse, hnumbered, hlive⟩, hcount, hidentity,
      habout, hstream⟩
    have hrange : (number : Int) - 1 + 1 ≤ number ∧ (number : Int) ≤ (number : Int) - 1 + 1 := by
      omega
    refine ⟨(), rfl, (), hdict, kind, eventKind_eq_ok.mpr ⟨htyped, hresponse⟩, (), .inl trivial,
      ⟨number, hrange⟩, ?_, (), hcount, (), hlive, identity', hidentity, (),
      sameIdentity_eq_ok.mpr habout, ?_⟩
    · rw [hnumbered]
      exact integer_int hrange
    · split at hstream
      · next hcompleted =>
        rw [if_pos hcompleted]
        simp only [bind_eq_ok, require_eq_ok]
        refine ⟨(), hstream.1, ?_⟩
        rw [hstream.2, ← hnext]
        rfl
      · next hcompleted =>
        rw [if_neg hcompleted, hstream, ← hnext]
        rfl

theorem acceptEvent_of_result {stream : Stream} {response : Value}
    (h : stream.result = some response) (event : Value) :
    acceptEvent stream event = .error (.reviewError "transport-after-completion") := by
  rw [acceptEvent, h]
  rfl

section

variable {identity : PyStr} {response : Value} {number : Nat} {events : List Value} {event : Value}

/-- After the creation the identity stays, and no other event may create. -/
theorem streamIdentity_some {kind identity' : PyStr} :
    streamIdentity (streamAt (some identity) number) kind (number + 1) event = .ok identity' ↔
      kind ≠ "response.created" ∧ identity' = identity := by
  rw [streamIdentity]
  split
  · next hkind =>
    simp [hkind, streamAt, require, raiseUnless]
  · next hkind =>
    simp [hkind, streamAt, eq_comm]

/-- The events after the creation. -/
theorem foldlM_acceptEvent :
    (∃ stream, events.foldlM acceptEvent (streamAt (some identity) number) = .ok stream ∧
      stream.result = some response) ↔
      RunsToEnd identity response number events ∧ number + events.length ≤ 100000 := by
  induction events generalizing number with
  | nil =>
    constructor
    · rintro ⟨stream, hstream, hresult⟩
      cases hstream
      cases hresult
    · rintro ⟨hends, -⟩
      cases hends
  | cons event events ih =>
    simp only [List.foldlM_cons, bind_eq_ok]
    constructor
    · rintro ⟨stream, ⟨next, hnext, hrest⟩, hresult⟩
      obtain ⟨kind, identity', hevent, hcount, hidentity, habout, hcase⟩ :=
        acceptEvent_eq_ok.mp hnext
      obtain ⟨hcreated, rfl⟩ := streamIdentity_some.mp hidentity
      by_cases hcompleted : kind = "response.completed"
      · rw [if_pos hcompleted] at hcase
        obtain ⟨hdict, rfl⟩ := hcase
        cases events with
        | nil =>
          cases hrest
          subst hcompleted
          refine ⟨.completed hevent hdict habout ?_, hcount⟩
          simpa using hresult
        | cons late events =>
          rw [List.foldlM_cons, acceptEvent_of_result rfl, error_bind] at hrest
          cases hrest
      · rw [if_neg hcompleted] at hcase
        subst hcase
        obtain ⟨hends, hlength⟩ := ih.mp ⟨stream, hrest, hresult⟩
        refine ⟨.passing hevent hcreated hcompleted habout hends, ?_⟩
        rw [List.length_cons]
        omega
    · rintro ⟨hends, hlength⟩
      rw [List.length_cons] at hlength
      cases hends with
      | completed hevent hdict habout hresponse =>
        have haccept : acceptEvent (streamAt (some identity) number) event =
            .ok { streamAt (some identity) (number + 1) with
              result := some (event.get "response") } := by
          refine acceptEvent_eq_ok.mpr ⟨_, identity, hevent, by omega,
            streamIdentity_some.mpr ⟨by decide, rfl⟩, habout, ?_⟩
          rw [if_pos rfl]
          exact ⟨hdict, rfl⟩
        exact ⟨_, ⟨_, haccept, rfl⟩, congrArg some hresponse⟩
      | @passing _ kind _ _ hevent hcreated hcompleted habout hrest =>
        obtain ⟨stream, hstream, hresult⟩ := ih.mpr ⟨hrest, by omega⟩
        refine ⟨stream, ⟨streamAt (some identity) (number + 1), ?_, hstream⟩, hresult⟩
        refine acceptEvent_eq_ok.mpr ⟨kind, identity, hevent, by omega,
          streamIdentity_some.mpr ⟨hcreated, rfl⟩, habout, ?_⟩
        rw [if_neg hcompleted]

end

/-- The first event creates the response. -/
theorem streamIdentity_none {kind identity : PyStr} {event : Value} :
    streamIdentity (streamAt none 0) kind 1 event = .ok identity ↔ kind = "response.created" ∧
      (event.get "response").isDict = true ∧ (event.get "response").get "id" = .str identity ∧
      (0 < identity.length ∧ identity.length ≤ 256) := by
  rw [streamIdentity]
  split
  · next hkind =>
    simp only [bind_eq_ok, require_eq_ok]
    constructor
    · rintro ⟨_, -, _, hdict, hidentity⟩
      rw [responseIdentity.eq_def] at hidentity
      split at hidentity
      · next text htext =>
        simp only [bind_eq_ok, require_eq_ok] at hidentity
        obtain ⟨_, hlength, hsame⟩ := hidentity
        cases hsame
        exact ⟨hkind, hdict, htext, hlength⟩
      · cases hidentity
    · rintro ⟨-, hdict, hid, hlength⟩
      refine ⟨(), ⟨rfl, trivial⟩, (), hdict, ?_⟩
      rw [hid, responseIdentity, bind_eq_ok]
      exact ⟨(), require_eq_ok.mpr hlength, rfl⟩
  · next hkind => simp [hkind, streamAt]

/-- **The events of a completed stream**, and no others, leave its response. -/
theorem foldlM_isCompleted {events : List Value} {response : Value} :
    (∃ stream, events.foldlM acceptEvent {} = .ok stream ∧ stream.result = some response) ↔
      IsCompleted events response := by
  have hstart : ({} : Stream) = streamAt none 0 := rfl
  rw [hstart]
  constructor
  · rintro ⟨stream, hstream, hresult⟩
    cases events with
    | nil =>
      cases hstream
      cases hresult
    | cons created rest =>
      rw [List.foldlM_cons, bind_eq_ok] at hstream
      obtain ⟨next, hnext, hrest⟩ := hstream
      obtain ⟨kind, identity, hevent, -, hidentity, habout, hcase⟩ := acceptEvent_eq_ok.mp hnext
      obtain ⟨rfl, hdict, hid, hlength⟩ := streamIdentity_none.mp hidentity
      rw [if_neg (by decide)] at hcase
      subst hcase
      obtain ⟨hends, hcount⟩ := foldlM_acceptEvent.mp ⟨stream, hrest, hresult⟩
      refine ⟨identity, created, rest, rfl, ?_, hevent, hdict, hlength, habout, hid, hends⟩
      rw [List.length_cons]
      omega
  · rintro ⟨identity, created, rest, rfl, hcount, hevent, hdict, hlength, habout, hid, hends⟩
    rw [List.length_cons] at hcount
    obtain ⟨stream, hstream, hresult⟩ := foldlM_acceptEvent.mpr ⟨hends, by omega⟩
    refine ⟨stream, ?_, hresult⟩
    rw [List.foldlM_cons, bind_eq_ok]
    refine ⟨streamAt (some identity) 1, acceptEvent_eq_ok.mpr ⟨_, identity, hevent, by omega,
      streamIdentity_none.mpr ⟨rfl, hdict, hid, hlength⟩, habout, ?_⟩, hstream⟩
    rw [if_neg (by decide)]

/-! ## 4. Texts -/

/-- The text of a CRLF stream with its line ends replaced. -/
theorem lineEnds_iff {raw text : List Nat} :
    LineEnds raw text ↔ replaceFrom [13, 10] [10] 0 raw = text ∧ 13 ∉ text := by
  constructor
  · intro h
    induction h with
    | nil => exact ⟨rfl, List.not_mem_nil⟩
    | @lf raw text _ ih =>
      refine ⟨?_, ?_⟩
      · rw [replaceFrom, if_neg (by simp [List.isPrefixOf]), ih.1]
      · rw [List.mem_cons, not_or]
        exact ⟨by decide, ih.2⟩
    | @crlf raw text _ ih =>
      refine ⟨?_, ?_⟩
      · rw [replaceFrom, if_pos (by simp [List.isPrefixOf])]
        exact congrArg ([10] ++ ·) ih.1
      · rw [List.mem_cons, not_or]
        exact ⟨by decide, ih.2⟩
    | @other c raw text hc _ ih =>
      refine ⟨?_, ?_⟩
      · rw [replaceFrom, if_neg (by simp [List.isPrefixOf, Ne.symm hc.2]), ih.1]
      · rw [List.mem_cons, not_or]
        exact ⟨Ne.symm hc.2, ih.2⟩
  · rintro ⟨hreplace, hreturn⟩
    induction hlength : raw.length using Nat.strong_induction_on generalizing raw text with
    | _ n ih =>
      subst hlength
      cases raw with
      | nil =>
        cases hreplace
        exact .nil
      | cons c raw =>
        rw [replaceFrom] at hreplace
        split at hreplace
        · next hcrlf =>
          obtain ⟨rest, hrest⟩ := List.isPrefixOf_iff_prefix.mp hcrlf
          cases hrest
          have htext : 10 :: replaceFrom [13, 10] [10] 0 rest = text := hreplace
          subst htext
          rw [List.mem_cons, not_or] at hreturn
          have hlt : rest.length < (13 :: 10 :: rest).length := by
            simp only [List.length_cons]
            omega
          exact .crlf (ih rest.length hlt rfl hreturn.2 rfl)
        · subst hreplace
          rw [List.mem_cons, not_or] at hreturn
          have hrest := ih raw.length (by simp) rfl hreturn.2 rfl
          by_cases hc : c = 10
          · subst hc
            exact .lf hrest
          · exact .other ⟨hc, fun h => hreturn.1 h.symm⟩ hrest

section

variable {line acc rest : List Nat} {c : Nat}

theorem segmentsFrom_line (h : 10 ∉ line) : segmentsFrom [10, 10] 0 acc (line ++ rest) =
    segmentsFrom [10, 10] 0 (line.reverse ++ acc) rest := by
  induction line generalizing acc with
  | nil => rfl
  | cons d line ih =>
    rw [List.mem_cons, not_or] at h
    rw [List.cons_append, segmentsFrom, if_neg (by simp [List.isPrefixOf, h.1]), ih h.2]
    simp

theorem segmentsFrom_newline (h : c ≠ 10) : segmentsFrom [10, 10] 0 acc (10 :: c :: rest) =
    segmentsFrom [10, 10] 0 (10 :: acc) (c :: rest) := by
  rw [segmentsFrom, if_neg (by simp [List.isPrefixOf, Ne.symm h])]

theorem segmentsFrom_blank : segmentsFrom [10, 10] 0 acc (10 :: 10 :: rest) =
    ⟨acc.reverse⟩ :: segmentsFrom [10, 10] 0 [] rest := by
  rw [segmentsFrom, if_pos (by simp [List.isPrefixOf])]
  rfl

end

/-- The blank line after a block is the first in it. -/
theorem segmentsFrom_block {spelled : List PyStr} (hlines : ∀ s ∈ spelled, 10 ∉ s.codePoints)
    (hnonempty : ∀ s ∈ spelled, s.codePoints ≠ []) {acc rest : List Nat} :
    segmentsFrom [10, 10] 0 acc ((PyStr.join "\n" spelled).codePoints ++ 10 :: 10 :: rest) =
      ⟨acc.reverse ++ (PyStr.join "\n" spelled).codePoints⟩ :: segmentsFrom [10, 10] 0 [] rest := by
  induction spelled generalizing acc with
  | nil =>
    rw [show (PyStr.join "\n" []).codePoints = [] from rfl, List.nil_append, segmentsFrom_blank,
      List.append_nil]
  | cons s spelled ih =>
    have hs := hlines s List.mem_cons_self
    cases spelled with
    | nil =>
      rw [show (PyStr.join "\n" [s]).codePoints = s.codePoints from rfl, segmentsFrom_line hs,
        segmentsFrom_blank]
      simp
    | cons t spelled =>
      have hrest := @ih (fun u hu => hlines u (List.mem_cons_of_mem _ hu))
        (fun u hu => hnonempty u (List.mem_cons_of_mem _ hu)) (10 :: (s.codePoints.reverse ++ acc))
      have hhead : ∃ c points, (PyStr.join "\n" (t :: spelled)).codePoints = c :: points ∧
          c ≠ 10 := by
        obtain ⟨c, points, hpoints⟩ := List.exists_cons_of_ne_nil
          (hnonempty t (List.mem_cons_of_mem _ List.mem_cons_self))
        have hc : c ≠ 10 := by
          rintro rfl
          exact hlines t (List.mem_cons_of_mem _ List.mem_cons_self)
            (by rw [hpoints]; exact List.mem_cons_self)
        cases spelled with
        | nil => exact ⟨c, points, hpoints, hc⟩
        | cons u spelled =>
          rw [join_cons_cons, codePoints_append, codePoints_append, hpoints]
          exact ⟨c, _, rfl, hc⟩
      obtain ⟨c, points, hpoints, hc⟩ := hhead
      have hjoin : (PyStr.join "\n" (s :: t :: spelled)).codePoints =
          s.codePoints ++ 10 :: (PyStr.join "\n" (t :: spelled)).codePoints := by
        rw [join_cons_cons, codePoints_append, codePoints_append, List.append_assoc]
        rfl
      rw [hjoin, List.append_assoc, segmentsFrom_line hs, List.cons_append]
      rw [hpoints, List.cons_append] at hrest ⊢
      rw [segmentsFrom_newline hc, hrest]
      simp

theorem Frame.spelled {decode : PyStr → Py Value} (frame : Frame decode) : ∃ spelled : List PyStr,
    (∀ s ∈ spelled, 10 ∉ s.codePoints) ∧ (∀ s ∈ spelled, s.codePoints ≠ []) ∧
      frame.text = PyStr.join "\n" spelled := by
  obtain ⟨spelled, hspelled, hlines, htext⟩ := frame.isBlock
  refine ⟨spelled, hlines, ?_, htext⟩
  intro s hs
  obtain ⟨line, -, hline⟩ := exists_left_of_forall₂ hspelled hs
  exact hline.ne_nil

/-- The blocks of a stream are found again. -/
theorem segments_streamText {decode : PyStr → Py Value} (frames : List (Frame decode)) :
    (⟨streamText frames⟩ : PyStr).segments "\n\n" = frames.map Frame.text ++ [⟨[]⟩] := by
  change segmentsFrom [10, 10] 0 [] (streamText frames) = _
  induction frames with
  | nil => rfl
  | cons frame frames ih =>
    obtain ⟨spelled, hlines, hnonempty, htext⟩ := frame.spelled
    have hcons : streamText (frame :: frames) =
        frame.text.codePoints ++ 10 :: 10 :: streamText frames := by
      simp [streamText]
    rw [hcons, htext, segmentsFrom_block hlines hnonempty, ih, List.map_cons, htext]
    rfl

/-- The last line of a block ends without a newline. -/
theorem Frame.getLast {decode : PyStr → Py Value} (frame : Frame decode) :
    frame.text.codePoints.getLast? ≠ some 10 := by
  obtain ⟨spelled, hlines, hnonempty, htext⟩ := frame.spelled
  rw [htext]
  clear htext
  induction spelled with
  | nil => exact fun h => nomatch h
  | cons s spelled ih =>
    cases spelled with
    | nil =>
      intro h
      exact hlines s List.mem_cons_self (List.mem_of_getLast? h)
    | cons t spelled =>
      have hrest := ih (fun u hu => hlines u (List.mem_cons_of_mem _ hu))
        (fun u hu => hnonempty u (List.mem_cons_of_mem _ hu))
      have hne : (PyStr.join "\n" (t :: spelled)).codePoints ≠ [] := by
        have hlength := join_ne_nil (List.cons_ne_nil t spelled)
          fun u hu => hnonempty u (List.mem_cons_of_mem _ hu)
        intro hnil
        exact hlength (congrArg List.length hnil)
      rw [join_cons_cons, codePoints_append, List.getLast?_append_of_ne_nil _ hne]
      exact hrest

theorem join_concat {separator last : PyStr} {texts : List PyStr} :
    (PyStr.join separator (texts ++ [last])).codePoints =
      texts.flatMap (fun t => t.codePoints ++ separator.codePoints) ++ last.codePoints := by
  induction texts with
  | nil => rfl
  | cons t texts ih =>
    obtain ⟨u, rest, hrest⟩ := List.exists_cons_of_ne_nil
      (List.append_ne_nil_of_right_ne_nil texts (List.cons_ne_nil last []))
    rw [hrest] at ih
    rw [List.cons_append, hrest, join_cons_cons, codePoints_append, codePoints_append, ih,
      List.flatMap_cons]
    simp only [List.append_assoc]

/-- A blank block carries nothing. -/
theorem Frame.content_of_blank {decode : PyStr → Py Value} (frame : Frame decode)
    (h : frame.text.codePoints = []) : frame.content = none := by
  obtain ⟨spelled, hspelled, -, htext⟩ := frame.isBlock
  cases spelled with
  | nil =>
    have hlines : frame.lines = [] := List.forall₂_nil_right_iff.mp hspelled
    have hcarries := frame.carries
    rw [hlines] at hcarries
    cases hcontent : frame.content with
    | none => rfl
    | some event =>
      rw [hcontent] at hcarries
      exact absurd rfl hcarries.1
  | cons s spelled =>
    have hne := join_ne_nil (List.cons_ne_nil s spelled) fun u hu => by
      obtain ⟨line, -, hline⟩ := exists_left_of_forall₂ hspelled hu
      exact hline.ne_nil
    rw [← htext] at hne
    exact absurd (congrArg List.length h) hne

/-- The texts whose blocks are read to the end are the streams of frames. -/
theorem blocks_eq_ok {decode : PyStr → Py Value} {text : PyStr} {stream stream' : Stream} :
    (text.endsWith "\n\n" = true ∧
      (text.segments "\n\n").foldlM (blockBy decode) stream = .ok stream') ↔
      ∃ frames : List (Frame decode), frames ≠ [] ∧ text.codePoints = streamText frames ∧
        (frames.filterMap Frame.content).foldlM acceptEvent stream = .ok stream' := by
  constructor
  · rintro ⟨hends, hblocks⟩
    obtain ⟨all, hsegments, hevents⟩ := foldlM_blockBy.mp hblocks
    have hjoin : PyStr.join "\n\n" (all.map Frame.text) = text := by
      rw [hsegments]
      exact join_segments text (List.cons_ne_nil _ _)
    rcases List.eq_nil_or_concat all with rfl | ⟨frames, last, rfl⟩
    · exact absurd hsegments.symm segmentsFrom_ne_nil
    rw [List.concat_eq_append] at *
    rw [List.map_append, List.map_singleton] at hjoin
    have hpoints := congrArg PyStr.codePoints hjoin
    rw [join_concat] at hpoints
    obtain ⟨before, hbefore⟩ := List.isSuffixOf_iff_suffix.mp hends
    have hnewline : text.codePoints.getLast? = some 10 := by
      have hblank : PyStr.codePoints "\n\n" = [10, 10] := rfl
      rw [← hbefore, hblank, List.getLast?_append_of_ne_nil _ (List.cons_ne_nil _ _)]
      rfl
    have hempty : last.text.codePoints = [] := by
      by_contra hne
      rw [← hpoints, List.getLast?_append_of_ne_nil _ hne] at hnewline
      exact last.getLast hnewline
    have hstream : text.codePoints = streamText frames := by
      rw [← hpoints, hempty, List.append_nil, streamText, List.flatMap_map]
      rfl
    have hcontent := last.content_of_blank hempty
    refine ⟨frames, ?_, hstream, ?_⟩
    · rintro rfl
      rw [hstream] at hnewline
      cases hnewline
    · rw [List.filterMap_append] at hevents
      simpa [hcontent] using hevents
  · rintro ⟨frames, hne, htext, hevents⟩
    obtain rfl : text = ⟨streamText frames⟩ := PyStr.ext htext
    constructor
    · rcases List.eq_nil_or_concat frames with rfl | ⟨front, last, rfl⟩
      · exact absurd rfl hne
      · rw [PyStr.endsWith, List.isSuffixOf_iff_suffix]
        refine ⟨streamText front ++ last.text.codePoints, ?_⟩
        rw [List.concat_eq_append]
        simp only [streamText, List.flatMap_append, List.flatMap_cons, List.flatMap_nil,
          List.append_nil, List.append_assoc]
        rfl
    · have hblank : blockBy decode stream' ⟨[]⟩ = .ok stream' := rfl
      rw [segments_streamText, List.foldlM_append, bind_eq_ok]
      refine ⟨stream', foldlM_blockBy.mpr ⟨frames, rfl, hevents⟩, ?_⟩
      rw [List.foldlM_cons, hblank]
      rfl

/-! ## 5. Payloads -/

/-- The payload is not empty and within the limit, which is one to begin with. -/
def WithinLimit (payload : Bytes) : Option Int → Prop
  | none => 0 < payload.length ∧ payload.length ≤ maxResponseBytes
  | some limit => (1 ≤ limit ∧ limit ≤ maxResponseBytes) ∧
      0 < payload.length ∧ payload.length ≤ limit

theorem boundedBy_isOk {payload : Bytes} {byteLimit : Option Int} :
    (∃ bounded, boundedBy payload byteLimit = .ok bounded) ↔ WithinLimit payload byteLimit := by
  cases byteLimit with
  | none =>
    simp only [boundedBy, bind_eq_ok, require_eq_ok, WithinLimit]
    constructor
    · rintro ⟨_, _, h, -⟩
      exact h
    · intro h
      exact ⟨payload, (), h, rfl⟩
  | some limit =>
    simp only [boundedBy, boundedResponse, bind_eq_ok, require_eq_ok, WithinLimit]
    constructor
    · rintro ⟨_, maximum, hmaximum, _, h, -⟩
      have hlimit : limit = maximum.1 := Value.int.inj (integer_eq_ok hmaximum)
      exact ⟨hlimit ▸ maximum.2, hlimit ▸ h⟩
    · rintro ⟨hlimit, h⟩
      exact ⟨payload, ⟨limit, hlimit⟩, integer_int hlimit, (), h, rfl⟩

theorem streamBy_eq_ok {decode : PyStr → Py Value} {payload : Bytes} {response : Value} :
    streamBy decode payload = .ok response ↔
      ∃ events, Serializes decode payload events ∧ IsCompleted events response := by
  rw [streamBy]
  constructor
  · intro h
    split at h
    · cases h
    · next points hpoints =>
      simp only [bind_eq_ok, require_eq_ok] at h
      obtain ⟨_, ⟨hreturn, hends⟩, stream, hstream, hresult⟩ := h
      obtain ⟨frames, -, htext, hevents⟩ := blocks_eq_ok.mp ⟨hends, hstream⟩
      have hresponse : stream.result = some response := by
        split at hresult
        · cases hresult
        · next found hfound =>
          cases hresult
          exact hfound
      refine ⟨_, ⟨points, frames, hpoints, ?_, rfl⟩,
        foldlM_isCompleted.mp ⟨stream, hevents, hresponse⟩⟩
      rw [replace_codePoints] at htext hreturn
      exact lineEnds_iff.mpr ⟨htext, htext ▸ hreturn⟩
  · rintro ⟨events, ⟨points, frames, hpoints, hlineEnds, rfl⟩, hcompleted⟩
    obtain ⟨htext, hreturn⟩ := lineEnds_iff.mp hlineEnds
    obtain ⟨stream, hevents, hresponse⟩ := foldlM_isCompleted.mpr hcompleted
    have hne : frames ≠ [] := by
      rintro rfl
      cases hevents
      cases hresponse
    have hreplaced : ((PyStr.mk points).replace "\r\n" "\n").codePoints = streamText frames := by
      rw [replace_codePoints]
      exact htext
    obtain ⟨hends, hstream⟩ := blocks_eq_ok.mpr ⟨frames, hne, hreplaced, hevents⟩
    rw [hpoints]
    simp only [bind_eq_ok, require_eq_ok]
    refine ⟨(), ⟨by rw [hreplaced]; exact hreturn, hends⟩, stream, hstream, ?_⟩
    rw [hresponse]

section

open Json

/-- Characters that stand for themselves in a JSON string. -/
def IsPlain (w : List Nat) : Prop := ∀ c ∈ w, 32 ≤ c ∧ c ≠ 34 ∧ c ≠ 92

instance (w : List Nat) : Decidable (IsPlain w) := inferInstanceAs (Decidable (∀ c ∈ w, _))

theorem scanString_plain {w rest : List Nat} (h : IsPlain w) {fuel : Nat} (hfuel : w.length < fuel) :
    scanString fuel (w ++ 34 :: rest) = .ok (w, rest) := by
  induction w generalizing fuel with
  | nil =>
    cases fuel with
    | zero => cases hfuel
    | succ fuel => rfl
  | cons c w ih =>
    cases fuel with
    | zero => cases hfuel
    | succ fuel =>
      have hc := h c List.mem_cons_self
      have hrest := @ih (fun x hx => h x (List.mem_cons_of_mem _ hx)) fuel (by simpa using hfuel)
      rw [List.cons_append, scanString, if_neg hc.2.1, if_neg (by omega), if_neg hc.2.2, ok_bind]
      simp only [hrest]
      rfl

theorem scanString_rest {w : List Nat} (h : IsPlain w) (rest : List Nat) :
    scanString ((w ++ 34 :: rest).length + 1) (w ++ 34 :: rest) = .ok (w, rest) := by
  refine scanString_plain h ?_
  simp only [List.length_append]
  omega

end

def streamRuntime : Runtime := ⟨fun _ => "", 1000, fun s => ⟨s, none⟩, []⟩

/-- An event about one response. -/
def sampleEvent (kind : PyStr) (number : Nat) : Value :=
  .dict [("type", .str kind), ("sequence_number", .int number),
    ("response", .dict [("id", .str "r")])]

/-- Its JSON text. -/
def sampleText (kind : PyStr) (digit : Nat) : PyStr :=
  "\x7b\"type\":\"" ++ kind ++ "\",\"sequence_number\":" ++ ⟨[digit]⟩ ++
    ",\"response\":\x7b\"id\":\"r\"\x7d\x7d"

theorem strictLoads_sampleText {kind : PyStr} {digit n : Nat} (hkind : IsPlain kind.codePoints)
    (hdigit : (digit, n) ∈ [(48, 0), (49, 1), (50, 2)]) :
    strictLoads streamRuntime (sampleText kind digit) = .ok (sampleEvent kind n) := by
  have htext : (sampleText kind digit).codePoints =
      123 :: 34 :: (PyStr.codePoints "type" ++ 34 :: 58 :: 34 :: (kind.codePoints ++
        34 :: 44 :: 34 :: (PyStr.codePoints "sequence_number" ++ 34 :: 58 :: (digit ::
          44 :: 34 :: (PyStr.codePoints "response" ++ 34 :: 58 :: 123 :: 34 ::
            (PyStr.codePoints "id" ++ 34 :: 58 :: 34 :: (PyStr.codePoints "r" ++
              34 :: [125, 125]))))))) := by
    simp only [sampleText, codePoints_append, List.append_assoc]
    rfl
  obtain ⟨fuel, hfuel⟩ : ∃ fuel, 2 * (sampleText kind digit).length + 4 = fuel + 20 :=
    ⟨2 * (sampleText kind digit).length - 16, by
      rw [PyStr.length, htext]
      simp only [List.length_cons, List.length_append]
      omega⟩
  have hdepth : streamRuntime.maxDepth = 1000 := rfl
  have htype := @scanString_rest (PyStr.codePoints "type") (by decide)
  have hsequence := @scanString_rest (PyStr.codePoints "sequence_number") (by decide)
  have hresponse := @scanString_rest (PyStr.codePoints "response") (by decide)
  have hid := @scanString_rest (PyStr.codePoints "id") (by decide)
  have hr := @scanString_rest (PyStr.codePoints "r") (by decide)
  have hnumber : ∀ rest, Json.scanScalar streamRuntime strictHooks
      (digit :: 44 :: rest) = .ok (.int n, 44 :: rest) := by
    intro rest
    simp only [List.mem_cons, Prod.mk.injEq, List.not_mem_nil, or_false] at hdigit
    rcases hdigit with ⟨rfl, rfl⟩ | ⟨rfl, rfl⟩ | ⟨rfl, rfl⟩ <;> rfl
  rw [strictLoads, Json.loads, htext, hfuel, hdepth]
  simp only [List.mem_cons, Prod.mk.injEq, List.not_mem_nil, or_false] at hdigit
  rcases hdigit with ⟨rfl, rfl⟩ | ⟨rfl, rfl⟩ | ⟨rfl, rfl⟩ <;>
  · simp [-List.length_append, -List.length_cons, Json.skipSpace, Json.scanValue, Json.scanDict,
      Json.scanPairs, Json.Hooks.object, htype, scanString_rest hkind, hsequence, hresponse, hid, hr,
      hnumber]
    rfl

/-- A block of one data line is its event. -/
theorem blockBy_data {decode : PyStr → Py Value} {stream : Stream} {text : PyStr} {event : Value}
    (hnewline : 10 ∉ ("data:" ++ text).codePoints) (hblank : text.startsWith " " = false)
    (hdecode : decode text = .ok event) :
    blockBy decode stream ("data:" ++ text) = acceptEvent stream event := by
  have hline : blockLine {} ("data:" ++ text) = .ok ⟨none, [text]⟩ :=
    blockLine_eq_ok.mpr ⟨.data text, ⟨text, rfl, .inr ⟨rfl, hblank⟩⟩, trivial, rfl⟩
  have hlines : ("data:" ++ text).segments "\n" = [("data:" ++ text : PyStr)] :=
    segments_of_not_mem hnewline
  have hjoin : PyStr.join "\n" [text] = text := rfl
  have hne : ("data:" ++ text : PyStr).length ≠ 0 := Nat.succ_ne_zero _
  have hblock : [("data:" ++ text : PyStr)].foldlM blockLine {} = .ok ⟨none, [text]⟩ := by
    rw [List.foldlM_cons, hline]
    rfl
  rw [blockBy, if_neg hne, hlines, hblock, ok_bind, if_neg (List.cons_ne_nil _ _)]
  simp only [hjoin, hdecode]
  rfl

/-- The block of an event of the sample. -/
def sampleFrame (kind : PyStr) (digit n : Nat) (hkind : IsPlain kind.codePoints)
    (hdigit : (digit, n) ∈ [(48, 0), (49, 1), (50, 2)])
    (hnewline : 10 ∉ ("data:" ++ sampleText kind digit).codePoints) :
    Frame (eventJson streamRuntime none) where
  lines := [.data (sampleText kind digit)]
  text := "data:" ++ sampleText kind digit
  content := some (sampleEvent kind n)
  isBlock := by
    refine ⟨["data:" ++ sampleText kind digit], .cons ⟨_, rfl, .inr ⟨rfl, rfl⟩⟩ .nil, ?_, rfl⟩
    intro s hs
    rw [List.mem_singleton.mp hs]
    exact hnewline
  carries := ⟨List.cons_ne_nil _ _, strictLoads_sampleText hkind hdigit, .inl rfl⟩

def createdTwice : List (Frame (eventJson streamRuntime none)) :=
  [sampleFrame "response.created" 48 0 (by decide) (by decide) (by decide),
    sampleFrame "response.created" 49 1 (by decide) (by decide) (by decide),
    sampleFrame "response.completed" 50 2 (by decide) (by decide) (by decide)]

def createdTwicePayload : Bytes := (⟨streamText createdTwice⟩ : PyStr).octets

theorem isEvent_sampleEvent {kind : PyStr} {number : Nat} (hkind : kind.startsWith "response." = true)
    (hlive : kind ∉ ([("response.failed" : String), "response.incomplete", "response.cancelled"] :
      List PyStr)) : IsEvent (sampleEvent kind number) kind number :=
  ⟨rfl, rfl, hkind, rfl, hlive⟩

theorem isAbout_sampleEvent (kind : PyStr) (number : Nat) :
    IsAbout "r" (sampleEvent kind number) := by
  intro response hresponse
  have hdict : some (Value.dict [("id", .str "r")]) = some response := hresponse
  cases hdict
  exact ⟨rfl, rfl⟩

set_option maxRecDepth 4000 in
theorem ascii_createdTwice : ∀ c ∈ streamText createdTwice, c < 128 ∧ c ≠ 13 := by decide

set_option maxRecDepth 4000 in
theorem endsWith_createdTwice :
    (⟨streamText createdTwice⟩ : PyStr).endsWith "\n\n" = true := by decide

set_option maxRecDepth 4000 in
theorem bounded_createdTwice : 0 < createdTwicePayload.length ∧
    createdTwicePayload.length ≤ maxResponseBytes := by decide

theorem utf8Decode_createdTwice :
    utf8Decode createdTwicePayload = some (streamText createdTwice) := by
  have htext : (⟨streamText createdTwice⟩ : PyStr).IsText := by
    intro c hc
    have := (ascii_createdTwice c hc).1
    omega
  have hencode : (⟨streamText createdTwice⟩ : PyStr).utf8Encode = some createdTwicePayload := by
    refine PyStr.utf8Encode_eq_some.mpr ⟨?_, rfl⟩
    intro c hc
    have hlow := (ascii_createdTwice c hc).1
    rw [utf8EncodePoint, if_pos (by omega)]
    rfl
  exact utf8Decode_utf8Encode htext hencode

theorem lineEnds_createdTwice :
    LineEnds (streamText createdTwice) (streamText createdTwice) := by
  have hreturn : ∀ text : List Nat, 13 ∉ text → LineEnds text text := by
    intro text h
    induction text with
    | nil => exact .nil
    | cons c text ih =>
      rw [List.mem_cons, not_or] at h
      by_cases hc : c = 10
      · subst hc
        exact .lf (ih h.2)
      · exact .other ⟨hc, fun heq => h.1 heq.symm⟩ (ih h.2)
  exact hreturn _ fun h => (ascii_createdTwice 13 h).2 rfl

end Supplementary.Gateway
