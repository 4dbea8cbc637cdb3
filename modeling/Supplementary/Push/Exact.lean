/-
# The scanner is exact

The machine holds the graphs of all patterns side by side.  At each position of the text the states a
step works with are those that a run from any earlier start can be in (`Visits`): the ones the last
character led to, the first states, and what the edges that read nothing add to them.  A run reaches
the last state of a pattern just when the pattern matches somewhere, because the parts are disjoint
and each links its first state to its last by what it matches.

Cutting the text into chunks changes nothing, since a scanner is fed character by character.
-/
import Supplementary.Push.Fragments
import Mathlib.Data.List.Perm.Subperm
import Mathlib.Data.List.Dedup

namespace Supplementary.Push

open Supplementary Thompson

variable {re : Engine} {text : List Nat}

/-! ## 1. The patterns side by side -/

/-- A pattern in the graph: its states are those from `first` below `bound`. -/
structure Place where
  pattern : Pattern
  first : Nat
  last : Nat
  bound : Nat

variable (re text) in
/-- What a pattern does in the graph it is part of, for a target that is none of its inner
states. -/
structure Place.Stands (p : Place) (g : Graph) : Prop where
  within : p.first ≤ p.last ∧ p.last < p.bound
  unused : out g p.last = []
  links : ∀ target, (∀ s, p.first ≤ s → s < p.bound → s ≠ p.last → s ≠ target) →
    Links (Move re text g) target [p.first] p.last
      (SeqMatches re text p.pattern.flags p.pattern.tokens)

/-- The machine after the patterns from `number` on. -/
structure Adds (number : Nat) (patterns : List Pattern) (machine machine' : Machine)
    (places : List Place) : Prop where
  patterns : places.map Place.pattern = patterns
  starts : machine'.starts = machine.starts ++ places.map Place.first
  grows : machine.edges.length ≤ machine'.edges.length
  frame : ∀ s < machine.edges.length,
    out machine'.edges s = out machine.edges s ∧ machine'.mask s = machine.mask s
  mask : ∀ (i : Nat) p, places[i]? = some p → machine'.mask p.last = 1 <<< (number + i)
  apart : places.Pairwise fun p q => p.bound ≤ q.first
  above : ∀ p ∈ places, machine.edges.length ≤ p.first ∧ p.bound ≤ machine'.edges.length
  others : ∀ s, machine'.mask s ≠ 0 → machine.mask s ≠ 0 ∨ ∃ p ∈ places, s = p.last

theorem mask_cons {machine : Machine} {g : Graph} {starts : List Nat} {l m s : Nat} :
    (Machine.mk g starts ((l, m) :: machine.accepts)).mask s =
      if s = l then m else machine.mask s := by
  simp only [Machine.mask, List.lookup_cons]
  by_cases h : s = l
  · simp [h]
  · have : (s == l) = false := by simpa using h
    simp [this, h]

theorem addPatterns_spec (re : Engine) (text : List Nat) (number : Nat) (patterns : List Pattern) (machine : Machine) :
    ∃ places, Adds number patterns machine (addPatterns number patterns machine) places ∧
      ∀ p ∈ places, p.Stands re text (addPatterns number patterns machine).edges := by
  induction patterns generalizing number machine with
  | nil =>
    refine ⟨[], ⟨rfl, by simp [addPatterns], le_rfl, fun s _ => ⟨rfl, rfl⟩, fun i p h => by simp at h,
      .nil, fun p h => (by cases h), fun s h => Or.inl h⟩, fun p h => by cases h⟩
  | cons pattern patterns ih =>
    have hbuild := builds_of_extends re text
      (buildTokens_extends pattern.flags pattern.tokens)
    have hlast := hbuild.last_new machine.edges
    have hgrows := hbuild.grows machine.edges
    have hfirst := (hbuild machine.edges).1
    have hunused := (hbuild machine.edges).2.unused
    have hframe := fun s hs => hbuild.frame (g := machine.edges) (s := s) hs
    have hlinks := hbuild.links machine.edges
    rw [addPatterns]
    generalize build pattern.flags pattern.tokens machine.edges = b at *
    obtain ⟨places, hadds, hstands⟩ := ih (number + 1)
      ⟨b.graph, machine.starts ++ [b.first], (b.last, 1 <<< number) :: machine.accepts⟩
    generalize addPatterns (number + 1) patterns
      ⟨b.graph, machine.starts ++ [b.first], (b.last, 1 <<< number) :: machine.accepts⟩ = final at *
    have hgrows' : b.graph.length ≤ final.edges.length := hadds.grows
    have hkeep : ∀ s < b.graph.length, out final.edges s = out b.graph s ∧
        final.mask s = if s = b.last then 1 <<< number else machine.mask s := by
      intro s hs
      obtain ⟨hout, hmask⟩ := hadds.frame s hs
      exact ⟨hout, by rw [hmask, mask_cons]⟩
    refine ⟨⟨pattern, b.first, b.last, b.graph.length⟩ :: places, ⟨?_, ?_, ?_, ?_, ?_, ?_, ?_, ?_⟩, ?_⟩
    · rw [List.map_cons, hadds.patterns]
    · rw [hadds.starts, List.map_cons, List.append_assoc]
      rfl
    · omega
    · intro s hs
      obtain ⟨hout, hmask⟩ := hkeep s (by omega)
      rw [hout, hmask, if_neg (by omega)]
      exact ⟨hframe s hs, rfl⟩
    · intro i p hi
      cases i with
      | zero =>
        obtain rfl := Option.some.inj hi
        rw [(hkeep b.last hlast.2).2, if_pos rfl, Nat.add_zero]
      | succ i =>
        rw [hadds.mask i p hi]
        congr 1
        omega
    · rw [List.pairwise_cons]
      exact ⟨fun p hp => (hadds.above p hp).1, hadds.apart⟩
    · intro p hp
      rcases List.mem_cons.mp hp with rfl | hp
      · exact ⟨by simp only; omega, hgrows'⟩
      · have habove : b.graph.length ≤ p.first := (hadds.above p hp).1
        exact ⟨by omega, (hadds.above p hp).2⟩
    · intro s hs
      rcases hadds.others s hs with h | ⟨p, hp, rfl⟩
      · rw [mask_cons] at h
        split at h
        · next heq => exact Or.inr ⟨_, List.mem_cons_self, heq⟩
        · exact Or.inl h
      · exact Or.inr ⟨p, List.mem_cons_of_mem _ hp, rfl⟩
    · intro p hp
      rcases List.mem_cons.mp hp with rfl | hp
      · refine ⟨⟨by simp only; omega, hlast.2⟩, by rw [(hkeep b.last hlast.2).1, hunused], ?_⟩
        intro target htarget
        refine hlinks final.edges target fun s hs => ⟨(hkeep s hs.1.2).1, ?_⟩
        exact htarget s (by simp only; omega) hs.1.2 hs.2
      · exact hstands p hp

/-! ## 2. Runs of the whole machine -/

variable (re text) in
/-- A run can be in the state at the position. -/
def Live (machine : Machine) : Nat → Nat → Prop :=
  Visits (Move re text machine.edges) fun s i => s ∈ machine.starts ∧ i ≤ text.length

/-- Two places of a list that are the same or lie apart. -/
theorem Adds.apart_of_mem {number : Nat} {patterns : List Pattern} {machine machine' : Machine}
    {places : List Place} (h : Adds number patterns machine machine' places) {i j : Nat} {p q : Place}
    (hp : places[i]? = some p) (hq : places[j]? = some q) :
    i = j ∨ p.bound ≤ q.first ∨ q.bound ≤ p.first := by
  obtain ⟨hi, rfl⟩ := List.getElem?_eq_some_iff.mp hp
  obtain ⟨hj, rfl⟩ := List.getElem?_eq_some_iff.mp hq
  rcases Nat.lt_trichotomy i j with hlt | heq | hgt
  · exact Or.inr (Or.inl (List.pairwise_iff_getElem.mp h.apart i j hi hj hlt))
  · exact Or.inl heq
  · exact Or.inr (Or.inr (List.pairwise_iff_getElem.mp h.apart j i hj hi hgt))

/-- **The patterns.**  A bit of a mask belongs to the last state of one pattern, and a run gets
there just when that pattern matches somewhere. -/
theorem live_iff_matches (patterns : List Pattern) (q : Nat) :
    (∃ s i, Live re text (machineOf patterns) s i ∧
      ((machineOf patterns).mask s).testBit q = true) ↔
    ∃ pattern, patterns[q]? = some pattern ∧ ∃ i k, i ≤ text.length ∧
      SeqMatches re text pattern.flags pattern.tokens i k := by
  obtain ⟨places, hadds, hstands⟩ :=
    addPatterns_spec re text 0 patterns ⟨[], [], []⟩
  rw [show addPatterns 0 patterns ⟨[], [], []⟩ = machineOf patterns from rfl] at hadds hstands
  have hempty : ∀ s, (Machine.mk [] [] []).mask s = 0 := fun s => rfl
  have hmask : ∀ s, ((machineOf patterns).mask s).testBit q = true ↔
      ∃ p, places[q]? = some p ∧ s = p.last := by
    intro s
    constructor
    · intro hbit
      have hne : (machineOf patterns).mask s ≠ 0 := by
        intro hzero
        rw [hzero, Nat.zero_testBit] at hbit
        cases hbit
      rcases hadds.others s hne with h | ⟨p, hp, rfl⟩
      · exact absurd (hempty s) h
      · obtain ⟨i, hi⟩ := List.mem_iff_getElem?.mp hp
        rw [hadds.mask i p hi, Nat.zero_add, Nat.one_shiftLeft, Nat.testBit_two_pow] at hbit
        obtain rfl : i = q := by simpa using hbit
        exact ⟨p, hi, rfl⟩
    · rintro ⟨p, hp, rfl⟩
      rw [hadds.mask q p hp, Nat.zero_add, Nat.one_shiftLeft, Nat.testBit_two_pow]
      simp
  have hpattern : ∀ pattern, patterns[q]? = some pattern ↔
      ∃ p, places[q]? = some p ∧ p.pattern = pattern := by
    intro pattern
    rw [← hadds.patterns, List.getElem?_map, Option.map_eq_some_iff]
  have hlinks : ∀ (j : Nat) (p p' : Place), places[j]? = some p → places[q]? = some p' →
      Links (Move re text (machineOf patterns).edges) p'.last [p.first] p.last
        (SeqMatches re text p.pattern.flags p.pattern.tokens) := by
    intro j p p' hp hp'
    refine (hstands p (List.mem_of_getElem? hp)).links p'.last fun s hlow hhigh hne => ?_
    have hwithin := (hstands p' (List.mem_of_getElem? hp')).within
    rcases hadds.apart_of_mem hp hp' with rfl | hapart | hapart
    · rw [hp] at hp'
      cases hp'
      exact hne
    · omega
    · omega
  constructor
  · rintro ⟨s, i, hlive, hbit⟩
    obtain ⟨p, hp, rfl⟩ := (hmask s).mp hbit
    obtain ⟨s, a, ⟨hstart, ha⟩, n, hreach⟩ := visits_iff_reach.mp ⟨i, hlive⟩
    rw [hadds.starts, List.nil_append, List.mem_map] at hstart
    obtain ⟨p', hp', rfl⟩ := hstart
    obtain ⟨j, hj⟩ := List.mem_iff_getElem?.mp hp'
    obtain ⟨k, m, -, hmatch, hlast⟩ :=
      (hlinks j p' p hj hp).sound p'.first (List.mem_singleton_self _) n a hreach
    by_cases heq : p'.last = p.last
    · have hsame : p' = p := by
        have hwithin := (hstands p (List.mem_of_getElem? hp)).within
        have hwithin' := (hstands p' hp').within
        rcases hadds.apart_of_mem hj hp with rfl | hapart | hapart
        · rw [hj] at hp
          exact Option.some.inj hp
        · omega
        · omega
      subst hsame
      exact ⟨p'.pattern, (hpattern _).mpr ⟨p', hp, rfl⟩, a, k, ha, hmatch⟩
    · -- another pattern's run ends in its own last state
      obtain ⟨m', rfl, t, l, ⟨e, he, -⟩, -⟩ := hlast.move heq
      rw [(hstands p' hp').unused] at he
      cases he
  · rintro ⟨pattern, hq, a, k, ha, hmatch⟩
    obtain ⟨p, hp, rfl⟩ := (hpattern pattern).mp hq
    obtain ⟨s, hs, n, hreach⟩ := (hlinks q p p hp hp).complete a k 0 hmatch rfl
    rw [List.mem_singleton.mp hs] at hreach
    have hstart : p.first ∈ (machineOf patterns).starts := by
      rw [hadds.starts, List.nil_append]
      exact List.mem_map_of_mem (List.mem_of_getElem? hp)
    have hlive : ∃ i, Live re text (machineOf patterns) p.last i :=
      visits_iff_reach.mpr ⟨p.first, a, ⟨hstart, ha⟩, n, hreach⟩
    obtain ⟨i, hi⟩ := hlive
    exact ⟨p.last, i, hi, (hmask p.last).mpr ⟨p, hp, rfl⟩⟩

/-! ## 3. One step -/

theorem mem_flatten_of_out {g : Graph} {s : Nat} {e : Edge} (h : e ∈ out g s) : e ∈ g.flatten := by
  rw [out, List.getD_eq_getElem?_getD] at h
  cases hs : g[s]? with
  | none =>
    rw [hs] at h
    cases h
  | some edges =>
    rw [hs] at h
    exact List.mem_flatten.mpr ⟨edges, List.mem_of_getElem? hs, h⟩

/-- What the edges of one state add. -/
theorem visitEdges_spec (re : Engine) (c : Context) (edges : List Edge) (states pending : List Nat)
    (hnodup : states.Nodup) : ∃ new, visitEdges re c edges states pending =
      (new ++ states, new ++ pending) ∧ (new ++ states).Nodup ∧
      ∀ t, t ∈ new ++ states ↔ t ∈ states ∨ ∃ e ∈ edges, passed re c e.label = true ∧ e.target = t := by
  induction edges generalizing states pending with
  | nil => exact ⟨[], rfl, hnodup, fun t => by simp⟩
  | cons e edges ih =>
    rw [visitEdges]
    split
    · next h =>
      obtain ⟨new, heq, hnew, hmem⟩ := ih (e.target :: states) (e.target :: pending)
        (List.nodup_cons.mpr ⟨h.2, hnodup⟩)
      refine ⟨new ++ [e.target], by simp [heq], by simpa using hnew, fun t => ?_⟩
      rw [List.append_assoc, List.singleton_append, hmem, List.mem_cons, List.exists_mem_cons_iff]
      constructor
      · rintro ((rfl | ht) | ht)
        · exact Or.inr (Or.inl ⟨h.1, rfl⟩)
        · exact Or.inl ht
        · exact Or.inr (Or.inr ht)
      · rintro (ht | ⟨-, rfl⟩ | ht)
        · exact Or.inl (Or.inr ht)
        · exact Or.inl (Or.inl rfl)
        · exact Or.inr ht
    · next h =>
      obtain ⟨new, heq, hnew, hmem⟩ := ih states pending hnodup
      refine ⟨new, heq, hnew, fun t => ?_⟩
      rw [hmem, List.exists_mem_cons_iff]
      constructor
      · rintro (ht | ht)
        · exact Or.inl ht
        · exact Or.inr (Or.inr ht)
      · rintro (ht | ⟨hpass, rfl⟩ | ht)
        · exact Or.inl ht
        · exact Or.inl (not_not.mp fun hnot => h ⟨hpass, hnot⟩)
        · exact Or.inr ht

/-- What the rounds of `closure` keep: the states come from the seeds, and unless they are still
pending they lead to states only and their masks were taken. -/
structure Explored (re : Engine) (machine : Machine) (c : Context) (all seeds : List Nat)
    (pending states : List Nat) (matched : Nat) : Prop where
  nodup : states.Nodup
  within : states ⊆ all
  begun : seeds ⊆ states
  waiting : pending.Nodup ∧ pending ⊆ states
  closed : ∀ s ∈ states, s ∉ pending → ∀ e ∈ out machine.edges s, passed re c e.label = true →
    e.target ∈ states
  sound : ∀ P : Nat → Prop, (∀ s ∈ seeds, P s) → (∀ s, P s → ∀ e ∈ out machine.edges s,
    passed re c e.label = true → P e.target) → ∀ s ∈ states, P s
  mask : ∀ q, matched.testBit q = true ↔
    ∃ s ∈ states, s ∉ pending ∧ (machine.mask s).testBit q = true

section Closure

variable {machine : Machine} {c : Context} {all seeds pending states : List Nat} {matched : Nat}

/-- One round. -/
theorem Explored.visit {current : Nat} (hall : ∀ e ∈ machine.edges.flatten, e.target ∈ all)
    (h : Explored re machine c all seeds (current :: pending) states matched) : ∃ new,
    visitEdges re c (out machine.edges current) states pending = (new ++ states, new ++ pending) ∧
    Explored re machine c all seeds (new ++ pending) (new ++ states)
      (matched ||| machine.mask current) := by
  obtain ⟨new, heq, hnodup, hmem⟩ :=
    visitEdges_spec re c (out machine.edges current) states pending h.nodup
  obtain ⟨hdistinct, hsub⟩ := h.waiting
  obtain ⟨hfresh, hdistinct⟩ := List.nodup_cons.mp hdistinct
  have hcurrent : current ∈ states := hsub List.mem_cons_self
  obtain ⟨hnew, -, hdisjoint⟩ := List.nodup_append.mp hnodup
  have hnot : ∀ s ∈ states, s ∉ new := fun s hs hs' => hdisjoint s hs' s hs rfl
  refine ⟨new, heq, hnodup, ?_, ?_, ⟨?_, ?_⟩, ?_, ?_, ?_⟩
  · intro t ht
    rcases (hmem t).mp ht with ht | ⟨e, he, -, rfl⟩
    · exact h.within ht
    · exact hall e (mem_flatten_of_out he)
  · exact fun s hs => List.mem_append_right _ (h.begun hs)
  · refine List.nodup_append.mpr ⟨hnew, hdistinct, fun s hs t ht heq => ?_⟩
    exact hnot t (hsub (List.mem_cons_of_mem _ ht)) (heq ▸ hs)
  · intro s hs
    rcases List.mem_append.mp hs with hs | hs
    · exact List.mem_append_left _ hs
    · exact List.mem_append_right _ (hsub (List.mem_cons_of_mem _ hs))
  · intro s hs hpending e he hpass
    have hold : s ∈ states := by
      rcases List.mem_append.mp hs with hs | hs
      · exact absurd (List.mem_append_left _ hs) hpending
      · exact hs
    by_cases hs' : s = current
    · exact (hmem e.target).mpr (Or.inr ⟨e, hs' ▸ he, hpass, rfl⟩)
    · refine List.mem_append_right _ (h.closed s hold (fun hin => ?_) e he hpass)
      rcases List.mem_cons.mp hin with rfl | hin
      · exact hs' rfl
      · exact hpending (List.mem_append_right _ hin)
  · intro P hseeds hstep s hs
    rcases (hmem s).mp hs with hs | ⟨e, he, hpass, rfl⟩
    · exact h.sound P hseeds hstep s hs
    · exact hstep current (h.sound P hseeds hstep current hcurrent) e he hpass
  · intro q
    rw [Nat.testBit_or, Bool.or_eq_true, h.mask]
    constructor
    · rintro (⟨s, hs, hpending, hbit⟩ | hbit)
      · refine ⟨s, List.mem_append_right _ hs, fun hin => ?_, hbit⟩
        rcases List.mem_append.mp hin with hin | hin
        · exact hnot s hs hin
        · exact hpending (List.mem_cons_of_mem _ hin)
      · refine ⟨current, List.mem_append_right _ hcurrent, fun hin => ?_, hbit⟩
        rcases List.mem_append.mp hin with hin | hin
        · exact hnot current hcurrent hin
        · exact hfresh hin
    · rintro ⟨s, hs, hpending, hbit⟩
      by_cases hs' : s = current
      · exact Or.inr (hs' ▸ hbit)
      · refine Or.inl ⟨s, ?_, fun hin => ?_, hbit⟩
        · rcases List.mem_append.mp hs with hs | hs
          · exact absurd (List.mem_append_left _ hs) hpending
          · exact hs
        · rcases List.mem_cons.mp hin with rfl | hin
          · exact hs' rfl
          · exact hpending (List.mem_append_right _ hin)

/-- **The closure.**  Each round takes one state off the pending ones, and a state gets there
once. -/
theorem closure_explored (hall : ∀ e ∈ machine.edges.flatten, e.target ∈ all) (rounds : Nat)
    (h : Explored re machine c all seeds pending states matched)
    (hrounds : pending.length + all.length ≤ rounds + states.length) :
    Explored re machine c all seeds [] (closure re machine c rounds pending states matched).1
      (closure re machine c rounds pending states matched).2 := by
  induction rounds generalizing pending states matched with
  | zero =>
    have hlen : states.length ≤ all.length := (List.subperm_of_subset h.nodup h.within).length_le
    obtain rfl : pending = [] := List.eq_nil_of_length_eq_zero (by omega)
    exact h
  | succ rounds ih =>
    cases pending with
    | nil => exact h
    | cons current pending =>
      obtain ⟨new, heq, hvisit⟩ := h.visit hall
      rw [closure, heq]
      refine ih hvisit ?_
      simp only [List.length_append, List.length_cons] at hrounds ⊢
      omega

end Closure

/-! ## 4. The states at a position -/

section Scan

variable {machine : Machine}

variable (re text machine) in
/-- A character led to the state at the position. -/
def Arrives (t p : Nat) : Prop := ∃ s i, Live re text machine s i ∧ p = i + 1 ∧
  ∃ e ∈ out machine.edges s, e.target = t ∧ ∃ pattern flags, e.label = .char pattern flags ∧
    (text[i]?).any (re.fullmatch pattern flags) = true

theorem passes_of_passed {label : Label} {p : Nat}
    (h : passed re (contextAt text p) label = true) : Passes re text label p p := by
  cases label with
  | char pattern flags => cases h
  | epsilon => rfl
  | assert code flags => exact ⟨h, rfl⟩

/-- An edge reads a character or stays. -/
theorem passes_cases {label : Label} {i k : Nat} (h : Passes re text label i k) :
    (∃ pattern flags, label = .char pattern flags ∧
      (text[i]?).any (re.fullmatch pattern flags) = true ∧ k = i + 1) ∨
    passed re (contextAt text i) label = true ∧ k = i := by
  cases label with
  | char pattern flags => exact Or.inl ⟨pattern, flags, rfl, h⟩
  | epsilon => exact Or.inr ⟨rfl, h⟩
  | assert code flags => exact Or.inr h

/-- No run leaves the text. -/
theorem Live.le {s i : Nat} (h : Live re text machine s i) : i ≤ text.length := by
  induction h with
  | start h => exact h.2
  | @move s i t j _ hstep ih =>
    obtain ⟨e, -, -, hpass⟩ := hstep
    rcases passes_cases hpass with ⟨pattern, flags, -, hchar, rfl⟩ | ⟨-, rfl⟩
    · have hlt : i < text.length := by
        by_contra hge
        rw [List.getElem?_eq_none (by omega)] at hchar
        cases hchar
      omega
    · exact ih

/-- The states a step works with are those a run can be in. -/
theorem mem_closure_iff (re : Engine) {active : List Nat} {p : Nat} (hp : p ≤ text.length)
    (hactive : ∀ t, t ∈ active ↔ Arrives re text machine t p) :
    let states := (active ++ machine.starts).dedup
    let result := closure re machine (contextAt text p)
      (states.length + machine.edges.flatten.length) states states 0
    (∀ s, s ∈ result.1 ↔ Live re text machine s p) ∧
    ∀ q, result.2.testBit q = true ↔
      ∃ s, Live re text machine s p ∧ (machine.mask s).testBit q = true := by
  intro states result
  have hmem : ∀ s, s ∈ states ↔ Arrives re text machine s p ∨ s ∈ machine.starts := by
    intro s
    rw [List.mem_dedup, List.mem_append, hactive]
  have hstart : Explored re machine (contextAt text p)
      (states ++ machine.edges.flatten.map Edge.target) states states states 0 := by
    refine ⟨List.nodup_dedup _, List.subset_append_left _ _, List.Subset.refl _,
      ⟨List.nodup_dedup _, List.Subset.refl _⟩, fun s hs hs' => absurd hs hs',
      fun P hseeds _ => hseeds, fun q => ?_⟩
    rw [Nat.zero_testBit]
    refine ⟨fun h => (by cases h), ?_⟩
    rintro ⟨s, hs, hs', -⟩
    exact absurd hs hs'
  have hfinal := closure_explored (fun e he => List.mem_append_right _ (List.mem_map_of_mem he))
    (states.length + machine.edges.flatten.length) hstart
    (by rw [List.length_append, List.length_map]; omega)
  change Explored re machine (contextAt text p) _ states [] result.1 result.2 at hfinal
  have hlive : ∀ s, s ∈ result.1 ↔ Live re text machine s p := by
    intro s
    constructor
    · refine hfinal.sound (Live re text machine · p) (fun t ht => ?_) (fun t ht e he hpass => ?_) s
      · rcases (hmem t).mp ht with ⟨r, i, hr, rfl, e, he, rfl, pattern, flags, hlabel, hchar⟩ | ht
        · exact .move hr ⟨e, he, rfl, by rw [hlabel]; exact ⟨hchar, rfl⟩⟩
        · exact .start ⟨ht, hp⟩
      · exact .move ht ⟨e, he, rfl, passes_of_passed hpass⟩
    · intro h
      have hall : ∀ s i, Live re text machine s i → i = p → s ∈ result.1 := by
        intro s i h
        induction h with
        | start h => exact fun _ => hfinal.begun ((hmem _).mpr (Or.inr h.1))
        | @move s i t j hs hstep ih =>
          rintro rfl
          obtain ⟨e, he, rfl, hpass⟩ := hstep
          rcases passes_cases hpass with ⟨pattern, flags, hlabel, hchar, rfl⟩ | ⟨hpass, rfl⟩
          · exact hfinal.begun ((hmem _).mpr (Or.inl ⟨s, i, hs, rfl, e, he, rfl, pattern, flags,
              hlabel, hchar⟩))
          · exact hfinal.closed s (ih rfl) List.not_mem_nil e he hpass
      exact hall s p h rfl
  refine ⟨hlive, fun q => ?_⟩
  rw [hfinal.mask]
  constructor
  · rintro ⟨s, hs, -, hbit⟩
    exact ⟨s, (hlive s).mp hs, hbit⟩
  · rintro ⟨s, hs, hbit⟩
    exact ⟨s, (hlive s).mpr hs, List.not_mem_nil, hbit⟩

theorem mem_following_iff {states : List Nat} {p character : Nat}
    (hchar : text[p]? = some character) (hstates : ∀ s, s ∈ states ↔ Live re text machine s p)
    (t : Nat) : t ∈ following re machine states character ↔ Arrives re text machine t (p + 1) := by
  rw [following, List.mem_dedup, List.mem_flatMap]
  constructor
  · rintro ⟨s, hs, ht⟩
    obtain ⟨e, he, hlabel⟩ := List.mem_filterMap.mp ht
    split at hlabel
    · next pattern flags heq =>
      split at hlabel
      · next hmatch =>
        cases hlabel
        exact ⟨s, p, (hstates s).mp hs, rfl, e, he, rfl, pattern, flags, heq,
          by rw [hchar]; exact hmatch⟩
      · cases hlabel
    · cases hlabel
  · rintro ⟨s, i, hs, hi, e, he, rfl, pattern, flags, hlabel, hmatch⟩
    obtain rfl : p = i := by omega
    refine ⟨s, (hstates s).mpr hs, List.mem_filterMap.mpr ⟨e, he, ?_⟩⟩
    rw [hchar] at hmatch
    rw [Option.any_some] at hmatch
    simp only [hlabel]
    rw [if_pos hmatch]

/-! ## 5. The scanner -/

variable (re text machine) in
/-- A scanner that was fed the text up to a position. -/
structure Scanned (p : Nat) (s : Scanner) : Prop where
  inside : p ≤ text.length
  previous : s.previous = (contextAt text p).previous
  beginning : s.beginning = (contextAt text p).beginning
  active : ∀ t, t ∈ s.active ↔ Arrives re text machine t p
  matched : ∀ q, s.matched.testBit q = true ↔
    ∃ i < p, ∃ r, Live re text machine r i ∧ (machine.mask r).testBit q = true

theorem scanned_start (re : Engine) (text : List Nat) (machine : Machine) :
    Scanned re text machine 0 {} := by
  refine ⟨Nat.zero_le _, rfl, rfl, fun t => ⟨fun h => (by cases h), ?_⟩, fun q => ?_⟩
  · rintro ⟨s, i, -, hi, -⟩
    omega
  · rw [show ({} : Scanner).matched = 0 from rfl, Nat.zero_testBit]
    refine ⟨fun h => (by cases h), ?_⟩
    rintro ⟨i, hi, -⟩
    omega

/-- The bits after a position and those at it. -/
theorem Scanned.or {p : Nat} {s : Scanner} (h : Scanned re text machine p s) {m : Nat}
    (hm : ∀ q, m.testBit q = true ↔
      ∃ r, Live re text machine r p ∧ (machine.mask r).testBit q = true) (q : Nat) :
    (s.matched ||| m).testBit q = true ↔
      ∃ i < p + 1, ∃ r, Live re text machine r i ∧ (machine.mask r).testBit q = true := by
  rw [Nat.testBit_or, Bool.or_eq_true, h.matched, hm]
  constructor
  · rintro (⟨i, hi, hr⟩ | hr)
    · exact ⟨i, by omega, hr⟩
    · exact ⟨p, by omega, hr⟩
  · rintro ⟨i, hi, hr⟩
    rcases Nat.lt_or_ge i p with hlt | hge
    · exact Or.inl ⟨i, hlt, hr⟩
    · obtain rfl : i = p := by omega
      exact Or.inr hr

/-- One character. -/
theorem Scanned.feedOne {p character : Nat} {s : Scanner} (h : Scanned re text machine p s)
    (hchar : text[p]? = some character) :
    Scanned re text machine (p + 1) (s.feedOne re machine character) := by
  have hcontext : Context.mk s.previous (some character) s.beginning = contextAt text p := by
    rw [h.previous, h.beginning, ← hchar]
    rfl
  obtain ⟨hstates, hmask⟩ := mem_closure_iff re h.inside h.active
  have hlt := (List.getElem?_eq_some_iff.mp hchar).1
  refine ⟨by omega, ?_, rfl, fun t => ?_, fun q => ?_⟩
  · simp [Scanner.feedOne, contextAt, hchar]
  · rw [← mem_following_iff hchar hstates t]
    simp only [Scanner.feedOne, step, hcontext, contextAt, hchar]
  · rw [← h.or hmask q]
    simp only [Scanner.feedOne, step, hcontext]

theorem Scanned.feed {p : Nat} {s : Scanner} {rest : List Nat} (h : Scanned re text machine p s)
    (hrest : text.drop p = rest) :
    Scanned re text machine text.length (s.feed re machine rest) := by
  induction rest generalizing p s with
  | nil =>
    have hlen : text.length ≤ p := List.drop_eq_nil_iff.mp hrest
    obtain rfl : p = text.length := Nat.le_antisymm h.inside hlen
    exact h
  | cons character rest ih =>
    have hchar : text[p]? = some character := by
      rw [← List.head?_drop, hrest]
      rfl
    refine ih (h.feedOne hchar) ?_
    rw [← List.drop_drop, hrest]
    rfl

theorem feed_chunks (chunks : List (List Nat)) (s : Scanner) :
    chunks.foldl (Scanner.feed re machine) s = s.feed re machine chunks.flatten := by
  rw [Scanner.feed, List.foldl_flatten]
  rfl

end Scan

/-- **The scanner is exact.**  However the text is cut into chunks, the bit of a pattern is set just
when the pattern matches some part of the whole text, seen in the whole text. -/
theorem scan_exact (re : Engine) (patterns : List Pattern) (chunks : List (List Nat)) (number : Nat) :
    (scanChunks re (machineOf patterns) chunks).testBit number = true ↔
      ∃ pattern, patterns[number]? = some pattern ∧ ∃ i k, i ≤ chunks.flatten.length ∧
        SeqMatches re chunks.flatten pattern.flags pattern.tokens i k := by
  rw [← live_iff_matches]
  have hscanned := (scanned_start re chunks.flatten (machineOf patterns)).feed (List.drop_zero)
  obtain ⟨-, hmask⟩ := mem_closure_iff re le_rfl hscanned.active
  have hend : chunks.flatten[chunks.flatten.length]? = none := List.getElem?_eq_none le_rfl
  have hbits := hscanned.or hmask number
  rw [scanChunks, feed_chunks]
  generalize Scanner.feed re (machineOf patterns) {} chunks.flatten = s at *
  have hcontext : Context.mk s.previous none s.beginning =
      contextAt chunks.flatten chunks.flatten.length := by
    rw [hscanned.previous, hscanned.beginning, ← hend]
    rfl
  rw [Scanner.finish, step, hcontext]
  refine hbits.trans ⟨?_, ?_⟩
  · rintro ⟨i, -, r, hlive, hbit⟩
    exact ⟨r, i, hlive, hbit⟩
  · rintro ⟨r, i, hlive, hbit⟩
    exact ⟨i, Nat.lt_succ_of_le hlive.le, r, hlive, hbit⟩

end Supplementary.Push
