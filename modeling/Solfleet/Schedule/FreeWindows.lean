import Mathlib.Data.List.Chain
import Solfleet.Library.Intervals
import Solfleet.Schedule.LeaderFree

/-! # The free windows are the maximal ones

The grouping splits the slots into maximal runs of consecutive slots, and the gaps between
those are the maximal intervals without a slot.
-/

namespace Solfleet

open Intervals

/-! ## Runs -/

/-- Each slot of the run follows the one before. -/
def LeaderRun.Consecutive (run : LeaderRun) : Prop := run.slots.IsChain fun x y => y = x + 1

/-- No run goes on where the one before it ends. -/
def Apart (runs : List LeaderRun) : Prop := runs.IsChain fun run next => next.first ≠ run.last + 1

/-- The runs are the slots in order, cut exactly where two neighbours are not consecutive. -/
structure MaximalRuns (slots : List Int) (runs : List LeaderRun) : Prop where
  slots : runSlots runs = slots
  consecutive : ∀ run ∈ runs, run.Consecutive
  apart : Apart runs

theorem LeaderRun.Consecutive.append {run : LeaderRun} (h : run.Consecutive) {s : Int}
    (hs : s = run.last + 1) : (run.append s).Consecutive := by
  refine List.IsChain.append h (List.isChain_singleton s) fun x hx y hy => ?_
  have hlast : run.slots.getLast? = some run.last :=
    List.getLast?_eq_some_getLast (List.cons_ne_nil _ _)
  rw [hlast] at hx
  cases hx
  cases hy
  exact hs

theorem LeaderRun.Consecutive.first_le_last {run : LeaderRun} (h : run.Consecutive) :
    run.first ≤ run.last := by
  refine run.le_last ?_ run.first_mem
  have hsteps : run.slots.IsChain (· ≤ ·) := h.imp fun x y hxy => by omega
  exact List.isChain_iff_pairwise.mp hsteps

theorem LeaderRun.Consecutive.mem_iff {run : LeaderRun} (h : run.Consecutive) (s : Int) :
    s ∈ run.slots ↔ run.first ≤ s ∧ s ≤ run.last := by
  obtain ⟨first, others⟩ := run
  induction others generalizing first with
  | nil =>
      show s ∈ [first] ↔ first ≤ s ∧ s ≤ first
      rw [List.mem_singleton]
      omega
  | cons next others ih =>
      have hsteps := List.isChain_cons_cons.mp h
      have hnext : next = first + 1 := hsteps.1
      have hrest : LeaderRun.Consecutive ⟨next, others⟩ := hsteps.2
      have hle : next ≤ LeaderRun.last ⟨next, others⟩ := hrest.first_le_last
      have hlast : LeaderRun.last ⟨first, next :: others⟩ = LeaderRun.last ⟨next, others⟩ := rfl
      have hcons : s ∈ LeaderRun.slots ⟨first, next :: others⟩ ↔
          s = first ∨ s ∈ LeaderRun.slots ⟨next, others⟩ := List.mem_cons
      rw [hcons, ih next hrest, hlast]
      dsimp only
      omega

theorem addSlot_cases (runs : List LeaderRun) (s : Int) :
    (runs = [] ∧ addSlot runs s = [{ first := s }]) ∨
      ∃ before run, runs = before ++ [run] ∧
        ((s = run.last + 1 ∧ addSlot runs s = before ++ [run.append s]) ∨
          (s ≠ run.last + 1 ∧ addSlot runs s = (before ++ [run]) ++ [{ first := s }])) := by
  unfold addSlot
  cases hlast : runs.getLast? with
  | none => exact .inl ⟨List.getLast?_eq_none_iff.mp hlast, rfl⟩
  | some run =>
      have hruns : runs = runs.dropLast ++ [run] := (List.dropLast_append_getLast? run hlast).symm
      refine .inr ⟨runs.dropLast, run, hruns, ?_⟩
      dsimp only
      by_cases hjoins : s = run.last + 1
      · exact .inl ⟨hjoins, if_pos hjoins⟩
      · rw [← hruns]
        exact .inr ⟨hjoins, if_neg hjoins⟩

theorem MaximalRuns.addSlot {slots : List Int} {runs : List LeaderRun}
    (h : MaximalRuns slots runs) (s : Int) : MaximalRuns (slots ++ [s]) (addSlot runs s) := by
  obtain ⟨hslots, hconsecutive, hapart⟩ := h
  have hsingle : LeaderRun.Consecutive { first := s } := List.isChain_singleton s
  have hall : runSlots (Solfleet.addSlot runs s) = slots ++ [s] := by
    rw [runSlots_addSlot, hslots]
  rcases addSlot_cases runs s with ⟨rfl, hadd⟩ | ⟨before, run, rfl, ⟨hs, hadd⟩ | ⟨hs, hadd⟩⟩
  · refine ⟨hall, ?_, ?_⟩
    · rw [hadd]
      exact fun run hrun => List.mem_singleton.mp hrun ▸ hsingle
    · rw [hadd]
      exact List.isChain_singleton _
  · have hrun := hconsecutive run (List.mem_append_right _ List.mem_cons_self)
    refine ⟨hall, ?_, ?_⟩
    · rw [hadd]
      intro other hother
      rcases List.mem_append.mp hother with hother | hother
      · exact hconsecutive other (List.mem_append_left _ hother)
      · rw [List.mem_singleton.mp hother]
        exact hrun.append hs
    · -- the joined run starts where it did
      rw [hadd]
      refine List.IsChain.append (List.IsChain.left_of_append hapart) (List.isChain_singleton _) ?_
      intro x hx y hy
      cases hy
      exact (List.isChain_append.mp hapart).2.2 x hx run rfl
  · refine ⟨hall, ?_, ?_⟩
    · rw [hadd]
      intro other hother
      rcases List.mem_append.mp hother with hother | hother
      · exact hconsecutive other hother
      · exact List.mem_singleton.mp hother ▸ hsingle
    · rw [hadd]
      refine List.IsChain.append hapart (List.isChain_singleton _) ?_
      intro x hx y hy
      cases hy
      rw [List.getLast?_concat] at hx
      cases hx
      exact hs

theorem maximalRuns_leaderRuns (slots : List Int) : MaximalRuns slots (leaderRuns slots) := by
  induction slots using List.reverseRecOn with
  | nil => exact ⟨rfl, fun run hrun => absurd hrun List.not_mem_nil, List.isChain_nil⟩
  | append_singleton slots s ih =>
      have hfold : leaderRuns (slots ++ [s]) = addSlot (leaderRuns slots) s := by
        rw [leaderRuns, List.foldl_append]
        rfl
      rw [hfold]
      exact ih.addSlot s

/-! ## Gaps -/

/-- The loop of the gaps stands at `cursor`: every slot of the runs that are left is past it
and before the end of the epoch. -/
structure RunsAhead (epochEnd cursor : Int) (runs : List LeaderRun) : Prop where
  consecutive : ∀ run ∈ runs, run.Consecutive
  apart : Apart runs
  sorted : (runSlots runs).Pairwise (· < ·)
  low : ∀ s ∈ runSlots runs, cursor < s
  high : ∀ s ∈ runSlots runs, s < epochEnd

section Gaps

variable {epochEnd cursor : Int} {run : LeaderRun} {runs : List LeaderRun}

theorem runSlots_cons (run : LeaderRun) (runs : List LeaderRun) :
    runSlots (run :: runs) = run.slots ++ runSlots runs := List.flatMap_cons ..

theorem RunsAhead.past (h : RunsAhead epochEnd cursor (run :: runs)) :
    ∀ s ∈ runSlots runs, run.last + 1 < s := by
  intro s hs
  have hsorted := h.sorted
  rw [runSlots_cons, List.pairwise_append] at hsorted
  cases runs with
  | nil => cases hs
  | cons next runs =>
      have hnext : next.first ≠ run.last + 1 := (List.isChain_cons_cons.mp h.apart).1
      have hfirst : run.last < next.first :=
        hsorted.2.2 _ run.last_mem _ (List.mem_append_left _ next.first_mem)
      have hslots : runSlots (next :: runs) = next.first :: (next.others ++ runSlots runs) := rfl
      have hlater := hsorted.2.1
      rw [hslots] at hs hlater
      rcases List.mem_cons.mp hs with rfl | hs
      · omega
      · have := (List.pairwise_cons.mp hlater).1 s hs
        omega

theorem RunsAhead.tail (h : RunsAhead epochEnd cursor (run :: runs)) :
    RunsAhead epochEnd (run.last + 1) runs := by
  have hsorted := h.sorted
  rw [runSlots_cons, List.pairwise_append] at hsorted
  refine ⟨fun other hother => h.consecutive other (List.mem_cons_of_mem _ hother), h.apart.tail,
    hsorted.2.1, h.past, fun s hs => h.high s ?_⟩
  rw [runSlots_cons]
  exact List.mem_append_right _ hs

theorem mem_gaps_iff {a b : Int} (h : RunsAhead epochEnd cursor runs) :
    (a, b) ∈ gaps epochEnd cursor runs ↔
      Maximal cursor epochEnd {s | s ∈ runSlots runs} a b := by
  induction runs generalizing cursor with
  | nil =>
      have hnone : {s | s ∈ runSlots []} = (∅ : Set Int) := Set.eq_empty_of_forall_notMem
        fun s hs => absurd hs List.not_mem_nil
      rw [hnone, maximal_empty, gaps]
      by_cases hroom : 0 < epochEnd - cursor
      · rw [if_pos hroom, List.mem_singleton, Prod.mk.injEq]
        omega
      · rw [if_neg hroom]
        constructor
        · intro hmem
          cases hmem
        · omega
  | cons run runs ih =>
      have hrun := h.consecutive run List.mem_cons_self
      have hmem : ∀ s ∈ run.slots, s ∈ runSlots (run :: runs) := fun s hs =>
        List.mem_append_left _ hs
      have hfirst := h.low _ (hmem _ run.first_mem)
      have hlast := h.high _ (hmem _ run.last_mem)
      have hsplit : ∀ s, s ∈ {s | s ∈ runSlots (run :: runs)} ↔
          (run.first ≤ s ∧ s ≤ run.last) ∨ s ∈ {s | s ∈ runSlots runs} := fun s => by
        rw [Set.mem_ofPred_eq, Set.mem_ofPred_eq, runSlots_cons, List.mem_append, hrun.mem_iff]
      rw [maximal_block hrun.first_le_last hfirst hlast hsplit h.past, ← ih h.tail, gaps]
      rw [if_pos (by omega), List.mem_append, List.mem_singleton, Prod.mk.injEq]

theorem gaps_ordered (h : RunsAhead epochEnd cursor runs) :
    (gaps epochEnd cursor runs).Pairwise fun x y => x.2 ≤ y.1 := by
  induction runs generalizing cursor with
  | nil =>
      rw [gaps]
      split
      · exact List.pairwise_singleton _ _
      · exact .nil
  | cons run runs ih =>
      rw [gaps, List.pairwise_append]
      refine ⟨?_, ih h.tail, fun x hx y hy => ?_⟩
      · split
        · exact List.pairwise_singleton _ _
        · exact .nil
      · have hle := (h.consecutive run List.mem_cons_self).first_le_last
        have hlower := ((mem_gaps_iff h.tail).mp hy).1.lower
        split at hx
        · rw [List.mem_singleton.mp hx]
          dsimp only
          omega
        · cases hx

end Gaps

/-! ## Windows -/

theorem freeWindows_exact (current epochEnd : Int) (minWindow : Rat) (slots : List Int)
    (hsorted : slots.Pairwise (· < ·)) (hinside : ∀ s ∈ slots, current < s ∧ s < epochEnd) :
    MaximalRuns slots (leaderRuns slots) ∧
      (freeWindows current slots epochEnd minWindow).Pairwise
        (fun window later => window.endSlot ≤ later.startSlot) ∧
      (∀ a b : Int,
        (∃ window ∈ freeWindows current slots epochEnd minWindow,
            window.startSlot = a ∧ window.endSlot = b) ↔
          Maximal current epochEnd {s | s ∈ slots} a b ∧
            minWindow ≤ (b - a : Int) * (2 / 5 : Rat)) ∧
      ∀ window ∈ freeWindows current slots epochEnd minWindow,
        window.slots = window.endSlot - window.startSlot := by
  have hruns := maximalRuns_leaderRuns slots
  have hahead : RunsAhead epochEnd current (leaderRuns slots) := by
    refine ⟨hruns.consecutive, hruns.apart, ?_, ?_, ?_⟩ <;> rw [hruns.slots]
    · exact hsorted
    · exact fun s hs => (hinside s hs).1
    · exact fun s hs => (hinside s hs).2
  refine ⟨hruns, ?_, fun a b => ?_, fun window hwindow => ?_⟩
  · unfold freeWindows
    rw [List.pairwise_map]
    exact (gaps_ordered hahead).filter _
  · have hmaximal := mem_gaps_iff (a := a) (b := b) hahead
    rw [hruns.slots] at hmaximal
    rw [← hmaximal]
    simp only [freeWindows, List.mem_map, List.mem_filter, decide_eq_true_eq]
    constructor
    · rintro ⟨_, ⟨⟨x, y⟩, ⟨hgap, hlong⟩, rfl⟩, rfl, rfl⟩
      exact ⟨hgap, hlong⟩
    · rintro ⟨hgap, hlong⟩
      exact ⟨_, ⟨(a, b), ⟨hgap, hlong⟩, rfl⟩, rfl, rfl⟩
  · obtain ⟨gap, _, rfl⟩ := List.mem_map.mp hwindow
    rfl

theorem freeWindows_exact_between :
    MaximalRuns [3, 4, 5, 9] (leaderRuns [3, 4, 5, 9]) ∧
      ∃ window ∈ freeWindows 0 [3, 4, 5, 9] 20 1,
        window.startSlot = 6 ∧ window.endSlot = 9 := by
  have hexact := freeWindows_exact 0 20 1 [3, 4, 5, 9] (by decide) (by decide)
  refine ⟨hexact.1, (hexact.2.2.1 6 9).mpr ⟨maximal_iff.mpr ⟨?_, .inr ?_, .inr ?_⟩, ?_⟩⟩
  · exact ⟨by decide, by decide, by decide, show ∀ s ∈ [3, 4, 5, 9], ¬ ((6 : Int) ≤ s ∧ s < 9) by
      decide⟩
  · exact show (6 - 1 : Int) ∈ [3, 4, 5, 9] by decide
  · exact show (9 : Int) ∈ [3, 4, 5, 9] by decide
  · norm_num

end Solfleet
