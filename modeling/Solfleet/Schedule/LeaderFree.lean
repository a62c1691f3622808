import Mathlib.Data.List.Pairwise
import Solfleet.Schedule

/-! # Leader-free moments

What a reported window and `safe_now` promise about the slots in which the identity leads.
Grouping, gaps and the test for the current slot each draw their own boundary; here they are
held against the plain set of leader slots.
-/

namespace Solfleet

open Interaction Program

/-! ## Gaps -/

theorem LeaderRun.le_last {run : LeaderRun} (h : run.slots.Pairwise (· ≤ ·)) {s : Int}
    (hs : s ∈ run.slots) : s ≤ run.last :=
  h.rel_getLast hs

theorem gap_free {epochEnd cursor : Int} {runs : List LeaderRun} {gap : Int × Int}
    (hsorted : (runSlots runs).Pairwise (· ≤ ·)) (hcursor : ∀ s ∈ runSlots runs, cursor ≤ s + 1)
    (h : gap ∈ gaps epochEnd cursor runs) :
    cursor ≤ gap.1 ∧ ∀ s ∈ runSlots runs, s < gap.1 ∨ gap.2 ≤ s := by
  induction runs generalizing cursor with
  | nil =>
      rw [gaps] at h
      split at h
      · rw [List.mem_singleton.mp h]
        exact ⟨le_refl cursor, fun s hs => nomatch hs⟩
      · exact nomatch h
  | cons run runs ih =>
      have hslots : runSlots (run :: runs) = run.slots ++ runSlots runs := List.flatMap_cons ..
      rw [hslots] at hsorted hcursor ⊢
      have hapart := List.pairwise_append.mp hsorted
      have hlast : cursor ≤ run.last + 1 :=
        hcursor _ (List.mem_append_left _ run.last_mem)
      rw [gaps] at h
      rcases List.mem_append.mp h with h | h
      · split at h
        · rw [List.mem_singleton.mp h]
          refine ⟨le_refl cursor, fun s hs => Or.inr ?_⟩
          rcases List.mem_append.mp hs with hs | hs
          · rcases List.mem_cons.mp hs with hs | hs
            · exact hs.ge
            · exact (List.pairwise_cons.mp hapart.1).1 s hs
          · exact hapart.2.2 _ run.first_mem s hs
        · exact nomatch h
      · have hlater := ih hapart.2.1
          (fun s hs => by have := hapart.2.2 _ run.last_mem s hs; omega) h
        refine ⟨by omega, fun s hs => ?_⟩
        rcases List.mem_append.mp hs with hs | hs
        · have hend : s ≤ run.last := run.le_last hapart.1 hs
          exact Or.inl (by omega)
        · exact hlater.2 s hs

theorem gap_at_cursor {epochEnd cursor : Int} {runs : List LeaderRun} {gap : Int × Int}
    (hsorted : (runSlots runs).Pairwise (· ≤ ·)) (hcursor : ∀ s ∈ runSlots runs, cursor < s) :
    (gap ∈ gaps epochEnd cursor runs ∧ gap.1 = cursor) ↔
      gap = (cursor, ((runSlots runs).head?).getD epochEnd) ∧ (runs = [] → cursor < epochEnd) := by
  cases runs with
  | nil =>
      have hiff : 0 < epochEnd - cursor ↔ cursor < epochEnd := by omega
      by_cases hend : cursor < epochEnd
      · rw [gaps, if_pos (hiff.mpr hend), List.mem_singleton]
        constructor
        · intro h
          exact ⟨h.1, fun _ => hend⟩
        · intro h
          exact ⟨h.1, by rw [h.1]⟩
      · rw [gaps, if_neg (mt hiff.mp hend)]
        constructor
        · intro h
          exact nomatch h.1
        · intro h
          exact absurd (h.2 rfl) hend
  | cons run runs =>
      have hslots : runSlots (run :: runs) = run.slots ++ runSlots runs := List.flatMap_cons ..
      rw [hslots] at hsorted hcursor
      have hapart := List.pairwise_append.mp hsorted
      have hfirst : cursor < run.first := hcursor _ (List.mem_append_left _ run.first_mem)
      have hlast : cursor < run.last := hcursor _ (List.mem_append_left _ run.last_mem)
      have hhead : ((runSlots (run :: runs)).head?).getD epochEnd = run.first := rfl
      rw [gaps, if_pos (by omega), hhead]
      constructor
      · rintro ⟨hgap, hstart⟩
        rcases List.mem_append.mp hgap with hgap | hgap
        · exact ⟨List.mem_singleton.mp hgap, nofun⟩
        · have hlater := gap_free hapart.2.1
            (fun s hs => by have := hapart.2.2 _ run.last_mem s hs; omega) hgap
          omega
      · rintro ⟨rfl, -⟩
        exact ⟨List.mem_append_left _ (List.mem_singleton.mpr rfl), rfl⟩

/-! ## Upcoming slots -/

section Upcoming

variable {epoch : EpochInfo} {indices : List Int}

theorem mem_upcomingSlots {s : Int} :
    s ∈ upcomingSlots epoch indices ↔ s ∈ epoch.slots indices ∧ epoch.absoluteSlot < s := by
  rw [upcomingSlots, List.mem_insertionSort, List.mem_filter, decide_eq_true_eq]

theorem upcomingSlots_sorted : (upcomingSlots epoch indices).Pairwise (· ≤ ·) :=
  List.pairwise_insertionSort _ _

theorem upcomingSlots_eq_nil_iff :
    upcomingSlots epoch indices = [] ↔ ∀ s ∈ epoch.slots indices, s ≤ epoch.absoluteSlot := by
  rw [List.eq_nil_iff_forall_not_mem]
  constructor
  · intro h s hs
    exact not_lt.mp fun hlt => h s (mem_upcomingSlots.mpr ⟨hs, hlt⟩)
  · intro h s hs
    have hboth := mem_upcomingSlots.mp hs
    exact not_lt.mpr (h s hboth.1) hboth.2

theorem head_upcomingSlots {next : Int} {later : List Int}
    (h : upcomingSlots epoch indices = next :: later) :
    next ∈ epoch.slots indices ∧ epoch.absoluteSlot < next ∧
      ∀ s ∈ epoch.slots indices, epoch.absoluteSlot < s → next ≤ s := by
  have hmem := mem_upcomingSlots.mp (h ▸ List.mem_cons_self : next ∈ upcomingSlots epoch indices)
  refine ⟨hmem.1, hmem.2, fun s hs hlt => ?_⟩
  have hs' : s ∈ next :: later := h ▸ mem_upcomingSlots.mpr ⟨hs, hlt⟩
  have hsorted : (next :: later).Pairwise (· ≤ ·) := h ▸ upcomingSlots_sorted
  rcases List.mem_cons.mp hs' with rfl | hs'
  · exact le_refl s
  · exact (List.pairwise_cons.mp hsorted).1 s hs'

end Upcoming

/-! ## The view -/

section View

variable {epoch : EpochInfo} {sched : LeaderSchedule} {identity : String}
  {minWindowMinutes : Int}

theorem seconds_le {a b : Int} (h : a ≤ b) : (a : Rat) * slotTime ≤ b * slotTime := by
  have hpos : (0 : Rat) ≤ slotTime := by norm_num [slotTime]
  have hle : (a : Rat) ≤ b := by exact_mod_cast h
  exact mul_le_mul_of_nonneg_right hle hpos

/-- `safe_now` asks of every leader slot still to come what it asks of the first. -/
theorem safeNow_iff :
    (readLeaderWindows epoch sched identity minWindowMinutes).safeNow = true ↔
      ∀ s ∈ epoch.slots (leaderIndices sched identity), epoch.absoluteSlot < s →
        ((minWindowMinutes * 60 : Int) : Rat) ≤ (s - epoch.absoluteSlot : Int) * slotTime := by
  cases hupcoming : upcomingSlots epoch (leaderIndices sched identity) with
  | nil =>
      have hpast := upcomingSlots_eq_nil_iff.mp hupcoming
      have hsafe : (readLeaderWindows epoch sched identity minWindowMinutes).safeNow = true := by
        simp [readLeaderWindows, hupcoming]
      exact iff_of_true hsafe fun s hs hlt => absurd hlt (not_lt.mpr (hpast s hs))
  | cons next later =>
      have hnext := head_upcomingSlots hupcoming
      have hsafe : (readLeaderWindows epoch sched identity minWindowMinutes).safeNow = true ↔
          ((minWindowMinutes * 60 : Int) : Rat) ≤ (next - epoch.absoluteSlot : Int) * slotTime := by
        simp [readLeaderWindows, hupcoming]
      rw [hsafe]
      constructor
      · intro h s hs hlt
        have hle := hnext.2.2 s hs hlt
        exact le_trans h (seconds_le (by omega))
      · intro h
        exact h next hnext.1 hnext.2.1

theorem mem_windows {window : LeaderWindow} :
    window ∈ (readLeaderWindows epoch sched identity minWindowMinutes).windows ↔
      ∃ gap ∈ gaps epoch.stop epoch.absoluteSlot
          (leaderRuns (upcomingSlots epoch (leaderIndices sched identity))),
        ((minWindowMinutes * 60 : Int) : Rat) ≤ (gap.2 - gap.1 : Int) * slotTime ∧
          leaderWindow gap = window := by
  simp only [readLeaderWindows, freeWindows, List.mem_map, List.mem_filter, decide_eq_true_eq,
    and_assoc]

theorem window_now_iff :
    (∃ window ∈ (readLeaderWindows epoch sched identity minWindowMinutes).windows,
        window.startSlot = epoch.absoluteSlot) ↔
      ((minWindowMinutes * 60 : Int) : Rat) ≤
          (((upcomingSlots epoch (leaderIndices sched identity)).head?.getD epoch.stop) -
            epoch.absoluteSlot : Int) * slotTime ∧
        (upcomingSlots epoch (leaderIndices sched identity) = [] →
          epoch.absoluteSlot < epoch.stop) := by
  have hruns := runSlots_leaderRuns (upcomingSlots epoch (leaderIndices sched identity))
  have hsorted : (runSlots (leaderRuns (upcomingSlots epoch
      (leaderIndices sched identity)))).Pairwise (· ≤ ·) := by
    rw [hruns]
    exact upcomingSlots_sorted
  have hlater : ∀ s ∈ runSlots (leaderRuns (upcomingSlots epoch (leaderIndices sched identity))),
      epoch.absoluteSlot < s := fun s hs => (mem_upcomingSlots.mp (hruns ▸ hs)).2
  have hnil : leaderRuns (upcomingSlots epoch (leaderIndices sched identity)) = [] ↔
      upcomingSlots epoch (leaderIndices sched identity) = [] := by
    constructor
    · intro h
      rw [h] at hruns
      exact hruns.symm
    · intro h
      rw [h]
      rfl
  constructor
  · rintro ⟨window, hwindow, hstart⟩
    obtain ⟨gap, hgap, hlong, rfl⟩ := mem_windows.mp hwindow
    have hat := (gap_at_cursor hsorted hlater).mp ⟨hgap, hstart⟩
    rw [hruns] at hat
    rw [hat.1] at hlong
    exact ⟨hlong, fun h => hat.2 (hnil.mpr h)⟩
  · rintro ⟨hlong, hroom⟩
    have hgap := (gap_at_cursor hsorted hlater).mpr ⟨rfl, fun h => hroom (hnil.mp h)⟩
    rw [hruns] at hgap
    exact ⟨_, mem_windows.mpr ⟨_, hgap.1, hlong, rfl⟩, rfl⟩

theorem safe_of_window
    (h : ∃ window ∈ (readLeaderWindows epoch sched identity minWindowMinutes).windows,
      window.startSlot = epoch.absoluteSlot) :
    (readLeaderWindows epoch sched identity minWindowMinutes).safeNow = true := by
  rw [safeNow_iff]
  intro s hs hlt
  have hnow := window_now_iff.mp h
  cases hupcoming : upcomingSlots epoch (leaderIndices sched identity) with
  | nil => exact absurd hlt (not_lt.mpr (upcomingSlots_eq_nil_iff.mp hupcoming s hs))
  | cons next later =>
      rw [hupcoming] at hnow
      have hle := (head_upcomingSlots hupcoming).2.2 s hs hlt
      exact le_trans hnow.1 (seconds_le (sub_le_sub_right hle _))

theorem window_free {window : LeaderWindow}
    (h : window ∈ (readLeaderWindows epoch sched identity minWindowMinutes).windows) :
    epoch.absoluteSlot ≤ window.startSlot ∧
      ∀ s ∈ epoch.slots (leaderIndices sched identity), s ≠ epoch.absoluteSlot →
        ¬ (window.startSlot ≤ s ∧ s < window.endSlot) := by
  obtain ⟨gap, hgap, -, rfl⟩ := mem_windows.mp h
  have hruns := runSlots_leaderRuns (upcomingSlots epoch (leaderIndices sched identity))
  have hfree := gap_free (hruns.symm ▸ upcomingSlots_sorted)
    (fun s hs => by have := (mem_upcomingSlots.mp (hruns ▸ hs)).2; omega) hgap
  rw [hruns] at hfree
  refine ⟨hfree.1, fun s hs hne hin => ?_⟩
  change gap.1 ≤ s ∧ s < gap.2 at hin
  rcases lt_or_gt_of_ne hne with hlt | hgt
  · have := hfree.1
    omega
  · have := hfree.2 s (mem_upcomingSlots.mpr ⟨hs, hgt⟩)
    omega

end View

/-! ## Free of leader slots -/

/-- No listed window holds one of the slots, and `safe_now` means that the current slot is
none of them and that none follows within the minimum. -/
structure LeaderFree (view : LeaderWindows) (epoch : EpochInfo) (slots : List Int) : Prop where
  windows : ∀ window ∈ view.windows, ∀ s ∈ slots, ¬ (window.startSlot ≤ s ∧ s < window.endSlot)
  now : view.safeNow = true → epoch.absoluteSlot ∉ slots ∧
    ∀ s ∈ slots, epoch.absoluteSlot < s →
      ((view.minWindowMinutes * 60 : Int) : Rat) ≤ (s - epoch.absoluteSlot : Int) * slotTime

/-- Only a moment in which the identity leads itself is misjudged, unless its next slot is
near enough to keep it from being called safe. -/
theorem leaderFree_iff {rpcUrl identity : String} {minWindowMinutes : Int}
    {trace : List ScheduleEvent} {view : LeaderWindows}
    (h : Runs (leaderWindows rpcUrl identity minWindowMinutes) trace (.ok view)) :
    ∃ epoch sched, trace = heard rpcUrl identity epoch sched ∧
      (LeaderFree view epoch (epoch.slots (leaderIndices sched identity)) ↔
        epoch.absoluteSlot ∉ epoch.slots (leaderIndices sched identity) ∨
        ∃ s ∈ epoch.slots (leaderIndices sched identity), epoch.absoluteSlot < s ∧
          (s - epoch.absoluteSlot : Int) * slotTime < (minWindowMinutes * 60 : Int)) := by
  obtain ⟨epoch, sched, htrace, rfl⟩ := runs_leaderWindows h
  refine ⟨epoch, sched, htrace, ?_⟩
  constructor
  · intro hfree
    by_contra hneither
    push Not at hneither
    have hnow := hfree.now (safeNow_iff.mpr hneither.2)
    exact hnow.1 hneither.1
  · intro hcond
    constructor
    · intro window hwindow s hs hin
      have hwf := window_free hwindow
      have hs' : s = epoch.absoluteSlot := by
        by_contra hne
        exact hwf.2 s hs hne hin
      have hstart : window.startSlot = epoch.absoluteSlot := by omega
      rcases hcond with hidle | ⟨near, hnear, hlt, hsoon⟩
      · exact hidle (hs' ▸ hs)
      · have hlong := (window_now_iff.mp ⟨window, hwindow, hstart⟩).1
        cases hupcoming : upcomingSlots epoch (leaderIndices sched identity) with
        | nil => exact not_lt.mpr (upcomingSlots_eq_nil_iff.mp hupcoming near hnear) hlt
        | cons next later =>
            rw [hupcoming] at hlong
            have hle := (head_upcomingSlots hupcoming).2.2 near hnear hlt
            have hshort : next - epoch.absoluteSlot ≤ near - epoch.absoluteSlot := by omega
            exact absurd (lt_of_le_of_lt (le_trans hlong (seconds_le hshort)) hsoon) (lt_irrefl _)
    · intro hsafe
      have hfar := safeNow_iff.mp hsafe
      rcases hcond with hidle | ⟨near, hnear, hlt, hsoon⟩
      · exact ⟨hidle, hfar⟩
      · exact absurd (hfar near hnear hlt) (not_le.mpr hsoon)

/-- The last slot of a run of four; the next run is half an hour away. -/
def leadingEpoch : EpochInfo :=
  { absoluteSlot := 1103, slotIndex := 103, slotsInEpoch := 10000, epoch := 5 }

def leadingSchedule : LeaderSchedule :=
  some ⟨[("Val1", some [100, 101, 102, 103, 5000])], by decide⟩

theorem runs_leading (epoch : EpochInfo) (sched : LeaderSchedule) (minWindowMinutes : Int) :
    Runs (leaderWindows "http://reference" "Val1" minWindowMinutes)
      (heard "http://reference" "Val1" epoch sched)
      (.ok (readLeaderWindows epoch sched "Val1" minWindowMinutes)) := by
  unfold leaderWindows heard
  rw [runs_bind_ok_iff]
  refine ⟨[_], [_], epoch, runs_perform_iff.mpr rfl, ?_, rfl⟩
  rw [runs_bind_ok_iff]
  exact ⟨[_], [], sched, runs_perform_iff.mpr rfl, .done _, rfl⟩

theorem leading_called_safe :
    ¬ ∀ (rpcUrl identity : String) (minWindowMinutes : Int) (epoch : EpochInfo)
      (sched : LeaderSchedule) (view : LeaderWindows), epoch.slotIndex < epoch.slotsInEpoch →
      (∀ i ∈ leaderIndices sched identity, 0 ≤ i ∧ i < epoch.slotsInEpoch) →
      0 ≤ minWindowMinutes →
      Runs (leaderWindows rpcUrl identity minWindowMinutes) (heard rpcUrl identity epoch sched)
        (.ok view) →
        LeaderFree view epoch (epoch.slots (leaderIndices sched identity)) := by
  intro h
  have hfree := h "http://reference" "Val1" 5 leadingEpoch leadingSchedule _ (by decide)
    (by decide) (by decide) (runs_leading ..)
  have hsafe : (readLeaderWindows leadingEpoch leadingSchedule "Val1" 5).safeNow = true := by
    decide +kernel
  exact (hfree.now hsafe).1 (by decide)

theorem leaderFree_iff_leading :
    ∃ epoch sched, heard "http://reference" "Val1" leadingEpoch leadingSchedule =
        heard "http://reference" "Val1" epoch sched ∧
      (LeaderFree (readLeaderWindows leadingEpoch leadingSchedule "Val1" 5) epoch
          (epoch.slots (leaderIndices sched "Val1")) ↔
        epoch.absoluteSlot ∉ epoch.slots (leaderIndices sched "Val1") ∨
        ∃ s ∈ epoch.slots (leaderIndices sched "Val1"), epoch.absoluteSlot < s ∧
          (s - epoch.absoluteSlot : Int) * slotTime < ((5 * 60 : Int) : Rat)) :=
  leaderFree_iff (runs_leading leadingEpoch leadingSchedule 5)

/-! ## Two views of one moment -/

/-- With a leader slot ahead, or with enough of the epoch left, `safe_now` and the listed
windows agree about the current slot. An identity that the schedule does not know is safe at
any time, with or without a window. -/
theorem safeNow_window_iff {rpcUrl identity : String} {minWindowMinutes : Int}
    {trace : List ScheduleEvent} {view : LeaderWindows}
    (h : Runs (leaderWindows rpcUrl identity minWindowMinutes) trace (.ok view)) :
    ∃ epoch sched, trace = heard rpcUrl identity epoch sched ∧
      ((∃ s ∈ epoch.slots (leaderIndices sched identity), epoch.absoluteSlot < s) ∨
          (epoch.absoluteSlot < epoch.stop ∧ ((minWindowMinutes * 60 : Int) : Rat) ≤
            (epoch.stop - epoch.absoluteSlot : Int) * slotTime) →
        (view.safeNow = true ↔
          ∃ window ∈ view.windows, window.startSlot = epoch.absoluteSlot)) ∧
      (leaderIndices sched identity = [] → view.safeNow = true) ∧
      ((∃ window ∈ view.windows, window.startSlot = epoch.absoluteSlot) →
        view.safeNow = true) := by
  obtain ⟨epoch, sched, htrace, rfl⟩ := runs_leaderWindows h
  refine ⟨epoch, sched, htrace, fun hahead => ⟨fun hsafe => ?_, safe_of_window⟩, ?_, safe_of_window⟩
  · rw [safeNow_iff] at hsafe
    rw [window_now_iff]
    cases hupcoming : upcomingSlots epoch (leaderIndices sched identity) with
    | nil =>
        rcases hahead with ⟨s, hs, hlt⟩ | ⟨hroom, hlong⟩
        · exact absurd hlt (not_lt.mpr (upcomingSlots_eq_nil_iff.mp hupcoming s hs))
        · exact ⟨hlong, fun _ => hroom⟩
    | cons next later =>
        have hnext := head_upcomingSlots hupcoming
        exact ⟨hsafe next hnext.1 hnext.2.1, by simp⟩
  · intro hnone
    rw [safeNow_iff, hnone]
    intro s hs
    cases hs

/-- Ten slots before the end of an epoch. -/
def endingEpoch : EpochInfo :=
  { absoluteSlot := 10990, slotIndex := 9990, slotsInEpoch := 10000, epoch := 5 }

theorem safe_without_window :
    ¬ ∀ (rpcUrl identity : String) (minWindowMinutes : Int) (epoch : EpochInfo)
      (sched : LeaderSchedule) (view : LeaderWindows), epoch.slotIndex < epoch.slotsInEpoch →
      (∀ i ∈ leaderIndices sched identity, 0 ≤ i ∧ i < epoch.slotsInEpoch) →
      epoch.absoluteSlot ∉ epoch.slots (leaderIndices sched identity) → 0 < minWindowMinutes →
      Runs (leaderWindows rpcUrl identity minWindowMinutes) (heard rpcUrl identity epoch sched)
        (.ok view) →
        (view.safeNow = true ↔
          ∃ window ∈ view.windows, window.startSlot = epoch.absoluteSlot) := by
  intro h
  have hiff := h "http://reference" "Val1" 5 endingEpoch none _ (by decide) (by decide)
    (by decide) (by decide) (runs_leading ..)
  have hsafe : (readLeaderWindows endingEpoch none "Val1" 5).safeNow = true := by
    decide +kernel
  have hnone : (readLeaderWindows endingEpoch none "Val1" 5).windows = [] := by
    decide +kernel
  obtain ⟨window, hwindow, -⟩ := hiff.mp hsafe
  exact nomatch hnone ▸ hwindow

theorem heard_inj {rpcUrl identity : String} {epoch epoch' : EpochInfo}
    {sched sched' : LeaderSchedule}
    (h : heard rpcUrl identity epoch sched = heard rpcUrl identity epoch' sched') :
    epoch = epoch' ∧ sched = sched' := by
  simp only [heard, List.cons.injEq, Event.mk.injEq] at h
  obtain ⟨⟨_, hepoch⟩, ⟨_, hsched⟩, _⟩ := h
  obtain rfl : epoch = epoch' := by simpa using hepoch
  exact ⟨rfl, by simpa using hsched⟩

theorem safeNow_window_iff_between :
    (∃ window ∈ (readLeaderWindows { leadingEpoch with absoluteSlot := 1104, slotIndex := 104 }
        leadingSchedule "Val1" 5).windows, window.startSlot = 1104) ∧
      ∃ window ∈ (readLeaderWindows leadingEpoch none "Val1" 5).windows,
        window.startSlot = 1103 := by
  constructor
  · obtain ⟨epoch, sched, htrace, hiff, _⟩ := safeNow_window_iff
      (runs_leading { leadingEpoch with absoluteSlot := 1104, slotIndex := 104 }
        leadingSchedule 5)
    obtain ⟨rfl, rfl⟩ := heard_inj htrace
    exact (hiff (.inl ⟨6000, by decide, by decide⟩)).mp (by decide +kernel)
  · obtain ⟨epoch, sched, htrace, hiff, _⟩ := safeNow_window_iff (runs_leading leadingEpoch none 5)
    obtain ⟨rfl, rfl⟩ := heard_inj htrace
    exact (hiff (.inr ⟨by decide, by decide +kernel⟩)).mp (by decide +kernel)

end Solfleet
