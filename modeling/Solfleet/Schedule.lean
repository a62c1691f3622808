import Solfleet.Executor
import Solfleet.Library.Json

/-! # The leader schedule

When a validator leads next, and which stretches of the epoch are free of its slots. The
schedule is known up to the end of the current epoch only.
-/

namespace Solfleet

open Interaction Program

/-! ## What the reference answers -/

structure EpochInfo where
  absoluteSlot : Int
  slotIndex : Int
  slotsInEpoch : Int
  epoch : Int

namespace EpochInfo

def start (epoch : EpochInfo) : Int := epoch.absoluteSlot - epoch.slotIndex

def stop (epoch : EpochInfo) : Int := epoch.start + epoch.slotsInEpoch

/-- The slots of the indices of a schedule. -/
def slots (epoch : EpochInfo) (indices : List Int) : List Int :=
  indices.map fun i => epoch.start + i

end EpochInfo

/-- Slot indices by identity; `null` where there is nothing to say. -/
abbrev LeaderSchedule := Option (Dict String (Option (List Int)))

/-- `(sched or {}).get(identity, []) or []` -/
def leaderIndices (sched : LeaderSchedule) (identity : String) : List Int :=
  ((sched.bind (·.get? identity)).getD none).getD []

inductive ScheduleCall where
  | getEpochInfo (rpcUrl : String)
  | getLeaderSchedule (rpcUrl : String) (slot : Int) (identity : String)

abbrev ScheduleCall.Answer : ScheduleCall → Type
  | .getEpochInfo _ => EpochInfo
  | .getLeaderSchedule .. => LeaderSchedule

abbrev scheduleSignature : Signature := ⟨ScheduleCall, ScheduleCall.Answer⟩

abbrev ScheduleProgram := Program scheduleSignature Exn

abbrev ScheduleEvent := Event scheduleSignature Exn

/-! ## Runs of slots -/

/-- A run of slots; there is a first one. -/
structure LeaderRun where
  first : Int
  others : List Int := []

namespace LeaderRun

def slots (run : LeaderRun) : List Int := run.first :: run.others

def last (run : LeaderRun) : Int := run.slots.getLast (List.cons_ne_nil _ _)

def append (run : LeaderRun) (s : Int) : LeaderRun := { run with others := run.others ++ [s] }

@[simp] theorem slots_append (run : LeaderRun) (s : Int) :
    (run.append s).slots = run.slots ++ [s] := rfl

theorem first_mem (run : LeaderRun) : run.first ∈ run.slots := List.mem_cons_self

theorem last_mem (run : LeaderRun) : run.last ∈ run.slots := List.getLast_mem _

end LeaderRun

/-- A slot joins the last run if it follows that run's end, and starts one otherwise. -/
def addSlot (runs : List LeaderRun) (s : Int) : List LeaderRun :=
  match runs.getLast? with
  | none => [{ first := s }]
  | some run =>
      if s = run.last + 1 then runs.dropLast ++ [run.append s] else runs ++ [{ first := s }]

def leaderRuns (slots : List Int) : List LeaderRun := slots.foldl addSlot []

def runSlots (runs : List LeaderRun) : List Int := runs.flatMap (·.slots)

theorem runSlots_addSlot (runs : List LeaderRun) (s : Int) :
    runSlots (addSlot runs s) = runSlots runs ++ [s] := by
  unfold addSlot
  cases hlast : runs.getLast? with
  | none =>
      rw [List.getLast?_eq_none_iff.mp hlast]
      rfl
  | some run =>
      have hruns : runs = runs.dropLast ++ [run] := (List.dropLast_append_getLast? run hlast).symm
      dsimp only
      split
      · rw [runSlots, List.flatMap_append, List.flatMap_singleton, LeaderRun.slots_append,
          ← List.append_assoc]
        conv_rhs => rw [hruns, runSlots, List.flatMap_append, List.flatMap_singleton]
      · rw [runSlots, List.flatMap_append, List.flatMap_singleton]
        rfl

/-- Grouping loses no slot and keeps the order. -/
theorem runSlots_leaderRuns (slots : List Int) : runSlots (leaderRuns slots) = slots := by
  have key : ∀ runs, runSlots (slots.foldl addSlot runs) = runSlots runs ++ slots := by
    induction slots with
    | nil => exact fun runs => (List.append_nil _).symm
    | cons s slots ih =>
        intro runs
        rw [List.foldl_cons, ih, runSlots_addSlot, List.append_assoc, List.singleton_append]
  exact key []

/-! ## Free windows -/

/-- The target time of a slot in seconds. -/
def slotTime : Rat := 2 / 5

/-- `round(x, 1)` -/
def roundTenth (x : Rat) : Rat := roundHalfEven (x * 10) / 10

/-- The gaps between the runs from a cursor on, the last one up to the end of the epoch. -/
def gaps (epochEnd : Int) : Int → List LeaderRun → List (Int × Int)
  | cursor, [] => if 0 < epochEnd - cursor then [(cursor, epochEnd)] else []
  | cursor, run :: runs =>
      (if 0 < run.first - cursor then [(cursor, run.first)] else []) ++
        gaps epochEnd (run.last + 1) runs

def leaderWindow (gap : Int × Int) : LeaderWindow where
  startSlot := gap.1
  endSlot := gap.2
  slots := gap.2 - gap.1
  durationMinutes := roundTenth ((gap.2 - gap.1 : Int) * slotTime / 60)

def freeWindows (current : Int) (upcoming : List Int) (epochEnd : Int) (minWindow : Rat) :
    List LeaderWindow :=
  ((gaps epochEnd current (leaderRuns upcoming)).filter
    fun gap => decide (minWindow ≤ (gap.2 - gap.1 : Int) * slotTime)).map leaderWindow

/-! ## The view -/

/-- The slots still to come, in order. -/
def upcomingSlots (epoch : EpochInfo) (indices : List Int) : List Int :=
  ((epoch.slots indices).filter fun s => decide (epoch.absoluteSlot < s)).insertionSort (· ≤ ·)

def readLeaderWindows (epoch : EpochInfo) (sched : LeaderSchedule) (identity : String)
    (minWindowMinutes : Int) : LeaderWindows :=
  let absolute := epoch.absoluteSlot
  let indices := leaderIndices sched identity
  let upcoming := upcomingSlots epoch indices
  let nextLeader := upcoming.head?
  let secondsToNext := nextLeader.map fun s => (s - absolute : Int) * slotTime
  let minWindow : Rat := (minWindowMinutes * 60 : Int)
  { identity
    epoch := epoch.epoch
    currentSlot := absolute
    leadsThisEpoch := indices.length
    nextLeaderSlot := nextLeader
    secondsToNextLeader := secondsToNext.map roundTenth
    safeNow := nextLeader.isNone || secondsToNext.any fun s => decide (minWindow ≤ s)
    minWindowMinutes
    windows := freeWindows absolute upcoming epoch.stop minWindow }

def leaderWindows (rpcUrl identity : String) (minWindowMinutes : Int) :
    ScheduleProgram LeaderWindows := do
  let epoch ← perform (S := scheduleSignature) (.getEpochInfo rpcUrl)
  let sched ← perform (S := scheduleSignature)
    (.getLeaderSchedule rpcUrl epoch.absoluteSlot identity)
  pure (readLeaderWindows epoch sched identity minWindowMinutes)

/-- The two answers a view is read from. -/
def heard (rpcUrl identity : String) (epoch : EpochInfo) (sched : LeaderSchedule) :
    List ScheduleEvent :=
  [⟨.getEpochInfo rpcUrl, .ok epoch⟩,
    ⟨.getLeaderSchedule rpcUrl epoch.absoluteSlot identity, .ok sched⟩]

theorem runs_leaderWindows {rpcUrl identity : String} {minWindowMinutes : Int}
    {trace : List ScheduleEvent} {view : LeaderWindows}
    (h : Runs (leaderWindows rpcUrl identity minWindowMinutes) trace (.ok view)) :
    ∃ epoch sched, trace = heard rpcUrl identity epoch sched ∧
      view = readLeaderWindows epoch sched identity minWindowMinutes := by
  obtain ⟨_, _, epoch, hepoch, hrest, rfl⟩ := runs_bind_ok_iff.mp h
  obtain ⟨_, _, sched, hsched, hread, rfl⟩ := runs_bind_ok_iff.mp hrest
  obtain ⟨rfl, hview⟩ := runs_pure_iff.mp hread
  rw [runs_perform_iff.mp hepoch, runs_perform_iff.mp hsched]
  exact ⟨epoch, sched, rfl, Except.ok.inj hview⟩

end Solfleet
