import Solfleet.Operations

/-! # How long the wait takes

The wait polls a stream of samples. `catchupWhile` is the source's loop with each of
its arguments, run on fuel; `catchupOutcome` is what a stream comes to, and the loop
ends with it on any fuel above the number of samples the timeout leaves room for.
-/

namespace Solfleet

open Interaction Program

/-! ## The loop with its interval -/

/-- `while waited <= timeout_s`; `none` when the fuel does not last. -/
def catchupWhile (node : Node) (referenceRpc : String) (maxLag timeout interval : Int) :
    Nat → Int → Option Sample → OpsProgram (Option Catchup)
  | 0, _, _ => pure none
  | fuel + 1, waited, last =>
      if waited ≤ timeout then do
        let sample ← perform (S := opsSignature) (.sample node referenceRpc)
        if hasCaughtUp maxLag sample then
          pure (some { caughtUp := true, waited, last := some sample })
        else do
          let _ ← perform (S := opsSignature) (.sleep interval)
          catchupWhile node referenceRpc maxLag timeout interval fuel (waited + interval)
            (some sample)
      else pure (some { caughtUp := false, waited, last })

theorem catchupWhile_catchupInterval (node : Node) (referenceRpc : String) (maxLag timeout : Int)
    (extra : Nat) (waited : Int) (last : Option Sample) :
    catchupWhile node referenceRpc maxLag timeout catchupInterval
        (catchupRounds timeout waited + 1 + extra) waited last =
      some <$> catchupLoop node referenceRpc maxLag (catchupRounds timeout waited) waited last := by
  generalize hrounds : catchupRounds timeout waited = rounds
  induction rounds generalizing waited last with
  | zero =>
      rw [Nat.add_right_comm, catchupWhile, catchupLoop]
      rw [if_neg (not_le.mpr (catchupRounds_eq_zero_iff.mp hrounds))]
      rfl
  | succ rounds ih =>
      have hle : waited ≤ timeout := by
        by_contra h
        rw [catchupRounds_eq_zero_iff.mpr (not_le.mp h)] at hrounds
        cases hrounds
      have hnext : catchupRounds timeout (waited + catchupInterval) = rounds := by
        have hsucc := catchupRounds_succ hle
        omega
      rw [Nat.add_right_comm, catchupWhile, catchupLoop, if_pos hle, map_bind]
      refine congrArg _ (funext fun sample => ?_)
      by_cases hcaught : hasCaughtUp maxLag sample
      · rw [if_pos hcaught, if_pos hcaught]
        rfl
      · rw [if_neg hcaught, if_neg hcaught, map_bind]
        refine congrArg _ (funext fun _ => ?_)
        exact ih (waited + catchupInterval) (some sample) hnext

/-! ## A stream of samples -/

/-- Samples come from a stream, and a wait makes no other call but to sleep. The
state is how many samples were taken. -/
def sampledFrom (samples : Nat → Sample) : Handler opsSignature Exn Nat
  | .sample .., taken => (.ok (samples taken), taken + 1)
  | .sleep _, taken => (.ok (), taken)
  | .runner _, taken => (.ok ⟨1, "", ""⟩, taken)
  | .mkdtemp stem, taken => (.ok stem, taken)
  | .leader .., taken => (.ok none, taken)
  | .audit _, taken => (.ok (), taken)

def catchupRun (node : Node) (referenceRpc : String) (maxLag timeout interval : Int)
    (samples : Nat → Sample) (fuel : Nat) :
    Execution opsSignature Exn Nat (Option Catchup) :=
  exec (sampledFrom samples) (catchupWhile node referenceRpc maxLag timeout interval fuel 0 none) 0

def Sample.CaughtUp (maxLag : Int) (sample : Sample) : Prop :=
  sample.healthy = some true ∧ ∃ lag, sample.lag = some lag ∧ lag ≤ maxLag

theorem hasCaughtUp_iff {maxLag : Int} {sample : Sample} :
    hasCaughtUp maxLag sample = true ↔ sample.CaughtUp maxLag := by
  unfold hasCaughtUp Sample.CaughtUp
  rw [Bool.and_eq_true, beq_iff_eq, Option.any_eq_true]
  simp only [decide_eq_true_eq]

/-- What the samples from `first` on come to when the timeout leaves room for `room`
of them, and how many were taken by then. -/
def catchupOutcome (maxLag interval : Int) (samples : Nat → Sample) (first room : Nat)
    (last : Option Sample) : Catchup × Nat :=
  match (List.range' first room).find? fun k => hasCaughtUp maxLag (samples k) with
  | some k => ({ caughtUp := true, waited := k * interval, last := some (samples k) }, k + 1)
  | none =>
      ({ caughtUp := false
         waited := (first + room : Nat) * interval
         last := if room = 0 then last else some (samples (first + room - 1)) }, first + room)

theorem catchupOutcome_caught {maxLag interval : Int} {samples : Nat → Sample} {first room : Nat}
    {last : Option Sample} (h : hasCaughtUp maxLag (samples first) = true) :
    catchupOutcome maxLag interval samples first (room + 1) last =
      ({ caughtUp := true, waited := first * interval, last := some (samples first) },
        first + 1) := by
  unfold catchupOutcome
  rw [List.range'_succ, List.find?_cons_of_pos (p := fun k => hasCaughtUp maxLag (samples k)) h]

theorem catchupOutcome_behind {maxLag interval : Int} {samples : Nat → Sample} {first room : Nat}
    {last : Option Sample} (h : ¬ hasCaughtUp maxLag (samples first) = true) :
    catchupOutcome maxLag interval samples first (room + 1) last =
      catchupOutcome maxLag interval samples (first + 1) room (some (samples first)) := by
  unfold catchupOutcome
  rw [List.range'_succ, List.find?_cons_of_neg (p := fun k => hasCaughtUp maxLag (samples k)) h]
  rw [Nat.add_right_comm first 1 room]
  rw [if_neg (Nat.succ_ne_zero room), Nat.add_assoc first room 1, Nat.add_succ_sub_one]
  cases room with
  | zero => rfl
  | succ room => rw [if_neg (Nat.succ_ne_zero room)]

theorem exec_catchupWhile_turn (node : Node) (referenceRpc : String)
    (maxLag interval : Int) (samples : Nat → Sample) (first fuel : Nat) (last : Option Sample)
    {timeout waited : Int} (hgo : waited ≤ timeout) :
    let run := exec (sampledFrom samples)
      (catchupWhile node referenceRpc maxLag timeout interval (fuel + 1) waited last) first
    if hasCaughtUp maxLag (samples first) then
      run.result =
          .ok (some { caughtUp := true, waited, last := some (samples first) }) ∧
        run.final = first + 1
    else
      let rest := exec (sampledFrom samples)
        (catchupWhile node referenceRpc maxLag timeout interval fuel (waited + interval)
          (some (samples first))) (first + 1)
      run.result = rest.result ∧ run.final = rest.final := by
  rw [catchupWhile, if_pos hgo]
  by_cases hcaught : hasCaughtUp maxLag (samples first) = true
  · rw [if_pos hcaught, exec_bind_ok (a := samples first) rfl, if_pos hcaught]
    exact ⟨rfl, rfl⟩
  · rw [if_neg hcaught, exec_bind_ok (a := samples first) rfl, if_neg hcaught]
    exact ⟨rfl, rfl⟩

theorem exec_catchupWhile (node : Node) (referenceRpc : String) (maxLag : Int)
    (samples : Nat → Sample) (first : Nat) (last : Option Sample) {timeout interval : Int}
    {room fuel : Nat}
    (hroom : ∀ k : Nat, k * interval ≤ timeout ↔ k < first + room) (hfuel : room < fuel) :
    let run := exec (sampledFrom samples)
      (catchupWhile node referenceRpc maxLag timeout interval fuel (first * interval) last) first
    run.result = .ok (some (catchupOutcome maxLag interval samples first room last).1) ∧
      run.final = (catchupOutcome maxLag interval samples first room last).2 := by
  induction room generalizing first fuel last with
  | zero =>
      obtain ⟨fuel, rfl⟩ := Nat.exists_eq_succ_of_ne_zero (Nat.ne_of_gt hfuel)
      have hstop : ¬ (first : Int) * interval ≤ timeout := fun h =>
        Nat.lt_irrefl first ((hroom first).mp h)
      rw [catchupWhile, if_neg hstop]
      exact ⟨rfl, rfl⟩
  | succ room ih =>
      obtain ⟨fuel, rfl⟩ := Nat.exists_eq_succ_of_ne_zero (Nat.ne_of_gt (Nat.zero_lt_of_lt hfuel))
      have hgo : (first : Int) * interval ≤ timeout := (hroom first).mpr (by omega)
      have hturn :=
        exec_catchupWhile_turn node referenceRpc maxLag interval samples first fuel last hgo
      by_cases hcaught : hasCaughtUp maxLag (samples first) = true
      · rw [if_pos hcaught] at hturn
        rw [catchupOutcome_caught hcaught]
        exact hturn
      · rw [if_neg hcaught] at hturn
        rw [catchupOutcome_behind hcaught]
        have hwaited : (first : Int) * interval + interval = (first + 1 : Nat) * interval := by
          rw [Int.natCast_succ, Int.add_mul, Int.one_mul]
        rw [hwaited] at hturn
        have hlater : ∀ k : Nat, (k : Int) * interval ≤ timeout ↔ k < first + 1 + room :=
          fun k => by
            rw [hroom k]
            omega
        have hrest := ih (first + 1) (some (samples first)) hlater (Nat.lt_of_succ_lt_succ hfuel)
        exact ⟨hturn.1.trans hrest.1, hturn.2.trans hrest.2⟩

/-! ## The wait -/

theorem exists_room {timeout interval : Int} (htimeout : 0 ≤ timeout) (hinterval : 1 ≤ interval) :
    ∃ room : Nat, (room : Int) = timeout / interval + 1 ∧ 0 < room ∧
      ∀ k : Nat, (k : Int) * interval ≤ timeout ↔ k < 0 + room := by
  have hfull : 0 ≤ timeout / interval := Int.ediv_nonneg htimeout (by omega)
  have hroom : ((timeout / interval + 1).toNat : Int) = timeout / interval + 1 :=
    Int.toNat_of_nonneg (by omega)
  refine ⟨(timeout / interval + 1).toNat, hroom, by omega, fun k => ?_⟩
  rw [← Int.le_ediv_iff_mul_le (by omega)]
  omega

theorem waitForCatchup_exact (node : Node) (referenceRpc : String)
    (maxLag timeout interval : Int) (samples : Nat → Sample) (htimeout : 0 ≤ timeout)
    (hinterval : 1 ≤ interval) :
    ∃ result taken,
      (∀ fuel : Nat, timeout / interval + 1 < fuel →
        (catchupRun node referenceRpc maxLag timeout interval samples fuel).result =
            .ok (some result) ∧
          (catchupRun node referenceRpc maxLag timeout interval samples fuel).final = taken) ∧
      (taken : Int) ≤ timeout / interval + 1 ∧
      (result.caughtUp = true ↔
        ∃ k : Nat, k * interval ≤ timeout ∧ (samples k).CaughtUp maxLag) ∧
      (result.caughtUp = true → ∃ k : Nat,
        k * interval ≤ timeout ∧ (samples k).CaughtUp maxLag ∧
          (∀ j < k, ¬ (samples j).CaughtUp maxLag) ∧
          result.waited = k * interval ∧ result.last = some (samples k)) ∧
      (result.caughtUp = false →
        1 ≤ taken ∧ result.last = some (samples (taken - 1))) := by
  obtain ⟨room, hroom, hpos, hlt⟩ := exists_room htimeout hinterval
  let outcome := catchupOutcome maxLag interval samples 0 room none
  refine ⟨outcome.1, outcome.2, fun fuel hfuel => ?_, ?_⟩
  · have hrun := exec_catchupWhile node referenceRpc maxLag samples 0 none hlt
      (by omega : room < fuel)
    rw [Int.natCast_zero, Int.zero_mul] at hrun
    exact hrun
  rw [← hroom]
  cases hfound : (List.range' 0 room).find? fun k => hasCaughtUp maxLag (samples k) with
  | some k =>
      obtain ⟨hcaught, hmem, hfirst⟩ := List.find?_range'_eq_some.mp hfound
      have houtcome : outcome =
          ({ caughtUp := true, waited := k * interval, last := some (samples k) }, k + 1) := by
        simp only [outcome, catchupOutcome, hfound]
      have hk : k < 0 + room := (List.mem_range'_1.mp hmem).2
      rw [houtcome]
      refine ⟨by omega, ?_, fun _ => ?_, fun h => by cases h⟩
      · exact ⟨fun _ => ⟨k, (hlt k).mpr hk, hasCaughtUp_iff.mp hcaught⟩, fun _ => rfl⟩
      · refine ⟨k, (hlt k).mpr hk, hasCaughtUp_iff.mp hcaught, fun j hj hj' => ?_, rfl, rfl⟩
        have hbehind := hfirst j (Nat.zero_le j) hj
        rw [hasCaughtUp_iff.mpr hj'] at hbehind
        cases hbehind
  | none =>
      have hnever := List.find?_range'_eq_none.mp hfound
      have houtcome : outcome =
          ({ caughtUp := false
             waited := (0 + room : Nat) * interval
             last := if room = 0 then none else some (samples (0 + room - 1)) }, 0 + room) := by
        simp only [outcome, catchupOutcome, hfound]
      rw [houtcome]
      refine ⟨by omega, ⟨fun h => (by cases h), ?_⟩, fun h => (by cases h), fun _ => ⟨by omega, ?_⟩⟩
      · rintro ⟨k, hk, hcaught⟩
        have hbehind := hnever k (Nat.zero_le k) ((hlt k).mp hk)
        rw [hasCaughtUp_iff.mpr hcaught] at hbehind
        cases hbehind
      · exact if_neg (by omega)

/-- A lag that closes just before the third sample. -/
def closing (k : Nat) : Sample := { healthy := some true, lag := some (if k < 2 then 9 else 1) }

def closingNode : Node := { name := "rpc-9", role := .rpc, host := "10.0.0.9" }

theorem waitForCatchup_exact_closing :
    (0 : Int) ≤ 10 ∧ (1 : Int) ≤ 5 ∧ ∃ result,
      (catchupRun closingNode "https://ref" 2 10 5 closing 4).result = .ok (some result) ∧
        result.caughtUp = true := by
  obtain ⟨result, taken, hrun, -, hcaught, -⟩ :=
    waitForCatchup_exact closingNode "https://ref" 2 10 5 closing (by decide) (by decide)
  refine ⟨by decide, by decide, result, (hrun 4 (by decide)).1, hcaught.mpr ?_⟩
  exact ⟨2, by decide, rfl, 1, rfl, by decide⟩

end Solfleet
