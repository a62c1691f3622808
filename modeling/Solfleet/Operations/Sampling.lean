import Solfleet.Operations.CatchingUp
import Solfleet.Orchestration.Announced
import Solfleet.Failover.EndToEnd

/-! # Sampling a node over JSON-RPC

The sampler that a wait polls with, on endpoints that answer anything at all. It asks less than
the probe does and reads the same answers, so a node that a wait accepts is one that the failover
loop serves.
-/

namespace Solfleet

open Interaction Program

namespace Probe

/-! ## The sampler -/

/-- What the sampler finds; `null` is `None`. -/
structure FoundSample where
  healthy : Option Bool := none
  nodeSlot : Json := .null
  refSlot : Json := .null
  lag : Option PyNumber := none

/-- The calls to the node itself. What they found before an error stays. -/
def sampleNode (ask : Method → Response) (out : FoundSample) : Except Exn FoundSample :=
  guarded (health (ask .getHealth)) (fun _ => out) fun healthy =>
  let out := { out with healthy := some healthy }
  guarded (rpcCall .getSlot (ask .getSlot)) (fun _ => out) fun nodeSlot =>
  let out := { out with nodeSlot }
  guarded (reading (slotLag out.refSlot nodeSlot)) (fun _ => out) fun lag =>
  .ok { out with lag }

/-- An error of the reference leaves its slot unknown. -/
def defaultSampler (reference ask : Method → Response) (node : Node) : Except Exn FoundSample := do
  let refSlot ← guarded (rpcCall .getSlot (reference .getSlot)) (fun _ => Json.null) .ok
  let out : FoundSample := { refSlot }
  if Text.truthy node.rpcUrl = false then .ok out else sampleNode ask out

/-- A sample as the operations read it: a number that is no integer is left out. -/
def FoundSample.record (found : FoundSample) : Sample where
  healthy := found.healthy
  nodeSlot := intOf found.nodeSlot
  refSlot := intOf found.refSlot
  lag :=
    match found.lag with
    | some (.int n) => some n
    | _ => none

/-! ## What a sample tells -/

structure KeepsUp (reference ask : Method → Response) (node : Node) (maxLag : Int) : Prop where
  url : Text.truthy node.rpcUrl = true
  health : (ask .getHealth).result? = some (.str "ok")
  lag : ∃ slot r, (ask .getSlot).result? = some (.int slot) ∧
    (reference .getSlot).result? = some (.int r) ∧ max 0 (r - slot) ≤ maxLag

def TameSample (reference ask : Method → Response) (node : Node) : Prop :=
  (reference .getSlot).WellFormed ∧
    (Text.truthy node.rpcUrl = true → (ask .getHealth).WellFormed ∧
      (¬ (ask .getHealth).Failed → (ask .getSlot).WellFormed ∧
        ∀ slot, (ask .getSlot).result? = some slot →
          Comparable ((reference .getSlot).result?.getD .null) slot))

section Sample

variable {reference ask : Method → Response} {node : Node} {found : FoundSample}

theorem sampled_reference_iff {refSlot : Json} :
    guarded (rpcCall .getSlot (reference .getSlot)) (fun _ => Json.null) .ok = .ok refSlot ↔
      (reference .getSlot).WellFormed ∧
        refSlot = (reference .getSlot).result?.getD .null := by
  rw [guarded_eq_ok_iff]
  have hcalm : Calm (rpcCall .getSlot (reference .getSlot)) ↔ _ := calm_rpcCall_iff .getSlot
  cases hcall : rpcCall .getSlot (reference .getSlot) with
  | ok value =>
      rw [hcall] at hcalm
      have hresult := rpcCall_eq_ok_iff.mp hcall
      simp [hresult, ← hcalm, eq_comm]
  | error e =>
      rw [hcall] at hcalm
      have hnone : (reference .getSlot).result? = none := by
        cases hresult : (reference .getSlot).result? with
        | none => rfl
        | some value =>
            rw [rpcCall_eq_ok_iff.mpr hresult] at hcall
            cases hcall
      cases e with
      | caught e => simp [hnone, ← hcalm, eq_comm]
      | other e => simp [← hcalm]

theorem defaultSampler_eq_ok_iff : defaultSampler reference ask node = .ok found ↔
    (reference .getSlot).WellFormed ∧
      (if Text.truthy node.rpcUrl = false then
        .ok { refSlot := (reference .getSlot).result?.getD .null }
      else sampleNode ask { refSlot := (reference .getSlot).result?.getD .null }) =
        Except.ok found := by
  unfold defaultSampler
  rw [except_bind_eq_ok_iff]
  simp only [sampled_reference_iff]
  constructor
  · rintro ⟨refSlot, ⟨hwell, rfl⟩, h⟩
    exact ⟨hwell, h⟩
  · rintro ⟨hwell, h⟩
    exact ⟨_, ⟨hwell, rfl⟩, h⟩

theorem defaultSampler_returns_iff :
    (∃ found, defaultSampler reference ask node = .ok found) ↔ TameSample reference ask node := by
  simp only [defaultSampler_eq_ok_iff, exists_and_left, TameSample]
  refine and_congr_right fun _ => ?_
  by_cases hurl : Text.truthy node.rpcUrl = true
  · simp only [hurl, Bool.true_eq_false, if_false, true_implies, sampleNode, guarded_returns_iff,
      calm_health_iff, calm_rpcCall_iff, calm_reading_iff, slotLag_returns_iff, rpcCall_eq_ok_iff]
    refine and_congr_right fun hwell => ?_
    rw [← health_returns_iff hwell, exists_imp]
    simp
  · simp [hurl]

theorem sampleNode_reads {refSlot : Json} {lag : PyNumber}
    (h : sampleNode ask { refSlot } = .ok found) :
    (found.healthy = some true ∧ found.lag = some lag) ↔
      health (ask .getHealth) = .ok true ∧ ∃ slot, rpcCall .getSlot (ask .getSlot) = .ok slot ∧
        slotLag refSlot slot = .ok (some lag) := by
  unfold sampleNode at h
  rcases guarded_eq_ok_iff.mp h with ⟨healthy, hread, h⟩ | ⟨e, hread, rfl⟩
  · rcases guarded_eq_ok_iff.mp h with ⟨slot, hslot, h⟩ | ⟨e, hslot, rfl⟩
    · rcases guarded_eq_ok_iff.mp h with ⟨known, hdiff, h⟩ | ⟨e, hdiff, rfl⟩
      · cases h
        have hdiff := reading_eq_ok_iff.mp hdiff
        simp [hread, hslot, hdiff]
      · cases hsub : slotLag refSlot slot <;> rw [hsub, reading] at hdiff <;> cases hdiff
    · simp [hread, hslot]
  · simp [hread]

theorem FoundSample.record_lag_iff {lag : Int} :
    found.record.lag = some lag ↔ found.lag = some (.int lag) := by
  unfold FoundSample.record
  cases hlag : found.lag with
  | none => simp
  | some known => cases known <;> simp

theorem caughtUp_iff_keepsUp (h : defaultSampler reference ask node = .ok found)
    (href : IsSlot ((reference .getSlot).result?.getD .null))
    (hslot : ∀ slot, (ask .getSlot).result? = some slot → IsSlot slot) (maxLag : Int) :
    found.record.CaughtUp maxLag ↔ KeepsUp reference ask node maxLag := by
  rcases defaultSampler_eq_ok_iff.mp h with ⟨-, hfound⟩
  by_cases hurl : Text.truthy node.rpcUrl = true
  · rw [if_neg (by rw [hurl]; decide)] at hfound
    constructor
    · rintro ⟨hhealthy, lag, hlag, hle⟩
      rcases (sampleNode_reads hfound).mp ⟨hhealthy, FoundSample.record_lag_iff.mp hlag⟩ with
        ⟨hhealth, slot, hcall, hdiff⟩
      have hread := rpcCall_eq_ok_iff.mp hcall
      rcases (slotLag_eq_iff href (hslot slot hread)).mp hdiff with ⟨r, s, hr, rfl, heq⟩
      cases heq
      refine ⟨hurl, health_true_iff.mp hhealth, s, r, hread, ?_, hle⟩
      cases hresult : (reference .getSlot).result? with
      | none =>
          rw [hresult] at hr
          cases hr
      | some value =>
          rw [hresult] at hr
          exact congrArg some hr
    · rintro ⟨-, hhealth, slot, r, hread, hr, hle⟩
      have hdiff : slotLag ((reference .getSlot).result?.getD .null) (.int slot) =
          .ok (some (.int (max 0 (r - slot)))) :=
        (slotLag_eq_iff href (hslot _ hread)).mpr ⟨r, slot, by rw [hr]; rfl, rfl, rfl⟩
      rcases (sampleNode_reads hfound).mpr
        ⟨health_true_iff.mpr hhealth, _, rpcCall_eq_ok_iff.mpr hread, hdiff⟩ with ⟨hhealthy, hlag⟩
      exact ⟨hhealthy, _, FoundSample.record_lag_iff.mpr hlag, hle⟩
  · rw [if_pos (Bool.eq_false_iff.mpr hurl)] at hfound
    cases hfound
    refine iff_of_false (fun hcaught => ?_) fun hkeeps => hurl hkeeps.url
    cases hcaught.1

/-- What a wait accepts, the failover loop serves: it asks more, but nothing that speaks against
the node. -/
theorem KeepsUp.passing {w : World} {name : String} {cluster : Cluster} {maxLag : Int}
    (h : KeepsUp (w.asReference name cluster) (w.asNode name node) node maxLag) {ew : EjectWhen}
    (hlimit : ∀ limit, ew.slotLag = some limit → maxLag ≤ limit)
    (hvoting : ew.delinquent = true → ¬ TellsDelinquent (w.asReference name cluster) node) :
    Passing w name cluster node ew where
  healthy _ := ⟨h.url, h.health⟩
  caughtUp limit slot r hew htells hr := by
    rcases h.lag with ⟨slot', r', hslot', hr', hle⟩
    rw [htells.slot] at hslot'
    rw [hr] at hr'
    cases hslot'
    cases hr'
    exact hle.trans (hlimit limit hew)
  voting := hvoting

end Sample

def poll (worlds : Nat → World) (name : String) (cluster : Cluster) (node : Node) (k : Nat) :
    Except Exn Sample :=
  match defaultSampler ((worlds k).asReference name cluster) ((worlds k).asNode name node) node with
  | .ok found => .ok found.record
  | .error e => .error e

end Probe

/-! ## The wait -/

def polledFrom (polls : Nat → Except Exn Sample) : Handler opsSignature Exn Nat
  | .sample .., taken => (polls taken, taken + 1)
  | .sleep _, taken => (.ok (), taken)
  | .runner _, taken => (.ok ⟨1, "", ""⟩, taken)
  | .mkdtemp stem, taken => (.ok stem, taken)
  | .leader .., taken => (.ok none, taken)
  | .audit _, taken => (.ok (), taken)

/-- How a wait ends with poll `k`: one that raises, one that shows the node caught up, or the one
behind which the timeout leaves no room. -/
def WaitEnds (polls : Nat → Except Exn Sample) (maxLag timeout interval : Int) (k : Nat)
    (result : Except Exn (Option Catchup)) : Prop :=
  (k * interval ≤ timeout ∧ ∃ e, polls k = .error e ∧ result = .error e) ∨
    (k * interval ≤ timeout ∧ ∃ sample, polls k = .ok sample ∧ sample.CaughtUp maxLag ∧
      result = .ok (some { caughtUp := true, waited := k * interval, last := some sample })) ∨
    (timeout < k * interval ∧ ∃ last, result =
      .ok (some { caughtUp := false, waited := k * interval, last }))

section Wait

variable {node : Node} {referenceRpc : String} {maxLag timeout interval : Int}
  {polls : Nat → Except Exn Sample}

variable (node referenceRpc maxLag polls) in
theorem exec_polled (first : Nat) {room fuel : Nat} (last : Option Sample)
    (hroom : ∀ k : Nat, k * interval ≤ timeout ↔ k < first + room) (hfuel : room < fuel) :
    ∃ k, (∀ j, first ≤ j → j < k → ∃ sample, polls j = .ok sample ∧ ¬ sample.CaughtUp maxLag) ∧
      WaitEnds polls maxLag timeout interval k
        (exec (polledFrom polls) (catchupWhile node referenceRpc maxLag timeout interval fuel
          (first * interval) last) first).result := by
  induction room generalizing first fuel last with
  | zero =>
      rcases Nat.exists_eq_succ_of_ne_zero (Nat.ne_of_gt hfuel) with ⟨fuel, rfl⟩
      have hstop : ¬ (first : Int) * interval ≤ timeout := fun h =>
        Nat.lt_irrefl first ((hroom first).mp h)
      refine ⟨first, fun j hj hlt => absurd hlt (Nat.not_lt.mpr hj), .inr (.inr ⟨?_, last, ?_⟩)⟩
      · exact not_le.mp hstop
      · rw [catchupWhile, if_neg hstop]
        rfl
  | succ room ih =>
      rcases Nat.exists_eq_succ_of_ne_zero (Nat.ne_of_gt (Nat.zero_lt_of_lt hfuel)) with
        ⟨fuel, rfl⟩
      have hgo : (first : Int) * interval ≤ timeout := (hroom first).mpr (by omega)
      have hnone : ∀ j, first ≤ j → j < first →
          ∃ sample, polls j = .ok sample ∧ ¬ sample.CaughtUp maxLag :=
        fun j hj hlt => absurd hlt (Nat.not_lt.mpr hj)
      rw [catchupWhile, if_pos hgo]
      cases hpoll : polls first with
      | error e =>
          have hraises : (exec (polledFrom polls)
              (perform (S := opsSignature) (.sample node referenceRpc)) first).result =
                .error e := hpoll
          rw [exec_bind_error hraises]
          exact ⟨first, hnone, .inl ⟨hgo, e, hpoll, rfl⟩⟩
      | ok sample =>
          have hsample : (exec (polledFrom polls)
              (perform (S := opsSignature) (.sample node referenceRpc)) first).result =
                .ok sample := hpoll
          rw [exec_bind_ok hsample]
          by_cases hcaught : hasCaughtUp maxLag sample = true
          · rw [if_pos hcaught]
            exact ⟨first, hnone,
              .inr (.inl ⟨hgo, sample, hpoll, hasCaughtUp_iff.mp hcaught, rfl⟩)⟩
          · rw [if_neg hcaught]
            have hslept : (exec (polledFrom polls) (perform (S := opsSignature) (.sleep interval))
                (first + 1)).result = .ok () := rfl
            have hwaited : (first : Int) * interval + interval = (first + 1 : Nat) * interval := by
              rw [Int.natCast_succ, Int.add_mul, Int.one_mul]
            have hlater : ∀ k : Nat, (k : Int) * interval ≤ timeout ↔ k < first + 1 + room :=
              fun k => by
                rw [hroom k]
                omega
            rcases ih (first + 1) (some sample) hlater (Nat.lt_of_succ_lt_succ hfuel) with
              ⟨k, hbefore, hends⟩
            refine ⟨k, fun j hj hlt => ?_, ?_⟩
            · rcases Nat.eq_or_lt_of_le hj with rfl | hj
              · exact ⟨sample, hpoll, fun h => hcaught (hasCaughtUp_iff.mpr h)⟩
              · exact hbefore j hj hlt
            · let after : Unit → _ := fun _ => catchupWhile node referenceRpc maxLag timeout interval
                fuel (first * interval + interval) (some sample)
              have hrest := @exec_bind_ok _ _ _ _ _ (polledFrom polls) _ after (first + 1) _ hslept
              simp only [after] at hrest
              rw [hwaited] at hrest
              have hresult := congrArg Execution.result hrest
              rw [hwaited]
              exact hresult.symm ▸ hends

end Wait

/-! ## From answers to the wait -/

def WholePoll (w : Probe.World) (name : String) (cluster : Cluster) (node : Node) : Prop :=
  Probe.IsSlot (w.referenceSlot name cluster) ∧
    ∀ slot, (w.asNode name node .getSlot).result? = some slot → Probe.IsSlot slot

abbrev KeepsUpIn (w : Probe.World) (name : String) (cluster : Cluster) (node : Node)
    (maxLag : Int) : Prop :=
  Probe.KeepsUp (w.asReference name cluster) (w.asNode name node) node maxLag

abbrev TameIn (w : Probe.World) (name : String) (cluster : Cluster) (node : Node) : Prop :=
  Probe.TameSample (w.asReference name cluster) (w.asNode name node) node

section Poll

variable {worlds : Nat → Probe.World} {name : String} {cluster : Cluster} {node : Node}

theorem poll_ok {k : Nat} {sample : Sample} (whole : WholePoll (worlds k) name cluster node)
    (h : Probe.poll worlds name cluster node k = .ok sample) (maxLag : Int) :
    TameIn (worlds k) name cluster node ∧
      (sample.CaughtUp maxLag ↔ KeepsUpIn (worlds k) name cluster node maxLag) := by
  unfold Probe.poll at h
  split at h
  · rename_i found hfound
    cases h
    exact ⟨Probe.defaultSampler_returns_iff.mp ⟨found, hfound⟩,
      Probe.caughtUp_iff_keepsUp hfound whole.1 whole.2 maxLag⟩
  · cases h

theorem poll_error {k : Nat} {e : Exn} (h : Probe.poll worlds name cluster node k = .error e) :
    ¬ TameIn (worlds k) name cluster node := by
  intro htame
  rcases Probe.defaultSampler_returns_iff.mpr htame with ⟨found, hfound⟩
  unfold Probe.poll at h
  rw [hfound] at h
  cases h

end Poll

theorem exists_polls (timeout : Int) {interval : Int} (hinterval : 1 ≤ interval) :
    ∃ room : Nat, (room : Int) = max 0 (timeout / interval + 1) ∧
      ∀ k : Nat, (k : Int) * interval ≤ timeout ↔ k < 0 + room := by
  by_cases htimeout : 0 ≤ timeout
  · rcases exists_room htimeout hinterval with ⟨room, hroom, hpos, hlt⟩
    exact ⟨room, by omega, hlt⟩
  · have hneg : timeout / interval < 0 := Int.ediv_neg_of_neg_of_pos (by omega) (by omega)
    refine ⟨0, by omega, fun k => iff_of_false ?_ (by omega)⟩
    have hk : 0 ≤ (k : Int) * interval := Int.mul_nonneg (Int.natCast_nonneg k) (by omega)
    omega

/-- A wait on endpoints that may answer anything but tell no slot that is no integer, poll by poll:
it goes on while their answers can be digested and the node does not keep up, and ends with the
first poll that is otherwise or with the timeout. -/
theorem waitForCatchup_from_answers (name : String) (cluster : Cluster) (node : Node)
    (worlds : Nat → Probe.World) (whole : ∀ k, WholePoll (worlds k) name cluster node)
    (maxLag timeout interval : Int) (hinterval : 1 ≤ interval) (fuel : Nat)
    (hfuel : max 0 (timeout / interval + 1) < fuel) :
    let run := exec (polledFrom (Probe.poll worlds name cluster node))
      (catchupWhile node cluster.referenceRpc maxLag timeout interval fuel 0 none) 0
    ∃ k : Nat,
      (∀ j, j < k → TameIn (worlds j) name cluster node ∧
        ¬ KeepsUpIn (worlds j) name cluster node maxLag) ∧
      ((k * interval ≤ timeout ∧ ¬ TameIn (worlds k) name cluster node ∧
          ∃ e, run.result = .error e) ∨
        (k * interval ≤ timeout ∧ KeepsUpIn (worlds k) name cluster node maxLag ∧
          ∃ last, run.result = .ok (some { caughtUp := true, waited := k * interval, last })) ∨
        (timeout < k * interval ∧
          ∃ last, run.result = .ok (some { caughtUp := false, waited := k * interval, last }))) := by
  rcases exists_polls timeout hinterval with ⟨room, hroom, hlt⟩
  rcases exec_polled node cluster.referenceRpc maxLag (Probe.poll worlds name cluster node) 0
    none hlt (by omega : room < fuel) with ⟨k, hbefore, hends⟩
  rw [Int.natCast_zero, Int.zero_mul] at hends
  refine ⟨k, fun j hj => ?_, ?_⟩
  · rcases hbefore j (Nat.zero_le j) hj with ⟨sample, hsample, hbehind⟩
    rcases poll_ok (whole j) hsample maxLag with ⟨htame, hiff⟩
    exact ⟨htame, fun h => hbehind (hiff.mpr h)⟩
  · rcases hends with ⟨hle, e, hpoll, hresult⟩ | ⟨hle, sample, hpoll, hcaught, hresult⟩ |
      ⟨hover, last, hresult⟩
    · exact .inl ⟨hle, poll_error hpoll, e, hresult⟩
    · exact .inr (.inl ⟨hle, (poll_ok (whole k) hpoll maxLag).2.mp hcaught, _, hresult⟩)
    · exact .inr (.inr ⟨hover, last, hresult⟩)

/-- A node that answers nothing at first, then is behind, then at the slot of its reference. -/
def recovering (k : Nat) : Probe.World := fun _ asker method =>
  match asker, method with
  | .node .., .getHealth =>
      if k = 0 then .transportError "connection refused" else Probe.healthyEndpoint .getHealth
  | .node .., .getSlot => Probe.answerWith (.int (if k < 2 then 900 else 1000))
  | _, method => Probe.healthyEndpoint method

theorem recovering_whole (k : Nat) :
    WholePoll (recovering k) "testnet" builtCluster builtNode := by
  refine ⟨trivial, fun slot hslot => ?_⟩
  have hslot : (Probe.answerWith (.int (if k < 2 then 900 else 1000))).result? = some slot := hslot
  cases hslot
  trivial

theorem waitForCatchup_from_answers_recovering :
    let run := exec (polledFrom (Probe.poll recovering "testnet" builtCluster builtNode))
      (catchupWhile builtNode builtCluster.referenceRpc 2 600 5 200 0 none) 0
    ((run.result.toOption.join).map fun catchup => (catchup.caughtUp, catchup.waited)) =
        some (true, 10) ∧
      (∀ j, j < 2 → TameIn (recovering j) "testnet" builtCluster builtNode ∧
        ¬ KeepsUpIn (recovering j) "testnet" builtCluster builtNode 2) ∧
      KeepsUpIn (recovering 2) "testnet" builtCluster builtNode 2 := by
  intro run
  have hread : ((run.result.toOption.join).map fun catchup =>
      (catchup.caughtUp, catchup.waited)) = some (true, 10) := by decide +kernel
  refine ⟨hread, ?_⟩
  rcases waitForCatchup_from_answers "testnet" builtCluster builtNode recovering recovering_whole
    2 600 5 (by decide) 200 (by decide) with ⟨k, hbefore, hends⟩
  have hresult : ∀ catchup, run.result = .ok (some catchup) →
      catchup.caughtUp = true ∧ catchup.waited = 10 := by
    intro catchup hrun
    rw [hrun] at hread
    simpa [Except.toOption] using hread
  rcases hends with ⟨-, -, e, herror⟩ | ⟨-, hkeeps, last, hcaught⟩ | ⟨-, last, hover⟩
  · have herror : run.result = .error e := herror
    rw [herror] at hread
    cases hread
  · have hk : k = 2 := by
      have hwaited := (hresult _ hcaught).2
      simp only at hwaited
      omega
    rw [hk] at hbefore hkeeps
    exact ⟨hbefore, hkeeps⟩
  · cases (hresult _ hover).1

/-! ## From success to service -/

def SampledIn (w : Probe.World) (name : String) (cluster : Cluster) (node : Node)
    (sample : Sample) : Prop :=
  ∃ found, Probe.defaultSampler (w.asReference name cluster) (w.asNode name node) node =
    .ok found ∧ found.record = sample

def CycledWell (fleet : Fleet) (nodeName : String) (policy : Policy) (audit : Bool) (maxLag : Int)
    (trace : List OpsEvent) : Prop :=
  (∃ confirm decision beforeSlot cycle catchup afterService leader,
    Runs (restartNode fleet nodeName confirm policy audit maxLag) trace
      (.ok (.executed decision beforeSlot cycle catchup afterService leader true))) ∨
    ∃ targetVersion confirm forceBuild outcome,
      Runs (executeUpgrade fleet nodeName targetVersion confirm policy audit maxLag forceBuild)
        trace (.ok (.executed outcome)) ∧ outcome.succeeded = true

theorem seesCatchup_of_cycledWell {fleet : Fleet} {nodeName : String} {policy : Policy}
    {audit : Bool} {maxLag : Int} {trace : List OpsEvent}
    (h : CycledWell fleet nodeName policy audit maxLag trace) :
    ∃ name cluster node, fleet.findNode nodeName = some (name, cluster, node) ∧
      SeesCatchup node cluster.referenceRpc maxLag trace := by
  rcases h with ⟨_, _, _, _, _, _, _, hrun⟩ | ⟨_, _, _, _, hrun, hsucceeded⟩
  · rcases restart_succeeded_iff hrun with ⟨name, cluster, node, hfind, hiff, -⟩
    exact ⟨name, cluster, node, hfind, (hiff.mp rfl).2⟩
  · rcases upgrade_succeeded_iff hrun with ⟨name, cluster, node, hfind, hiff, -⟩
    exact ⟨name, cluster, node, hfind, (hiff.mp hsucceeded).2.2.1⟩

/-- A restart or an upgrade that reports success, whatever its hosts answered, sampled its
node; and where the last sample was read, a pool with a lag limit of `maxLag` or more does not
eject it. -/
theorem success_serves (fleet : Fleet) (nodeName : String) (policy : Policy) (audit : Bool)
    (maxLag : Int) (trace : List OpsEvent)
    (h : CycledWell fleet nodeName policy audit maxLag trace) :
    ∃ name cluster node, fleet.findNode nodeName = some (name, cluster, node) ∧
      ∃ sample : Sample, LastAnswer trace (.sample node cluster.referenceRpc) sample ∧
        ∀ w, WholePoll w name cluster node → SampledIn w name cluster node sample →
          ∀ ew : EjectWhen, (∀ limit, ew.slotLag = some limit → maxLag ≤ limit) →
            (ew.delinquent = true → ¬ Probe.TellsDelinquent (w.asReference name cluster) node) →
              Probe.Passing w name cluster node ew ∧
                ∀ pyStr status, Probe.ProbedAt w name cluster node status →
                  (shouldEject (some (status.record pyStr)) ew).1 = false := by
  rcases seesCatchup_of_cycledWell h with ⟨name, cluster, node, hfind, sample, hlast, hcaught⟩
  refine ⟨name, cluster, node, hfind, sample, hlast, ?_⟩
  rintro w ⟨href, hslot⟩ ⟨found, hfound, rfl⟩ ew hlimit hvoting
  have hkeeps := (Probe.caughtUp_iff_keepsUp hfound href hslot maxLag).mp
    (hasCaughtUp_iff.mp hcaught)
  have hpassing := hkeeps.passing hlimit hvoting
  refine ⟨hpassing, fun pyStr status hprobed => ?_⟩
  rw [shouldEject_eq_false_iff]
  exact (Probe.spared_iff_passing hprobed (Fleet.findNode_spec hfind).2.1 href hslot ew).mpr hpassing

/-- A host on which every command succeeds. Its node is behind when it is first sampled. -/
def sampledHost : Handler opsSignature Exn Nat
  | .runner (.ssh _ (.systemctlShow _)), s => (.ok ⟨0, "ActiveState=active", ""⟩, s)
  | .runner _, s => (.ok ⟨0, "abc 3.0.1", ""⟩, s)
  | .mkdtemp _, s => (.ok "/tmp/solfleet-0", s)
  | .sample .., s =>
      (.ok { healthy := some true
             nodeSlot := some (if s = 0 then 700 else 1000)
             refSlot := some 1000
             lag := some (if s = 0 then 300 else 0) }, s + 1)
  | .leader .., s => (.ok none, s)
  | .sleep _, s => (.ok (), s)
  | .audit _, s => (.ok (), s)

def healthyWorld : Probe.World := fun _ _ => Probe.healthyEndpoint

theorem healthyWorld_whole : WholePoll healthyWorld "testnet" builtCluster builtNode := by
  refine ⟨trivial, fun slot hslot => ?_⟩
  have hslot : (Probe.healthyEndpoint .getSlot).result? = some slot := hslot
  cases hslot
  trivial

theorem success_serves_restart :
    let restart := exec sampledHost (restartNode builtFleet.fleet "rpc-1" true {} true 2) 0
    LastAnswer restart.trace (.sample builtNode builtCluster.referenceRpc)
        ⟨some true, some 1000, some 1000, some 0⟩ ∧
      Probe.Passing healthyWorld "testnet" builtCluster builtNode
        { unhealthy := true, slotLag := some 150, delinquent := false } := by
  intro restart
  have hreport : restartReport restart.result = some (some "active", true) := by
    decide +kernel
  rcases exists_executed hreport with
    ⟨decision, beforeSlot, cycle, catchup, afterService, leader, hresult, -⟩
  have hrun := hresult ▸
    exec_runs sampledHost (restartNode builtFleet.fleet "rpc-1" true {} true 2) 0
  have hwell : CycledWell builtFleet.fleet "rpc-1" {} true 2 restart.trace :=
    .inl ⟨true, _, _, _, _, _, _, hrun⟩
  rcases success_serves builtFleet.fleet "rpc-1" {} true 2 _ hwell with
    ⟨name, cluster, node, hfind, sample, hlast, hserves⟩
  cases builtFleet_findNode.symm.trans hfind
  rcases seesCatchup_of_cycledWell hwell with ⟨name, cluster, node, hfind, sample', hlast', hcaught⟩
  cases builtFleet_findNode.symm.trans hfind
  rw [hlast'.unique hlast] at hcaught
  rcases exec_answered sampledHost _ 0 _ hlast.mem with ⟨taken, hanswer⟩
  have hsample : sample = ⟨some true, some (if taken = 0 then 700 else 1000), some 1000,
      some (if taken = 0 then 300 else 0)⟩ := Except.ok.inj hanswer
  -- the sample before the restart is not the one that was accepted
  have htaken : taken ≠ 0 := by
    rintro rfl
    rw [hsample] at hcaught
    cases hcaught
  rw [if_neg htaken, if_neg htaken] at hsample
  subst hsample
  refine ⟨hlast, (hserves healthyWorld healthyWorld_whole ⟨_, rfl, rfl⟩ _ (fun limit hlimit => ?_)
    fun h => by cases h).1⟩
  cases hlimit
  decide

end Solfleet
