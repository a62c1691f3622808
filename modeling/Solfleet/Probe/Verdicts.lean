import Solfleet.Failover.Restoring
import Solfleet.Probe.Isolation
import Solfleet.StatusTable
import Solfleet.Validate

/-! # Four verdicts on one status

The status table, the exit code, the failover loop and the validation each look at a status
in their own way. A probe fills in `reachable`, `healthy` and `error` together, and on what
it fills in they agree.
-/

namespace Solfleet

namespace Probe

/-! ## What a probe leaves behind -/

/-- `max(0, reference - slot)`, both known. -/
def IsLag (referenceSlot slot : Json) (lag : PyNumber) : Prop :=
  ∃ x y difference, referenceSlot.number? = some x ∧ slot.number? = some y ∧
    x.sub? y = some difference ∧ lag = difference.atLeastZero

theorem IsLag.slot_ne_null {referenceSlot slot : Json} {lag : PyNumber}
    (h : IsLag referenceSlot slot lag) : slot ≠ .null := by
  obtain ⟨_, _, _, _, hslot, _⟩ := h
  rintro rfl
  cases hslot

theorem slotLag_isLag {referenceSlot slot : Json} {lag : PyNumber}
    (h : slotLag referenceSlot slot = .ok (some lag)) : IsLag referenceSlot slot lag := by
  unfold slotLag at h
  split at h
  · cases h
  · cases h
  · cases hx : referenceSlot.number? with
    | none =>
        rw [hx] at h
        cases h
    | some x =>
        cases hy : slot.number? with
        | none =>
            rw [hx, hy] at h
            cases h
        | some y =>
            rw [hx, hy] at h
            cases hsub : x.sub? y with
            | none =>
                simp only [hsub] at h
                cases h
            | some difference =>
                simp only [hsub] at h
                cases h
                exact ⟨x, y, difference, hx, hy, hsub, rfl⟩

/-- What a probe of a node with a URL guarantees of its status. -/
structure Status.Sound (referenceSlot : Json) (pyStr : Json → String) (status : Status) :
    Prop where
  reachable : status.reachable = true ↔ status.healthy.isSome = true
  error : status.reachable = false →
    ∃ e, status.error = some e ∧ e.text pyStr ≠ ""
  lag : ∀ lag, status.slotLag = some lag →
    status.slot ≠ .null ∧ IsLag referenceSlot status.slot lag

theorem unreachable_text_ne_empty (pyStr : Json → String) (e : Caught) :
    (StatusError.unreachable e).text pyStr ≠ "" := by
  intro h
  have hlength := congrArg String.length h
  rw [StatusError.text, String.length_append] at hlength
  have hprefix : "unreachable: ".length = 13 := by decide
  have hempty : "".length = 0 := by decide
  omega

theorem startStatus_fresh (clusterName : String) (node : Node)
    (votes : Option (Dict String Vote)) :
    (startStatus clusterName node votes).reachable = false ∧
      (startStatus clusterName node votes).healthy = none ∧
      (startStatus clusterName node votes).slotLag = none := by
  unfold startStatus
  cases voteOf node votes <;> exact ⟨rfl, rfl, rfl⟩

theorem probeNode_sound {ask : Method → Response} {clusterName : String} {node : Node}
    {referenceSlot : Json} {votes : Option (Dict String Vote)} {status : Status}
    (pyStr : Json → String) (h : probeNode ask clusterName node referenceSlot votes = .ok status)
    (hurl : Text.truthy node.rpcUrl = true) : status.Sound referenceSlot pyStr := by
  obtain ⟨hreachable, hhealthy, hlag⟩ := startStatus_fresh clusterName node votes
  rcases probeNode_cases h with ⟨hnone, -⟩ | ⟨-, ⟨e, rfl⟩ | ⟨healthy, version, slot, e, rfl⟩ |
    ⟨healthy, version, slot, lag, hread, rfl⟩⟩
  · rw [hurl] at hnone
    cases hnone
  · refine ⟨?_, fun _ => ⟨_, rfl, ?_⟩, fun lag hl => ?_⟩
    · dsimp only
      rw [hreachable, hhealthy]
      decide
    · exact unreachable_text_ne_empty pyStr e
    · rw [hlag] at hl
      cases hl
  · refine ⟨?_, fun hr => ?_, fun lag hl => ?_⟩
    · exact ⟨fun _ => rfl, fun _ => rfl⟩
    · cases hr
    · rw [hlag] at hl
      cases hl
  · refine ⟨?_, fun hr => ?_, fun lag' hl => ?_⟩
    · exact ⟨fun _ => rfl, fun _ => rfl⟩
    · cases hr
    · have hl : lag = some lag' := hl
      rw [hl] at hread
      have hislag := slotLag_isLag hread
      exact ⟨hislag.slot_ne_null, hislag⟩

/-! ## The record -/

def intOf : Json → Option Int
  | .int n => some n
  | _ => none

/-- The status as the record declares its fields. A version that is no text and a number
that is no integer are left out; none of the verdicts below looks at one. -/
def Status.record (pyStr : Json → String) (status : Status) : NodeStatus where
  name := status.name
  cluster := status.cluster
  role := status.role
  reachable := status.reachable
  healthy := status.healthy
  version :=
    match status.version with
    | .str s => some s
    | _ => none
  slot := intOf status.slot
  slotLag :=
    match status.slotLag with
    | some (.int n) => some n
    | _ => none
  delinquent := status.delinquent
  activatedStakeSol :=
    match status.activatedStakeSol with
    | some (.finite q) => some q
    | _ => none
  voteCredits := intOf status.voteCredits
  lastVote := intOf status.lastVote
  error := status.error.map (·.text pyStr)

/-- What the verdicts rest on, in terms of the record. -/
structure Coherent (n : NodeStatus) : Prop where
  reachable : n.reachable = true ↔ n.healthy.isSome = true
  error : n.reachable = false → Text.truthy n.error = true

theorem Status.Sound.coherent {referenceSlot : Json} {pyStr : Json → String} {status : Status}
    (h : status.Sound referenceSlot pyStr) : Coherent (status.record pyStr) := by
  refine ⟨h.reachable, fun hr => ?_⟩
  obtain ⟨e, he, hne⟩ := h.error hr
  show Text.truthy (status.error.map (·.text pyStr)) = true
  rw [he, Option.map_some, Text.truthy]
  exact bne_iff_ne.mpr hne

/-! ## The verdicts -/

section Verdicts

variable {n : NodeStatus}

theorem Coherent.down_iff (h : Coherent n) : n.down = true ↔ n.healthy = none := by
  rw [NodeStatus.down, Bool.and_eq_true, Bool.not_eq_true']
  constructor
  · rintro ⟨-, hr⟩
    cases hhealthy : n.healthy with
    | none => rfl
    | some healthy =>
        have hreached := h.reachable.mpr (by rw [hhealthy]; rfl)
        rw [hr] at hreached
        cases hreached
  · intro hnone
    have hr : n.reachable = false := by
      refine Bool.eq_false_iff.mpr fun hreached => ?_
      have hsome := h.reachable.mp hreached
      rw [hnone] at hsome
      cases hsome
    exact ⟨h.error hr, hr⟩

theorem Coherent.healthCell_iff (h : Coherent n) :
    healthCell n = "ok" ↔ n.healthy = some true := by
  have hdown := h.down_iff
  unfold healthCell
  cases hhealthy : n.healthy with
  | none =>
      rw [if_pos (hdown.mpr hhealthy)]
      decide
  | some healthy =>
      rw [if_neg fun hd => by rw [hdown.mp hd] at hhealthy; cases hhealthy]
      cases healthy <;> decide

theorem Coherent.rpcCheck_iff (h : Coherent n) :
    (rpcCheck (some n)).status = .pass ↔ n.healthy = some true := by
  unfold rpcCheck
  dsimp only
  constructor
  · intro hpass
    by_contra hnot
    rw [if_neg fun hboth => hnot hboth.2] at hpass
    split at hpass <;> cases hpass
  · intro hhealthy
    rw [if_pos ⟨h.reachable.mpr (by rw [hhealthy]; rfl), hhealthy⟩]

theorem Coherent.spared_iff (h : Coherent n) (delinquent : Bool) :
    Spared { unhealthy := true, delinquent } (some n) ↔
      n.healthy = some true ∧ (delinquent = true → n.delinquent ≠ some true) := by
  constructor
  · rintro ⟨hhealthy, -, hvoting⟩
    obtain ⟨_, hs, hreached, hnot⟩ := hhealthy rfl
    cases hs
    obtain ⟨healthy, hsome⟩ := Option.isSome_iff_exists.mp (h.reachable.mp hreached)
    refine ⟨?_, hvoting⟩
    rw [hsome] at hnot ⊢
    cases healthy with
    | true => rfl
    | false => exact absurd rfl hnot
  · rintro ⟨hhealthy, hvoting⟩
    have hreached : n.reachable = true := h.reachable.mpr (by rw [hhealthy]; rfl)
    refine ⟨fun _ => ⟨n, rfl, hreached, ?_⟩, fun limit lag hlimit _ => ?_, hvoting⟩
    · rw [hhealthy]
      decide
    · cases hlimit

theorem Coherent.flagged_iff (h : Coherent n) :
    n.flagged = true ↔ ¬ (n.healthy = some true ∧ n.delinquent ≠ some true) := by
  have hdown := h.down_iff
  unfold NodeStatus.flagged
  rw [Bool.or_eq_true, Bool.or_eq_true, hdown, beq_iff_eq, beq_iff_eq]
  cases n.healthy with
  | none => simp
  | some healthy => cases healthy <;> simp

end Verdicts

theorem health_verdicts_agree (pyStr : Json → String) (ask : Method → Response)
    (clusterName : String) (node : Node) (referenceSlot : Json)
    (votes : Option (Dict String Vote)) (status : Status)
    (hurl : Text.truthy node.rpcUrl = true)
    (h : probeNode ask clusterName node referenceSlot votes = .ok status) :
    status.Sound referenceSlot pyStr ∧
      (healthCell (status.record pyStr) = "ok" ↔
        ∃ check ∈ rpcChecks node (some (status.record pyStr)), check.status = .pass) ∧
      (healthCell (status.record pyStr) = "ok" ↔
        (shouldEject (some (status.record pyStr)) { unhealthy := true }).1 = false) ∧
      ((status.record pyStr).flagged = true ↔
        (shouldEject (some (status.record pyStr))
          { unhealthy := true, delinquent := true }).1 = true) := by
  have hsound := probeNode_sound pyStr h hurl
  have hcoherent := hsound.coherent
  refine ⟨hsound, ?_, ?_, ?_⟩
  · rw [rpcChecks, if_pos hurl, hcoherent.healthCell_iff, ← hcoherent.rpcCheck_iff]
    simp
  · rw [shouldEject_eq_false_iff, hcoherent.spared_iff, hcoherent.healthCell_iff]
    simp
  · rw [hcoherent.flagged_iff, ← Bool.not_eq_false, shouldEject_eq_false_iff]
    rw [hcoherent.spared_iff]
    simp

/-- A node that answers its health call and nothing after it. -/
def faltering : Method → Response
  | .getHealth => answerWith (.str "ok")
  | _ => .transportError "timed out"

def falteringNode : Node :=
  { name := "rpc-2", role := .rpc, host := "10.0.0.12", rpcUrl := some "http://rpc-2" }

/-- A node that falters after its health call is healthy to all four. -/
theorem health_verdicts_agree_faltering :
    Text.truthy falteringNode.rpcUrl = true ∧
      ∃ status, probeNode faltering "testnet" falteringNode (.int 1000) none = .ok status ∧
        status.Sound (.int 1000) (fun _ => "") ∧
        (healthCell (status.record fun _ => "") = "ok" ↔
          ∃ check ∈ rpcChecks falteringNode (some (status.record fun _ => "")),
            check.status = .pass) :=
  have h := health_verdicts_agree (fun _ => "") faltering "testnet" falteringNode (.int 1000) none
    _ rfl rfl
  ⟨rfl, _, rfl, h.1, h.2.1⟩

end Probe

end Solfleet
