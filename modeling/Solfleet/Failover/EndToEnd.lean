import Solfleet.Failover.LoopLaw
import Solfleet.Failover.Resolution
import Solfleet.Probe.Verdicts
import Solfleet.Voting.Readers

/-! # The failover loop against the endpoints

From what the endpoints answer, round by round, to the addresses of a record. The probe turns
answers into statuses, the statuses decide the members that stay, and the turns move the records;
an answer the probe cannot digest ends the loop where it stands.
-/

namespace Solfleet

open Interaction Program

namespace Probe

/-! ## What a member's endpoints tell -/

structure TellsSlot (ask : Method → Response) (node : Node) (slot : Int) : Prop where
  url : Text.truthy node.rpcUrl = true
  health : ¬ (ask .getHealth).Failed
  version : ∃ version, (ask .getVersion).result? = some version
  slot : (ask .getSlot).result? = some (.int slot)

/-- The reference answers its vote accounts, and the node's identity is among the delinquent. -/
def TellsDelinquent (ask : Method → Response) (node : Node) : Prop :=
  ∃ identity accounts, node.identity = some identity ∧ identity ≠ "" ∧
    Voting.AnswersVotes ask accounts ∧ Voting.NamedIn identity "delinquent" accounts

/-- No enabled condition is met, as far as the endpoints tell. -/
structure Passing (w : World) (name : String) (cluster : Cluster) (node : Node) (ew : EjectWhen) :
    Prop where
  healthy : ew.unhealthy = true → Text.truthy node.rpcUrl = true ∧
    (w.asNode name node .getHealth).result? = some (.str "ok")
  caughtUp : ∀ limit slot reference, ew.slotLag = some limit →
    TellsSlot (w.asNode name node) node slot →
      (w.asReference name cluster .getSlot).result? = some (.int reference) →
        max 0 (reference - slot) ≤ limit
  voting : ew.delinquent = true → ¬ TellsDelinquent (w.asReference name cluster) node

/-- A slot is an integer, if it is told at all. -/
def IsSlot : Json → Prop
  | .null => True
  | .int _ => True
  | _ => False

def WholeSlots (w : World) (fleet : Fleet) : Prop :=
  ∀ entry ∈ fleet.clusters.entries, IsSlot (w.referenceSlot entry.1 entry.2) ∧
    ∀ node ∈ entry.2.nodes, ∀ slot,
      (w.asNode entry.1 node .getSlot).result? = some slot → IsSlot slot

/-! ## What the probe makes of it -/

section Node

variable {ask : Method → Response} {clusterName : String} {node : Node} {referenceSlot : Json}
  {votes : Option (Dict String Vote)} {status : Status}

theorem health_true_iff {response : Response} :
    health response = .ok true ↔ response.result? = some (.str "ok") := by
  rw [← @rpcCall_eq_ok_iff .getHealth, health]
  cases hcall : rpcCall .getHealth response with
  | ok value =>
      simp only [Except.ok.injEq]
      cases value with
      | str s => simp [isOk]
      | _ => simp [isOk]
  | error e =>
      cases e with
      | caught e => cases e <;> simp
      | other e => simp

structure ReadsNode (ask : Method → Response) (referenceSlot : Json) (status : Status) : Prop where
  healthy : ∀ healthy, status.healthy = some healthy ↔ health (ask .getHealth) = .ok healthy
  lag : ∀ lag, status.slotLag = some lag ↔ (∃ healthy, health (ask .getHealth) = .ok healthy) ∧
    (∃ core, solanaCore (ask .getVersion) = .ok core) ∧
      ∃ slot, rpcCall .getSlot (ask .getSlot) = .ok slot ∧
        slotLag referenceSlot slot = .ok (some lag)

theorem probeNode_reads (h : probeNode ask clusterName node referenceSlot votes = .ok status)
    (hurl : Text.truthy node.rpcUrl = true) : ReadsNode ask referenceSlot status := by
  rcases startStatus_fresh clusterName node votes with ⟨-, hhealthy, hlag⟩
  unfold probeNode at h
  rw [if_neg (by rw [hurl]; decide)] at h
  rcases guarded_eq_ok_iff.mp h with ⟨healthy, hread, h⟩ | ⟨e, hread, rfl⟩
  · rcases guarded_eq_ok_iff.mp h with ⟨core, hcore, h⟩ | ⟨e, hcore, rfl⟩
    · rcases guarded_eq_ok_iff.mp h with ⟨slot, hslot, h⟩ | ⟨e, hslot, rfl⟩
      · rcases guarded_eq_ok_iff.mp h with ⟨lag, hdiff, h⟩ | ⟨e, hdiff, rfl⟩
        · cases h
          have hdiff := reading_eq_ok_iff.mp hdiff
          exact ⟨by simp [hread], by simp [hread, hcore, hslot, hdiff]⟩
        · cases hsub : slotLag referenceSlot slot <;> rw [hsub, reading] at hdiff <;> cases hdiff
      · exact ⟨by simp [hread], by simp [hread, hcore, hslot, hlag]⟩
    · exact ⟨by simp [hread], by simp [hread, hcore, hlag]⟩
  · exact ⟨by simp [hread, hhealthy], by simp [hread, hlag]⟩

theorem slotLag_eq_iff {slot : Json} (href : IsSlot referenceSlot) (hslot : IsSlot slot)
    {lag : PyNumber} : slotLag referenceSlot slot = .ok (some lag) ↔
      ∃ r s, referenceSlot = .int r ∧ slot = .int s ∧ lag = .int (max 0 (r - s)) := by
  cases referenceSlot with
  | null => simp [slotLag]
  | int r =>
      cases slot with
      | null => simp [slotLag]
      | int s =>
          have hdiff : slotLag (.int r) (.int s) = .ok (some (.int (max 0 (r - s)))) := rfl
          rw [hdiff]
          simp [eq_comm]
      | bool | float | str | arr | obj => exact hslot.elim
  | bool | float | str | arr | obj => exact href.elim

theorem probeNode_delinquent
    (h : probeNode ask clusterName node referenceSlot votes = .ok status) :
    status.delinquent = (voteOf node votes).map (·.delinquent) := by
  have hstart : (startStatus clusterName node votes).delinquent =
      (voteOf node votes).map (·.delinquent) := by
    unfold startStatus
    cases voteOf node votes <;> rfl
  rw [← hstart]
  rcases probeNode_cases h with ⟨-, rfl⟩ | ⟨-, ⟨e, rfl⟩ | ⟨healthy, version, slot, e, rfl⟩ |
    ⟨healthy, version, slot, lag, -, rfl⟩⟩
  all_goals rfl

end Node

section Reference

variable {ask : Method → Response} {cluster : Cluster} {found : Reference} {node : Node}

theorem probeReference_votes_iff (h : probeReference ask cluster = .ok found)
    (hid : (cluster.nodes.any fun n => Text.truthy n.identity) = true)
    {votes : Dict String Vote} : found.votes = some votes ↔
      ∃ accounts, Voting.AnswersVotes ask accounts ∧ readVoteAccounts accounts = .ok votes := by
  constructor
  · intro hvotes
    unfold probeReference at h
    rcases guarded_eq_ok_iff.mp h with ⟨slot, hslot, h⟩ | ⟨e, -, rfl⟩
    · rcases guarded_eq_ok_iff.mp h with ⟨core, hcore, h⟩ | ⟨e, -, rfl⟩
      · rw [if_pos hid] at h
        rcases guarded_eq_ok_iff.mp h with ⟨read, hread, h⟩ | ⟨e, -, rfl⟩
        · cases h
          cases hvotes
          rcases except_bind_eq_ok_iff.mp hread with ⟨accounts, haccounts, hread⟩
          refine ⟨accounts, ⟨⟨slot, rpcCall_eq_ok_iff.mp hslot⟩,
            solanaCore_returns_iff.mp ⟨core, hcore⟩, rpcCall_eq_ok_iff.mp haccounts⟩,
            reading_eq_ok_iff.mp hread⟩
        · cases hvotes
      · cases hvotes
    · cases hvotes
  · rintro ⟨accounts, hanswers, hread⟩
    rcases Voting.probeReference_votes hanswers hread hid with ⟨found', hfound', hvotes⟩
    rw [hfound'] at h
    cases h
    exact hvotes

theorem reads_accounts (h : probeReference ask cluster = .ok found)
    (hid : (cluster.nodes.any fun n => Text.truthy n.identity) = true) {accounts : Json}
    (hanswers : Voting.AnswersVotes ask accounts) :
    ∃ votes, readVoteAccounts accounts = .ok votes := by
  have htame := probeReference_returns_iff.mp ⟨found, h⟩
  rcases hanswers.slot with ⟨slot, hslot⟩
  rcases hanswers.version with ⟨version, hversion, -⟩
  have haccounts := (htame.2 slot hslot).2 version hversion
  exact readVoteAccounts_returns_iff.mpr ((haccounts.2 hid).2 accounts hanswers.accounts)

/-- The last group read is the delinquent one, so an account in it decides. -/
theorem delinquent_of_accounts {accounts : Json} {votes : Dict String Vote}
    (hread : readVoteAccounts accounts = .ok votes) (identity : String) :
    (votes.get? identity).map (·.delinquent) = some true ↔
      Voting.NamedIn identity "delinquent" accounts := by
  rcases Voting.readVoteAccounts_inStep hread identity with ⟨entry, hentry, hstep⟩
  rcases Voting.findEntry_cases hentry with ⟨acct, hmem, hnames, rfl⟩ | ⟨hnone, hcurrent⟩
  · rcases hstep with ⟨vote, hvote, hacct⟩
    rw [hvote, Option.map_some, (Voting.accountVote_reads hacct).1]
    exact iff_of_true rfl ⟨acct, hmem, hnames⟩
  · refine iff_of_false ?_ hnone
    rcases hcurrent with ⟨acct, -, -, rfl⟩ | ⟨-, rfl⟩
    · rcases hstep with ⟨vote, hvote, hacct⟩
      rw [hvote, Option.map_some, (Voting.accountVote_reads hacct).1]
      decide
    · have hnothing : votes.get? identity = none := hstep
      rw [hnothing]
      decide

theorem voteOf_delinquent_iff (h : probeReference ask cluster = .ok found)
    (hnode : node ∈ cluster.nodes) :
    (voteOf node found.votes).map (·.delinquent) = some true ↔ TellsDelinquent ask node := by
  unfold TellsDelinquent
  cases hidentity : node.identity with
  | none => simp [voteOf, hidentity]
  | some identity =>
      by_cases hempty : identity = ""
      · cases hvotes : found.votes <;> simp [voteOf, hidentity, hempty]
      · have hid : (cluster.nodes.any fun n => Text.truthy n.identity) = true := by
          refine List.any_eq_true.mpr ⟨node, hnode, ?_⟩
          simp [hidentity, Text.truthy, hempty]
        have hiff : ∀ votes, found.votes = some votes ↔ _ := fun _ => probeReference_votes_iff h hid
        constructor
        · intro htrue
          cases hvotes : found.votes with
          | none => simp [voteOf, hidentity, hvotes] at htrue
          | some votes =>
              rcases (hiff votes).mp hvotes with ⟨accounts, hanswers, hread⟩
              refine ⟨identity, accounts, rfl, hempty, hanswers, ?_⟩
              rw [← delinquent_of_accounts hread identity]
              simpa [voteOf, hidentity, hvotes, hempty] using htrue
        · rintro ⟨identity', accounts, hsame, -, hanswers, hnamed⟩
          cases hsame
          rcases reads_accounts h hid hanswers with ⟨votes, hread⟩
          have hvotes := (hiff votes).mpr ⟨accounts, hanswers, hread⟩
          have htrue := (delinquent_of_accounts hread identity).mpr hnamed
          simpa [voteOf, hidentity, hvotes, hempty] using htrue

end Reference

/-! ## Statuses and answers -/

def ProbedAt (w : World) (name : String) (cluster : Cluster) (node : Node) (status : Status) :
    Prop :=
  ∃ found, probeReference (w.asReference name cluster) cluster = .ok found ∧
    probeNode (w.asNode name node) name node found.slot found.votes = .ok status

section Verdict

variable {w : World} {name : String} {cluster : Cluster} {node : Node} {status : Status}
  {pyStr : Json → String}

theorem reachable_iff (h : ProbedAt w name cluster node status) {healthy : Bool} :
    (status.reachable = true ∧ status.healthy = some healthy) ↔
      Text.truthy node.rpcUrl = true ∧ health (w.asNode name node .getHealth) = .ok healthy := by
  rcases h with ⟨found, -, hprobe⟩
  by_cases hurl : Text.truthy node.rpcUrl = true
  · have hsound := probeNode_sound (fun _ => "") hprobe hurl
    rw [← (probeNode_reads hprobe hurl).healthy, hsound.reachable]
    refine ⟨fun hboth => ⟨hurl, hboth.2⟩, fun hboth => ⟨?_, hboth.2⟩⟩
    rw [hboth.2]
    rfl
  · refine iff_of_false (fun hboth => ?_) fun hboth => hurl hboth.1
    rcases startStatus_fresh name node found.votes with ⟨hreachable, -, -⟩
    rcases probeNode_cases hprobe with ⟨-, rfl⟩ | ⟨htrue, -⟩
    · rw [hreachable] at hboth
      cases hboth.1
    · exact hurl htrue

theorem lag_iff (h : ProbedAt w name cluster node status)
    (href : IsSlot (w.referenceSlot name cluster))
    (hslot : ∀ slot, (w.asNode name node .getSlot).result? = some slot → IsSlot slot)
    {lag : PyNumber} : status.slotLag = some lag ↔
      ∃ slot reference, TellsSlot (w.asNode name node) node slot ∧
        (w.asReference name cluster .getSlot).result? = some (.int reference) ∧
          lag = .int (max 0 (reference - slot)) := by
  rcases h with ⟨found, hfound, hprobe⟩
  have hreference : found.slot = w.referenceSlot name cluster := probeReference_slot hfound
  rw [hreference] at hprobe
  have htold : ∀ r, w.referenceSlot name cluster = .int r ↔
      (w.asReference name cluster .getSlot).result? = some (.int r) := by
    intro r
    rw [World.referenceSlot]
    cases (w.asReference name cluster .getSlot).result? <;> simp
  by_cases hurl : Text.truthy node.rpcUrl = true
  · rcases probeNode_returns_iff.mp ⟨status, hprobe⟩ hurl with ⟨hwell, htame⟩
    rw [(probeNode_reads hprobe hurl).lag, health_returns_iff hwell, solanaCore_returns_iff]
    constructor
    · rintro ⟨hhealth, ⟨version, hversion, -⟩, slot, hcall, hlag⟩
      have hread := rpcCall_eq_ok_iff.mp hcall
      rcases (slotLag_eq_iff href (hslot slot hread)).mp hlag with ⟨r, s, hr, rfl, rfl⟩
      exact ⟨s, r, ⟨hurl, hhealth, ⟨version, hversion⟩, hread⟩, (htold r).mp hr, rfl⟩
    · rintro ⟨slot, r, htells, hr, rfl⟩
      rcases htells.version with ⟨version, hversion⟩
      refine ⟨htells.health, ⟨version, hversion, ?_⟩, .int slot,
        rpcCall_eq_ok_iff.mpr htells.slot, ?_⟩
      · exact ((htame htells.health).2 version hversion).1
      · exact (slotLag_eq_iff href (hslot _ htells.slot)).mpr
          ⟨r, slot, (htold r).mpr hr, rfl, rfl⟩
  · refine iff_of_false (fun hlag => ?_) (fun htells => ?_)
    · rcases probeNode_cases hprobe with ⟨-, rfl⟩ | ⟨htrue, -⟩
      · rcases startStatus_fresh name node found.votes with ⟨-, -, hnone⟩
        rw [hnone] at hlag
        cases hlag
      · exact hurl htrue
    · rcases htells with ⟨_, _, htells, -⟩
      exact hurl htells.url

theorem record_slotLag_iff {lag : Int} :
    (status.record pyStr).slotLag = some lag ↔ status.slotLag = some (.int lag) := by
  unfold Status.record
  cases hlag : status.slotLag with
  | none => simp
  | some known => cases known <;> simp

/-- A member stays exactly where its endpoints tell nothing against it. -/
theorem spared_iff_passing (h : ProbedAt w name cluster node status) (hnode : node ∈ cluster.nodes)
    (href : IsSlot (w.referenceSlot name cluster))
    (hslot : ∀ slot, (w.asNode name node .getSlot).result? = some slot → IsSlot slot)
    (ew : EjectWhen) :
    Spared ew (some (status.record pyStr)) ↔ Passing w name cluster node ew := by
  have hhealthy : (∃ s, some (status.record pyStr) = some s ∧ s.reachable = true ∧
      s.healthy ≠ some false) ↔ Text.truthy node.rpcUrl = true ∧
        (w.asNode name node .getHealth).result? = some (.str "ok") := by
    rw [← health_true_iff, ← reachable_iff h]
    constructor
    · rintro ⟨s, hs, hreachable, hnot⟩
      cases hs
      have hreached : status.reachable = true := hreachable
      have hhealth : ∃ healthy, status.healthy = some healthy := by
        rcases h with ⟨found, -, hprobe⟩
        by_cases hurl : Text.truthy node.rpcUrl = true
        · have hsound := probeNode_sound (fun _ => "") hprobe hurl
          exact Option.isSome_iff_exists.mp (hsound.reachable.mp hreached)
        · rcases startStatus_fresh name node found.votes with ⟨hfresh, -, -⟩
          rcases probeNode_cases hprobe with ⟨-, rfl⟩ | ⟨htrue, -⟩
          · rw [hfresh] at hreached
            cases hreached
          · exact absurd htrue hurl
      rcases hhealth with ⟨healthy, hhealthy⟩
      refine ⟨hreached, ?_⟩
      cases healthy with
      | true => exact hhealthy
      | false => exact absurd hhealthy hnot
    · rintro ⟨hreachable, hhealth⟩
      refine ⟨_, rfl, hreachable, fun hfalse => ?_⟩
      have hfalse : status.healthy = some false := hfalse
      rw [hhealth] at hfalse
      cases hfalse
  have hvoting : (some (status.record pyStr)).bind (·.delinquent) = some true ↔
      TellsDelinquent (w.asReference name cluster) node := by
    rcases h with ⟨found, hfound, hprobe⟩
    rw [← voteOf_delinquent_iff hfound hnode, ← probeNode_delinquent hprobe]
    rfl
  constructor
  · intro hspared
    refine ⟨fun hew => hhealthy.mp (hspared.healthy hew), fun limit slot r hlimit htells hr => ?_,
      fun hew => mt hvoting.mpr (hspared.voting hew)⟩
    have hlag := (lag_iff h href hslot).mpr ⟨slot, r, htells, hr, rfl⟩
    exact hspared.caughtUp limit _ hlimit (record_slotLag_iff.mpr hlag)
  · intro hpassing
    refine ⟨fun hew => hhealthy.mpr (hpassing.healthy hew), fun limit lag hlimit hlag => ?_,
      fun hew => mt hvoting.mp (hpassing.voting hew)⟩
    have hlag := record_slotLag_iff.mp hlag
    rcases (lag_iff h href hslot).mp hlag with ⟨slot, r, htells, hr, heq⟩
    cases heq
    exact hpassing.caughtUp limit slot r hlimit htells hr

end Verdict

end Probe

/-! ## From statuses to members -/

def Fleet.placed (fleet : Fleet) : List (String × Cluster × Node) :=
  fleet.clusters.entries.flatMap fun entry => entry.2.nodes.map fun n => (entry.1, entry.2, n)

/-- The node a pass takes for a name: the last one of it. -/
def Fleet.lastNode (fleet : Fleet) (m : String) : Option (String × Cluster × Node) :=
  (Dict.ofPairs (fleet.placed.map fun p => (p.2.2.name, p))).get? m

/-- The address is the host of a member whose endpoints tell nothing against it. -/
def Served (fleet : Fleet) (w : Probe.World) (pool : Pool) (ip : String) : Prop :=
  ∃ m ∈ pool.members, ∃ name cluster node, fleet.lastNode m = some (name, cluster, node) ∧
    node.host = ip ∧ Probe.Passing w name cluster node pool.ejectWhen

def Probe.textOf : Json → Option String
  | .str s => some s
  | _ => none

def Probe.FoundCluster.record (pyStr : Json → String) (c : Probe.FoundCluster) :
    ClusterStatus where
  name := c.name
  referenceRpc := c.referenceRpc
  referenceSlot := Probe.intOf c.referenceSlot
  referenceVersion := Probe.textOf c.referenceVersion
  referenceError := c.referenceError.map fun e => "reference rpc failed: " ++ e.text pyStr
  nodes := c.nodes.map (·.record pyStr)

section Lookups

variable {fleet : Fleet} {w : Probe.World} {found : List Probe.FoundCluster}
  {pyStr : Json → String} {m : String} {name : String} {cluster : Cluster} {node : Node}

theorem Fleet.mem_placed {p : String × Cluster × Node} :
    p ∈ fleet.placed ↔ (p.1, p.2.1) ∈ fleet.clusters.entries ∧ p.2.2 ∈ p.2.1.nodes := by
  simp only [Fleet.placed, List.mem_flatMap, List.mem_map]
  constructor
  · rintro ⟨entry, hentry, n, hn, rfl⟩
    exact ⟨hentry, hn⟩
  · rintro ⟨hentry, hn⟩
    exact ⟨_, hentry, _, hn, rfl⟩

theorem Fleet.placed_nodes : fleet.placed.map (·.2.2) = fleet.nodes := by
  simp [Fleet.placed, Fleet.nodes, Dict.values, List.map_flatMap, List.flatMap_map,
    Function.comp_def]

theorem Fleet.mem_of_lastNode (h : fleet.lastNode m = some (name, cluster, node)) :
    (name, cluster) ∈ fleet.clusters.entries ∧ node ∈ cluster.nodes := by
  rcases List.mem_map.mp (Dict.mem_of_get?_ofPairs h) with ⟨p, hp, heq⟩
  cases heq
  exact Fleet.mem_placed.mp hp

variable (fleet) in
theorem nodeIps_rel (m : String) :
    Option.Rel (fun p ip => p.2.2.host = ip) (fleet.lastNode m) ((nodeIps fleet).get? m) := by
  rw [nodeIps, ← Fleet.placed_nodes, List.map_map]
  refine Dict.get?_ofPairs_forall₂ ?_ m
  rw [List.forall₂_map_left_iff, List.forall₂_map_right_iff, List.forall₂_same]
  exact fun p _ => ⟨rfl, rfl⟩

theorem statuses_forall₂ (h : Probe.probeFleet w fleet = .ok found) :
    List.Forall₂ (fun p (status : NodeStatus) => p.2.2.name = status.name ∧
        ∃ raw, Probe.ProbedAt w p.1 p.2.1 p.2.2 raw ∧ raw.record pyStr = status)
      fleet.placed ((found.map (·.record pyStr)).flatMap (·.nodes)) := by
  have hclusters := Probe.gather_map_forall₂ h
  clear h
  unfold Fleet.placed
  generalize fleet.clusters.entries = entries at hclusters
  induction hclusters with
  | nil => exact .nil
  | @cons entry c entries found hc _ ih =>
      rcases Probe.probeCluster_eq_ok_iff.mp hc with ⟨ref, nodes, href, hnodes, rfl⟩
      rw [List.flatMap_cons, List.map_cons, List.flatMap_cons]
      refine List.rel_append ?_ ih
      have hstatuses := Probe.gather_map_forall₂ hnodes
      simp only [Probe.FoundCluster.record, List.forall₂_map_left_iff, List.forall₂_map_right_iff]
      refine hstatuses.imp fun n raw hraw => ?_
      exact ⟨(Probe.probeNode_about hraw).1.symm, raw, ⟨ref, href, hraw⟩, rfl⟩

variable (pyStr) in
theorem statusByName_rel (h : Probe.probeFleet w fleet = .ok found) (m : String) :
    Option.Rel (fun p (status : NodeStatus) =>
        ∃ raw, Probe.ProbedAt w p.1 p.2.1 p.2.2 raw ∧ raw.record pyStr = status)
      (fleet.lastNode m) ((statusByName (found.map (·.record pyStr))).get? m) := by
  refine Dict.get?_ofPairs_forall₂ ?_ m
  rw [List.forall₂_map_left_iff, List.forall₂_map_right_iff]
  exact statuses_forall₂ h

theorem mem_poolDesired_iff_served (whole : Probe.WholeSlots w fleet)
    (h : Probe.probeFleet w fleet = .ok found) {pool : Pool} {ip : String} :
    ip ∈ poolDesired fleet (found.map (·.record pyStr)) pool ↔ Served fleet w pool ip := by
  simp only [poolDesired, List.mem_toFinset, List.mem_filterMap, List.mem_filter,
    Bool.not_eq_true', shouldEject_eq_false_iff]
  have hverdict : ∀ m name cluster node status, fleet.lastNode m = some (name, cluster, node) →
      (∃ raw, Probe.ProbedAt w name cluster node raw ∧ raw.record pyStr = status) →
        (Spared pool.ejectWhen (some status) ↔
          Probe.Passing w name cluster node pool.ejectWhen) := by
    rintro m name cluster node _ hlast ⟨raw, hraw, rfl⟩
    rcases Fleet.mem_of_lastNode hlast with ⟨hentry, hnode⟩
    rcases whole _ hentry with ⟨href, hslots⟩
    exact Probe.spared_iff_passing hraw hnode href (hslots node hnode) pool.ejectWhen
  constructor
  · rintro ⟨m, ⟨hm, hspared⟩, hget⟩
    have hips := nodeIps_rel fleet m
    have hstatus := statusByName_rel pyStr h m
    rw [hget] at hips
    cases hlast : fleet.lastNode m with
    | none =>
        rw [hlast] at hips
        cases hips
    | some p =>
        rw [hlast] at hips hstatus
        cases hips with
        | some hhost =>
        cases hstatuses : (statusByName (found.map (·.record pyStr))).get? m with
        | none =>
            rw [hstatuses] at hstatus
            cases hstatus
        | some status =>
            rw [hstatuses] at hspared hstatus
            cases hstatus with
            | some hraw =>
            exact ⟨m, hm, p.1, p.2.1, p.2.2, hlast, hhost,
              (hverdict m _ _ _ status hlast hraw).mp hspared⟩
  · rintro ⟨m, hm, name, cluster, node, hlast, rfl, hpassing⟩
    have hips := nodeIps_rel fleet m
    have hstatus := statusByName_rel pyStr h m
    rw [hlast] at hips hstatus
    refine ⟨m, ⟨hm, ?_⟩, ?_⟩
    · cases hstatuses : (statusByName (found.map (·.record pyStr))).get? m with
      | none =>
          rw [hstatuses] at hstatus
          cases hstatus
      | some status =>
          rw [hstatuses] at hstatus
          cases hstatus with
          | some hraw => exact (hverdict m name cluster node status hlast hraw).mpr hpassing
    · cases hget : (nodeIps fleet).get? m with
      | none =>
          rw [hget] at hips
          cases hips
      | some ip =>
          rw [hget] at hips
          cases hips with
          | some hhost => rw [hhost]

end Lookups

/-! ## Rounds -/

/-- What a round's probe finds, or the exception that leaves it. -/
def prober (pyStr : Json → String) (fleet : Fleet) (w : Probe.World) :
    Except Exn (List ClusterStatus) :=
  match Probe.probeFleet w fleet with
  | .ok found => .ok (found.map (·.record pyStr))
  | .error e => .error e

/-- A round begins with its probe, which asks the endpoints as they are by then. -/
def LawfulDriver.endpointHandler (D : LawfulDriver) (pyStr : Json → String) (fleet : Fleet)
    (worlds : Nat → Probe.World) : Handler dnsSignature Exn (Watched D)
  | .driver c, w => (.ok (D.perform w.dns c).1, { w with dns := (D.perform w.dns c).2 })
  | .probe, w =>
      match prober pyStr fleet (worlds w.starts.length) with
      | .ok clusters => (.ok clusters, { w with starts := w.starts ++ [w.dns] })
      | .error e => (.error e, w)
  | .audit _, w => (.ok (), w)
  | .sleep _, w => (.ok (), w)
  | .onRound _, w => (.ok (), w)

def roundStatuses (pyStr : Json → String) (fleet : Fleet) (worlds : Nat → Probe.World) (k : Nat) :
    List ClusterStatus :=
  match prober pyStr fleet (worlds k) with
  | .ok clusters => clusters
  | .error _ => []

section Rounds

variable {D : LawfulDriver} {pyStr : Json → String} {worlds : Nat → Probe.World} {w : Watched D}
  {α : Type}

variable (pyStr) in
theorem prober_returns_iff {fleet : Fleet} {world : Probe.World} :
    (∃ clusters, prober pyStr fleet world = .ok clusters) ↔ Probe.Tame world fleet := by
  rw [← Probe.probeFleet_returns_iff, prober]
  cases Probe.probeFleet world fleet <;> simp

theorem exec_endpoint_quiet {fleet : Fleet} {p : DnsProgram α}
    (hp : AllCalls (S := dnsSignature) (· ≠ .probe) p) (probes : Nat → List ClusterStatus)
    (w : Watched D) :
    exec (D.endpointHandler pyStr fleet worlds) p w = exec (D.loopHandler probes calm) p w := by
  refine hp.exec_congr (fun op w hop => ?_) w
  cases op with
  | probe => exact absurd rfl hop
  | driver | audit | sleep | onRound => rfl

theorem allCalls_turns (a : AcceptedFleet) (clusters : List ClusterStatus) (audit dryRun : Bool)
    {pools : List Pool} (hsub : ∀ pool ∈ pools, pool ∈ a.fleet.pools) :
    AllCalls (S := dnsSignature) (· ≠ .probe)
      (each pools (watchPool (nodeIps a.fleet) (statusByName clusters) audit dryRun)) := by
  refine AllCalls.each fun pool hp => ?_
  rw [a.watchPool_eq clusters audit dryRun (hsub pool hp)]
  refine (allCalls_driverCall (by simp)).bind fun listed => ?_
  refine (allCalls_applyTurn (poolDesired_subset _ _ _) (by simp) ?_ ?_ ?_).bind
    fun _ => allCalls_pure _ _
  · exact fun _ h => by cases h
  · exact fun _ _ _ h => by cases h
  · exact fun _ _ _ h => by cases h

theorem exec_round (a : AcceptedFleet) (audit dryRun : Bool)
    (htame : Probe.Tame (worlds w.starts.length) a.fleet) :
    exec (D.endpointHandler pyStr a.fleet worlds) (watchOnce a.fleet audit dryRun) w =
      exec (D.loopHandler (roundStatuses pyStr a.fleet worlds) calm)
        (watchOnce a.fleet audit dryRun) w := by
  rcases (prober_returns_iff pyStr).mpr htame with ⟨clusters, hclusters⟩
  have hstatuses : roundStatuses pyStr a.fleet worlds w.starts.length = clusters := by
    rw [roundStatuses, hclusters]
  have hanswer : D.endpointHandler pyStr a.fleet worlds .probe w =
      D.loopHandler (roundStatuses pyStr a.fleet worlds) calm .probe w := by
    simp only [LawfulDriver.endpointHandler, DnsDriver.loopHandler, hclusters, hstatuses]
  have hprobe : exec (D.endpointHandler pyStr a.fleet worlds) probeFleet w =
      exec (D.loopHandler (roundStatuses pyStr a.fleet worlds) calm) probeFleet w := by
    rw [probeFleet, exec_perform, exec_perform, hanswer]
  unfold watchOnce
  split
  · rfl
  · rw [exec_bind, exec_bind, hprobe]
    simp only [Execution.andThen]
    split
    · rename_i found _
      have hrest : AllCalls (S := dnsSignature) (· ≠ .probe)
          (each a.fleet.pools (watchPool (nodeIps a.fleet) (statusByName found) audit dryRun) >>=
            fun reports => pure ({ pools := reports } : WatchReport)) :=
        (allCalls_turns a found audit dryRun fun _ hp => hp).bind fun _ => allCalls_pure _ _
      rw [exec_endpoint_quiet hrest (roundStatuses pyStr a.fleet worlds)]
    · rfl

variable (D pyStr) in
theorem exec_round_raises (a : AcceptedFleet) (hpools : a.fleet.pools ≠ []) (audit dryRun : Bool)
    {e : Exn} (he : Probe.probeFleet (worlds w.starts.length) a.fleet = .error e) :
    exec (D.endpointHandler pyStr a.fleet worlds) (watchOnce a.fleet audit dryRun) w =
      ⟨w, [⟨.probe, .error e⟩], .error e⟩ := by
  have hraises : D.endpointHandler pyStr a.fleet worlds .probe w = (.error e, w) := by
    simp only [LawfulDriver.endpointHandler, prober, he]
  unfold watchOnce
  rw [if_neg hpools]
  have hresult : (exec (D.endpointHandler pyStr a.fleet worlds) probeFleet w).result =
      .error e := by
    rw [probeFleet, exec_perform, hraises]
  rw [exec_bind_error hresult, probeFleet, exec_perform, hraises]

variable (pyStr) in
theorem exec_loop_succ (a : AcceptedFleet) (distinct : a.fleet.DistinctRecords)
    (hpools : a.fleet.pools ≠ []) (interval : Int) (audit notify : Bool)
    (htame : Probe.Tame (worlds w.starts.length) a.fleet) {sets : Pool → Finset String}
    (hsets : ∀ pool ∈ a.fleet.pools, D.members w.dns pool.record = sets pool) (n : Nat) :
    ∃ dns before,
      (∀ pool ∈ a.fleet.pools, D.members dns pool.record =
        nextSet a.fleet (roundStatuses pyStr a.fleet worlds w.starts.length) false (sets pool)
          pool) ∧
      let rest := exec (D.endpointHandler pyStr a.fleet worlds)
        (watchLoop a.fleet interval audit false notify n) ⟨dns, w.starts ++ [w.dns], w.raised⟩
      exec (D.endpointHandler pyStr a.fleet worlds)
          (watchLoop a.fleet interval audit false notify (n + 1)) w =
        ⟨rest.final, before ++ rest.trace, rest.result⟩ := by
  rcases goes_watchOnce (roundStatuses pyStr a.fleet worlds) a distinct hpools audit false hsets
    with ⟨report, dns, ⟨first, hfirst, -⟩, hnexts⟩
  rw [← exec_round a audit false htame] at hfirst
  let w' : Watched D := ⟨dns, w.starts ++ [w.dns], w.raised⟩
  have hquiet : ∀ w'' : Watched D, ∃ noted, exec (D.endpointHandler pyStr a.fleet worlds)
      (if notify then perform (S := dnsSignature) (.onRound report) else pure ()) w'' =
        ⟨w'', noted, .ok ()⟩ := by
    intro w''
    cases notify with
    | false => exact ⟨[], rfl⟩
    | true => exact ⟨[⟨.onRound report, .ok ()⟩], rfl⟩
  rcases hquiet w' with ⟨noted, hnoted⟩
  have hsleep : exec (D.endpointHandler pyStr a.fleet worlds)
      (perform (S := dnsSignature) (.sleep interval)) w' =
        ⟨w', [⟨.sleep interval, .ok ()⟩], .ok ()⟩ := rfl
  have hround : (exec (D.endpointHandler pyStr a.fleet worlds) (watchOnce a.fleet audit false)
      w).result = .ok report := by rw [hfirst]
  have hnote : (exec (D.endpointHandler pyStr a.fleet worlds)
      (if notify then perform (S := dnsSignature) (.onRound report) else pure ()) w').result =
        .ok () := by rw [hnoted]
  rw [watchLoop_succ, exec_bind_ok hround, hfirst]
  dsimp only
  rw [exec_bind_ok hnote, hnoted]
  dsimp only
  by_cases hn : n = 0
  · subst hn
    refine ⟨dns, first ++ noted, hnexts, ?_⟩
    simp [watchLoop, w']
  · have hslept : (exec (D.endpointHandler pyStr a.fleet worlds)
        (perform (S := dnsSignature) (.sleep interval)) w').result = .ok () := by rw [hsleep]
    rw [if_neg hn, exec_bind_ok hslept, hsleep]
    dsimp only
    refine ⟨dns, first ++ (noted ++ [⟨.sleep interval, .ok ()⟩]), hnexts, ?_⟩
    simp only [List.append_assoc]
    rfl

variable (pyStr worlds w) in
/-- The run lemma: the loop goes through the tame rounds and ends at the first other one. -/
theorem exec_loop (a : AcceptedFleet) (distinct : a.fleet.DistinctRecords)
    (hpools : a.fleet.pools ≠ []) (interval : Int) (audit notify : Bool)
    (start : String → Finset String) (k : Nat) (hk : w.starts.length = k)
    (hsets : ∀ pool ∈ a.fleet.pools, D.members w.dns pool.record =
      setAt a.fleet (roundStatuses pyStr a.fleet worlds) false start pool k) (n : Nat) :
    ∃ j, j ≤ n ∧ (∀ i, i < j → Probe.Tame (worlds (k + i)) a.fleet) ∧
      let run := exec (D.endpointHandler pyStr a.fleet worlds)
        (watchLoop a.fleet interval audit false notify n) w
      (j = n ∧ run.result = .ok () ∨
        j < n ∧ ∃ e, Probe.probeFleet (worlds (k + j)) a.fleet = .error e ∧
          run.result = .error e) ∧
      ∀ pool ∈ a.fleet.pools, D.members run.final.dns pool.record =
        setAt a.fleet (roundStatuses pyStr a.fleet worlds) false start pool (k + j) := by
  induction n generalizing w k with
  | zero =>
      exact ⟨0, Nat.le_refl 0, fun i hi => absurd hi (Nat.not_lt_zero i), .inl ⟨rfl, rfl⟩, hsets⟩
  | succ n ih =>
      cases hprobe : Probe.probeFleet (worlds k) a.fleet with
      | error e =>
          rw [← hk] at hprobe
          have hraises := exec_round_raises D pyStr a hpools audit false hprobe
          have hround : (exec (D.endpointHandler pyStr a.fleet worlds)
              (watchOnce a.fleet audit false) w).result = .error e := by rw [hraises]
          rw [watchLoop_succ, exec_bind_error hround, hraises]
          rw [hk] at hprobe
          exact ⟨0, Nat.zero_le _, fun i hi => absurd hi (Nat.not_lt_zero i),
            .inr ⟨Nat.succ_pos n, e, hprobe, rfl⟩, hsets⟩
      | ok found =>
          have htame : Probe.Tame (worlds k) a.fleet := Probe.probeFleet_returns_iff.mp ⟨_, hprobe⟩
          rw [← hk] at htame
          rcases exec_loop_succ pyStr a distinct hpools interval audit notify htame hsets
            n with ⟨dns, before, hnexts, hexec⟩
          rw [hk] at htame hnexts
          have hlength : (w.starts ++ [w.dns]).length = k + 1 := by simp [hk]
          rcases ih ⟨dns, w.starts ++ [w.dns], w.raised⟩ (k + 1) hlength hnexts with
            ⟨j, hj, htames, hended, hfinal⟩
          rw [hexec]
          have hshift : k + (j + 1) = k + 1 + j := by omega
          refine ⟨j + 1, Nat.succ_le_succ hj, fun i hi => ?_, ?_, ?_⟩
          · cases i with
            | zero => exact htame
            | succ i =>
                have hnext := htames i (Nat.lt_of_succ_lt_succ hi)
                rwa [show k + 1 + i = k + (i + 1) by omega] at hnext
          · rw [hshift]
            rcases hended with ⟨rfl, hok⟩ | ⟨hlt, e, he, herror⟩
            · exact .inl ⟨rfl, hok⟩
            · exact .inr ⟨Nat.succ_lt_succ hlt, e, he, herror⟩
          · rw [hshift]
            exact hfinal

end Rounds

/-! ## From answers to records -/

/-- A record after `k` rounds over these worlds: as it was while no round had a member to serve,
else as the last such round has it, next to the addresses that are no member's. -/
def AsLastServed (fleet : Fleet) (worlds : Nat → Probe.World) (pool : Pool) (k : Nat)
    (old new : Finset String) : Prop :=
  (new = old ∧ ∀ j, j < k → ∀ ip, ¬ Served fleet (worlds j) pool ip) ∨
    ∃ j, j < k ∧ (∃ ip, Served fleet (worlds j) pool ip) ∧
      (∀ i, j < i → i < k → ∀ ip, ¬ Served fleet (worlds i) pool ip) ∧
      ∀ ip, ip ∈ new ↔
        Served fleet (worlds j) pool ip ∨ ip ∈ old ∧ ip ∉ poolHosts fleet pool

section Records

variable {fleet : Fleet} {worlds : Nat → Probe.World} {pyStr : Json → String} {pool : Pool}
  {k : Nat}

variable (pyStr pool) in
theorem mem_roundStatuses_desired (whole : Probe.WholeSlots (worlds k) fleet)
    (htame : Probe.Tame (worlds k) fleet) (ip : String) :
    ip ∈ poolDesired fleet (roundStatuses pyStr fleet worlds k) pool ↔
      Served fleet (worlds k) pool ip := by
  rcases Probe.probeFleet_returns_iff.mpr htame with ⟨found, hfound⟩
  have hstatuses : roundStatuses pyStr fleet worlds k = found.map (·.record pyStr) := by
    simp only [roundStatuses, prober, hfound]
  rw [hstatuses, mem_poolDesired_iff_served whole hfound]

theorem asLastServed_setAt (whole : ∀ j, Probe.WholeSlots (worlds j) fleet)
    (htame : ∀ j, j < k → Probe.Tame (worlds j) fleet) (start : String → Finset String) :
    AsLastServed fleet worlds pool k (start pool.record)
      (setAt fleet (roundStatuses pyStr fleet worlds) false start pool k) := by
  rw [setAt_eq_target]
  induction k with
  | zero => exact .inl ⟨Reconcile.target_empty, fun j hj => absurd hj (Nat.not_lt_zero j)⟩
  | succ k ih =>
      have hserved := fun ip => mem_roundStatuses_desired pyStr pool (whole k)
        (htame k (Nat.lt_succ_self k)) ip
      rw [lastDesired]
      by_cases hempty : poolDesired fleet (roundStatuses pyStr fleet worlds k) pool = ∅
      · have hnone : ∀ ip, ¬ Served fleet (worlds k) pool ip := fun ip h => by
          have hmem := (hserved ip).mpr h
          rw [hempty] at hmem
          cases hmem
        rw [if_pos hempty]
        rcases ih fun j hj => htame j (Nat.lt_succ_of_lt hj) with ⟨hsame, hquiet⟩ |
          ⟨j, hj, hsome, hquiet, hset⟩
        · refine .inl ⟨hsame, fun j hj => ?_⟩
          rcases Nat.lt_succ_iff_lt_or_eq.mp hj with hj | rfl
          · exact hquiet j hj
          · exact hnone
        · refine .inr ⟨j, Nat.lt_succ_of_lt hj, hsome, fun i hi hik => ?_, hset⟩
          rcases Nat.lt_succ_iff_lt_or_eq.mp hik with hik | rfl
          · exact hquiet i hi hik
          · exact hnone
      · rw [if_neg hempty]
        rcases Finset.nonempty_iff_ne_empty.mpr hempty with ⟨ip, hip⟩
        refine .inr ⟨k, Nat.lt_succ_self k, ⟨ip, (hserved ip).mp hip⟩,
          fun i hi hik => absurd hi (Nat.not_lt.mpr (Nat.le_of_lt_succ hik)), fun x => ?_⟩
        rw [Reconcile.target_of_ne hempty, Finset.mem_union, Finset.mem_sdiff, hserved]
        exact or_comm

end Records

/-- Over rounds in which the endpoints may answer anything but tell no slot that is no integer, the
loop goes through those its probe can digest and ends with the exception of the first other one.
Each record is then as the answers of the last round with a member to serve have it. -/
theorem watchLoop_from_answers (D : LawfulDriver) (a : AcceptedFleet)
    (distinct : a.fleet.DistinctRecords) (hpools : a.fleet.pools ≠ []) (pyStr : Json → String)
    (worlds : Nat → Probe.World) (whole : ∀ k, Probe.WholeSlots (worlds k) a.fleet)
    (interval : Int) (audit notify : Bool) (n : Nat) (s : D.State) :
    let run := exec (D.endpointHandler pyStr a.fleet worlds)
      (watchLoop a.fleet interval audit false notify n) ⟨s, [], []⟩
    ∃ k, k ≤ n ∧ (∀ j, j < k → Probe.Tame (worlds j) a.fleet) ∧
      (k = n ∧ run.result = .ok () ∨
        k < n ∧ ¬ Probe.Tame (worlds k) a.fleet ∧
          ∃ e, Probe.probeFleet (worlds k) a.fleet = .error e ∧ run.result = .error e) ∧
      ∀ pool ∈ a.fleet.pools, AsLastServed a.fleet worlds pool k (D.members s pool.record)
        (D.members run.final.dns pool.record) := by
  intro run
  rcases exec_loop pyStr worlds ⟨s, [], []⟩ a distinct hpools interval audit notify (D.members s) 0
    rfl (fun _ _ => rfl) n with ⟨k, hk, htame, hended, hfinal⟩
  simp only [Nat.zero_add] at htame hended hfinal
  refine ⟨k, hk, htame, ?_, fun pool hp => ?_⟩
  · rcases hended with hok | ⟨hlt, e, he, herror⟩
    · exact .inl hok
    · refine .inr ⟨hlt, fun h => ?_, e, he, herror⟩
      rcases Probe.probeFleet_returns_iff.mpr h with ⟨found, hfound⟩
      rw [he] at hfound
      cases hfound
  · rw [hfinal pool hp]
    exact asLastServed_setAt whole htame (D.members s)

/-- Node `a` is down, and in the third round every version is `null`. -/
def outage (k : Nat) : Probe.World := fun url _ method =>
  match method with
  | .getHealth =>
      if url = "http://a" then .transportError "connection refused"
      else Probe.healthyEndpoint .getHealth
  | .getVersion =>
      if k = 2 then Probe.answerWith .null else Probe.healthyEndpoint .getVersion
  | method => Probe.healthyEndpoint method

theorem outage_whole (k : Nat) : Probe.WholeSlots (outage k) pairFleet.fleet := by
  intro entry hentry
  rcases List.mem_singleton.mp hentry with rfl
  refine ⟨trivial, fun node _ slot hslot => ?_⟩
  have hslot : (Probe.healthyEndpoint .getSlot).result? = some slot := hslot
  cases hslot
  trivial

theorem watchLoop_from_answers_outage :
    let run := exec (inMemoryDnsDriver.endpointHandler (fun _ => "") pairFleet.fleet outage)
      (watchLoop pairFleet.fleet 30 false false false 3)
      ⟨pairState {"10.0.0.1", "9.9.9.9"}, [], []⟩
    run.result.isOk = false ∧
      inMemoryDnsDriver.members run.final.dns "rpc.example.com" = {"10.0.0.2", "9.9.9.9"} ∧
      ∃ k, k ≤ 3 ∧ AsLastServed pairFleet.fleet outage pairPool k {"10.0.0.1", "9.9.9.9"}
        (inMemoryDnsDriver.members run.final.dns "rpc.example.com") := by
  intro run
  refine ⟨by decide +kernel, by decide +kernel, ?_⟩
  rcases watchLoop_from_answers inMemoryDnsDriver pairFleet (by decide) (by decide) (fun _ => "")
    outage outage_whole 30 false false 3 (pairState {"10.0.0.1", "9.9.9.9"}) with
    ⟨k, hk, -, -, hrecords⟩
  exact ⟨k, hk, hrecords pairPool (by decide)⟩

end Solfleet
