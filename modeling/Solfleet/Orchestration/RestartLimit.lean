import Mathlib.Data.Fintype.Card
import Solfleet.Library.EventLoop
import Solfleet.Orchestration.Rehearsal

/-! # How many nodes are cycled at once

Confirmed restarts and upgrades are coroutines on one event loop, which passes on while one of
them waits for its node to catch up. The policy names a limit, and none of them reads it: what
bounds the nodes in flight is only how many of the calls can get to their cycle at all.
-/

namespace Solfleet

open Interaction Program

/-! ## Calls and where they wait -/

/-- A confirmed call that cycles a node. -/
inductive CycleCall where
  | restart (nodeName : String) (audit : Bool) (maxLag : Int)
  | upgrade (nodeName targetVersion : String) (audit : Bool) (maxLag : Int) (forceBuild : Bool)

namespace CycleCall

def nodeName : CycleCall → String
  | .restart nodeName .. => nodeName
  | .upgrade nodeName .. => nodeName

def program (fleet : Fleet) (policy : Policy) : CycleCall → OpsProgram Unit
  | .restart nodeName audit maxLag =>
      (fun _ => ()) <$> restartNode fleet nodeName true policy audit maxLag
  | .upgrade nodeName targetVersion audit maxLag forceBuild =>
      (fun _ => ()) <$>
        executeUpgrade fleet nodeName targetVersion true policy audit maxLag forceBuild

end CycleCall

/-- The sampler, the leader lookup and the sleep are awaited; the runner is not. -/
def OpsEffect.awaits : OpsEffect → Prop
  | .sample .. => True
  | .leader .. => True
  | .sleep _ => True
  | .runner _ => False
  | .mkdtemp _ => False
  | .audit _ => False

/-! ## Nodes in flight -/

/-- Stop or safe-exit. -/
def Command.startsCycle : Command → Bool
  | .systemctl _ verb _ => verb == "stop"
  | .safeExit .. => true
  | _ => false

def Invocation.startsCycle : Invocation → Bool
  | .ssh _ command => command.startsCycle
  | _ => false

/-- The command a look at a node begins with. -/
def Invocation.inspects : Invocation → Bool
  | .ssh _ (.systemctlShow _) => true
  | _ => false

/-- A cycle command begins the flight of a node. Once it has been waited for, the node is
looked at again, with nothing awaited in between. -/
def flight (flying : Bool) (event : OpsEvent) : Bool :=
  match event.op with
  | .runner invocation => !invocation.inspects && (flying || invocation.startsCycle)
  | _ => flying

/-- Between the first cycle command and the end of the wait for its node. -/
def inFlight {α : Type} : Task opsSignature Exn α → Bool
  | (.done _, _) => false
  | (.call (.runner invocation) _, history) => !invocation.inspects && history.foldl flight false
  | (.call _ _, history) => history.foldl flight false

section Calls

variable {ι : Type} [Fintype ι]

def nodesInFlight (calls : ι → CycleCall) (s : EventLoop opsSignature Exn Unit ι) :
    Finset String :=
  (Finset.univ.filter fun i => inFlight (s.tasks i) = true).image fun i => (calls i).nodeName

/-- No interleaving ever has more nodes of the cluster in flight than its policy says. -/
def RestartsLimited [DecidableEq ι] (fleet : Fleet) (policy : Policy) (clusterName : String)
    (calls : ι → CycleCall) : Prop :=
  ∀ s, EventLoop.Reachable OpsEffect.awaits (fun i => (calls i).program fleet policy) s →
    ((nodesInFlight calls s).card : Int) ≤ (policy.forCluster clusterName).maxConcurrentRestarts

end Calls

/-! ## Calls that can get to their cycle -/

def PlanResult.allowed : PlanResult → Bool
  | .error _ => false
  | .planned decision .. => decision.allowed

/-- A restart always can, an upgrade if its plan is allowed. -/
def CycleCall.canCycle (fleet : Fleet) (policy : Policy) : CycleCall → Bool
  | .restart .. => true
  | .upgrade nodeName targetVersion .. => (planUpgrade fleet nodeName targetVersion policy).allowed

/-- With some answers the program comes to a sample of its node with the node in flight. -/
def Flies {α : Type} (p : OpsProgram α) : Prop :=
  ∀ history, ∃ trace node referenceRpc next,
    Reaches recorded (p, history) (.call (.sample node referenceRpc) next, history ++ trace) ∧
      ∀ flying, trace.foldl flight flying = true

section Flies

variable {α β : Type} {p : OpsProgram α} {f : α → OpsProgram β} {first : List OpsEvent} {a : α}

theorem Flies.after (h : Runs p first (.ok a)) (hf : Flies (f a)) : Flies (p >>= f) := by
  intro history
  rcases hf (history ++ first) with ⟨trace, node, referenceRpc, next, hreaches, hflight⟩
  refine ⟨first ++ trace, node, referenceRpc, next, ?_, fun flying => ?_⟩
  · rw [← List.append_assoc]
    exact h.reaches_bind hreaches
  · rw [List.foldl_append]
    exact hflight _

theorem Flies.bind (hp : Flies p) : Flies (p >>= f) := by
  intro history
  rcases hp history with ⟨trace, node, referenceRpc, next, hreaches, hflight⟩
  exact ⟨trace, node, referenceRpc, _, hreaches.bind f, hflight⟩

theorem Flies.map {g : α → β} (hp : Flies p) : Flies (g <$> p) := by
  rw [map_eq_bind]
  exact hp.bind

/-- The wait for the node begins with a sample. -/
theorem waitForCatchup_eq_sample (node : Node) (referenceRpc : String) (maxLag : Int) :
    ∃ next, waitForCatchup node referenceRpc maxLag defaultCatchupTimeout =
      .call (.sample node referenceRpc) next := by
  have hrounds : catchupRounds defaultCatchupTimeout 0 = 120 + 1 := rfl
  unfold waitForCatchup
  rw [hrounds]
  exact ⟨_, rfl⟩

/-- A program flies that cycles its node and waits for it. -/
theorem flies_wait {node : Node} {referenceRpc : String} {maxLag : Int}
    {g : Catchup → OpsProgram β} (h : Runs p first (.ok a))
    (hflight : ∀ flying, first.foldl flight flying = true)
    (hf : f a = waitForCatchup node referenceRpc maxLag defaultCatchupTimeout >>= g) :
    Flies (p >>= f) := by
  intro history
  rcases waitForCatchup_eq_sample node referenceRpc maxLag with ⟨next, heq⟩
  have hwait : Reaches recorded (f a, history ++ first)
      (.call (.sample node referenceRpc) fun answer => next answer >>= g, history ++ first) := by
    rw [hf, heq]
    exact .refl _
  exact ⟨first, node, referenceRpc, _, h.reaches_bind hwait, hflight⟩

end Flies

/-! ## The two operations -/

/-- A service that is up. -/
def activeService : CommandResult := ⟨0, "ActiveState=active", ""⟩

theorem readServiceState_active (node : Node) :
    (readServiceState node activeService).active = some "active" := by
  have hvalues : (keyValues activeService.stdout).get? "ActiveState" = some "active" := by decide
  exact hvalues

section Operations

variable {fleet : Fleet} {policy : Policy} {nodeName clusterName : String} {cluster : Cluster}
  {node : Node}

theorem runs_answered (op : OpsEffect) (answer : op.Answer) :
    Runs (perform (S := opsSignature) (ε := Exn) op) [⟨op, .ok answer⟩] (.ok answer) :=
  runs_perform_iff.mpr rfl

theorem cycleService_takesOff (node : Node) (rules : PolicyRules) :
    ∃ trace cycle, Runs (cycleService node rules) trace (.ok cycle) ∧
      ∀ flying, trace.foldl flight flying = true := by
  unfold cycleService
  by_cases hrole : node.role = .validator
  · rw [if_pos hrole]
    refine ⟨_, _, runs_map_ok_iff.mpr ⟨_, runs_runOn_bind (exitWith true) (.done _), rfl⟩, ?_⟩
    exact fun flying => Bool.or_true flying
  · rw [if_neg hrole]
    refine ⟨_, _, runs_bind_ok_iff.mpr ⟨_, _, _, runs_runOn_bind (exitWith true) (.done _),
      runs_bind_ok_iff.mpr ⟨_, _, _, runs_runOn_bind (exitWith true) (.done _), .done _, rfl⟩,
      rfl⟩, ?_⟩
    intro flying
    cases flying
    · rfl
    · rfl

theorem flies_restartNode (hf : fleet.findNode nodeName = some (clusterName, cluster, node))
    (audit : Bool) (maxLag : Int) :
    Flies (restartNode fleet nodeName true policy audit maxLag) := by
  rcases runs_inspectNode_of node activeService with ⟨trace, before, hbefore, hservice, hpcts⟩
  have hread : Runs (Program.ofExcept (usePcts before) : OpsProgram (List Nat)) [] (.ok []) :=
    runs_ofExcept_iff.mpr ⟨rfl, hpcts.symm⟩
  unfold restartNode
  rw [hf]
  apply Flies.after hbefore
  apply Flies.after hread
  apply Flies.after (runs_answered (.leader node cluster.referenceRpc _) none)
  have hopens : (restartRequest clusterName cluster node nodeName (policy.forCluster clusterName)
      maxLag before []).Opens true := by
    refine ⟨rfl, gate_allowed_iff.mpr ?_⟩
    simp only [restartRequest, List.forall_mem_cons]
    refine ⟨?_, ?_, diskFreeOk_nil _, nofun⟩
    · rw [hservice]
      rfl
    · rw [hservice, readServiceState_active]
      rfl
  unfold gated
  rw [if_pos hopens]
  apply Flies.after (runs_answered (.sample node cluster.referenceRpc) {})
  rcases cycleService_takesOff node (policy.forCluster clusterName) with
      ⟨cycled, cycle, hcycle, hflight⟩
  exact flies_wait hcycle hflight rfl

theorem updateMarker_keepsFlight (node : Node) (version : String) :
    ∃ trace marker, Runs (updateMarker node version) trace (.ok marker) ∧
      ∀ flying, trace.foldl flight flying = flying := by
  have hskipped : ∃ trace marker, Runs (pure .skipped : OpsProgram MarkerResult) trace
      (.ok marker) ∧
      ∀ flying, trace.foldl flight flying = flying := ⟨[], _, .done _, fun _ => rfl⟩
  unfold updateMarker
  split
  · exact hskipped
  · split
    · exact hskipped
    · refine ⟨_, _, runs_runOn_bind (exitWith true) (.done _), fun flying => Bool.or_false flying⟩

theorem swapAndCycle_takesOff (node : Node) (rules : PolicyRules) (version : String)
    (swaps : List Swap) :
    ∃ trace done, Runs (swapAndCycle node rules version swaps) trace (.ok done) ∧
      ∀ flying, trace.foldl flight flying = true := by
  rcases updateMarker_keepsFlight node version with ⟨marked, marker, hmarker, hkept⟩
  unfold swapAndCycle
  by_cases hrole : node.role = .validator
  · rw [if_pos hrole]
    refine ⟨_, _, runs_bind_ok_iff.mpr ⟨_, _, _, runs_runOn_bind (exitWith true) (.done _),
      runs_bind_ok_iff.mpr ⟨_, _, _, hmarker, runs_bind_ok_iff.mpr ⟨_, _, _,
        runs_runOn_bind (exitWith true) (.done _), .done _, rfl⟩, rfl⟩, rfl⟩, ?_⟩
    intro flying
    simp only [List.foldl_append, List.append_nil]
    exact Bool.or_true _
  · rw [if_neg hrole]
    refine ⟨_, _, runs_bind_ok_iff.mpr ⟨_, _, _, runs_runOn_bind (exitWith true) (.done _),
      runs_bind_ok_iff.mpr ⟨_, _, _, runs_runOn_bind (exitWith true) (.done _),
        runs_bind_ok_iff.mpr ⟨_, _, _, hmarker, runs_bind_ok_iff.mpr ⟨_, _, _,
          runs_runOn_bind (exitWith true) (.done _), .done _, rfl⟩, rfl⟩, rfl⟩, rfl⟩, ?_⟩
    intro flying
    simp only [List.foldl_append, List.append_nil, hkept]
    cases flying
    · rfl
    · rfl

theorem flies_executeUpgrade (hf : fleet.findNode nodeName = some (clusterName, cluster, node))
    {version : String} (audit : Bool) (maxLag : Int) (forceBuild : Bool)
    (hplan : (gate (planRequest fleet clusterName cluster node nodeName
      (policy.forCluster clusterName) version) false).allowed = true) :
    Flies (executeUpgrade fleet nodeName version true policy audit maxLag forceBuild) := by
  rcases runs_inspectNode node with ⟨trace, before, hbefore, hreachable, hpcts⟩
  rcases Option.isSome_iff_exists.mp (planRequest_allowed hplan).2.1 with ⟨builder, hbuilder⟩
  rcases (install_of_builderOf hbuilder).1 with ⟨install, hinstall⟩
  have hread : Runs (Program.ofExcept (usePcts before) : OpsProgram (List Nat)) [] (.ok []) :=
    runs_ofExcept_iff.mpr ⟨rfl, hpcts.symm⟩
  unfold executeUpgrade
  rw [hf]
  apply Flies.after hbefore
  apply Flies.after hread
  have hopens := upgradeRequest_opens_of_planned hplan hreachable
    (diskFreeOk_nil (policy.forCluster clusterName))
  unfold gated
  rw [if_pos hopens]
  apply Flies.bind
  unfold upgradeWith
  rw [hinstall, hbuilder]
  rcases runs_buildArtifacts_hashed (.builder builder) install version forceBuild with
    ⟨built, build, hbuild, hok, hhashed⟩
  apply Flies.after hbuild
  rw [if_pos hok]
  rcases runs_distribute_hashed (.builder builder) node hhashed with ⟨pushed, dist, hdist, hdistOk⟩
  apply Flies.after hdist
  rw [if_pos hdistOk]
  apply Flies.map
  rcases swapAndCycle_takesOff node (policy.forCluster clusterName) version dist.swaps with
    ⟨cycled, done, hcycle, hflight⟩
  exact flies_wait hcycle hflight rfl

end Operations

/-! ## Who can be in flight -/

section Bound

variable {fleet : Fleet} {policy : Policy} {clusterName : String}

theorem planUpgrade_allowed {nodeName version : String} {cluster : Cluster} {node : Node}
    (hf : fleet.findNode nodeName = some (clusterName, cluster, node)) :
    (planUpgrade fleet nodeName version policy).allowed =
      (gate (planRequest fleet clusterName cluster node nodeName (policy.forCluster clusterName)
        version) false).allowed := by
  unfold planUpgrade
  rw [hf]
  rfl

theorem CycleCall.flies {c : CycleCall} {cluster : Cluster} {node : Node}
    (hf : fleet.findNode c.nodeName = some (clusterName, cluster, node))
    (hcan : c.canCycle fleet policy = true) : Flies (c.program fleet policy) := by
  cases c with
  | restart nodeName audit maxLag => exact (flies_restartNode hf audit maxLag).map
  | upgrade nodeName version audit maxLag forceBuild =>
      have hfound : fleet.findNode nodeName = some (clusterName, cluster, node) := hf
      have hplan : (planUpgrade fleet nodeName version policy).allowed = true := hcan
      rw [planUpgrade_allowed hfound] at hplan
      exact (flies_executeUpgrade hfound audit maxLag forceBuild hplan).map

/-- An upgrade whose plan is refused sends nothing but its look at the node. -/
theorem CycleCall.grounded {c : CycleCall} {cluster : Cluster} {node : Node}
    (hf : fleet.findNode c.nodeName = some (clusterName, cluster, node))
    (hcan : c.canCycle fleet policy = false) :
    (c.program fleet policy).AllCalls (OpsEffect.Sends fun i => i.startsCycle = false) := by
  cases c with
  | restart => cases hcan
  | upgrade nodeName version audit maxLag forceBuild =>
      have hfound : fleet.findNode nodeName = some (clusterName, cluster, node) := hf
      have hplan : (planUpgrade fleet nodeName version policy).allowed = false := hcan
      rw [planUpgrade_allowed hfound] at hplan
      refine AllCalls.map _ ?_
      unfold executeUpgrade
      rw [hfound]
      have hlook : (inspectNode node).AllCalls (OpsEffect.Sends fun i => i.startsCycle = false) :=
        allCalls_inspectNode (forall_inspectInvocations (fun _ => rfl) (fun _ => rfl)
          (fun _ => rfl) fun _ => rfl)
      refine hlook.bind fun before => ?_
      have hread : (Program.ofExcept (usePcts before) : OpsProgram (List Nat)).AllCalls
          (OpsEffect.Sends fun i => i.startsCycle = false) := trivial
      refine hread.bind fun pcts => ?_
      have hclosed : ¬ (upgradeRequest fleet clusterName cluster node nodeName
          (policy.forCluster clusterName) version before pcts).Opens true := by
        intro hopens
        have hallowed := upgradeRequest_allowed hopens.2
        rw [hplan] at hallowed
        cases hallowed
      unfold gated
      rw [if_neg hclosed]
      exact allCalls_recordOps_pure ..

theorem not_flight_of_grounded {history : List OpsEvent}
    (h : ∀ event ∈ history, OpsEffect.Sends (fun i => i.startsCycle = false) event.op) :
    history.foldl flight false = false := by
  induction history with
  | nil => rfl
  | cons event history ih =>
      have hrest := List.forall_mem_cons.mp h
      have hfirst : flight false event = false := by
        rcases event with ⟨op, answer⟩
        cases op with
        | runner invocation =>
            have hstill : invocation.startsCycle = false := hrest.1 invocation rfl
            simp only [flight, hstill, Bool.or_false, Bool.and_false]
        | mkdtemp => rfl
        | sample => rfl
        | leader => rfl
        | sleep => rfl
        | audit => rfl
      rw [List.foldl_cons, hfirst]
      exact ih hrest.2

theorem inFlight_history {α : Type} {t : Task opsSignature Exn α} (h : inFlight t = true) :
    t.2.foldl flight false = true := by
  rcases t with ⟨p, history⟩
  cases p with
  | done r => cases h
  | call op next =>
      cases op with
      | runner invocation => exact (Bool.and_eq_true_iff.mp h).2
      | mkdtemp => exact h
      | sample => exact h
      | leader => exact h
      | sleep => exact h
      | audit => exact h

variable {ι : Type} [DecidableEq ι] {calls : ι → CycleCall}

/-- A node in flight is one whose call can get to its cycle. -/
theorem canCycle_of_inFlight {s : EventLoop opsSignature Exn Unit ι}
    (hnodes : ∀ i, ∃ cluster node,
      fleet.findNode (calls i).nodeName = some (clusterName, cluster, node))
    (hs : EventLoop.Reachable OpsEffect.awaits (fun i => (calls i).program fleet policy) s)
    {i : ι} (hi : inFlight (s.tasks i) = true) : (calls i).canCycle fleet policy = true := by
  rcases hnodes i with ⟨cluster, node, hf⟩
  by_contra hcan
  have hgrounded := CycleCall.grounded hf (Bool.eq_false_of_not_eq_true hcan)
  have hhistory := not_flight_of_grounded (hgrounded.reaches_recorded (hs.task i))
  rw [inFlight_history hi] at hhistory
  cases hhistory

variable [Fintype ι]

variable (policy) in
/-- All calls that can get to their cycle can have their nodes in flight at once. -/
theorem exists_all_inFlight
    (hnodes : ∀ i, ∃ cluster node,
      fleet.findNode (calls i).nodeName = some (clusterName, cluster, node)) :
    ∃ s, EventLoop.Reachable OpsEffect.awaits (fun i => (calls i).program fleet policy) s ∧
      ∀ i, (calls i).canCycle fleet policy = true → inFlight (s.tasks i) = true := by
  have htarget : ∀ i, ∃ t : Task opsSignature Exn Unit, (calls i).canCycle fleet policy = true →
      Reaches recorded ((calls i).program fleet policy, []) t ∧
        t.1.Suspended OpsEffect.awaits ∧ inFlight t = true := by
    intro i
    rcases hnodes i with ⟨cluster, node, hf⟩
    by_cases hcan : (calls i).canCycle fleet policy = true
    · rcases CycleCall.flies hf hcan [] with
        ⟨trace, sampled, referenceRpc, next, hreaches, hflight⟩
      exact ⟨_, fun _ => ⟨hreaches, trivial, hflight false⟩⟩
    · exact ⟨((calls i).program fleet policy, []), fun h => absurd h hcan⟩
  choose target htarget using htarget
  refine ⟨_, EventLoop.reachable_all (Finset.univ.filter fun i =>
    (calls i).canCycle fleet policy = true) target (fun i hi => ?_), fun i hcan => ?_⟩
  · have hcan := (Finset.mem_filter.mp hi).2
    exact ⟨(htarget i hcan).1, (htarget i hcan).2.1⟩
  · have hmem : i ∈ Finset.univ.filter fun i => (calls i).canCycle fleet policy = true :=
      Finset.mem_filter.mpr ⟨Finset.mem_univ i, hcan⟩
    show inFlight (if i ∈ _ then target i else _) = true
    rw [if_pos hmem]
    exact (htarget i hcan).2.2

/-- The limit of a cluster holds in every interleaving if and only if no more of the calls than
it allows can get to their cycle at all. -/
theorem restarts_limited_iff
    (hnodes : ∀ i, ∃ cluster node,
      fleet.findNode (calls i).nodeName = some (clusterName, cluster, node))
    (hdistinct : Function.Injective fun i => (calls i).nodeName) :
    RestartsLimited fleet policy clusterName calls ↔
      ((Finset.univ.filter fun i => (calls i).canCycle fleet policy = true).card : Int) ≤
        (policy.forCluster clusterName).maxConcurrentRestarts := by
  constructor
  · intro hlimited
    rcases exists_all_inFlight policy hnodes with ⟨s, hs, hflying⟩
    have hsubset : (Finset.univ.filter fun i => (calls i).canCycle fleet policy = true) ⊆
        Finset.univ.filter fun i => inFlight (s.tasks i) = true := by
      intro i hi
      exact Finset.mem_filter.mpr ⟨Finset.mem_univ i, hflying i (Finset.mem_filter.mp hi).2⟩
    have hcard := Finset.card_le_card hsubset
    have himage : (nodesInFlight calls s).card =
        (Finset.univ.filter fun i => inFlight (s.tasks i) = true).card :=
      Finset.card_image_of_injective _ hdistinct
    have hbound := hlimited s hs
    omega
  · intro hfew s hs
    have hsubset : (Finset.univ.filter fun i => inFlight (s.tasks i) = true) ⊆
        Finset.univ.filter fun i => (calls i).canCycle fleet policy = true := by
      intro i hi
      exact Finset.mem_filter.mpr
        ⟨Finset.mem_univ i, canCycle_of_inFlight hnodes hs (Finset.mem_filter.mp hi).2⟩
    have hcard := Finset.card_le_card hsubset
    have himage : (nodesInFlight calls s).card ≤
        (Finset.univ.filter fun i => inFlight (s.tasks i) = true).card := Finset.card_image_le
    omega

end Bound

/-! ## Two restarts under a limit of one -/

section Pair

/-- Two rpc nodes of one cluster, under the default policy. -/
def restartFleet : AcceptedFleet where
  fleet :=
    { clusters := ⟨[("mainnet",
        { referenceRpc := "https://rpc"
          nodes :=
            [{ name := "rpc-1", role := .rpc, host := "10.0.0.1",
               rpcUrl := some "http://10.0.0.1" },
             { name := "rpc-2", role := .rpc, host := "10.0.0.2",
               rpcUrl := some "http://10.0.0.2" }] })],
        by decide⟩ }
  accepted := by decide

def bothRestart (i : Bool) : CycleCall := .restart (if i then "rpc-1" else "rpc-2") true 2

theorem bothRestart_nodes (i : Bool) : ∃ cluster node,
    restartFleet.fleet.findNode (bothRestart i).nodeName = some ("mainnet", cluster, node) := by
  cases i
  · exact ⟨_, _, rfl⟩
  · exact ⟨_, _, rfl⟩

theorem bothRestart_distinct : Function.Injective fun i => (bothRestart i).nodeName := by decide

theorem restarts_exceed_limit :
    ¬ ∀ (a : AcceptedFleet) (policy : Policy) (clusterName : String) (calls : Bool → CycleCall),
      (∀ i, ∃ cluster node,
        a.fleet.findNode (calls i).nodeName = some (clusterName, cluster, node)) →
      (Function.Injective fun i => (calls i).nodeName) →
      RestartsLimited a.fleet policy clusterName calls := by
  intro h
  have hlimited := h restartFleet {} "mainnet" bothRestart bothRestart_nodes bothRestart_distinct
  rcases exists_all_inFlight {} bothRestart_nodes with ⟨s, hs, hflying⟩
  have hboth : nodesInFlight bothRestart s = {"rpc-1", "rpc-2"} := by
    have hall : (Finset.univ.filter fun i => inFlight (s.tasks i) = true) = Finset.univ :=
      Finset.filter_true_of_mem fun i _ => hflying i rfl
    unfold nodesInFlight
    rw [hall]
    decide
  have hcard := hlimited s hs
  rw [hboth] at hcard
  exact absurd hcard (by decide)

theorem restarts_limited_iff_pair :
    RestartsLimited restartFleet.fleet {} "mainnet" bothRestart ↔
      ((Finset.univ.filter fun i =>
        (bothRestart i).canCycle restartFleet.fleet {} = true).card : Int) ≤ 1 :=
  restarts_limited_iff bothRestart_nodes bothRestart_distinct

end Pair

end Solfleet
