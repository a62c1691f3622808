import Solfleet.Failover.Reconcile
import Solfleet.Library.Matched

/-! # Which node a member name means

Three lookups resolve the members of a pool: `nodeIps` and `statusByName` keep
the last node of a name, `findNode` takes the first. Names are unique within a
cluster only, so a name that two clusters share can lead away from the node of
the pool's own cluster. `Unshadowed` says exactly when it does not.
-/

namespace Solfleet

open Interaction Program

/-! ## Probe results in fleet order -/

def ClusterProbed (entry : String × Cluster) (found : ClusterStatus) : Prop :=
  found.name = entry.1 ∧
    List.Forall₂ (fun node status => status.name = node.name ∧ status.cluster = entry.1)
      entry.2.nodes found.nodes

instance (entry : String × Cluster) (found : ClusterStatus) :
    Decidable (ClusterProbed entry found) :=
  inferInstanceAs (Decidable (_ ∧ _))

def Probed (fleet : Fleet) (clusters : List ClusterStatus) : Prop :=
  List.Forall₂ ClusterProbed fleet.clusters.entries clusters

instance (fleet : Fleet) (clusters : List ClusterStatus) : Decidable (Probed fleet clusters) :=
  inferInstanceAs (Decidable (List.Forall₂ _ _ _))

/-- The node of that name in the pool's own cluster, and what the probe found of it. -/
structure PoolNode (fleet : Fleet) (clusters : List ClusterStatus) (pool : Pool) (m : String)
    (node : Node) (status : NodeStatus) : Prop where
  named : node.name = m
  probed : ∃ cluster found,
    ((pool.cluster, cluster), found) ∈ fleet.clusters.entries.zip clusters ∧
      (node, status) ∈ cluster.nodes.zip found.nodes

structure ResolvesTo (fleet : Fleet) (clusters : List ClusterStatus) (m : String) (node : Node)
    (status : NodeStatus) : Prop where
  watched : (nodeIps fleet).get? m = some node.host
  judged : (statusByName clusters).get? m = some status
  overridden : (fleet.findNode m).map (·.2.2.host) = some node.host

/-- No cluster behind the pool's has a node of that name, and the first node of that
name ahead of it, if there is one, has the host of the pool's own node. -/
def Unshadowed (fleet : Fleet) (pool : Pool) (m : String) : Prop :=
  ∀ before cluster after, fleet.clusters.entries = before ++ (pool.cluster, cluster) :: after →
    (∀ entry ∈ after, ∀ node ∈ entry.2.nodes, node.name ≠ m) ∧
      ∀ node ∈ cluster.nodes, node.name = m → ∀ first,
        (before.flatMap (·.2.nodes)).find? (fun n => decide (n.name = m)) = some first →
          first.host = node.host

/-! ## A fleet split at one cluster -/

section Split

variable {fleet : Fleet} {clusters : List ClusterStatus} {m : String}
  {before after : List (String × Cluster)} {key : String} {cluster : Cluster}
  {ahead behind : List ClusterStatus} {found : ClusterStatus}

theorem Fleet.nodes_split (hentries : fleet.clusters.entries = before ++ (key, cluster) :: after) :
    fleet.nodes = before.flatMap (·.2.nodes) ++ (cluster.nodes ++ after.flatMap (·.2.nodes)) := by
  simp [Fleet.nodes, Dict.values, hentries, List.flatMap_map]

theorem Probed.split (h : Probed fleet clusters)
    (hentries : fleet.clusters.entries = before ++ (key, cluster) :: after) :
    ∃ ahead found behind, clusters = ahead ++ found :: behind ∧ ahead.length = before.length := by
  have hlength : clusters.length = before.length + (after.length + 1) := by
    simpa [hentries] using (List.Forall₂.length_eq h).symm
  have hlt : before.length < clusters.length := by omega
  refine ⟨clusters.take before.length, clusters[before.length],
    clusters.drop (before.length + 1), ?_, by simp; omega⟩
  simp

theorem Probed.matched (h : Probed fleet clusters)
    (hentries : fleet.clusters.entries = before ++ (key, cluster) :: after)
    (hclusters : clusters = ahead ++ found :: behind) (hlen : ahead.length = before.length) :
    ClusterProbed (key, cluster) found ∧ List.Forall₂ ClusterProbed after behind := by
  unfold Probed at h
  rw [hentries, hclusters] at h
  have hdrop := List.forall₂_drop_append _ _ _ h
  rw [hlen, List.drop_left] at hdrop
  cases hdrop with
  | cons hcluster hafter => exact ⟨hcluster, hafter⟩

theorem ClusterProbed.names_eq {entry : String × Cluster} (h : ClusterProbed entry found) :
    found.nodes.map (·.name) = entry.2.nodes.map (·.name) := by
  have hnames := h.2.imp fun _ _ hs => hs.1
  generalize entry.2.nodes = nodes at hnames
  generalize found.nodes = statuses at hnames
  induction hnames with
  | nil => rfl
  | cons hname _ ih => simp [hname, ih]

theorem exists_node_of_status {entries : List (String × Cluster)}
    (h : List.Forall₂ ClusterProbed entries clusters) {status : NodeStatus}
    (hs : status ∈ clusters.flatMap (·.nodes)) :
    ∃ entry ∈ entries, status.cluster = entry.1 ∧
      ∃ node ∈ entry.2.nodes, node.name = status.name := by
  obtain ⟨found, hfound, hs⟩ := List.mem_flatMap.mp hs
  obtain ⟨entry, hentry, hprobed⟩ := forall₂_exists_left h hfound
  obtain ⟨node, hnode, hname, hcluster⟩ := forall₂_exists_left hprobed.2 hs
  exact ⟨entry, hentry, hcluster, node, hnode, hname.symm⟩

theorem exists_status_of_node {entries : List (String × Cluster)}
    (h : List.Forall₂ ClusterProbed entries clusters) {entry : String × Cluster}
    (hentry : entry ∈ entries) {node : Node} (hnode : node ∈ entry.2.nodes) :
    ∃ status ∈ clusters.flatMap (·.nodes), status.name = node.name := by
  obtain ⟨found, hfound, hprobed⟩ := forall₂_exists_right h hentry
  obtain ⟨status, hstatus, hname, -⟩ := forall₂_exists_right hprobed.2 hnode
  exact ⟨status, List.mem_flatMap.mpr ⟨found, hfound, hstatus⟩, hname⟩

/-! ## The three lookups on the parts -/

theorem nodeIps_of_split (hentries : fleet.clusters.entries = before ++ (key, cluster) :: after)
    (hnames : (cluster.nodes.map (·.name)).Nodup) {node : Node} (hnode : node ∈ cluster.nodes)
    (hname : node.name = m) (hlast : ∀ entry ∈ after, ∀ n ∈ entry.2.nodes, n.name ≠ m) :
    (nodeIps fleet).get? m = some node.host := by
  have hbehind : (Dict.ofPairs ((after.flatMap (·.2.nodes)).map fun n => (n.name, n.host))).get? m
      = none := by
    rw [Dict.get?_ofPairs_eq_none_iff]
    intro hmem
    obtain ⟨n, hn, heq⟩ : ∃ n ∈ after.flatMap (·.2.nodes), n.name = m := by
      simpa using hmem
    obtain ⟨entry, hentry, hn⟩ := List.mem_flatMap.mp hn
    exact hlast entry hentry n hn heq
  have hown : (Dict.ofPairs (cluster.nodes.map fun n => (n.name, n.host))).get? m
      = some node.host := by
    refine Dict.get?_ofPairs_of_nodup ?_ (List.mem_map.mpr ⟨node, hnode, by rw [hname]⟩)
    simpa [Function.comp_def] using hnames
  simp only [nodeIps, Fleet.nodes_split hentries, List.map_append, Dict.get?_ofPairs_append,
    hbehind, hown, Option.none_or, Option.some_or]

theorem statusByName_of_split (hown : ClusterProbed (key, cluster) found)
    (hbehind : List.Forall₂ ClusterProbed after behind)
    (hclusters : clusters = ahead ++ found :: behind)
    (hnames : (cluster.nodes.map (·.name)).Nodup) {node : Node} {status : NodeStatus}
    (hzip : (node, status) ∈ cluster.nodes.zip found.nodes) (hname : node.name = m)
    (hlast : ∀ entry ∈ after, ∀ n ∈ entry.2.nodes, n.name ≠ m) :
    (statusByName clusters).get? m = some status := by
  have hnone : (Dict.ofPairs ((behind.flatMap (·.nodes)).map fun n => (n.name, n))).get? m
      = none := by
    rw [Dict.get?_ofPairs_eq_none_iff]
    intro hmem
    obtain ⟨status, hs, rfl⟩ : ∃ status ∈ behind.flatMap (·.nodes), status.name = m := by
      simpa using hmem
    obtain ⟨entry, hentry, -, node, hnode, heq⟩ := exists_node_of_status hbehind hs
    exact hlast entry hentry node hnode heq
  have hsome : (Dict.ofPairs (found.nodes.map fun n => (n.name, n))).get? m = some status := by
    have hstatus : status.name = m :=
      (List.forall₂_zip hown.2 hzip).1.trans hname
    refine Dict.get?_ofPairs_of_nodup ?_
      (List.mem_map.mpr ⟨status, (List.of_mem_zip hzip).2, by rw [hstatus]⟩)
    simpa [Function.comp_def, hown.names_eq] using hnames
  simp only [statusByName, hclusters, List.flatMap_append, List.flatMap_cons, List.map_append,
    Dict.get?_ofPairs_append, hnone, hsome, Option.none_or, Option.some_or]

theorem statusByName_of_later (hbehind : List.Forall₂ ClusterProbed after behind)
    (hclusters : clusters = ahead ++ found :: behind) {entry : String × Cluster}
    (hentry : entry ∈ after) {later : Node} (hlater : later ∈ entry.2.nodes)
    (hname : later.name = m) :
    ∃ status, (statusByName clusters).get? m = some status ∧ ∃ entry ∈ after,
      status.cluster = entry.1 := by
  obtain ⟨status, hs, hstatus⟩ := exists_status_of_node hbehind hentry hlater
  have hsome : ((Dict.ofPairs ((behind.flatMap (·.nodes)).map fun n => (n.name, n))).get? m).isSome
      := by
    rw [Dict.get?_ofPairs_isSome]
    simpa using ⟨status, List.mem_flatMap.mp hs, hstatus.trans hname⟩
  obtain ⟨last, hlast⟩ := Option.isSome_iff_exists.mp hsome
  have hmem : last ∈ behind.flatMap (·.nodes) := by
    obtain ⟨last', hmem, heq⟩ := List.mem_map.mp (Dict.mem_of_get?_ofPairs hlast)
    obtain ⟨-, rfl⟩ := Prod.mk.inj heq
    exact hmem
  obtain ⟨entry', hentry', hcluster, -⟩ := exists_node_of_status hbehind hmem
  refine ⟨last, ?_, entry', hentry', hcluster⟩
  simp only [statusByName, hclusters, List.flatMap_append, List.flatMap_cons, List.map_append,
    Dict.get?_ofPairs_append, hlast, Option.some_or]

theorem findNode_of_split (hentries : fleet.clusters.entries = before ++ (key, cluster) :: after)
    (hnames : (cluster.nodes.map (·.name)).Nodup) {node : Node} (hnode : node ∈ cluster.nodes)
    (hname : node.name = m) :
    (fleet.findNode m).map (·.2.2) =
      ((before.flatMap (·.2.nodes)).find? fun n => decide (n.name = m)).or (some node) := by
  have hown : (cluster.nodes.find? fun n => decide (n.name = m)) = some node := by
    obtain ⟨first, hfirst⟩ : ∃ first,
        (cluster.nodes.find? fun n => decide (n.name = m)) = some first := by
      rw [← Option.isSome_iff_exists, List.find?_isSome]
      exact ⟨node, hnode, by simpa using hname⟩
    have heq : first = node := List.inj_on_of_nodup_map hnames
      (List.mem_of_find?_eq_some hfirst) hnode
        ((by simpa using List.find?_some hfirst : first.name = m).trans hname.symm)
    rw [hfirst, heq]
  rw [Fleet.findNode_node, Fleet.nodes_split hentries, List.find?_append, List.find?_append, hown,
    Option.some_or]

/-- On a split at the node's own cluster: when the three lookups agree on the node. -/
theorem resolvesTo_iff_of_split (hprobed : Probed fleet clusters)
    (hentries : fleet.clusters.entries = before ++ (key, cluster) :: after)
    (hclusters : clusters = ahead ++ found :: behind) (hlen : ahead.length = before.length)
    (hnames : (cluster.nodes.map (·.name)).Nodup) {node : Node} {status : NodeStatus}
    (hzip : (node, status) ∈ cluster.nodes.zip found.nodes) (hname : node.name = m) :
    ResolvesTo fleet clusters m node status ↔
      (∀ entry ∈ after, ∀ n ∈ entry.2.nodes, n.name ≠ m) ∧ ∀ first,
        (before.flatMap (·.2.nodes)).find? (fun n => decide (n.name = m)) = some first →
          first.host = node.host := by
  obtain ⟨hown, hbehind⟩ := hprobed.matched hentries hclusters hlen
  have hnode := (List.of_mem_zip hzip).1
  have hfound : (fleet.findNode m).map (·.2.2.host) =
      (((before.flatMap (·.2.nodes)).find? fun n => decide (n.name = m)).or (some node)).map
        (·.host) := by
    rw [← findNode_of_split hentries hnames hnode hname, Option.map_map]
    rfl
  have hhost : (fleet.findNode m).map (·.2.2.host) = some node.host ↔ ∀ first,
      (before.flatMap (·.2.nodes)).find? (fun n => decide (n.name = m)) = some first →
        first.host = node.host := by
    rw [hfound]
    cases (before.flatMap (·.2.nodes)).find? fun n => decide (n.name = m) with
    | none => simp
    | some first => simp
  constructor
  · intro h
    refine ⟨fun entry hentry later hlater heq => ?_, hhost.mp h.overridden⟩
    -- the status found last states a cluster behind the node's own
    obtain ⟨last, hlast, entry', hentry', hcluster⟩ :=
      statusByName_of_later hbehind hclusters hentry hlater heq
    obtain rfl : status = last := Option.some_inj.mp (h.judged.symm.trans hlast)
    have hkey : status.cluster = key := (List.forall₂_zip hown.2 hzip).2
    have hkeys := fleet.clusters.nodup
    rw [hentries, List.map_append, List.map_cons] at hkeys
    refine (List.nodup_cons.mp (List.nodup_append.mp hkeys).2.1).1 ?_
    exact List.mem_map.mpr ⟨entry', hentry', hcluster.symm.trans hkey⟩
  · rintro ⟨hlast, hfirst⟩
    exact ⟨nodeIps_of_split hentries hnames hnode hname hlast,
      statusByName_of_split hown hbehind hclusters hnames hzip hname hlast, hhost.mpr hfirst⟩

end Split

/-! ## One node per name -/

theorem AcceptedFleet.exists_poolNode (a : AcceptedFleet) {pool : Pool}
    (hp : pool ∈ a.fleet.pools) {m : String} (hm : m ∈ pool.members)
    {clusters : List ClusterStatus} (hprobed : Probed a.fleet clusters) :
    ∃ node status, PoolNode a.fleet clusters pool m node status := by
  obtain ⟨cluster, hcluster, node, hnode, hname⟩ := a.exists_node_of_member hp hm
  obtain ⟨found, hzip, hown⟩ : ∃ found,
      ((pool.cluster, cluster), found) ∈ a.fleet.clusters.entries.zip clusters ∧
        ClusterProbed (pool.cluster, cluster) found :=
    forall₂_exists_zip hprobed (Dict.get?_eq_some_iff.mp hcluster)
  obtain ⟨status, hstatus, -⟩ := forall₂_exists_zip hown.2 hnode
  exact ⟨node, status, hname, cluster, found, hzip, hstatus⟩

/-- The lookups of the failover loop and of the overrides lead to the member's node in the
pool's cluster exactly when no other cluster's node of that name stands in their way. -/
theorem AcceptedFleet.resolvesTo_iff (a : AcceptedFleet) (pool : Pool)
    (hp : pool ∈ a.fleet.pools) (m : String) (hm : m ∈ pool.members)
    (clusters : List ClusterStatus) (hprobed : Probed a.fleet clusters) :
    (∀ node status, PoolNode a.fleet clusters pool m node status →
      ResolvesTo a.fleet clusters m node status) ↔ Unshadowed a.fleet pool m := by
  constructor
  · intro h before cluster after hentries
    have hnames := a.nodup_names (hentries ▸ List.mem_append_cons_self)
    obtain ⟨ahead, found, behind, hclusters, hlen⟩ := hprobed.split hentries
    have hown := (hprobed.matched hentries hclusters hlen).1
    have hresolved : ∀ node ∈ cluster.nodes, node.name = m → ∃ status,
        (node, status) ∈ cluster.nodes.zip found.nodes ∧
          ResolvesTo a.fleet clusters m node status := by
      intro node hnode hname
      obtain ⟨status, hzip, -⟩ := forall₂_exists_zip hown.2 hnode
      refine ⟨status, hzip, h node status ⟨hname, cluster, found, ?_, hzip⟩⟩
      rw [hentries, hclusters, List.zip_append hlen.symm]
      simp
    refine ⟨?_, fun node hnode hname => ?_⟩
    · obtain ⟨node, _, hname, cluster', found', hpool, hzip⟩ := a.exists_poolNode hp hm hprobed
      obtain rfl : cluster' = cluster :=
        Option.some_inj.mp ((Dict.get?_eq_some_iff.mpr (List.of_mem_zip hpool).1).symm.trans
          (Dict.get?_eq_some_iff.mpr (hentries ▸ List.mem_append_cons_self)))
      obtain ⟨status, hzip, hr⟩ := hresolved node (List.of_mem_zip hzip).1 hname
      exact ((resolvesTo_iff_of_split hprobed hentries hclusters hlen hnames hzip hname).mp hr).1
    · obtain ⟨status, hzip, hr⟩ := hresolved node hnode hname
      exact ((resolvesTo_iff_of_split hprobed hentries hclusters hlen hnames hzip hname).mp hr).2
  · rintro hun node status ⟨hname, cluster, found, hzip, hstatus⟩
    obtain ⟨before, after, ahead, behind, hentries, hclusters, hlen⟩ := exists_split_of_mem_zip hzip
    have hnames := a.nodup_names (hentries ▸ List.mem_append_cons_self)
    obtain ⟨hlast, hfirst⟩ := hun before cluster after hentries
    exact (resolvesTo_iff_of_split hprobed hentries hclusters hlen hnames hstatus hname).mpr
      ⟨hlast, hfirst node (List.of_mem_zip hstatus).1 hname⟩

/-! ## Two clusters with a node of one name -/

def ownPool : Pool where
  record := "rpc.example.com"
  cluster := "mainnet"
  members := ["rpc-1"]

/-- Each cluster has its own `rpc-1`; the record serves the one of `mainnet`. -/
def twinFleet : AcceptedFleet where
  fleet :=
    { clusters := ⟨[
        ("mainnet",
          { referenceRpc := "https://mainnet"
            nodes :=
              [{ name := "rpc-1", role := .rpc, host := "10.0.0.1", rpcUrl := some "http://m" }] }),
        ("testnet",
          { referenceRpc := "https://testnet"
            nodes :=
              [{ name := "rpc-1", role := .rpc, host := "10.1.0.1", rpcUrl := some "http://t" }] })],
        by decide⟩
      dns := some { provider := .cloudflare, zone := "example.com", pools := [ownPool] } }
  accepted := by decide

def twinProbe : List ClusterStatus :=
  ["mainnet", "testnet"].map fun cluster =>
    { name := cluster
      referenceRpc := "https://" ++ cluster
      nodes := [{ name := "rpc-1", cluster, role := .rpc, reachable := true,
                  healthy := some true }] }

/-- One machine is the `rpc-1` of both clusters, and `mainnet` comes last. -/
def sharedFleet : AcceptedFleet where
  fleet :=
    { clusters := ⟨[
        ("testnet",
          { referenceRpc := "https://testnet"
            nodes :=
              [{ name := "rpc-1", role := .rpc, host := "10.0.0.1", rpcUrl := some "http://t" }] }),
        ("mainnet",
          { referenceRpc := "https://mainnet"
            nodes :=
              [{ name := "rpc-1", role := .rpc, host := "10.0.0.1", rpcUrl := some "http://m" }] })],
        by decide⟩
      dns := some { provider := .cloudflare, zone := "example.com", pools := [ownPool] } }
  accepted := by decide

theorem resolvesTo_iff_twin :
    (∀ node status, PoolNode sharedFleet.fleet twinProbe.reverse ownPool "rpc-1" node status →
      ResolvesTo sharedFleet.fleet twinProbe.reverse "rpc-1" node status) ∧
    ¬ ∀ node status, PoolNode twinFleet.fleet twinProbe ownPool "rpc-1" node status →
      ResolvesTo twinFleet.fleet twinProbe "rpc-1" node status := by
  constructor
  · refine (sharedFleet.resolvesTo_iff ownPool (by decide) "rpc-1" (by decide) twinProbe.reverse
      (by decide)).mpr fun before cluster after hentries => ?_
    obtain _ | ⟨testnet, _ | ⟨_, before⟩⟩ := before
    · simp [sharedFleet, ownPool] at hentries
    · simp only [sharedFleet, ownPool, List.cons_append, List.nil_append, List.cons.injEq,
        Prod.mk.injEq, true_and] at hentries
      obtain ⟨rfl, rfl, rfl⟩ := hentries
      simp
    · simp [sharedFleet, ownPool] at hentries
  · intro h
    have hun := (twinFleet.resolvesTo_iff ownPool (by decide) "rpc-1" (by decide) twinProbe
      (by decide)).mp h [] _ _ rfl
    exact hun.1 _ (.head _) _ (.head _) rfl

/-- The loop serves the other cluster's `rpc-1` and judges it by that cluster's status. -/
theorem twin_resolves_elsewhere :
    ¬ ∀ (a : AcceptedFleet) (clusters : List ClusterStatus), Probed a.fleet clusters →
      ∀ pool ∈ a.fleet.pools, ∀ m ∈ pool.members, ∀ node status,
        PoolNode a.fleet clusters pool m node status →
          ResolvesTo a.fleet clusters m node status := by
  intro h
  have hresolved := h twinFleet twinProbe (by decide) ownPool (by decide) "rpc-1" (by decide)
    { name := "rpc-1", role := .rpc, host := "10.0.0.1", rpcUrl := some "http://m" }
    { name := "rpc-1", cluster := "mainnet", role := .rpc, reachable := true, healthy := some true }
    ⟨rfl, _, _, .head _, .head _⟩
  exact absurd hresolved.watched (by decide)

/-- The pass on the twin fleet writes the other cluster's address into the record. -/
example :
    let pass := exec (inMemoryDnsDriver.handler twinProbe) (watchOnce twinFleet.fleet false false)
      ({} : InMemoryDns)
    inMemoryDnsDriver.members pass.final "rpc.example.com" = {"10.1.0.1"} := by
  decide

end Solfleet
