import Mathlib.Data.List.Flatten
import Mathlib.Data.List.Count
import Solfleet.Library.Dict
import Solfleet.Library.Sorted
import Solfleet.Library.Text
import Mathlib.Data.String.Basic

/-! # Fleet configuration and its validation

The models of `config.py` with their defaults, and the validators that run when
a configuration is loaded. `AcceptedFleet` is a fleet together with the evidence
that every validator passed; all later modules take one.
-/

namespace Solfleet

/-! ## Models -/

structure SSHConfig where
  user : String := "sol"
  port : Int := 22
  keyFile : Option String := none
  deriving DecidableEq

/-- How the validator runs on the box. -/
structure ServiceConfig where
  unit : String := "solana-validator"
  binary : String := "/usr/local/bin/agave-validator"
  versionMarker : Option String := none
  ledger : String := "/mnt/ledger"
  accounts : String := "/mnt/accounts"
  geyserLib : Option String := none
  runUser : String := "sol"
  identityKeypair : String := "/etc/solana-validator/identity.json"
  voteAccountKeypair : Option String := none
  geyserConfig : Option String := none
  deriving DecidableEq

inductive Filesystem where
  | ext4
  | xfs
  | tmpfs
  deriving DecidableEq

def Filesystem.text : Filesystem → String
  | .ext4 => "ext4"
  | .xfs => "xfs"
  | .tmpfs => "tmpfs"

structure DiskConfig where
  device : String
  mount : String
  fs : Filesystem := .ext4
  format : Bool := false
  minSizeGb : Option Int := none
  sizeGb : Option Int := none
  deriving DecidableEq

def defaultSysctl : Dict String Int :=
  ⟨[("net.core.rmem_max", 134217728), ("net.core.wmem_max", 134217728),
    ("net.core.rmem_default", 134217728), ("net.core.wmem_default", 134217728),
    ("vm.max_map_count", 1000000), ("fs.nr_open", 1000000)], by decide⟩

structure SystemTuning where
  openFiles : Int := 1000000
  sysctl : Dict String Int := defaultSysctl
  cpuGovernor : Option String := some "performance"
  deriving DecidableEq

structure LaunchConfig where
  rpcPort : Int := 8899
  rpcBindAddress : String := "127.0.0.1"
  privateRpc : Bool := true
  fullRpcApi : Bool := true
  noVoting : Bool := true
  limitLedgerSize : Option Int := some 100000000
  enableRpcTxHistory : Bool := true
  extraArgs : List String := []
  deriving DecidableEq

inductive Role where
  | rpc
  | validator
  deriving DecidableEq

structure Node where
  name : String
  role : Role
  host : String
  rpcUrl : Option String := none
  identity : Option String := none
  ssh : SSHConfig := {}
  service : ServiceConfig := {}
  disks : List DiskConfig := []
  system : SystemTuning := {}
  launch : LaunchConfig := {}
  deriving DecidableEq

inductive Strategy where
  | build
  | prebuilt
  deriving DecidableEq

inductive AgaveSource where
  | agave
  | jito
  deriving DecidableEq

def AgaveSource.text : AgaveSource → String
  | .agave => "agave"
  | .jito => "jito"

structure InstallConfig where
  strategy : Strategy := .build
  builder : Option String := none
  source : AgaveSource := .agave
  agaveRepo : String := "https://github.com/anza-xyz/agave"
  geyserRepo : Option String := none
  geyserRef : Option String := none
  artifactCache : String := "/var/cache/solfleet/artifacts"
  deriving DecidableEq

structure SolanaNetwork where
  entrypoints : List String := []
  knownValidators : List String := []
  expectedGenesisHash : Option String := none
  deriving DecidableEq

structure Cluster where
  referenceRpc : String
  install : Option InstallConfig := none
  network : Option SolanaNetwork := none
  nodes : List Node
  deriving DecidableEq

structure BuilderHost where
  host : String
  ssh : SSHConfig := {}
  deriving DecidableEq

structure EjectWhen where
  slotLag : Option Int := none
  unhealthy : Bool := true
  delinquent : Bool := false
  deriving DecidableEq

structure Pool where
  record : String
  cluster : String
  members : List String
  ttl : Int := 60
  ejectWhen : EjectWhen := {}
  deriving DecidableEq

inductive Provider where
  | cloudflare
  | route53
  deriving DecidableEq

structure DnsConfig where
  provider : Provider
  zone : String
  pools : List Pool := []
  deriving DecidableEq

structure Fleet where
  clusters : Dict String Cluster
  builders : Dict String BuilderHost := .empty
  dns : Option DnsConfig := none

/-! ## Validators -/

/-- The first error of a list of checks. -/
def checkAll {α : Type} (check : α → Except String Unit) : List α → Except String Unit
  | [] => .ok ()
  | x :: xs =>
      match check x with
      | .error e => .error e
      | .ok () => checkAll check xs

@[simp] theorem checkAll_ok_iff {α : Type} {check : α → Except String Unit} {xs : List α} :
    checkAll check xs = .ok () ↔ ∀ x ∈ xs, check x = .ok () := by
  induction xs with
  | nil => simp [checkAll]
  | cons x xs ih =>
      cases hx : check x with
      | error e => simp [checkAll, hx]
      | ok u => simp [checkAll, hx, ih]

def Node.checkRoleFields (node : Node) : Except String Unit :=
  if node.role = .rpc ∧ Text.truthy node.rpcUrl = false then
    .error ("node " ++ node.name ++ ": role=rpc requires rpc_url")
  else if node.role = .validator ∧ Text.truthy node.identity = false then
    .error ("node " ++ node.name ++ ": role=validator requires identity")
  else .ok ()

def InstallConfig.checkBuilder (install : InstallConfig) : Except String Unit :=
  if install.strategy = .build ∧ Text.truthy install.builder = false then
    .error "install.strategy=build requires install.builder"
  else .ok ()

def Cluster.checkUniqueNames (cluster : Cluster) : Except String Unit :=
  let names := cluster.nodes.map (·.name)
  let dupes := (names.filter fun n => decide (1 < names.count n)).toFinset
  if dupes = ∅ then .ok ()
  else .error ("duplicate node names: " ++ Text.pyReprList (sorted dupes))

/-- The validators inside one cluster, in the order the fields are read. -/
def Cluster.validate (cluster : Cluster) : Except String Unit := do
  checkAll InstallConfig.checkBuilder cluster.install.toList
  checkAll Node.checkRoleFields cluster.nodes
  cluster.checkUniqueNames

def Fleet.checkBuildersExist (fleet : Fleet) : Except String Unit :=
  fleet.clusters.entries |> checkAll fun entry =>
    match entry.2.install with
    | none => .ok ()
    | some inst =>
        match inst.builder with
        | none => .ok ()
        | some builder =>
            if inst.strategy = .build ∧ builder ≠ "" ∧ fleet.builders.contains builder = false then
              .error ("cluster " ++ entry.1 ++ ": install.builder " ++ Text.pyRepr builder ++
                " is not defined in the top-level builders: map")
            else .ok ()

def Fleet.checkPoolMembers (fleet : Fleet) : Except String Unit :=
  match fleet.dns with
  | none => .ok ()
  | some dns =>
      dns.pools |> checkAll fun pool =>
        match fleet.clusters.get? pool.cluster with
        | none => .error ("pool " ++ pool.record ++ ": unknown cluster " ++
            Text.pyRepr pool.cluster)
        | some cluster =>
            let missing := pool.members.filter fun m => !(cluster.nodes.map (·.name)).contains m
            if missing = [] then .ok ()
            else .error ("pool " ++ pool.record ++ ": members not in cluster " ++ pool.cluster ++
              ": " ++ Text.pyReprList missing)

/-- What loading a configuration runs; the first error is reported. -/
def Fleet.validate (fleet : Fleet) : Except String Unit := do
  checkAll Cluster.validate fleet.clusters.values
  fleet.checkBuildersExist
  fleet.checkPoolMembers

/-- A fleet that loading accepted. -/
structure AcceptedFleet where
  fleet : Fleet
  accepted : fleet.validate = .ok ()

/-! ## Lookups -/

def Fleet.findBuilder (fleet : Fleet) (name : Option String) : Option BuilderHost :=
  match name with
  | none => none
  | some name => if name = "" then none else fleet.builders.get? name

/-- The first node of that name, in cluster order. -/
def Fleet.findNode (fleet : Fleet) (name : String) : Option (String × Cluster × Node) :=
  fleet.clusters.entries.findSome? fun entry =>
    (entry.2.nodes.find? fun node => decide (node.name = name)).map fun node =>
      (entry.1, entry.2, node)

def Fleet.nodes (fleet : Fleet) : List Node := fleet.clusters.values.flatMap (·.nodes)

def Fleet.pools (fleet : Fleet) : List Pool :=
  match fleet.dns with
  | none => []
  | some dns => dns.pools

/-- No two nodes of the fleet share a name. -/
def Fleet.UniqueNames (fleet : Fleet) : Prop := (fleet.nodes.map (·.name)).Nodup

/-- No two pools manage one record. -/
def Fleet.DistinctRecords (fleet : Fleet) : Prop := (fleet.pools.map (·.record)).Nodup

instance (fleet : Fleet) : Decidable fleet.UniqueNames := inferInstanceAs (Decidable (List.Nodup _))

instance (fleet : Fleet) : Decidable fleet.DistinctRecords :=
  inferInstanceAs (Decidable (List.Nodup _))

/-! ## What acceptance and the lookups give -/

theorem except_bind_ok_iff {a b : Except String Unit} :
    (a >>= fun _ => b) = .ok () ↔ a = .ok () ∧ b = .ok () := by
  cases a with
  | error e => simp [bind, Except.bind]
  | ok u => simp [bind, Except.bind]

theorem AcceptedFleet.pools_checked (a : AcceptedFleet) : a.fleet.checkPoolMembers = .ok () :=
  (except_bind_ok_iff.mp (except_bind_ok_iff.mp a.accepted).2).2

theorem AcceptedFleet.clusters_checked (a : AcceptedFleet) {entry : String × Cluster}
    (he : entry ∈ a.fleet.clusters.entries) : entry.2.validate = .ok () :=
  checkAll_ok_iff.mp (except_bind_ok_iff.mp a.accepted).1 _ (List.mem_map_of_mem he)

theorem Cluster.nodup_of_checkUniqueNames {cluster : Cluster}
    (h : cluster.checkUniqueNames = .ok ()) : (cluster.nodes.map (·.name)).Nodup := by
  rw [List.nodup_iff_count_le_one]
  intro name
  by_contra hcount
  have hmem : name ∈ cluster.nodes.map (·.name) := List.count_pos_iff.mp (by omega)
  have hdupe : name ∈ ((cluster.nodes.map (·.name)).filter fun n =>
      decide (1 < (cluster.nodes.map (·.name)).count n)).toFinset := by
    simp only [List.mem_toFinset, List.mem_filter, decide_eq_true_eq]
    exact ⟨hmem, by omega⟩
  by_cases hempty : ((cluster.nodes.map (·.name)).filter fun n =>
      decide (1 < (cluster.nodes.map (·.name)).count n)).toFinset = ∅
  · rw [hempty] at hdupe
    exact Finset.notMem_empty _ hdupe
  · simp only [Cluster.checkUniqueNames, if_neg hempty, reduceCtorEq] at h

/-- Within a cluster of an accepted fleet names are unique. -/
theorem AcceptedFleet.nodup_names (a : AcceptedFleet) {entry : String × Cluster}
    (he : entry ∈ a.fleet.clusters.entries) : (entry.2.nodes.map (·.name)).Nodup :=
  Cluster.nodup_of_checkUniqueNames
    (except_bind_ok_iff.mp (except_bind_ok_iff.mp (a.clusters_checked he)).2).2

/-- Every member of an accepted pool is a node of the pool's cluster. -/
theorem AcceptedFleet.exists_node_of_member (a : AcceptedFleet) {pool : Pool} {m : String}
    (hp : pool ∈ a.fleet.pools) (hm : m ∈ pool.members) :
    ∃ cluster, a.fleet.clusters.get? pool.cluster = some cluster ∧
      ∃ node ∈ cluster.nodes, node.name = m := by
  have hcheck := a.pools_checked
  unfold Fleet.pools at hp
  unfold Fleet.checkPoolMembers at hcheck
  cases hd : a.fleet.dns with
  | none => simp [hd] at hp
  | some dns =>
      simp only [hd] at hp hcheck
      have h := checkAll_ok_iff.mp hcheck pool hp
      cases hc : a.fleet.clusters.get? pool.cluster with
      | none => simp [hc] at h
      | some cluster =>
          simp only [hc, ite_eq_left_iff, reduceCtorEq, imp_false, not_not,
            List.filter_eq_nil_iff] at h
          refine ⟨cluster, rfl, ?_⟩
          simpa using h m hm

theorem Fleet.mem_nodes_iff {fleet : Fleet} {node : Node} :
    node ∈ fleet.nodes ↔ ∃ entry ∈ fleet.clusters.entries, node ∈ entry.2.nodes := by
  simp only [Fleet.nodes, Dict.values, List.mem_flatMap, List.mem_map]
  constructor
  · rintro ⟨cluster, ⟨entry, he, rfl⟩, hn⟩
    exact ⟨entry, he, hn⟩
  · rintro ⟨entry, he, hn⟩
    exact ⟨entry.2, ⟨entry, he, rfl⟩, hn⟩

theorem AcceptedFleet.member_mem_nodes (a : AcceptedFleet) {pool : Pool} {m : String}
    (hp : pool ∈ a.fleet.pools) (hm : m ∈ pool.members) :
    ∃ node ∈ a.fleet.nodes, node.name = m := by
  obtain ⟨cluster, hc, node, hn, hname⟩ := a.exists_node_of_member hp hm
  exact ⟨node, Fleet.mem_nodes_iff.mpr ⟨_, Dict.get?_eq_some_iff.mp hc, hn⟩, hname⟩

/-- What a found node is. -/
theorem Fleet.findNode_spec {fleet : Fleet} {name clusterName : String} {cluster : Cluster}
    {node : Node} (h : fleet.findNode name = some (clusterName, cluster, node)) :
    fleet.clusters.get? clusterName = some cluster ∧ node ∈ cluster.nodes ∧ node.name = name := by
  obtain ⟨entry, he, hnode⟩ := List.exists_of_findSome?_eq_some h
  obtain ⟨found, hfound, heq⟩ := Option.map_eq_some_iff.mp hnode
  obtain ⟨rfl, rfl, rfl⟩ : entry.1 = clusterName ∧ entry.2 = cluster ∧ found = node := by
    simpa using heq
  exact ⟨Dict.get?_eq_some_iff.mpr he, List.mem_of_find?_eq_some hfound,
    by simpa using List.find?_some hfound⟩

/-- The found node is the first of its name in the whole fleet. -/
theorem Fleet.findNode_node (fleet : Fleet) (name : String) :
    (fleet.findNode name).map (·.2.2) =
      fleet.nodes.find? fun node => decide (node.name = name) := by
  simp only [Fleet.findNode, Fleet.nodes, Dict.values, List.flatMap_map, List.find?_flatMap,
    List.map_findSome?]
  congr 1
  funext entry
  simp [Function.comp_def]

theorem Fleet.findNode_mem_nodes {fleet : Fleet} {name clusterName : String} {cluster : Cluster}
    {node : Node} (h : fleet.findNode name = some (clusterName, cluster, node)) :
    node ∈ fleet.nodes :=
  Fleet.mem_nodes_iff.mpr
    ⟨_, Dict.get?_eq_some_iff.mp (Fleet.findNode_spec h).1, (Fleet.findNode_spec h).2.1⟩

/-- With unique names a name determines its node. -/
theorem Fleet.UniqueNames.eq_of_name {fleet : Fleet} (h : fleet.UniqueNames) {a b : Node}
    (ha : a ∈ fleet.nodes) (hb : b ∈ fleet.nodes) (hname : a.name = b.name) : a = b :=
  List.inj_on_of_nodup_map h ha hb hname

theorem Fleet.UniqueNames.exists_findNode {fleet : Fleet} (h : fleet.UniqueNames) {node : Node}
    (hnode : node ∈ fleet.nodes) :
    ∃ clusterName cluster, fleet.findNode node.name = some (clusterName, cluster, node) := by
  have hfind := fleet.findNode_node node.name
  cases hfound : fleet.findNode node.name with
  | none =>
      rw [hfound, Option.map_none, eq_comm, List.find?_eq_none] at hfind
      exact (hfind node hnode (by simp)).elim
  | some found =>
      have hother := Fleet.findNode_mem_nodes hfound
      have hname := (Fleet.findNode_spec hfound).2.2
      exact ⟨found.1, found.2.1, by rw [← h.eq_of_name hother hnode hname]⟩

end Solfleet
