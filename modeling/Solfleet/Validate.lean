import Solfleet.Library.Matched
import Solfleet.Provision
import Solfleet.Watch

/-! # Fleet validation

The live preflight over every node and builder: each finding is graded pass, warn or fail,
a node or a builder by its worst finding, and the fleet is fine when nothing failed.
-/

namespace Solfleet

open Interaction Program

def builderMinCores : Nat := 8

def builderMinRamGib : Nat := 16

def builderMinDiskGib : Nat := 60

/-! ## Findings -/

inductive CheckStatus where
  | pass
  | warn
  | fail
  deriving DecidableEq

structure Check where
  name : String
  status : CheckStatus
  detail : String
  deriving DecidableEq

def passOr (status : CheckStatus) (passed : Bool) : CheckStatus := if passed then .pass else status

def worst (checks : List Check) : CheckStatus :=
  if checks.any fun c => decide (c.status = .fail) then .fail
  else if checks.any fun c => decide (c.status = .warn) then .warn
  else .pass

/-! ## Nodes -/

def sshCheck (service : ServiceState) : Check :=
  ⟨"ssh", passOr .fail service.ok,
    if service.ok then "reachable"
    else if Text.truthy service.error then service.error.getD "" else "unreachable"⟩

def DiskRow.failedPath : DiskRow → Option String
  | .failed path _ => some path
  | .usage .. => none

/-- The paths of the rows that carry an error. -/
def missingMounts (inspection : Inspection) : List String :=
  inspection.disk.filterMap DiskRow.failedPath

/-- What is looked at on a node that answers. -/
def hostChecks (rules : PolicyRules) (inspection : Inspection) (pcts : List Nat) : List Check :=
  let active := inspection.service.active
  let version := inspection.version.binaryVersion
  let missing := missingMounts inspection
  [⟨"service", passOr .warn (active == some "active"), "active=" ++ active.getD "None"⟩,
    ⟨"binary", passOr .warn (Text.truthy version),
      if Text.truthy version then version.getD "" else "no version reported"⟩,
    ⟨"disks", passOr .fail (missing == []),
      if missing = [] then "mounts present" else "missing mounts: " ++ Text.pyReprList missing⟩] ++
  if diskFreeOk rules pcts then []
  else
    [⟨"disk_free", .warn,
      "below policy floor min_disk_free_pct=" ++ noneText rules.minDiskFreePct⟩]

def rpcCheck (status : Option NodeStatus) : Check :=
  match status with
  | none => ⟨"rpc", .fail, "rpc unreachable"⟩
  | some status =>
      if status.reachable ∧ status.healthy = some true then
        ⟨"rpc", .pass, "healthy, lag=" ++ noneText status.slotLag⟩
      else if status.healthy = some false then ⟨"rpc", .warn, "reachable but behind/unhealthy"⟩
      else ⟨"rpc", .fail, "rpc unreachable"⟩

def rpcChecks (node : Node) (status : Option NodeStatus) : List Check :=
  if Text.truthy node.rpcUrl then [rpcCheck status] else []

def identityChecks (node : Node) : List Check :=
  if node.role = .validator ∧ Text.truthy node.identity = false then
    [⟨"identity", .fail, "validator has no identity pubkey"⟩]
  else []

/-- The used percentages are read only on a node that answers. -/
def readNodeChecks (node : Node) (status : Option NodeStatus) (rules : PolicyRules)
    (inspection : Inspection) : Except Exn (List Check) := do
  let host ←
    if inspection.service.ok then hostChecks rules inspection <$> usePcts inspection else pure []
  pure (sshCheck inspection.service :: host ++ rpcChecks node status ++ identityChecks node)

def nodeChecks (node : Node) (status : Option NodeStatus) (rules : PolicyRules) :
    OpsProgram (List Check) := do
  let inspection ← inspectNode node
  ofExcept (readNodeChecks node status rules inspection)

/-! ## Builders -/

/-- What a builder reports of itself; nothing, when the command failed. -/
def readBuilderSpecs (r : CommandResult) : Option (Dict String String) :=
  if r.ok then
    some (Dict.ofPairs (((Text.splitlines r.stdout).filterMap (Text.partition? '=')).map fun kv =>
      (Text.strip kv.1, Text.strip kv.2)))
  else none

def builderSpecs (builder : BuilderHost) : OpsProgram (Option (Dict String String)) :=
  readBuilderSpecs <$> runOn (.builder builder) .builderSpecs

/-- Reached, unless a line of the output says otherwise under that very key. -/
def reportsReachable (specs : Dict String String) : Bool :=
  match specs.get? "reachable" with
  | none => true
  | some value => value != ""

/-- `round(amount / GIB, 1) if amount else None`; the text is the interpreter's for every
amount below 2^53 bytes. -/
def gibText (amount : Option Nat) : String :=
  match amount with
  | none => "None"
  | some n => if n = 0 then "None" else Text.roundTenths n gib

def specChecks (cores ram disk : Option Nat) (toolchain : Bool) : List Check :=
  [⟨"cores", passOr .warn (decide (builderMinCores ≤ cores.getD 0)),
      noneText (cores.map Int.ofNat) ++ " (want >= " ++ toString builderMinCores ++
        " for agave builds)"⟩,
    ⟨"ram", passOr .warn (decide (builderMinRamGib * gib ≤ ram.getD 0)),
      gibText ram ++ " GiB (want >= " ++ toString builderMinRamGib ++ ")"⟩,
    ⟨"disk_free", passOr .warn (decide (builderMinDiskGib * gib ≤ disk.getD 0)),
      gibText disk ++ " GiB free on / (want >= " ++ toString builderMinDiskGib ++ ")"⟩,
    ⟨"toolchain", passOr .warn toolchain,
      if toolchain then "cargo+rustc present" else "no cargo/rustc (install before building)"⟩]

def readBuilderChecks (specs : Option (Dict String String)) : Except Exn (List Check) :=
  match specs with
  | none => .ok [⟨"ssh", .fail, "unreachable"⟩]
  | some specs =>
      if reportsReachable specs then do
        let cores ← infoInt specs "cores"
        let ram ← infoInt specs "ram"
        divideRam (ram.getD 0)
        let disk ← infoInt specs "disk"
        divideRam (disk.getD 0)
        pure (⟨"ssh", .pass, "reachable"⟩ ::
          specChecks cores ram disk (specs.get? "toolchain" == some "ok"))
      else .ok [⟨"ssh", .fail, "unreachable"⟩]

def builderChecks (builder : BuilderHost) : OpsProgram (List Check) := do
  let specs ← builderSpecs builder
  ofExcept (readBuilderChecks specs)

/-! ## DNS -/

/-- `environ` is the environment the command runs in. -/
def dnsChecks (fleet : Fleet) (environ : String → Option String) : List Check :=
  match fleet.dns with
  | none => []
  | some dns =>
      match dns.provider with
      | .cloudflare =>
          let present := Text.truthy (environ "CLOUDFLARE_API_TOKEN")
          [⟨"cloudflare_token", passOr .warn present,
            if present then "CLOUDFLARE_API_TOKEN set"
            else "CLOUDFLARE_API_TOKEN not set (DNS ops will fail)"⟩]
      | .route53 =>
          let present :=
            Text.truthy (environ "AWS_ACCESS_KEY_ID") || Text.truthy (environ "AWS_PROFILE")
          [⟨"aws_creds", passOr .warn present,
            if present then "AWS creds present" else "no AWS creds in env"⟩]

/-! ## The report -/

structure NodeReport where
  name : String
  cluster : String
  role : Role
  status : CheckStatus
  checks : List Check
  deriving DecidableEq

structure BuilderReport where
  name : String
  status : CheckStatus
  checks : List Check
  deriving DecidableEq

structure DnsReport where
  status : CheckStatus
  checks : List Check
  deriving DecidableEq

structure ValidationReport where
  ok : Bool
  nodes : List NodeReport
  builders : List BuilderReport
  dns : Option DnsReport
  deriving DecidableEq

def nodeReport (statuses : Dict String NodeStatus) (rules : PolicyRules) (clusterName : String)
    (node : Node) : OpsProgram NodeReport := do
  let checks ← nodeChecks node (statuses.get? node.name) rules
  pure { name := node.name, cluster := clusterName, role := node.role, status := worst checks, checks }

def builderReport (name : String) (builder : BuilderHost) : OpsProgram BuilderReport := do
  let checks ← builderChecks builder
  pure { name, status := worst checks, checks }

def dnsReport (fleet : Fleet) (environ : String → Option String) : Option DnsReport :=
  let checks := dnsChecks fleet environ
  if checks = [] then none else some ⟨worst checks, checks⟩

def validateFleet (fleet : Fleet) (policy : Policy) (clusters : List ClusterStatus)
    (environ : String → Option String) : OpsProgram ValidationReport := do
  let statuses := statusByName clusters
  let nodes ← each fleet.clusters.entries fun entry =>
    each entry.2.nodes (nodeReport statuses (policy.forCluster entry.1) entry.1)
  let builders ← each fleet.builders.entries fun entry => builderReport entry.1 entry.2
  let dns := dnsReport fleet environ
  let all := nodes.flatten.map (·.status) ++ builders.map (·.status) ++
    (dns.map (·.status)).toList
  pure { ok := !all.contains .fail, nodes := nodes.flatten, builders, dns }

/-! ## What the verdict says -/

theorem worst_eq_fail_iff {checks : List Check} :
    worst checks = .fail ↔ ∃ check ∈ checks, check.status = .fail := by
  unfold worst
  by_cases hfail : checks.any (fun c => decide (c.status = .fail)) = true
  · rw [if_pos hfail]
    simpa using hfail
  · rw [if_neg hfail]
    have hnone : ¬ ∃ check ∈ checks, check.status = .fail := by simpa using hfail
    constructor
    · intro h
      split at h
      · exact nomatch h
      · exact nomatch h
    · exact fun h => absurd h hnone

/-- The checks a report is made of. -/
def ValidationReport.checks (report : ValidationReport) : List Check :=
  report.nodes.flatMap (·.checks) ++ report.builders.flatMap (·.checks) ++
    report.dns.toList.flatMap (·.checks)

/-- Every part is graded by its worst check. -/
structure ValidationReport.Graded (report : ValidationReport) : Prop where
  node : ∀ node ∈ report.nodes, node.status = worst node.checks
  builder : ∀ builder ∈ report.builders, builder.status = worst builder.checks
  dns : ∀ dns ∈ report.dns, dns.status = worst dns.checks
  ok : report.ok = true ↔ (∀ node ∈ report.nodes, node.status ≠ .fail) ∧
    (∀ builder ∈ report.builders, builder.status ≠ .fail) ∧ ∀ dns ∈ report.dns, dns.status ≠ .fail

theorem returns_nodeReport (statuses : Dict String NodeStatus) (rules : PolicyRules)
    (clusterName : String) (node : Node) :
    Returns (fun report => report.status = worst report.checks)
      (nodeReport statuses rules clusterName node) :=
  Returns.after fun _ => returns_pure_iff.mpr rfl

theorem returns_builderReport (name : String) (builder : BuilderHost) :
    Returns (fun report => report.status = worst report.checks) (builderReport name builder) :=
  Returns.after fun _ => returns_pure_iff.mpr rfl

theorem dnsReport_graded {fleet : Fleet} {environ : String → Option String} {dns : DnsReport}
    (h : dns ∈ dnsReport fleet environ) : dns.status = worst dns.checks := by
  unfold dnsReport at h
  by_cases hnil : dnsChecks fleet environ = []
  · rw [if_pos hnil] at h
    exact nomatch h
  · rw [if_neg hnil] at h
    rw [← Option.some.inj h]

theorem returns_validateFleet (fleet : Fleet) (policy : Policy) (clusters : List ClusterStatus)
    (environ : String → Option String) :
    Returns ValidationReport.Graded (validateFleet fleet policy clusters environ) := by
  have hnodes : ∀ entry : String × Cluster,
      Returns (fun rows : List NodeReport => ∀ row ∈ rows, row.status = worst row.checks)
        (each entry.2.nodes
          (nodeReport (statusByName clusters) (policy.forCluster entry.1) entry.1)) := by
    intro entry trace rows h
    exact forall₂_right
      ((Returns.each fun node _ => returns_nodeReport _ _ _ node) trace rows h)
  refine Returns.bind (Returns.each fun entry _ => hnodes entry) fun rows hrows => ?_
  refine Returns.bind (Returns.each fun entry _ => returns_builderReport entry.1 entry.2)
    fun builders hbuilders => ?_
  refine returns_pure_iff.mpr ⟨?_, forall₂_right hbuilders, fun _ => dnsReport_graded, ?_⟩
  · intro node hnode
    rcases List.mem_flatten.mp hnode with ⟨row, hrow, hmem⟩
    exact forall₂_right hrows row hrow node hmem
  · simp only [Bool.not_eq_true', List.contains_eq_mem, decide_eq_false_iff_not, List.mem_append,
      List.mem_map, Option.mem_toList, Option.map_eq_some_iff, Option.mem_def]
    push Not
    exact and_assoc

/-- Overall is fine only when nothing failed; warnings do not count. -/
theorem ValidationReport.Graded.ok_iff {report : ValidationReport} (h : report.Graded) :
    report.ok = true ↔ ∀ check ∈ report.checks, check.status ≠ .fail := by
  have hpart : ∀ checks : List Check,
      worst checks ≠ .fail ↔ ∀ check ∈ checks, check.status ≠ .fail := by
    intro checks
    rw [ne_eq, worst_eq_fail_iff]
    push Not
    exact Iff.rfl
  rw [h.ok]
  simp only [ValidationReport.checks, List.forall_mem_append, List.forall_mem_flatMap,
    Option.mem_toList, and_assoc]
  refine and_congr (forall₂_congr fun node hnode => ?_) (and_congr
    (forall₂_congr fun builder hbuilder => ?_) (forall₂_congr fun dns hdns => ?_))
  · rw [h.node node hnode, hpart]
  · rw [h.builder builder hbuilder, hpart]
  · rw [h.dns dns hdns, hpart]

/-- So says every report. -/
theorem validateFleet_ok_iff (fleet : Fleet) (policy : Policy) (clusters : List ClusterStatus)
    (environ : String → Option String) :
    Returns (fun report => report.ok = true ↔ ∀ check ∈ report.checks, check.status ≠ .fail)
      (validateFleet fleet policy clusters environ) :=
  fun trace report h => (returns_validateFleet fleet policy clusters environ trace report h).ok_iff

end Solfleet
