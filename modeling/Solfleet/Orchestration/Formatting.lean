import Solfleet.Orchestration.Provisioning
import Solfleet.Orchestration.Rehearsal

/-! # The formatting guard

A device is formatted right after a probe of it, and the probe's text decides. The
exit code of the probe is not looked at, so a probe that never reached the host reads
like one that found nothing.
-/

namespace Solfleet

open Interaction Program

/-! ## The guard -/

/-- What ssh exits with when it does not get through itself. -/
def sshFailure : Int := 255

/-- The last thing that happened is a probe that ran on the host and printed nothing. -/
def FoundEmpty (node : Node) (device : String) (before : List OpsEvent) : Prop :=
  ∃ earlier r, before = earlier ++ [⟨.runner (.ssh (.node node) (.probeDisk device)), .ok r⟩] ∧
    r.exitCode ≠ sshFailure ∧ Text.strip r.stdout = ""

def FormatGuard (node : Node) (allowFormat : Finset String) (before : List OpsEvent)
    (event : OpsEvent) : Prop :=
  ∀ target fs device, event.op = .runner (.ssh target (.mkfs fs device)) →
    target = .node node ∧ (∃ disk ∈ node.disks, disk.device = device ∧ disk.format = true) ∧
      device ∈ allowFormat ∧ FoundEmpty node device before

/-- What the host, or ssh in its place, answered to the probes, in order. -/
def probeAnswers (trace : List OpsEvent) : List (Except Exn CommandResult) :=
  trace.filterMap fun event =>
    match event with
    | ⟨.runner (.ssh _ (.probeDisk _)), answer⟩ => some answer
    | _ => none

/-- The probe did not get through, and so printed nothing. -/
def Unheard (answer : Except Exn CommandResult) : Prop :=
  ∃ r, answer = .ok r ∧ r.exitCode = sshFailure ∧ Text.strip r.stdout = ""

/-- The disks that are probed, in order. -/
def blockDisks (disks : List DiskConfig) : List DiskConfig :=
  disks.filter fun disk => decide (disk.fs ≠ .tmpfs)

/-- A probe that decides over a format is heard. -/
def Heard (allowFormat : Finset String) (disk : DiskConfig) (answer : Except Exn CommandResult) :
    Prop :=
  disk.format = true → disk.device ∈ allowFormat → ¬ Unheard answer

/-- The probe of every disk that is to be formatted and may be is heard; the answers belong to
the block devices in order. -/
def ProbesHeard (node : Node) (allowFormat : Finset String) (trace : List OpsEvent) : Prop :=
  ∀ pair ∈ (blockDisks node.disks).zip (probeAnswers trace), Heard allowFormat pair.1 pair.2

/-! ## Traces without formats -/

theorem Unformatting.op {trace : List OpsEvent} (h : Unformatting trace) {event : OpsEvent}
    (he : event ∈ trace) {target : SSHTarget} {command : Command}
    (hop : event.op = .runner (.ssh target command)) : command.formats = false :=
  h _ (mem_invocations_iff.mpr ⟨event, he, hop⟩)

theorem Unformatting.along {trace : List OpsEvent} (h : Unformatting trace) {node : Node}
    {allowFormat : Finset String} (history : List OpsEvent → List OpsEvent) :
    Along (fun before => FormatGuard node allowFormat (history before)) trace := by
  refine along_of_forall fun event he before target fs device hop => ?_
  have hformats := h.op he hop
  cases hformats

theorem Unformatting.probeAnswers {trace : List OpsEvent} (h : Unformatting trace) :
    probeAnswers trace = [] := by
  refine List.filterMap_eq_nil_iff.mpr fun event he => ?_
  split
  · have hformats := h.op he rfl
    cases hformats
  · rfl

theorem probeAnswers_append (xs ys : List OpsEvent) :
    probeAnswers (xs ++ ys) = probeAnswers xs ++ probeAnswers ys := List.filterMap_append

theorem probeAnswers_probe (target : SSHTarget) (device : String)
    (answer : Except Exn CommandResult) (rest : List OpsEvent) :
    probeAnswers (⟨.runner (.ssh target (.probeDisk device)), answer⟩ :: rest) =
      answer :: probeAnswers rest := rfl

theorem probeAnswers_mkfs (target : SSHTarget) (fs : Filesystem) (device : String)
    (answer : Except Exn CommandResult) (rest : List OpsEvent) :
    probeAnswers (⟨.runner (.ssh target (.mkfs fs device)), answer⟩ :: rest) =
      probeAnswers rest := rfl

/-! ## One disk -/

/-- What makes the code format: the text of the probe, whatever its exit code. -/
def LooksEmpty (allowFormat : Finset String) (disk : DiskConfig)
    (answer : Except Exn CommandResult) : Prop :=
  disk.format = true ∧ disk.device ∈ allowFormat ∧
    ∃ r, answer = .ok r ∧ Text.strip r.stdout = ""

theorem unformatting_mountDisk {node : Node} {disk : DiskConfig} {formatted wasEmpty : Bool}
    {trace : List OpsEvent} {result : Except Exn DiskSetup}
    (h : Runs (mountDisk node disk formatted wasEmpty) trace result) : Unformatting trace := by
  have hcalls : (mountDisk node disk formatted wasEmpty).AllCalls
      (OpsEffect.Sends fun i => i.formats = false) :=
    AllCalls.bind (allCalls_runOn rfl) fun _ => trivial
  exact unformatting_of_allCalls hcalls h

theorem runs_formatDisk {node : Node} {disk : DiskConfig} {trace : List OpsEvent}
    {result : Except Exn DiskSetup} (h : Runs (formatDisk node disk) trace result) :
    ∃ answer rest, Unformatting rest ∧
      trace = ⟨.runner (.ssh (.node node) (.mkfs disk.fs disk.device)), answer⟩ :: rest := by
  obtain ⟨first, rest, r, hr, hrest, rfl⟩ | ⟨e, hr, rfl⟩ := runs_bind_iff.mp h
  · obtain rfl := runs_runOn_iff.mp hr
    refine ⟨_, rest, ?_, rfl⟩
    split at hrest
    · exact unformatting_mountDisk hrest
    · exact .of_nil (by rw [(runs_pure_iff.mp hrest).1]; rfl)
  · obtain rfl := runs_runOn_iff.mp hr
    exact ⟨_, [], .of_nil rfl, rfl⟩

/-- The run on a block device: a probe, then a format exactly if the device looks empty. -/
theorem runs_setupBlock {node : Node} {disk : DiskConfig} {allowFormat : Finset String}
    {trace : List OpsEvent} {result : Except Exn DiskSetup}
    (h : Runs (setupBlock node disk allowFormat) trace result) :
    ∃ answer rest,
      trace = ⟨.runner (.ssh (.node node) (.probeDisk disk.device)), answer⟩ :: rest ∧
      ((¬ LooksEmpty allowFormat disk answer ∧ Unformatting rest) ∨
        (LooksEmpty allowFormat disk answer ∧ ∃ answer' rest', Unformatting rest' ∧
          rest = ⟨.runner (.ssh (.node node) (.mkfs disk.fs disk.device)), answer'⟩ :: rest')) := by
  obtain ⟨first, rest, r, hr, hrest, rfl⟩ | ⟨e, hr, rfl⟩ := runs_bind_iff.mp h
  · obtain rfl := runs_runOn_iff.mp hr
    refine ⟨.ok r, rest, rfl, ?_⟩
    dsimp only at hrest
    split at hrest
    case isFalse hformat =>
      exact .inl ⟨fun hl => hformat hl.1, unformatting_mountDisk hrest⟩
    case isTrue hformat =>
      unfold formatRefusal at hrest
      by_cases hdevice : disk.device ∈ allowFormat
      · by_cases hempty : Text.strip r.stdout = ""
        · simp only [hdevice, hempty, not_true_eq_false, ne_eq, if_false] at hrest
          exact .inr ⟨⟨hformat, hdevice, r, rfl, hempty⟩, runs_formatDisk hrest⟩
        · simp only [hdevice, hempty, not_true_eq_false, not_false_eq_true, ne_eq, if_false,
            if_true] at hrest
          refine .inl ⟨?_, .of_nil (by rw [(runs_pure_iff.mp hrest).1]; rfl)⟩
          rintro ⟨_, _, r', heq, hempty'⟩
          exact hempty (Except.ok.inj heq ▸ hempty')
      · simp only [hdevice, not_false_eq_true, if_true] at hrest
        exact .inl ⟨fun hl => hdevice hl.2.1, .of_nil (by rw [(runs_pure_iff.mp hrest).1]; rfl)⟩
  · obtain rfl := runs_runOn_iff.mp hr
    refine ⟨.error e, [], rfl, .inl ⟨?_, .of_nil rfl⟩⟩
    rintro ⟨_, _, r, heq, _⟩
    cases heq

theorem formatGuard_probe (node : Node) (allowFormat : Finset String) (before : List OpsEvent)
    (target : SSHTarget) (device : String) (answer : Except Exn CommandResult) :
    FormatGuard node allowFormat before
      ⟨.runner (.ssh target (.probeDisk device)), answer⟩ := by
  intro _ _ _ hop
  have hcommand := (Invocation.ssh.inj (OpsEffect.runner.inj hop)).2
  cases hcommand

/-- A device that looks empty after a probe was found empty if the probe was heard. -/
theorem formatGuard_mkfs_iff {node : Node} {disk : DiskConfig} {allowFormat : Finset String}
    (hd : disk ∈ node.disks) {answer : Except Exn CommandResult}
    (hlooks : LooksEmpty allowFormat disk answer) (answer' : Except Exn CommandResult)
    (xs : List OpsEvent) :
    FormatGuard node allowFormat
        (xs ++ [⟨.runner (.ssh (.node node) (.probeDisk disk.device)), answer⟩])
        ⟨.runner (.ssh (.node node) (.mkfs disk.fs disk.device)), answer'⟩ ↔
      Heard allowFormat disk answer := by
  obtain ⟨hformat, hdevice, r, rfl, hempty⟩ := hlooks
  constructor
  · intro h _ _ hunheard
    obtain ⟨_, _, _, earlier, r', heq, hexit, _⟩ := h _ _ _ rfl
    obtain ⟨r'', hr'', hfailure, _⟩ := hunheard
    obtain ⟨_, hlast⟩ := List.append_inj' heq rfl
    obtain rfl : r = r' := by simpa using hlast
    exact hexit (Except.ok.inj hr'' ▸ hfailure)
  · intro h target fs device hop
    obtain ⟨rfl, rfl, rfl⟩ : SSHTarget.node node = target ∧ disk.fs = fs ∧
        disk.device = device := by
      simpa using hop
    refine ⟨rfl, ⟨disk, hd, rfl, hformat⟩, hdevice, xs, r, rfl, fun hexit => ?_, hempty⟩
    exact h hformat hdevice ⟨r, rfl, hexit, hempty⟩

/-- One disk keeps to the guard exactly if its probe, where there is one, is heard. -/
theorem setupDisk_guarded_iff {node : Node} {disk : DiskConfig} {allowFormat : Finset String}
    {trace : List OpsEvent} {result : Except Exn DiskSetup} (hd : disk ∈ node.disks)
    (h : Runs (setupDisk node allowFormat disk) trace result) (xs : List OpsEvent) :
    (disk.fs = .tmpfs ∧ Unformatting trace) ∨
      (disk.fs ≠ .tmpfs ∧ ∃ answer, probeAnswers trace = [answer] ∧
        (Along (fun before => FormatGuard node allowFormat (xs ++ before)) trace ↔
          Heard allowFormat disk answer)) := by
  unfold setupDisk at h
  split at h
  case isTrue hfs =>
    have hcalls : (setupTmpfs node disk).AllCalls (OpsEffect.Sends fun i => i.formats = false) :=
      AllCalls.bind (allCalls_runOn rfl) fun _ => trivial
    exact .inl ⟨hfs, unformatting_of_allCalls hcalls h⟩
  case isFalse hfs =>
  refine .inr ⟨hfs, ?_⟩
  obtain ⟨answer, rest, rfl, ⟨hlooks, hrest⟩ | ⟨hlooks, answer', rest', hrest, rfl⟩⟩ :=
    runs_setupBlock h
  · refine ⟨answer, by rw [probeAnswers_probe, hrest.probeAnswers], ?_⟩
    have hheard : Heard allowFormat disk answer := fun hformat hdevice ⟨r, hr, _, hempty⟩ =>
      hlooks ⟨hformat, hdevice, r, hr, hempty⟩
    exact iff_of_true (along_cons_iff.mpr ⟨formatGuard_probe _ _ _ _ _ _, hrest.along _⟩) hheard
  · refine ⟨answer, by rw [probeAnswers_probe, probeAnswers_mkfs, hrest.probeAnswers], ?_⟩
    rw [along_cons_iff, along_cons_iff, ← formatGuard_mkfs_iff hd hlooks answer' xs]
    constructor
    · exact fun hall => hall.2.1
    · exact fun hmkfs => ⟨formatGuard_probe _ _ _ _ _ _, hmkfs, hrest.along _⟩

/-! ## All disks and the whole run -/

theorem blockDisks_cons (disk : DiskConfig) (disks : List DiskConfig) :
    blockDisks (disk :: disks) =
      if disk.fs = .tmpfs then blockDisks disks else disk :: blockDisks disks := by
  by_cases h : disk.fs = .tmpfs <;> simp [blockDisks, h]

/-- The disk segment, after any history. -/
theorem setupDisks_guarded_iff {node : Node} {allowFormat : Finset String}
    {disks : List DiskConfig} {trace : List OpsEvent} {result : Except Exn (List DiskSetup)}
    (hd : ∀ disk ∈ disks, disk ∈ node.disks)
    (h : Runs (each disks (setupDisk node allowFormat)) trace result) (xs : List OpsEvent) :
    Along (fun before => FormatGuard node allowFormat (xs ++ before)) trace ↔
      ∀ pair ∈ (blockDisks disks).zip (probeAnswers trace), Heard allowFormat pair.1 pair.2 := by
  induction disks generalizing trace result xs with
  | nil =>
      obtain ⟨rfl, _⟩ := runs_pure_iff.mp h
      simp [blockDisks]
  | cons disk disks ih =>
      obtain ⟨hdisk, hdisks⟩ := List.forall_mem_cons.mp hd
      rw [each_cons] at h
      -- a run that stops at this disk is a run with no trace for the others
      obtain ⟨first, rest, hfirst, hrest, rfl⟩ : ∃ first rest,
          (∃ r, Runs (setupDisk node allowFormat disk) first r) ∧
            (rest = [] ∨ ∃ r, Runs (each disks (setupDisk node allowFormat)) rest r) ∧
            trace = first ++ rest := by
        obtain ⟨first, rest, d, hdone, hrest, rfl⟩ | ⟨e, hraised, rfl⟩ := runs_bind_iff.mp h
        · refine ⟨first, rest, ⟨_, hdone⟩, ?_, rfl⟩
          obtain ⟨others, last, ds, hothers, hlast, rfl⟩ | ⟨e, hothers, rfl⟩ :=
            runs_bind_iff.mp hrest
          · obtain ⟨rfl, _⟩ := runs_pure_iff.mp hlast
            exact .inr ⟨_, by simpa using hothers⟩
          · exact .inr ⟨_, hothers⟩
        · exact ⟨trace, [], ⟨_, hraised⟩, .inl rfl, by simp⟩
      have htail :
          Along (fun before => FormatGuard node allowFormat (xs ++ (first ++ before))) rest ↔
          ∀ pair ∈ (blockDisks disks).zip (probeAnswers rest), Heard allowFormat pair.1 pair.2 := by
        obtain rfl | ⟨r, hrest⟩ := hrest
        · simp [probeAnswers]
        · simpa only [List.append_assoc] using ih hdisks hrest (xs ++ first)
      obtain ⟨r, hfirst⟩ := hfirst
      rw [along_append_iff, htail, probeAnswers_append, blockDisks_cons]
      obtain ⟨hfs, hplain⟩ | ⟨hfs, answer, hanswer, hiff⟩ :=
        setupDisk_guarded_iff hdisk hfirst xs
      · rw [if_pos hfs, hplain.probeAnswers, List.nil_append, and_iff_right (hplain.along _)]
      · rw [if_neg hfs, hanswer, hiff, List.singleton_append, List.zip_cons_cons,
          List.forall_mem_cons]

/-- A provisioning formats only what was found empty, exactly if every probe that decides
over a format is heard. -/
theorem formats_guarded_iff {fleet : Fleet} {nodeName clusterName : String} {cluster : Cluster}
    {node : Node} (hf : fleet.findNode nodeName = some (clusterName, cluster, node))
    {targetVersion : String} {confirm audit : Bool} {allowFormat : Finset String} {policy : Policy}
    {maxLag catchupTimeout : Int} {trace : List OpsEvent} {result : Except Exn ProvisionResult}
    (h : Runs (provisionNode fleet nodeName targetVersion confirm allowFormat policy audit maxLag
      catchupTimeout) trace result) :
    Along (FormatGuard node allowFormat) trace ↔ ProbesHeard node allowFormat trace := by
  obtain ⟨before, disks, after, rfl, hbefore, hafter, hdisks⟩ := runs_provisionNode_disks hf h
  have hmiddle : Along (fun history => FormatGuard node allowFormat (before ++ history)) disks ↔
      ∀ pair ∈ (blockDisks node.disks).zip (probeAnswers disks),
        Heard allowFormat pair.1 pair.2 := by
    obtain rfl | ⟨outcome, hdisks⟩ := hdisks
    · simp [probeAnswers]
    · exact setupDisks_guarded_iff (fun _ hd => hd) hdisks before
  rw [along_append_iff, along_append_iff, hmiddle, and_iff_left (hafter.along _),
    and_iff_right (hbefore.along fun history => history), ProbesHeard, probeAnswers_append,
    probeAnswers_append, hbefore.probeAnswers, hafter.probeAnswers, List.nil_append,
    List.append_nil]

/-! ## A host with a disk to format -/

def ledgerDisk : DiskConfig where
  device := "/dev/nvme1n1"
  mount := "/mnt/ledger"
  format := true

def diskNode : Node := { builtNode with disks := [ledgerDisk] }

def diskCluster : Cluster := { builtCluster with nodes := [diskNode] }

/-- The built fleet with one disk on its node. -/
def diskFleet : AcceptedFleet where
  fleet := { builtFleet.fleet with clusters := ⟨[("testnet", diskCluster)], by decide⟩ }
  accepted := by decide

theorem diskFleet_findNode :
    diskFleet.fleet.findNode "rpc-1" = some ("testnet", diskCluster, diskNode) := rfl

def acknowledged : Finset String := {"/dev/nvme1n1"}

/-- The stages of a run whose probe is answered with `probe` and whose format fails. -/
def formatFails (probe : CommandResult) : List OpsEvent :=
  [⟨.runner (.ssh (.node diskNode) (.ensureUser "sol")), .ok silent⟩,
    ⟨.runner (.ssh (.node diskNode) (.applySystem diskNode.system "sol")), .ok silent⟩,
    ⟨.runner (.ssh (.node diskNode) (.probeDisk "/dev/nvme1n1")), .ok probe⟩,
    ⟨.runner (.ssh (.node diskNode) (.mkfs .ext4 "/dev/nvme1n1")), .ok (exitWith false)⟩]

def formatFailed : Provisioned where
  steps :=
    { user := ⟨"sol", true, none⟩
      system := ⟨diskNode.system.openFiles, diskNode.system.sysctl.keys,
        diskNode.system.cpuGovernor, true, none⟩
      disks := [.refused "/mnt/ledger" "mkfs failed: 1"] }
  succeeded := false
  note := some "disk setup failed; not installing software"

theorem runs_formatFails (probe : CommandResult) (hempty : Text.strip probe.stdout = "") :
    ∃ tail result, invocations tail = [] ∧
      Runs (provisionNode diskFleet.fleet "rpc-1" "v3.0.1" true acknowledged {} true 2 1800)
        (⟨.runner (.ssh (.node diskNode) .preflight), .ok bareHost⟩ :: (formatFails probe ++ tail))
        result := by
  have hblock : Runs (setupDisk diskNode acknowledged ledgerDisk) ((formatFails probe).drop 2)
      (.ok (.refused "/mnt/ledger" "mkfs failed: 1")) := by
    refine runs_runOn_bind probe ?_
    rw [hempty]
    exact runs_runOn_bind (exitWith false) (.done _)
  have hstages : Runs (provisionStages diskFleet.fleet diskCluster diskNode "v3.0.1" acknowledged 2
      1800) (formatFails probe) (.ok formatFailed) := by
    refine runs_bind_iff.mpr (.inl ⟨_, _, _, runs_runOn_bind silent (.done _), ?_, rfl⟩)
    refine runs_bind_iff.mpr (.inl ⟨_, _, _, runs_runOn_bind silent (.done _), ?_, rfl⟩)
    refine runs_bind_iff.mpr (.inl ⟨(formatFails probe).drop 2, [],
      [.refused "/mnt/ledger" "mkfs failed: 1"], ?_, .done _, rfl⟩)
    exact runs_each_cons_ok_iff.mpr ⟨_, [], _, [], hblock, .done _, by simp, rfl⟩
  exact runs_provisionNode_of_stages diskFleet_findNode rfl hstages

theorem formats_guarded_iff_disk : ∃ trace result,
    Runs (provisionNode diskFleet.fleet "rpc-1" "v3.0.1" true acknowledged {} true 2 1800) trace
        result ∧
      .ssh (.node diskNode) (.mkfs .ext4 "/dev/nvme1n1") ∈ invocations trace ∧
      (Along (FormatGuard diskNode acknowledged) trace ↔
        ProbesHeard diskNode acknowledged trace) := by
  obtain ⟨tail, result, _, hrun⟩ := runs_formatFails silent (by decide)
  exact ⟨_, result, hrun, by simp [formatFails], formats_guarded_iff diskFleet_findNode hrun⟩

/-- What ssh reports when it cannot connect. -/
def notConnected : CommandResult :=
  ⟨255, "", "ssh: connect to host 10.0.0.1 port 22: Connection timed out"⟩

/-- A disk is formatted on the strength of a probe that did not reach the host. -/
theorem formats_unheard : ∃ trace result,
    Runs (provisionNode diskFleet.fleet "rpc-1" "v3.0.1" true acknowledged {} true 2 1800) trace
        result ∧
      ¬ Along (FormatGuard diskNode acknowledged) trace := by
  obtain ⟨tail, result, _, hrun⟩ := runs_formatFails notConnected (by decide)
  refine ⟨_, result, hrun, fun h => ?_⟩
  obtain ⟨_, _, _, earlier, r, heq, hexit, _⟩ := h
    (⟨.runner (.ssh (.node diskNode) .preflight), .ok bareHost⟩ ::
      (formatFails notConnected).take 3)
    ⟨.runner (.ssh (.node diskNode) (.mkfs .ext4 "/dev/nvme1n1")), .ok (exitWith false)⟩ tail rfl
    _ _ _ rfl
  have hsplit : (⟨.runner (.ssh (.node diskNode) .preflight), .ok bareHost⟩ ::
      (formatFails notConnected).take 2) ++
      [⟨.runner (.ssh (.node diskNode) (.probeDisk "/dev/nvme1n1")), .ok notConnected⟩] =
      earlier ++ [⟨.runner (.ssh (.node diskNode) (.probeDisk "/dev/nvme1n1")), .ok r⟩] := heq
  obtain ⟨_, hlast⟩ := List.append_inj' hsplit rfl
  obtain rfl : notConnected = r := by simpa using hlast
  exact hexit rfl

end Solfleet
