import Solfleet.Orchestration.Distribution

/-! # Runs in which every command succeeds

For each stage, a run that goes through: what shows that a stage behind it is reached.
-/

namespace Solfleet

open Interaction Program

/-- An answer by exit code alone. -/
def exitWith (ok : Bool) : CommandResult := ⟨if ok then 0 else 1, "", ""⟩

theorem exitWith_ok (ok : Bool) : (exitWith ok).ok = ok := by
  cases ok <;> rfl

/-- A checksum every file has. -/
def hashed : CommandResult := ⟨0, "abc", ""⟩

theorem hashed_firstWord : hashed.firstWord = some "abc" := by decide

/-- A look at a node whose service is read from `r`. -/
theorem runs_inspectNode_of (node : Node) (r : CommandResult) :
    ∃ trace before, Runs (inspectNode node) trace (.ok before) ∧
      before.service = readServiceState node r ∧ usePcts before = .ok [] := by
  have hmarker : ∃ trace marker, Runs (markerVersion node) trace (.ok marker) := by
    unfold markerVersion
    split
    · exact ⟨[], none, .done _⟩
    · split
      · exact ⟨[], none, .done _⟩
      · exact ⟨_, _, runs_map_ok_iff.mpr ⟨exitWith true, runs_runOn _ _ _, rfl⟩⟩
  obtain ⟨markTrace, marker, hmarker⟩ := hmarker
  have hservice : ∃ trace, Runs (serviceState node) trace (.ok (readServiceState node r)) :=
    ⟨_, runs_map_ok_iff.mpr ⟨_, runs_runOn _ _ _, rfl⟩⟩
  have hversion : ∃ trace version, Runs (installedVersion node) trace (.ok version) :=
    ⟨_, _, runs_runOn_bind (exitWith true)
      (runs_bind_ok_iff.mpr ⟨markTrace, [], marker, hmarker, .done _, rfl⟩)⟩
  have hdisk : ∃ trace, Runs (diskUsage node) trace (.ok []) :=
    ⟨_, runs_map_ok_iff.mpr ⟨exitWith true, runs_runOn _ _ _, rfl⟩⟩
  obtain ⟨first, hservice⟩ := hservice
  obtain ⟨second, version, hversion⟩ := hversion
  obtain ⟨third, hdisk⟩ := hdisk
  refine ⟨first ++ (second ++ (third ++ [])), _, runs_bind_ok_iff.mpr ⟨_, _, _, hservice,
    runs_bind_ok_iff.mpr ⟨_, _, _, hversion, runs_bind_ok_iff.mpr ⟨_, _, _, hdisk, .done _, rfl⟩,
    rfl⟩, rfl⟩, rfl, rfl⟩

theorem runs_inspectNode (node : Node) :
    ∃ trace before, Runs (inspectNode node) trace (.ok before) ∧ before.service.ok = true ∧
      usePcts before = .ok [] := by
  obtain ⟨trace, before, hruns, hservice, hpcts⟩ := runs_inspectNode_of node (exitWith true)
  exact ⟨trace, before, hruns, by rw [hservice]; rfl, hpcts⟩

theorem runs_collect_hashed (builder : SSHTarget) (out : String) (names : List String) :
    ∃ trace artifacts, Runs (collect builder out names) trace (.ok artifacts) ∧
      ∀ artifact ∈ artifacts, artifact.sha256 = some "abc" := by
  unfold collect
  induction names with
  | nil => exact ⟨[], [], .done _, by simp⟩
  | cons name names ih =>
      obtain ⟨rest, artifacts, hrest, hall⟩ := ih
      refine ⟨_, _, runs_each_cons_ok_iff.mpr ⟨_, rest, ⟨name, out ++ "/" ++ name, some "abc"⟩,
        artifacts, runs_bind_ok_iff.mpr ⟨_, [], some "abc", runs_remoteSha256_ok_iff.mpr
          ⟨hashed, rfl, hashed_firstWord.symm⟩, .done _, rfl⟩, hrest, rfl, rfl⟩, ?_⟩
      exact List.forall_mem_cons.mpr ⟨rfl, hall⟩

theorem runs_buildSteps (builder : SSHTarget) (steps : List BuildStep) (log : List String) :
    ∃ trace log', Runs (runBuildSteps builder steps log) trace (.ok (none, log')) := by
  induction steps generalizing log with
  | nil => exact ⟨[], log, .done _⟩
  | cons step steps ih =>
      obtain ⟨trace, log', h⟩ := ih (log ++ [Text.strip ("$ " ++ step.text ++ "\n" ++
        (exitWith true).stdout ++ (exitWith true).stderr)])
      exact ⟨_, log', runs_runOn_bind (exitWith true) h⟩

theorem runs_buildArtifacts_hashed (builder : SSHTarget) (install : InstallConfig)
    (version : String) (force : Bool) :
    ∃ trace build, Runs (buildArtifacts builder install version force) trace (.ok build) ∧
      build.ok = true ∧ ∀ artifact ∈ build.artifacts, artifact.sha256 = some "abc" := by
  obtain ⟨collected, artifacts, hcollect, hall⟩ :=
    runs_collect_hashed builder (outDir install version) (artifactNames install)
  cases force with
  | true =>
      obtain ⟨built, log, hsteps⟩ := runs_buildSteps builder (buildCommands install version) []
      exact ⟨_, _, runs_bind_ok_iff.mpr ⟨_, _, _, hsteps, runs_bind_ok_iff.mpr
        ⟨_, [], _, hcollect, .done _, rfl⟩, rfl⟩, rfl, hall⟩
  | false =>
      exact ⟨_, _, runs_bind_ok_iff.mpr ⟨_, _, true, runs_map_ok_iff.mpr
        ⟨exitWith true, runs_runOn _ _ _, rfl⟩, runs_bind_ok_iff.mpr
        ⟨_, [], _, hcollect, .done _, rfl⟩, rfl⟩, rfl, hall⟩

theorem runs_distribute_hashed (builder : SSHTarget) (node : Node) {artifacts : List Artifact}
    (hall : ∀ artifact ∈ artifacts, artifact.sha256 = some "abc") :
    ∃ trace dist, Runs (distribute builder node artifacts) trace (.ok dist) ∧ dist.ok = true := by
  have heach : ∃ trace entries,
      Runs (each artifacts (distributeArtifact builder node "/tmp/solfleet-0")) trace
        (.ok entries) ∧ entries.all DistributeEntry.verified = true := by
    induction artifacts with
    | nil => exact ⟨[], [], .done _, rfl⟩
    | cons artifact artifacts ih =>
        obtain ⟨hsha, hall⟩ := List.forall_mem_cons.mp hall
        obtain ⟨rest, entries, hrest, hverified⟩ := ih hall
        have hone : ∃ trace entry,
            Runs (distributeArtifact builder node "/tmp/solfleet-0" artifact) trace (.ok entry) ∧
              entry.verified = true := by
          unfold distributeArtifact
          split
          · exact ⟨[], _, .done _, rfl⟩
          · refine ⟨_, _, runs_bind_ok_iff.mpr ⟨_, _, exitWith true, runs_scpFrom_iff.mpr rfl,
              runs_bind_ok_iff.mpr ⟨_, _, exitWith true, runs_scpTo_iff.mpr rfl,
              runs_bind_ok_iff.mpr ⟨_, [], some "abc", runs_remoteSha256_ok_iff.mpr
                ⟨hashed, rfl, hashed_firstWord.symm⟩, .done _, rfl⟩, rfl⟩, rfl⟩, ?_⟩
            rw [hsha]
            rfl
        obtain ⟨first, entry, hfirst, hentry⟩ := hone
        refine ⟨_, entry :: entries, runs_each_cons_ok_iff.mpr
          ⟨first, rest, entry, entries, hfirst, hrest, rfl, rfl⟩, ?_⟩
        rw [List.all_cons, hentry, hverified]
        rfl
  obtain ⟨trace, entries, heach, hverified⟩ := heach
  exact ⟨_, _, runs_bind_ok_iff.mpr ⟨_, _, "/tmp/solfleet-0", runs_perform_iff.mpr rfl,
    runs_bind_ok_iff.mpr ⟨_, [], _, heach, .done _, rfl⟩, rfl⟩, hverified⟩

end Solfleet
