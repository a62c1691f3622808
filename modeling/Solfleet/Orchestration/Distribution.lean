import Solfleet.Orchestration

/-! # What building and distributing leave behind

The run of a build ends with the checksums the builder reports, the run of a
distribution is a pull, a push and a checksum for each artifact with a place on the
node. Both are read off the trace here, once for both orchestrators.
-/

namespace Solfleet

open Interaction Program

/-! ## Single calls -/

theorem runs_runOn_iff {target : SSHTarget} {command : Command} {trace : List OpsEvent}
    {result : Except Exn CommandResult} :
    Runs (runOn target command) trace result ↔
      trace = [⟨.runner (.ssh target command), result⟩] := runs_perform_iff

theorem runs_scpFrom_iff {target : SSHTarget} {remotePath localPath : String}
    {trace : List OpsEvent} {result : Except Exn CommandResult} :
    Runs (scpFrom target remotePath localPath) trace result ↔
      trace = [⟨.runner (.scpFrom target remotePath localPath), result⟩] := runs_perform_iff

theorem runs_scpTo_iff {target : SSHTarget} {localPath remotePath : String}
    {trace : List OpsEvent} {result : Except Exn CommandResult} :
    Runs (scpTo target localPath remotePath) trace result ↔
      trace = [⟨.runner (.scpTo target localPath remotePath), result⟩] := runs_perform_iff

theorem runs_remoteSha256_ok_iff {target : SSHTarget} {path : String} {trace : List OpsEvent}
    {sha : Option String} :
    Runs (remoteSha256 target path) trace (.ok sha) ↔
      ∃ r, trace = [⟨.runner (.ssh target (.sha256sum path)), .ok r⟩] ∧ sha = r.firstWord := by
  simp only [remoteSha256, runs_map_ok_iff, runs_runOn_iff]

theorem runs_command {α : Type} {target : SSHTarget} {command : Command}
    {f : CommandResult → α} {trace : List OpsEvent} {result : Except Exn α} :
    Runs (runOn target command >>= fun r => pure (f r)) trace result ↔
      ∃ answer, trace = [⟨.runner (.ssh target command), answer⟩] ∧ result = answer.map f := by
  rw [← map_eq_bind, runs_map_iff]
  simp only [runs_runOn_iff]

/-! ## Who is called -/

section Calls

variable {P : Invocation → Prop} {builder : SSHTarget} {node : Node}

theorem allCalls_runBuildSteps {steps : List BuildStep}
    (h : ∀ step ∈ steps, P (.ssh builder (.build step))) (log : List String) :
    (runBuildSteps builder steps log).AllCalls (OpsEffect.Sends P) := by
  induction steps generalizing log with
  | nil => trivial
  | cons step steps ih =>
      obtain ⟨hstep, hsteps⟩ := List.forall_mem_cons.mp h
      refine (allCalls_runOn hstep).bind fun r => ?_
      dsimp only
      split
      · exact ih hsteps _
      · trivial

/-- Building tests the cache, runs the steps and hashes the artifacts. -/
theorem allCalls_buildArtifacts {install : InstallConfig} {version : String}
    (htest : P (.ssh builder
      (.testFiles ((artifactNames install).map fun n => outDir install version ++ "/" ++ n))))
    (hbuild : ∀ step ∈ buildCommands install version, P (.ssh builder (.build step)))
    (hsha : ∀ n ∈ artifactNames install,
      P (.ssh builder (.sha256sum (outDir install version ++ "/" ++ n)))) (force : Bool) :
    (buildArtifacts builder install version force).AllCalls (OpsEffect.Sends P) := by
  have hcollect : (collect builder (outDir install version) (artifactNames install)).AllCalls
      (OpsEffect.Sends P) :=
    AllCalls.each fun name hn => ((allCalls_runOn (hsha name hn)).map _).bind fun _ => trivial
  have hfresh : (freshBuild builder install version).AllCalls (OpsEffect.Sends P) := by
    refine (allCalls_runBuildSteps hbuild _).bind fun log => ?_
    dsimp only
    split
    · trivial
    · exact hcollect.bind fun _ => trivial
  unfold buildArtifacts
  split
  · exact hfresh
  · refine ((allCalls_runOn htest).map _).bind fun cached => ?_
    split
    · exact hcollect.bind fun _ => trivial
    · exact hfresh

theorem allCalls_distribute (hpull : ∀ remote local', P (.scpFrom builder remote local'))
    (hpush : ∀ local' dest, P (.scpTo (.node node) local' dest))
    (hsha : ∀ path, P (.ssh (.node node) (.sha256sum path))) (artifacts : List Artifact) :
    (distribute builder node artifacts).AllCalls (OpsEffect.Sends P) := by
  refine (allCalls_perform.mpr fun _ he => nomatch he).bind fun staging => ?_
  refine (AllCalls.each fun artifact _ => ?_).bind fun _ => trivial
  unfold distributeArtifact
  split
  · trivial
  · refine (allCalls_perform.mpr (sends_runner_iff.mpr (hpull _ _))).bind fun pull => ?_
    refine (allCalls_perform.mpr (sends_runner_iff.mpr (hpush _ _))).bind fun push => ?_
    exact ((allCalls_runOn (hsha _)).map _).bind fun _ => trivial

theorem allCalls_catchupLoop (node : Node) (referenceRpc : String) (maxLag : Int) (rounds : Nat)
    (waited : Int) (last : Option Sample) :
    (catchupLoop node referenceRpc maxLag rounds waited last).AllCalls (OpsEffect.Sends P) := by
  induction rounds generalizing waited last with
  | zero => trivial
  | succ rounds ih =>
      refine (allCalls_perform.mpr fun _ he => nomatch he).bind fun sample => ?_
      split
      · trivial
      · exact (allCalls_perform.mpr fun _ he => nomatch he).bind fun _ => ih _ _

theorem allCalls_waitForCatchup (node : Node) (referenceRpc : String) (maxLag timeout : Int) :
    (waitForCatchup node referenceRpc maxLag timeout).AllCalls (OpsEffect.Sends P) :=
  allCalls_catchupLoop ..

end Calls

/-! ## Building -/

/-- What the builder said of the file behind an artifact. -/
def Reported (builder : SSHTarget) (out : String) (artifact : Artifact)
    (trace : List OpsEvent) : Prop :=
  artifact.remotePath = out ++ "/" ++ artifact.name ∧
    ∃ r, ⟨.runner (.ssh builder (.sha256sum artifact.remotePath)), .ok r⟩ ∈ trace ∧
      artifact.sha256 = r.firstWord

theorem runs_collect {builder : SSHTarget} {out : String} {names : List String}
    {trace : List OpsEvent} {artifacts : List Artifact}
    (h : Runs (collect builder out names) trace (.ok artifacts)) :
    artifacts.map (·.name) = names ∧
      ∀ artifact ∈ artifacts, Reported builder out artifact trace := by
  unfold collect at h
  induction names generalizing trace artifacts with
  | nil =>
      obtain ⟨rfl, hr⟩ := runs_pure_iff.mp h
      cases hr
      simp
  | cons name names ih =>
      obtain ⟨first, rest, artifact, tail, hfirst, hrest, rfl, rfl⟩ := runs_each_cons_ok_iff.mp h
      obtain ⟨second, last, sha, hsha, hpure, rfl⟩ := runs_bind_ok_iff.mp hfirst
      obtain ⟨r, rfl, rfl⟩ := runs_remoteSha256_ok_iff.mp hsha
      obtain ⟨rfl, hr⟩ := runs_pure_iff.mp hpure
      cases hr
      obtain ⟨hnames, htail⟩ := ih hrest
      refine ⟨by simp [hnames], List.forall_mem_cons.mpr ⟨?_, fun artifact ha => ?_⟩⟩
      · exact ⟨rfl, r, by simp, rfl⟩
      · obtain ⟨hpath, r', hmem, hsha'⟩ := htail artifact ha
        exact ⟨hpath, r', List.mem_append_right _ hmem, hsha'⟩

/-- A build that succeeded ends by collecting the artifacts it returns. -/
theorem runs_buildArtifacts {builder : SSHTarget} {install : InstallConfig} {version : String}
    {force : Bool} {trace : List OpsEvent} {build : BuildResult}
    (h : Runs (buildArtifacts builder install version force) trace (.ok build))
    (hok : build.ok = true) :
    build.artifacts.map (·.name) = artifactNames install ∧
      ∀ artifact ∈ build.artifacts, Reported builder (outDir install version) artifact trace := by
  have hcollect : ∀ (before : List OpsEvent) {collected : List OpsEvent},
      Runs (collect builder (outDir install version) (artifactNames install)) collected
        (.ok build.artifacts) →
      build.artifacts.map (·.name) = artifactNames install ∧
        ∀ artifact ∈ build.artifacts, Reported builder (outDir install version) artifact
          (before ++ collected) := by
    intro before collected hc
    obtain ⟨hnames, hreported⟩ := runs_collect hc
    refine ⟨hnames, fun artifact ha => ?_⟩
    obtain ⟨hpath, r, hmem, hsha⟩ := hreported artifact ha
    exact ⟨hpath, r, List.mem_append_right _ hmem, hsha⟩
  have hfresh : ∀ (before : List OpsEvent) {rest : List OpsEvent},
      Runs (freshBuild builder install version) rest (.ok build) →
      build.artifacts.map (·.name) = artifactNames install ∧
        ∀ artifact ∈ build.artifacts, Reported builder (outDir install version) artifact
          (before ++ rest) := by
    intro before rest hf
    obtain ⟨steps, rest, ⟨error, log⟩, _, hf, rfl⟩ := runs_bind_ok_iff.mp hf
    cases error with
    | some error =>
        obtain ⟨_, hr⟩ := runs_pure_iff.mp hf
        cases hr
        cases hok
    | none =>
        obtain ⟨collected, last, artifacts, hc, hp, rfl⟩ := runs_bind_ok_iff.mp hf
        obtain ⟨rfl, hr⟩ := runs_pure_iff.mp hp
        cases hr
        rw [List.append_nil, ← List.append_assoc]
        exact hcollect _ hc
  unfold buildArtifacts at h
  cases force with
  | true => exact hfresh [] h
  | false =>
      obtain ⟨first, rest, cached, _, h, rfl⟩ := runs_bind_ok_iff.mp h
      cases cached with
      | false => exact hfresh _ h
      | true =>
          obtain ⟨collected, last, artifacts, hc, hp, rfl⟩ := runs_bind_ok_iff.mp h
          obtain ⟨rfl, hr⟩ := runs_pure_iff.mp hp
          cases hr
          rw [List.append_nil]
          exact hcollect _ hc

/-! ## Distributing -/

/-- Where an artifact is swapped in, if it has a place on the node. -/
def swapFor (node : Node) (name : String) : Option Swap :=
  (destFor node name).map fun dest => ⟨stagedPath dest, dest, decide (name ∈ agaveBins)⟩

/-- What an upgrade of the node swaps in. -/
def upgradeSwaps (cluster : Cluster) (node : Node) : List Swap :=
  match cluster.install with
  | none => []
  | some install => (artifactNames install).filterMap (swapFor node)

/-- The three calls that bring one file to the node. -/
def pushTrace (builder : SSHTarget) (node : Node) (remotePath localPath dest : String)
    (pull push got : CommandResult) : List OpsEvent :=
  [⟨.runner (.scpFrom builder remotePath localPath), .ok pull⟩,
    ⟨.runner (.scpTo (.node node) localPath (stagedPath dest)), .ok push⟩,
    ⟨.runner (.ssh (.node node) (.sha256sum (stagedPath dest))), .ok got⟩]

/-- An artifact is pulled, pushed and hashed, and the hash is the builder's. -/
def Delivered (builder : SSHTarget) (node : Node) (staging dest : String) (artifact : Artifact)
    (trace : List OpsEvent) : Prop :=
  ∃ pull push got,
    (pushTrace builder node artifact.remotePath (Text.pathJoin staging artifact.name) dest pull
      push got).Sublist trace ∧
    pull.ok = true ∧ push.ok = true ∧ shaMatches got.firstWord artifact.sha256 = true

def Invocation.copies : Invocation → Bool
  | .ssh .. => false
  | .scpFrom .. => true
  | .scpTo .. => true

/-- Every copy in the trace exited 0. -/
def CopiesSucceed (trace : List OpsEvent) : Prop :=
  ∀ event ∈ trace, ∀ i, event.op = .runner i → i.copies = true →
    ∃ r, event = ⟨.runner i, .ok r⟩ ∧ r.ok = true

theorem CopiesSucceed.append {xs ys : List OpsEvent} (hx : CopiesSucceed xs)
    (hy : CopiesSucceed ys) : CopiesSucceed (xs ++ ys) := by
  intro event he
  obtain he | he := List.mem_append.mp he
  · exact hx event he
  · exact hy event he

theorem CopiesSucceed.of_allCalls {α : Type} {p : OpsProgram α} {trace : List OpsEvent}
    {result : Except Exn α} (hp : p.AllCalls (OpsEffect.Sends fun i => i.copies = false))
    (h : Runs p trace result) : CopiesSucceed trace := by
  intro event he i hop hcopies
  rw [h.allCalls hp event he i hop] at hcopies
  cases hcopies

theorem runs_pushArtifact {builder : SSHTarget} {node : Node} {staging dest : String}
    {artifact : Artifact} {trace : List OpsEvent} {entry : DistributeEntry}
    (h : Runs (pushArtifact builder (.node node) staging dest artifact) trace (.ok entry)) :
    ∃ pull push got,
      trace = pushTrace builder node artifact.remotePath (Text.pathJoin staging artifact.name) dest
        pull push got ∧
      entry = .pushed artifact.name dest (stagedPath dest) pull.ok push.ok
        (shaMatches got.firstWord artifact.sha256) artifact.sha256 got.firstWord := by
  obtain ⟨_, _, pull, hpull, hrest, rfl⟩ := runs_bind_ok_iff.mp h
  obtain ⟨_, _, push, hpush, hhash, rfl⟩ := runs_bind_ok_iff.mp hrest
  obtain ⟨_, _, sha, hsha, hpure, rfl⟩ := runs_bind_ok_iff.mp hhash
  obtain ⟨got, rfl, rfl⟩ := runs_remoteSha256_ok_iff.mp hsha
  obtain rfl := runs_scpFrom_iff.mp hpull
  obtain rfl := runs_scpTo_iff.mp hpush
  obtain ⟨rfl, hr⟩ := runs_pure_iff.mp hpure
  cases hr
  exact ⟨pull, push, got, rfl, rfl⟩

theorem copiesSucceed_pushTrace {builder : SSHTarget} {node : Node}
    {remotePath localPath dest : String} {pull push got : CommandResult}
    (hpull : pull.ok = true) (hpush : push.ok = true) :
    CopiesSucceed (pushTrace builder node remotePath localPath dest pull push got) := by
  intro event he i hop hcopies
  simp only [pushTrace, List.mem_cons, List.not_mem_nil, or_false] at he
  rcases he with rfl | rfl | rfl
  · cases hop
    exact ⟨pull, rfl, hpull⟩
  · cases hop
    exact ⟨push, rfl, hpush⟩
  · cases hop
    cases hcopies

/-- The artifacts one after the other; the invariant is what the caller will swap. -/
theorem runs_distributeEach {builder : SSHTarget} {node : Node} {staging : String}
    {artifacts : List Artifact} {trace : List OpsEvent} {entries : List DistributeEntry}
    (h : Runs (each artifacts (distributeArtifact builder node staging)) trace (.ok entries))
    (hok : entries.all DistributeEntry.verified = true) :
    (∀ artifact ∈ artifacts, ∀ dest, destFor node artifact.name = some dest →
      Delivered builder node staging dest artifact trace) ∧
    CopiesSucceed trace ∧
    entries.filterMap DistributeEntry.swap? =
      (artifacts.map (·.name)).filterMap (swapFor node) := by
  induction artifacts generalizing trace entries with
  | nil =>
      obtain ⟨rfl, hr⟩ := runs_pure_iff.mp h
      cases hr
      exact ⟨by simp, by simp [CopiesSucceed], rfl⟩
  | cons artifact artifacts ih =>
      obtain ⟨first, rest, entry, tail, hfirst, hrest, rfl, rfl⟩ := runs_each_cons_ok_iff.mp h
      rw [List.all_cons, Bool.and_eq_true] at hok
      obtain ⟨hdelivered, hcopies, hswaps⟩ := ih hrest hok.2
      have hlater : ∀ other ∈ artifacts, ∀ dest, destFor node other.name = some dest →
          Delivered builder node staging dest other (first ++ rest) := by
        intro other ho dest hd
        obtain ⟨pull, push, got, hsub, hoks⟩ := hdelivered other ho dest hd
        exact ⟨pull, push, got, hsub.trans (List.sublist_append_right _ _), hoks⟩
      unfold distributeArtifact at hfirst
      cases hd : destFor node artifact.name with
      | none =>
          rw [hd] at hfirst
          obtain ⟨rfl, hr⟩ := runs_pure_iff.mp hfirst
          cases hr
          refine ⟨List.forall_mem_cons.mpr ⟨fun dest h => ?_, hlater⟩, hcopies, ?_⟩
          · cases hd.symm.trans h
          · rw [List.filterMap_cons_none rfl, List.map_cons,
              List.filterMap_cons_none (by simp [swapFor, hd]), hswaps]
      | some dest =>
          rw [hd] at hfirst
          obtain ⟨pull, push, got, rfl, rfl⟩ := runs_pushArtifact hfirst
          simp only [DistributeEntry.verified, Bool.and_eq_true] at hok
          obtain ⟨⟨⟨hpull, hpush⟩, hmatch⟩, _⟩ := hok
          refine ⟨List.forall_mem_cons.mpr ⟨fun dest' h => ?_, hlater⟩,
            (copiesSucceed_pushTrace hpull hpush).append hcopies, ?_⟩
          · obtain rfl := Option.some.inj (hd.symm.trans h)
            exact ⟨pull, push, got, List.sublist_append_left _ _, hpull, hpush, hmatch⟩
          · rw [List.filterMap_cons_some (by simp [DistributeEntry.swap?, hmatch]; rfl),
              List.map_cons, List.filterMap_cons_some (by simp [swapFor, hd]; rfl), hswaps]

/-- A distribution that succeeded delivered every artifact with a place on the node, and
these are what it hands to the swap. -/
theorem runs_distribute {builder : SSHTarget} {node : Node} {artifacts : List Artifact}
    {trace : List OpsEvent} {dist : Distribution}
    (h : Runs (distribute builder node artifacts) trace (.ok dist)) (hok : dist.ok = true) :
    (∀ artifact ∈ artifacts, ∀ dest, destFor node artifact.name = some dest →
      Delivered builder node dist.staging dest artifact trace) ∧
    CopiesSucceed trace ∧
    dist.swaps = (artifacts.map (·.name)).filterMap (swapFor node) := by
  obtain ⟨first, rest, staging, hfirst, hrest, rfl⟩ := runs_bind_ok_iff.mp h
  obtain ⟨eachTrace, last, entries, heach, hpure, rfl⟩ := runs_bind_ok_iff.mp hrest
  obtain ⟨rfl, hr⟩ := runs_pure_iff.mp hpure
  cases hr
  obtain ⟨hdelivered, hcopies, hswaps⟩ := runs_distributeEach heach hok
  obtain rfl := runs_perform_iff.mp hfirst
  rw [List.append_nil]
  refine ⟨fun artifact ha dest hd => ?_, CopiesSucceed.append ?_ hcopies, hswaps⟩
  · obtain ⟨pull, push, got, hsub, hoks⟩ := hdelivered artifact ha dest hd
    exact ⟨pull, push, got, hsub.trans (List.sublist_append_right _ _), hoks⟩
  · intro event he i hop
    rw [List.mem_singleton] at he
    subst he
    cases hop

end Solfleet
