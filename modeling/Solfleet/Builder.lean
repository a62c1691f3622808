import Solfleet.Executor

/-! # Building

Build the artifacts of a version on a builder, or reuse the set it has cached, and
turn a bare host into a builder.
-/

namespace Solfleet

open Interaction Program

/-! ## Artifacts -/

def agaveBins : List String := ["agave-validator", "agave-ledger-tool", "solana"]

def geyserLibName : String := "libyellowstone_grpc_geyser.so"

structure Artifact where
  name : String
  remotePath : String
  sha256 : Option String := none
  deriving DecidableEq

structure BuildResult where
  version : String
  source : AgaveSource
  outDir : String
  artifacts : List Artifact := []
  cached : Bool := false
  ok : Bool := true
  error : Option String := none
  logTail : String := ""
  deriving DecidableEq

/-- The git tag of a version. -/
def tag (version : String) : String :=
  if Text.startsWith 'v' version then version else "v" ++ version

def artifactNames (install : InstallConfig) : List String :=
  agaveBins ++ if Text.truthy install.geyserRepo then [geyserLibName] else []

/-! ## The build steps -/

def cacheDir (install : InstallConfig) : String := Text.rstrip '/' install.artifactCache

def outDir (install : InstallConfig) (version : String) : String :=
  cacheDir install ++ "/" ++ version

def geyserSteps (install : InstallConfig) (version : String) : List BuildStep :=
  match install.geyserRepo with
  | none => []
  | some repo =>
      if repo = "" then []
      else
        let geyserSrc := cacheDir install ++ "/src/geyser"
        [.clone repo geyserSrc, .fetch geyserSrc] ++
        (match install.geyserRef with
          | none => []
          | some ref => if ref = "" then [] else [.checkout geyserSrc ref]) ++
        [.cargoBuild geyserSrc,
          .copy (geyserSrc ++ "/target/release/" ++ geyserLibName)
            (outDir install version ++ "/" ++ geyserLibName)]

def buildCommands (install : InstallConfig) (version : String) : List BuildStep :=
  let cache := cacheDir install
  let out := outDir install version
  let agaveSrc := cache ++ "/src/agave"
  [.mkdir out (cache ++ "/src"), .clone install.agaveRepo agaveSrc, .fetch agaveSrc,
    .checkout agaveSrc (tag version), .cargoInstall agaveSrc out] ++
  agaveBins.map (fun b => .copy (out ++ "/install/bin/" ++ b) (out ++ "/" ++ b)) ++
  geyserSteps install version

/-! ## Building -/

def collect (builder : SSHTarget) (out : String) (names : List String) :
    OpsProgram (List Artifact) :=
  each names fun name => do
    let path := out ++ "/" ++ name
    let sha ← remoteSha256 builder path
    pure { name, remotePath := path, sha256 := sha }

def isCached (builder : SSHTarget) (out : String) (names : List String) : OpsProgram Bool :=
  CommandResult.ok <$> runOn builder (.testFiles (names.map fun n => out ++ "/" ++ n))

/-- `log[-4:]` -/
def logTail (log : List String) : String := Text.join "\n" (log.drop (log.length - 4))

/-- Run the steps until one fails; its error, if any, and the log. -/
def runBuildSteps (builder : SSHTarget) : List BuildStep → List String →
    OpsProgram (Option String × List String)
  | [], log => pure (none, log)
  | step :: steps, log => do
      let r ← runOn builder (.build step)
      let log := log ++ [Text.strip ("$ " ++ step.text ++ "\n" ++ r.stdout ++ r.stderr)]
      if r.ok then runBuildSteps builder steps log
      else
        let cause :=
          if Text.strip r.stderr = "" then toString r.exitCode else Text.strip r.stderr
        pure (some ("build step failed: " ++ step.text ++ ": " ++ cause), log)

/-- The build behind the cache. -/
def freshBuild (builder : SSHTarget) (install : InstallConfig) (version : String) :
    OpsProgram BuildResult := do
  let out := outDir install version
  let (error, log) ← runBuildSteps builder (buildCommands install version) []
  match error with
  | some error =>
      pure { version, source := install.source, outDir := out, ok := false,
             error := some error, logTail := logTail log }
  | none => do
      let artifacts ← collect builder out (artifactNames install)
      pure { version, source := install.source, outDir := out, artifacts, logTail := logTail log }

def cachedBuild (builder : SSHTarget) (install : InstallConfig) (version : String) :
    OpsProgram BuildResult := do
  let out := outDir install version
  let artifacts ← collect builder out (artifactNames install)
  pure { version, source := install.source, outDir := out, cached := true, artifacts }

def buildArtifacts (builder : SSHTarget) (install : InstallConfig) (version : String)
    (force : Bool) : OpsProgram BuildResult :=
  if force then freshBuild builder install version
  else do
    let cached ← isCached builder (outDir install version) (artifactNames install)
    if cached then cachedBuild builder install version
    else freshBuild builder install version

/-! ## Bootstrapping a builder -/

inductive BootstrapResult where
  | error (message : String)
  | gated (decision : GateDecision) (packages : List String)
  | executed (decision : GateDecision) (ok : Bool) (versions : List String)
      (error : Option String)
  deriving DecidableEq

def bootstrapPlan : List String :=
  ["apt install: " ++ Text.join ", " buildAptPackages,
    "install rustup (Rust toolchain) if missing",
    "symlink cargo/rustc/rustup into /usr/local/bin (non-interactive PATH)",
    "expose libclang.so for clang-sys; ldconfig"]

def bootstrapRequest (builderName : String) (reachable : Bool) : GateRequest where
  operation := "bootstrap_builder"
  cluster := "builders"
  node := builderName
  plan := bootstrapPlan
  checks := [(reachable, "builder not reachable over SSH")]

/-- `r.stderr.strip()[-500:] or f"exit {r.exit_code}"` -/
def stderrTail (r : CommandResult) : String :=
  let text := (Text.strip r.stderr).toList
  if text = [] then "exit " ++ toString r.exitCode
  else String.ofList (text.drop (text.length - 500))

def executeBootstrap (builder : BuilderHost) (builderName : String) (audit : Bool)
    (decision : GateDecision) : OpsProgram BootstrapResult := do
  let r ← runOn (.builder builder) .bootstrap
  let ok := r.ok && Text.contains "BOOTSTRAP_OK" r.stdout
  let versions := (Text.splitlines r.stdout).filter fun line =>
    ["cargo ", "rustc ", "libprotoc"].any fun t => Text.contains t line
  recordOps audit ⟨"bootstrap_builder", "builders", builderName, .execute, true⟩
  pure (.executed decision ok versions (if ok then none else some (stderrTail r)))

def unknownBuilder (fleet : Fleet) (builderName : String) : String :=
  "unknown builder " ++ Text.pyRepr builderName ++ "; known: " ++
    Text.pyReprList (sorted fleet.builders.keys.toFinset)

def bootstrapBuilder (fleet : Fleet) (builderName : String) (confirm audit : Bool) :
    OpsProgram BootstrapResult :=
  match fleet.findBuilder (some builderName) with
  | none =>
      pure (.error (unknownBuilder fleet builderName))
  | some builder => do
      let r ← runOn (.builder builder) .noop
      gated (bootstrapRequest builderName r.ok) confirm audit
        (fun decision => .gated decision buildAptPackages)
        (executeBootstrap builder builderName audit)

end Solfleet
