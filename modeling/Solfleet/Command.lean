import Solfleet.Config

/-! # Commands

Every command a run sends is one of a fixed family of texts. `Command` names the
family and its arguments and `Command.text` is the text the shell on the other
side receives; `Invocation.argv` is what the runner is given.
-/

namespace Solfleet

/-! ## Targets -/

/-- Anything reachable over ssh: a fleet node or a build host. -/
inductive SSHTarget where
  | node (n : Node)
  | builder (b : BuilderHost)
  deriving DecidableEq

def SSHTarget.ssh : SSHTarget → SSHConfig
  | .node n => n.ssh
  | .builder b => b.ssh

def SSHTarget.host : SSHTarget → String
  | .node n => n.host
  | .builder b => b.host

/-! ## Swaps -/

/-- A staged file, the path it is moved onto, and whether it is executable. -/
structure Swap where
  staged : String
  dest : String
  isExec : Bool
  deriving DecidableEq

inductive SwapPart where
  | mv (staged dest : String)
  | chmod (dest : String)
  deriving DecidableEq

def SwapPart.text : SwapPart → String
  | .mv staged dest => "mv -f " ++ staged ++ " " ++ dest
  | .chmod dest => "chmod 755 " ++ dest

def Swap.parts (swap : Swap) : List SwapPart :=
  .mv swap.staged swap.dest :: if swap.isExec then [.chmod swap.dest] else []

def swapParts (swaps : List Swap) : List SwapPart := swaps.flatMap Swap.parts

/-! ## Build steps -/

inductive BuildStep where
  | mkdir (out src : String)
  | clone (repo src : String)
  | fetch (src : String)
  | checkout (src ref : String)
  | cargoInstall (src out : String)
  | copy (source dest : String)
  | cargoBuild (src : String)
  deriving DecidableEq

def BuildStep.text : BuildStep → String
  | .mkdir out src => "mkdir -p " ++ out ++ " " ++ src
  | .clone repo src => "test -d " ++ src ++ "/.git || git clone " ++ repo ++ " " ++ src
  | .fetch src => "git -C " ++ src ++ " fetch --tags origin"
  | .checkout src ref => "git -C " ++ src ++ " checkout " ++ ref
  | .cargoInstall src out => "cd " ++ src ++ " && ./scripts/cargo-install-all.sh " ++ out ++
      "/install"
  | .copy source dest => "cp " ++ source ++ " " ++ dest
  | .cargoBuild src => "cd " ++ src ++ " && cargo build --release"

def buildAptPackages : List String :=
  ["build-essential", "pkg-config", "libssl-dev", "libudev-dev",
    "protobuf-compiler", "libclang-dev", "clang", "cmake", "jq", "git", "curl"]

/-- The steps that turn a bare host into a builder, run as one script. -/
def bootstrapCommands : List String :=
  ["DEBIAN_FRONTEND=noninteractive apt-get update -qq",
    "DEBIAN_FRONTEND=noninteractive apt-get install -y -qq " ++ Text.join " " buildAptPackages,
    "command -v rustup >/dev/null 2>&1 || " ++
      "curl --proto '=https' --tlsv1.2 -sSf https://sh.rustup.rs | " ++
      "sh -s -- -y --profile minimal",
    "ln -sf \"$HOME/.cargo/bin/cargo\" /usr/local/bin/cargo",
    "ln -sf \"$HOME/.cargo/bin/rustc\" /usr/local/bin/rustc",
    "ln -sf \"$HOME/.cargo/bin/rustup\" /usr/local/bin/rustup",
    "for c in /usr/lib/llvm-*/lib/libclang.so /usr/lib/*/libclang-[0-9]*.so; do " ++
      "[ -e \"$c\" ] && ln -sf \"$c\" /usr/lib/x86_64-linux-gnu/libclang.so && break; " ++
      "done || true",
    "ldconfig"]

/-! ## Commands -/

inductive Command where
  | systemctlShow (unit : String)
  | binaryVersion (binary : String)
  | cat (path : String)
  | df (paths : List String)
  | systemctl (withSudo : Bool) (verb unit : String)
  | safeExit (asUser : Option String) (binary ledger : String) (minIdle maxDelinquent : Int)
  | swap (swaps : List Swap)
  | writeMarker (value path : String)
  | sha256sum (path : String)
  | testFiles (paths : List String)
  | build (step : BuildStep)
  | noop
  | bootstrap
  | preflight
  | ensureUser (user : String)
  | applySystem (tuning : SystemTuning) (user : String)
  | setupTmpfs (disk : DiskConfig) (user : String)
  | probeDisk (device : String)
  | mkfs (fs : Filesystem) (device : String)
  | mountDisk (disk : DiskConfig) (user : String)
  | installUnit (unit unitText : String)
  | testPresent (path : String)
  | builderSpecs
  deriving DecidableEq

def inspectFields : String := "ActiveState,SubState,ExecMainStartTimestamp,User"

def unitPath (unit : String) : String := "/etc/systemd/system/" ++ unit ++ ".service"

def sysctlLines (tuning : SystemTuning) : String :=
  Text.join "\n" (tuning.sysctl.entries.map fun kv => kv.1 ++ " = " ++ toString kv.2)

def applySystemSteps (tuning : SystemTuning) (user : String) : List String :=
  ["install -d -m 755 /etc/sysctl.d /etc/security/limits.d",
    "printf '%s\\n' '" ++ sysctlLines tuning ++ "' > /etc/sysctl.d/21-solfleet.conf",
    "sysctl --system >/dev/null",
    "printf '%s soft nofile " ++ toString tuning.openFiles ++ "\\n" ++
      "%s hard nofile " ++ toString tuning.openFiles ++ "\\n' " ++
      "'" ++ user ++ "' '" ++ user ++ "' > /etc/security/limits.d/90-solfleet.conf"] ++
  match tuning.cpuGovernor with
  | none => []
  | some governor =>
      if governor = "" then []
      else
        ["for g in /sys/devices/system/cpu/cpu*/cpufreq/scaling_governor; do " ++
          "[ -w \"$g\" ] && echo " ++ governor ++ " > \"$g\" || true; done"]

/-- The last two steps of every disk: mount it once and hand it over. -/
def mountSteps (mount user : String) : List String :=
  ["mountpoint -q " ++ mount ++ " || mount " ++ mount,
    "chown " ++ user ++ ":" ++ user ++ " " ++ mount]

def setupTmpfsSteps (disk : DiskConfig) (user : String) : List String :=
  let size :=
    match disk.sizeGb with
    | none => "size=50%"
    | some gb => if gb = 0 then "size=50%" else "size=" ++ toString gb ++ "G"
  ["mkdir -p " ++ disk.mount,
    "grep -q ' " ++ disk.mount ++ " ' /etc/fstab || " ++
      "echo 'tmpfs " ++ disk.mount ++ " tmpfs " ++ size ++ " 0 0' >> /etc/fstab"] ++
  mountSteps disk.mount user

def mountDiskSteps (disk : DiskConfig) (user : String) : List String :=
  ["mkdir -p " ++ disk.mount,
    "uuid=$(blkid -s UUID -o value " ++ disk.device ++ ") && " ++
      "(grep -q \"$uuid\" /etc/fstab || " ++
      "echo \"UUID=$uuid " ++ disk.mount ++ " " ++ disk.fs.text ++
      " defaults,noatime 0 2\" >> /etc/fstab)"] ++
  mountSteps disk.mount user

def Command.text : Command → String
  | .systemctlShow unit => "systemctl show " ++ unit ++ " -p " ++ inspectFields ++ " --no-pager"
  | .binaryVersion binary => binary ++ " --version"
  | .cat path => "cat " ++ path
  | .df paths => "df -P -BG " ++ Text.join " " paths
  | .systemctl withSudo verb unit =>
      (if withSudo then "sudo -n " else "") ++ "systemctl " ++ verb ++ " " ++ unit
  | .safeExit asUser binary ledger minIdle maxDelinquent =>
      (match asUser with
        | none => ""
        | some user => "sudo -u " ++ user ++ " ") ++
      binary ++ " --ledger " ++ ledger ++ " exit " ++
      "--min-idle-time " ++ toString minIdle ++ " " ++
      "--max-delinquent-stake " ++ toString maxDelinquent
  | .swap swaps => Text.join " && " ((swapParts swaps).map SwapPart.text)
  | .writeMarker value path => "printf '%s' '" ++ value ++ "' > " ++ path
  | .sha256sum path => "sha256sum " ++ path
  | .testFiles paths => Text.join " && " (paths.map fun path => "test -f " ++ path)
  | .build step => step.text
  | .noop => "true"
  | .bootstrap =>
      "set -e\n" ++ Text.join "\n" bootstrapCommands ++
      "\necho BOOTSTRAP_OK\ncargo --version; rustc --version; protoc --version"
  | .preflight =>
      "printf 'os=%s\\n' \"$(. /etc/os-release 2>/dev/null; echo $ID$VERSION_ID)\"; " ++
      "printf 'arch=%s\\n' \"$(uname -m)\"; " ++
      "printf 'cores=%s\\n' \"$(nproc)\"; " ++
      "free -b | awk '/^Mem:/\x7bprint \"ram=\"$2\x7d'; " ++
      "printf 'root=%s\\n' \"$(id -u)\""
  | .ensureUser user =>
      "id -u " ++ user ++ " >/dev/null 2>&1 || " ++
      "useradd --system --create-home --shell /usr/sbin/nologin " ++ user
  | .applySystem tuning user => Text.join " && " (applySystemSteps tuning user)
  | .setupTmpfs disk user => Text.join " && " (setupTmpfsSteps disk user)
  | .probeDisk device =>
      "lsblk -no FSTYPE " ++ device ++ " 2>/dev/null; " ++
      "findmnt -nro TARGET " ++ device ++ " 2>/dev/null"
  | .mkfs fs device => "mkfs." ++ fs.text ++ " -q " ++ device
  | .mountDisk disk user => Text.join " && " (mountDiskSteps disk user)
  | .installUnit unit unitText =>
      "install -d -m 755 /etc/solana-validator; " ++
      "cat > " ++ unitPath unit ++ ".solfleet-new <<'SOLFLEET_UNIT'\n" ++ unitText ++
      "\nSOLFLEET_UNIT\n" ++
      "mv -f " ++ unitPath unit ++ ".solfleet-new " ++ unitPath unit ++
      " && systemctl daemon-reload && " ++
      "systemctl enable " ++ unit ++ " >/dev/null 2>&1 || true"
  | .testPresent path => "test -f " ++ path ++ " && echo present || echo missing"
  | .builderSpecs =>
      "printf 'cores=%s\\n' \"$(nproc)\"; " ++
      "free -b | awk '/^Mem:/\x7bprint \"ram=\"$2\x7d'; " ++
      "df -PB1 / | awk 'NR==2\x7bprint \"disk=\"$4\x7d'; " ++
      "(command -v cargo >/dev/null && command -v rustc >/dev/null " ++
      "&& echo toolchain=ok || echo toolchain=missing)"

theorem Command.text_build (step : BuildStep) : (Command.build step).text = step.text := rfl

theorem Command.text_testFiles (paths : List String) :
    (Command.testFiles paths).text = Text.join " && " (paths.map fun path => "test -f " ++ path) :=
  rfl

theorem Command.text_sha256sum (path : String) :
    (Command.sha256sum path).text = "sha256sum " ++ path := rfl

theorem Command.text_writeMarker (value path : String) :
    (Command.writeMarker value path).text = "printf '%s' '" ++ value ++ "' > " ++ path := rfl

/-! ## Invocations -/

inductive Invocation where
  | ssh (target : SSHTarget) (command : Command)
  | scpFrom (target : SSHTarget) (remotePath localPath : String)
  | scpTo (target : SSHTarget) (localPath remotePath : String)
  deriving DecidableEq

/-- The options ssh and scp share, up to the port. -/
def connectOptions (program : String) (ssh : SSHConfig) : List String :=
  [program, "-o", "BatchMode=yes", "-o", "ConnectTimeout=15",
    "-o", "StrictHostKeyChecking=accept-new"] ++
  match ssh.keyFile with
  | none => []
  | some keyFile => ["-i", keyFile]

def SSHTarget.address (target : SSHTarget) : String := target.ssh.user ++ "@" ++ target.host

def Invocation.argv : Invocation → List String
  | .ssh target command =>
      connectOptions "ssh" target.ssh ++
        ["-p", toString target.ssh.port, target.address, command.text]
  | .scpFrom target remotePath localPath =>
      connectOptions "scp" target.ssh ++
        ["-P", toString target.ssh.port, target.address ++ ":" ++ remotePath, localPath]
  | .scpTo target localPath remotePath =>
      connectOptions "scp" target.ssh ++
        ["-P", toString target.ssh.port, localPath, target.address ++ ":" ++ remotePath]

end Solfleet
