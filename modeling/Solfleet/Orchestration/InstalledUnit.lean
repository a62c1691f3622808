import Solfleet.Library.Script
import Solfleet.Library.Shell
import Solfleet.Library.Triple
import Solfleet.Orchestration.Readiness

/-! # What an installed unit is worth

The unit is written next to its place, moved over it and made known to systemd by one
command line. Its last word is `|| true`, so its exit status says only that the shell was
reached; whether the unit is in place is decided by the commands before.
-/

namespace Solfleet

open Interaction Program Script

/-! ## The command line -/

/-- Where the unit is written first. -/
def writtenPath (unit : String) : String := unitPath unit ++ ".solfleet-new"

inductive UnitCommand where
  | installDir
  | cat (path body : String)
  | mv (source dest : String)
  | daemonReload
  | enable (unit : String)
  | succeed
  deriving DecidableEq

/-- The here-document stands at the end of its line, so its text follows the command. -/
def UnitCommand.text : UnitCommand → String
  | .installDir => "install -d -m 755 /etc/solana-validator"
  | .cat path body => "cat > " ++ path ++ " <<'SOLFLEET_UNIT'\n" ++ body ++ "\nSOLFLEET_UNIT"
  | .mv source dest => "mv -f " ++ source ++ " " ++ dest
  | .daemonReload => "systemctl daemon-reload"
  | .enable unit => "systemctl enable " ++ unit ++ " >/dev/null 2>&1"
  | .succeed => "true"

/-- `mv … && systemctl daemon-reload && systemctl enable … || true` -/
def activation (unit : String) : AndOr UnitCommand :=
  .or (.and (.and (.command (.mv (writtenPath unit) (unitPath unit))) .daemonReload) (.enable unit))
    .succeed

def installScript (unit text : String) : CommandList UnitCommand :=
  .next (.command .installDir) .semicolon <|
    .next (.command (.cat (writtenPath unit) text)) .newline <|
      .last (activation unit)

theorem Command.text_installUnit (unit text : String) :
    (Command.installUnit unit text).text =
      "install -d -m 755 /etc/solana-validator; " ++
      "cat > " ++ unitPath unit ++ ".solfleet-new <<'SOLFLEET_UNIT'\n" ++ text ++
      "\nSOLFLEET_UNIT\n" ++
      "mv -f " ++ unitPath unit ++ ".solfleet-new " ++ unitPath unit ++
      " && systemctl daemon-reload && " ++
      "systemctl enable " ++ unit ++ " >/dev/null 2>&1 || true" := rfl

theorem installScript_text (unit text : String) :
    (installScript unit text).text UnitCommand.text = (Command.installUnit unit text).text := by
  have hinstall : "install -d -m 755 /etc/solana-validator; " =
      "install -d -m 755 /etc/solana-validator" ++ "; " := by decide
  have hopen : ".solfleet-new <<'SOLFLEET_UNIT'\n" = ".solfleet-new" ++ " <<'SOLFLEET_UNIT'\n" := by
    decide
  have hclose : "\nSOLFLEET_UNIT\n" = "\nSOLFLEET_UNIT" ++ "\n" := by decide
  have hmove : ".solfleet-new " = ".solfleet-new" ++ " " := by decide
  have hreload : " && systemctl daemon-reload && " =
      " && " ++ ("systemctl daemon-reload" ++ " && ") := by decide
  have htrue : " >/dev/null 2>&1 || true" = " >/dev/null 2>&1" ++ (" || " ++ "true") := by decide
  have hscript : (installScript unit text).text UnitCommand.text =
      "install -d -m 755 /etc/solana-validator" ++ "; " ++
        ("cat > " ++ writtenPath unit ++ " <<'SOLFLEET_UNIT'\n" ++ text ++
            "\nSOLFLEET_UNIT" ++ "\n" ++
          ("mv -f " ++ writtenPath unit ++ " " ++ unitPath unit ++ " && " ++
            "systemctl daemon-reload" ++ " && " ++
            ("systemctl enable " ++ unit ++ " >/dev/null 2>&1") ++ " || " ++ "true")) := rfl
  rw [Command.text_installUnit, hinstall, hopen, hclose, hmove, hreload, htrue, hscript,
    writtenPath]
  simp only [String.append_assoc]

def heredocDelimiter : String := "SOLFLEET_UNIT"

/-- The shell reads bytes; 10 is the line feed. -/
def byteLines (text : String) : List (List UInt8) := text.toUTF8.data.toList.splitOn 10

/-- The shell splits the line as written: the name is one plain word, and no line of the
text ends the here-document early. -/
def TakenLiterally (unit text : String) : Prop :=
  Shell.BareWord unit ∧ heredocDelimiter.toUTF8.data.toList ∉ byteLines text

instance (unit text : String) : Decidable (TakenLiterally unit text) :=
  inferInstanceAs (Decidable (_ ∧ _))

/-! ## The host -/

/-- The files by path, and what systemd has read of them. -/
structure UnitHost where
  files : String → Option String
  loaded : String → Option String

/-- How a write goes. One that fails may have cut the file, or never have opened it. -/
inductive Write where
  | done
  | failed (left : Option String)
  deriving DecidableEq

/-- What is at the path afterwards. -/
def Write.leaves (text : String) : Write → Option String
  | .done => some text
  | .failed left => left

def Write.status : Write → Int
  | .done => 0
  | .failed _ => 1

/-- Which of the commands fail, and whether the host is reached at all. -/
structure Going where
  reached : Bool := true
  installDir : Bool := true
  cat : Write := .done
  mv : Bool := true
  daemonReload : Bool := true
  enable : Bool := true
  deriving DecidableEq

def exitStatus (ok : Bool) : Int := if ok then 0 else 1

/-- The text as the here-document hands it over. -/
def unitContents (text : String) : String := text ++ "\n"

def UnitHost.write (host : UnitHost) (path : String) (contents : Option String) : UnitHost :=
  { host with files := Function.update host.files path contents }

/-- `mv` needs its source. -/
def UnitHost.move (host : UnitHost) (source dest : String) : Int × UnitHost :=
  match host.files source with
  | none => (1, host)
  | some contents => (0, (host.write source none).write dest (some contents))

def unitEffect (going : Going) : Effect UnitCommand UnitHost
  | .installDir, host => (exitStatus going.installDir, host)
  | .cat path body, host =>
      (going.cat.status, host.write path (going.cat.leaves (unitContents body)))
  | .mv source dest, host => if going.mv then host.move source dest else (1, host)
  | .daemonReload, host =>
      if going.daemonReload then (0, { host with loaded := host.files }) else (1, host)
  | .enable _, host => (exitStatus going.enable, host)
  | .succeed, host => (0, host)

/-- A name or a text that the shell takes apart makes another script of the line; what that
one does is `other`. ssh itself exits with 255. -/
def installOn (going : Going) (other : UnitHost → Int × UnitHost) (unit text : String)
    (host : UnitHost) : Int × UnitHost :=
  if going.reached then
    if TakenLiterally unit text then (installScript unit text).run (unitEffect going) host
    else other host
  else (255, host)

/-- The unit is the one given, in its place and in systemd. -/
def Installed (unit text : String) (host : UnitHost) : Prop :=
  host.files (unitPath unit) = some (unitContents text) ∧
    host.loaded (unitPath unit) = some (unitContents text)

instance (unit text : String) (host : UnitHost) : Decidable (Installed unit text host) :=
  inferInstanceAs (Decidable (_ ∧ _))

/-! ## What the line does -/

theorem writtenPath_ne (unit : String) : unitPath unit ≠ writtenPath unit := by
  intro h
  have hlength := congrArg String.length h
  simp [writtenPath] at hlength

section Runs

variable {going : Going} {other : UnitHost → Int × UnitHost} {unit text : String}
  {host : UnitHost}

/-- The move, and the reload that only a move is followed by. -/
theorem activation_state (going : Going) (unit : String) (host : UnitHost) :
    ((activation unit).run (unitEffect going) host).2 =
      (((AndOr.command (.mv (writtenPath unit) (unitPath unit))).and .daemonReload).run
        (unitEffect going) host).2 := by
  rw [activation, AndOr.run_or_state fun _ => rfl, AndOr.run_and_state fun _ => rfl]

theorem activation_state_of_kept (h : going.mv = false ∨ host.files (writtenPath unit) = none) :
    ((activation unit).run (unitEffect going) host).2 = host := by
  have hmove :
      (AndOr.command (.mv (writtenPath unit) (unitPath unit))).run (unitEffect going) host =
      (1, host) := by
    rw [AndOr.run_command, unitEffect, UnitHost.move]
    rcases h with h | h
    · rw [h]
      rfl
    · rw [h]
      exact ite_self _
  rw [activation_state, AndOr.run_and_of_failed (by rw [hmove]; exact one_ne_zero), hmove]

theorem activation_state_of_moved {contents : String} (hmv : going.mv = true)
    (h : host.files (writtenPath unit) = some contents) :
    ((activation unit).run (unitEffect going) host).2.files (unitPath unit) = some contents ∧
      ((activation unit).run (unitEffect going) host).2.loaded (unitPath unit) =
        if going.daemonReload then some contents else host.loaded (unitPath unit) := by
  have hmove :
      (AndOr.command (.mv (writtenPath unit) (unitPath unit))).run (unitEffect going) host =
      (0, (host.write (writtenPath unit) none).write (unitPath unit) (some contents)) := by
    rw [AndOr.run_command, unitEffect, if_pos hmv, UnitHost.move, h]
  rw [activation_state, AndOr.run_and_of_ok (by rw [hmove]), hmove, unitEffect]
  cases going.daemonReload with
  | true => simp [UnitHost.write]
  | false => simp [UnitHost.write]

/-- What is staged is the unit, it is moved, and systemd reads it or has read it before; or
nothing is moved and the unit was there before. -/
def Takes (going : Going) (unit text : String) (host : UnitHost) : Prop :=
  if going.mv = true ∧ going.cat.leaves (unitContents text) ≠ none then
    going.cat.leaves (unitContents text) = some (unitContents text) ∧
      (going.daemonReload = true ∨ host.loaded (unitPath unit) = some (unitContents text))
  else Installed unit text host

instance (going : Going) (unit text : String) (host : UnitHost) :
    Decidable (Takes going unit text host) :=
  inferInstanceAs (Decidable (ite _ _ _))

/-- The line is not reached, or it is taken as written and its commands put the unit in place. -/
def InstallTakes (going : Going) (unit text : String) (host : UnitHost) : Prop :=
  going.reached = false ∨ (TakenLiterally unit text ∧ Takes going unit text host)

instance (going : Going) (unit text : String) (host : UnitHost) :
    Decidable (InstallTakes going unit text host) :=
  inferInstanceAs (Decidable (_ ∨ _))

theorem script_installed_iff :
    Installed unit text ((installScript unit text).run (unitEffect going) host).2 ↔
      Takes going unit text host := by
  let written := host.write (writtenPath unit) (going.cat.leaves (unitContents text))
  have hrun : (installScript unit text).run (unitEffect going) host =
      (activation unit).run (unitEffect going) written := rfl
  have hstaged : written.files (writtenPath unit) = going.cat.leaves (unitContents text) :=
    Function.update_self ..
  have hunit : written.files (unitPath unit) = host.files (unitPath unit) :=
    Function.update_of_ne (writtenPath_ne unit) ..
  rw [hrun, Takes]
  split
  case isTrue h =>
    obtain ⟨hmv, hleaves⟩ := h
    cases hc : going.cat.leaves (unitContents text) with
    | none => exact (hleaves hc).elim
    | some contents =>
        have hmoved := activation_state_of_moved hmv (hstaged.trans hc)
        rw [Installed, hmoved.1, hmoved.2]
        refine and_congr_right fun hcontents => ?_
        rw [hcontents]
        cases going.daemonReload <;> simp [written, UnitHost.write]
  case isFalse h =>
    have hkept : going.mv = false ∨ written.files (writtenPath unit) = none := by
      rw [hstaged]
      cases hmv : going.mv with
      | false => exact .inl rfl
      | true => exact .inr (by_contra fun hleaves => h ⟨hmv, hleaves⟩)
    rw [activation_state_of_kept hkept, Installed, hunit]
    exact Iff.rfl

/-- The fallback answers for whatever went wrong. -/
theorem script_status : ((installScript unit text).run (unitEffect going) host).1 = 0 := by
  rw [installScript, CommandList.run_next, CommandList.run_next, CommandList.run_last, activation]
  exact AndOr.run_or_status (fun _ => rfl) _

theorem installOn_reached (h : going.reached = true) (hl : TakenLiterally unit text) :
    installOn going other unit text host =
      (installScript unit text).run (unitEffect going) host := by
  rw [installOn, if_pos h, if_pos hl]

end Runs

/-! ## The step and the provisioning -/

/-- The commands that write the unit work on the host; what else a run asks for is answered by
`world`. -/
def unitHandler {σ : Type} (world : Handler opsSignature Exn σ) (going : Going)
    (other : UnitHost → Int × UnitHost) : Handler opsSignature Exn (σ × UnitHost)
  | .runner (.ssh _ (.installUnit unit text)), s =>
      let done := installOn going other unit text s.2
      (.ok ⟨done.1, "", ""⟩, (s.1, done.2))
  | op, s =>
      let answered := world op s.1
      (answered.1, (answered.2, s.2))

section Step

variable {σ : Type} {world : Handler opsSignature Exn σ} {going : Going}
  {other : UnitHost → Int × UnitHost} {s : σ} {host : UnitHost}

/-- A report of success is true, whatever a script that the line is not may do. -/
def InstallsTruthfully (world : Handler opsSignature Exn σ) (s : σ) (going : Going) (node : Node)
    (text : String) (host : UnitHost) : Prop :=
  ∀ (other : UnitHost → Int × UnitHost) (report : InstallUnit),
    (exec (unitHandler world going other) (installUnit node text) (s, host)).result = .ok report →
      report.ok = true →
        Installed node.service.unit text
          (exec (unitHandler world going other) (installUnit node text) (s, host)).final.2

theorem exec_installUnit (world : Handler opsSignature Exn σ) (going : Going)
    (other : UnitHost → Int × UnitHost) (s : σ) (host : UnitHost) (node : Node) (text : String) :
    let done := installOn going other node.service.unit text host
    (exec (unitHandler world going other) (installUnit node text) (s, host)).result =
        .ok ⟨unitPath node.service.unit, CommandResult.ok ⟨done.1, "", ""⟩,
          CommandResult.error ⟨done.1, "", ""⟩⟩ ∧
      (exec (unitHandler world going other) (installUnit node text) (s, host)).final =
        (s, done.2) := ⟨rfl, rfl⟩

theorem commandResult_ok_iff {code : Int} {out err : String} :
    CommandResult.ok ⟨code, out, err⟩ = true ↔ code = 0 := decide_eq_true_iff

theorem installsTruthfully_iff (node : Node) (text : String) :
    InstallsTruthfully world s going node text host ↔
      InstallTakes going node.service.unit text host := by
  have hstep : InstallsTruthfully world s going node text host ↔
      ∀ other, (installOn going other node.service.unit text host).1 = 0 →
        Installed node.service.unit text
          (installOn going other node.service.unit text host).2 := by
    constructor
    · intro h other hzero
      exact h other _ (exec_installUnit world going other s host node text).1
        (commandResult_ok_iff.mpr hzero)
    · intro h other report hreport hok
      rw [(exec_installUnit world going other s host node text).1] at hreport
      cases hreport
      exact h other (commandResult_ok_iff.mp hok)
  rw [hstep, InstallTakes]
  cases hr : going.reached with
  | false => simp [installOn, hr]
  | true =>
      by_cases hl : TakenLiterally node.service.unit text
      · simp only [installOn_reached hr hl, script_status, script_installed_iff, hl, true_imp_iff,
          true_and, Bool.true_eq_false, false_or]
        exact ⟨fun h => h fun _ => (0, host), fun h _ => h⟩
      · -- a script that wipes the host and exits well is another one the line may stand for
        have hwipe : ¬ Installed node.service.unit text ⟨fun _ => none, fun _ => none⟩ :=
          fun h => by cases h.1
        simp only [hl, false_and, or_false, Bool.true_eq_false, iff_false]
        intro h
        have hwiped := h fun _ => (0, ⟨fun _ => none, fun _ => none⟩)
        simp only [installOn, hr, hl, if_true, if_false] at hwiped
        exact hwipe (hwiped trivial)

end Step

section Provisioning

variable {σ : Type} {world : Handler opsSignature Exn σ} {going : Going}
  {other : UnitHost → Int × UnitHost} {host kept : UnitHost} {fleet : Fleet} {cluster : Cluster}
  {node : Node} {targetVersion : String} {allowFormat : Finset String} {maxLag catchupTimeout : Int}

def Command.installsUnit : Command → Bool
  | .installUnit .. => true
  | _ => false

def Invocation.installsUnit : Invocation → Bool
  | .ssh _ command => command.installsUnit
  | .scpFrom .. => false
  | .scpTo .. => false

theorem unitHandler_other {op : OpsEffect} {s : σ × UnitHost}
    (h : OpsEffect.Sends (fun i => i.installsUnit = false) op) :
    (unitHandler world going other op s).2.2 = s.2 := by
  unfold unitHandler
  split
  · cases h _ rfl
  · rfl

/-- The program sends no installation. -/
abbrev Untouching {α : Type} (p : OpsProgram α) : Prop :=
  p.AllCalls (OpsEffect.Sends fun i => i.installsUnit = false)

theorem Untouching.triple {α : Type} {p : OpsProgram α} (hp : Untouching p) :
    Triple (unitHandler world going other) (fun s => s.2 = kept) p (fun _ s => s.2 = kept)
      fun _ => True :=
  AllCalls.triple hp fun _ _ hop hs => (unitHandler_other hop).trans hs

theorem untouching_command {α : Type} {target : SSHTarget} {command : Command}
    {f : CommandResult → α} (h : command.installsUnit = false) :
    Untouching (runOn target command >>= fun r => pure (f r)) :=
  (allCalls_runOn h).bind fun _ => trivial

/-- A provisioning that succeeded leaves the host as the unit's installation did, and that one
reported success. -/
def LeftBy (done : Int × UnitHost) (outcome : Provisioned) (s : σ × UnitHost) : Prop :=
  outcome.succeeded = true → done.1 = 0 ∧ s.2 = done.2

theorem triple_gaveUp {done : Int × UnitHost} {P : σ × UnitHost → Prop} {outcome : Provisioned}
    (h : outcome.succeeded = false) :
    Triple (unitHandler world going other) P (pure outcome) (LeftBy done) fun _ => True :=
  Triple.pure fun _ _ hs => by rw [h] at hs; cases hs

theorem triple_provisionStart {done : Int × UnitHost} {unit : InstallUnit}
    (hunit : unit.ok = true → done.1 = 0) (steps : ProvisionSteps) (swap : SwapResult) :
    Triple (unitHandler world going other) (fun s => s.2 = done.2)
      (provisionStart cluster node maxLag catchupTimeout steps swap unit) (LeftBy done)
      fun _ => True := by
  have hstart : Untouching (startService node) := untouching_command rfl
  have hwait : Untouching (waitForCatchup node cluster.referenceRpc maxLag catchupTimeout) :=
    allCalls_waitForCatchup ..
  refine hstart.triple.bind fun start => hwait.triple.bind fun catchup => Triple.pure fun s hs => ?_
  intro hsucceeded
  simp only [Bool.and_eq_true] at hsucceeded
  exact ⟨hunit hsucceeded.1.1.2, hs⟩

theorem triple_provisionVoteKey {done : Int × UnitHost} {unit : InstallUnit}
    (hunit : unit.ok = true → done.1 = 0) (steps : ProvisionSteps) (swap : SwapResult) :
    Triple (unitHandler world going other) (fun s => s.2 = done.2)
      (provisionVoteKey cluster node maxLag catchupTimeout steps swap unit) (LeftBy done)
      fun _ => True := by
  unfold provisionVoteKey
  split
  case isTrue =>
    have hkey : Untouching (checkVoteKey node) := allCalls_checkVoteKey fun _ => rfl
    refine hkey.triple.bind fun voteKey => ?_
    dsimp only
    split
    · exact triple_provisionStart hunit _ swap
    · exact triple_gaveUp rfl
  case isFalse => exact triple_provisionStart hunit steps swap

/-- The unit goes in once, between the swap and the keys. -/
theorem triple_provisionService (steps : ProvisionSteps) (dist : Distribution) :
    Triple (unitHandler world going other) (fun s => s.2 = host)
      (provisionService cluster node maxLag catchupTimeout steps dist)
      (LeftBy (installOn going other node.service.unit (renderUnit node cluster) host))
      fun _ => True := by
  have hswap : Untouching (atomicSwap node dist.swaps) := untouching_command rfl
  have hidentity : Untouching (checkIdentityKey node) := untouching_command rfl
  let done := installOn going other node.service.unit (renderUnit node cluster) host
  have hinstall : Triple (unitHandler world going other) (fun s => s.2 = host)
      (installUnit node (renderUnit node cluster))
      (fun unit s => (unit.ok = true → done.1 = 0) ∧ s.2 = done.2) fun _ => True := by
    intro s hs
    obtain ⟨hresult, hfinal⟩ := exec_installUnit world going other s.1 s.2 node
      (renderUnit node cluster)
    unfold Execution.Meets
    rw [hresult, hfinal, hs]
    exact ⟨commandResult_ok_iff.mp, rfl⟩
  unfold provisionService
  refine hswap.triple.bind fun swap => hinstall.bind fun unit => ?_
  intro s hs
  refine Triple.bind hidentity.triple (fun identity => ?_) s hs.2
  dsimp only
  split
  · exact triple_provisionVoteKey hs.1 _ swap
  · exact triple_gaveUp rfl

theorem triple_provisionSoftware (builder : SSHTarget) (install : InstallConfig)
    (steps : ProvisionSteps) :
    Triple (unitHandler world going other) (fun s => s.2 = host)
      (provisionSoftware builder install cluster node targetVersion maxLag catchupTimeout steps)
      (LeftBy (installOn going other node.service.unit (renderUnit node cluster) host))
      fun _ => True := by
  have hbuild : Untouching (buildArtifacts builder install targetVersion false) :=
    allCalls_buildArtifacts (P := fun i => i.installsUnit = false) rfl (fun _ _ => rfl)
      (fun _ _ => rfl) false
  unfold provisionSoftware
  refine hbuild.triple.bind fun build => ?_
  dsimp only
  split
  case isFalse => exact triple_gaveUp rfl
  case isTrue =>
    have hdist : Untouching (distribute builder node build.artifacts) :=
      allCalls_distribute (fun _ _ => rfl) (fun _ _ => rfl) (fun _ => rfl) _
    refine hdist.triple.bind fun dist => ?_
    split
    · exact triple_provisionService _ dist
    · exact triple_gaveUp rfl

theorem triple_provisionStages :
    Triple (unitHandler world going other) (fun s => s.2 = host)
      (provisionStages fleet cluster node targetVersion allowFormat maxLag catchupTimeout)
      (LeftBy (installOn going other node.service.unit (renderUnit node cluster) host))
      fun _ => True := by
  have huser : Untouching (ensureUser node) := untouching_command rfl
  have hsystem : Untouching (applySystem node) := untouching_command rfl
  have hdisks : Untouching (each node.disks (setupDisk node allowFormat)) :=
    AllCalls.each fun _ _ => allCalls_setupDisk rfl rfl rfl rfl
  unfold provisionStages
  refine huser.triple.bind fun user => hsystem.triple.bind fun system =>
    hdisks.triple.bind fun disks => ?_
  dsimp only
  split
  case isFalse => exact triple_gaveUp rfl
  case isTrue =>
    split
    · exact fun _ _ => trivial
    · exact fun _ _ => trivial
    · exact triple_provisionSoftware _ _ _

/-- What the result says under `succeeded`; a refusal has no such entry. -/
def ProvisionResult.succeeded : ProvisionResult → Bool
  | .finished _ outcome => outcome.succeeded
  | .error _ => false
  | .gated .. => false

theorem triple_provisionNode {nodeName clusterName : String} {confirm audit : Bool}
    {policy : Policy} (hf : fleet.findNode nodeName = some (clusterName, cluster, node)) :
    Triple (unitHandler world going other) (fun s => s.2 = host)
      (provisionNode fleet nodeName targetVersion confirm allowFormat policy audit maxLag
        catchupTimeout)
      (fun result s => result.succeeded = true →
        (installOn going other node.service.unit (renderUnit node cluster) host).1 = 0 ∧
          s.2 = (installOn going other node.service.unit (renderUnit node cluster) host).2)
      fun _ => True := by
  let done := installOn going other node.service.unit (renderUnit node cluster) host
  have hpre : Untouching (preflight node) :=
    (allCalls_runOn (P := fun i => i.installsUnit = false) rfl).bind fun _ => trivial
  have hlog : ∀ event, Untouching (recordOps audit event) := fun _ => allCalls_recordOps ..
  rw [provisionNode, hf]
  refine hpre.triple.bind fun pre => ?_
  unfold gated
  dsimp only
  split
  case isTrue =>
    refine triple_provisionStages.bind fun outcome => ?_
    intro s hs
    refine Triple.bind ((hlog _).triple) (fun _ => Triple.pure fun s' hs' => ?_) s rfl
    intro hsucceeded
    rw [hs']
    exact hs hsucceeded
  case isFalse =>
    exact (hlog _).triple.bind fun _ => Triple.pure fun _ _ hsucceeded => by
      cases hsucceeded

/-- The installation tells the truth exactly where its commands put the unit in place, and in
a provisioning that reports success the rendered unit is installed exactly there too. -/
theorem installUnit_truthful_iff (world : Handler opsSignature Exn σ) (s : σ) (going : Going)
    (host : UnitHost) :
    (∀ node text, InstallsTruthfully world s going node text host ↔
      InstallTakes going node.service.unit text host) ∧
    ∀ (other : UnitHost → Int × UnitHost) (fleet : Fleet) (nodeName clusterName : String)
      (cluster : Cluster) (node : Node) (targetVersion : String) (confirm : Bool)
      (allowFormat : Finset String) (policy : Policy) (audit : Bool) (maxLag catchupTimeout : Int)
      (result : ProvisionResult),
      fleet.findNode nodeName = some (clusterName, cluster, node) →
      TakenLiterally node.service.unit (renderUnit node cluster) →
      (exec (unitHandler world going other) (provisionNode fleet nodeName targetVersion confirm
        allowFormat policy audit maxLag catchupTimeout) (s, host)).result = .ok result →
      result.succeeded = true →
        (Installed node.service.unit (renderUnit node cluster)
            (exec (unitHandler world going other) (provisionNode fleet nodeName targetVersion confirm
              allowFormat policy audit maxLag catchupTimeout) (s, host)).final.2 ↔
          InstallTakes going node.service.unit (renderUnit node cluster) host) := by
  refine ⟨installsTruthfully_iff, ?_⟩
  intro other fleet nodeName clusterName cluster node targetVersion confirm allowFormat policy audit
    maxLag catchupTimeout result hf hliteral hresult hsucceeded
  obtain ⟨hzero, hfinal⟩ := (triple_provisionNode hf).returned rfl hresult hsucceeded
  have hreached : going.reached = true := by
    by_contra hr
    rw [installOn, if_neg hr] at hzero
    cases hzero
  rw [hfinal, installOn_reached hreached hliteral, script_installed_iff, InstallTakes, hreached]
  simp [hliteral]

end Provisioning

/-! ## A host with an older unit -/

def olderUnit : UnitHost where
  files path :=
    if path = unitPath "solana-validator" then some "[Unit]\nDescription=older\n" else none
  loaded path :=
    if path = unitPath "solana-validator" then some "[Unit]\nDescription=older\n" else none

def provisionOlder (going : Going) : Execution opsSignature Exn (Unit × UnitHost) ProvisionResult :=
  exec (unitHandler (serving true) going fun host => (0, host))
    (provisionNode builtFleet.fleet "rpc-1" "v3.0.1" true ∅ {} true 2 1800) ((), olderUnit)

def reportsSuccess (going : Going) : Bool :=
  match (provisionOlder going).result with
  | .ok result => result.succeeded
  | .error _ => false

theorem installUnit_truthful_iff_serving :
    InstallsTruthfully (serving true) () {} builtNode "[Unit]" olderUnit ∧
      Installed builtNode.service.unit (renderUnit builtNode builtCluster)
        (provisionOlder {}).final.2 := by
  have htruthful := installUnit_truthful_iff (serving true) () {} olderUnit
  refine ⟨(htruthful.1 builtNode "[Unit]").mpr (by decide +kernel), ?_⟩
  have hsuccess : reportsSuccess {} = true := by decide +kernel
  unfold reportsSuccess at hsuccess
  split at hsuccess
  case h_2 => cases hsuccess
  case h_1 result hresult =>
    have hliteral : TakenLiterally builtNode.service.unit (renderUnit builtNode builtCluster) := by
      decide +kernel
    have htakes : InstallTakes {} builtNode.service.unit (renderUnit builtNode builtCluster)
        olderUnit := by decide +kernel
    have hrun := htruthful.2 (fun host => (0, host)) builtFleet.fleet "rpc-1" "testnet" builtCluster
      builtNode "v3.0.1" true ∅ {} true 2 1800 result builtFleet_findNode hliteral hresult hsuccess
    exact hrun.mpr htakes

/-- The move fails, the older unit stays and is the one started: both report success. -/
theorem installUnit_reports_success_over_older :
    ¬ InstallsTruthfully (serving true) () { mv := false } builtNode "[Unit]" olderUnit ∧
      reportsSuccess { mv := false } = true ∧
      ¬ Installed builtNode.service.unit (renderUnit builtNode builtCluster)
        (provisionOlder { mv := false }).final.2 := by
  have hfails : ¬ InstallTakes { mv := false } builtNode.service.unit "[Unit]" olderUnit := by
    decide +kernel
  exact ⟨fun h => hfails ((installsTruthfully_iff builtNode "[Unit]").mp h), by decide +kernel,
    by decide +kernel⟩

end Solfleet
