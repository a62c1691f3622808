import Solfleet.Library.Mounting
import Solfleet.Library.Shell
import Solfleet.Orchestration.Formatting

/-! # Running the disk stage again

The host answers the commands of the disk stage from its devices, its file system
table and its mounts, where the shell takes their words as they are written. A second
run meets the state the first one left, and the guard of a disk to format reads that
state as somebody else's data.
-/

namespace Solfleet

open Interaction Program Mounting

/-! ## The host's answers -/

def tmpfsLine (disk : DiskConfig) : String :=
  let size :=
    match disk.sizeGb with
    | none => "size=50%"
    | some gb => if gb = 0 then "size=50%" else "size=" ++ toString gb ++ "G"
  "tmpfs " ++ disk.mount ++ " tmpfs " ++ size ++ " 0 0"

def blockLine (disk : DiskConfig) (uuid : String) : String :=
  "UUID=" ++ uuid ++ " " ++ disk.mount ++ " " ++ disk.fs.text ++ " defaults,noatime 0 2"

theorem Operand.not_mem_operators {w : String} (hw : Shell.Operand w) {c : Char}
    (hc : c ∈ w.toList) : c ∉ Grep.operators := by
  have hspecial : Grep.operators.all Shell.isSpecial = true := by decide
  intro hmem
  have hop := List.all_eq_true.mp hspecial c hmem
  rw [hw.1.1 c hc] at hop
  cases hop

/-- `' {mount} '` -/
def mountPattern (mount : String) (hmount : Shell.Operand mount) : Grep.Pattern where
  text := " " ++ mount ++ " "
  plain := by
    intro c hc
    simp only [String.toList_append, List.mem_append] at hc
    rcases hc with (hc | hc) | hc
    · rw [List.mem_singleton.mp hc]
      decide
    · exact Operand.not_mem_operators hmount hc
    · rw [List.mem_singleton.mp hc]
      decide
  start := by simp
  stop := by simp [List.getLast?_cons]

/-- `(grep -q "$uuid" /etc/fstab || echo ... >> /etc/fstab)`, after the identifier was read. -/
def ensureUuidLine (disk : DiskConfig) : Step := fun h =>
  match h.fileSystem disk.device with
  | none => (false, h)
  | some fs =>
      runList [(.and, grepFstab fs.uuid.pattern),
        (.or, appendFstab (blockLine disk fs.uuid.text))] (true, h)

/-- `setupTmpfsSteps` as an and-or list. -/
def tmpfsList (disk : DiskConfig) (user : String) (hmount : Shell.Operand disk.mount) :
    List (Connector × Step) :=
  [(.and, mkdirP disk.mount), (.and, grepFstab (mountPattern disk.mount hmount)),
    (.or, appendFstab (tmpfsLine disk))] ++ mountOnce disk.mount user

/-- `mountDiskSteps` as an and-or list. -/
def blockList (disk : DiskConfig) (user : String) : List (Connector × Step) :=
  [(.and, mkdirP disk.mount), (.and, blkid disk.device), (.and, ensureUuidLine disk)] ++
    mountOnce disk.mount user

def exitCode (ok : Bool) : Int := if ok then 0 else 1

/-- A command that prints nothing and reports its status. -/
def reports (outcome : Bool × Host) : CommandResult × Host :=
  (⟨exitCode outcome.1, "", ""⟩, outcome.2)

/-- What the host answers to a command of the disk stage, and the host after it. Words that
are no operands make another command, which is not answered here. -/
def hostStep (h : Host) : Command → Option (CommandResult × Host)
  | .ensureUser user => if Shell.Operand user then some (reports (addUser user h)) else none
  | .setupTmpfs disk user =>
      if hwords : Shell.Operand disk.mount ∧ Shell.Operand user then
        some (reports (runList (tmpfsList disk user hwords.1) (true, h)))
      else none
  | .probeDisk device =>
      if Shell.Operand device then
        some (⟨exitCode (h.findmnt device != ""), h.lsblk device ++ h.findmnt device, ""⟩, h)
      else none
  | .mkfs fs device =>
      if Shell.Operand device then some (reports (mkfs fs.text device h)) else none
  | .mountDisk disk user =>
      if Shell.Operand disk.mount ∧ Shell.Operand disk.device ∧ Shell.Operand user then
        some (reports (runList (blockList disk user) (true, h)))
      else none
  | _ => none

/-- What the commands of a disk name are operands. -/
structure DiskWords (disk : DiskConfig) : Prop where
  mount : Shell.Operand disk.mount
  device : disk.fs ≠ .tmpfs → Shell.Operand disk.device

structure StageWords (node : Node) : Prop where
  user : Shell.Operand node.service.runUser
  disks : ∀ disk ∈ node.disks, DiskWords disk

variable {τ : Type}

/-- The node's disks answer for themselves, anything else is answered by `others`. -/
def hostHandler (node : Node) (others : Handler opsSignature Exn τ) :
    Handler opsSignature Exn (Host × τ)
  | .runner (.ssh target command), s =>
      if target = .node node then
        match hostStep s.1 command with
        | some (r, h) => (.ok r, (h, s.2))
        | none =>
            let answered := others (.runner (.ssh target command)) s.2
            (answered.1, (s.1, answered.2))
      else
        let answered := others (.runner (.ssh target command)) s.2
        (answered.1, (s.1, answered.2))
  | op, s =>
      let answered := others op s.2
      (answered.1, (s.1, answered.2))

/-! ## Single steps on the host -/

section Exec

variable {node : Node} {others : Handler opsSignature Exn τ} {h : Host} {t : τ}

theorem exec_runOn {command : Command} {r : CommandResult} {h' : Host}
    (hstep : hostStep h command = some (r, h')) :
    exec (hostHandler node others) (runOn (.node node) command) (h, t) =
      ⟨(h', t), [⟨.runner (.ssh (.node node) command), .ok r⟩], .ok r⟩ := by
  have hanswer : hostHandler node others (.runner (.ssh (.node node) command)) (h, t) =
      (.ok r, (h', t)) := by
    simp only [hostHandler, if_true, hstep]
  show exec _ (perform (S := opsSignature) _) _ = _
  rw [exec_perform, hanswer]

theorem exec_runOn_bind {α : Type} {command : Command} {r : CommandResult} {h' : Host}
    (hstep : hostStep h command = some (r, h')) (f : CommandResult → OpsProgram α) :
    exec (hostHandler node others) (runOn (.node node) command >>= f) (h, t) =
      let rest := exec (hostHandler node others) (f r) (h', t)
      ⟨rest.final, ⟨.runner (.ssh (.node node) command), .ok r⟩ :: rest.trace, rest.result⟩ := by
  rw [exec_bind, exec_runOn hstep]
  rfl

end Exec

/-! ## Settled disks -/

/-- The table has the entry the disk asks for. -/
def Entered (disk : DiskConfig) (h : Host) : Prop :=
  if disk.fs = .tmpfs then ∃ hmount, (grepFstab (mountPattern disk.mount hmount) h).1 = true
  else ∃ fs, h.fileSystem disk.device = some fs ∧ (grepFstab fs.uuid.pattern h).1 = true

/-- The path is handed over and has its entry; where it is a mount point, it is a directory. -/
structure Furnished (user : String) (disk : DiskConfig) (h : Host) : Prop where
  rooted : Rooted h disk.mount
  owner : user ∈ h.users
  entry : Entered disk h

theorem Furnished.extend {user : String} {disk : DiskConfig} {h h' : Host}
    (hp : Furnished user disk h) (e : Extends h h') : Furnished user disk h' where
  rooted := e.rooted _ hp.rooted
  owner := e.users _ hp.owner
  entry := by
    have hentry := hp.entry
    unfold Entered at hentry ⊢
    split at hentry
    case isTrue hfs =>
      obtain ⟨hmount, hgrep⟩ := hentry
      exact if_pos hfs ▸ ⟨hmount, e.grep hgrep⟩
    case isFalse hfs =>
      obtain ⟨fs, hdevice, hgrep⟩ := hentry
      exact if_neg hfs ▸ ⟨fs, e.fileSystem _ _ hdevice, e.grep hgrep⟩

structure Settled (user : String) (disk : DiskConfig) (h : Host) : Prop
    extends Furnished user disk h where
  top : onTop h.targets disk.mount = true

theorem Settled.kind {user : String} {disk : DiskConfig} {h : Host} (hs : Settled user disk h) :
    h.kind (names disk.mount) = some .directory := hs.rooted hs.top

theorem Settled.mounted {user : String} {disk : DiskConfig} {h : Host}
    (hs : Settled user disk h) : h.isMounted disk.mount = true :=
  isMounted_iff.mpr ⟨hs.kind, hs.top⟩

theorem grep_append {pattern : Grep.Pattern} {line : String} (h : Host)
    (hmatch : pattern.matchesLine line = true) :
    (grepFstab pattern (appendFstab line h).2).1 = true := by
  simp [grepFstab, appendFstab, hmatch]

theorem matches_tmpfsLine (disk : DiskConfig) (hmount : Shell.Operand disk.mount) :
    (mountPattern disk.mount hmount).matchesLine (tmpfsLine disk) = true := by
  have hline : ∃ a b, tmpfsLine disk = a ++ (" " ++ disk.mount ++ " ") ++ b :=
    ⟨"tmpfs", "tmpfs " ++ _ ++ " 0 0", by simp only [tmpfsLine, String.append_assoc]; rfl⟩
  obtain ⟨a, b, hline⟩ := hline
  rw [hline]
  exact (mountPattern disk.mount hmount).matchesLine_append a b

theorem matches_blockLine (disk : DiskConfig) (uuid : Uuid) :
    uuid.pattern.matchesLine (blockLine disk uuid.text) = true := by
  have hline : blockLine disk uuid.text = "UUID=" ++ uuid.text ++
      (" " ++ disk.mount ++ " " ++ disk.fs.text ++ " defaults,noatime 0 2") := by
    simp [blockLine, String.append_assoc]
  rw [hline]
  exact uuid.pattern.matchesLine_append _ _

theorem ensureUuidLine_spec {disk : DiskConfig} {h : Host} {fs : FileSystem}
    (hfs : h.fileSystem disk.device = some fs) :
    ∃ fstab, ensureUuidLine disk h = (true, { h with fstab := fstab }) ∧ h.fstab <+: fstab ∧
      (grepFstab fs.uuid.pattern { h with fstab := fstab }).1 = true := by
  unfold ensureUuidLine
  rw [hfs]
  by_cases hgrep : (grepFstab fs.uuid.pattern h).1 = true
  · refine ⟨h.fstab, ?_, List.prefix_rfl, hgrep⟩
    simp only [grepFstab] at hgrep
    simp [grepFstab, hgrep]
  · refine ⟨h.fstab ++ [blockLine disk fs.uuid.text], ?_, List.prefix_append _ _,
      grep_append h (matches_blockLine disk fs.uuid)⟩
    simp only [grepFstab, Bool.not_eq_true] at hgrep
    simp [grepFstab, appendFstab, hgrep]

section Lists

variable {user : String} {disk : DiskConfig} {h : Host}

theorem extends_ensureUuidLine (disk : DiskConfig) (h : Host) :
    Extends h (ensureUuidLine disk h).2 := by
  cases hfs : h.fileSystem disk.device with
  | none => simpa [ensureUuidLine, hfs] using Extends.refl h
  | some fs =>
      obtain ⟨fstab, heq, hprefix, _⟩ := ensureUuidLine_spec hfs
      rw [heq]
      exact { Extends.refl h with fstab := hprefix }

theorem extends_tmpfsList (user : String) (disk : DiskConfig) (hmount : Shell.Operand disk.mount)
    (h : Host) : Extends h (runList (tmpfsList disk user hmount) (true, h)).2 := by
  refine extends_runList ?_ true h
  simp only [tmpfsList, List.forall_mem_append, List.forall_mem_cons, List.not_mem_nil,
    false_imp_iff, implies_true, and_true]
  exact ⟨⟨extends_mkdirP _, Extends.refl, extends_appendFstab _⟩, extends_mountOnce _ _⟩

theorem extends_blockList (user : String) (disk : DiskConfig) (h : Host) :
    Extends h (runList (blockList disk user) (true, h)).2 := by
  refine extends_runList ?_ true h
  simp only [blockList, List.forall_mem_append, List.forall_mem_cons, List.not_mem_nil,
    false_imp_iff, implies_true, and_true]
  exact ⟨⟨extends_mkdirP _, Extends.refl, extends_ensureUuidLine _⟩, extends_mountOnce _ _⟩

/-- The disk is settled, and its mount point is the only one that may be new. -/
def SettledFrom (user : String) (disk : DiskConfig) (h h' : Host) : Prop :=
  Settled user disk h' ∧ h'.targets = mountStep h.targets disk.mount

/-- What the end of a list needs of its beginning, unless the path was a file: success, an entry
and the mounts of before. -/
theorem settled_of_mountOnce {s : Bool × Host}
    (hok : (runList (mountOnce disk.mount user) s).1 = true) (hmounts : s.2.mounts = h.mounts)
    (hstart : s.2.kind (names disk.mount) = some .directory → s.1 = true ∧ Entered disk s.2) :
    SettledFrom user disk h (runList (mountOnce disk.mount user) s).2 := by
  have htargets : s.2.targets = h.targets := by
    unfold Host.targets
    rw [hmounts]
  obtain ⟨huser, ⟨_, hmounted, heq⟩ | ⟨m, htarget, hkind, hunmounted, heq⟩⟩ :=
    mountOnce_spec hok
  · obtain ⟨hkind, htop⟩ := isMounted_iff.mp hmounted
    rw [heq, SettledFrom, ← htargets, mountStep_eq_self_iff.mpr htop]
    exact ⟨⟨⟨fun _ => hkind, huser, (hstart hkind).2⟩, htop⟩, rfl⟩
  · have hhidden : onTop s.2.targets disk.mount = false := by
      simpa [Host.isMounted, hkind] using hunmounted (hstart hkind).1
    have hmounted : (s.2.cover m).isMounted disk.mount = true :=
      htarget ▸ isMounted_cover (htarget ▸ hkind)
    obtain ⟨hdirectory, htop⟩ := isMounted_iff.mp hmounted
    rw [heq, SettledFrom, ← htargets, mountStep, hhidden, targets_cover, htarget]
    exact ⟨⟨⟨fun _ => hdirectory, huser, (hstart hkind).2⟩, htop⟩, rfl⟩

theorem tmpfsList_settled {hmount : Shell.Operand disk.mount} (hfs : disk.fs = .tmpfs)
    (hok : (runList (tmpfsList disk user hmount) (true, h)).1 = true) :
    SettledFrom user disk h (runList (tmpfsList disk user hmount) (true, h)).2 := by
  rw [tmpfsList, runList_append] at hok ⊢
  have hentered : ∀ h₁ : Host, (grepFstab (mountPattern disk.mount hmount) h₁).1 = true →
      Entered disk h₁ := fun h₁ hgrep => by
    rw [Entered, if_pos hfs]
    exact ⟨hmount, hgrep⟩
  obtain ⟨hmkdir, hfile⟩ | ⟨kind, hmkdir, _⟩ := mkdirP_cases disk.mount h
  · -- the path is a file, and stays one
    refine settled_of_mountOnce hok (by simp [hmkdir, appendFstab]) fun hkind => ?_
    simp [hmkdir, appendFstab, hfile] at hkind
  · simp only [runList_and, runList_or, runList_nil, hmkdir, if_true] at hok ⊢
    by_cases hgrep :
        (grepFstab (mountPattern disk.mount hmount) { h with kind := kind }).1 = true
    · simp only [hgrep, if_true] at hok ⊢
      exact settled_of_mountOnce hok rfl fun _ => ⟨hgrep, hentered _ hgrep⟩
    · simp only [hgrep, Bool.false_eq_true, if_false] at hok ⊢
      exact settled_of_mountOnce hok rfl fun _ =>
        ⟨rfl, hentered _ (grep_append _ (matches_tmpfsLine disk hmount))⟩

theorem blockList_settled (hfs : disk.fs ≠ .tmpfs) {fs : FileSystem}
    (hdevice : h.fileSystem disk.device = some fs)
    (hok : (runList (blockList disk user) (true, h)).1 = true) :
    SettledFrom user disk h (runList (blockList disk user) (true, h)).2 := by
  rw [blockList, runList_append] at hok ⊢
  obtain ⟨hmkdir, hfile⟩ | ⟨kind, hmkdir, _⟩ := mkdirP_cases disk.mount h
  · refine settled_of_mountOnce hok (by simp [hmkdir]) fun hkind => ?_
    simp [hmkdir, hfile] at hkind
  · have hdevice' : Host.fileSystem { h with kind := kind } disk.device = some fs := hdevice
    obtain ⟨fstab, heq, _, hgrep⟩ := ensureUuidLine_spec hdevice'
    simp only [runList_and, runList_nil, hmkdir, if_true, blkid, hdevice', Option.isSome_some,
      heq] at hok ⊢
    refine settled_of_mountOnce hok rfl fun _ => ⟨rfl, ?_⟩
    rw [Entered, if_neg hfs]
    exact ⟨fs, hdevice, hgrep⟩

theorem tmpfsList_of_settled {hmount : Shell.Operand disk.mount} (hfs : disk.fs = .tmpfs)
    (hs : Settled user disk h) : runList (tmpfsList disk user hmount) (true, h) = (true, h) := by
  have hentry := hs.entry
  rw [Entered, if_pos hfs] at hentry
  obtain ⟨_, hgrep⟩ := hentry
  simp only [grepFstab] at hgrep
  rw [tmpfsList, runList_append]
  simp only [runList_and, runList_or, runList_nil, mkdirP_of_directory hs.kind, if_true, grepFstab,
    hgrep]
  exact mountOnce_settled hs.mounted hs.owner

theorem blockList_of_settled (hfs : disk.fs ≠ .tmpfs) (hs : Settled user disk h) :
    runList (blockList disk user) (true, h) = (true, h) := by
  have hentry := hs.entry
  rw [Entered, if_neg hfs] at hentry
  obtain ⟨fs, hdevice, hgrep⟩ := hentry
  simp only [grepFstab] at hgrep
  have hline : ensureUuidLine disk h = (true, h) := by
    simp [ensureUuidLine, hdevice, grepFstab, hgrep]
  rw [blockList, runList_append]
  simp only [runList_and, runList_nil, mkdirP_of_directory hs.kind, if_true, blkid, hdevice,
    Option.isSome_some, hline]
  exact mountOnce_settled hs.mounted hs.owner

/-- Without a file system the entry is skipped and the path is mounted, mounted or not. -/
theorem blockList_grows (hdevice : h.fileSystem disk.device = none)
    (hok : (runList (blockList disk user) (true, h)).1 = true) :
    (runList (blockList disk user) (true, h)).2.mounts.length = h.mounts.length + 1 := by
  obtain ⟨kind, hstart⟩ : ∃ kind, runList [(.and, mkdirP disk.mount), (.and, blkid disk.device),
      (.and, ensureUuidLine disk)] (true, h) = (false, { h with kind := kind }) := by
    obtain ⟨hmkdir, _⟩ | ⟨kind, hmkdir, _⟩ := mkdirP_cases disk.mount h
    · exact ⟨h.kind, by simp [hmkdir]⟩
    · have hdevice' : Host.fileSystem { h with kind := kind } disk.device = none := hdevice
      exact ⟨kind, by simp [hmkdir, blkid, hdevice']⟩
  rw [blockList, runList_append, hstart] at hok ⊢
  obtain ⟨_, ⟨hfalse, _⟩ | ⟨m, _, _, _, heq⟩⟩ := mountOnce_spec hok
  · cases hfalse
  · rw [heq]
    rfl

theorem sameDevices_ensureUuidLine (disk : DiskConfig) (h : Host) :
    SameDevices h (ensureUuidLine disk h).2 := by
  cases hfs : h.fileSystem disk.device with
  | none => simp [ensureUuidLine, hfs, SameDevices]
  | some fs =>
      obtain ⟨fstab, heq, _⟩ := ensureUuidLine_spec hfs
      rw [heq]
      rfl

theorem sameDevices_tmpfsList {hmount : Shell.Operand disk.mount} :
    SameDevices h (runList (tmpfsList disk user hmount) (true, h)).2 := by
  refine runList_preserves (R := SameDevices) (fun _ => rfl) (fun a b => Eq.trans b a) ?_ true h
  simp only [tmpfsList, List.forall_mem_append, List.forall_mem_cons, List.not_mem_nil,
    false_imp_iff, implies_true, and_true]
  exact ⟨⟨sameDevices_mkdirP _, fun _ => rfl, fun _ => rfl⟩, sameDevices_mountOnce _ _⟩

theorem sameDevices_blockList : SameDevices h (runList (blockList disk user) (true, h)).2 := by
  refine runList_preserves (R := SameDevices) (fun _ => rfl) (fun a b => Eq.trans b a) ?_ true h
  simp only [blockList, List.forall_mem_append, List.forall_mem_cons, List.not_mem_nil,
    false_imp_iff, implies_true, and_true]
  exact ⟨⟨sameDevices_mkdirP _, fun _ => rfl, sameDevices_ensureUuidLine _⟩,
    sameDevices_mountOnce _ _⟩

end Lists

/-! ## One disk -/

/-- No format among the commands. -/
def FormatsNothing (trace : List OpsEvent) : Prop :=
  ∀ target fs device, .ssh target (.mkfs fs device) ∉ invocations trace

theorem reports_ok (outcome : Bool × Host) : (reports outcome).1.ok = outcome.1 := by
  obtain ⟨ok, h⟩ := outcome
  cases ok <;> rfl

/-- What setting up one disk reports and leaves behind. -/
structure DiskRun (user : String) (disk : DiskConfig) (h : Host) (setup : DiskSetup)
    (trace : List OpsEvent) (h' : Host) : Prop where
  grows : Extends h h'
  tmpfs : disk.fs = .tmpfs → ∃ hmount, h' = (runList (tmpfsList disk user hmount) (true, h)).2 ∧
    setup.ok = (runList (tmpfsList disk user hmount) (true, h)).1 ∧ FormatsNothing trace
  plain : disk.fs ≠ .tmpfs → disk.format = false →
    h' = (runList (blockList disk user) (true, h)).2 ∧
      setup.ok = (runList (blockList disk user) (true, h)).1 ∧ FormatsNothing trace
  formatted : disk.fs ≠ .tmpfs → disk.format = true → setup.ok = true →
    ∃ fs, fs.fsType = disk.fs.text ∧ h'.fileSystem disk.device = some fs
  refused : disk.fs ≠ .tmpfs → disk.format = true →
    (∃ fs, fs.fsType = disk.fs.text ∧ h.fileSystem disk.device = some fs) → setup.ok = false

section Disk

variable (node : Node) (others : Handler opsSignature Exn τ) (allowFormat : Finset String)

theorem exec_setupTmpfs (huser : Shell.Operand node.service.runUser) (disk : DiskConfig)
    (hmount : Shell.Operand disk.mount) (h : Host) (t : τ) :
    let outcome := runList (tmpfsList disk node.service.runUser hmount) (true, h)
    ∃ setup, setup.ok = outcome.1 ∧
      exec (hostHandler node others) (setupTmpfs node disk) (h, t) =
        ⟨(outcome.2, t), [⟨.runner (.ssh (.node node) (.setupTmpfs disk node.service.runUser)),
          .ok (reports outcome).1⟩], .ok setup⟩ := by
  intro outcome
  have hstep : hostStep h (.setupTmpfs disk node.service.runUser) = some (reports outcome) :=
    dif_pos ⟨hmount, huser⟩
  refine ⟨_, ?_, exec_runOn_bind hstep _⟩
  exact reports_ok outcome

theorem exec_mountDisk (huser : Shell.Operand node.service.runUser) (disk : DiskConfig)
    (hmount : Shell.Operand disk.mount) (hdevice : Shell.Operand disk.device)
    (formatted wasEmpty : Bool) (h : Host) (t : τ) :
    let outcome := runList (blockList disk node.service.runUser) (true, h)
    ∃ setup, setup.ok = outcome.1 ∧
      exec (hostHandler node others) (mountDisk node disk formatted wasEmpty) (h, t) =
        ⟨(outcome.2, t), [⟨.runner (.ssh (.node node) (.mountDisk disk node.service.runUser)),
          .ok (reports outcome).1⟩], .ok setup⟩ := by
  intro outcome
  have hstep : hostStep h (.mountDisk disk node.service.runUser) = some (reports outcome) :=
    if_pos ⟨hmount, hdevice, huser⟩
  refine ⟨_, ?_, exec_runOn_bind hstep _⟩
  exact reports_ok outcome

theorem probe_of_fileSystem {h : Host} {device : String} {fs : FileSystem}
    (hdevice : h.fileSystem device = some fs) {c : Char} (hc : c ∈ fs.fsType.toList)
    (hspace : Text.isSpace c = false) : Text.strip (h.lsblk device ++ h.findmnt device) ≠ "" := by
  rw [ne_eq, Text.strip_eq_empty_iff, lsblk_of_fileSystem hdevice]
  intro hall
  have hblank := hall c (by simp [hc])
  rw [hspace] at hblank
  cases hblank

theorem fsText_char (fs : Filesystem) : ∃ c ∈ fs.text.toList, Text.isSpace c = false := by
  cases fs with
  | ext4 => exact ⟨'t', by decide, by decide⟩
  | xfs => exact ⟨'f', by decide, by decide⟩
  | tmpfs => exact ⟨'t', by decide, by decide⟩

theorem formatsNothing_nil : FormatsNothing [] := by
  simp [FormatsNothing]

theorem formatsNothing_cons {target : SSHTarget} {command : Command}
    {answer : Except Exn CommandResult} {rest : List OpsEvent}
    (hne : ∀ fs device, command ≠ .mkfs fs device) (h : FormatsNothing rest) :
    FormatsNothing (⟨.runner (.ssh target command), answer⟩ :: rest) := by
  intro target' fs device hmem
  rw [invocations_runner] at hmem
  obtain heq | hmem := List.mem_cons.mp hmem
  · exact hne _ _ (Invocation.ssh.inj heq).2.symm
  · exact h target' fs device hmem

theorem FormatsNothing.append {xs ys : List OpsEvent} (hx : FormatsNothing xs)
    (hy : FormatsNothing ys) : FormatsNothing (xs ++ ys) := by
  intro target fs device hmem
  rw [invocations_append, List.mem_append] at hmem
  exact hmem.elim (hx _ _ _) (hy _ _ _)

/-- A disk that is to be formatted: formatted and mounted, or refused. -/
theorem exec_formatDisk (huser : Shell.Operand node.service.runUser) (disk : DiskConfig)
    (hmount : Shell.Operand disk.mount) (hdevice : Shell.Operand disk.device) (h : Host) (t : τ) :
    ∃ setup trace h',
    exec (hostHandler node others) (formatDisk node disk) (h, t) = ⟨(h', t), trace, .ok setup⟩ ∧
      Extends h h' ∧ (setup.ok = true →
        ∃ fs, fs.fsType = disk.fs.text ∧ h'.fileSystem disk.device = some fs) := by
  obtain ⟨r, hstep, hr⟩ : ∃ r, hostStep h (.mkfs disk.fs disk.device) =
      some (r, (mkfs disk.fs.text disk.device h).2) ∧
        r.ok = (mkfs disk.fs.text disk.device h).1 := ⟨_, if_pos hdevice, reports_ok _⟩
  unfold formatDisk
  rw [exec_runOn_bind hstep]
  by_cases hok : (mkfs disk.fs.text disk.device h).1 = true
  · obtain ⟨setup, _, hmounting⟩ := exec_mountDisk node others huser disk hmount hdevice true true
      (mkfs disk.fs.text disk.device h).2 t
    have hgrows := extends_blockList node.service.runUser disk (mkfs disk.fs.text disk.device h).2
    rw [if_pos (hr.trans hok)]
    refine ⟨setup, _, _, by rw [hmounting], (extends_mkfs _ _ h).trans hgrows, fun _ => ?_⟩
    obtain ⟨fs, htype, hfound⟩ := mkfs_spec hok
    exact ⟨fs, htype, hgrows.fileSystem _ _ hfound⟩
  · rw [if_neg (hr ▸ hok)]
    exact ⟨_, _, _, rfl, extends_mkfs _ _ h, nofun⟩

/-- A disk with a device: probed, then formatted and mounted, mounted as it is, or refused. -/
theorem exec_setupBlock (huser : Shell.Operand node.service.runUser) (disk : DiskConfig)
    (hwords : DiskWords disk) (hfs : disk.fs ≠ .tmpfs) (h : Host) (t : τ) : ∃ setup trace h',
      exec (hostHandler node others) (setupBlock node disk allowFormat) (h, t) =
        ⟨(h', t), trace, .ok setup⟩ ∧ DiskRun node.service.runUser disk h setup trace h' := by
  obtain ⟨r, hstep, hr⟩ : ∃ r, hostStep h (.probeDisk disk.device) = some (r, h) ∧
      r.stdout = h.lsblk disk.device ++ h.findmnt disk.device :=
    ⟨_, if_pos (hwords.device hfs), rfl⟩
  unfold setupBlock
  rw [exec_runOn_bind hstep]
  by_cases hformat : disk.format = true
  · have hplain : ¬ disk.format = false := by simp [hformat]
    simp only [hformat, if_true, hr]
    cases hrefusal : formatRefusal disk allowFormat
        (Text.strip (h.lsblk disk.device ++ h.findmnt disk.device)) with
    | some error =>
        exact ⟨_, _, _, rfl, ⟨.refl h, fun h => (hfs h).elim, fun _ h => (hplain h).elim, nofun,
          fun _ _ _ => rfl⟩⟩
    | none =>
        obtain ⟨setup, trace, h', hexec, hgrows, hformatted⟩ :=
          exec_formatDisk node others huser disk hwords.mount (hwords.device hfs) h t
        refine ⟨setup, _, h', by rw [hexec], ⟨hgrows, fun h => (hfs h).elim,
          fun _ h => (hplain h).elim, fun _ _ => hformatted, fun _ _ hfound => ?_⟩⟩
        -- the probe shows the file system
        obtain ⟨fs, htype, hdevice⟩ := hfound
        obtain ⟨c, hc, hspace⟩ := fsText_char disk.fs
        have hblank := probe_of_fileSystem hdevice (htype ▸ hc) hspace
        unfold formatRefusal at hrefusal
        split at hrefusal
        · cases hrefusal
        · cases hrefusal
  · obtain ⟨setup, hok, hexec⟩ := exec_mountDisk node others huser disk hwords.mount
      (hwords.device hfs) false (Text.strip r.stdout == "") h t
    rw [if_neg hformat]
    refine ⟨setup, _, _, by rw [hexec], ⟨extends_blockList .., fun h => (hfs h).elim,
      fun _ _ => ⟨rfl, hok, ?_⟩, fun _ h => (hformat h).elim, fun _ h => (hformat h).elim⟩⟩
    exact formatsNothing_cons nofun (formatsNothing_cons nofun formatsNothing_nil)

/-- Every disk reports, and its run is one of these. -/
theorem exec_setupDisk (huser : Shell.Operand node.service.runUser) (disk : DiskConfig)
    (hwords : DiskWords disk) (h : Host) (t : τ) : ∃ setup trace h',
    exec (hostHandler node others) (setupDisk node allowFormat disk) (h, t) =
      ⟨(h', t), trace, .ok setup⟩ ∧ DiskRun node.service.runUser disk h setup trace h' := by
  unfold setupDisk
  by_cases hfs : disk.fs = .tmpfs
  · obtain ⟨setup, hok, hexec⟩ := exec_setupTmpfs node others huser disk hwords.mount h t
    rw [if_pos hfs]
    refine ⟨setup, _, _, hexec,
      ⟨extends_tmpfsList .., fun _ => ⟨hwords.mount, rfl, hok, ?_⟩, ?_, ?_, ?_⟩⟩
    · exact formatsNothing_cons nofun formatsNothing_nil
    all_goals exact fun h => (h hfs).elim
  · rw [if_neg hfs]
    exact exec_setupBlock node others allowFormat huser disk hwords hfs h t

end Disk

/-! ## The disks in turn -/

inductive DiskStage (user : String) :
    List DiskConfig → Host → List DiskSetup → List OpsEvent → Host → Prop
  | nil (h : Host) : DiskStage user [] h [] [] h
  | cons {disk : DiskConfig} {disks : List DiskConfig} {h h₁ h' : Host} {setup : DiskSetup}
      {setups : List DiskSetup} {first rest : List OpsEvent}
      (head : DiskRun user disk h setup first h₁)
      (tail : DiskStage user disks h₁ setups rest h') :
      DiskStage user (disk :: disks) h (setup :: setups) (first ++ rest) h'

theorem exec_disks (node : Node) (others : Handler opsSignature Exn τ)
    (allowFormat : Finset String) (huser : Shell.Operand node.service.runUser)
    (disks : List DiskConfig) (hwords : ∀ disk ∈ disks, DiskWords disk) (h : Host) (t : τ) :
    ∃ setups trace h',
      exec (hostHandler node others) (each disks (setupDisk node allowFormat)) (h, t) =
        ⟨(h', t), trace, .ok setups⟩ ∧ DiskStage node.service.runUser disks h setups trace h' := by
  induction disks generalizing h with
  | nil => exact ⟨[], [], h, rfl, .nil h⟩
  | cons disk disks ih =>
      obtain ⟨hdisk, hdisks⟩ := List.forall_mem_cons.mp hwords
      obtain ⟨setup, first, h₁, hfirst, hhead⟩ :=
        exec_setupDisk node others allowFormat huser disk hdisk h t
      obtain ⟨setups, rest, h', hrest, htail⟩ := ih hdisks h₁
      refine ⟨setup :: setups, first ++ rest, h', ?_, .cons hhead htail⟩
      rw [each_cons, exec_bind, hfirst, Execution.andThen]
      simp only [exec_bind, hrest, Execution.andThen, exec_pure, List.append_nil]

section Stage

variable {user : String} {disks : List DiskConfig} {h h' : Host} {setups : List DiskSetup}
  {trace : List OpsEvent}

def PlainDisks (disks : List DiskConfig) : Prop :=
  ∀ disk ∈ disks, disk.fs ≠ .tmpfs → disk.format = false

theorem DiskStage.grows (hs : DiskStage user disks h setups trace h') : Extends h h' := by
  induction hs with
  | nil h => exact .refl h
  | cons head _ ih => exact head.grows.trans ih

theorem DiskRun.sameDevices {disk : DiskConfig} {setup : DiskSetup}
    (hr : DiskRun user disk h setup trace h') (hplain : disk.fs ≠ .tmpfs → disk.format = false) :
    SameDevices h h' := by
  by_cases hfs : disk.fs = .tmpfs
  · obtain ⟨_, hhost, _⟩ := hr.tmpfs hfs
    rw [hhost]
    exact sameDevices_tmpfsList
  · rw [(hr.plain hfs (hplain hfs)).1]
    exact sameDevices_blockList

/-- A disk of this kind that reports success is settled, and nothing else is mounted. -/
theorem DiskRun.settled {disk : DiskConfig} {setup : DiskSetup}
    (hr : DiskRun user disk h setup trace h') (hok : setup.ok = true)
    (hready : disk.fs ≠ .tmpfs → disk.format = false ∧ (h.fileSystem disk.device).isSome = true) :
    SettledFrom user disk h h' := by
  by_cases hfs : disk.fs = .tmpfs
  · obtain ⟨_, hhost, hsetup, _⟩ := hr.tmpfs hfs
    rw [hhost]
    exact tmpfsList_settled hfs (hsetup ▸ hok)
  · obtain ⟨hformat, hsome⟩ := hready hfs
    obtain ⟨fs, hdevice⟩ := Option.isSome_iff_exists.mp hsome
    obtain ⟨hhost, hsetup, _⟩ := hr.plain hfs hformat
    rw [hhost]
    exact blockList_settled hfs hdevice (hsetup ▸ hok)

theorem DiskRun.of_settled {disk : DiskConfig} {setup : DiskSetup}
    (hr : DiskRun user disk h setup trace h') (hplain : disk.fs ≠ .tmpfs → disk.format = false)
    (hs : Settled user disk h) : h' = h ∧ setup.ok = true ∧ FormatsNothing trace := by
  by_cases hfs : disk.fs = .tmpfs
  · obtain ⟨_, hhost, hsetup, hnothing⟩ := hr.tmpfs hfs
    rw [tmpfsList_of_settled hfs hs] at hhost hsetup
    exact ⟨hhost, hsetup, hnothing⟩
  · obtain ⟨hhost, hsetup, hnothing⟩ := hr.plain hfs (hplain hfs)
    rw [blockList_of_settled hfs hs] at hhost hsetup
    exact ⟨hhost, hsetup, hnothing⟩

theorem DiskStage.sameDevices (hs : DiskStage user disks h setups trace h')
    (hplain : PlainDisks disks) : SameDevices h h' := by
  induction hs with
  | nil h => rfl
  | cons head _ ih =>
      obtain ⟨hdisk, hdisks⟩ := List.forall_mem_cons.mp hplain
      exact (ih hdisks).trans (head.sameDevices hdisk)

/-- What one disk prepared, the later ones leave prepared, but they may hide it. -/
theorem DiskStage.settled (hs : DiskStage user disks h setups trace h')
    (hok : ∀ setup ∈ setups, setup.ok = true) (hplain : PlainDisks disks)
    (hready : ∀ disk ∈ disks, disk.fs ≠ .tmpfs → (h.fileSystem disk.device).isSome = true) :
    (∀ disk ∈ disks, Furnished user disk h') ∧
      h'.targets = mountAll h.targets (disks.map (·.mount)) := by
  induction hs with
  | nil h => exact ⟨by simp, rfl⟩
  | cons head tail ih =>
      obtain ⟨hok₁, hoks⟩ := List.forall_mem_cons.mp hok
      obtain ⟨hplain₁, hplains⟩ := List.forall_mem_cons.mp hplain
      obtain ⟨hready₁, hreadys⟩ := List.forall_mem_cons.mp hready
      have hsame := head.sameDevices hplain₁
      obtain ⟨hfirst, htargets⟩ := head.settled hok₁ fun hfs => ⟨hplain₁ hfs, hready₁ hfs⟩
      obtain ⟨hrest, htargets'⟩ := ih hoks hplains fun disk hd hfs => by
        rw [hsame.fileSystem]
        exact hreadys disk hd hfs
      refine ⟨List.forall_mem_cons.mpr ⟨hfirst.toFurnished.extend tail.grows, hrest⟩, ?_⟩
      rw [htargets', htargets]
      rfl

theorem DiskStage.of_settled (hs : DiskStage user disks h setups trace h')
    (hplain : PlainDisks disks) (hsettled : ∀ disk ∈ disks, Settled user disk h) :
    h' = h ∧ (∀ setup ∈ setups, setup.ok = true) ∧ FormatsNothing trace := by
  induction hs with
  | nil h => exact ⟨rfl, by simp, formatsNothing_nil⟩
  | cons head _ ih =>
      obtain ⟨hplain₁, hplains⟩ := List.forall_mem_cons.mp hplain
      obtain ⟨hsettled₁, hsettleds⟩ := List.forall_mem_cons.mp hsettled
      obtain ⟨rfl, hok, hnothing⟩ := head.of_settled hplain₁ hsettled₁
      obtain ⟨rfl, hoks, hnothings⟩ := ih hplains hsettleds
      exact ⟨rfl, List.forall_mem_cons.mpr ⟨hok, hoks⟩, hnothing.append hnothings⟩

theorem DiskStage.formatted (hs : DiskStage user disks h setups trace h')
    (hok : ∀ setup ∈ setups, setup.ok = true) {disk : DiskConfig} (hd : disk ∈ disks)
    (hfs : disk.fs ≠ .tmpfs) (hformat : disk.format = true) :
    ∃ fs, fs.fsType = disk.fs.text ∧ h'.fileSystem disk.device = some fs := by
  induction hs with
  | nil h => cases hd
  | cons head tail ih =>
      obtain ⟨hok₁, hoks⟩ := List.forall_mem_cons.mp hok
      obtain rfl | hd := List.mem_cons.mp hd
      · obtain ⟨fs, htype, hdevice⟩ := head.formatted hfs hformat hok₁
        exact ⟨fs, htype, tail.grows.fileSystem _ _ hdevice⟩
      · exact ih hoks hd

theorem DiskStage.refused (hs : DiskStage user disks h setups trace h') {disk : DiskConfig}
    (hd : disk ∈ disks) (hfs : disk.fs ≠ .tmpfs) (hformat : disk.format = true)
    (hfound : ∃ fs, fs.fsType = disk.fs.text ∧ h.fileSystem disk.device = some fs) :
    ∃ setup ∈ setups, setup.ok = false := by
  induction hs with
  | nil h => cases hd
  | cons head _ ih =>
      obtain rfl | hd := List.mem_cons.mp hd
      · exact ⟨_, List.mem_cons_self, head.refused hfs hformat hfound⟩
      · obtain ⟨fs, htype, hdevice⟩ := hfound
        obtain ⟨setup, hmem, hbad⟩ := ih hd ⟨fs, htype, head.grows.fileSystem _ _ hdevice⟩
        exact ⟨setup, List.mem_cons_of_mem _ hmem, hbad⟩

theorem DiskStage.mounts_lt (hs : DiskStage user disks h setups trace h')
    (hok : ∀ setup ∈ setups, setup.ok = true) (hplain : PlainDisks disks) {disk : DiskConfig}
    (hd : disk ∈ disks) (hfs : disk.fs ≠ .tmpfs) (hnone : h.fileSystem disk.device = none) :
    h.mounts.length < h'.mounts.length := by
  induction hs with
  | nil h => cases hd
  | cons head tail ih =>
      obtain ⟨hok₁, hoks⟩ := List.forall_mem_cons.mp hok
      obtain ⟨hplain₁, hplains⟩ := List.forall_mem_cons.mp hplain
      obtain rfl | hd := List.mem_cons.mp hd
      · obtain ⟨hhost, hsetup, _⟩ := head.plain hfs (hplain₁ hfs)
        have hgrown := blockList_grows hnone (hsetup ▸ hok₁)
        have hrest := tail.grows.mounts.length_le
        rw [hhost] at hrest
        omega
      · have hfirst := head.grows.mounts.length_le
        have hrest := ih hoks hplains hd
          (by rw [(head.sameDevices hplain₁).fileSystem]; exact hnone)
        omega

end Stage

/-! ## The run around the disks -/

/-- A run up to the end of its disk stage, or `none` if it ends before that. -/
def provisionDisks (fleet : Fleet) (nodeName targetVersion : String) (confirm : Bool)
    (allowFormat : Finset String) : OpsProgram (Option ProvisionSteps) :=
  match fleet.findNode nodeName with
  | none => pure none
  | some (clusterName, cluster, node) => do
      let pre ← preflight node
      if (provisionRequest fleet clusterName cluster node nodeName targetVersion pre).Opens
          confirm then
        some <$> prepareHost node allowFormat
      else pure none

/-- Nothing the disk stage sends to the node. -/
def LeavesHost (node : Node) (i : Invocation) : Prop :=
  ∀ command, i = .ssh (.node node) command → ∀ h, hostStep h command = none

theorem hostHandler_host {node : Node} {others : Handler opsSignature Exn τ} {op : OpsEffect}
    (hop : OpsEffect.Sends (LeavesHost node) op) (s : Host × τ) :
    (hostHandler node others op s).2.1 = s.1 := by
  unfold hostHandler
  split
  case h_1 target command =>
    split
    case isTrue htarget =>
      have hnone := hop _ rfl command (by rw [htarget]) s.1
      rw [hnone]
    case isFalse => rfl
  case h_2 => rfl

/-- The host is where it was after a program that leaves it alone. -/
theorem exec_leavesHost {α : Type} {node : Node} (others : Handler opsSignature Exn τ)
    {p : OpsProgram α} (hp : p.AllCalls (OpsEffect.Sends (LeavesHost node))) (s : Host × τ) :
    (exec (hostHandler node others) p s).final.1 = s.1 := by
  have hstep : ∀ op (s' : Host × τ), OpsEffect.Sends (LeavesHost node) op → s'.1 = s.1 →
      (hostHandler node others op s').2.1 = s.1 :=
    fun _ s' hop hs => (hostHandler_host hop s').trans hs
  exact AllCalls.exec_final (I := fun s' : Host × τ => s'.1 = s.1) hp hstep rfl

theorem leavesHost_ssh {node : Node} {target : SSHTarget} {command : Command}
    (h : ∀ h, hostStep h command = none) : LeavesHost node (.ssh target command) := by
  intro command' heq
  rw [← (Invocation.ssh.inj heq).2]
  exact h

theorem leavesHost_provisionRest (fleet : Fleet) (cluster : Cluster) (node : Node)
    (targetVersion : String) (maxLag catchupTimeout : Int) (steps : ProvisionSteps) :
    (provisionRest fleet cluster node targetVersion maxLag catchupTimeout steps).AllCalls
      (OpsEffect.Sends (LeavesHost node)) := by
  unfold provisionRest
  split
  · split
    · trivial
    · trivial
    · exact allCalls_provisionSoftware (P := LeavesHost node) (fun _ => leavesHost_ssh fun _ => rfl)
        (fun _ => leavesHost_ssh fun _ => rfl) (fun _ _ => leavesHost_ssh fun _ => rfl)
        (fun _ _ => nofun) (fun _ _ => nofun) (fun _ => leavesHost_ssh fun _ => rfl)
        (fun _ _ => leavesHost_ssh fun _ => rfl) (leavesHost_ssh fun _ => rfl)
        (fun _ => leavesHost_ssh fun _ => rfl) ..
  · trivial

section Whole

variable {fleet : Fleet} {nodeName clusterName targetVersion : String} {cluster : Cluster}
  {node : Node} {confirm audit : Bool} {allowFormat : Finset String} {policy : Policy}
  {maxLag catchupTimeout : Int} {others : Handler opsSignature Exn τ} {h : Host} {t : τ}
  {steps : ProvisionSteps}

/-- The user is there before the disks, and nothing else has changed. -/
theorem exec_prepareHost {s : Host × τ} (hwords : StageWords node)
    (hprepared :
      (exec (hostHandler node others) (prepareHost node allowFormat) s).result = .ok steps) :
    ∃ trace, DiskStage node.service.runUser node.disks
      (addUser node.service.runUser s.1).2 steps.disks
      trace (exec (hostHandler node others) (prepareHost node allowFormat) s).final.1 := by
  have hsystem : (applySystem node).AllCalls (OpsEffect.Sends (LeavesHost node)) :=
    AllCalls.bind (allCalls_runOn (leavesHost_ssh fun _ => rfl)) fun _ => trivial
  obtain ⟨r, hstep⟩ : ∃ r, hostStep s.1 (.ensureUser node.service.runUser) =
      some (r, (addUser node.service.runUser s.1).2) := ⟨_, if_pos hwords.user⟩
  obtain ⟨user, _, hrest, hfinal⟩ := exec_bind_result hprepared
  obtain ⟨system, _, hrest, hfinal'⟩ := exec_bind_result hrest
  obtain ⟨setups, hdisks, hrest, hfinal''⟩ := exec_bind_result hrest
  have huser : (exec (hostHandler node others) (ensureUser node) s).final.1 =
      (addUser node.service.runUser s.1).2 := by
    unfold ensureUser
    rw [exec_runOn_bind (h := s.1) (t := s.2) hstep]
    rfl
  have hhost := (exec_leavesHost others hsystem _).trans huser
  generalize exec (hostHandler node others) (applySystem node) _ = prepared at *
  obtain ⟨⟨h, t⟩, _, _⟩ := prepared
  obtain ⟨setups', trace, h', hexec, hstage⟩ :=
    exec_disks node others allowFormat hwords.user node.disks hwords.disks h t
  obtain rfl : h = _ := hhost
  rw [hexec] at hdisks hrest hfinal''
  obtain rfl := Except.ok.inj hdisks
  obtain rfl := Except.ok.inj hrest
  refine ⟨trace, ?_⟩
  rw [prepareHost, hfinal, hfinal', hfinal'']
  exact hstage

theorem exec_provisionDisks
    (hf : fleet.findNode nodeName = some (clusterName, cluster, node))
    (hreached : (exec (hostHandler node others) (provisionDisks fleet nodeName targetVersion confirm
      allowFormat) (h, t)).result = .ok (some steps)) :
    let looked := exec (hostHandler node others) (preflight node) (h, t)
    looked.final.1 = h ∧ ∃ pre, looked.result = .ok pre ∧
      (provisionRequest fleet clusterName cluster node nodeName targetVersion pre).Opens confirm ∧
      (exec (hostHandler node others) (prepareHost node allowFormat) looked.final).result =
        .ok steps := by
  have hlook : (preflight node).AllCalls (OpsEffect.Sends (LeavesHost node)) :=
    AllCalls.bind (allCalls_runOn (leavesHost_ssh fun _ => rfl)) fun _ => trivial
  rw [provisionDisks, hf] at hreached
  obtain ⟨pre, hpre, hrest, hfinal⟩ := exec_bind_result hreached
  by_cases hopens :
      (provisionRequest fleet clusterName cluster node nodeName targetVersion pre).Opens
      confirm
  · rw [if_pos hopens, map_eq_bind] at hrest
    obtain ⟨steps', hprepare, hrest, _⟩ := exec_bind_result hrest
    obtain rfl := Option.some.inj (Except.ok.inj hrest)
    exact ⟨exec_leavesHost others hlook _, pre, hpre, hopens, hprepare⟩
  · rw [if_neg hopens] at hrest
    cases hrest

theorem exec_provisionNode_host {pre : Preflight} (policy : Policy) (audit : Bool)
    (maxLag catchupTimeout : Int)
    (hf : fleet.findNode nodeName = some (clusterName, cluster, node))
    (hpre : (exec (hostHandler node others) (preflight node) (h, t)).result = .ok pre)
    (hopens : (provisionRequest fleet clusterName cluster node nodeName targetVersion pre).Opens
      confirm)
    (hprepared : (exec (hostHandler node others) (prepareHost node allowFormat)
      (exec (hostHandler node others) (preflight node) (h, t)).final).result = .ok steps) :
    (exec (hostHandler node others) (provisionNode fleet nodeName targetVersion confirm allowFormat
        policy audit maxLag catchupTimeout) (h, t)).final.1 =
      (exec (hostHandler node others) (prepareHost node allowFormat)
        (exec (hostHandler node others) (preflight node) (h, t)).final).final.1 := by
  rw [provisionNode, hf]
  dsimp only
  rw [exec_bind_ok hpre, gated, if_pos hopens]
  dsimp only
  rw [auditedProvision, provisionStages_eq, bind_assoc, exec_bind_ok hprepared]
  dsimp only
  refine exec_leavesHost others ?_ _
  refine (leavesHost_provisionRest ..).bind fun outcome => ?_
  exact allCalls_recordOps_pure ..

/-! ## The disk stage again -/

/-- On what a run left, the disk stage succeeds, formats nothing and changes nothing. -/
def RerunClean (node : Node) (allowFormat : Finset String)
    (others : Handler opsSignature Exn τ) (s : Host × τ) : Prop :=
  let again := exec (hostHandler node others) (each node.disks (setupDisk node allowFormat)) s
  (∃ setups, again.result = .ok setups ∧ ∀ setup ∈ setups, setup.ok = true) ∧
    FormatsNothing again.trace ∧ again.final.1.fstab = s.1.fstab ∧
    again.final.1.mounts = s.1.mounts

/-- Every device is configured as it is, and has its file system already. -/
def Preformatted (disks : List DiskConfig) (h : Host) : Prop :=
  ∀ disk ∈ disks, disk.fs ≠ .tmpfs →
    disk.format = false ∧ (h.fileSystem disk.device).isSome = true

/-- The paths of the disks, mounted in turn where nothing is mounted, hide none of each other. -/
def Unhidden (disks : List DiskConfig) (h : Host) : Prop :=
  ∀ disk ∈ disks, onTop (mountAll h.targets (disks.map (·.mount))) disk.mount = true

/-- It is enough that no disk is mounted above an earlier one. -/
theorem unhidden_of_pairwise {disks : List DiskConfig} (h : Host)
    (hdisks : disks.Pairwise fun disk later => ¬ Hides later.mount disk.mount) :
    Unhidden disks h :=
  fun _ hd => onTop_mountAll_of_pairwise (List.pairwise_map.mpr hdisks) h.targets _
    (List.mem_map_of_mem hd)

theorem DiskStage.rerunClean_iff {h₁ : Host} {setups : List DiskSetup} {trace : List OpsEvent}
    {s : Host × τ} (hwords : StageWords node)
    (hs : DiskStage node.service.runUser node.disks h₁ setups trace s.1)
    (hok : ∀ setup ∈ setups, setup.ok = true) :
    RerunClean node allowFormat others s ↔
      Preformatted node.disks h₁ ∧ Unhidden node.disks h₁ := by
  obtain ⟨h', t⟩ := s
  obtain ⟨setups', trace', h'', hexec, hagain⟩ :=
    exec_disks node others allowFormat hwords.user node.disks hwords.disks h' t
  have hclean : RerunClean node allowFormat others (h', t) ↔
      (∀ setup ∈ setups', setup.ok = true) ∧ FormatsNothing trace' ∧ h''.fstab = h'.fstab ∧
        h''.mounts = h'.mounts := by
    simp only [RerunClean, hexec, Except.ok.injEq, exists_eq_left']
  rw [hclean]
  constructor
  · rintro ⟨hok', _, _, hmounts⟩
    have hplain : PlainDisks node.disks := by
      intro disk hd hfs
      by_contra hformat
      rw [Bool.not_eq_false] at hformat
      obtain ⟨setup, hmem, hbad⟩ := hagain.refused hd hfs hformat (hs.formatted hok hd hfs hformat)
      rw [hok' setup hmem] at hbad
      cases hbad
    have hready : ∀ disk ∈ node.disks, disk.fs ≠ .tmpfs →
        (h₁.fileSystem disk.device).isSome = true := by
      intro disk hd hfs
      by_contra hnone
      rw [Bool.not_eq_true, Option.isSome_eq_false_iff, Option.isNone_iff_eq_none] at hnone
      have hgrown := hagain.mounts_lt hok' hplain hd hfs
        (by rw [(hs.sameDevices hplain).fileSystem]; exact hnone)
      rw [hmounts] at hgrown
      exact lt_irrefl _ hgrown
    refine ⟨fun disk hd hfs => ⟨hplain disk hd hfs, hready disk hd hfs⟩, ?_⟩
    obtain ⟨_, htargets⟩ := hs.settled hok hplain hready
    obtain ⟨_, htargets'⟩ := hagain.settled hok' hplain fun disk hd hfs => by
      rw [(hs.sameDevices hplain).fileSystem]
      exact hready disk hd hfs
    -- the second run mounts nothing, so everything is a mount point before it
    rw [Host.targets, hmounts, ← Host.targets, eq_comm, mountAll_eq_self_iff, htargets] at htargets'
    exact List.forall_mem_map.mp htargets'
  · rintro ⟨hready, hunhidden⟩
    have hplain : PlainDisks node.disks := fun disk hd hfs => (hready disk hd hfs).1
    obtain ⟨hprepared, htargets⟩ := hs.settled hok hplain fun disk hd hfs => (hready disk hd hfs).2
    have hsettled : ∀ disk ∈ node.disks, Settled node.service.runUser disk h' :=
      fun disk hd => ⟨hprepared disk hd, htargets ▸ hunhidden disk hd⟩
    obtain ⟨rfl, hok', hnothing⟩ := hagain.of_settled hplain hsettled
    exact ⟨hok', hnothing, rfl, rfl⟩

end Whole

/-! ## Two hosts -/

/-- A host that passes the preflight; nothing else it is asked fails. -/
def obliging : Handler opsSignature Exn Unit
  | .runner (.ssh _ .preflight), s => (.ok bareHost, s)
  | .runner _, s => (.ok silent, s)
  | .mkdtemp _, s => (.ok "/tmp/solfleet-1", s)
  | .sample .., s => (.ok {}, s)
  | .leader .., s => (.ok none, s)
  | .sleep _, s => (.ok (), s)
  | .audit _, s => (.ok (), s)

def newFileSystem : Uuid := ⟨"7f-3c", by simp, by simp⟩

def hostWith (fileSystem : Option FileSystem) : Host where
  devices := Dict.ofPairs [("/dev/nvme1n1", fileSystem)]
  fstab := []
  mounts := []
  kind := fun _ => none
  users := []
  formatted := 0
  newUuid := fun _ => newFileSystem
  inside := fun _ _ => none

def accountsDisk : DiskConfig := { device := "tmpfs", mount := "/mnt/accounts.0", fs := .tmpfs }

def mountedNode : Node :=
  { builtNode with disks := [{ ledgerDisk with format := false }, accountsDisk] }

def ledgerFileSystem : FileSystem := ⟨"ext4", ⟨"1a2b", by simp, by simp⟩⟩

def mountedFleet : AcceptedFleet where
  fleet :=
    { builtFleet.fleet with
      clusters := Dict.ofPairs [("testnet", { builtCluster with nodes := [mountedNode] })] }
  accepted := by decide

def reports? (result : Except Exn (Option ProvisionSteps)) : Option (List Bool) :=
  match result with
  | .ok (some steps) => some (steps.disks.map DiskSetup.ok)
  | _ => none

theorem reports?_eq_some {result : Except Exn (Option ProvisionSteps)} {oks : List Bool}
    (h : reports? result = some oks) :
    ∃ steps, result = .ok (some steps) ∧ steps.disks.map DiskSetup.ok = oks := by
  unfold reports? at h
  split at h
  case h_1 steps => exact ⟨steps, rfl, Option.some.inj h⟩
  case h_2 => cases h

end Solfleet
