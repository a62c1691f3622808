import Mathlib.Data.List.Infix
import Solfleet.Library.Dict
import Solfleet.Library.Grep

/-! # Disks of a host

Block devices, the file system table and the mounts of a Linux host, and the commands
that read and change them. A command is a step: a status and the host after it; steps
are joined by the shell's and-or lists, which associate to the left.
-/

namespace Mounting

/-! ## Hosts -/

/-- What `blkid` prints: letters, digits and hyphens, and no hyphen first. -/
structure Uuid where
  text : String
  plain : ∀ c ∈ text.toList, c.isAlphanum = true ∨ c = '-'
  start : text.toList.head? ≠ some '-'
  deriving DecidableEq

structure FileSystem where
  fsType : String
  uuid : Uuid
  deriving DecidableEq

inductive Source where
  | device (path : String)
  | tmpfs
  deriving DecidableEq

structure Mount where
  source : Source
  target : String
  deriving DecidableEq

inductive PathKind where
  | file
  | directory
  deriving DecidableEq

abbrev Path := List (List Char)

/-- The names on the way to a file, with `.` and `..` resolved. -/
def names (path : String) : Path :=
  (path.toList.splitOn '/').foldl (fun above name =>
    if name = [] ∨ name = ['.'] then above
    else if name = ['.', '.'] then above.dropLast
    else above ++ [name]) []

def covers (target path : String) : Bool := (names target).isPrefixOf (names path)

/-- The newest mount comes first. `newUuid` are the identifiers future file systems get, and
`inside` is what the next mounts bring along. -/
structure Host where
  devices : Dict String (Option FileSystem)
  fstab : List String
  mounts : List Mount
  kind : Path → Option PathKind
  users : List String
  formatted : Nat
  newUuid : Nat → Uuid
  inside : Nat → Path → Option PathKind

theorem Uuid.not_mem_operators (u : Uuid) {c : Char} (hc : c ∈ u.text.toList)
    (ops : List Char) (hops : ops.all (fun d => !d.isAlphanum && d != '-') = true) : c ∉ ops := by
  intro hmem
  have hop := List.all_eq_true.mp hops c hmem
  rcases u.plain c hc with hletter | rfl
  · simp [hletter] at hop
  · cases hop

/-- An identifier means itself to `grep`. -/
def Uuid.pattern (u : Uuid) : Grep.Pattern where
  text := u.text
  plain := fun _ hc => u.not_mem_operators hc _ (by decide)
  start := fun h => u.not_mem_operators (List.mem_of_head? h) ['^'] (by decide) (by simp)
  stop := fun h => u.not_mem_operators (List.mem_of_getLast? h) ['$'] (by decide) (by simp)

def Host.fileSystem (h : Host) (device : String) : Option FileSystem :=
  (h.devices.get? device).join

def Host.targets (h : Host) : List String := h.mounts.map (·.target)

/-- The newest mount a path lies on is mounted there: no mount further up hides it. -/
def onTop : List String → String → Bool
  | [], _ => false
  | target :: older, path =>
      if covers target path then names target == names path else onTop older path

def Host.isMounted (h : Host) (path : String) : Bool :=
  decide (h.kind (names path) = some .directory) && onTop h.targets path

/-! ## Reading -/

/-- `lsblk -no FSTYPE`: one line for a device that exists. -/
def Host.lsblk (h : Host) (device : String) : String :=
  match h.devices.get? device with
  | none => ""
  | some none => "\n"
  | some (some fs) => fs.fsType ++ "\n"

def Host.targetsOf (h : Host) (device : String) : List String :=
  (h.mounts.filter fun m => decide (m.source = .device device)).map (·.target)

/-- `findmnt -nro TARGET`: one line for each mount of the device. -/
def Host.findmnt (h : Host) (device : String) : String :=
  Text.join "" ((h.targetsOf device).map (· ++ "\n"))

/-! ## Steps -/

abbrev Step := Host → Bool × Host

def mkdirP (path : String) : Step := fun h =>
  match h.kind (names path) with
  | some .file => (false, h)
  | some .directory => (true, h)
  | none =>
      (true, { h with kind := fun p => if p = names path then some .directory else h.kind p })

def blkid (device : String) : Step := fun h => ((h.fileSystem device).isSome, h)

/-- `grep -q` -/
def grepFstab (pattern : Grep.Pattern) : Step := fun h => (h.fstab.any pattern.matchesLine, h)

def appendFstab (line : String) : Step := fun h => (true, { h with fstab := h.fstab ++ [line] })

def mountpoint (path : String) : Step := fun h => (h.isMounted path, h)

def chown (user : String) : Step := fun h => (h.users.contains user, h)

/-- `useradd` for a user that does not exist yet. -/
def addUser (user : String) : Step := fun h =>
  (true, if h.users.contains user then h else { h with users := user :: h.users })

/-- A device with a file system, or one that is mounted, is not formatted. -/
def mkfs (fsType device : String) : Step := fun h =>
  match h.devices.get? device with
  | some none =>
      if h.targetsOf device = [] then
        (true, { h with
          devices := h.devices.insert device (some ⟨fsType, h.newUuid h.formatted⟩)
          formatted := h.formatted + 1 })
      else (false, h)
  | _ => (false, h)

/-- What an entry of the table mounts: the fields are the source, the target and the type. -/
def Host.resolve (h : Host) (source fsType : String) : Option Source :=
  if fsType = "tmpfs" then some .tmpfs
  else
    h.devices.entries.findSome? fun entry =>
      entry.2.bind fun fs =>
        if (entry.1 = source ∨ "UUID=" ++ fs.uuid.text = source) ∧
            (fs.fsType = fsType ∨ fsType = "auto") then
          some (.device entry.1)
        else none

/-- The first entry of the table for a path; comments have none. -/
def Host.entryFor (h : Host) (path : String) : Option Source :=
  (h.fstab.findSome? fun line =>
    match Text.split line with
    | source :: target :: fsType :: _ =>
        if Text.startsWith '#' source = false ∧ names target = names path then
          some (h.resolve source fsType)
        else none
    | _ => none).join

/-- The same device is not mounted twice over one path. -/
def Host.busy (h : Host) (m : Mount) : Bool :=
  decide (m.source ≠ .tmpfs) &&
    (h.mounts.find? fun m' => covers m'.target m.target).any fun m' =>
      names m'.target == names m.target && decide (m'.source = m.source)

/-- A mount hides what lay below its target. -/
def Host.cover (h : Host) (m : Mount) : Host :=
  { h with
    mounts := m :: h.mounts
    kind := fun p =>
      if (names m.target).isPrefixOf p && p != names m.target then h.inside h.mounts.length p
      else h.kind p }

/-- `mount path`, by way of the table. -/
def mount (path : String) : Step := fun h =>
  match h.entryFor path with
  | none => (false, h)
  | some source =>
      if h.kind (names path) = some .directory ∧ h.busy ⟨source, path⟩ = false then
        (true, h.cover ⟨source, path⟩)
      else (false, h)

/-! ## And-or lists -/

inductive Connector where
  | and
  | or
  deriving DecidableEq

/-- A step runs after `&&` if the list succeeded so far and after `||` if it failed. -/
def runList : List (Connector × Step) → Bool × Host → Bool × Host
  | [], s => s
  | (.and, step) :: rest, (ok, h) => runList rest (if ok then step h else (ok, h))
  | (.or, step) :: rest, (ok, h) => runList rest (if ok then (ok, h) else step h)

@[simp] theorem runList_nil (s : Bool × Host) : runList [] s = s := rfl

@[simp] theorem runList_and (step : Step) (rest : List (Connector × Step)) (s : Bool × Host) :
    runList ((.and, step) :: rest) s = runList rest (if s.1 then step s.2 else s) := rfl

@[simp] theorem runList_or (step : Step) (rest : List (Connector × Step)) (s : Bool × Host) :
    runList ((.or, step) :: rest) s = runList rest (if s.1 then s else step s.2) := rfl

theorem runList_append (xs ys : List (Connector × Step)) (s : Bool × Host) :
    runList (xs ++ ys) s = runList ys (runList xs s) := by
  induction xs generalizing s with
  | nil => rfl
  | cons x xs ih =>
      obtain ⟨connector, step⟩ := x
      obtain ⟨ok, h⟩ := s
      cases connector <;> exact ih _

/-- The end of a list that mounts a path once and hands it over. -/
def mountOnce (path user : String) : List (Connector × Step) :=
  [(.and, mountpoint path), (.or, mount path), (.and, chown user)]

/-! ## Mount points -/

theorem onTop_cons_self (path : String) (targets : List String) :
    onTop (path :: targets) path = true := by
  simp [onTop, covers]

/-- The targets after a path is mounted, unless it is a mount point. -/
def mountStep (targets : List String) (path : String) : List String :=
  if onTop targets path then targets else path :: targets

def mountAll (targets paths : List String) : List String := paths.foldl mountStep targets

theorem suffix_mountStep (targets : List String) (path : String) :
    targets <:+ mountStep targets path := by
  unfold mountStep
  split
  · exact List.suffix_rfl
  · exact List.suffix_cons _ _

theorem suffix_mountAll (targets paths : List String) : targets <:+ mountAll targets paths := by
  induction paths generalizing targets with
  | nil => exact List.suffix_rfl
  | cons path paths ih => exact (suffix_mountStep targets path).trans (ih _)

theorem mountStep_eq_self_iff {targets : List String} {path : String} :
    mountStep targets path = targets ↔ onTop targets path = true := by
  unfold mountStep
  split
  case isTrue h => simp [h]
  case isFalse h => simp [h]

/-- Mounting the paths in turn mounts nothing exactly if each is a mount point already. -/
theorem mountAll_eq_self_iff {targets paths : List String} :
    mountAll targets paths = targets ↔ ∀ path ∈ paths, onTop targets path = true := by
  induction paths with
  | nil => simp [mountAll]
  | cons path paths ih =>
      rw [List.forall_mem_cons, ← ih, ← mountStep_eq_self_iff]
      constructor
      · intro h
        have hstep : mountStep targets path = targets := by
          have hrest : mountStep targets path <:+ targets := by
            conv_rhs => rw [← h]
            exact suffix_mountAll _ _
          exact hrest.eq_of_length_le (suffix_mountStep targets path).length_le
        refine ⟨hstep, ?_⟩
        rwa [mountAll, List.foldl_cons, hstep] at h
      · rintro ⟨hstep, h⟩
        rwa [mountAll, List.foldl_cons, hstep]

/-- A mount further up the way. -/
def Hides (target path : String) : Prop := covers target path = true ∧ names target ≠ names path

instance (target path : String) : Decidable (Hides target path) :=
  inferInstanceAs (Decidable (_ ∧ _))

theorem onTop_mountStep {targets : List String} {path target : String}
    (htop : onTop targets path = true) (hhides : ¬ Hides target path) :
    onTop (mountStep targets target) path = true := by
  unfold mountStep
  split
  case isTrue => exact htop
  case isFalse =>
    rw [onTop]
    split
    case isTrue hcovers => simpa [Hides, hcovers] using hhides
    case isFalse => exact htop

theorem onTop_mountStep_self (targets : List String) (path : String) :
    onTop (mountStep targets path) path = true := by
  unfold mountStep
  split
  case isTrue htop => exact htop
  case isFalse => exact onTop_cons_self path targets

theorem onTop_mountAll {targets paths : List String} {path : String}
    (htop : onTop targets path = true) (hhides : ∀ target ∈ paths, ¬ Hides target path) :
    onTop (mountAll targets paths) path = true := by
  induction paths generalizing targets with
  | nil => exact htop
  | cons target paths ih =>
      obtain ⟨hfirst, hrest⟩ := List.forall_mem_cons.mp hhides
      exact ih (onTop_mountStep htop hfirst) hrest

/-- Paths of which no later one lies above an earlier one are mount points in the end. -/
theorem onTop_mountAll_of_pairwise {paths : List String}
    (hpaths : paths.Pairwise fun path target => ¬ Hides target path) (targets : List String) :
    ∀ path ∈ paths, onTop (mountAll targets paths) path = true := by
  induction hpaths generalizing targets with
  | nil => simp
  | @cons path paths hlater _ ih =>
      have hfirst : onTop (mountAll (mountStep targets path) paths) path = true :=
        onTop_mountAll (onTop_mountStep_self targets path) hlater
      exact List.forall_mem_cons.mpr ⟨hfirst, ih _⟩

/-! ## Growth -/

/-- A mount point is a directory. -/
def Rooted (h : Host) (path : String) : Prop :=
  onTop h.targets path = true → h.kind (names path) = some .directory

/-- Nothing is lost: entries, mounts, file systems and users stay, and mount points stay
directories. -/
structure Extends (h h' : Host) : Prop where
  fstab : h.fstab <+: h'.fstab
  mounts : h.mounts <:+ h'.mounts
  fileSystem : ∀ device fs, h.fileSystem device = some fs → h'.fileSystem device = some fs
  rooted : ∀ path, Rooted h path → Rooted h' path
  users : ∀ user ∈ h.users, user ∈ h'.users

theorem Extends.refl (h : Host) : Extends h h :=
  ⟨List.prefix_rfl, List.suffix_rfl, fun _ _ hf => hf, fun _ hr => hr, fun _ hu => hu⟩

theorem Extends.trans {h₁ h₂ h₃ : Host} (a : Extends h₁ h₂) (b : Extends h₂ h₃) :
    Extends h₁ h₃ where
  fstab := a.fstab.trans b.fstab
  mounts := a.mounts.trans b.mounts
  fileSystem := fun device fs hf => b.fileSystem device fs (a.fileSystem device fs hf)
  rooted := fun path hr => b.rooted path (a.rooted path hr)
  users := fun user hu => b.users user (a.users user hu)

theorem Extends.grep {h h' : Host} (e : Extends h h') {pattern : Grep.Pattern}
    (hg : (grepFstab pattern h).1 = true) : (grepFstab pattern h').1 = true := by
  simp only [grepFstab, List.any_eq_true] at hg ⊢
  obtain ⟨line, hin, hline⟩ := hg
  exact ⟨line, e.fstab.subset hin, hline⟩

theorem extends_mkdirP (path : String) (h : Host) : Extends h (mkdirP path h).2 := by
  unfold mkdirP
  cases hk : h.kind (names path) with
  | some k => cases k <;> exact .refl h
  | none =>
      refine { Extends.refl h with rooted := fun p hp htop => ?_ }
      by_cases hpath : names p = names path
      · simp [hpath]
      · simpa [hpath] using hp htop

theorem extends_appendFstab (line : String) (h : Host) : Extends h (appendFstab line h).2 :=
  { Extends.refl h with fstab := List.prefix_append _ _ }

@[simp] theorem targets_cover (h : Host) (m : Mount) :
    (h.cover m).targets = m.target :: h.targets := rfl

@[simp] theorem users_cover (h : Host) (m : Mount) : (h.cover m).users = h.users := rfl

theorem kind_cover_self (h : Host) (m : Mount) :
    (h.cover m).kind (names m.target) = h.kind (names m.target) := by
  simp [Host.cover]

theorem kind_cover_of_not_covers (h : Host) (m : Mount) {path : String}
    (hpath : covers m.target path = false) :
    (h.cover m).kind (names path) = h.kind (names path) := by
  unfold covers at hpath
  simp only [Host.cover, hpath, Bool.false_and, Bool.false_eq_true, if_false]

theorem extends_cover {h : Host} {m : Mount} (hk : h.kind (names m.target) = some .directory) :
    Extends h (h.cover m) where
  fstab := List.prefix_rfl
  mounts := List.suffix_cons _ _
  fileSystem := fun _ _ hf => hf
  users := fun _ hu => hu
  rooted := fun path hr htop => by
    rw [targets_cover, onTop] at htop
    split at htop
    case isTrue =>
      rw [← eq_of_beq htop, kind_cover_self, hk]
    case isFalse hcovers =>
      rw [kind_cover_of_not_covers h m (by simpa using hcovers)]
      exact hr htop

theorem extends_mount (path : String) (h : Host) : Extends h (mount path h).2 := by
  unfold mount
  split
  · exact .refl h
  · split
    case isTrue hok => exact extends_cover hok.1
    case isFalse => exact .refl h

theorem extends_mkfs (fsType device : String) (h : Host) : Extends h (mkfs fsType device h).2 := by
  unfold mkfs
  split
  case h_2 => exact .refl h
  case h_1 hdevice =>
    split
    case isFalse => exact .refl h
    case isTrue =>
      refine { Extends.refl h with fileSystem := fun d fs hfs => ?_ }
      -- a device that had a file system is another one
      have hne : d ≠ device := by
        rintro rfl
        simp [Host.fileSystem, hdevice] at hfs
      simpa [Host.fileSystem, Dict.get?_insert, hne] using hfs

/-- What every step preserves a list preserves. -/
theorem runList_preserves {R : Host → Host → Prop} (hrefl : ∀ h, R h h)
    (htrans : ∀ {h₁ h₂ h₃}, R h₁ h₂ → R h₂ h₃ → R h₁ h₃) {steps : List (Connector × Step)}
    (hsteps : ∀ s ∈ steps, ∀ h, R h (s.2 h).2) (ok : Bool) (h : Host) :
    R h (runList steps (ok, h)).2 := by
  induction steps generalizing ok h with
  | nil => exact hrefl h
  | cons s steps ih =>
      obtain ⟨hstep, hrest⟩ := List.forall_mem_cons.mp hsteps
      obtain ⟨connector, step⟩ := s
      cases connector <;> cases ok
      · exact ih hrest false h
      · exact htrans (hstep h) (ih hrest _ _)
      · exact htrans (hstep h) (ih hrest _ _)
      · exact ih hrest true h

theorem extends_runList {steps : List (Connector × Step)}
    (hsteps : ∀ s ∈ steps, ∀ h, Extends h (s.2 h).2) (ok : Bool) (h : Host) :
    Extends h (runList steps (ok, h)).2 :=
  runList_preserves Extends.refl Extends.trans hsteps ok h

/-- Only formatting changes a device. -/
def SameDevices (h h' : Host) : Prop := h'.devices = h.devices

theorem sameDevices_mkdirP (path : String) (h : Host) : SameDevices h (mkdirP path h).2 := by
  unfold mkdirP
  split <;> rfl

theorem sameDevices_addUser (user : String) (h : Host) : SameDevices h (addUser user h).2 := by
  unfold addUser SameDevices
  dsimp only
  split <;> rfl

theorem targets_addUser (user : String) (h : Host) : (addUser user h).2.targets = h.targets := by
  unfold addUser Host.targets
  dsimp only
  split <;> rfl

theorem sameDevices_mount (path : String) (h : Host) : SameDevices h (mount path h).2 := by
  unfold mount
  split
  · rfl
  · split <;> rfl

theorem sameDevices_mountOnce (path user : String) :
    ∀ s ∈ mountOnce path user, ∀ h, SameDevices h (s.2 h).2 := by
  simp only [mountOnce, List.forall_mem_cons, List.not_mem_nil, false_imp_iff, implies_true,
    and_true]
  exact ⟨fun _ => rfl, sameDevices_mount path, fun _ => rfl⟩

theorem SameDevices.fileSystem {h h' : Host} (hs : SameDevices h h') (device : String) :
    h'.fileSystem device = h.fileSystem device := by
  unfold SameDevices at hs
  simp only [Host.fileSystem, hs]

/-! ## What a step leaves behind -/

theorem mkdirP_cases (path : String) (h : Host) :
    (mkdirP path h = (false, h) ∧ h.kind (names path) = some .file) ∨
      ∃ kind, mkdirP path h = (true, { h with kind := kind }) ∧
        kind (names path) = some .directory := by
  unfold mkdirP
  cases hk : h.kind (names path) with
  | none => exact .inr ⟨_, rfl, by simp⟩
  | some k =>
      cases k with
      | file => exact .inl ⟨rfl, rfl⟩
      | directory => exact .inr ⟨h.kind, rfl, hk⟩

theorem mkdirP_of_directory {path : String} {h : Host}
    (hk : h.kind (names path) = some .directory) : mkdirP path h = (true, h) := by
  simp [mkdirP, hk]

theorem mount_cases (path : String) (h : Host) :
    mount path h = (false, h) ∨
      ∃ m, m.target = path ∧ h.kind (names path) = some .directory ∧
        mount path h = (true, h.cover m) := by
  unfold mount
  cases h.entryFor path with
  | none => exact .inl rfl
  | some source =>
      dsimp only
      split
      case isTrue hok => exact .inr ⟨⟨source, path⟩, rfl, hok.1, rfl⟩
      case isFalse => exact .inl rfl

theorem isMounted_iff {h : Host} {path : String} :
    h.isMounted path = true ↔
      h.kind (names path) = some .directory ∧ onTop h.targets path = true := by
  simp [Host.isMounted]

theorem isMounted_cover {m : Mount} {h : Host} (hk : h.kind (names m.target) = some .directory) :
    (h.cover m).isMounted m.target = true :=
  isMounted_iff.mpr ⟨(kind_cover_self h m).trans hk, onTop_cons_self _ _⟩

theorem mountThenChown_spec {path user : String} {h : Host}
    (hok : (runList [(.or, mount path), (.and, chown user)] (false, h)).1 = true) :
    ∃ m, m.target = path ∧ h.kind (names path) = some .directory ∧ user ∈ h.users ∧
      runList [(.or, mount path), (.and, chown user)] (false, h) = (true, h.cover m) := by
  obtain hfail | ⟨m, ht, hk, hm⟩ := mount_cases path h
  · simp [hfail] at hok
  · simp only [runList_or, runList_and, runList_nil, Bool.false_eq_true, if_false, hm, if_true,
      chown] at hok ⊢
    exact ⟨m, ht, hk, by simpa using hok, by rw [hok]⟩

/-- A list that ends so and succeeds found the path mounted, or mounted it. -/
theorem mountOnce_spec {path user : String} {s : Bool × Host}
    (hok : (runList (mountOnce path user) s).1 = true) :
    user ∈ s.2.users ∧
      ((s.1 = true ∧ s.2.isMounted path = true ∧ runList (mountOnce path user) s = (true, s.2)) ∨
        ∃ m, m.target = path ∧ s.2.kind (names path) = some .directory ∧
          (s.1 = true → s.2.isMounted path = false) ∧
          runList (mountOnce path user) s = (true, s.2.cover m)) := by
  obtain ⟨ok, h⟩ := s
  -- without a mount so far the list goes on at `||`
  have hmount : runList (mountOnce path user) (ok, h) =
      runList [(.or, mount path), (.and, chown user)] (false, h) →
      user ∈ h.users ∧ ∃ m, m.target = path ∧ h.kind (names path) = some .directory ∧
        runList (mountOnce path user) (ok, h) = (true, h.cover m) := by
    intro heq
    rw [heq] at hok ⊢
    obtain ⟨m, ht, hk, hu, hrun⟩ := mountThenChown_spec hok
    exact ⟨hu, m, ht, hk, hrun⟩
  cases ok with
  | false =>
      obtain ⟨hu, m, ht, hk, hrun⟩ := hmount rfl
      exact ⟨hu, .inr ⟨m, ht, hk, nofun, hrun⟩⟩
  | true =>
      by_cases hmounted : h.isMounted path = true
      · have hrun : runList (mountOnce path user) (true, h) = chown user h := by
          simp [mountOnce, mountpoint, hmounted]
        rw [hrun] at hok
        have hu : user ∈ h.users := by simpa [chown] using hok
        exact ⟨hu, .inl ⟨rfl, hmounted, hrun.trans (by simp [chown, hu])⟩⟩
      · obtain ⟨hu, m, ht, hk, hrun⟩ := hmount (by simp [mountOnce, mountpoint, hmounted])
        exact ⟨hu, .inr ⟨m, ht, hk, fun _ => Bool.eq_false_iff.mpr hmounted, hrun⟩⟩

/-- A path that is mounted and belongs to a known user stays as it is. -/
theorem mountOnce_settled {path user : String} {h : Host} (hm : h.isMounted path = true)
    (hu : user ∈ h.users) : runList (mountOnce path user) (true, h) = (true, h) := by
  simp [mountOnce, mountpoint, chown, hm, hu]

theorem extends_mountOnce (path user : String) :
    ∀ s ∈ mountOnce path user, ∀ h, Extends h (s.2 h).2 := by
  simp only [mountOnce, List.forall_mem_cons, List.not_mem_nil, false_imp_iff, implies_true,
    and_true]
  exact ⟨Extends.refl, extends_mount path, Extends.refl⟩

theorem mkfs_spec {fsType device : String} {h : Host} (hok : (mkfs fsType device h).1 = true) :
    ∃ fs, fs.fsType = fsType ∧ (mkfs fsType device h).2.fileSystem device = some fs := by
  unfold mkfs at hok ⊢
  split at hok
  case h_2 => cases hok
  case h_1 =>
    split at hok
    case isFalse => cases hok
    case isTrue hfree =>
      rw [if_pos hfree]
      exact ⟨⟨fsType, h.newUuid h.formatted⟩, rfl, by simp [Host.fileSystem, Dict.get?_insert]⟩

/-- What a probe prints of a device with a file system. -/
theorem lsblk_of_fileSystem {h : Host} {device : String} {fs : FileSystem}
    (hfs : h.fileSystem device = some fs) : h.lsblk device = fs.fsType ++ "\n" := by
  unfold Host.lsblk
  cases hd : h.devices.get? device with
  | none => simp [Host.fileSystem, hd] at hfs
  | some o =>
      cases o with
      | none => simp [Host.fileSystem, hd] at hfs
      | some fs' =>
          obtain rfl : fs' = fs := by simpa [Host.fileSystem, hd] using hfs
          rfl

end Mounting
