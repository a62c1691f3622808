import Solfleet.Failover.Race

/-! # Records without a marker

An operation that respects ownership changes no record that holds addresses and
carries no marker, and changes a record only while it is marked. The operations do
mark a record before they change it, but they mark whatever they find. `Steers`
describes an operation by the set each of its turns aims at; from it follows when the
unmarked records are left alone.
-/

namespace Solfleet

open Interaction Program

/-! ## Ownership -/

/-- The record holds addresses that nothing marks as managed. -/
def DnsDriver.Unowned (D : DnsDriver) (s : D.State) (r : String) : Prop :=
  (D.members s r).Nonempty ∧ D.hasMarker s r = false

/-- Whatever record changes was marked. -/
def DnsDriver.ChangesMarked (D : DnsDriver) (s t : D.State) : Prop :=
  ∀ r, D.members t r ≠ D.members s r → D.hasMarker s r = true

/-- Wherever the program stands, also behind a call that raised. -/
structure RespectsOwnership (D : DnsDriver) (faults : Prop) (clusters : List ClusterStatus)
    {α : Type} (p : DnsProgram α) (s : D.State) : Prop where
  untouched : ∀ c, Reaches (D.Answers faults {clusters}) (p, s) c →
    ∀ r, D.Unowned s r → D.members c.2 r = D.members s r
  marked : ∀ c d, Reaches (D.Answers faults {clusters}) (p, s) c →
    Advance (D.Answers faults {clusters}) c d → D.ChangesMarked c.2 d.2

section Ownership

variable (D : LawfulDriver) (faults : Prop) (clusters : List ClusterStatus)

/-- Every call of the program changes marked records only. -/
def Marks {α : Type} (p : DnsProgram α) : Prop :=
  ∀ s, Within (D.Answers faults {clusters}) Eq D.ChangesMarked (fun _ _ => True) p s

/-- What one turn of a pool makes of the record `r`. -/
def moved (aim : Pool → Finset String → Finset String) (r : String) (current : Finset String)
    (pool : Pool) : Finset String :=
  if pool.record = r then aim pool current else current

/-- The program takes the pools in turn and moves the record of each to its aim. It
can be stopped after any of the turns, and a record that is where all its turns want it
stays there throughout. -/
structure Steers {α : Type} (p : DnsProgram α) (pools : List Pool)
    (aim : Pool → Finset String → Finset String) : Prop where
  still : ∀ r current, (∀ pool ∈ pools, pool.record = r → aim pool current = current) →
    Tracks D faults {clusters} r ∅ (· = current) p current current
  stops : ∀ s done rest, pools = done ++ rest →
    ∃ c, Reaches (D.Answers faults {clusters}) (p, s) c ∧
      ∀ r, D.members c.2 r = done.foldl (moved aim r) (D.members s r)
  completes : ∀ s, ∃ t value, Reaches (D.Answers faults {clusters}) (p, s) (.done (.ok value), t) ∧
    ∀ r, D.members t r = pools.foldl (moved aim r) (D.members s r)
  marks : Marks D faults clusters p

variable {D faults clusters}

/-- Ownership is respected exactly when every turn on an unowned record finds it where
it wants it. -/
theorem Steers.respects_iff {α : Type} {p : DnsProgram α} {pools : List Pool}
    {aim : Pool → Finset String → Finset String} (h : Steers D faults clusters p pools aim)
    (s : D.State) :
    RespectsOwnership D faults clusters p s ↔
      ∀ r, D.Unowned s r → ∀ pool ∈ pools, pool.record = r →
        aim pool (D.members s r) = D.members s r := by
  constructor
  · intro hrespects r hr pool hp hrecord
    obtain ⟨done, rest, rfl⟩ := List.append_of_mem hp
    -- the record before and after this turn
    obtain ⟨c, hc, hbefore⟩ := h.stops s done (pool :: rest) rfl
    obtain ⟨d, hd, hafter⟩ := h.stops s (done ++ [pool]) rest (by simp)
    have hsame := (hbefore r).symm.trans (hrespects.untouched c hc r hr)
    have hsame' := (hafter r).symm.trans (hrespects.untouched d hd r hr)
    rwa [List.foldl_append, hsame, List.foldl_cons, List.foldl_nil, moved, if_pos hrecord] at hsame'
  · intro haim
    refine ⟨fun c hc r hr => ?_, fun c d hc hstep => (h.marks s).advance hc hstep fun _ => rfl⟩
    have htracks := h.still r (D.members s r) (haim r hr)
    have hguarantee := ((htracks s rfl).reaches hc fun _ => rfl).2
    rcases Relation.ReflTransGen.cases_tail hguarantee with heq | ⟨_, -, hlast⟩
    · rw [heq]
    · rwa [LawfulDriver.visible, Finset.sdiff_empty] at hlast

/-! ## Changing marked records -/

variable {α β : Type}

theorem members_eq_of_answers {probes : Set (List ClusterStatus)} {s t : D.State}
    {op : DnsEffect} {answer : Except Exn op.Answer} {r : String}
    (hop : ∀ ip, ¬ op.Changes r ip) (h : D.Answers faults probes s op answer t) :
    D.members t r = D.members s r :=
  Finset.ext fun ip => D.mem_iff_of_answers (hop ip) h

/-- No call takes a marker away. -/
theorem hasMarker_of_answers {probes : Set (List ClusterStatus)} {s t : D.State}
    {op : DnsEffect} {answer : Except Exn op.Answer} {r : String}
    (h : D.Answers faults probes s op answer t) (hs : D.hasMarker s r = true) :
    D.hasMarker t r = true := by
  rcases h.state_cases with rfl | ⟨c, rfl, rfl⟩
  · exact hs
  cases c with
  | listMembers | hasMarker => exact hs
  | addMember record ip ttl => exact (congrFun (D.marker_add s record ip ttl) r).trans hs
  | removeMember record ip => exact (congrFun (D.marker_remove s record ip) r).trans hs
  | ensureMarker record =>
      refine (congrFun (D.marker_ensure s record) r).trans ?_
      by_cases hr : r = record
      · rw [hr, Function.update_self]
      · rwa [Function.update_of_ne hr]

theorem marks_of_unchanging {p : DnsProgram α}
    (h : AllCalls (S := dnsSignature) (fun op => ∀ r ip, ¬ op.Changes r ip) p) :
    Marks D faults clusters p := by
  intro s
  refine AllCalls.within (I := fun _ => True) h (fun _ _ _ _ => trivial) ?_ trivial
  exact fun b op answer t _ hop hstep =>
    ⟨fun r hne => absurd (members_eq_of_answers (hop r) hstep) hne, trivial⟩

theorem Marks.bind {p : DnsProgram α} {f : α → DnsProgram β} (hp : Marks D faults clusters p)
    (hf : ∀ a, Marks D faults clusters (f a)) : Marks D faults clusters (p >>= f) := by
  intro s
  refine Within.bind (fun _ _ => True) (fun _ => rfl) ((hp s).mono fun r _ _ => ?_)
    fun a t _ => hf a t
  cases r <;> trivial

/-- What comes after the marking of a record may change that record. -/
theorem marks_ensureMarker {record : String} {p : DnsProgram α}
    (h : AllCalls (S := dnsSignature) (fun op => ∀ r ip, op.Changes r ip → r = record) p) :
    Marks D faults clusters (driverCall (.ensureMarker record) >>= fun _ => p) := by
  intro s
  refine Within.bind (fun _ t => D.hasMarker t record = true) (fun _ => rfl) ?_ fun _ t ht => ?_
  · refine @Within.perform dnsSignature _ _ _ _ _ (.driver (.ensureMarker record))
      (fun _ => True) _ _ trivial (fun _ _ _ _ => trivial) fun t answer u _ hstep => ⟨?_, ?_⟩
    · exact fun r hne => absurd (members_eq_of_answers (fun _ => id) hstep) hne
    · rintro v rfl
      cases hstep with
      | driver _ c =>
          exact (congrFun (D.marker_ensure t record) record).trans (Function.update_self ..)
      | refused | lost => trivial
  · refine (AllCalls.within (I := fun u => D.hasMarker u record = true) h ?_ ?_ ht).mono
      fun _ _ _ => trivial
    · rintro a _ ha rfl
      exact ha
    intro b op answer u hb hop hstep
    refine ⟨fun r hne => ?_, hasMarker_of_answers hstep hb⟩
    by_cases hr : r = record
    · rwa [hr]
    · exact absurd (members_eq_of_answers (fun ip hchange => hr (hop r ip hchange)) hstep) hne

/-! ## Composing turns -/

variable {pools rest : List Pool} {aim : Pool → Finset String → Finset String}

theorem steers_pure (value : α) : Steers D faults clusters (pure value) [] aim where
  still _ _ _ := tracks_pure value
  stops s done rest h := by
    obtain ⟨rfl, rfl⟩ := List.append_eq_nil_iff.mp h.symm
    exact ⟨_, .refl _, fun _ => rfl⟩
  completes s := ⟨s, value, .refl _, fun _ => rfl⟩
  marks := marks_of_unchanging (allCalls_pure _ _)

/-- A single turn. -/
theorem steers_turn {p : DnsProgram α} {pool : Pool}
    (hstill : ∀ r current, (pool.record = r → aim pool current = current) →
      Tracks D faults {clusters} r ∅ (· = current) p current current)
    (hcompletes : ∀ s, ∃ t value,
      Reaches (D.Answers faults {clusters}) (p, s) (.done (.ok value), t) ∧
        ∀ r, D.members t r = moved aim r (D.members s r) pool)
    (hmarks : Marks D faults clusters p) : Steers D faults clusters p [pool] aim where
  still r current h := hstill r current (h pool (by simp))
  stops s done rest h := by
    cases done with
    | nil => exact ⟨_, .refl _, fun _ => rfl⟩
    | cons first done =>
        obtain ⟨rfl, htail⟩ := List.cons.inj h
        obtain ⟨rfl, -⟩ := List.append_eq_nil_iff.mp htail.symm
        obtain ⟨t, value, hreach, hmembers⟩ := hcompletes s
        exact ⟨_, hreach, hmembers⟩
  completes := hcompletes
  marks := hmarks

theorem Steers.bind {p : DnsProgram α} {f : α → DnsProgram β}
    (hp : Steers D faults clusters p pools aim)
    (hf : ∀ a, Steers D faults clusters (f a) rest aim) :
    Steers D faults clusters (p >>= f) (pools ++ rest) aim where
  still r current h :=
    (hp.still r current fun pool hpool => h pool (List.mem_append_left _ hpool)).bind fun a =>
      (hf a).still r current fun pool hpool => h pool (List.mem_append_right _ hpool)
  stops s done left h := by
    rcases List.append_eq_append_iff.mp h with ⟨more, rfl, hrest⟩ | ⟨more, hpools, -⟩
    · obtain ⟨t, a, hreach, hmembers⟩ := hp.completes s
      obtain ⟨c, hc, hmembers'⟩ := (hf a).stops t more left hrest
      refine ⟨c, (hreach.bind f).trans hc, fun r => ?_⟩
      rw [hmembers', hmembers, List.foldl_append]
    · obtain ⟨c, hc, hmembers⟩ := hp.stops s done more hpools
      exact ⟨_, hc.bind f, hmembers⟩
  completes s := by
    obtain ⟨t, a, hreach, hmembers⟩ := hp.completes s
    obtain ⟨u, b, hreach', hmembers'⟩ := (hf a).completes t
    refine ⟨u, b, (hreach.bind f).trans hreach', fun r => ?_⟩
    rw [hmembers', hmembers, List.foldl_append]
  marks := hp.marks.bind fun a => (hf a).marks

theorem Steers.andPure {p : DnsProgram α} {f : α → β} (hp : Steers D faults clusters p pools aim) :
    Steers D faults clusters (p >>= fun a => pure (f a)) pools aim := by
  have h := hp.bind fun a => steers_pure (f a)
  rwa [List.append_nil] at h

theorem Steers.map {p : DnsProgram α} (f : α → β) (hp : Steers D faults clusters p pools aim) :
    Steers D faults clusters (f <$> p) pools aim := by
  rw [map_eq_bind]
  exact hp.andPure

theorem steers_each {body : Pool → DnsProgram α}
    (h : ∀ pool ∈ pools, Steers D faults clusters (body pool) [pool] aim) :
    Steers D faults clusters (each pools body) pools aim := by
  induction pools with
  | nil => exact steers_pure []
  | cons pool pools ih =>
      obtain ⟨hpool, hpools⟩ := List.forall_mem_cons.mp h
      exact hpool.bind fun _ => (ih hpools).andPure

theorem reaches_probeFleet (s : D.State) :
    Reaches (D.Answers faults {clusters}) (probeFleet, s) (.done (.ok clusters), s) :=
  Reaches.call (.probe s (Set.mem_singleton clusters))

/-- A probe moves nothing, and finds what the turns behind it aim by. -/
theorem steers_probeFleet {f : List ClusterStatus → DnsProgram α}
    (hf : Steers D faults clusters (f clusters) pools aim) :
    Steers D faults clusters (probeFleet >>= f) pools aim where
  still r current h := by
    refine tracks_probeFleet (Finset.sdiff_empty ..) fun found hfound => ?_
    rw [Set.mem_singleton_iff.mp hfound]
    exact hf.still r current h
  stops s done left h := by
    obtain ⟨c, hc, hmembers⟩ := hf.stops s done left h
    exact ⟨c, ((reaches_probeFleet s).bind f).trans hc, hmembers⟩
  completes s := by
    obtain ⟨t, value, hreach, hmembers⟩ := hf.completes s
    exact ⟨t, value, ((reaches_probeFleet s).bind f).trans hreach, hmembers⟩
  marks := by
    intro s
    refine Within.bind (fun found _ => found = clusters) (fun _ => rfl) ?_ fun found t hfound => ?_
    · refine @Within.perform dnsSignature _ _ _ _ _ .probe (fun _ => True) _ _ trivial
        (fun _ _ _ _ => trivial) fun t answer u _ hstep => ⟨?_, fun v _ => ?_⟩
      · exact fun r hne => absurd (members_eq_of_answers (fun _ => id) hstep) hne
      · cases hstep with
        | probe _ hfound => exact Set.mem_singleton_iff.mp hfound
        | refused => trivial
    · rw [hfound]
      exact hf.marks t

end Ownership

/-! ## The turns of a pass -/

section Pass

variable {D : LawfulDriver} {faults : Prop} {clusters : List ClusterStatus}

/-- Where a pass wants the record of a pool. -/
def watchAim (fleet : Fleet) (clusters : List ClusterStatus) (dryRun : Bool) (pool : Pool)
    (current : Finset String) : Finset String :=
  if dryRun = true then current
  else Reconcile.target current (poolHosts fleet pool) (poolDesired fleet clusters pool)

/-- A turn whose record is where the pass wants it only reads and reports. -/
theorem tracks_watchPool_still (a : AcceptedFleet) {audit dryRun : Bool} {pool : Pool}
    (hp : pool ∈ a.fleet.pools) {r : String} {current : Finset String}
    (h : pool.record = r → watchAim a.fleet clusters dryRun pool current = current) :
    Tracks D faults {clusters} r ∅ (· = current)
      (watchPool (nodeIps a.fleet) (statusByName clusters) audit dryRun pool) current current := by
  have hkeep : current \ ∅ = current := Finset.sdiff_empty ..
  have hsub := poolDesired_subset a.fleet clusters pool
  rw [a.watchPool_eq clusters audit dryRun hp]
  refine tracks_listMembers hkeep fun listed hlisted => Tracks.bind ?_ fun _ => tracks_pure _
  rw [applyTurn_eq hsub]
  split
  · exact tracks_recordAudit hkeep
  split
  · exact tracks_pure ()
  · rename_i hbusy
    obtain ⟨hmoves, hexec⟩ := not_or.mp hbusy
    refine tracks_reconcilePool_of_ne (fun hr => hmoves ?_) hkeep
    have hread : listed.toFinset = current := by simpa using hlisted hr
    simpa [watchAim, hexec, hread] using h hr

theorem marks_applyTurn {fleet : Fleet} {audit dryRun : Bool} {pool : Pool}
    {current : Finset String} :
    Marks D faults clusters (applyTurn audit dryRun pool (poolHosts fleet pool)
      (poolDesired fleet clusters pool) current) := by
  have haudit : ∀ {on : Bool} {event : AuditEvent},
      Marks D faults clusters (recordAudit on event) :=
    marks_of_unchanging (allCalls_recordAudit fun _ _ => id)
  rw [applyTurn_eq (poolDesired_subset fleet clusters pool)]
  split
  · exact haudit
  split
  · exact marks_of_unchanging (allCalls_pure _ _)
  · refine marks_ensureMarker ?_
    refine AllCalls.bind (AllCalls.each fun ip _ => ?_) fun _ => ?_
    · exact allCalls_driverCall fun r x hchange => hchange.1.symm
    refine AllCalls.bind (AllCalls.each fun ip _ => ?_) fun _ => ?_
    · exact allCalls_driverCall fun r x hchange => hchange.1.symm
    · exact allCalls_recordAudit fun _ _ => False.elim

theorem steers_watchPool (a : AcceptedFleet) (audit dryRun : Bool) {pool : Pool}
    (hp : pool ∈ a.fleet.pools) :
    Steers D faults clusters
      (watchPool (nodeIps a.fleet) (statusByName clusters) audit dryRun pool) [pool]
      (watchAim a.fleet clusters dryRun) := by
  refine steers_turn (fun r current => tracks_watchPool_still a hp) (fun s => ?_) ?_
  · cases dryRun with
    | true =>
        have hidle : Idles D clusters _ s _ := idles_watchPool a audit true hp (.inl rfl)
        have hleaves : Leaves D clusters _ s _ (D.view s) :=
          ⟨hidle.result, congrArg D.view hidle.final⟩
        obtain ⟨t, hreach, hview⟩ := hleaves.completes faults
        refine ⟨t, _, hreach, fun r => ?_⟩
        rw [← D.view_members, hview, moved]
        split <;> rfl
    | false =>
        obtain ⟨t, hreach, hview⟩ := (leaves_watchPool a audit hp rfl).completes faults
        refine ⟨t, _, hreach, fun r => ?_⟩
        rw [← D.view_members, hview, turn_members]
        rfl
  · rw [a.watchPool_eq clusters audit dryRun hp]
    have hread : Marks D faults clusters (driverCall (.listMembers pool.record)) :=
      marks_of_unchanging (allCalls_driverCall fun _ _ => id)
    exact hread.bind fun _ => marks_applyTurn.bind fun _ => marks_of_unchanging (allCalls_pure _ _)

theorem steers_watchOnce (a : AcceptedFleet) (audit dryRun : Bool) :
    Steers D faults clusters (watchOnce a.fleet audit dryRun) a.fleet.pools
      (watchAim a.fleet clusters dryRun) := by
  unfold watchOnce
  by_cases hpools : a.fleet.pools = []
  · rw [if_pos hpools, hpools]
    exact steers_pure _
  · rw [if_neg hpools]
    exact steers_probeFleet (steers_each fun pool hp => steers_watchPool a audit dryRun hp).andPure

end Pass

/-! ## The turns of an override -/

section Override

variable {D : LawfulDriver} {faults : Prop} {clusters : List ClusterStatus}
  {action : OverrideAction} {nodeName ip : String} {confirm audit : Bool} {pool : Pool}

/-- Where an override wants a record. -/
def overrideAim (action : OverrideAction) (ip : String) (confirm : Bool)
    (current : Finset String) : Finset String :=
  if confirm = true ∧ (action = .eject → current ≠ {ip}) then action.apply ip current else current

theorem tracks_applyOverride_still {r : String} {current : Finset String}
    (h : pool.record = r → action.apply ip current = current) :
    Tracks D faults {clusters} r ∅ (· = current) (applyOverride action ip pool)
      current current := by
  have hkeep : current \ ∅ = current := Finset.sdiff_empty ..
  have hcall : Tracks D faults {clusters} r ∅ (· = current)
      (driverCall (action.call pool ip)) current current := by
    by_cases hr : pool.record = r
    · refine tracks_driverCall hkeep hkeep fun s hs => ?_
      rw [LawfulDriver.visible, Finset.sdiff_empty, Finset.sdiff_empty] at hs ⊢
      rw [D.members_perform, effect_call, hr, Function.update_self, hs, h hr]
    · exact tracks_frame hkeep fun x hchange => hr (action.changes_call hchange).1
  exact (tracks_frame hkeep fun _ => id).bind fun _ =>
    hcall.bind fun _ => tracks_frame hkeep fun _ => id

theorem tracks_overridePool_still {r : String} {current : Finset String}
    (h : pool.record = r → overrideAim action ip confirm current = current) :
    Tracks D faults {clusters} r ∅ (· = current)
      (overridePool action nodeName ip confirm audit pool) current current := by
  have hkeep : current \ ∅ = current := Finset.sdiff_empty ..
  refine tracks_listMembers hkeep fun listed hlisted => Tracks.bind ?_ fun now =>
    (tracks_recordAudit hkeep).bind fun _ => tracks_pure _
  unfold GateRequest.guard
  split
  · rename_i hopens
    rw [map_eq_bind]
    refine (tracks_applyOverride_still fun hr => ?_).bind fun _ => tracks_pure _
    have hread : listed.toFinset = current := by simpa using hlisted hr
    rw [overrideRequest_opens_iff, hread] at hopens
    simpa only [overrideAim, if_pos hopens] using h hr
  · exact tracks_pure none

theorem marks_overridePool :
    Marks D faults clusters (overridePool action nodeName ip confirm audit pool) := by
  have hread : Marks D faults clusters (driverCall (.listMembers pool.record)) :=
    marks_of_unchanging (allCalls_driverCall fun _ _ => id)
  refine hread.bind fun listed => Marks.bind ?_ fun now =>
    Marks.bind (marks_of_unchanging (allCalls_recordAudit fun _ _ => id)) fun _ =>
      marks_of_unchanging (allCalls_pure _ _)
  unfold GateRequest.guard
  split
  · rw [map_eq_bind]
    refine Marks.bind (marks_ensureMarker ?_) fun _ => marks_of_unchanging (allCalls_pure _ _)
    refine AllCalls.bind (allCalls_driverCall fun r x hchange => ?_) fun _ => ?_
    · exact (action.changes_call hchange).1.symm
    · exact allCalls_driverCall fun _ _ => False.elim
  · exact marks_of_unchanging (allCalls_pure _ _)

theorem override_members (v : DnsView) (r : String) :
    (v.override action ip confirm pool).members r =
      moved (fun _ => overrideAim action ip confirm) r (v.members r) pool := by
  unfold moved
  by_cases hr : pool.record = r
  · subst hr
    rw [if_pos rfl]
    dsimp only [DnsView.override, overrideAim]
    split
    · exact Function.update_self ..
    · rfl
  · rw [if_neg hr, DnsView.override]
    split
    · exact Function.update_of_ne (Ne.symm hr) ..
    · rfl

theorem steers_overridePool :
    Steers D faults clusters (overridePool action nodeName ip confirm audit pool) [pool]
      (fun _ => overrideAim action ip confirm) := by
  refine steers_turn (fun r current => tracks_overridePool_still) (fun s => ?_) marks_overridePool
  obtain ⟨entry, hentry⟩ : ∃ entry, Leaves D clusters
      (overridePool action nodeName ip confirm audit pool) s entry _ :=
    leaves_overridePool action nodeName ip confirm audit pool rfl
  obtain ⟨t, hreach, hview⟩ := hentry.completes faults
  refine ⟨t, entry, hreach, fun r => ?_⟩
  rw [← D.view_members, hview, override_members, D.view_members]

theorem steers_dnsOverride {fleet : Fleet} {found : String × Cluster × Node}
    (hfound : fleet.findNode nodeName = some found) (record : Option String) :
    Steers D faults clusters (dnsOverride fleet nodeName action record confirm audit)
      (poolsForNode fleet nodeName record)
      (fun _ => overrideAim action found.2.2.host confirm) := by
  simp only [dnsOverride, hfound]
  split
  · rename_i hpools
    rw [hpools]
    exact steers_pure _
  · exact (steers_each fun _ _ => steers_overridePool).andPure

end Override

/-! ## When ownership is respected -/

/-- The request is not a dry run. -/
def DnsRequest.Executes : DnsRequest → Prop
  | .watch _ dryRun => dryRun = false
  | .eject _ _ confirm _ | .restore _ _ confirm _ => confirm = true

/-- No member is in the record that is to be ejected and none is missing that is not, or
all members fail. -/
def Pool.Settled (fleet : Fleet) (clusters : List ClusterStatus) (pool : Pool)
    (current : Finset String) : Prop :=
  poolDesired fleet clusters pool = ∅ ∨
    ∀ ip ∈ poolHosts fleet pool, ip ∈ current ↔ ip ∈ poolDesired fleet clusters pool

/-- An eject does not find the address, or finds no other; a restore finds it. -/
def OverrideAction.Settled (ip : String) (current : Finset String) : OverrideAction → Prop
  | .eject => ip ∈ current → current = {ip}
  | .restore => ip ∈ current

def OverrideSettled (fleet : Fleet) (action : OverrideAction) (nodeName : String)
    (record : Option String) (r : String) (current : Finset String) : Prop :=
  ∀ found, fleet.findNode nodeName = some found →
    ∀ pool ∈ poolsForNode fleet nodeName record, pool.record = r →
      action.Settled found.2.2.host current

/-- With these addresses in the record, the request has nothing to change in it. -/
def DnsRequest.Settled (fleet : Fleet) (clusters : List ClusterStatus) (r : String)
    (current : Finset String) : DnsRequest → Prop
  | .watch _ _ => ∀ pool ∈ fleet.pools, pool.record = r → pool.Settled fleet clusters current
  | .eject nodeName record _ _ => OverrideSettled fleet .eject nodeName record r current
  | .restore nodeName record _ _ => OverrideSettled fleet .restore nodeName record r current

theorem watchAim_eq_self_iff {fleet : Fleet} {clusters : List ClusterStatus} {dryRun : Bool}
    {pool : Pool} {current : Finset String} :
    watchAim fleet clusters dryRun pool current = current ↔
      (dryRun = false → pool.Settled fleet clusters current) := by
  cases dryRun with
  | true => simp [watchAim]
  | false =>
      rw [watchAim, if_neg Bool.false_ne_true,
        Reconcile.target_eq_self_iff_agree (poolDesired_subset fleet clusters pool)]
      simp [Pool.Settled]

theorem overrideAim_eq_self_iff {action : OverrideAction} {ip : String} {confirm : Bool}
    {current : Finset String} :
    overrideAim action ip confirm current = current ↔
      (confirm = true → action.Settled ip current) := by
  unfold overrideAim
  cases action with
  | eject =>
      by_cases hlast : current = {ip}
      · simp [OverrideAction.Settled, hlast]
      · simp [OverrideAction.Settled, OverrideAction.apply, hlast]
  | restore => simp [OverrideAction.Settled, OverrideAction.apply]

section Respects

variable (D : LawfulDriver) (faults : Prop) (clusters : List ClusterStatus) (s : D.State)

theorem respects_override_iff (fleet : Fleet) (action : OverrideAction)
    (nodeName : String) (record : Option String) (confirm audit : Bool)
    (f : OverrideResult → Unit) :
    RespectsOwnership D faults clusters
        (f <$> dnsOverride fleet nodeName action record confirm audit) s ↔
      (confirm = true → ∀ r, D.Unowned s r →
        OverrideSettled fleet action nodeName record r (D.members s r)) := by
  cases hfound : fleet.findNode nodeName with
  | none =>
      have hpure : Steers D faults clusters
          (f <$> dnsOverride fleet nodeName action record confirm audit) [] (fun _ => id) := by
        simp only [dnsOverride, hfound]
        exact (steers_pure _).map f
      rw [hpure.respects_iff]
      simp [OverrideSettled, hfound]
  | some found =>
      rw [((steers_dnsOverride hfound record).map f).respects_iff]
      simp only [overrideAim_eq_self_iff, OverrideSettled, hfound, Option.some_inj]
      constructor
      · rintro h hconfirm r hr _ rfl pool hp hrecord
        exact h r hr pool hp hrecord hconfirm
      · intro h r hr pool hp hrecord hconfirm
        exact h hconfirm r hr found rfl pool hp hrecord

theorem respects_program_iff (a : AcceptedFleet) (request : DnsRequest) :
    RespectsOwnership D faults clusters (request.program a.fleet) s ↔
      (request.Executes → ∀ r, D.Unowned s r →
        request.Settled a.fleet clusters r (D.members s r)) := by
  cases request with
  | watch audit dryRun =>
      have hsteers : Steers D faults clusters
          ((fun _ => ()) <$> watchOnce a.fleet audit dryRun) a.fleet.pools
            (watchAim a.fleet clusters dryRun) := (steers_watchOnce a audit dryRun).map _
      rw [DnsRequest.program, hsteers.respects_iff]
      simp only [watchAim_eq_self_iff, DnsRequest.Executes, DnsRequest.Settled]
      constructor
      · exact fun h hexec r hr pool hp hrecord => h r hr pool hp hrecord hexec
      · exact fun h r hr pool hp hrecord hexec => h hexec r hr pool hp hrecord
  | eject nodeName record confirm audit =>
      exact respects_override_iff D faults clusters s a.fleet .eject ..
  | restore nodeName record confirm audit =>
      exact respects_override_iff D faults clusters s a.fleet .restore ..

/-- An operation respects ownership exactly when it has nothing to change in any record
that holds addresses and no marker. -/
theorem AcceptedFleet.respectsOwnership_iff (a : AcceptedFleet) (request : DnsRequest) :
    RespectsOwnership D faults clusters (request.program a.fleet) s ↔
      (request.Executes → ∀ r, D.Unowned s r →
        request.Settled a.fleet clusters r (D.members s r)) :=
  respects_program_iff D faults clusters s a request

end Respects

/-- The record of the pool holds `a` and a foreign address and was never marked; `a` fails,
and the pass replaces it. -/
theorem unmarked_record_changed :
    ¬ ∀ (D : LawfulDriver) (a : AcceptedFleet) (clusters : List ClusterStatus)
      (request : DnsRequest), request.Executes → ∀ s : D.State,
        RespectsOwnership D False clusters (request.program a.fleet) s := by
  intro h
  have hrespects := h inMemoryDnsDriver pairFleet (probeWith ["b"]) (.watch false false) rfl
    (pairState {"10.0.0.1", "9.9.9.9"})
  have hsettled := (steers_watchOnce pairFleet false false).map (fun _ => ())
    |>.respects_iff _ |>.mp hrespects "rpc.example.com" ⟨by decide, by decide⟩ pairPool
      (by decide) rfl
  exact absurd hsettled (by decide)

end Solfleet
