import Solfleet.Failover.NeverEmpty

/-! # Two operations on one record

A pass or an eject reads a record, decides, and acts in later calls. What two of
them running at once can leave of a record, and when it is nothing: the schedule
that empties it lets one client pass its last-address guard, and the other finish,
before the first removes.
-/

namespace Solfleet

open Interaction Program

/-! ## An override through its view -/

/-- The set an override leaves of the one it finds. -/
def OverrideAction.apply (action : OverrideAction) (ip : String) (current : Finset String) :
    Finset String :=
  match action with
  | .eject => current.erase ip
  | .restore => insert ip current

/-- What one override does to the records. -/
def DnsView.override (v : DnsView) (action : OverrideAction) (ip : String) (confirm : Bool)
    (pool : Pool) : DnsView :=
  if confirm = true ∧ (action = .eject → v.members pool.record ≠ {ip}) then
    { members := Function.update v.members pool.record (action.apply ip (v.members pool.record))
      marked := Function.update v.marked pool.record true }
  else v

section Override

variable {D : LawfulDriver} {clusters : List ClusterStatus} {s : D.State} {α β : Type}

/-- The value of the second half may depend on the state the first one left. -/
theorem Leaves.bind_where {Q : β → Prop} {p : DnsProgram α} {f : α → DnsProgram β} {a : α}
    {v w : DnsView} (hp : Leaves D clusters p s a v)
    (hf : ∀ t, D.view t = v → ∃ b, Q b ∧ Leaves D clusters (f a) t b w) :
    ∃ b, Q b ∧ Leaves D clusters (p >>= f) s b w := by
  obtain ⟨b, hq, hb⟩ := hf _ hp.view
  refine ⟨b, hq, ?_, ?_⟩
  · rw [exec_bind_ok hp.result]
    exact hb.result
  · rw [exec_bind_ok hp.result]
    exact hb.view

theorem effect_call (action : OverrideAction) (pool : Pool) (ip : String)
    (a : String → Finset String) :
    LawfulDriver.effect (action.call pool ip) a =
      Function.update a pool.record (action.apply ip (a pool.record)) := by
  cases action <;> rfl

theorem leaves_applyOverride {v : DnsView} (action : OverrideAction) (ip : String) (pool : Pool)
    (hv : D.view s = v) :
    ∃ listed, List.toFinset listed = action.apply ip (v.members pool.record) ∧
      Leaves D clusters (applyOverride action ip pool) s listed
        { members := Function.update v.members pool.record (action.apply ip (v.members pool.record))
          marked := Function.update v.marked pool.record true } := by
  subst hv
  refine (leaves_driverCall (.ensureMarker pool.record)).bind_where fun t ht => ?_
  have hmembers : D.members t = D.members s :=
    (congrArg DnsView.members ht).trans (D.members_ensure s pool.record)
  have hmarked : D.hasMarker t = Function.update (D.hasMarker s) pool.record true :=
    (congrArg DnsView.marked ht).trans (D.marker_ensure s pool.record)
  have hchanged : D.members (D.perform t (action.call pool ip)).2 =
      Function.update (D.members s) pool.record (action.apply ip (D.members s pool.record)) := by
    rw [D.members_perform, effect_call, hmembers]
  refine (leaves_driverCall (action.call pool ip)).bind_where fun u hu => ⟨_, ?_, rfl, hu.trans ?_⟩
  · show D.members u pool.record = _
    rw [show D.members u = _ from congrArg DnsView.members hu, D.view_members, hchanged,
      Function.update_self]
    rfl
  · ext1
    · exact hchanged
    · rw [← show D.hasMarker (D.perform t (action.call pool ip)).2 = D.hasMarker t from ?_]
        at hmarked
      · exact hmarked
      · cases action with
        | eject => exact D.marker_remove t pool.record ip
        | restore => exact D.marker_add t pool.record ip pool.ttl

/-- What the entry of a pool says of the record it found. -/
structure EntryOf (action : OverrideAction) (nodeName ip : String) (confirm : Bool) (pool : Pool)
    (current : Finset String) (entry : OverrideEntry) : Prop where
  record : entry.record = pool.record
  decision : entry.decision = gate (overrideRequest action nodeName ip pool current) confirm
  allowed : entry.decision.allowed = true ↔ (action = .eject → current ≠ {ip})
  membersNow : entry.membersNow.map List.toFinset =
    if confirm = true ∧ (action = .eject → current ≠ {ip}) then some (action.apply ip current)
    else none

theorem overrideRequest_allowed_iff {action : OverrideAction} {nodeName ip : String} {pool : Pool}
    {current : Finset String} {confirm : Bool} :
    (gate (overrideRequest action nodeName ip pool current) confirm).allowed = true ↔
      (action = .eject → current ≠ {ip}) := by
  have hopens : (overrideRequest action nodeName ip pool current).Opens true ↔
      true = true ∧ (action = .eject → current ≠ {ip}) := overrideRequest_opens_iff
  simpa [GateRequest.Opens, gate] using hopens

theorem leaves_overridePool_entry {v : DnsView} (action : OverrideAction) (nodeName ip : String)
    (confirm audit : Bool) (pool : Pool) (hv : D.view s = v) :
    ∃ entry, EntryOf action nodeName ip confirm pool (v.members pool.record) entry ∧
      Leaves D clusters (overridePool action nodeName ip confirm audit pool) s entry
        (v.override action ip confirm pool) := by
  subst hv
  refine (leaves_driverCall (.listMembers pool.record)).bind_where fun t ht => ?_
  have hlisted : (D.perform s (.listMembers pool.record)).1.toFinset =
      (D.view s).members pool.record := rfl
  rw [hlisted]
  dsimp only
  have hguard : ∃ now : Option (List String),
      now.map List.toFinset =
        (if confirm = true ∧ (action = .eject → (D.view s).members pool.record ≠ {ip}) then
          some (action.apply ip ((D.view s).members pool.record)) else none) ∧
      Leaves D clusters
        ((overrideRequest action nodeName ip pool ((D.view s).members pool.record)).guard confirm
          (applyOverride action ip pool)) t now ((D.view s).override action ip confirm pool) := by
    unfold GateRequest.guard DnsView.override
    simp only [overrideRequest_opens_iff]
    split
    · obtain ⟨listed, hset, hleaves⟩ : ∃ listed, List.toFinset listed = _ ∧
          Leaves D clusters _ t listed _ := leaves_applyOverride action ip pool ht
      exact ⟨some listed, congrArg some hset, (map_eq_bind some (applyOverride action ip pool)) ▸
        hleaves.bind fun u hu => leaves_pure _ hu⟩
    · exact ⟨none, rfl, leaves_pure _ ht⟩
  obtain ⟨now, hnow, hleaves⟩ := hguard
  exact hleaves.bind_where fun u hu => ⟨_, ⟨rfl, rfl, overrideRequest_allowed_iff, hnow⟩,
    (leaves_recordAudit _ _).bind fun x hx => leaves_pure _ (hx.trans hu)⟩

theorem leaves_overridePool {v : DnsView} (action : OverrideAction) (nodeName ip : String)
    (confirm audit : Bool) (pool : Pool) (hv : D.view s = v) :
    ∃ entry, Leaves D clusters (overridePool action nodeName ip confirm audit pool) s entry
      (v.override action ip confirm pool) := by
  obtain ⟨entry, -, hentry⟩ : ∃ entry, _ ∧ Leaves D clusters _ s entry _ :=
    leaves_overridePool_entry action nodeName ip confirm audit pool hv
  exact ⟨entry, hentry⟩

end Override

/-! ## The calls of an eject -/

/-- An eject of `nodeName` has a turn on the record `r`, where it removes `h`. -/
def Ejects (fleet : Fleet) (nodeName : String) (filter : Option String) (r h : String) : Prop :=
  ∃ found, fleet.findNode nodeName = some found ∧ found.2.2.host = h ∧
    ∃ pool ∈ poolsForNode fleet nodeName filter, pool.record = r

theorem Ejects.unique {fleet : Fleet} {nodeName : String} {filter : Option String}
    {r h h' : String} (hx : Ejects fleet nodeName filter r h)
    (hy : Ejects fleet nodeName filter r h') : h = h' := by
  obtain ⟨found, hfound, rfl, -⟩ := hx
  obtain ⟨found', hfound', rfl, -⟩ := hy
  rw [hfound] at hfound'
  rw [Option.some_inj.mp hfound']

theorem allCalls_dnsEject {fleet : Fleet} {nodeName : String} {filter : Option String}
    {confirm audit : Bool} (r : String) :
    AllCalls (S := dnsSignature)
      (fun op => ∀ x, op.Changes r x → Ejects fleet nodeName filter r x)
      (dnsEject fleet nodeName filter confirm audit) := by
  refine allCalls_dnsOverride fun found hfound pool hp => ?_
  refine allCalls_overridePool (fun _ _ => False.elim) (fun _ => False.elim) (fun _ => False.elim)
    fun x hchange => ?_
  obtain ⟨hr, rfl⟩ := OverrideAction.eject.changes_call hchange
  exact ⟨found, hfound, rfl, pool, hp, hr⟩

/-- The effect adds no address. -/
def DnsEffect.AddsNothing (op : DnsEffect) : Prop :=
  ∀ record ip ttl, op ≠ .driver (.addMember record ip ttl)

theorem overridePool_eject_addsNothing (nodeName ip : String) (confirm audit : Bool) (pool : Pool) :
    AllCalls (S := dnsSignature) DnsEffect.AddsNothing
      (overridePool .eject nodeName ip confirm audit pool) :=
  allCalls_overridePool (fun _ _ _ _ h => by cases h) (fun _ _ _ h => by cases h)
    (fun _ _ _ h => by cases h) (fun _ _ _ h => by cases h)

section Guard

variable {D : LawfulDriver} {faults : Prop} {clusters : List ClusterStatus} {r h : String}
  {α β : Type}

theorem members_subset_of_answers {probes : Set (List ClusterStatus)} {s t : D.State}
    {op : DnsEffect} {answer : Except Exn op.Answer} (hop : op.AddsNothing)
    (step : D.Answers faults probes s op answer t) (r : String) :
    D.members t r ⊆ D.members s r := by
  rcases step.state_cases with rfl | ⟨c, rfl, rfl⟩
  · exact subset_rfl
  rw [D.members_perform]
  cases c with
  | listMembers | hasMarker | ensureMarker => exact subset_rfl
  | addMember record ip ttl => exact absurd rfl (hop record ip ttl)
  | removeMember record ip =>
      by_cases hr : r = record
      · subst hr
        simpa [LawfulDriver.effect] using Finset.erase_subset _ _
      · simp [LawfulDriver.effect, hr]

/-- A program that adds nothing can run to its end, and the record only shrinks. -/
theorem completes_of_addsNothing {p : DnsProgram α}
    (hp : AllCalls (S := dnsSignature) DnsEffect.AddsNothing p) (s : D.State) :
    ∃ result t, Reaches (D.Answers faults {clusters}) (p, s) (.done result, t) ∧
      D.members t r ⊆ D.members s r := by
  have hagree : ∀ op u, D.Answers faults {clusters} u op (D.handler clusters op u).1
      (D.handler clusters op u).2 := D.handler_answers (Set.mem_singleton clusters)
  have hexec := reaches_exec hagree p s
  refine ⟨_, _, hexec, ?_⟩
  exact hp.reaches (R := fun a b => D.members b r ⊆ D.members a r) (fun _ => subset_rfl)
    (fun _ _ _ hab hbc => hbc.trans hab)
    (fun _ _ _ _ hop hstep => members_subset_of_answers hop hstep r) hexec

variable (D faults clusters r h) in
/-- From here the program removes `h` from the record, whatever has happened to the
record since it was read. -/
def GuardPassed (p : DnsProgram α) : Prop :=
  ∀ s, ∃ result t, Reaches (D.Answers faults {clusters}) (p, s) (.done result, t) ∧
    D.members t r ⊆ (D.members s r).erase h

theorem GuardPassed.bind {p : DnsProgram α} {f : α → DnsProgram β}
    (hp : GuardPassed D faults clusters r h p)
    (hf : ∀ a, AllCalls (S := dnsSignature) DnsEffect.AddsNothing (f a)) :
    GuardPassed D faults clusters r h (p >>= f) := by
  intro s
  obtain ⟨result, t, hreach, hsub⟩ := hp s
  have hbind := hreach.bind f
  cases result with
  | error e => exact ⟨.error e, t, hbind, hsub⟩
  | ok a =>
      obtain ⟨result, u, hrest, hsub'⟩ := completes_of_addsNothing (hf a) t
      exact ⟨result, u, hbind.trans hrest, hsub'.trans hsub⟩

theorem guardPassed_applyOverride {pool : Pool} (hr : pool.record = r) :
    GuardPassed D faults clusters r h (applyOverride .eject h pool) := by
  intro s
  obtain ⟨listed, -, hleaves⟩ : ∃ listed, List.toFinset listed = _ ∧
      Leaves D clusters (applyOverride .eject h pool) s listed _ :=
    leaves_applyOverride .eject h pool rfl
  obtain ⟨t, hreach, hview⟩ := hleaves.completes faults
  refine ⟨_, t, hreach, ?_⟩
  subst hr
  have hmembers := congrFun (congrArg DnsView.members hview) pool.record
  simp only [D.view_members, Function.update_self] at hmembers
  exact hmembers.le

theorem guardPassed_guard {pool : Pool} {nodeName : String} {current : Finset String}
    (hr : pool.record = r) (hread : current ≠ {h}) :
    GuardPassed D faults clusters r h
      ((overrideRequest .eject nodeName h pool current).guard true
        (applyOverride .eject h pool)) := by
  rw [GateRequest.guard, if_pos (overrideRequest_opens_iff.mpr ⟨rfl, fun _ => hread⟩), map_eq_bind]
  exact (guardPassed_applyOverride hr).bind fun _ => allCalls_pure _ _

/-- Turns that include one on the record pass its guard while `h` is not the only
address there. -/
theorem turns_reach_guard {nodeName : String} (audit : Bool) {pools : List Pool}
    (hturn : ∃ pool ∈ pools, pool.record = r) {s : D.State} (hread : D.members s r ≠ {h}) :
    ∃ c, Reaches (D.Answers faults {clusters})
        (each pools (overridePool .eject nodeName h true audit), s) c ∧
      (D.members c.2 r = D.members s r ∧ GuardPassed D faults clusters r h c.1) := by
  induction pools generalizing s with
  | nil => simp at hturn
  | cons pool pools ih =>
      have htail : ∀ entry : OverrideEntry, AllCalls (S := dnsSignature) DnsEffect.AddsNothing
          (each pools (overridePool .eject nodeName h true audit) >>= fun rest =>
            pure (entry :: rest)) := fun entry =>
        AllCalls.bind (AllCalls.each fun q _ => overridePool_eject_addsNothing _ _ _ _ q)
          fun _ => allCalls_pure _ _
      rw [each_cons]
      by_cases hr : pool.record = r
      · unfold overridePool
        rw [bind_assoc]
        refine (leaves_driverCall (.listMembers pool.record)).reaches fun t ht =>
          ⟨_, .refl _, congrFun (congrArg DnsView.members ht) r, ?_⟩
        have hlisted : (D.perform s (.listMembers pool.record)).1.toFinset = D.members s r :=
          hr ▸ rfl
        rw [hlisted]
        dsimp only
        rw [bind_assoc]
        refine (guardPassed_guard hr hread).bind fun now => AllCalls.bind ?_ htail
        refine AllCalls.bind (allCalls_recordAudit fun _ _ _ h => ?_) fun _ => allCalls_pure _ _
        cases h
      · obtain ⟨entry, hentry⟩ : ∃ entry, Leaves D clusters
            (overridePool .eject nodeName h true audit pool) s entry _ :=
          leaves_overridePool .eject nodeName h true audit pool rfl
        refine hentry.reaches fun t ht => ?_
        have hmembers : D.members t r = D.members s r := by
          rw [← D.view_members, ht, DnsView.override]
          split <;> simp [D.view_members, Ne.symm hr]
        have hrest : ∃ q ∈ pools, q.record = r := by
          obtain ⟨q, hq, hqr⟩ := hturn
          rcases List.mem_cons.mp hq with rfl | hq
          · exact absurd hqr hr
          · exact ⟨q, hq, hqr⟩
        obtain ⟨c, hc, hsame, hpassed⟩ := ih hrest (hmembers ▸ hread)
        refine ⟨_, hc.bind _, hsame.trans hmembers, ?_⟩
        exact hpassed.bind fun rest => allCalls_pure _ _

variable (faults clusters) in
theorem eject_reaches_guard (audit : Bool) {fleet : Fleet} {nodeName : String}
    {filter : Option String} {s : D.State} (hejects : Ejects fleet nodeName filter r h)
    (hread : D.members s r ≠ {h}) :
    ∃ c, Reaches (D.Answers faults {clusters})
        ((DnsRequest.eject nodeName filter true audit).program fleet, s) c ∧
      (D.members c.2 r = D.members s r ∧ GuardPassed D faults clusters r h c.1) := by
  obtain ⟨found, hfound, rfl, hturn⟩ := hejects
  have hsome : poolsForNode fleet nodeName filter ≠ [] := by
    obtain ⟨pool, hp, -⟩ := hturn
    exact List.ne_nil_of_mem hp
  obtain ⟨c, hc, hsame, hpassed⟩ := turns_reach_guard audit hturn hread
  rw [DnsRequest.program, map_eq_bind, dnsEject, dnsOverride, hfound]
  dsimp only
  rw [if_neg hsome]
  refine ⟨_, (hc.bind _).bind _, hsame, ?_⟩
  exact (hpassed.bind fun _ => allCalls_pure _ _).bind fun _ => allCalls_pure _ _

end Guard

/-! ## A record with one address -/

section Single

variable {D : LawfulDriver} {faults : Prop} {clusters : List ClusterStatus} {r h : String}

variable (D r h) in
def Single (s : D.State) : Prop := D.members s r = {h}

/-- What every client may rely on, and does, while the record has one address. -/
abbrev KeepsSingle (D : LawfulDriver) (faults : Prop) (clusters : List ClusterStatus)
    (r h : String) {α : Type} (p : DnsProgram α) : Prop :=
  ∀ s, Single D r h s → Within (D.Answers faults {clusters})
    (fun a b => Single D r h a → Single D r h b) (fun a b => Single D r h a → Single D r h b)
    (fun _ t => Single D r h t) p s

theorem keepsSingle_of_allCalls {α : Type} {p : DnsProgram α}
    (hp : AllCalls (S := dnsSignature)
      (fun op => ∀ x, op.Changes r x → x ≠ h ∧ op.AddsNothing) p) :
    KeepsSingle D faults clusters r h p := by
  intro s hs
  refine hp.within (fun _ _ ha hab => hab ha) (fun t op answer u ht hop hstep => ?_) hs
  suffices hu : Single D r h u from ⟨fun _ => hu, hu⟩
  ext x
  by_cases hx : op.Changes r x
  · obtain ⟨hne, hadds⟩ := hop x hx
    have hsub := members_subset_of_answers hadds hstep r
    rw [ht] at hsub
    exact ⟨fun h => hsub h, fun h => absurd (Finset.mem_singleton.mp h) hne⟩
  · rw [D.mem_iff_of_answers hx hstep, ht]

theorem KeepsSingle.bind {α β : Type} {p : DnsProgram α} {f : α → DnsProgram β}
    (hp : KeepsSingle D faults clusters r h p)
    (hf : ∀ a, KeepsSingle D faults clusters r h (f a)) :
    KeepsSingle D faults clusters r h (p >>= f) := by
  intro s hs
  refine Within.bind (fun _ t => Single D r h t) (fun _ => id) ((hp s hs).mono ?_)
    fun a t ht => hf a t ht
  intro result t ht
  cases result <;> exact ht

theorem keepsSingle_each {α β : Type} {xs : List β} {body : β → DnsProgram α}
    (hbody : ∀ x ∈ xs, KeepsSingle D faults clusters r h (body x)) :
    KeepsSingle D faults clusters r h (each xs body) :=
  fun _ hs => Within.each (fun _ => id) (fun _ _ ha hab => hab ha) hbody hs

theorem keepsSingle_listMembers {β : Type} {record : String} {f : List String → DnsProgram β}
    (hf : ∀ listed : List String, (record = r → listed.toFinset = {h}) →
      KeepsSingle D faults clusters r h (f listed)) :
    KeepsSingle D faults clusters r h (driverCall (.listMembers record) >>= f) := by
  intro s hs
  refine Within.bind (fun (listed : List String) t =>
    (record = r → listed.toFinset = {h}) ∧ Single D r h t) (fun _ => id) ?_
    fun listed t ht => hf listed ht.1 t ht.2
  refine @Within.perform dnsSignature _ _ _ _ _ (.driver (.listMembers record))
    (Single D r h) _ _ hs ?_ ?_
  · exact fun _ _ ha hab => hab ha
  intro t answer u ht hu
  cases hu with
  | driver _ c =>
      refine ⟨id, fun v hv => ⟨?_, hv ht⟩⟩
      rintro rfl
      exact ht
  | refused _ op e hfault => exact ⟨id, fun v hv => hv ht⟩
  | lost _ c e hfault => exact ⟨id, fun v hv => hv ht⟩

theorem keepsSingle_probeFleet {β : Type} {f : List ClusterStatus → DnsProgram β}
    (hf : KeepsSingle D faults clusters r h (f clusters)) :
    KeepsSingle D faults clusters r h (probeFleet >>= f) := by
  intro s hs
  refine Within.bind (fun (found : List ClusterStatus) t => found = clusters ∧ Single D r h t)
    (fun _ => id) ?_ fun found t ht => ht.1 ▸ hf t ht.2
  refine @Within.perform dnsSignature _ _ _ _ _ .probe (Single D r h) _ _ hs ?_ ?_
  · exact fun _ _ ha hab => hab ha
  intro t answer u ht hu
  cases hu with
  | probe _ found => exact ⟨id, fun v hv => ⟨found, hv ht⟩⟩
  | refused _ op e hfault => exact ⟨id, fun v hv => hv ht⟩

/-- An eject refuses the last address, and removing another one does nothing. -/
theorem keepsSingle_dnsEject {fleet : Fleet} {nodeName : String} {filter : Option String}
    {confirm audit : Bool} :
    KeepsSingle D faults clusters r h (dnsEject fleet nodeName filter confirm audit) := by
  unfold dnsEject dnsOverride
  cases hfound : fleet.findNode nodeName with
  | none => exact keepsSingle_of_allCalls trivial
  | some found =>
      dsimp only
      split
      · exact keepsSingle_of_allCalls trivial
      refine KeepsSingle.bind (keepsSingle_each fun pool _ => ?_) fun _ =>
        keepsSingle_of_allCalls trivial
      by_cases hturn : pool.record = r ∧ found.2.2.host = h
      · obtain ⟨rfl, rfl⟩ := hturn
        refine keepsSingle_listMembers fun listed hlisted => ?_
        rw [hlisted rfl]
        have hclosed : ¬ (overrideRequest .eject nodeName found.2.2.host pool
            {found.2.2.host}).Opens confirm := fun hopen =>
          (overrideRequest_opens_iff.mp hopen).2 rfl rfl
        dsimp only
        rw [GateRequest.guard, if_neg hclosed, pure_bind]
        refine keepsSingle_of_allCalls (AllCalls.bind (allCalls_recordAudit ?_) fun _ =>
          allCalls_pure _ _)
        exact fun _ => False.elim
      · refine keepsSingle_of_allCalls (allCalls_overridePool (fun _ _ => False.elim)
          (fun _ => False.elim) (fun _ => False.elim) fun x hchange => ?_)
        obtain ⟨hr, rfl⟩ := OverrideAction.eject.changes_call hchange
        exact ⟨fun hx => hturn ⟨hr, hx⟩, fun _ _ _ h => by cases h⟩

/-- A pass that keeps the only address at each of its turns leaves it alone. -/
theorem keepsSingle_watchOnce (a : AcceptedFleet) {audit dryRun : Bool}
    (hstay : ∀ pool ∈ a.fleet.pools, pool.record = r →
      dryRun = true ∨ Reconcile.target {h} (poolHosts a.fleet pool)
        (poolDesired a.fleet clusters pool) = {h}) :
    KeepsSingle D faults clusters r h (watchOnce a.fleet audit dryRun) := by
  unfold watchOnce
  split
  · exact keepsSingle_of_allCalls trivial
  refine keepsSingle_probeFleet (KeepsSingle.bind (keepsSingle_each fun pool hp => ?_)
    fun _ => keepsSingle_of_allCalls trivial)
  have hsub := poolDesired_subset a.fleet clusters pool
  rw [a.watchPool_eq clusters audit dryRun hp]
  refine keepsSingle_listMembers fun listed hlisted => KeepsSingle.bind ?_ fun _ =>
    keepsSingle_of_allCalls trivial
  by_cases hr : pool.record = r
  · rw [hlisted hr, applyTurn_eq hsub, if_pos (hstay pool hp hr).symm]
    split
    · exact keepsSingle_of_allCalls (allCalls_recordAudit fun _ => False.elim)
    · exact keepsSingle_of_allCalls trivial
  · refine keepsSingle_of_allCalls (allCalls_applyTurn hsub (fun _ _ => False.elim)
      (fun _ _ => False.elim) ?_ ?_)
    all_goals exact fun _ ip _ x hchange => absurd hchange.1 hr

end Single

/-! ## What a race can leave -/

/-- However the calls of the two operations interleave, none of them failing, once
both have completed the record has an address. -/
def RaceSafe (D : LawfulDriver) (fleet : Fleet) (clusters : List ClusterStatus)
    (first second : DnsRequest) (r : String) (s : D.State) : Prop :=
  ∀ c, Interleaves (D.Answers False {clusters})
    ⟨pair (first.program fleet) (second.program fleet), s⟩ c →
      c.Completed → (D.members c.state r).Nonempty

section Race

variable {D : LawfulDriver} {a : AcceptedFleet} {clusters : List ClusterStatus} {r : String}
  {s : D.State}

theorem raceSafe_of_single {h : String} {first second : DnsRequest} (hs : Single D r h s)
    (hfirst : KeepsSingle D False clusters r h (first.program a.fleet))
    (hsecond : KeepsSingle D False clusters r h (second.program a.fleet)) :
    RaceSafe D a.fleet clusters first second r s := by
  intro c hrun hdone
  have hclient : ∀ i, Within (D.Answers False {clusters})
      (fun b t => Single D r h b → Single D r h t) (fun b t => Single D r h b → Single D r h t)
      (fun _ t => Single D r h t) (pair (first.program a.fleet) (second.program a.fleet) i) s := by
    intro i
    cases i with
    | true => exact hfirst s hs
    | false => exact hsecond s hs
  have hposts := parallel_completed hclient hrun hdone
  obtain ⟨-, hlast⟩ := hposts (fun _ _ => id) (fun _ _ _ _ hab hbc hb => hbc (hab hb))
    (fun _ _ _ _ _ hab => hab) true
  exact ⟨h, hlast.symm ▸ Finset.mem_singleton_self h⟩

/-- An address that neither client ever removes survives. -/
theorem raceSafe_of_untouched {x : String} {first second : DnsRequest} (hx : x ∈ D.members s r)
    (hfirst : AllCalls (S := dnsSignature) (fun op => ¬ op.Changes r x) (first.program a.fleet))
    (hsecond : AllCalls (S := dnsSignature) (fun op => ¬ op.Changes r x)
      (second.program a.fleet)) :
    RaceSafe D a.fleet clusters first second r s := by
  intro c hrun _
  refine ⟨x, ?_⟩
  have hsame : x ∈ D.members c.state r ↔ x ∈ D.members s r :=
    AllCalls.interleaves (R := fun b t => (x ∈ D.members t r ↔ x ∈ D.members b r))
      (fun _ => Iff.rfl) (fun _ _ _ hab hbc => hbc.trans hab)
      (fun _ _ _ _ hop hstep => D.mem_iff_of_answers hop hstep)
      (fun i => by cases i <;> [exact hsecond; exact hfirst]) hrun
  exact hsame.mpr hx

theorem keepsSingle_eject {h nodeName : String} {filter : Option String} {confirm audit : Bool} :
    KeepsSingle D False clusters r h
      ((DnsRequest.eject nodeName filter confirm audit).program a.fleet) := by
  rw [DnsRequest.program, map_eq_bind]
  exact keepsSingle_dnsEject.bind fun _ => keepsSingle_of_allCalls trivial

theorem eject_unchanged {x nodeName : String} {filter : Option String} {confirm audit : Bool}
    (hx : ¬ Ejects a.fleet nodeName filter r x) :
    AllCalls (S := dnsSignature) (fun op => ¬ op.Changes r x)
      ((DnsRequest.eject nodeName filter confirm audit).program a.fleet) :=
  ((allCalls_dnsEject r).map _).mono fun _ hop hchange => hx (hop x hchange)

/-- Two ejects leave the record served unless they remove the two addresses it has. -/
theorem raceSafe_ejects {first second : String} {filter filter' : Option String}
    {audit audit' : Bool} (hne : (D.members s r).Nonempty)
    (hsafe : ∀ h h', Ejects a.fleet first filter r h → Ejects a.fleet second filter' r h' →
      h ≠ h' → D.members s r ≠ {h, h'}) :
    RaceSafe D a.fleet clusters (.eject first filter true audit)
      (.eject second filter' true audit') r s := by
  by_cases hsingle : ∃ h, D.members s r = {h}
  · obtain ⟨h, hs⟩ := hsingle
    exact raceSafe_of_single hs keepsSingle_eject keepsSingle_eject
  by_cases hfree : ∃ x ∈ D.members s r,
      ¬ Ejects a.fleet first filter r x ∧ ¬ Ejects a.fleet second filter' r x
  · obtain ⟨x, hx, hfirst, hsecond⟩ := hfree
    exact raceSafe_of_untouched hx (eject_unchanged hfirst) (eject_unchanged hsecond)
  exfalso
  simp only [not_exists, not_and, not_not] at hfree
  have hejected : ∀ x ∈ D.members s r,
      Ejects a.fleet first filter r x ∨ Ejects a.fleet second filter' r x :=
    fun x hx => or_iff_not_imp_left.mpr (hfree x hx)
  have hpair : ∀ x ∈ D.members s r, ∀ y ∈ D.members s r, x ≠ y →
      Ejects a.fleet first filter r x → Ejects a.fleet second filter' r y → False := by
    intro x hx y hy hxy hex hey
    refine hsafe x y hex hey hxy (Finset.ext fun z => ?_)
    rw [Finset.mem_insert, Finset.mem_singleton]
    constructor
    · exact fun hz => (hejected z hz).imp (fun hez => hez.unique hex) (fun hez => hez.unique hey)
    · rintro (rfl | rfl)
      · exact hx
      · exact hy
  obtain ⟨x, hx⟩ := hne
  obtain ⟨y, hy, hyx⟩ : ∃ y ∈ D.members s r, y ≠ x := by
    by_contra hall
    simp only [not_exists, not_and, not_not] at hall
    exact hsingle ⟨x, Finset.eq_singleton_iff_unique_mem.mpr ⟨hx, hall⟩⟩
  rcases hejected x hx, hejected y hy with ⟨hex | hex, hey | hey⟩
  · exact hyx (hey.unique hex)
  · exact hpair x hx y hy hyx.symm hex hey
  · exact hpair y hy x hx hyx hey hex
  · exact hyx (hey.unique hex)

/-- The set a pass alone leaves of a record. -/
def passGoal (fleet : Fleet) (clusters : List ClusterStatus) (r : String)
    (current : Finset String) : Finset String :=
  fleet.pools.foldl (recordTurn fleet clusters r) current

/-- A pass and an eject: what the record holds apart from the ejected address is what
the pass alone leaves. -/
theorem race_visible {nodeName : String} {filter : Option String} {audit audit' : Bool}
    (hidden : Finset String) (hhidden : ∀ h, Ejects a.fleet nodeName filter r h → h ∈ hidden)
    {c : Config dnsSignature Exn Unit D.State Bool}
    (hrun : Interleaves (D.Answers False {clusters})
      ⟨pair ((DnsRequest.watch audit false).program a.fleet)
        ((DnsRequest.eject nodeName filter true audit').program a.fleet), s⟩ c)
    (hdone : c.Completed) :
    D.visible r hidden c.state = passGoal a.fleet clusters r (D.members s r) \ hidden := by
  have hwatch : Tracks D False {clusters} r hidden (fun _ => True)
      ((DnsRequest.watch audit false).program a.fleet) (D.members s r)
      (passGoal a.fleet clusters r (D.members s r)) := by
    rw [DnsRequest.program, map_eq_bind]
    exact (tracks_watchOnce (fun _ _ _ => id) a trivial
      (removalsKeep_of_forall (fun _ => trivial) _ _ _)).bind fun _ => tracks_pure _
  have heject : AllCalls (S := dnsSignature) (fun op => ∀ x, op.Changes r x → x ∈ hidden)
      ((DnsRequest.eject nodeName filter true audit').program a.fleet) :=
    ((allCalls_dnsEject r).map _).mono fun _ hop x hchange => hhidden x (hop x hchange)
  have hclient : ∀ i, Within (D.Answers False {clusters})
      (fun b t => i = true → D.visible r hidden b = D.visible r hidden t)
      (fun b t => i = false → D.visible r hidden b = D.visible r hidden t)
      (fun result t => i = true →
        Ended D False r hidden (passGoal a.fleet clusters r (D.members s r)) result t)
      (pair ((DnsRequest.watch audit false).program a.fleet)
        ((DnsRequest.eject nodeName filter true audit').program a.fleet) i) s := by
    intro i
    cases i with
    | true =>
        exact ((hwatch s rfl).weaken (fun _ _ h => h rfl) fun _ _ _ h => by cases h).mono
          fun _ _ hpost _ => hpost
    | false =>
        refine (heject.within (I := fun _ => True) (fun _ _ _ _ => trivial)
          (fun b op answer t _ hop hstep => ⟨fun _ => ?_, trivial⟩) trivial).mono
          fun _ _ _ h => by cases h
        ext x
        simp only [LawfulDriver.visible, Finset.mem_sdiff]
        refine and_congr_left fun hx => (D.mem_iff_of_answers (fun hchange => ?_) hstep).symm
        exact hx (hop x hchange)
  have hposts := parallel_completed hclient hrun hdone
  obtain ⟨result, hresult⟩ := hposts (fun _ _ _ => rfl)
    (fun _ _ _ _ hab hbc h => (hab h).trans (hbc h))
    (fun i j hij b t hbt hi => hbt (by cases i <;> cases j <;> simp_all)) true
  have hend := hresult rfl
  cases result with
  | ok _ => exact hend
  | error _ => exact hend.elim

theorem keepsSingle_watch {h : String} {audit dryRun : Bool}
    (hstay : ∀ pool ∈ a.fleet.pools, pool.record = r →
      dryRun = true ∨ Reconcile.target {h} (poolHosts a.fleet pool)
        (poolDesired a.fleet clusters pool) = {h}) :
    KeepsSingle D False clusters r h ((DnsRequest.watch audit dryRun).program a.fleet) := by
  rw [DnsRequest.program, map_eq_bind]
  exact (keepsSingle_watchOnce a hstay).bind fun _ => keepsSingle_of_allCalls trivial

theorem watch_dryRun_unchanged (audit : Bool) (x : String) :
    AllCalls (S := dnsSignature) (fun op => ¬ op.Changes r x)
      ((DnsRequest.watch audit true).program a.fleet) :=
  (allCalls_watchOnce a id (fun _ => id) (fun _ _ => id) (fun h => absurd h (by decide))
    (fun h => absurd h (by decide))).map _

theorem foldl_recordTurn_nonempty {pools : List Pool} {current : Finset String}
    (hne : current.Nonempty) :
    (pools.foldl (recordTurn a.fleet clusters r) current).Nonempty := by
  induction pools generalizing current with
  | nil => exact hne
  | cons pool pools ih => exact ih (recordTurn_nonempty pool hne)

/-- Every turn on the record leaves it alone when `h` is all it holds. -/
def StaysAt (fleet : Fleet) (clusters : List ClusterStatus) (r h : String) (pools : List Pool) :
    Prop :=
  ∀ pool ∈ pools, pool.record = r →
    Reconcile.target {h} (poolHosts fleet pool) (poolDesired fleet clusters pool) = {h}

theorem raceSafe_watch_eject {nodeName : String} {filter : Option String}
    {audit dryRun audit' : Bool} (hne : (D.members s r).Nonempty)
    (hsafe : dryRun = true ∨ ∀ h, Ejects a.fleet nodeName filter r h →
      (∃ ip ∈ passGoal a.fleet clusters r (D.members s r), ip ≠ h) ∨
        D.members s r = {h} ∧ StaysAt a.fleet clusters r h a.fleet.pools) :
    RaceSafe D a.fleet clusters (.watch audit dryRun) (.eject nodeName filter true audit') r s := by
  cases dryRun with
  | true =>
      by_cases hfree : ∃ x ∈ D.members s r, ¬ Ejects a.fleet nodeName filter r x
      · obtain ⟨x, hx, heject⟩ := hfree
        exact raceSafe_of_untouched hx (watch_dryRun_unchanged audit x) (eject_unchanged heject)
      · simp only [not_exists, not_and, not_not] at hfree
        obtain ⟨h, hh⟩ := hne
        have hs : D.members s r = {h} := Finset.eq_singleton_iff_unique_mem.mpr
          ⟨hh, fun x hx => (hfree x hx).unique (hfree h hh)⟩
        exact raceSafe_of_single hs (keepsSingle_watch fun _ _ _ => .inl rfl) keepsSingle_eject
  | false =>
      have hsafe := hsafe.resolve_left Bool.false_ne_true
      by_cases hejects : ∃ h, Ejects a.fleet nodeName filter r h
      · obtain ⟨h, heject⟩ := hejects
        rcases hsafe h heject with ⟨ip, hip, hne⟩ | ⟨hs, hstay⟩
        · intro c hrun hdone
          have hvisible := race_visible {h}
            (fun x hx => Finset.mem_singleton.mpr (hx.unique heject)) hrun hdone
          have hmem : ip ∈ D.visible r {h} c.state := by
            rw [hvisible]
            exact Finset.mem_sdiff.mpr ⟨hip, fun hx => hne (Finset.mem_singleton.mp hx)⟩
          exact ⟨ip, (Finset.mem_sdiff.mp hmem).1⟩
        · exact raceSafe_of_single hs (keepsSingle_watch fun pool hp hr => .inr (hstay pool hp hr))
            keepsSingle_eject
      · intro c hrun hdone
        have hvisible := race_visible ∅
          (fun h hh => absurd ⟨h, hh⟩ hejects) hrun hdone
        rw [LawfulDriver.visible, Finset.sdiff_empty, Finset.sdiff_empty] at hvisible
        rw [hvisible]
        exact foldl_recordTurn_nonempty hne

/-! ## The schedule that empties a record -/

/-- From any state with `current` in the record the program completes and leaves `goal`. -/
def Finishes (D : LawfulDriver) (clusters : List ClusterStatus) (r : String) {α : Type}
    (p : DnsProgram α) (current goal : Finset String) : Prop :=
  ∀ u, D.members u r = current → ∃ value v,
    Reaches (D.Answers False {clusters}) (p, u) (.done (.ok value), v) ∧ D.members v r = goal

theorem Finishes.bind_pure {α β : Type} {p : DnsProgram α} {current goal : Finset String}
    (hp : Finishes D clusters r p current goal) (f : α → β) :
    Finishes D clusters r (p >>= fun x => pure (f x)) current goal := by
  intro u hu
  obtain ⟨value, v, hreach, hv⟩ := hp u hu
  exact ⟨f value, v, hreach.bind _, hv⟩

theorem finishes_turns (audit : Bool) {pools : List Pool}
    (hpools : ∀ pool ∈ pools, pool ∈ a.fleet.pools) (current : Finset String) :
    Finishes D clusters r
      (each pools (watchPool (nodeIps a.fleet) (statusByName clusters) audit false)) current
      (pools.foldl (recordTurn a.fleet clusters r) current) := by
  rintro u rfl
  have hleaves : Leaves D clusters (each pools _) u _ _ :=
    leaves_each_watchPool a audit hpools rfl
  obtain ⟨v, hreach, hview⟩ := hleaves.completes False
  exact ⟨_, v, hreach, by rw [← D.view_members, hview, foldl_turn_members, D.view_members]⟩

/-- Unless every turn leaves `{h}` alone, the turns can be stopped where the record is
not `{h}`, and finish from there as they would have. -/
theorem turns_reach_split {h : String} (audit : Bool) {pools : List Pool}
    (hpools : ∀ pool ∈ pools, pool ∈ a.fleet.pools) {s : D.State}
    (hnot : ¬ (D.members s r = {h} ∧ StaysAt a.fleet clusters r h pools)) :
    ∃ c, Reaches (D.Answers False {clusters})
        (each pools (watchPool (nodeIps a.fleet) (statusByName clusters) audit false), s) c ∧
      (D.members c.2 r ≠ {h} ∧ Finishes D clusters r c.1 (D.members c.2 r)
        (pools.foldl (recordTurn a.fleet clusters r) (D.members s r))) := by
  induction pools generalizing s with
  | nil =>
      have hread : D.members s r ≠ {h} := fun hs => hnot ⟨hs, fun _ hp => by cases hp⟩
      exact ⟨_, .refl _, hread, finishes_turns audit hpools _⟩
  | cons pool pools ih =>
      by_cases hread : D.members s r = {h}
      · have hleaves : Leaves D clusters _ s _ _ :=
          leaves_watchPool a audit (hpools pool (by simp)) rfl
        rw [each_cons]
        refine hleaves.reaches fun t ht => ?_
        have hmembers : D.members t r = recordTurn a.fleet clusters r (D.members s r) pool := by
          rw [← D.view_members, ht, turn_members, D.view_members]
        have hrest : ¬ (D.members t r = {h} ∧ StaysAt a.fleet clusters r h pools) := by
          rintro ⟨ht', hstay⟩
          refine hnot ⟨hread, fun q hq hqr => ?_⟩
          rcases List.mem_cons.mp hq with rfl | hq
          · rwa [hmembers, hread, recordTurn, if_pos hqr] at ht'
          · exact hstay q hq hqr
        obtain ⟨c, hc, hsplit, hfinish⟩ := ih (fun q hq => hpools q (by simp [hq])) hrest
        rw [hmembers] at hfinish
        exact ⟨_, hc.bind _, hsplit, hfinish.bind_pure _⟩
      · exact ⟨_, .refl _, hread, finishes_turns audit hpools _⟩

theorem watch_reach_split {h : String} (audit : Bool)
    (hnot : ¬ (D.members s r = {h} ∧ StaysAt a.fleet clusters r h a.fleet.pools)) :
    ∃ c, Reaches (D.Answers False {clusters})
        ((DnsRequest.watch audit false).program a.fleet, s) c ∧
      (D.members c.2 r ≠ {h} ∧ Finishes D clusters r c.1 (D.members c.2 r)
        (passGoal a.fleet clusters r (D.members s r))) := by
  rw [DnsRequest.program, map_eq_bind, watchOnce]
  split
  · rename_i hpools
    have hread : D.members s r ≠ {h} :=
      fun hs => hnot ⟨hs, fun _ hp => by rw [hpools] at hp; cases hp⟩
    refine ⟨_, .refl _, hread, fun u hu => ⟨_, u, .refl _, ?_⟩⟩
    rw [hu, passGoal, hpools]
    rfl
  · have hprobe : Leaves D clusters probeFleet s clusters (D.view s) := ⟨rfl, rfl⟩
    rw [bind_assoc]
    refine hprobe.reaches fun t ht => ?_
    have hmembers : D.members t = D.members s := congrArg DnsView.members ht
    rw [← hmembers] at hnot ⊢
    obtain ⟨c, hc, hsplit, hfinish⟩ := turns_reach_split audit (fun _ hp => hp) hnot
    exact ⟨_, (hc.bind _).bind _, hsplit, (hfinish.bind_pure _).bind_pure _⟩

theorem not_raceSafe_watch_eject {h nodeName : String} {filter : Option String}
    {audit audit' : Bool} (hejects : Ejects a.fleet nodeName filter r h)
    (hgoal : ∀ ip ∈ passGoal a.fleet clusters r (D.members s r), ip = h)
    (hnot : ¬ (D.members s r = {h} ∧ StaysAt a.fleet clusters r h a.fleet.pools)) :
    ¬ RaceSafe D a.fleet clusters (.watch audit false)
      (.eject nodeName filter true audit') r s := by
  intro hsafe
  obtain ⟨⟨p, t⟩, hwatch, hsplit, hfinish⟩ := watch_reach_split audit hnot
  obtain ⟨⟨q, u⟩, heject, hsame, hpassed⟩ :=
    eject_reaches_guard False clusters audit' hejects hsplit
  obtain ⟨value, v, hdone, hv⟩ := hfinish u hsame
  obtain ⟨result, x, hlast, hx⟩ := hpassed v
  have hrun := (((Interleaves.left hwatch _).trans (Interleaves.right heject p)).trans
    (Interleaves.left hdone q)).trans (Interleaves.right hlast _)
  obtain ⟨ip, hip⟩ := hsafe _ hrun (completed_pair _ _ _)
  have hleft := hx hip
  rw [hv, Finset.mem_erase] at hleft
  exact hleft.1 (hgoal ip hleft.2)

theorem not_raceSafe_ejects {h h' first second : String} {filter filter' : Option String}
    {audit audit' : Bool} (hfirst : Ejects a.fleet first filter r h)
    (hsecond : Ejects a.fleet second filter' r h') (hne : h ≠ h')
    (hs : D.members s r = {h, h'}) :
    ¬ RaceSafe D a.fleet clusters (.eject first filter true audit)
      (.eject second filter' true audit') r s := by
  intro hsafe
  have hread : D.members s r ≠ {h} := by
    intro hsingle
    have hmem : h' ∈ D.members s r := by simp [hs]
    rw [hsingle] at hmem
    exact hne (Finset.mem_singleton.mp hmem).symm
  have hread' : D.members s r ≠ {h'} := by
    intro hsingle
    have hmem : h ∈ D.members s r := by simp [hs]
    rw [hsingle] at hmem
    exact hne (Finset.mem_singleton.mp hmem)
  obtain ⟨⟨p, t⟩, heject, hsame, hpassed⟩ :=
    eject_reaches_guard False clusters audit hfirst hread
  obtain ⟨⟨q, u⟩, heject', hsame', hpassed'⟩ :=
    eject_reaches_guard False clusters audit' hsecond (hsame ▸ hread')
  obtain ⟨result, v, hdone, hv⟩ := hpassed u
  obtain ⟨result', x, hdone', hx⟩ := hpassed' v
  have hrun := (((Interleaves.left heject _).trans (Interleaves.right heject' p)).trans
    (Interleaves.left hdone q)).trans (Interleaves.right hdone' _)
  obtain ⟨ip, hip⟩ := hsafe _ hrun (completed_pair _ _ _)
  have hleft := hx hip
  have hmem := hv (Finset.mem_of_mem_erase hleft)
  rw [hsame', hsame, hs, Finset.mem_erase, Finset.mem_insert, Finset.mem_singleton] at hmem
  exact Finset.ne_of_mem_erase hleft (hmem.2.resolve_left hmem.1)

end Race

/-- When two concurrent operations can empty a record. Two ejects do it when they
remove the two addresses it has. A pass and an eject do it when the pass leaves at
most the ejected address, unless nothing but that address is ever there. -/
theorem raceSafe_iff (D : LawfulDriver) (a : AcceptedFleet) (clusters : List ClusterStatus)
    (r : String) (s : D.State) (hne : (D.members s r).Nonempty) :
    (∀ first second filter filter' audit audit',
      RaceSafe D a.fleet clusters (.eject first filter true audit)
          (.eject second filter' true audit') r s ↔
        ∀ h h', Ejects a.fleet first filter r h → Ejects a.fleet second filter' r h' →
          h ≠ h' → D.members s r ≠ {h, h'}) ∧
    (∀ nodeName filter audit dryRun audit',
      RaceSafe D a.fleet clusters (.watch audit dryRun) (.eject nodeName filter true audit') r s ↔
        (dryRun = true ∨ ∀ h, Ejects a.fleet nodeName filter r h →
          (∃ ip ∈ passGoal a.fleet clusters r (D.members s r), ip ≠ h) ∨
            D.members s r = {h} ∧ StaysAt a.fleet clusters r h a.fleet.pools)) := by
  constructor
  · intro first second filter filter' audit audit'
    refine ⟨fun hsafe h h' hfirst hsecond hhh' hs => ?_, raceSafe_ejects hne⟩
    exact not_raceSafe_ejects hfirst hsecond hhh' hs hsafe
  · intro nodeName filter audit dryRun audit'
    refine ⟨fun hsafe => ?_, raceSafe_watch_eject hne⟩
    cases dryRun with
    | true => exact .inl rfl
    | false =>
        refine .inr fun h heject => or_iff_not_imp_left.mpr fun hgoal => ?_
        simp only [ne_eq, not_exists, not_and, not_not] at hgoal
        by_contra hnot
        exact not_raceSafe_watch_eject heject hgoal hnot hsafe

theorem ejects_pair_a : Ejects pairFleet.fleet "a" none "rpc.example.com" "10.0.0.1" :=
  ⟨_, rfl, rfl, pairPool, by decide, rfl⟩

theorem ejects_pair_b : Ejects pairFleet.fleet "b" none "rpc.example.com" "10.0.0.2" :=
  ⟨_, rfl, rfl, pairPool, by decide, rfl⟩

/-- Beside a third address, ejects of `a` and `b` at once leave something in the record, and so do
an eject of `a` and a pass that finds both nodes healthy. -/
theorem raceSafe_iff_pair :
    RaceSafe inMemoryDnsDriver pairFleet.fleet (probeWith []) (.eject "a" none true false)
        (.eject "b" none true false) "rpc.example.com"
        (pairState {"10.0.0.1", "10.0.0.2", "9.9.9.9"}) ∧
      RaceSafe inMemoryDnsDriver pairFleet.fleet (probeWith ["a", "b"]) (.watch false false)
        (.eject "a" none true false) "rpc.example.com" (pairState {"10.0.0.1", "10.0.0.2"}) := by
  constructor
  · have hejects := (raceSafe_iff inMemoryDnsDriver pairFleet (probeWith []) "rpc.example.com"
      (pairState {"10.0.0.1", "10.0.0.2", "9.9.9.9"}) (by decide)).1 "a" "b" none none false false
    refine hejects.mpr fun h h' _ _ _ hs => ?_
    have hthree : (inMemoryDnsDriver.members (pairState {"10.0.0.1", "10.0.0.2", "9.9.9.9"})
        "rpc.example.com").card = 3 := by decide
    have htwo : ({h, h'} : Finset String).card ≤ 2 := Finset.card_le_two
    rw [hs] at hthree
    omega
  · have hpass := (raceSafe_iff inMemoryDnsDriver pairFleet (probeWith ["a", "b"])
      "rpc.example.com" (pairState {"10.0.0.1", "10.0.0.2"}) (by decide)).2 "a" none false false
      false
    refine hpass.mpr (.inr fun h heject => .inl ⟨"10.0.0.2", by decide, ?_⟩)
    have hh : h = "10.0.0.1" := heject.unique ejects_pair_a
    rw [hh]
    decide

/-- Both addresses are in the record. Ejects of `a` and `b` at once empty it, and so
do an eject of `a` and a pass that finds only `a` healthy. -/
theorem races_empty_pair :
    (¬ ∀ (D : LawfulDriver) (a : AcceptedFleet) (clusters : List ClusterStatus) (r : String)
      (s : D.State), (D.members s r).Nonempty → ∀ first second filter filter' audit audit',
        first ≠ second → RaceSafe D a.fleet clusters (.eject first filter true audit)
          (.eject second filter' true audit') r s) ∧
    ¬ ∀ (D : LawfulDriver) (a : AcceptedFleet) (clusters : List ClusterStatus) (r : String)
      (s : D.State), (D.members s r).Nonempty → ∀ nodeName filter audit audit',
          RaceSafe D a.fleet clusters (.watch audit false) (.eject nodeName filter true audit') r
            s := by
  constructor
  · intro h
    refine not_raceSafe_ejects ejects_pair_a ejects_pair_b (by decide) (by decide)
      (h inMemoryDnsDriver pairFleet (probeWith []) "rpc.example.com"
        (pairState {"10.0.0.1", "10.0.0.2"}) (by decide) "a" "b" none none false false (by decide))
  · intro h
    refine not_raceSafe_watch_eject ejects_pair_a (by decide) (fun hsingle => ?_)
      (h inMemoryDnsDriver pairFleet (probeWith ["a"]) "rpc.example.com"
        (pairState {"10.0.0.1", "10.0.0.2"}) (by decide) "a" none false false)
    exact absurd hsingle.1 (by decide)

end Solfleet
