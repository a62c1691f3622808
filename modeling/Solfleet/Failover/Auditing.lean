import Solfleet.Failover.Ownership

/-! # The audit trail of the failover

A pass and an override take several records in turn, and each turn that changes its
record ends with an entry for it. `Accounts` is what a turn contributes to the trail of
the whole: it composes along the turns, and only an exception between a change and its
entry breaks it.
-/

namespace Solfleet

open Interaction Program

/-! ## The trail -/

def DriverCall.record : DriverCall → String
  | .listMembers record | .addMember record _ _ | .removeMember record _ | .hasMarker record
  | .ensureMarker record => record

/-- The call may change this record at the provider. -/
def DnsEffect.Writes (record : String) : DnsEffect → Prop
  | .driver c => c.Mutates ∧ c.record = record
  | _ => False

/-- The log took the entry. -/
def DnsLogged (trace : List DnsEvent) (entry : AuditEvent) : Prop :=
  (⟨.audit entry, .ok ()⟩ : DnsEvent) ∈ trace

/-- No entry was refused. -/
def DnsLogWorks (trace : List DnsEvent) : Prop :=
  ∀ event ∈ trace, event.Raised → ∀ entry, event.op ≠ .audit entry

/-- Neither a call that writes a record raises, nor the call right after one. -/
def DnsSteady (trace : List DnsEvent) : Prop :=
  Ahead (fun (event : DnsEvent) after => (∃ record, event.op.Writes record) →
    ¬ event.Raised ∧ ∀ next ∈ after.head?, ¬ next.Raised) trace

/-- The entry says that `operation` executed on the record. -/
def AuditEvent.Executes (operation record : String) (entry : AuditEvent) : Prop :=
  entry.operation = operation ∧ entry.node = record ∧ entry.mode = .execute

/-- Every call that writes a record is followed by an `execute` entry for it. -/
def DnsExecuted (operation : String) (trace : List DnsEvent) : Prop :=
  Ahead (fun (event : DnsEvent) after => ∀ record, event.op.Writes record →
    ∃ entry, DnsLogged after entry ∧ entry.Executes operation record) trace

/-- The last call of the trace writes nothing. -/
def EndsCalm (trace : List DnsEvent) : Prop :=
  ∀ last ∈ trace.getLast?, ∀ record, ¬ last.op.Writes record

section Trails

variable {operation : String} {xs ys : List DnsEvent}

def Unwritten (trace : List DnsEvent) : Prop := ∀ event ∈ trace, ∀ record, ¬ event.op.Writes record

theorem dnsExecuted_of_unwritten (h : Unwritten xs) : DnsExecuted operation xs :=
  ahead_of_forall fun event he _ record hw => absurd hw (h event he record)

theorem dnsSteady_of_unwritten (h : Unwritten xs) : DnsSteady xs :=
  ahead_of_forall fun event he _ ⟨record, hw⟩ => absurd hw (h event he record)

theorem endsCalm_of_unwritten (h : Unwritten xs) : EndsCalm xs :=
  fun last hlast => h last (List.mem_of_getLast? hlast)

/-- What is accounted for stays so. -/
theorem dnsExecuted_append_iff (h : DnsExecuted operation xs) :
    DnsExecuted operation (xs ++ ys) ↔ DnsExecuted operation ys := by
  refine ahead_append_iff.trans (and_iff_right ?_)
  rintro before event after htrace record hw
  obtain ⟨entry, hlogged, hentry⟩ := h before event after htrace record hw
  exact ⟨entry, List.mem_append_left _ hlogged, hentry⟩

/-- The seam between two parts is calm where the first one ends calm. -/
theorem dnsSteady_append_iff (h : DnsSteady xs) (hcalm : EndsCalm xs) :
    DnsSteady (xs ++ ys) ↔ DnsSteady ys := by
  refine ahead_append_iff.trans (and_iff_right ?_)
  rintro before event after htrace ⟨record, hw⟩
  obtain ⟨hevent, hnext⟩ := h before event after htrace ⟨record, hw⟩
  refine ⟨hevent, fun next hn => ?_⟩
  cases after with
  | nil =>
      have hlast : event ∈ xs.getLast? := by
        rw [htrace]
        simp
      exact absurd hw (hcalm event hlast record)
  | cons first after => exact hnext next hn

theorem endsCalm_append (hx : EndsCalm xs) (hy : EndsCalm ys) : EndsCalm (xs ++ ys) := by
  rintro last hlast record
  cases ys with
  | nil => exact hx last (by simpa using hlast) record
  | cons y ys =>
      rw [List.getLast?_append_of_ne_nil _ (List.cons_ne_nil _ _)] at hlast
      exact hy last hlast record

end Trails

/-! ## What a turn contributes -/

/-- Given a log that works, the changes of a run have their entries exactly when it is
steady, and a run that returns leaves nothing open. -/
def Accounts {α : Type} (operation : String) (p : DnsProgram α) : Prop :=
  ∀ trace result, Runs p trace result → DnsLogWorks trace →
    (DnsExecuted operation trace ↔ DnsSteady trace) ∧
      ∀ a, result = .ok a → DnsExecuted operation trace ∧ DnsSteady trace ∧ EndsCalm trace

section Accounts

variable {operation : String} {α β : Type}

theorem accounts_of_unwritten {p : DnsProgram α}
    (h : AllCalls (S := dnsSignature) (fun op => ∀ record, ¬ op.Writes record) p) :
    Accounts operation p := by
  intro trace result hrun _
  have hquiet : Unwritten trace := hrun.allCalls h
  have hexec : DnsExecuted operation trace := dnsExecuted_of_unwritten hquiet
  exact ⟨iff_of_true hexec (dnsSteady_of_unwritten hquiet), fun _ _ =>
    ⟨hexec, dnsSteady_of_unwritten hquiet, endsCalm_of_unwritten hquiet⟩⟩

theorem accounts_pure (a : α) : Accounts operation (pure a) :=
  accounts_of_unwritten (allCalls_pure _ _)

theorem Accounts.bind {p : DnsProgram α} {f : α → DnsProgram β} (hp : Accounts operation p)
    (hf : ∀ a, Accounts operation (f a)) : Accounts operation (p >>= f) := by
  intro trace result hrun works
  obtain ⟨first, rest, a, hfirst, hrest, rfl⟩ | ⟨e, hfirst, rfl⟩ := runs_bind_iff.mp hrun
  · obtain ⟨-, hdone⟩ := hp first _ hfirst fun event he => works event (by simp [he])
    obtain ⟨hexec, hsteady, hcalm⟩ := hdone a rfl
    obtain ⟨hiff, hends⟩ := hf a rest _ hrest fun event he => works event (by simp [he])
    rw [dnsExecuted_append_iff hexec, dnsSteady_append_iff hsteady hcalm]
    refine ⟨hiff, fun b hb => ?_⟩
    obtain ⟨hexec', hsteady', hcalm'⟩ := hends b hb
    exact ⟨hexec', hsteady', endsCalm_append hcalm hcalm'⟩
  · exact ⟨(hp _ _ hfirst works).1, nofun⟩

theorem accounts_each {xs : List β} {body : β → DnsProgram α}
    (h : ∀ x ∈ xs, Accounts operation (body x)) : Accounts operation (each xs body) := by
  induction xs with
  | nil => exact accounts_pure []
  | cons x xs ih =>
      obtain ⟨hx, hxs⟩ := List.forall_mem_cons.mp h
      exact hx.bind fun _ => (ih hxs).bind fun _ => accounts_pure _

theorem accounts_driverCall {c : DriverCall} (h : ¬ c.Mutates) :
    Accounts operation (driverCall c) :=
  accounts_of_unwritten (allCalls_driverCall fun _ hw => h hw.1)

theorem accounts_recordAudit (audit : Bool) (event : AuditEvent) :
    Accounts operation (recordAudit audit event) :=
  accounts_of_unwritten (allCalls_recordAudit fun _ => id)

theorem accounts_probeFleet : Accounts operation probeFleet :=
  accounts_of_unwritten (allCalls_perform.mpr fun _ => id)

/-! ## Changes and their entry -/

/-- The calls that change one record: marked first, no entry among them, and an exception
comes from a call that writes or from the one after it. -/
structure Block (record : String) (p : DnsProgram α) : Prop where
  propagates : p.Propagates
  own : p.AllCalls fun op : DnsEffect => ∃ c, op = .driver c ∧ c.record = record
  marks : ∀ trace result, Runs p trace result →
    ∃ answer rest, trace = ⟨.driver (.ensureMarker record), answer⟩ :: rest
  breaks : ∀ trace e, Runs p trace (.error e) → ¬ DnsSteady trace

theorem runs_recordAudit {event : AuditEvent} {f : Unit → DnsProgram α} {trace : List DnsEvent}
    {result : Except Exn α} (h : Runs (recordAudit true event >>= f) trace result)
    (works : DnsLogWorks trace) :
    ∃ rest, trace = ⟨.audit event, .ok ()⟩ :: rest ∧ Runs (f ()) rest result := by
  have hentry : ∀ {answer : Except Exn Unit} {events : List DnsEvent},
      Runs (recordAudit true event) events answer → events = [⟨.audit event, answer⟩] :=
    fun h => runs_perform_iff.mp h
  obtain ⟨first, rest, _, hfirst, hrest, rfl⟩ | ⟨e, hfirst, -⟩ := runs_bind_iff.mp h
  · rw [hentry hfirst]
    exact ⟨rest, rfl, hrest⟩
  · rw [hentry hfirst] at works
    exact absurd rfl (works _ List.mem_cons_self ⟨e, rfl⟩ event)

theorem accounts_block {record : String} {p : DnsProgram α} {f : α → β} {entry : AuditEvent}
    (hp : Block record p) (hentry : entry.Executes operation record) :
    Accounts operation (p >>= fun a => recordAudit true entry >>= fun _ => pure (f a)) := by
  intro trace result hrun works
  obtain ⟨first, rest, a, hfirst, hrest, rfl⟩ | ⟨e, hfirst, rfl⟩ := runs_bind_iff.mp hrun
  · obtain ⟨_, rfl, hpure⟩ := runs_recordAudit hrest fun event he => works event (by simp [he])
    obtain ⟨rfl, -⟩ := runs_pure_iff.mp hpure
    have hcalm := hfirst.propagates hp.propagates
    have hown := hfirst.allCalls hp.own
    have hexec : DnsExecuted operation (first ++ [⟨.audit entry, .ok ()⟩]) := by
      refine ahead_append_iff.mpr ⟨ahead_of_forall fun event he after r hw => ?_, ?_⟩
      · obtain ⟨c, hop, hrecord⟩ := hown event he
        rw [hop] at hw
        obtain rfl : record = r := hrecord.symm.trans hw.2
        exact ⟨entry, List.mem_append_right _ List.mem_cons_self, hentry⟩
      · exact dnsExecuted_of_unwritten (List.forall_mem_singleton.mpr fun _ => id)
    have hnone : ∀ event ∈ first ++ [⟨.audit entry, .ok ()⟩], ¬ Event.Raised event := by
      intro event he
      obtain he | he := List.mem_append.mp he
      · exact hcalm event he
      · rw [List.mem_singleton.mp he]
        exact nofun
    have hsteady : DnsSteady (first ++ [⟨.audit entry, .ok ()⟩]) := by
      rintro before event after htrace -
      rw [htrace] at hnone
      refine ⟨hnone event (by simp), fun next hn => hnone next ?_⟩
      exact List.mem_append_right _ (List.mem_cons_of_mem _ (List.mem_of_head? hn))
    refine ⟨iff_of_true hexec hsteady, fun _ _ => ⟨hexec, hsteady, ?_⟩⟩
    rintro last hlast r
    rw [List.getLast?_concat, Option.mem_some] at hlast
    exact hlast ▸ id
  · refine ⟨iff_of_false (fun hexec => ?_) (hp.breaks _ _ hfirst), nofun⟩
    have hown := hfirst.allCalls hp.own
    obtain ⟨answer, rest, rfl⟩ := hp.marks _ _ hfirst
    obtain ⟨other, hlogged, -⟩ := hexec [] _ rest rfl record ⟨trivial, rfl⟩
    obtain ⟨c, hop, -⟩ := hown _ (List.mem_cons_of_mem _ hlogged)
    cases hop

end Accounts

/-! ## The turns -/

section Turns

variable {α : Type}

theorem propagates_driverCall (c : DriverCall) : (driverCall c).Propagates :=
  @propagates_perform dnsSignature _ (.driver c)

/-- The program begins by marking the record. -/
theorem marks_of_ensureMarker {record : String} {f : Unit → DnsProgram α} {trace : List DnsEvent}
    {result : Except Exn α} (h : Runs (driverCall (.ensureMarker record) >>= f) trace result) :
    ∃ answer rest, trace = ⟨.driver (.ensureMarker record), answer⟩ :: rest := by
  cases h with
  | call answer rest => exact ⟨answer, _, rfl⟩

/-- The calls of a pass on a record, without the entry they end with. -/
def changeRecord (pool : Pool) (toRemove toAdd : List String) : DnsProgram (List Unit) := do
  driverCall (.ensureMarker pool.record)
  let _ ← each toRemove fun ip => driverCall (.removeMember pool.record ip)
  each toAdd fun ip => driverCall (.addMember pool.record ip pool.ttl)

theorem reconcilePool_eq (audit : Bool) (pool : Pool) (toRemove toAdd : List String) :
    reconcilePool audit pool toRemove toAdd =
      (changeRecord pool toRemove toAdd >>= fun _ =>
        recordAudit audit ⟨"dns_watch", pool.cluster, pool.record, .execute, true⟩ >>= fun _ =>
          pure ()) := by
  simp only [reconcilePool, changeRecord, bind_assoc, bind_pure_unit]

/-- In a pass every call of the block writes. -/
theorem block_changeRecord (pool : Pool) (toRemove toAdd : List String) :
    Block pool.record (changeRecord pool toRemove toAdd) := by
  have hwrites : (changeRecord pool toRemove toAdd).AllCalls
      fun op : DnsEffect => ∃ c, op = .driver c ∧ c.record = pool.record ∧ c.Mutates := by
    refine AllCalls.bind (allCalls_driverCall ⟨_, rfl, rfl, trivial⟩) fun _ => ?_
    refine AllCalls.bind (AllCalls.each fun ip _ => ?_) fun _ => AllCalls.each fun ip _ => ?_
    · exact allCalls_driverCall ⟨_, rfl, rfl, trivial⟩
    · exact allCalls_driverCall ⟨_, rfl, rfl, trivial⟩
  have hpropagates : (changeRecord pool toRemove toAdd).Propagates := by
    refine (propagates_driverCall _).bind fun _ => ?_
    refine Propagates.bind (Propagates.each fun ip _ => ?_) fun _ => Propagates.each fun ip _ => ?_
    · exact propagates_driverCall _
    · exact propagates_driverCall _
  refine ⟨hpropagates, hwrites.mono fun op ⟨c, hop, hc, _⟩ => ⟨c, hop, hc⟩,
    fun _ _ => marks_of_ensureMarker, fun trace e hrun hsteady => ?_⟩
  obtain ⟨before, last, rfl, hlast, -⟩ := hrun.propagates hpropagates
  obtain ⟨c, hop, hrecord, hm⟩ := hrun.allCalls hwrites last (by simp)
  refine (hsteady before last [] rfl ⟨pool.record, ?_⟩).1 hlast
  rw [hop]
  exact ⟨hm, hrecord⟩

/-- In an override a read follows the call that changes the record. -/
theorem block_applyOverride (action : OverrideAction) (ip : String) (pool : Pool) :
    Block pool.record (applyOverride action ip pool) := by
  have hrecord : (action.call pool ip).Mutates ∧ (action.call pool ip).record = pool.record := by
    cases action <;> exact ⟨trivial, rfl⟩
  refine ⟨?_, ?_, fun _ _ => marks_of_ensureMarker, fun trace e hrun hsteady => ?_⟩
  · exact (propagates_driverCall _).bind fun _ =>
      (propagates_driverCall _).bind fun _ => propagates_driverCall _
  · exact AllCalls.bind (allCalls_driverCall ⟨_, rfl, rfl⟩) fun _ =>
      AllCalls.bind (allCalls_driverCall ⟨_, rfl, hrecord.2⟩) fun _ =>
        allCalls_driverCall ⟨_, rfl, rfl⟩
  have hevent : ∀ {c : DriverCall} {answer : Except Exn c.Answer} {events : List DnsEvent},
      Runs (driverCall c) events answer → events = [⟨.driver c, answer⟩] :=
    fun h => runs_perform_iff.mp h
  obtain ⟨_, rest, _, hfirst, hrest, rfl⟩ | ⟨e', hfirst, -⟩ := runs_bind_iff.mp hrun
  · rw [hevent hfirst] at hsteady
    obtain ⟨_, last, answer, hcall, hlist, rfl⟩ | ⟨e', hcall, -⟩ := runs_bind_iff.mp hrest
    · -- the read that was to tell the members raised
      rw [hevent hcall, hevent hlist] at hsteady
      have hnext := (hsteady [_] _ [_] rfl ⟨pool.record, hrecord⟩).2
      exact hnext _ rfl ⟨e, rfl⟩
    · rw [hevent hcall] at hsteady
      exact (hsteady [_] _ [] rfl ⟨pool.record, hrecord⟩).1 ⟨e', rfl⟩
  · rw [hevent hfirst] at hsteady
    exact (hsteady [] _ [] rfl ⟨pool.record, trivial, rfl⟩).1 ⟨e', rfl⟩

theorem accounts_applyTurn {dryRun : Bool} {pool : Pool} {hosts desired current : Finset String}
    (hsub : desired ⊆ hosts) :
    Accounts "dns_watch" (applyTurn true dryRun pool hosts desired current) := by
  rw [applyTurn_eq hsub]
  split
  · exact accounts_recordAudit _ _
  split
  · exact accounts_pure ()
  · rw [reconcilePool_eq]
    exact accounts_block (block_changeRecord pool _ _) ⟨rfl, rfl, rfl⟩

theorem accounts_watchOnce (a : AcceptedFleet) (dryRun : Bool) :
    Accounts "dns_watch" (watchOnce a.fleet true dryRun) := by
  unfold watchOnce
  split
  · exact accounts_pure _
  refine accounts_probeFleet.bind fun clusters => ?_
  refine (accounts_each fun pool hp => ?_).bind fun reports => accounts_pure _
  rw [a.watchPool_eq clusters true dryRun hp]
  refine (accounts_driverCall id).bind fun listed => ?_
  exact (accounts_applyTurn (poolDesired_subset _ _ _)).bind fun _ => accounts_pure _

theorem accounts_overridePool (action : OverrideAction) (nodeName ip : String) (confirm : Bool)
    (pool : Pool) :
    Accounts ("dns_" ++ action.text) (overridePool action nodeName ip confirm true pool) := by
  refine (accounts_driverCall id).bind fun listed => ?_
  dsimp only
  unfold GateRequest.guard
  split
  · rename_i hopens
    obtain rfl : confirm = true := hopens.1
    simp only [map_eq_bind, bind_assoc, pure_bind]
    exact accounts_block (block_applyOverride action ip pool) ⟨rfl, rfl, rfl⟩
  · exact (accounts_pure none).bind fun now =>
      (accounts_recordAudit _ _).bind fun _ => accounts_pure _

theorem accounts_dnsOverride (fleet : Fleet) (nodeName : String) (action : OverrideAction)
    (record : Option String) (confirm : Bool) :
    Accounts ("dns_" ++ action.text) (dnsOverride fleet nodeName action record confirm true) := by
  unfold dnsOverride
  cases fleet.findNode nodeName with
  | none => exact accounts_pure _
  | some found =>
      dsimp only
      split
      · exact accounts_pure _
      · refine (accounts_each fun pool _ => ?_).bind fun entries => accounts_pure _
        exact accounts_overridePool action nodeName _ confirm pool

end Turns

/-! ## Where a turn stands -/

/-- The turn on `pool` read `listed`, and the run went on with `rest`. -/
def Turn {α : Type} (body : Pool → DnsProgram α) (pools : List Pool) (trace : List DnsEvent)
    (pool : Pool) (listed : List String) (rest : List DnsEvent) : Prop :=
  ∃ done later first values, pools = done ++ pool :: later ∧
    Runs (each done body) first (.ok values) ∧
    trace = first ++ ⟨.driver (.listMembers pool.record), .ok listed⟩ :: rest

section Turn

variable {α β : Type} {body : Pool → DnsProgram α} {pools : List Pool} {trace rest : List DnsEvent}
  {pool : Pool} {listed : List String}

/-- Behind the reading the run goes on with the rest of the turn. -/
theorem Turn.resume {k : List String → DnsProgram α} {g : List α → DnsProgram β}
    {result : Except Exn β} (ht : Turn body pools trace pool listed rest)
    (hbody : body pool = driverCall (.listMembers pool.record) >>= k)
    (h : Runs (each pools body >>= g) trace result) :
    ∃ g' : α → DnsProgram β, Runs (k listed >>= g') rest result := by
  obtain ⟨done, later, first, values, rfl, hfirst, rfl⟩ := ht
  have hread : Runs (driverCall (.listMembers pool.record))
      [⟨.driver (.listMembers pool.record), .ok listed⟩] (.ok listed) := runs_perform_iff.mpr rfl
  rw [each_append, bind_assoc] at h
  have hturn := hfirst.resume h
  rw [each_cons, hbody, bind_assoc, bind_assoc, bind_assoc] at hturn
  exact ⟨_, hread.resume hturn⟩

theorem turn_first (rest : List DnsEvent) (later : List Pool) :
    Turn body (pool :: later) (⟨.driver (.listMembers pool.record), .ok listed⟩ :: rest) pool listed
      rest :=
  ⟨[], later, [], [], rfl, .done _, rfl⟩

theorem Turn.later {other : Pool} {first : List DnsEvent} {value : α}
    (hfirst : Runs (body other) first (.ok value)) (ht : Turn body pools trace pool listed rest) :
    Turn body (other :: pools) (first ++ trace) pool listed rest := by
  obtain ⟨done, later, before, values, rfl, hdone, rfl⟩ := ht
  refine ⟨other :: done, later, first ++ before, value :: values, rfl, ?_, by simp⟩
  exact runs_each_cons_ok_iff.mpr ⟨first, before, value, values, hfirst, hdone, rfl, rfl⟩

end Turn

/-! ## Gates that stay shut -/

section Shut

variable {fleet : Fleet} {action : OverrideAction} {nodeName : String} {record : Option String}
  {confirm : Bool} {trace rest : List DnsEvent} {pool : Pool} {listed : List String}

/-- The override of `nodeName` reached the gate of `pool`. -/
def OverrideGate (fleet : Fleet) (action : OverrideAction) (nodeName : String)
    (record : Option String) (confirm : Bool) (trace : List DnsEvent) (ip : String) (pool : Pool)
    (listed : List String) (rest : List DnsEvent) : Prop :=
  ∃ found, fleet.findNode nodeName = some found ∧ found.2.2.host = ip ∧
    Turn (overridePool action nodeName ip confirm true) (poolsForNode fleet nodeName record) trace
      pool listed rest

theorem logged_of_shut {ip : String} {result : Except Exn OverrideResult}
    (h : Runs (dnsOverride fleet nodeName action record confirm true) trace result)
    (works : DnsLogWorks trace)
    (hgate : OverrideGate fleet action nodeName record confirm trace ip pool listed rest)
    (hshut : ¬ (overrideRequest action nodeName ip pool listed.toFinset).Opens confirm) :
    let decision := gate (overrideRequest action nodeName ip pool listed.toFinset) confirm
    DnsLogged rest
      ⟨"dns_" ++ action.text, pool.cluster, pool.record, decision.mode, decision.allowed⟩ := by
  obtain ⟨found, hfound, rfl, hturn⟩ := hgate
  have hworks : DnsLogWorks rest := by
    obtain ⟨_, _, first, _, _, _, rfl⟩ := hturn
    exact fun event he => works event (by simp [he])
  have hpools : poolsForNode fleet nodeName record ≠ [] := by
    obtain ⟨done, later, _, _, hpools, _⟩ := hturn
    simp [hpools]
  simp only [dnsOverride, hfound, if_neg hpools] at h
  obtain ⟨g, hrest⟩ := hturn.resume rfl h
  simp only [GateRequest.guard, if_neg hshut, pure_bind, bind_assoc] at hrest
  obtain ⟨later, rfl, -⟩ := runs_recordAudit hrest hworks
  exact List.mem_cons_self

end Shut

/-! ## Dry runs of a pass -/

section Preview

variable {clusters : List ClusterStatus} {trace rest : List DnsEvent} {pool : Pool}
  {listed : List String}

/-- A pass that probed `clusters` read the record of `pool`. -/
def PassTurn (fleet : Fleet) (dryRun : Bool) (trace : List DnsEvent)
    (clusters : List ClusterStatus) (pool : Pool) (listed : List String) (rest : List DnsEvent) :
    Prop :=
  ∃ turns, trace = ⟨.probe, .ok clusters⟩ :: turns ∧
    Turn (watchPool (nodeIps fleet) (statusByName clusters) true dryRun) fleet.pools turns pool
      listed rest

/-- All members fail and there is something to keep. -/
def Protects (fleet : Fleet) (clusters : List ClusterStatus) (pool : Pool)
    (listed : List String) : Prop :=
  poolDesired fleet clusters pool = ∅ ∧ listed.toFinset ≠ ∅

theorem silent_applyTurn {hosts desired current : Finset String} (hsub : desired ⊆ hosts)
    (h : ¬ (desired = ∅ ∧ current ≠ ∅)) :
    (applyTurn true true pool hosts desired current).AllCalls
      fun op : DnsEffect => ∀ entry, op ≠ .audit entry := by
  rw [applyTurn_eq hsub]
  by_cases hempty : desired = ∅
  · have hnone : current = ∅ := by simpa [hempty] using h
    rw [if_pos hempty, hnone]
    trivial
  · rw [if_neg hempty, if_pos (.inr rfl)]
    trivial

/-- The only entry a dry turn makes is that of a protected pool. -/
theorem AcceptedFleet.protects_of_logged (a : AcceptedFleet) (hp : pool ∈ a.fleet.pools)
    {result : Except Exn PoolReport} {entry : AuditEvent}
    (h : Runs (watchPool (nodeIps a.fleet) (statusByName clusters) true true pool) trace result)
    (hlogged : DnsLogged trace entry) :
    ∃ listed rest, trace = ⟨.driver (.listMembers pool.record), .ok listed⟩ :: rest ∧
      Protects a.fleet clusters pool listed := by
  rw [a.watchPool_eq clusters true true hp] at h
  cases h with
  | call answer hrest =>
      cases answer with
      | error e =>
          cases hrest
          cases List.mem_singleton.mp hlogged
      | ok listed =>
          refine ⟨listed, _, rfl, by_contra fun hnot => ?_⟩
          have hturn : Runs (applyTurn true true pool (poolHosts a.fleet pool)
              (poolDesired a.fleet clusters pool) listed.toFinset >>= fun _ => pure _) _ result :=
            hrest
          have hsilent := hturn.allCalls
            ((silent_applyTurn (poolDesired_subset a.fleet clusters pool) hnot).bind fun _ =>
              allCalls_pure _ _)
          obtain hread | hrest := List.mem_cons.mp hlogged
          · cases hread
          · exact hsilent _ hrest entry rfl

theorem AcceptedFleet.turn_of_logged (a : AcceptedFleet) {pools : List Pool}
    (hpools : ∀ pool ∈ pools, pool ∈ a.fleet.pools) {result : Except Exn (List PoolReport)}
    {entry : AuditEvent}
    (h : Runs (each pools (watchPool (nodeIps a.fleet) (statusByName clusters) true true)) trace
      result) (hlogged : DnsLogged trace entry) :
    ∃ pool listed rest, Turn (watchPool (nodeIps a.fleet) (statusByName clusters) true true) pools
      trace pool listed rest ∧ Protects a.fleet clusters pool listed := by
  induction pools generalizing trace result with
  | nil =>
      obtain ⟨rfl, -⟩ := runs_pure_iff.mp h
      cases hlogged
  | cons pool pools ih =>
      have hhead : ∀ {events : List DnsEvent} {outcome : Except Exn PoolReport},
          Runs (watchPool (nodeIps a.fleet) (statusByName clusters) true true pool) events
            outcome → DnsLogged events entry → ∀ rest, ∃ pool' listed tail,
              Turn (watchPool (nodeIps a.fleet) (statusByName clusters) true true) (pool :: pools)
                (events ++ rest) pool' listed tail ∧ Protects a.fleet clusters pool' listed := by
        intro events outcome hrun hlog rest
        obtain ⟨listed, tail, rfl, hprotects⟩ :=
          a.protects_of_logged (hpools pool (by simp)) hrun hlog
        exact ⟨pool, listed, tail ++ rest, turn_first _ _, hprotects⟩
      rw [each_cons] at h
      obtain ⟨first, rest, report, hfirst, hrest, rfl⟩ | ⟨e, hfirst, -⟩ := runs_bind_iff.mp h
      · obtain hlog | hlog := List.mem_append.mp hlogged
        · exact hhead hfirst hlog rest
        · have htail : ∃ outcome, Runs (each pools
              (watchPool (nodeIps a.fleet) (statusByName clusters) true true)) rest outcome := by
            rw [← map_eq_bind, runs_map_iff] at hrest
            exact ⟨_, hrest.choose_spec.1⟩
          obtain ⟨outcome, htail⟩ := htail
          obtain ⟨pool', listed, tail, hturn, hprotects⟩ :=
            ih (fun q hq => hpools q (by simp [hq])) htail hlog
          exact ⟨pool', listed, tail, hturn.later hfirst, hprotects⟩
      · simpa using hhead hfirst hlogged []

/-- A dry pass leaves an entry exactly where it gets to a protected pool. -/
theorem AcceptedFleet.previewed_iff (a : AcceptedFleet) {result : Except Exn WatchReport}
    (h : Runs (watchOnce a.fleet true true) trace result) (works : DnsLogWorks trace) :
    (∃ entry, DnsLogged trace entry ∧ entry.operation = "dns_watch" ∧ entry.mode = .dryRun) ↔
      ∃ clusters pool listed rest, PassTurn a.fleet true trace clusters pool listed rest ∧
        Protects a.fleet clusters pool listed := by
  constructor
  · rintro ⟨entry, hlogged, -⟩
    unfold watchOnce at h
    split at h
    · obtain ⟨rfl, -⟩ := runs_pure_iff.mp h
      cases hlogged
    cases h with
    | call answer hrest =>
        cases answer with
        | error e =>
            cases hrest
            cases List.mem_singleton.mp hlogged
        | ok clusters =>
            have hturns : Runs (each a.fleet.pools (watchPool (nodeIps a.fleet)
                (statusByName clusters) true true) >>= fun reports => pure _) _ result := hrest
            rw [← map_eq_bind, runs_map_iff] at hturns
            obtain ⟨outcome, hturns, -⟩ := hturns
            obtain hprobe | hlogged := List.mem_cons.mp hlogged
            · cases hprobe
            · obtain ⟨pool, listed, rest, hturn, hprotects⟩ :=
                a.turn_of_logged (fun _ hp => hp) hturns hlogged
              exact ⟨clusters, pool, listed, rest, ⟨_, rfl, hturn⟩, hprotects⟩
  · rintro ⟨clusters, pool, listed, rest, ⟨turns, rfl, hturn⟩, hempty, hlisted⟩
    obtain ⟨done, later, first, values, hpools, hdone, rfl⟩ := id hturn
    have hp : pool ∈ a.fleet.pools := by
      simp [hpools]
    rw [watchOnce, if_neg (List.ne_nil_of_mem hp)] at h
    have hprobe : Runs probeFleet [⟨.probe, .ok clusters⟩] (.ok clusters) :=
      runs_perform_iff.mpr rfl
    obtain ⟨g, hrest⟩ := hturn.resume (a.watchPool_eq clusters true true hp) (hprobe.resume h)
    rw [applyTurn_eq (poolDesired_subset a.fleet clusters pool), if_pos hempty,
      decide_eq_true hlisted, Bool.and_true, bind_assoc] at hrest
    obtain ⟨tail, rfl, -⟩ := runs_recordAudit hrest fun event he => works event (by simp [he])
    exact ⟨_, List.mem_cons_of_mem _ (List.mem_append_right _
      (List.mem_cons_of_mem _ List.mem_cons_self)), rfl, rfl⟩

end Preview

/-! ## What a request owes the log -/

/-- Every record an override writes has its entry, and a gate that stays shut leaves one
that says why. -/
structure OverrideAudited (fleet : Fleet) (action : OverrideAction) (nodeName : String)
    (record : Option String) (confirm : Bool) (trace : List DnsEvent) : Prop where
  executed : DnsExecuted ("dns_" ++ action.text) trace
  shut : ∀ ip pool listed rest,
    OverrideGate fleet action nodeName record confirm trace ip pool listed rest →
    ¬ (overrideRequest action nodeName ip pool listed.toFinset).Opens confirm →
    ∃ entry, DnsLogged rest entry ∧
      (entry.operation = "dns_" ++ action.text ∧ entry.node = pool.record) ∧
      (confirm = false → entry.mode = .dryRun) ∧
      ((gate (overrideRequest action nodeName ip pool listed.toFinset) confirm).allowed = false →
        entry.allowed = false)

/-- The pass found a record it would change. -/
def WouldChange (fleet : Fleet) (trace : List DnsEvent) : Prop :=
  ∃ clusters pool listed rest, PassTurn fleet true trace clusters pool listed rest ∧
    ¬ pool.Settled fleet clusters listed.toFinset

/-- Every record a pass writes has its entry, and a dry run that would change one leaves
an entry as well. -/
structure PassAudited (fleet : Fleet) (dryRun : Bool) (trace : List DnsEvent) : Prop where
  executed : DnsExecuted "dns_watch" trace
  previewed : dryRun = true → WouldChange fleet trace →
    ∃ entry, DnsLogged trace entry ∧ entry.operation = "dns_watch" ∧ entry.mode = .dryRun

/-- No exception takes an entry along, and a dry run that would change a record gets to a
pool it protects. -/
structure PassSteady (fleet : Fleet) (dryRun : Bool) (trace : List DnsEvent) : Prop where
  steady : DnsSteady trace
  protects : dryRun = true → WouldChange fleet trace →
    ∃ clusters pool listed rest, PassTurn fleet true trace clusters pool listed rest ∧
      Protects fleet clusters pool listed

namespace DnsRequest

def audit : DnsRequest → Bool
  | .watch audit _ => audit
  | .eject _ _ _ audit | .restore _ _ _ audit => audit

def Audited (fleet : Fleet) (trace : List DnsEvent) : DnsRequest → Prop
  | .watch _ dryRun => PassAudited fleet dryRun trace
  | .eject nodeName record confirm _ =>
      OverrideAudited fleet .eject nodeName record confirm trace
  | .restore nodeName record confirm _ =>
      OverrideAudited fleet .restore nodeName record confirm trace

def Steady (fleet : Fleet) (trace : List DnsEvent) : DnsRequest → Prop
  | .watch _ dryRun => PassSteady fleet dryRun trace
  | .eject .. | .restore .. => DnsSteady trace

end DnsRequest

section Owed

variable {trace : List DnsEvent}

theorem overrideAudited_iff {fleet : Fleet} {nodeName : String} {action : OverrideAction}
    {record : Option String} {confirm : Bool} {result : Except Exn OverrideResult}
    (h : Runs (dnsOverride fleet nodeName action record confirm true) trace result)
    (works : DnsLogWorks trace) :
    OverrideAudited fleet action nodeName record confirm trace ↔ DnsSteady trace := by
  obtain ⟨hiff, -⟩ := accounts_dnsOverride fleet nodeName action record confirm trace result h works
  refine ⟨fun haudited => hiff.mp haudited.executed, fun hsteady => ⟨hiff.mpr hsteady, ?_⟩⟩
  intro ip pool listed rest hgate hshut
  refine ⟨_, logged_of_shut h works hgate hshut, ⟨rfl, rfl⟩, ?_, id⟩
  rintro rfl
  rfl

theorem AcceptedFleet.passAudited_iff (a : AcceptedFleet) {dryRun : Bool}
    {result : Except Exn WatchReport} (h : Runs (watchOnce a.fleet true dryRun) trace result)
    (works : DnsLogWorks trace) :
    PassAudited a.fleet dryRun trace ↔ PassSteady a.fleet dryRun trace := by
  obtain ⟨hiff, -⟩ := accounts_watchOnce a dryRun trace result h works
  constructor
  · refine fun haudited => ⟨hiff.mp haudited.executed, ?_⟩
    rintro rfl hchange
    exact (a.previewed_iff h works).mp (haudited.previewed rfl hchange)
  · refine fun hsteady => ⟨hiff.mpr hsteady.steady, ?_⟩
    rintro rfl hchange
    exact (a.previewed_iff h works).mpr (hsteady.protects rfl hchange)

theorem DnsRequest.audited_iff (a : AcceptedFleet) {request : DnsRequest}
    (given : request.audit = true) {result : Except Exn Unit}
    (h : Runs (request.program a.fleet) trace result) (works : DnsLogWorks trace) :
    request.Audited a.fleet trace ↔ request.Steady a.fleet trace := by
  cases request with
  | watch audit dryRun =>
      obtain rfl : audit = true := given
      obtain ⟨_, hrun, -⟩ := runs_map_iff.mp h
      exact a.passAudited_iff hrun works
  | eject nodeName record confirm audit =>
      obtain rfl : audit = true := given
      obtain ⟨_, hrun, -⟩ := runs_map_iff.mp h
      exact overrideAudited_iff hrun works
  | restore nodeName record confirm audit =>
      obtain rfl : audit = true := given
      obtain ⟨_, hrun, -⟩ := runs_map_iff.mp h
      exact overrideAudited_iff hrun works

end Owed

end Solfleet
