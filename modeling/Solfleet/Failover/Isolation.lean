import Solfleet.Failover.Auditing
import Solfleet.Failover.RecordTtl

/-! # Isolation of the pools

A pass takes the pools in turn and the loop takes the passes in turn, and no step of either
catches what a driver call raises. What a failing call costs the other pools is told by
comparing the loop with itself, once under all faults and once under the faults of one pool.
-/

namespace Solfleet

open Interaction Program

/-! ## Faults -/

/-- How a driver call raises: before it took effect or after. -/
structure Fault where
  exn : Exn
  performed : Bool := false

/-- The driver calls that raise, by the round they are made in. -/
abbrev Faults := Nat → DriverCall → Option Fault

namespace Faults

/-- The faults of the calls on one record. -/
def only (faults : Faults) (record : String) : Faults :=
  fun k c => if c.record = record then faults k c else none

/-- One of the calls raises. -/
def raises (faults : Faults) (k : Nat) (calls : List DriverCall) : Bool :=
  calls.any fun c => (faults k c).isSome

variable {faults : Faults} {k : Nat} {calls : List DriverCall} {record : String}

theorem raises_append {more : List DriverCall} :
    faults.raises k (calls ++ more) = (faults.raises k calls || faults.raises k more) :=
  List.any_append

theorem raises_cons {c : DriverCall} :
    faults.raises k (c :: calls) = ((faults k c).isSome || faults.raises k calls) :=
  List.any_cons

theorem raises_only (h : ∀ c ∈ calls, c.record = record) :
    (faults.only record).raises k calls = faults.raises k calls := by
  rw [Bool.eq_iff_iff, raises, raises, List.any_eq_true, List.any_eq_true]
  refine exists_congr fun c => and_congr_right fun hc => ?_
  rw [only, if_pos (h c hc)]

theorem raises_only_of_ne (h : ∀ c ∈ calls, c.record ≠ record) :
    (faults.only record).raises k calls = false := by
  refine List.any_eq_false.mpr fun c hc => ?_
  rw [only, if_neg (h c hc)]
  exact Bool.false_ne_true

end Faults

/-! ## The loop under faults -/

/-- The provider, what each round found there, and the calls that raised. -/
structure Watched (D : DnsDriver) where
  dns : D.State
  starts : List D.State := []
  raised : List (Nat × DriverCall) := []

namespace Watched

variable {D : DnsDriver}

/-- What the rounds found, and what the last one left. -/
def states (w : Watched D) : List D.State := w.starts ++ [w.dns]

/-- The set of a record at the end of round `k`. -/
def endOf (w : Watched D) (k : Nat) (record : String) : Option (Finset String) :=
  w.states[k + 1]?.map fun s => D.members s record

end Watched

/-- A round begins with its probe, and finds `probes k`. -/
def DnsDriver.loopHandler (D : DnsDriver) (probes : Nat → List ClusterStatus)
    (faults : Faults) : Handler dnsSignature Exn (Watched D)
  | .driver c, w =>
      match faults (w.starts.length - 1) c with
      | none => (.ok (D.perform w.dns c).1, { w with dns := (D.perform w.dns c).2 })
      | some fault =>
          (.error fault.exn,
            { w with
              dns := if fault.performed then (D.perform w.dns c).2 else w.dns
              raised := w.raised ++ [(w.starts.length - 1, c)] })
  | .probe, w => (.ok (probes w.starts.length), { w with starts := w.starts ++ [w.dns] })
  | .audit _, w => (.ok (), w)
  | .sleep _, w => (.ok (), w)
  | .onRound _, w => (.ok (), w)

/-- The loop from `s`, up to its last call. -/
def DnsDriver.watched (D : DnsDriver) (probes : Nat → List ClusterStatus)
    (p : DnsProgram Unit) (s : D.State) (faults : Faults) : Watched D :=
  (exec (D.loopHandler probes faults) p ⟨s, [], []⟩).final

/-- All rounds begin (without pools there is nothing to probe for), and in each of them a pool
none of whose own calls raises ends in the set it ends in when no other pool's calls raise. -/
def PoolsIsolated {D : DnsDriver} (fleet : Fleet) (n : Nat) (run : Faults → Watched D)
    (faults : Faults) : Prop :=
  (fleet.pools ≠ [] → (run faults).starts.length = n) ∧
    ∀ k < n, ∀ pool ∈ fleet.pools,
      (∀ c, (k, c) ∉ (run (faults.only pool.record)).raised) →
        (run faults).endOf k pool.record = (run (faults.only pool.record)).endOf k pool.record

/-! ## What a turn calls -/

/-- The set a turn without faults leaves. -/
def nextSet (fleet : Fleet) (clusters : List ClusterStatus) (dryRun : Bool)
    (current : Finset String) (pool : Pool) : Finset String :=
  if dryRun then current else turnSet fleet clusters current pool

/-- The calls that move a record from `current` to the next set. -/
def moveCalls (fleet : Fleet) (clusters : List ClusterStatus) (dryRun : Bool)
    (current : Finset String) (pool : Pool) : List DriverCall :=
  if nextSet fleet clusters dryRun current pool = current then []
  else
    .ensureMarker pool.record ::
      ((sorted (Reconcile.toRemove current (poolHosts fleet pool)
          (poolDesired fleet clusters pool))).map (DriverCall.removeMember pool.record) ++
        (sorted (Reconcile.toAdd current (poolDesired fleet clusters pool))).map
          fun ip => .addMember pool.record ip pool.ttl)

/-- The driver calls of a turn that finds `current`. -/
def turnCalls (fleet : Fleet) (clusters : List ClusterStatus) (dryRun : Bool)
    (current : Finset String) (pool : Pool) : List DriverCall :=
  .listMembers pool.record :: moveCalls fleet clusters dryRun current pool

theorem record_of_mem_turnCalls {fleet : Fleet} {clusters : List ClusterStatus} {dryRun : Bool}
    {current : Finset String} {pool : Pool} {c : DriverCall}
    (h : c ∈ turnCalls fleet clusters dryRun current pool) : c.record = pool.record := by
  rcases List.mem_cons.mp h with rfl | h
  · rfl
  unfold moveCalls at h
  split at h
  · cases h
  rcases List.mem_cons.mp h with rfl | h
  · rfl
  rcases List.mem_append.mp h with h | h
  · obtain ⟨ip, -, rfl⟩ := List.mem_map.mp h
    rfl
  · obtain ⟨ip, -, rfl⟩ := List.mem_map.mp h
    rfl

/-! ## One turn under faults -/

/-- The change of its record's set. -/
def DriverCall.onSet : DriverCall → Finset String → Finset String
  | .addMember _ ip _, x => insert ip x
  | .removeMember _ ip, x => x.erase ip
  | .listMembers _, x | .hasMarker _, x | .ensureMarker _, x => x

theorem LawfulDriver.members_perform_record (D : LawfulDriver) (s : D.State) (c : DriverCall) :
    D.members (D.perform s c).2 c.record = c.onSet (D.members s c.record) := by
  rw [D.members_perform]
  cases c with
  | listMembers | hasMarker | ensureMarker => rfl
  | addMember record ip ttl => exact Function.update_self ..
  | removeMember record ip => exact Function.update_self ..

theorem LawfulDriver.members_perform_of_ne (D : LawfulDriver) (s : D.State) {c : DriverCall}
    {r : String} (h : r ≠ c.record) : D.members (D.perform s c).2 r = D.members s r := by
  rw [D.members_perform]
  cases c with
  | listMembers | hasMarker | ensureMarker => rfl
  | addMember record ip ttl => exact Function.update_of_ne h ..
  | removeMember record ip => exact Function.update_of_ne h ..

section Turns

variable {D : LawfulDriver} {probes : Nat → List ClusterStatus} {faults : Faults} {k : Nat}
  {record : String} {α β : Type} {x y z : Finset String} {calls more : List DriverCall}

/-- From the set `x` of its record the program makes the calls. Where none of them raises it
returns and leaves `y`, else it ends with the first that does. Other records it leaves alone. -/
structure TurnEnds (D : LawfulDriver) (probes : Nat → List ClusterStatus) (faults : Faults)
    (k : Nat) (record : String) (p : DnsProgram α) (calls : List DriverCall)
    (x y : Finset String) : Prop where
  returns : faults.raises k calls = false → ∀ w : Watched D, w.starts.length = k + 1 →
    D.members w.dns record = x → ∃ a dns,
      Ends (D.loopHandler probes faults) p w a { w with dns } ∧ D.members dns record = y ∧
        ∀ r, r ≠ record → D.members dns r = D.members w.dns r
  stops : faults.raises k calls = true → ∀ w : Watched D, w.starts.length = k + 1 →
    D.members w.dns record = x → ∃ dns, ∃ c ∈ calls,
      Stops (D.loopHandler probes faults) p w { w with dns, raised := w.raised ++ [(k, c)] } ∧
        ∀ r, r ≠ record → D.members dns r = D.members w.dns r

theorem turnEnds_pure (a : α) : TurnEnds D probes faults k record (pure a) [] x x where
  returns _ w _ hx := ⟨a, w.dns, ends_pure, hx, fun _ _ => rfl⟩
  stops h := by cases h

theorem TurnEnds.bind {p : DnsProgram α} {f : α → DnsProgram β}
    (hp : TurnEnds D probes faults k record p calls x y)
    (hf : ∀ a, TurnEnds D probes faults k record (f a) more y z) :
    TurnEnds D probes faults k record (p >>= f) (calls ++ more) x z where
  returns hcalm w hk hx := by
    obtain ⟨hfirst, hrest⟩ := Bool.or_eq_false_iff.mp (Faults.raises_append ▸ hcalm)
    obtain ⟨a, dns, hends, hy, hframe⟩ := hp.returns hfirst w hk hx
    obtain ⟨b, dns', hends', hz, hframe'⟩ := (hf a).returns hrest { w with dns } hk hy
    exact ⟨b, dns', hends.bind hends', hz, fun r hr => (hframe' r hr).trans (hframe r hr)⟩
  stops hraises w hk hx := by
    cases hfirst : faults.raises k calls with
    | true =>
        obtain ⟨dns, c, hc, hstops, hframe⟩ := hp.stops hfirst w hk hx
        exact ⟨dns, c, List.mem_append_left _ hc, hstops.bind f, hframe⟩
    | false =>
        rw [Faults.raises_append, hfirst, Bool.false_or] at hraises
        obtain ⟨a, dns, hends, hy, hframe⟩ := hp.returns hfirst w hk hx
        obtain ⟨dns', c, hc, hstops, hframe'⟩ := (hf a).stops hraises { w with dns } hk hy
        exact ⟨dns', c, List.mem_append_right _ hc, hends.stops hstops,
          fun r hr => (hframe' r hr).trans (hframe r hr)⟩

theorem loopHandler_driver {w : Watched D} (hk : w.starts.length = k + 1) (c : DriverCall) :
    D.loopHandler probes faults (.driver c) w =
      match faults k c with
      | none => (.ok (D.perform w.dns c).1, { w with dns := (D.perform w.dns c).2 })
      | some fault =>
          (.error fault.exn,
            { w with
              dns := if fault.performed then (D.perform w.dns c).2 else w.dns
              raised := w.raised ++ [(k, c)] }) := by
  simp only [DnsDriver.loopHandler, hk, Nat.add_sub_cancel]

theorem loopHandler_ok {w : Watched D} (hk : w.starts.length = k + 1) {c : DriverCall}
    (hcalm : (faults k c).isSome = false) :
    D.loopHandler probes faults (.driver c) w =
      (.ok (D.perform w.dns c).1, { w with dns := (D.perform w.dns c).2 }) := by
  have hnone : faults k c = none := by simpa using hcalm
  rw [loopHandler_driver hk, hnone]

variable (probes) in
/-- What a raising call leaves, and that it is on its own record that it may have had effect. -/
theorem loopHandler_error {w : Watched D} (hk : w.starts.length = k + 1) {c : DriverCall}
    (hraises : (faults k c).isSome = true) :
    ∃ e dns, D.loopHandler probes faults (.driver c) w =
        (.error e, { w with dns, raised := w.raised ++ [(k, c)] }) ∧
      ∀ r, r ≠ c.record → D.members dns r = D.members w.dns r := by
  obtain ⟨fault, hfault⟩ := Option.isSome_iff_exists.mp hraises
  refine ⟨fault.exn, if fault.performed then (D.perform w.dns c).2 else w.dns, ?_, fun r hr => ?_⟩
  · rw [loopHandler_driver hk, hfault]
  · split
    · exact D.members_perform_of_ne w.dns hr
    · rfl

theorem turnEnds_driverCall {c : DriverCall} (hrecord : c.record = record) :
    TurnEnds D probes faults k record (driverCall c) [c] x (c.onSet x) where
  returns hcalm w hk hx := by
    have hc : (faults k c).isSome = false := by simpa [Faults.raises] using hcalm
    subst hrecord
    refine ⟨_, _, ends_perform (loopHandler_ok hk hc), ?_, fun r hr => ?_⟩
    · rw [D.members_perform_record, hx]
    · exact D.members_perform_of_ne w.dns hr
  stops hraises w hk hx := by
    have hc : (faults k c).isSome = true := by simpa [Faults.raises] using hraises
    subst hrecord
    obtain ⟨e, dns, hanswer, hframe⟩ := loopHandler_error probes hk hc
    exact ⟨dns, c, by simp, stops_perform hanswer, hframe⟩

/-- The rest of a turn goes by the set that the record is read to have. -/
theorem turnEnds_listMembers {f : List String → DnsProgram β}
    (hf : ∀ listed : List String, listed.toFinset = x →
      TurnEnds D probes faults k record (f listed) more x y) :
    TurnEnds D probes faults k record (driverCall (.listMembers record) >>= f)
      (.listMembers record :: more) x y where
  returns hcalm w hk hx := by
    obtain ⟨hread, hrest⟩ := Bool.or_eq_false_iff.mp (Faults.raises_cons ▸ hcalm)
    obtain ⟨b, dns, hends, hy, hframe⟩ := (hf _ hx).returns hrest w hk hx
    exact ⟨b, dns, (ends_perform (loopHandler_ok hk hread)).bind hends, hy, hframe⟩
  stops hraises w hk hx := by
    cases hread : (faults k (.listMembers record)).isSome with
    | true =>
        obtain ⟨e, dns, hanswer, hframe⟩ := loopHandler_error probes hk hread
        have hlist : Stops (D.loopHandler probes faults) (driverCall (.listMembers record)) w _ :=
          stops_perform hanswer
        exact ⟨dns, _, List.mem_cons_self, hlist.bind f, hframe⟩
    | false =>
        rw [Faults.raises_cons, hread, Bool.false_or] at hraises
        obtain ⟨dns, c, hc, hstops, hframe⟩ := (hf _ hx).stops hraises w hk hx
        have hlist : Ends (D.loopHandler probes faults) (driverCall (.listMembers record)) w
            (D.listMembers w.dns record) w := ends_perform (loopHandler_ok hk hread)
        exact ⟨dns, c, List.mem_cons_of_mem _ hc, hlist.stops hstops, hframe⟩

theorem turnEnds_recordAudit (audit : Bool) (event : AuditEvent) :
    TurnEnds D probes faults k record (recordAudit audit event) [] x x where
  returns _ w _ hx := by
    refine ⟨(), w.dns, ?_, hx, fun _ _ => rfl⟩
    cases audit with
    | false => exact ends_pure
    | true => exact ends_perform rfl
  stops h := by cases h

theorem turnEnds_each {ips : List String} {call : String → DriverCall}
    {body : String → DnsProgram α}
    (hbody : ∀ ip x, TurnEnds D probes faults k record (body ip) [call ip] x ((call ip).onSet x)) :
    TurnEnds D probes faults k record (each ips body) (ips.map call) x
      (ips.foldl (fun x ip => (call ip).onSet x) x) := by
  induction ips generalizing x with
  | nil => exact turnEnds_pure []
  | cons ip ips ih =>
      have hrest : ∀ a, TurnEnds D probes faults k record
          (each ips body >>= fun as => pure (a :: as)) (ips.map call ++ []) ((call ip).onSet x) _ :=
        fun a => ih.bind fun as => turnEnds_pure (a :: as)
      simp only [List.append_nil] at hrest
      exact (hbody ip x).bind hrest

end Turns

section Folds

variable {x : Finset String} {ips : List String}

theorem foldl_erase : ips.foldl (fun x ip => x.erase ip) x = x \ ips.toFinset := by
  induction ips generalizing x with
  | nil => simp
  | cons ip ips ih =>
      rw [List.foldl_cons, ih, List.toFinset_cons, Finset.sdiff_insert, Finset.erase_sdiff_comm]

theorem foldl_insert : ips.foldl (fun x ip => insert ip x) x = x ∪ ips.toFinset := by
  induction ips generalizing x with
  | nil => simp
  | cons ip ips ih =>
      rw [List.foldl_cons, ih, List.toFinset_cons, Finset.union_insert, Finset.insert_union]

end Folds

section Pass

variable {D : LawfulDriver} {probes : Nat → List ClusterStatus} {faults : Faults} {k : Nat}
  {clusters : List ClusterStatus} {x : Finset String}

theorem turnEnds_reconcilePool (audit : Bool) (pool : Pool) (toRemove toAdd : List String) :
    TurnEnds D probes faults k pool.record (reconcilePool audit pool toRemove toAdd)
      (.ensureMarker pool.record ::
        (toRemove.map (DriverCall.removeMember pool.record) ++
          toAdd.map fun ip => .addMember pool.record ip pool.ttl)) x
      (x \ toRemove.toFinset ∪ toAdd.toFinset) := by
  have hremove : TurnEnds D probes faults k pool.record
      (each toRemove fun ip => driverCall (.removeMember pool.record ip))
      (toRemove.map (DriverCall.removeMember pool.record)) x
        (toRemove.foldl (fun x ip => x.erase ip) x) :=
    turnEnds_each fun ip x => turnEnds_driverCall (c := .removeMember pool.record ip) rfl
  have hadd : ∀ x, TurnEnds D probes faults k pool.record
      (each toAdd fun ip => driverCall (.addMember pool.record ip pool.ttl))
      (toAdd.map fun ip => .addMember pool.record ip pool.ttl) x
      (toAdd.foldl (fun x ip => insert ip x) x) :=
    fun x => turnEnds_each fun ip x =>
      turnEnds_driverCall (c := .addMember pool.record ip pool.ttl) rfl
  have hmark : TurnEnds D probes faults k pool.record (driverCall (.ensureMarker pool.record))
      [.ensureMarker pool.record] x x := turnEnds_driverCall rfl
  have hturn := hmark.bind fun _ => hremove.bind fun _ => (hadd _).bind fun _ =>
    turnEnds_recordAudit audit ⟨"dns_watch", pool.cluster, pool.record, .execute, true⟩
  have hsets : (toAdd.foldl (fun x ip => insert ip x)
      (toRemove.foldl (fun x ip => x.erase ip) x)) = x \ toRemove.toFinset ∪ toAdd.toFinset := by
    rw [foldl_erase, foldl_insert]
  rw [← hsets, reconcilePool_eq]
  simpa [changeRecord] using hturn

theorem turnEnds_applyTurn (fleet : Fleet) (audit dryRun : Bool) (pool : Pool) :
    TurnEnds D probes faults k pool.record
      (applyTurn audit dryRun pool (poolHosts fleet pool) (poolDesired fleet clusters pool) x)
      (moveCalls fleet clusters dryRun x pool) x (nextSet fleet clusters dryRun x pool) := by
  have hsub := poolDesired_subset fleet clusters pool
  rw [applyTurn_eq hsub, moveCalls]
  by_cases hempty : poolDesired fleet clusters pool = ∅
  · have hsame : nextSet fleet clusters dryRun x pool = x := by simp [nextSet, turnSet, hempty]
    rw [if_pos hempty, hsame, if_pos rfl]
    exact turnEnds_recordAudit _ _
  rw [if_neg hempty]
  by_cases hidle : turnSet fleet clusters x pool = x ∨ dryRun = true
  · have hsame : nextSet fleet clusters dryRun x pool = x := by
      rcases hidle with hidle | rfl
      · simp [nextSet, hidle]
      · rfl
    rw [turnSet] at hidle
    rw [if_pos hidle, hsame, if_pos rfl]
    exact turnEnds_pure ()
  · obtain ⟨hmoves, hreal⟩ := not_or.mp hidle
    have hnext : nextSet fleet clusters dryRun x pool = turnSet fleet clusters x pool :=
      if_neg hreal
    have htarget : turnSet fleet clusters x pool =
        x \ (sorted (Reconcile.toRemove x (poolHosts fleet pool)
            (poolDesired fleet clusters pool))).toFinset ∪
          (sorted (Reconcile.toAdd x (poolDesired fleet clusters pool))).toFinset := by
      rw [toFinset_sorted, toFinset_sorted, Reconcile.sdiff_toRemove_union_toAdd hsub, turnSet,
        Reconcile.target_of_ne hempty]
    rw [hnext, if_neg hmoves, htarget]
    rw [turnSet] at hidle
    rw [if_neg hidle]
    exact turnEnds_reconcilePool audit pool _ _

variable (probes) in
theorem turnEnds_watchPool (a : AcceptedFleet) (audit dryRun : Bool) {pool : Pool}
    (hp : pool ∈ a.fleet.pools) :
    TurnEnds D probes faults k pool.record
      (watchPool (nodeIps a.fleet) (statusByName clusters) audit dryRun pool)
      (turnCalls a.fleet clusters dryRun x pool) x (nextSet a.fleet clusters dryRun x pool) := by
  rw [a.watchPool_eq clusters audit dryRun hp]
  refine turnEnds_listMembers fun listed hlisted => ?_
  rw [hlisted, ← List.append_nil (moveCalls a.fleet clusters dryRun x pool)]
  exact (turnEnds_applyTurn a.fleet audit dryRun pool).bind fun _ => turnEnds_pure _

variable (probes) in
/-- The step of a pass: turns none of whose calls raises. -/
theorem each_returns (a : AcceptedFleet) (audit dryRun : Bool) {pools : List Pool}
    (hsub : ∀ pool ∈ pools, pool ∈ a.fleet.pools) (hnodup : (pools.map (·.record)).Nodup)
    {sets : Pool → Finset String}
    (hcalm : ∀ pool ∈ pools,
      faults.raises k (turnCalls a.fleet clusters dryRun (sets pool) pool) = false)
    {w : Watched D} (hk : w.starts.length = k + 1)
    (hsets : ∀ pool ∈ pools, D.members w.dns pool.record = sets pool) :
    ∃ reports dns,
      Ends (D.loopHandler probes faults)
        (each pools (watchPool (nodeIps a.fleet) (statusByName clusters) audit dryRun)) w reports
        { w with dns } ∧
      (∀ pool ∈ pools,
        D.members dns pool.record = nextSet a.fleet clusters dryRun (sets pool) pool) ∧
      ∀ r ∉ pools.map (·.record), D.members dns r = D.members w.dns r := by
  induction pools generalizing w with
  | nil => exact ⟨[], w.dns, ends_pure, by simp, fun _ _ => rfl⟩
  | cons pool pools ih =>
      obtain ⟨hp, hsub⟩ := List.forall_mem_cons.mp hsub
      obtain ⟨hne, hnodup⟩ := List.nodup_cons.mp hnodup
      obtain ⟨hfirst, hcalm⟩ := List.forall_mem_cons.mp hcalm
      obtain ⟨hx, hsets⟩ := List.forall_mem_cons.mp hsets
      have hother : ∀ q ∈ pools, q.record ≠ pool.record :=
        fun q hq heq => hne (List.mem_map.mpr ⟨q, hq, heq⟩)
      obtain ⟨report, dns, hturn, hnext, hframe⟩ :=
        (turnEnds_watchPool probes a audit dryRun hp).returns hfirst w hk hx
      obtain ⟨reports, dns', hrest, hnexts, hframe'⟩ :=
        ih hsub hnodup hcalm (w := { w with dns }) hk fun q hq =>
          (hframe _ (hother q hq)).trans (hsets q hq)
      refine ⟨report :: reports, dns', ?_, List.forall_mem_cons.mpr ⟨?_, hnexts⟩, fun r hr => ?_⟩
      · exact hturn.bind (hrest.bind ends_pure)
      · rw [hframe' _ hne, hnext]
      · rw [List.map_cons, List.mem_cons, not_or] at hr
        exact (hframe' r hr.2).trans (hframe r hr.1)

variable (probes) in
/-- The turn that raises is the last one. -/
theorem each_stops (a : AcceptedFleet) (audit dryRun : Bool) {before after : List Pool}
    {pool : Pool} (hsub : ∀ q ∈ before ++ pool :: after, q ∈ a.fleet.pools)
    (hnodup : ((before ++ pool :: after).map (·.record)).Nodup) {sets : Pool → Finset String}
    (hcalm : ∀ q ∈ before, faults.raises k (turnCalls a.fleet clusters dryRun (sets q) q) = false)
    (hraises : faults.raises k (turnCalls a.fleet clusters dryRun (sets pool) pool) = true)
    {w : Watched D} (hk : w.starts.length = k + 1)
    (hsets : ∀ q ∈ before ++ pool :: after, D.members w.dns q.record = sets q) :
    ∃ dns c, c.record = pool.record ∧
      Stops (D.loopHandler probes faults)
        (each (before ++ pool :: after)
          (watchPool (nodeIps a.fleet) (statusByName clusters) audit dryRun)) w
        { w with dns, raised := w.raised ++ [(k, c)] } ∧
      (∀ q ∈ before, D.members dns q.record = nextSet a.fleet clusters dryRun (sets q) q) ∧
      ∀ q ∈ after, D.members dns q.record = sets q := by
  simp only [List.forall_mem_append, List.forall_mem_cons] at hsub hsets
  obtain ⟨hsubBefore, hp, -⟩ := hsub
  obtain ⟨hsetsBefore, hx, hsetsAfter⟩ := hsets
  rw [List.map_append, List.map_cons, List.nodup_append] at hnodup
  obtain ⟨hnodupBefore, hnodupRest, happart⟩ := hnodup
  have hpool : pool.record ∉ before.map (·.record) :=
    fun h => happart _ h _ List.mem_cons_self rfl
  have hafter : ∀ q ∈ after, q.record ∉ before.map (·.record) :=
    fun q hq h => happart _ h _ (List.mem_cons_of_mem _ (List.mem_map_of_mem hq)) rfl
  obtain ⟨reports, dns, hfirst, hnexts, hframe⟩ :=
    each_returns probes a audit dryRun hsubBefore hnodupBefore hcalm hk hsetsBefore
  obtain ⟨dns', c, hc, hstops, hframe'⟩ :=
    (turnEnds_watchPool probes a audit dryRun hp).stops hraises { w with dns } hk
      ((hframe _ hpool).trans hx)
  refine ⟨dns', c, record_of_mem_turnCalls hc, ?_, fun q hq => ?_, fun q hq => ?_⟩
  · rw [each_append, each_cons]
    exact hfirst.stops ((hstops.bind _).bind _)
  · have hne : q.record ≠ pool.record := fun heq => hpool (heq ▸ List.mem_map_of_mem hq)
    rw [hframe' _ hne, hnexts q hq]
  · have hne : q.record ≠ pool.record :=
      fun heq => (List.nodup_cons.mp hnodupRest).1 (heq ▸ List.mem_map_of_mem hq)
    rw [hframe' _ hne, hframe _ (hafter q hq), hsetsAfter q hq]

end Pass

/-! ## Rounds -/

/-- The set of a pool's record at the start of round `k` when all its turns so far completed. -/
def setAt (fleet : Fleet) (probes : Nat → List ClusterStatus) (dryRun : Bool)
    (start : String → Finset String) (pool : Pool) : Nat → Finset String
  | 0 => start pool.record
  | k + 1 => nextSet fleet (probes k) dryRun (setAt fleet probes dryRun start pool k) pool

/-- A call of the pool's turn in round `k` raises. -/
def turnRaises (fleet : Fleet) (probes : Nat → List ClusterStatus) (dryRun : Bool)
    (start : String → Finset String) (faults : Faults) (k : Nat) (pool : Pool) : Bool :=
  faults.raises k
    (turnCalls fleet (probes k) dryRun (setAt fleet probes dryRun start pool k) pool)

/-- The pools a pass does not come to: those behind the first one whose turn raises. -/
def cutOff (raises : Pool → Bool) (pools : List Pool) : List Pool :=
  (pools.dropWhile fun pool => !raises pool).tail

/-- No turn raises before the last round. Where one does in the last round, each pool behind it
raises as well or is as its turn would leave it. -/
def FaultsContained (fleet : Fleet) (probes : Nat → List ClusterStatus) (dryRun : Bool)
    (start : String → Finset String) (n : Nat) (faults : Faults) : Prop :=
  ∀ k < n,
    (k + 1 < n → ∀ pool ∈ fleet.pools,
      turnRaises fleet probes dryRun start faults k pool = false) ∧
    (k + 1 = n → ∀ pool ∈ cutOff (turnRaises fleet probes dryRun start faults k) fleet.pools,
      turnRaises fleet probes dryRun start faults k pool = true ∨
        setAt fleet probes dryRun start pool (k + 1) = setAt fleet probes dryRun start pool k)

instance (fleet : Fleet) (probes : Nat → List ClusterStatus) (dryRun : Bool)
    (start : String → Finset String) (n : Nat) (faults : Faults) :
    Decidable (FaultsContained fleet probes dryRun start n faults) := by
  unfold FaultsContained
  infer_instance

section Rounds

variable {fleet : Fleet} {probes : Nat → List ClusterStatus} {dryRun : Bool}
  {start : String → Finset String} {faults : Faults} {k : Nat} {pool : Pool}

theorem turnRaises_only {record : String} (h : pool.record = record) :
    turnRaises fleet probes dryRun start (faults.only record) k pool =
      turnRaises fleet probes dryRun start faults k pool :=
  Faults.raises_only fun _ hc => (record_of_mem_turnCalls hc).trans h

theorem turnRaises_only_of_ne {record : String} (h : pool.record ≠ record) :
    turnRaises fleet probes dryRun start (faults.only record) k pool = false :=
  Faults.raises_only_of_ne fun _ hc hrecord => h ((record_of_mem_turnCalls hc).symm.trans hrecord)

/-- The first turn of a pass that raises. -/
theorem exists_first {raises : Pool → Bool} {pools : List Pool} (h : ∃ q ∈ pools, raises q = true) :
    ∃ before pool after, pools = before ++ pool :: after ∧ (∀ q ∈ before, raises q = false) ∧
      raises pool = true ∧ cutOff raises pools = after := by
  unfold cutOff
  cases hrest : pools.dropWhile fun pool => !raises pool with
  | nil =>
      obtain ⟨q, hq, hraises⟩ := h
      have hcalm := List.dropWhile_eq_nil_iff.mp hrest q hq
      rw [hraises] at hcalm
      cases hcalm
  | cons pool after =>
      refine ⟨pools.takeWhile fun pool => !raises pool, pool, after, ?_, fun q hq => ?_, ?_, rfl⟩
      · rw [← hrest, List.takeWhile_append_dropWhile]
      · have hq := List.mem_takeWhile_imp hq
        simpa using hq
      · have hhead := List.head?_dropWhile_not (fun pool => !raises pool) pools
        rw [hrest] at hhead
        simpa using hhead

theorem cutOff_eq_nil {raises : Pool → Bool} {pools : List Pool}
    (h : ∀ q ∈ pools, raises q = false) : cutOff raises pools = [] := by
  have hnil : (pools.dropWhile fun pool => !raises pool) = [] :=
    List.dropWhile_eq_nil_iff.mpr fun q hq => by rw [h q hq, Bool.not_false]
  rw [cutOff, hnil, List.tail_nil]

end Rounds

/-! ## The run -/

namespace Watched

variable {D : LawfulDriver} {w w' : Watched D}

/-- At each start of a round so far, and now, every pool has its set. -/
structure Follows (w : Watched D) (pools : List Pool) (sets : Pool → Nat → Finset String) :
    Prop where
  raised : w.raised = []
  states : ∀ i ≤ w.starts.length, ∀ pool ∈ pools,
    w.states[i]?.map (fun s => D.members s pool.record) = some (sets pool i)

/-- The turn of `pool` ended the run in round `j`: the pools before it have the set of the next
round, those after it the set of this one. -/
structure StoppedAt (w : Watched D) (before : List Pool) (pool : Pool) (after : List Pool)
    (sets : Pool → Nat → Finset String) (j : Nat) : Prop where
  rounds : w.starts.length = j + 1
  raised : ∃ c, c.record = pool.record ∧ w.raised = [(j, c)]
  states : ∀ i ≤ j, ∀ q ∈ before ++ pool :: after,
    w.states[i]?.map (fun s => D.members s q.record) = some (sets q i)
  reached : ∀ q ∈ before, w.endOf j q.record = some (sets q (j + 1))
  missed : ∀ q ∈ after, w.endOf j q.record = some (sets q j)

theorem states_next {dns : D.State} {raised : List (Nat × DriverCall)} :
    (⟨dns, w.starts ++ [w.dns], raised⟩ : Watched D).states = w.states ++ [dns] := rfl

theorem length_states : w.states.length = w.starts.length + 1 := List.length_append

theorem getElem?_states_next {dns : D.State} {raised : List (Nat × DriverCall)} {i : Nat}
    (hi : i ≤ w.starts.length) :
    (⟨dns, w.starts ++ [w.dns], raised⟩ : Watched D).states[i]? = w.states[i]? := by
  rw [states_next, List.getElem?_append_left]
  rw [length_states]
  omega

theorem getElem?_states_last : w.states[w.starts.length]? = some w.dns := by simp [states]

theorem endOf_last {dns : D.State} {raised : List (Nat × DriverCall)} {record : String} :
    (⟨dns, w.starts ++ [w.dns], raised⟩ : Watched D).endOf w.starts.length record =
      some (D.members dns record) := by
  have hlast := getElem?_states_last (w := ⟨dns, w.starts ++ [w.dns], raised⟩)
  rw [List.length_append] at hlast
  rw [endOf, ← List.length_singleton (a := w.dns), hlast, Option.map_some]

variable {pools : List Pool} {sets : Pool → Nat → Finset String}

theorem Follows.current (h : w.Follows pools sets) {pool : Pool} (hp : pool ∈ pools) :
    D.members w.dns pool.record = sets pool w.starts.length := by
  have hlast := h.states _ le_rfl pool hp
  rw [getElem?_states_last] at hlast
  exact Option.some.inj hlast

/-- The step: a round after which every pool has its next set. -/
theorem Follows.next (h : w.Follows pools sets) {dns : D.State}
    (hnext : ∀ pool ∈ pools, D.members dns pool.record = sets pool (w.starts.length + 1)) :
    (⟨dns, w.starts ++ [w.dns], w.raised⟩ : Watched D).Follows pools sets := by
  refine ⟨h.raised, fun i hi pool hp => ?_⟩
  have hlength : (w.starts ++ [w.dns]).length = w.starts.length + 1 := List.length_append
  rcases Nat.lt_or_ge w.starts.length i with hlt | hle
  · obtain rfl : i = (w.starts ++ [w.dns]).length := by
      have hi : i ≤ (w.starts ++ [w.dns]).length := hi
      omega
    have hlast := getElem?_states_last (w := ⟨dns, w.starts ++ [w.dns], w.raised⟩)
    rw [hlast, Option.map_some, hlength]
    exact congrArg some (hnext pool hp)
  · rw [getElem?_states_next hle]
    exact h.states i hle pool hp

theorem Follows.endOf (h : w.Follows pools sets) {k : Nat} (hk : k < w.starts.length) {pool : Pool}
    (hp : pool ∈ pools) : w.endOf k pool.record = some (sets pool (k + 1)) :=
  h.states (k + 1) hk pool hp

section Stopped

variable {before after : List Pool} {pool q : Pool} {j k : Nat}

theorem StoppedAt.endOf (h : w.StoppedAt before pool after sets j) (hk : k < j)
    (hq : q ∈ before ++ pool :: after) : w.endOf k q.record = some (sets q (k + 1)) :=
  h.states (k + 1) hk q hq

/-- The stop is not seen on a pool that the pass did not come to but that stays as it is. -/
theorem StoppedAt.endOf_of_still (h : w.StoppedAt before pool after sets j) (hk : k ≤ j)
    (hq : q ∈ before ++ pool :: after) (hne : q ≠ pool)
    (hstill : q ∈ after → sets q (j + 1) = sets q j) :
    w.endOf k q.record = some (sets q (k + 1)) := by
  rcases Nat.lt_or_eq_of_le hk with hlt | rfl
  · exact h.endOf hlt hq
  rcases List.mem_append.mp hq with hbefore | hrest
  · exact h.reached q hbefore
  rcases List.mem_cons.mp hrest with hpool | hafter
  · exact absurd hpool hne
  · rw [h.missed q hafter, hstill hafter]

end Stopped

end Watched

section Loop

variable {D : LawfulDriver} {probes : Nat → List ClusterStatus} {faults : Faults} {dryRun : Bool}
  {start : String → Finset String} {w : Watched D}

theorem ends_probeFleet (w : Watched D) :
    Ends (D.loopHandler probes faults) probeFleet w (probes w.starts.length)
      { w with starts := w.starts ++ [w.dns] } := ends_perform rfl

theorem ends_onRound (w : Watched D) (notify : Bool) (report : WatchReport) :
    Ends (D.loopHandler probes faults)
      (if notify then perform (S := dnsSignature) (.onRound report) else pure ()) w () w := by
  cases notify with
  | false => exact ends_pure
  | true => exact ends_perform rfl

theorem ends_sleep (w : Watched D) (seconds : Int) :
    Ends (D.loopHandler probes faults) (perform (S := dnsSignature) (.sleep seconds)) w () w :=
  ends_perform rfl

theorem watchLoop_succ (fleet : Fleet) (interval : Int) (audit notify : Bool) (n : Nat) :
    watchLoop fleet interval audit dryRun notify (n + 1) =
      watchOnce fleet audit dryRun >>= fun report =>
        (if notify then perform (S := dnsSignature) (.onRound report) else pure ()) >>= fun _ =>
          if n = 0 then pure ()
          else
            perform (S := dnsSignature) (.sleep interval) >>= fun _ =>
              watchLoop fleet interval audit dryRun notify n := by
  cases notify <;> rfl

theorem watchOnce_returns (a : AcceptedFleet) (distinct : a.fleet.DistinctRecords)
    (hpools : a.fleet.pools ≠ []) (audit : Bool)
    (h : w.Follows a.fleet.pools (setAt a.fleet probes dryRun start))
    (hcalm : ∀ pool ∈ a.fleet.pools,
      turnRaises a.fleet probes dryRun start faults w.starts.length pool = false) :
    ∃ report w', Ends (D.loopHandler probes faults) (watchOnce a.fleet audit dryRun) w report w' ∧
      w'.Follows a.fleet.pools (setAt a.fleet probes dryRun start) ∧
        w'.starts.length = w.starts.length + 1 := by
  obtain ⟨reports, dns, hturns, hnext, -⟩ :=
    each_returns (w := { w with starts := w.starts ++ [w.dns] }) probes a audit dryRun
      (fun _ hp => hp) distinct hcalm List.length_append fun pool hp => h.current hp
  refine ⟨{ pools := reports }, _, ?_, h.next hnext, List.length_append⟩
  rw [watchOnce, if_neg hpools]
  exact (ends_probeFleet w).bind (hturns.bind ends_pure)

theorem watchOnce_stops (a : AcceptedFleet) (distinct : a.fleet.DistinctRecords) (audit : Bool)
    (h : w.Follows a.fleet.pools (setAt a.fleet probes dryRun start)) {before after : List Pool}
    {pool : Pool} (hsplit : a.fleet.pools = before ++ pool :: after)
    (hcalm : ∀ q ∈ before,
      turnRaises a.fleet probes dryRun start faults w.starts.length q = false)
    (hraises : turnRaises a.fleet probes dryRun start faults w.starts.length pool = true) :
    ∃ w', Stops (D.loopHandler probes faults) (watchOnce a.fleet audit dryRun) w w' ∧
      w'.StoppedAt before pool after (setAt a.fleet probes dryRun start) w.starts.length := by
  have hsub : ∀ q ∈ before ++ pool :: after, q ∈ a.fleet.pools := fun q hq => hsplit ▸ hq
  have hnodup : ((before ++ pool :: after).map (·.record)).Nodup := hsplit ▸ distinct
  obtain ⟨dns, c, hc, hturns, hreached, hmissed⟩ :=
    each_stops (w := { w with starts := w.starts ++ [w.dns] }) probes a audit dryRun
      hsub hnodup hcalm hraises List.length_append fun q hq => h.current (hsub q hq)
  have hpools : a.fleet.pools ≠ [] := by
    rw [hsplit]
    exact List.append_ne_nil_of_right_ne_nil _ (List.cons_ne_nil _ _)
  rw [← hsplit] at hturns
  refine ⟨⟨dns, w.starts ++ [w.dns], w.raised ++ [(w.starts.length, c)]⟩, ?_, List.length_append,
    ⟨c, hc, ?_⟩, fun i hi q hq => ?_, fun q hq => ?_, fun q hq => ?_⟩
  · rw [watchOnce, if_neg hpools]
    exact (ends_probeFleet w).stops (hturns.bind _)
  · rw [h.raised, List.nil_append]
  · rw [Watched.getElem?_states_next hi]
    exact h.states i hi q (hsub q hq)
  · rw [Watched.endOf_last, hreached q hq]
    rfl
  · rw [Watched.endOf_last, hmissed q hq]

/-- The run: without a turn that raises all rounds are made. -/
theorem watchLoop_returns (a : AcceptedFleet) (distinct : a.fleet.DistinctRecords)
    (hpools : a.fleet.pools ≠ []) (interval : Int) (audit notify : Bool) (n : Nat)
    (h : w.Follows a.fleet.pools (setAt a.fleet probes dryRun start))
    (hcalm : ∀ k, w.starts.length ≤ k → k < w.starts.length + n → ∀ pool ∈ a.fleet.pools,
      turnRaises a.fleet probes dryRun start faults k pool = false) :
    ∃ w', Ends (D.loopHandler probes faults)
        (watchLoop a.fleet interval audit dryRun notify n) w () w' ∧
      w'.Follows a.fleet.pools (setAt a.fleet probes dryRun start) ∧
        w'.starts.length = w.starts.length + n := by
  induction n generalizing w with
  | zero => exact ⟨w, ends_pure, h, rfl⟩
  | succ n ih =>
      obtain ⟨report, w', hpass, h', hlength⟩ := watchOnce_returns a distinct hpools audit h
        (hcalm _ le_rfl (by omega))
      obtain ⟨w'', hrest, h'', hlength'⟩ := ih h' fun k hk hkn => hcalm k (by omega) (by omega)
      refine ⟨w'', ?_, h'', by omega⟩
      rw [watchLoop_succ]
      refine hpass.bind ((ends_onRound w' notify report).bind ?_)
      split
      case isTrue hn =>
        subst hn
        exact hrest
      case isFalse => exact (ends_sleep w' interval).bind hrest

/-- The first turn that raises ends the run. -/
theorem watchLoop_stops (a : AcceptedFleet) (distinct : a.fleet.DistinctRecords) (interval : Int)
    (audit notify : Bool) (n : Nat) {j : Nat}
    (h : w.Follows a.fleet.pools (setAt a.fleet probes dryRun start)) (hj : w.starts.length ≤ j)
    (hjn : j < w.starts.length + n)
    (hcalm : ∀ k, w.starts.length ≤ k → k < j → ∀ pool ∈ a.fleet.pools,
      turnRaises a.fleet probes dryRun start faults k pool = false)
    {before after : List Pool} {pool : Pool} (hsplit : a.fleet.pools = before ++ pool :: after)
    (hbefore : ∀ q ∈ before, turnRaises a.fleet probes dryRun start faults j q = false)
    (hraises : turnRaises a.fleet probes dryRun start faults j pool = true) :
    ∃ w', Stops (D.loopHandler probes faults)
        (watchLoop a.fleet interval audit dryRun notify n) w w' ∧
      w'.StoppedAt before pool after (setAt a.fleet probes dryRun start) j := by
  induction n generalizing w with
  | zero => omega
  | succ n ih =>
      rcases Nat.eq_or_lt_of_le hj with rfl | hlt
      · obtain ⟨w', hpass, hstopped⟩ :=
          watchOnce_stops a distinct audit h hsplit hbefore hraises
        refine ⟨w', ?_, hstopped⟩
        rw [watchLoop_succ]
        exact hpass.bind _
      · have hpools : a.fleet.pools ≠ [] := by
          rw [hsplit]
          exact List.append_ne_nil_of_right_ne_nil _ (List.cons_ne_nil _ _)
        obtain ⟨report, w', hpass, h', hlength⟩ := watchOnce_returns a distinct hpools audit h
          (hcalm _ le_rfl hlt)
        obtain ⟨w'', hrest, hstopped⟩ := ih h' (by omega) (by omega) fun k hk => hcalm k (by omega)
        refine ⟨w'', ?_, hstopped⟩
        rw [watchLoop_succ]
        refine hpass.stops ((ends_onRound w' notify report).stops ?_)
        rw [if_neg (by omega)]
        exact (ends_sleep w' interval).stops hrest

theorem follows_start (s : D.State) {fleet : Fleet} :
    (⟨s, [], []⟩ : Watched D).Follows fleet.pools (setAt fleet probes dryRun (D.members s)) := by
  refine ⟨rfl, fun i hi pool _ => ?_⟩
  obtain rfl : i = 0 := Nat.le_zero.mp hi
  rfl

/-- A loop in which no turn raises. -/
theorem watched_follows (a : AcceptedFleet) (distinct : a.fleet.DistinctRecords)
    (hpools : a.fleet.pools ≠ []) (interval : Int) (audit notify : Bool) (n : Nat) (s : D.State)
    (hcalm : ∀ k < n, ∀ pool ∈ a.fleet.pools,
      turnRaises a.fleet probes dryRun (D.members s) faults k pool = false) :
    (D.watched probes (watchLoop a.fleet interval audit dryRun notify n) s faults).Follows
        a.fleet.pools (setAt a.fleet probes dryRun (D.members s)) ∧
      (D.watched probes (watchLoop a.fleet interval audit dryRun notify n) s
        faults).starts.length = n := by
  obtain ⟨w, hloop, hfollows, hlength⟩ :=
    watchLoop_returns (w := ⟨s, [], []⟩) a distinct hpools interval audit notify n (follows_start s)
      fun k _ hk => hcalm k (by simpa using hk)
  rw [DnsDriver.watched, hloop.final]
  exact ⟨hfollows, by simpa using hlength⟩

/-- A loop whose first turn to raise is that of `pool` in round `j`. -/
theorem watched_stoppedAt (a : AcceptedFleet) (distinct : a.fleet.DistinctRecords) (interval : Int)
    (audit notify : Bool) {n j : Nat} (hj : j < n) (s : D.State)
    (hcalm : ∀ k < j, ∀ pool ∈ a.fleet.pools,
      turnRaises a.fleet probes dryRun (D.members s) faults k pool = false)
    {before after : List Pool} {pool : Pool} (hsplit : a.fleet.pools = before ++ pool :: after)
    (hbefore : ∀ q ∈ before, turnRaises a.fleet probes dryRun (D.members s) faults j q = false)
    (hraises : turnRaises a.fleet probes dryRun (D.members s) faults j pool = true) :
    (D.watched probes (watchLoop a.fleet interval audit dryRun notify n) s faults).StoppedAt
      before pool after (setAt a.fleet probes dryRun (D.members s)) j := by
  obtain ⟨w, hloop, hstopped⟩ :=
    watchLoop_stops (w := ⟨s, [], []⟩) a distinct interval audit notify n (follows_start s)
      (Nat.zero_le j) (by simpa using hj) (fun k _ => hcalm k) hsplit hbefore hraises
  rw [DnsDriver.watched, hloop.final]
  exact hstopped

/-- Under the faults of one pool alone only its own turns raise. -/
theorem watched_only (a : AcceptedFleet) (distinct : a.fleet.DistinctRecords) (interval : Int)
    (audit notify : Bool) (n : Nat) (s : D.State) {pool : Pool} (hp : pool ∈ a.fleet.pools)
    (hcalm : ∀ k < n, turnRaises a.fleet probes dryRun (D.members s) faults k pool = false) :
    (D.watched probes (watchLoop a.fleet interval audit dryRun notify n) s
        (faults.only pool.record)).Follows
          a.fleet.pools (setAt a.fleet probes dryRun (D.members s)) ∧
      (D.watched probes (watchLoop a.fleet interval audit dryRun notify n) s
        (faults.only pool.record)).starts.length = n := by
  refine watched_follows a distinct (List.ne_nil_of_mem hp) interval audit notify n s
    fun k hk q hq => ?_
  by_cases hrecord : q.record = pool.record
  · obtain rfl := List.inj_on_of_nodup_map distinct hq hp hrecord
    rw [turnRaises_only rfl]
    exact hcalm k hk
  · exact turnRaises_only_of_ne hrecord

theorem watched_only_stoppedAt (a : AcceptedFleet) (distinct : a.fleet.DistinctRecords)
    (interval : Int) (audit notify : Bool) {n j : Nat} (hj : j < n) (s : D.State) {pool : Pool}
    (hp : pool ∈ a.fleet.pools)
    (hcalm : ∀ k < j, turnRaises a.fleet probes dryRun (D.members s) faults k pool = false)
    (hraises : turnRaises a.fleet probes dryRun (D.members s) faults j pool = true) :
    ∃ before after, a.fleet.pools = before ++ pool :: after ∧
      (D.watched probes (watchLoop a.fleet interval audit dryRun notify n) s
        (faults.only pool.record)).StoppedAt before pool after
          (setAt a.fleet probes dryRun (D.members s)) j := by
  obtain ⟨before, after, hsplit⟩ := List.append_of_mem hp
  have hother : ∀ q ∈ before, q.record ≠ pool.record := by
    intro q hq heq
    have hnodup : ((before ++ pool :: after).map (·.record)).Nodup := hsplit ▸ distinct
    rw [List.map_append, List.map_cons, List.nodup_append] at hnodup
    exact hnodup.2.2 _ (List.mem_map.mpr ⟨q, hq, rfl⟩) _ List.mem_cons_self heq
  refine ⟨before, after, hsplit, ?_⟩
  refine watched_stoppedAt a distinct interval audit notify hj s (fun k hk q hq => ?_) hsplit
    (fun q hq => turnRaises_only_of_ne (hother q hq)) ?_
  · by_cases hrecord : q.record = pool.record
    · obtain rfl := List.inj_on_of_nodup_map distinct hq hp hrecord
      rw [turnRaises_only rfl]
      exact hcalm k hk
    · exact turnRaises_only_of_ne hrecord
  · rw [turnRaises_only rfl]
    exact hraises

theorem isolated_of_contained (a : AcceptedFleet) (distinct : a.fleet.DistinctRecords)
    (interval : Int) (audit notify : Bool) (n : Nat) (s : D.State)
    (h : FaultsContained a.fleet probes dryRun (D.members s) n faults) :
    PoolsIsolated a.fleet n
      (D.watched probes (watchLoop a.fleet interval audit dryRun notify n) s) faults := by
  by_cases hcalm : ∀ k < n, ∀ pool ∈ a.fleet.pools,
      turnRaises a.fleet probes dryRun (D.members s) faults k pool = false
  · refine ⟨fun hpools => ?_, fun k hk pool hp _ => ?_⟩
    · exact (watched_follows a distinct hpools interval audit notify n s hcalm).2
    · obtain ⟨hall, hlength⟩ := watched_follows a distinct (List.ne_nil_of_mem hp) interval audit
        notify n s hcalm
      obtain ⟨hown, hlength'⟩ := watched_only a distinct interval audit notify n s hp
        fun k hk => hcalm k hk pool hp
      rw [hall.endOf (hlength.symm ▸ hk) hp, hown.endOf (hlength'.symm ▸ hk) hp]
  · simp only [not_forall, Bool.not_eq_false] at hcalm
    obtain ⟨j, hj, failing, hfailing, hraises⟩ := hcalm
    have hlast : j + 1 = n := by
      by_contra hne
      have hearly := (h j hj).1 (by omega) failing hfailing
      rw [hraises] at hearly
      cases hearly
    have hearlier : ∀ k < j, ∀ pool ∈ a.fleet.pools,
        turnRaises a.fleet probes dryRun (D.members s) faults k pool = false :=
      fun k hk => (h k (by omega)).1 (by omega)
    obtain ⟨before, pool, after, hsplit, hbefore, hpool, hcut⟩ :=
      exists_first ⟨failing, hfailing, hraises⟩
    have hall :=
      watched_stoppedAt a distinct interval audit notify hj s hearlier hsplit hbefore hpool
    refine ⟨fun _ => hall.rounds.trans hlast, fun k hk q hq hquiet => ?_⟩
    have hq' : q ∈ before ++ pool :: after := hsplit ▸ hq
    cases hown : turnRaises a.fleet probes dryRun (D.members s) faults j q with
    | true =>
        -- both runs stop in the last round, and only there may they differ
        obtain ⟨before', after', hsplit', hstopped⟩ := watched_only_stoppedAt a distinct interval
          audit notify hj s hq (fun k hk => hearlier k hk q hq) hown
        have hkj : k < j := by
          obtain ⟨c, -, hraised⟩ := hstopped.raised
          refine Nat.lt_of_le_of_ne (by omega) fun heq => hquiet c ?_
          rw [hraised, heq]
          exact List.mem_singleton_self _
        rw [hall.endOf hkj hq', hstopped.endOf hkj (hsplit' ▸ hq)]
    | false =>
        have hcalm : ∀ k < n,
            turnRaises a.fleet probes dryRun (D.members s) faults k q = false := by
          rw [← hlast]
          exact Nat.forall_lt_succ_right.mpr ⟨fun k hk => hearlier k hk q hq, hown⟩
        obtain ⟨hfollows, hlength⟩ := watched_only a distinct interval audit notify n s hq hcalm
        have hne : q ≠ pool := fun heq => by
          rw [heq, hpool] at hown
          cases hown
        have hstill : q ∈ after → setAt a.fleet probes dryRun (D.members s) q (j + 1) =
            setAt a.fleet probes dryRun (D.members s) q j := fun hafter =>
          ((h j hj).2 hlast q (hcut ▸ hafter)).resolve_left fun hraises => by
            rw [hown] at hraises
            cases hraises
        rw [hall.endOf_of_still (by omega) hq' hne hstill, hfollows.endOf (hlength.symm ▸ hk) hq]

theorem contained_of_isolated (a : AcceptedFleet) (distinct : a.fleet.DistinctRecords)
    (interval : Int) (audit notify : Bool) (n : Nat) (s : D.State)
    (h : PoolsIsolated a.fleet n
      (D.watched probes (watchLoop a.fleet interval audit dryRun notify n) s) faults) :
    FaultsContained a.fleet probes dryRun (D.members s) n faults := by
  have hearly : ∀ k, k + 1 < n → ∀ pool ∈ a.fleet.pools,
      turnRaises a.fleet probes dryRun (D.members s) faults k pool = false := by
    intro k
    induction k using Nat.strong_induction_on with
    | _ k ih =>
      intro hk pool hp
      by_contra hraises
      rw [Bool.not_eq_false] at hraises
      obtain ⟨before, first, after, hsplit, hbefore, hfirst, -⟩ := exists_first ⟨pool, hp, hraises⟩
      have hstopped := watched_stoppedAt a distinct interval audit notify (n := n) (by omega) s
        (fun i hi => ih i hi (by omega)) hsplit hbefore hfirst
      have hrounds := h.1 (List.ne_nil_of_mem hp)
      rw [hstopped.rounds] at hrounds
      omega
  refine fun k hk => ⟨fun hkn => hearly k hkn, fun hkn q hq => ?_⟩
  have hbefore : ∀ i < k, ∀ pool ∈ a.fleet.pools,
      turnRaises a.fleet probes dryRun (D.members s) faults i pool = false :=
    fun i hi => hearly i (by omega)
  by_cases hcalm : ∀ pool ∈ a.fleet.pools,
      turnRaises a.fleet probes dryRun (D.members s) faults k pool = false
  · rw [cutOff_eq_nil hcalm] at hq
    cases hq
  · simp only [not_forall, Bool.not_eq_false] at hcalm
    obtain ⟨failing, hfailing, hraises⟩ := hcalm
    obtain ⟨before, first, after, hsplit, hfore, hfirst, hcut⟩ :=
      exists_first ⟨failing, hfailing, hraises⟩
    cases hown : turnRaises a.fleet probes dryRun (D.members s) faults k q with
    | true => exact .inl rfl
    | false =>
        rw [hcut] at hq
        have hmem : q ∈ a.fleet.pools := by
          rw [hsplit]
          exact List.mem_append_right _ (List.mem_cons_of_mem _ hq)
        have hall :=
          watched_stoppedAt a distinct interval audit notify hk s hbefore hsplit hfore hfirst
        have hcalm : ∀ i < n,
            turnRaises a.fleet probes dryRun (D.members s) faults i q = false := by
          rw [← hkn]
          exact Nat.forall_lt_succ_right.mpr ⟨fun i hi => hbefore i hi q hmem, hown⟩
        obtain ⟨hfollows, hlength⟩ := watched_only a distinct interval audit notify n s hmem hcalm
        have hsame := h.2 k hk q hmem fun c => by simp [hfollows.raised]
        rw [hall.missed q hq, hfollows.endOf (hlength.symm ▸ hk) hmem] at hsame
        exact .inr (Option.some.inj hsame).symm

end Loop

/-- The pools of a loop are isolated from each other's failures as long as none fails before the
last round, and those the last pass does not come to had nothing to do in it. -/
theorem poolsIsolated_iff (D : LawfulDriver) (a : AcceptedFleet)
    (distinct : a.fleet.DistinctRecords) (probes : Nat → List ClusterStatus) (faults : Faults)
    (interval : Int) (audit dryRun notify : Bool) (n : Nat) (s : D.State) :
    PoolsIsolated a.fleet n
        (D.watched probes (watchLoop a.fleet interval audit dryRun notify n) s) faults ↔
      FaultsContained a.fleet probes dryRun (D.members s) n faults :=
  ⟨contained_of_isolated a distinct interval audit notify n s,
    isolated_of_contained a distinct interval audit notify n s⟩

/-! ## Two regions -/

section Example

def regionNode (name host : String) : Node where
  name := name
  role := .rpc
  host := host
  rpcUrl := some "http://rpc"

def eastPool : Pool where
  record := "east.example.com"
  cluster := "mainnet"
  members := ["e1", "e2"]

def westPool : Pool where
  record := "west.example.com"
  cluster := "mainnet"
  members := ["w1"]

def regionFleet : AcceptedFleet where
  fleet :=
    { clusters := ⟨[("mainnet",
        { referenceRpc := "https://rpc"
          nodes := [regionNode "e1" "10.1.0.1", regionNode "e2" "10.1.0.2",
            regionNode "w1" "10.2.0.1"] })],
        by decide⟩
      dns := some { provider := .cloudflare, zone := "z", pools := [eastPool, westPool] } }
  accepted := by decide

/-- A probe that finds `e1` down. -/
def eastDown : List ClusterStatus :=
  [{ name := "mainnet"
     referenceRpc := "https://rpc"
     nodes := ["e1", "e2", "w1"].map fun n =>
       { name := n, cluster := "mainnet", role := .rpc, reachable := n != "e1",
         healthy := some (n != "e1") } }]

/-- The east record cannot be read in round `k`. -/
def eastUnread (k : Nat) : Faults :=
  fun i c =>
    if i = k ∧ c = .listMembers "east.example.com" then some ⟨.raised "ConnectTimeout", false⟩
    else none

/-- Both records are settled when the read fails. -/
theorem poolsIsolated_iff_settled :
    PoolsIsolated regionFleet.fleet 2
      (inMemoryDnsDriver.watched (fun _ => eastDown)
        (watchLoop regionFleet.fleet 30 true false false 2) ({} : InMemoryDns))
      (eastUnread 1) :=
  (poolsIsolated_iff inMemoryDnsDriver regionFleet (by decide) (fun _ => eastDown) (eastUnread 1) 30
    true false false 2 ({} : InMemoryDns)).mpr (by decide +kernel)

/-- A read that fails in the first round is the end of the loop. -/
theorem pools_not_isolated :
    ¬ ∀ (D : LawfulDriver) (a : AcceptedFleet), a.fleet.DistinctRecords →
      ∀ (probes : Nat → List ClusterStatus) (faults : Faults) (interval : Int)
        (audit dryRun notify : Bool) (n : Nat) (s : D.State),
        PoolsIsolated a.fleet n
          (D.watched probes (watchLoop a.fleet interval audit dryRun notify n) s) faults := by
  intro h
  have hrounds := (h inMemoryDnsDriver regionFleet (by decide) (fun _ => eastDown) (eastUnread 0) 30
    true false false 2 ({} : InMemoryDns)).1 (by decide)
  revert hrounds
  decide +kernel

end Example

end Solfleet
