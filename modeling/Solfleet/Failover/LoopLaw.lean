import Solfleet.Failover.Isolation

/-! # The law of the failover loop

The changes a whole loop makes, call by call, and what they amount to. Rounds in which a pool has
nobody left to serve are skipped, and of the others only the last one shows in the record: the
loop has no memory. A round touches a record only where its verdict differs from the last one
that was acted on.
-/

namespace Solfleet

open Interaction Program

/-! ## The changes of a run -/

/-- The call, if it may change provider state. -/
def DnsEffect.change? : DnsEffect → Option DriverCall
  | .driver (.addMember record ip ttl) => some (.addMember record ip ttl)
  | .driver (.removeMember record ip) => some (.removeMember record ip)
  | .driver (.ensureMarker record) => some (.ensureMarker record)
  | _ => none

def changes (trace : List DnsEvent) : List DriverCall :=
  trace.filterMap fun event => event.op.change?

theorem changes_append (xs ys : List DnsEvent) : changes (xs ++ ys) = changes xs ++ changes ys :=
  List.filterMap_append

/-- The provider after these calls. -/
def Watched.perform {D : LawfulDriver} (w : Watched D) (calls : List DriverCall) : Watched D :=
  { w with dns := calls.foldl (fun s c => (D.perform s c).2) w.dns }

theorem Watched.perform_append {D : LawfulDriver} (w : Watched D) (calls more : List DriverCall) :
    w.perform (calls ++ more) = (w.perform calls).perform more := by
  simp only [Watched.perform, List.foldl_append]

/-- No call raises. -/
def calm : Faults := fun _ _ => none

/-- From `w` the program returns `a` and leaves `w'`, and `calls` are its changes. -/
def Goes (D : LawfulDriver) (probes : Nat → List ClusterStatus) {α : Type} (p : DnsProgram α)
    (w : Watched D) (a : α) (calls : List DriverCall) (w' : Watched D) : Prop :=
  ∃ trace, exec (D.loopHandler probes calm) p w = ⟨w', trace, .ok a⟩ ∧ changes trace = calls

/-- Within a round nothing but the changes moves the state. -/
def Makes (D : LawfulDriver) (probes : Nat → List ClusterStatus) {α : Type} (p : DnsProgram α)
    (w : Watched D) (a : α) (calls : List DriverCall) : Prop :=
  Goes D probes p w a calls (w.perform calls)

section Makes

variable {D : LawfulDriver} {probes : Nat → List ClusterStatus} {w w' w'' : Watched D}
  {α β : Type} {calls more : List DriverCall}

theorem Goes.ends {p : DnsProgram α} {a : α} (h : Goes D probes p w a calls w') :
    Ends (D.loopHandler probes calm) p w a w' := by
  rcases h with ⟨trace, hexec, -⟩
  exact ⟨trace, hexec⟩

theorem Goes.bind {p : DnsProgram α} {f : α → DnsProgram β} {a : α} {b : β}
    (hp : Goes D probes p w a calls w') (hf : Goes D probes (f a) w' b more w'') :
    Goes D probes (p >>= f) w b (calls ++ more) w'' := by
  rcases hp with ⟨first, hfirst, hcalls⟩
  rcases hf with ⟨rest, hrest, hmore⟩
  have hresult : (exec (D.loopHandler probes calm) p w).result = .ok a := by rw [hfirst]
  refine ⟨first ++ rest, ?_, ?_⟩
  · rw [exec_bind_ok hresult, hfirst]
    simp only [hrest]
  · rw [changes_append, hcalls, hmore]

/-- A last step that changes nothing. -/
theorem Goes.bind_nil {p : DnsProgram α} {f : α → DnsProgram β} {a : α} {b : β}
    (hp : Goes D probes p w a calls w') (hf : Goes D probes (f a) w' b [] w'') :
    Goes D probes (p >>= f) w b calls w'' := by
  have hboth := hp.bind hf
  rwa [List.append_nil] at hboth

theorem Makes.bind {p : DnsProgram α} {f : α → DnsProgram β} {a : α} {b : β}
    (hp : Makes D probes p w a calls) (hf : Makes D probes (f a) (w.perform calls) b more) :
    Makes D probes (p >>= f) w b (calls ++ more) := by
  have hboth := Goes.bind hp hf
  rwa [← Watched.perform_append] at hboth

theorem makes_pure (a : α) : Makes D probes (pure a) w a [] := ⟨[], rfl, rfl⟩

theorem makes_listMembers (record : String) :
    Makes D probes (driverCall (.listMembers record)) w (D.listMembers w.dns record) [] :=
  ⟨_, rfl, rfl⟩

theorem makes_recordAudit (audit : Bool) (event : AuditEvent) :
    Makes D probes (recordAudit audit event) w () [] := by
  cases audit with
  | false => exact makes_pure ()
  | true => exact ⟨_, rfl, rfl⟩

theorem makes_each {ips : List String} {call : String → DriverCall}
    {body : String → DnsProgram Unit}
    (hbody : ∀ ip (w : Watched D), Makes D probes (body ip) w () [call ip]) :
    ∃ as, Makes D probes (each ips body) w as (ips.map call) := by
  induction ips generalizing w with
  | nil => exact ⟨[], makes_pure []⟩
  | cons ip ips ih =>
      rcases ih (w := w.perform [call ip]) with ⟨as, hrest⟩
      refine ⟨() :: as, ?_⟩
      rw [each_cons]
      exact (hbody ip w).bind (Goes.bind_nil hrest (makes_pure (() :: as)))

theorem makes_reconcilePool (audit : Bool) (pool : Pool) (toRemove toAdd : List String) :
    Makes D probes (reconcilePool audit pool toRemove toAdd) w ()
      (.ensureMarker pool.record ::
        (toRemove.map (DriverCall.removeMember pool.record) ++
          toAdd.map fun ip => .addMember pool.record ip pool.ttl)) := by
  have hmark : Makes D probes (driverCall (.ensureMarker pool.record)) w ()
      [.ensureMarker pool.record] := ⟨_, rfl, rfl⟩
  have hremove : ∀ w : Watched D, ∃ as, Makes D probes
      (each toRemove fun ip => driverCall (.removeMember pool.record ip)) w as
      (toRemove.map (DriverCall.removeMember pool.record)) := fun w =>
    makes_each fun ip w => ⟨_, rfl, rfl⟩
  have hadd : ∀ w : Watched D, ∃ as, Makes D probes
      (each toAdd fun ip => driverCall (.addMember pool.record ip pool.ttl)) w as
      (toAdd.map fun ip => .addMember pool.record ip pool.ttl) := fun w =>
    makes_each fun ip w => ⟨_, rfl, rfl⟩
  rcases hremove (w.perform [.ensureMarker pool.record]) with ⟨as, has⟩
  rcases hadd ((w.perform [.ensureMarker pool.record]).perform
    (toRemove.map (DriverCall.removeMember pool.record))) with ⟨bs, hbs⟩
  exact hmark.bind (has.bind (Goes.bind_nil hbs (makes_recordAudit _ _)))

/-! ## Turns -/

variable (probes w) in
theorem makes_applyTurn (fleet : Fleet) (clusters : List ClusterStatus) (audit dryRun : Bool)
    (pool : Pool) (x : Finset String) :
    Makes D probes
      (applyTurn audit dryRun pool (poolHosts fleet pool) (poolDesired fleet clusters pool) x) w ()
      (moveCalls fleet clusters dryRun x pool) := by
  rw [applyTurn_eq (poolDesired_subset fleet clusters pool), moveCalls]
  by_cases hempty : poolDesired fleet clusters pool = ∅
  · have hsame : nextSet fleet clusters dryRun x pool = x := by simp [nextSet, turnSet, hempty]
    rw [if_pos hempty, if_pos hsame]
    exact makes_recordAudit _ _
  rw [if_neg hempty]
  by_cases hidle : turnSet fleet clusters x pool = x ∨ dryRun = true
  · have hsame : nextSet fleet clusters dryRun x pool = x := by
      rcases hidle with hidle | rfl
      · simp [nextSet, hidle]
      · rfl
    rw [turnSet] at hidle
    rw [if_pos hidle, if_pos hsame]
    exact makes_pure ()
  · have hmoves := not_or.mp hidle
    have hnext : nextSet fleet clusters dryRun x pool ≠ x := by
      rw [nextSet, if_neg hmoves.2]
      exact hmoves.1
    rw [turnSet] at hidle
    rw [if_neg hidle, if_neg hnext]
    exact makes_reconcilePool audit pool _ _

variable (probes w) in
theorem makes_watchPool (a : AcceptedFleet) (clusters : List ClusterStatus) (audit dryRun : Bool)
    {pool : Pool} (hp : pool ∈ a.fleet.pools) :
    ∃ report, Makes D probes
      (watchPool (nodeIps a.fleet) (statusByName clusters) audit dryRun pool) w report
      (moveCalls a.fleet clusters dryRun (D.members w.dns pool.record) pool) := by
  refine ⟨poolReport pool (poolDecisions a.fleet clusters pool) (poolHosts a.fleet pool)
    (poolDesired a.fleet clusters pool) (D.members w.dns pool.record), ?_⟩
  rw [a.watchPool_eq clusters audit dryRun hp]
  have hturn := makes_applyTurn probes w a.fleet clusters audit dryRun
    pool (D.members w.dns pool.record)
  exact (makes_listMembers pool.record).bind (Goes.bind_nil hturn (makes_pure _))

/-- What the calls of a turn do to its own record, and to the others. -/
theorem members_perform_moveCalls (a : AcceptedFleet) (clusters : List ClusterStatus)
    (dryRun : Bool) {pool : Pool} (hp : pool ∈ a.fleet.pools) (w : Watched D) :
    let done := w.perform (moveCalls a.fleet clusters dryRun (D.members w.dns pool.record) pool)
    D.members done.dns pool.record =
        nextSet a.fleet clusters dryRun (D.members w.dns pool.record) pool ∧
      ∀ r, r ≠ pool.record → D.members done.dns r = D.members w.dns r := by
  intro done
  let first : Watched D := ⟨w.dns, [w.dns], []⟩
  rcases makes_watchPool (fun _ => clusters) first a clusters false dryRun
    hp with ⟨report, hmakes⟩
  have hquiet : calm.raises 0
      (turnCalls a.fleet clusters dryRun (D.members w.dns pool.record) pool) = false := by
    simp [Faults.raises, calm]
  rcases (turnEnds_watchPool (fun _ => clusters) a false dryRun hp).returns hquiet first rfl rfl
      with
    ⟨report', dns, hends, hnext, hframe⟩
  have hdns : done.dns = dns := congrArg Watched.dns (hmakes.ends.final.symm.trans hends.final)
  rw [hdns]
  exact ⟨hnext, hframe⟩

/-! ## Passes -/

/-- The calls of a pass that finds the sets `sets`. -/
def passCalls (fleet : Fleet) (clusters : List ClusterStatus) (dryRun : Bool)
    (sets : Pool → Finset String) (pools : List Pool) : List DriverCall :=
  pools.flatMap fun pool => moveCalls fleet clusters dryRun (sets pool) pool

variable (probes) in
/-- The pass as the fold of its turns: each finds its record as the pass found it. -/
theorem makes_turns (a : AcceptedFleet) (clusters : List ClusterStatus) (audit dryRun : Bool)
    {pools : List Pool} (hsub : ∀ pool ∈ pools, pool ∈ a.fleet.pools)
    (hnodup : (pools.map (·.record)).Nodup) {sets : Pool → Finset String}
    (hsets : ∀ pool ∈ pools, D.members w.dns pool.record = sets pool) :
    (∃ reports, Makes D probes
        (each pools (watchPool (nodeIps a.fleet) (statusByName clusters) audit dryRun)) w reports
        (passCalls a.fleet clusters dryRun sets pools)) ∧
      (∀ pool ∈ pools,
        D.members (w.perform (passCalls a.fleet clusters dryRun sets pools)).dns pool.record =
          nextSet a.fleet clusters dryRun (sets pool) pool) ∧
      ∀ r ∉ pools.map (·.record),
        D.members (w.perform (passCalls a.fleet clusters dryRun sets pools)).dns r =
          D.members w.dns r := by
  induction pools generalizing w with
  | nil => exact ⟨⟨[], makes_pure []⟩, by simp, fun _ _ => rfl⟩
  | cons pool pools ih =>
      have hp := hsub pool List.mem_cons_self
      have hx := hsets pool List.mem_cons_self
      have hne := (List.nodup_cons.mp hnodup).1
      rcases makes_watchPool probes w a clusters audit dryRun hp with
        ⟨report, hturn⟩
      have hmove := members_perform_moveCalls a clusters dryRun hp w
      rw [hx] at hturn hmove
      have hrest := ih (w := w.perform (moveCalls a.fleet clusters dryRun (sets pool) pool))
        (fun q hq => hsub q (List.mem_cons_of_mem pool hq)) (List.nodup_cons.mp hnodup).2
        fun q hq => by
          have hqp : q.record ≠ pool.record := fun h => hne (List.mem_map.mpr ⟨q, hq, h⟩)
          rw [hmove.2 _ hqp]
          exact hsets q (List.mem_cons_of_mem pool hq)
      rcases hrest with ⟨⟨reports, hturns⟩, hnexts, hframe⟩
      have hcalls : passCalls a.fleet clusters dryRun sets (pool :: pools) =
          moveCalls a.fleet clusters dryRun (sets pool) pool ++
            passCalls a.fleet clusters dryRun sets pools := List.flatMap_cons
      rw [hcalls, Watched.perform_append]
      refine ⟨⟨report :: reports, ?_⟩, fun q hq => ?_, fun r hr => ?_⟩
      · rw [each_cons]
        exact hturn.bind (Goes.bind_nil hturns (makes_pure _))
      · rcases List.mem_cons.mp hq with rfl | hq
        · rw [hframe _ hne]
          exact hmove.1
        · exact hnexts q hq
      · rw [List.map_cons, List.mem_cons, not_or] at hr
        rw [hframe r hr.2]
        exact hmove.2 r hr.1

variable (probes) in
/-- A round begins with its probe, the one that `starts` counts. -/
theorem goes_watchOnce (a : AcceptedFleet) (distinct : a.fleet.DistinctRecords)
    (hpools : a.fleet.pools ≠ []) (audit dryRun : Bool) {sets : Pool → Finset String}
    (hsets : ∀ pool ∈ a.fleet.pools, D.members w.dns pool.record = sets pool) :
    ∃ report dns,
      Goes D probes (watchOnce a.fleet audit dryRun) w report
        (passCalls a.fleet (probes w.starts.length) dryRun sets a.fleet.pools)
        ⟨dns, w.starts ++ [w.dns], w.raised⟩ ∧
      ∀ pool ∈ a.fleet.pools, D.members dns pool.record =
        nextSet a.fleet (probes w.starts.length) dryRun (sets pool) pool := by
  have hpass := makes_turns probes (w := ⟨w.dns, w.starts ++ [w.dns], w.raised⟩) a
    (probes w.starts.length) audit dryRun (fun _ h => h) distinct hsets
  rcases hpass with ⟨⟨reports, hturns⟩, hnexts, -⟩
  have hprobe : Goes D probes probeFleet w (probes w.starts.length) []
      ⟨w.dns, w.starts ++ [w.dns], w.raised⟩ := ⟨_, rfl, rfl⟩
  refine ⟨{ pools := reports }, _, ?_, hnexts⟩
  rw [watchOnce, if_neg hpools]
  exact hprobe.bind (Goes.bind_nil hturns ⟨[], rfl, rfl⟩)

/-! ## The loop -/

/-- The changes of the rounds from `k` on. -/
def loopCalls (fleet : Fleet) (probes : Nat → List ClusterStatus) (dryRun : Bool)
    (start : String → Finset String) (k n : Nat) : List DriverCall :=
  (List.range' k n).flatMap fun j =>
    passCalls fleet (probes j) dryRun (fun pool => setAt fleet probes dryRun start pool j)
      fleet.pools

/-- The run lemma. -/
theorem goes_watchLoop (a : AcceptedFleet) (distinct : a.fleet.DistinctRecords)
    (hpools : a.fleet.pools ≠ []) (interval : Int) (audit dryRun notify : Bool)
    {start : String → Finset String} {k : Nat} (hk : w.starts.length = k)
    (hsets : ∀ pool ∈ a.fleet.pools,
      D.members w.dns pool.record = setAt a.fleet probes dryRun start pool k) (n : Nat) :
    ∃ w', Goes D probes (watchLoop a.fleet interval audit dryRun notify n) w ()
        (loopCalls a.fleet probes dryRun start k n) w' ∧
      ∀ pool ∈ a.fleet.pools,
        D.members w'.dns pool.record = setAt a.fleet probes dryRun start pool (k + n) := by
  induction n generalizing w k with
  | zero => exact ⟨w, ⟨[], rfl, rfl⟩, hsets⟩
  | succ n ih =>
      rcases goes_watchOnce probes a distinct hpools audit dryRun hsets with
        ⟨report, dns, hround, hnexts⟩
      rw [hk] at hround hnexts
      have hlength : (w.starts ++ [w.dns]).length = k + 1 := by simp [hk]
      rcases ih (w := ⟨dns, w.starts ++ [w.dns], w.raised⟩) hlength hnexts with
        ⟨w', hrest, hfinal⟩
      have hcalls : loopCalls a.fleet probes dryRun start k (n + 1) =
          passCalls a.fleet (probes k) dryRun
              (fun pool => setAt a.fleet probes dryRun start pool k) a.fleet.pools ++
            loopCalls a.fleet probes dryRun start (k + 1) n := by
        rw [loopCalls, List.range'_succ, List.flatMap_cons]
        rfl
      have hnotify : Goes D probes
          (if notify then perform (S := dnsSignature) (.onRound report) else pure ())
          ⟨dns, w.starts ++ [w.dns], w.raised⟩ () [] ⟨dns, w.starts ++ [w.dns], w.raised⟩ := by
        cases notify with
        | false => exact ⟨[], rfl, rfl⟩
        | true => exact ⟨_, rfl, rfl⟩
      have hshift : k + (n + 1) = k + 1 + n := by omega
      rw [hshift]
      refine ⟨w', ?_, hfinal⟩
      rw [watchLoop_succ, hcalls]
      refine hround.bind (hnotify.bind ?_)
      split
      case isTrue hn =>
        subst hn
        exact hrest
      case isFalse =>
        have hsleep : Goes D probes (perform (S := dnsSignature) (.sleep interval))
            ⟨dns, w.starts ++ [w.dns], w.raised⟩ () [] ⟨dns, w.starts ++ [w.dns], w.raised⟩ :=
          ⟨_, rfl, rfl⟩
        exact hsleep.bind hrest

end Makes

/-! ## The law -/

/-- The last goal before round `k` that had a member to serve; empty when there was none. -/
def lastDesired (fleet : Fleet) (probes : Nat → List ClusterStatus) (pool : Pool) :
    Nat → Finset String
  | 0 => ∅
  | k + 1 =>
      if poolDesired fleet (probes k) pool = ∅ then lastDesired fleet probes pool k
      else poolDesired fleet (probes k) pool

theorem lastDesired_subset (fleet : Fleet) (probes : Nat → List ClusterStatus) (pool : Pool)
    (k : Nat) : lastDesired fleet probes pool k ⊆ poolHosts fleet pool := by
  induction k with
  | zero => exact Finset.empty_subset _
  | succ k ih =>
      rw [lastDesired]
      split
      · exact ih
      · exact poolDesired_subset fleet (probes k) pool

/-- However many rounds there were, the record is as after the one with the last goal alone. -/
theorem setAt_eq_target (fleet : Fleet) (probes : Nat → List ClusterStatus)
    (start : String → Finset String) (pool : Pool) (k : Nat) :
    setAt fleet probes false start pool k =
      Reconcile.target (start pool.record) (poolHosts fleet pool)
        (lastDesired fleet probes pool k) := by
  induction k with
  | zero => exact Reconcile.target_empty.symm
  | succ k ih =>
      have hstep : setAt fleet probes false start pool (k + 1) =
          Reconcile.target (setAt fleet probes false start pool k) (poolHosts fleet pool)
            (poolDesired fleet (probes k) pool) := rfl
      rw [hstep, ih, Reconcile.target_target (lastDesired_subset fleet probes pool k)]
      rfl

theorem moveCalls_eq_nil_iff {fleet : Fleet} {clusters : List ClusterStatus} {dryRun : Bool}
    {current : Finset String} {pool : Pool} :
    moveCalls fleet clusters dryRun current pool = [] ↔
      nextSet fleet clusters dryRun current pool = current := by
  unfold moveCalls
  split
  case isTrue h => exact iff_of_true rfl h
  case isFalse h => exact iff_of_false (by simp) h

/-- Once a goal has been acted on, a round is quiet unless it has another one. -/
theorem moveCalls_setAt_eq_nil_iff {fleet : Fleet} {probes : Nat → List ClusterStatus}
    {start : String → Finset String} {pool : Pool} {k : Nat}
    (hacted : lastDesired fleet probes pool k ≠ ∅) :
    moveCalls fleet (probes k) false (setAt fleet probes false start pool k) pool = [] ↔
      poolDesired fleet (probes k) pool = ∅ ∨
        poolDesired fleet (probes k) pool = lastDesired fleet probes pool k := by
  rw [moveCalls_eq_nil_iff, setAt_eq_target]
  exact Reconcile.target_target_eq_iff hacted (lastDesired_subset fleet probes pool k)
    (poolDesired_subset fleet (probes k) pool)

theorem goes_watchLoop_nil {D : LawfulDriver} (probes : Nat → List ClusterStatus)
    {fleet : Fleet} (hpools : fleet.pools = []) (interval : Int) (audit dryRun notify : Bool)
    (n : Nat) (w : Watched D) :
    Goes D probes (watchLoop fleet interval audit dryRun notify n) w () [] w := by
  induction n with
  | zero => exact ⟨[], rfl, rfl⟩
  | succ n ih =>
      have hpass : Goes D probes (watchOnce fleet audit dryRun) w
          { pools := [], note := some "no dns pools configured" } [] w := by
        rw [watchOnce, if_pos hpools]
        exact ⟨[], rfl, rfl⟩
      rw [watchLoop_succ]
      refine hpass.bind_nil ?_
      have hnotify : ∀ report, Goes D probes
          (if notify then perform (S := dnsSignature) (.onRound report) else pure ()) w ()
            [] w := by
        intro report
        cases notify with
        | false => exact ⟨[], rfl, rfl⟩
        | true => exact ⟨_, rfl, rfl⟩
      refine (hnotify _).bind_nil ?_
      split
      · exact ⟨[], rfl, rfl⟩
      · have hsleep : Goes D probes (perform (S := dnsSignature) (.sleep interval)) w () [] w :=
          ⟨_, rfl, rfl⟩
        exact hsleep.bind_nil ih

/-- A loop of `n` rounds in which no call raises: its changes are those of its rounds, each of
which starts where the last goal before it left off; the records end as after the last goal alone;
and a round changes a record that has been acted on only for the sake of another goal. -/
theorem watchLoop_law (D : LawfulDriver) (a : AcceptedFleet) (distinct : a.fleet.DistinctRecords)
    (probes : Nat → List ClusterStatus) (interval : Int) (audit notify : Bool) (n : Nat)
    (s : D.State) :
    let run := exec (D.loopHandler probes calm)
      (watchLoop a.fleet interval audit false notify n) ⟨s, [], []⟩
    let found := fun (pool : Pool) (k : Nat) => Reconcile.target (D.members s pool.record)
      (poolHosts a.fleet pool) (lastDesired a.fleet probes pool k)
    run.result = .ok () ∧
      changes run.trace = ((List.range n).flatMap fun k => a.fleet.pools.flatMap fun pool =>
        moveCalls a.fleet (probes k) false (found pool k) pool) ∧
      (∀ pool ∈ a.fleet.pools, D.members run.final.dns pool.record = found pool n) ∧
      ∀ pool k, lastDesired a.fleet probes pool k ≠ ∅ →
        (moveCalls a.fleet (probes k) false (found pool k) pool = [] ↔
          poolDesired a.fleet (probes k) pool = ∅ ∨
            poolDesired a.fleet (probes k) pool = lastDesired a.fleet probes pool k) := by
  intro run found
  have hfound : ∀ pool k, setAt a.fleet probes false (D.members s) pool k = found pool k :=
    fun pool k => setAt_eq_target a.fleet probes (D.members s) pool k
  have hquiet : ∀ pool k, lastDesired a.fleet probes pool k ≠ ∅ →
      (moveCalls a.fleet (probes k) false (found pool k) pool = [] ↔
        poolDesired a.fleet (probes k) pool = ∅ ∨
          poolDesired a.fleet (probes k) pool = lastDesired a.fleet probes pool k) := by
    intro pool k hacted
    rw [← hfound]
    exact moveCalls_setAt_eq_nil_iff hacted
  by_cases hpools : a.fleet.pools = []
  · rcases goes_watchLoop_nil (D := D) probes hpools interval audit false notify n
      ⟨s, [], []⟩ with ⟨trace, hexec, hchanges⟩
    have hrun : run = ⟨⟨s, [], []⟩, trace, .ok ()⟩ := hexec
    rw [hrun]
    refine ⟨rfl, ?_, fun pool hp => ?_, hquiet⟩
    · simp [hchanges, hpools]
    · rw [hpools] at hp
      cases hp
  · have hstart : ∀ pool ∈ a.fleet.pools, D.members (⟨s, [], []⟩ : Watched D).dns pool.record =
        setAt a.fleet probes false (D.members s) pool 0 := fun _ _ => rfl
    rcases goes_watchLoop (k := 0) a distinct hpools interval audit false notify rfl hstart n with
      ⟨w', ⟨trace, hexec, hchanges⟩, hfinal⟩
    have hrun : run = ⟨w', trace, .ok ()⟩ := hexec
    rw [hrun]
    refine ⟨rfl, ?_, fun pool hp => ?_, hquiet⟩
    · rw [hchanges, loopCalls, List.range_eq_range']
      simp only [passCalls, hfound]
    · rw [← hfound, ← Nat.zero_add n]
      exact hfinal pool hp

/-- Node `a` is down, then both are, then `a` is down again: the record changes once. -/
theorem watchLoop_law_pair :
    let probes := fun k : Nat => probeWith (if k = 1 then [] else ["b"])
    changes (exec (inMemoryDnsDriver.loopHandler probes calm)
        (watchLoop pairFleet.fleet 30 true false true 3)
        ⟨pairState {"10.0.0.1", "9.9.9.9"}, [], []⟩).trace =
      [.ensureMarker "rpc.example.com", .removeMember "rpc.example.com" "10.0.0.1",
        .addMember "rpc.example.com" "10.0.0.2" 60] := by
  intro probes
  have hlaw := watchLoop_law inMemoryDnsDriver pairFleet (by decide) probes 30 true true 3
    (pairState {"10.0.0.1", "9.9.9.9"})
  exact hlaw.2.1.trans (by decide +kernel)

end Solfleet
