import Solfleet.Failover
import Solfleet.Library.Expansion

/-! # The Cloudflare driver, request by request

What `cloudflareDriver` does in one step takes the driver several HTTP requests, the first of
which may be a lookup of the zone whose identifier it then keeps. With nobody else around the
requests come to the same, and the lookup is made once.
-/

namespace Solfleet

open Interaction Program

/-! ## The provider -/

/-- The requests of the driver, each followed by `raise_for_status`. -/
inductive CloudflareRequest where
  | getZones (name : String)
  | getDnsRecords (zoneId : String) (rtype : RecordType) (name : String)
  | postDnsRecord (zoneId : String) (rtype : RecordType) (name content : String) (ttl : Int)
  | deleteDnsRecord (zoneId : String) (id : Nat)
  deriving DecidableEq

/-- The `result` of the body; of a zone the driver reads the identifier only. -/
abbrev CloudflareRequest.Answer : CloudflareRequest → Type
  | .getZones _ => List String
  | .getDnsRecords .. => List ZoneRecord
  | .postDnsRecord .. => Unit
  | .deleteDnsRecord .. => Unit

/-- What a process that fails over with such drivers does: requests, uses of the `_zone_id` field
of one of them, and what has nothing to do with DNS. -/
inductive CloudflareCall (κ : Type) where
  | request (r : CloudflareRequest)
  | zoneId (self : κ)
  | setZoneId (self : κ) (id : String)
  | probe
  | audit (event : AuditEvent)
  | sleep (seconds : Int)
  | onRound (report : WatchReport)

abbrev CloudflareCall.Answer {κ : Type} : CloudflareCall κ → Type
  | .request r => r.Answer
  | .zoneId _ => Option String
  | .setZoneId .. => Unit
  | .probe => List ClusterStatus
  | .audit _ => Unit
  | .sleep _ => Unit
  | .onRound _ => Unit

abbrev cloudflareSignature (κ : Type) : Signature := ⟨CloudflareCall κ, CloudflareCall.Answer⟩

abbrev CloudflareProgram (κ : Type) := Program (cloudflareSignature κ) Exn

/-- The zones of an account by name, the records of each by its identifier, and the `_zone_id`
fields of the drivers. -/
structure CloudflareAccount (κ : Type) where
  zones : List (String × String)
  records : String → CloudflareZone
  zoneIds : κ → Option String

namespace CloudflareAccount

variable {κ : Type}

def zonesNamed (s : CloudflareAccount κ) (name : String) : List String :=
  (s.zones.filter fun zone => zone.1 = name).map (·.2)

def setRecords (s : CloudflareAccount κ) (id : String) (z : CloudflareZone) : CloudflareAccount κ :=
  { s with records := Function.update s.records id z }

@[simp] theorem setRecords_self (s : CloudflareAccount κ) (id : String) (z : CloudflareZone) :
    (s.setRecords id z).records id = z := Function.update_self ..

theorem setRecords_twice (s : CloudflareAccount κ) (id : String) (z z' : CloudflareZone) :
    (s.setRecords id z).setRecords id z' = s.setRecords id z' := by
  simp [setRecords]

@[simp] theorem setRecords_zones (s : CloudflareAccount κ) (id : String) (z : CloudflareZone) :
    (s.setRecords id z).zones = s.zones := rfl

@[simp] theorem setRecords_zoneIds (s : CloudflareAccount κ) (id : String) (z : CloudflareZone) :
    (s.setRecords id z).zoneIds = s.zoneIds := rfl

end CloudflareAccount

def notFound : Exn := .raised "Client error '404 Not Found'"

/-- Every request that makes sense succeeds, and a probe finds `clusters`. -/
def cloudflareApi {κ : Type} [DecidableEq κ] (clusters : List ClusterStatus) :
    Handler (cloudflareSignature κ) Exn (CloudflareAccount κ)
  | .request (.getZones name), s => (.ok (s.zonesNamed name), s)
  | .request (.getDnsRecords zoneId rtype name), s =>
      (.ok ((s.records zoneId).query rtype name), s)
  | .request (.postDnsRecord zoneId rtype name content ttl), s =>
      (.ok (), s.setRecords zoneId ((s.records zoneId).post rtype name content ttl))
  | .request (.deleteDnsRecord zoneId id), s =>
      if id ∈ (s.records zoneId).records.map (·.id) then
        (.ok (), s.setRecords zoneId ((s.records zoneId).delete id))
      else (.error notFound, s)
  | .zoneId self, s => (.ok (s.zoneIds self), s)
  | .setZoneId self id, s => (.ok (), { s with zoneIds := Function.update s.zoneIds self (some id) })
  | .probe, s => (.ok clusters, s)
  | .audit _, s => (.ok (), s)
  | .sleep _, s => (.ok (), s)
  | .onRound _, s => (.ok (), s)

/-! ## The driver -/

/-- A driver object: the zone it is for, and whose `_zone_id` it has. -/
structure CloudflareDriver (κ : Type) where
  zone : String
  self : κ

namespace CloudflareDriver

variable {κ : Type}

def request (r : CloudflareRequest) : CloudflareProgram κ r.Answer :=
  perform (S := cloudflareSignature κ) (.request r)

def zoneMissing (d : CloudflareDriver κ) : Exn :=
  .raised ("cloudflare zone " ++ Text.pyRepr d.zone ++ " not found")

def firstZone (d : CloudflareDriver κ) : List String → CloudflareProgram κ String
  | [] => raise d.zoneMissing
  | id :: _ => do
      perform (S := cloudflareSignature κ) (.setZoneId d.self id)
      pure id

/-- `_zid` after a look at the field. -/
def zidFrom (d : CloudflareDriver κ) : Option String → CloudflareProgram κ String
  | some id => pure id
  | none => do
      let result ← request (.getZones d.zone)
      d.firstZone result

def zid (d : CloudflareDriver κ) : CloudflareProgram κ String := do
  let kept ← perform (S := cloudflareSignature κ) (.zoneId d.self)
  d.zidFrom kept

def records (d : CloudflareDriver κ) (rtype : RecordType) (name : String) :
    CloudflareProgram κ (List ZoneRecord) := do
  let id ← d.zid
  request (.getDnsRecords id rtype name)

def listMembers (d : CloudflareDriver κ) (record : String) : CloudflareProgram κ (List String) := do
  let found ← d.records .a record
  pure ((found.map (·.content)).insertionSort (· ≤ ·))

def post (d : CloudflareDriver κ) (rtype : RecordType) (name content : String) (ttl : Int) :
    CloudflareProgram κ Unit := do
  let id ← d.zid
  request (.postDnsRecord id rtype name content ttl)

def addMember (d : CloudflareDriver κ) (record ip : String) (ttl : Int) :
    CloudflareProgram κ Unit := do
  let listed ← d.listMembers record
  if ip ∈ listed then pure () else d.post .a record ip ttl

def deleteRecord (d : CloudflareDriver κ) (rec : ZoneRecord) : CloudflareProgram κ Unit := do
  let id ← d.zid
  request (.deleteDnsRecord id rec.id)

def removeMember (d : CloudflareDriver κ) (record ip : String) : CloudflareProgram κ Unit := do
  let found ← d.records .a record
  let _ ← each found fun rec => if rec.content = ip then d.deleteRecord rec else pure ()
  pure ()

def hasMarker (d : CloudflareDriver κ) (record : String) : CloudflareProgram κ Bool := do
  let found ← d.records .txt (markerName record)
  pure !found.isEmpty

def ensureMarker (d : CloudflareDriver κ) (record : String) : CloudflareProgram κ Unit := do
  let marked ← d.hasMarker record
  if marked then pure () else d.post .txt (markerName record) markerContent 300

/-- The effects of the failover code by way of this driver. -/
def carry (d : CloudflareDriver κ) : (op : DnsEffect) → CloudflareProgram κ op.Answer
  | .driver (.listMembers record) => d.listMembers record
  | .driver (.addMember record ip ttl) => d.addMember record ip ttl
  | .driver (.removeMember record ip) => d.removeMember record ip
  | .driver (.hasMarker record) => d.hasMarker record
  | .driver (.ensureMarker record) => d.ensureMarker record
  | .probe => perform (S := cloudflareSignature κ) .probe
  | .audit event => perform (S := cloudflareSignature κ) (.audit event)
  | .sleep seconds => perform (S := cloudflareSignature κ) (.sleep seconds)
  | .onRound report => perform (S := cloudflareSignature κ) (.onRound report)

end CloudflareDriver

/-! ## A lone driver -/

/-- The zone of the driver is `id`, and it keeps no other identifier. -/
structure CloudflareAccount.Knows {κ : Type} (s : CloudflareAccount κ) (d : CloudflareDriver κ)
    (id : String) : Prop where
  found : (s.zonesNamed d.zone).head? = some id
  kept : ∀ x, s.zoneIds d.self = some x → x = id

def CloudflareCall.isLookup {κ : Type} : CloudflareCall κ → Bool
  | .request (.getZones _) => true
  | _ => false

/-- Lookups of a zone. -/
def lookups {κ : Type} (trace : List (Event (cloudflareSignature κ) Exn)) : Nat :=
  trace.countP fun event => event.op.isLookup

namespace CloudflareDriver

variable {κ α β : Type} [DecidableEq κ] {clusters : List ClusterStatus} {d : CloudflareDriver κ}
  {s t u : CloudflareAccount κ} {id : String}

/-- 1 once the identifier of the zone is kept. -/
def held (d : CloudflareDriver κ) (s : CloudflareAccount κ) : Nat :=
  (s.zoneIds d.self).toList.length

omit [DecidableEq κ] in
theorem held_le_one (d : CloudflareDriver κ) (s : CloudflareAccount κ) : d.held s ≤ 1 := by
  rw [held]
  cases s.zoneIds d.self with
  | none => exact Nat.zero_le 1
  | some id => exact Nat.le_refl 1

/-- The program returns `a` and leaves `t`, having looked the zone up just if the driver did not
hold its identifier and now does. -/
structure Turns (clusters : List ClusterStatus) (d : CloudflareDriver κ) (p : CloudflareProgram κ α)
    (s : CloudflareAccount κ) (a : α) (t : CloudflareAccount κ) : Prop where
  result : (exec (cloudflareApi clusters) p s).result = .ok a
  final : (exec (cloudflareApi clusters) p s).final = t
  gain : lookups (exec (cloudflareApi clusters) p s).trace + d.held s = d.held t

theorem turns_pure {a : α} : Turns clusters d (pure a) s a s := ⟨rfl, rfl, Nat.zero_add _⟩

theorem Turns.bind {p : CloudflareProgram κ α} {f : α → CloudflareProgram κ β} {a : α} {b : β}
    (hp : Turns clusters d p s a t) (hf : Turns clusters d (f a) t b u) :
    Turns clusters d (p >>= f) s b u := by
  have hexec := exec_bind_ok (f := f) hp.result
  dsimp only at hexec
  rw [hp.final] at hexec
  refine ⟨?_, ?_, ?_⟩
  · rw [hexec]
    exact hf.result
  · rw [hexec]
    exact hf.final
  · rw [hexec, ← hf.gain, ← hp.gain]
    simp only [lookups, List.countP_append]
    omega

theorem turns_perform {op : CloudflareCall κ} {a : op.Answer}
    (h : cloudflareApi clusters op s = (.ok a, t))
    (hgain : op.isLookup.toNat + d.held s = d.held t) :
    Turns clusters d (perform (S := cloudflareSignature κ) op) s a t := by
  refine ⟨congrArg Prod.fst h, congrArg Prod.snd h, ?_⟩
  rw [← hgain]
  show List.countP _ [_] + _ = _
  rw [List.countP_singleton]
  cases op.isLookup <;> rfl

/-- A request other than a lookup. -/
theorem turns_request {r : CloudflareRequest} {a : r.Answer} (hr : ∀ name, r ≠ .getZones name)
    (h : cloudflareApi clusters (.request r) s = (.ok a, t)) (hkept : t.zoneIds = s.zoneIds) :
    Turns clusters d (request r) s a t := by
  refine turns_perform h ?_
  have hheld : d.held t = d.held s := by rw [held, held, hkept]
  rw [hheld]
  cases r with
  | getZones name => exact absurd rfl (hr name)
  | getDnsRecords | postDnsRecord | deleteDnsRecord => exact Nat.zero_add _

/-- The state with the identifier kept. -/
def keep (d : CloudflareDriver κ) (id : String) (s : CloudflareAccount κ) : CloudflareAccount κ :=
  { s with zoneIds := Function.update s.zoneIds d.self (some id) }

@[simp] theorem keep_zoneIds_self : (d.keep id s).zoneIds d.self = some id :=
  Function.update_self ..

theorem keep_of_kept (h : s.zoneIds d.self = some id) : d.keep id s = s := by
  rw [keep, ← h, Function.update_eq_self]

theorem keep_keep : d.keep id (d.keep id s) = d.keep id s := keep_of_kept keep_zoneIds_self

theorem knows_keep (h : s.Knows d id) : (d.keep id s).Knows d id where
  found := h.found
  kept x hx := by
    rw [keep_zoneIds_self] at hx
    exact (Option.some_inj.mp hx).symm

theorem turns_zid (h : s.Knows d id) : Turns clusters d d.zid s id (d.keep id s) := by
  have hfield : Turns clusters d (perform (S := cloudflareSignature κ) (.zoneId d.self)) s
      (s.zoneIds d.self) s := turns_perform rfl (Nat.zero_add _)
  refine hfield.bind ?_
  cases hkept : s.zoneIds d.self with
  | some x =>
      have hx := h.kept x hkept
      subst hx
      rw [keep_of_kept hkept]
      exact turns_pure
  | none =>
      obtain ⟨rest, hzones⟩ : ∃ rest, s.zonesNamed d.zone = id :: rest := by
        have hfound := h.found
        cases hlist : s.zonesNamed d.zone with
        | nil =>
            rw [hlist] at hfound
            cases hfound
        | cons x rest =>
            rw [hlist] at hfound
            exact ⟨rest, by rw [Option.some_inj.mp hfound]⟩
      have hnone : d.held s = 0 := by rw [held, hkept]; rfl
      have hsome : d.held (d.keep id s) = 1 := by rw [held, keep_zoneIds_self]; rfl
      -- the lookup is accounted for by the field that is set after it
      have hexec : exec (cloudflareApi clusters) (d.zidFrom none) s =
          ⟨d.keep id s, [⟨.request (.getZones d.zone), .ok (s.zonesNamed d.zone)⟩,
            ⟨.setZoneId d.self id, .ok ()⟩], .ok id⟩ := by
        have hlookup : exec (cloudflareApi clusters) (request (.getZones d.zone)) s =
            ⟨s, [⟨.request (.getZones d.zone), .ok (s.zonesNamed d.zone)⟩],
              .ok (s.zonesNamed d.zone)⟩ := rfl
        rw [zidFrom, exec_bind, hlookup]
        show Execution.mk _ _ _ = _
        rw [hzones]
        rfl
      refine ⟨?_, ?_, ?_⟩
      · rw [hexec]
      · rw [hexec]
      · rw [hexec, hnone, hsome]
        rfl

theorem turns_records (h : s.Knows d id) (rtype : RecordType) (name : String) :
    Turns clusters d (d.records rtype name) s ((s.records id).query rtype name) (d.keep id s) :=
  (turns_zid h).bind (turns_request (fun _ h => by cases h) rfl rfl)

theorem turns_listMembers (h : s.Knows d id) (record : String) :
    Turns clusters d (d.listMembers record) s ((s.records id).listMembers record) (d.keep id s) :=
  (turns_records h .a record).bind turns_pure

theorem turns_hasMarker (h : s.Knows d id) (record : String) :
    Turns clusters d (d.hasMarker record) s ((s.records id).hasMarker record) (d.keep id s) :=
  (turns_records h .txt (markerName record)).bind turns_pure

theorem turns_post (h : s.Knows d id) (rtype : RecordType) (name content : String) (ttl : Int) :
    Turns clusters d (d.post rtype name content ttl) s ()
      ((d.keep id s).setRecords id ((s.records id).post rtype name content ttl)) :=
  (turns_zid h).bind (turns_request (fun _ h => by cases h) rfl rfl)

omit [DecidableEq κ] in
theorem setRecords_same : s.setRecords id (s.records id) = s := by
  rw [CloudflareAccount.setRecords, Function.update_eq_self]

theorem turns_addMember (h : s.Knows d id) (record ip : String) (ttl : Int) :
    Turns clusters d (d.addMember record ip ttl) s ()
      ((d.keep id s).setRecords id ((s.records id).addMember record ip ttl)) := by
  refine (turns_listMembers h record).bind ?_
  by_cases hin : ip ∈ (s.records id).listMembers record
  · rw [CloudflareZone.addMember, if_pos hin, if_pos hin]
    have hsame : (d.keep id s).setRecords id (s.records id) = d.keep id s := setRecords_same
    rw [hsame]
    exact turns_pure
  · rw [CloudflareZone.addMember, if_neg hin, if_neg hin]
    have hpost : Turns clusters d _ _ _ _ := turns_post (knows_keep h) .a record ip ttl
    rwa [keep_keep] at hpost

theorem turns_ensureMarker (h : s.Knows d id) (record : String) :
    Turns clusters d (d.ensureMarker record) s ()
      ((d.keep id s).setRecords id ((s.records id).ensureMarker record)) := by
  refine (turns_hasMarker h record).bind ?_
  cases hmarked : (s.records id).hasMarker record with
  | true =>
      have hsame : (d.keep id s).setRecords id (s.records id) = d.keep id s := setRecords_same
      rw [CloudflareZone.ensureMarker, if_pos hmarked, hsame]
      exact turns_pure
  | false =>
      have hpost : Turns clusters d _ _ _ _ :=
        turns_post (knows_keep h) .txt (markerName record) markerContent 300
      rw [keep_keep] at hpost
      have hensure : (s.records id).ensureMarker record =
          (s.records id).post .txt (markerName record) markerContent 300 :=
        if_neg (by rw [hmarked]; exact Bool.false_ne_true)
      rw [hensure]
      exact hpost

theorem turns_deleteRecord (h : s.Knows d id) {rec : ZoneRecord}
    (hrec : rec ∈ (s.records id).records) :
    Turns clusters d (d.deleteRecord rec) s ()
      ((d.keep id s).setRecords id ((s.records id).delete rec.id)) := by
  refine (turns_zid h).bind (turns_request (fun _ h => by cases h) ?_ rfl)
  exact if_pos (List.mem_map_of_mem hrec)

/-- The deletions of what was found, once the driver holds the identifier of its zone. -/
theorem turns_deletes {ip : String} {found : List ZoneRecord} (h : s.Knows d id)
    (hkept : s.zoneIds d.self = some id) (hfound : ∀ rec ∈ found, rec ∈ (s.records id).records)
    (hdistinct : (found.map (·.id)).Nodup) :
    Turns clusters d
      (each found fun rec => if rec.content = ip then d.deleteRecord rec else pure ()) s
      (found.map fun _ => ()) (s.setRecords id (found.foldl
        (fun z rec => if rec.content = ip then z.delete rec.id else z) (s.records id))) := by
  induction found generalizing s with
  | nil =>
      have hsame : s.setRecords id (s.records id) = s := setRecords_same
      rw [List.foldl_nil, hsame]
      exact turns_pure
  | cons rec found ih =>
      rw [each_cons, List.foldl_cons]
      have hrest := List.forall_mem_cons.mp hfound
      rw [List.map_cons, List.nodup_cons] at hdistinct
      by_cases hip : rec.content = ip
      · rw [if_pos hip, if_pos hip]
        have hfirst : Turns clusters d _ _ _ _ := turns_deleteRecord h hrest.1
        rw [keep_of_kept hkept] at hfirst
        -- an identifier is that of one record, so the others are still there
        have hleft : ∀ r ∈ found, r ∈ ((s.setRecords id
            ((s.records id).delete rec.id)).records id).records := by
          intro r hr
          rw [CloudflareAccount.setRecords_self]
          refine List.mem_filter.mpr ⟨hrest.2 r hr, decide_eq_true ?_⟩
          intro hid
          exact hdistinct.1 (hid ▸ List.mem_map_of_mem hr)
        have hothers := ih (s := s.setRecords id ((s.records id).delete rec.id))
          ⟨h.found, h.kept⟩ hkept hleft hdistinct.2
        rw [CloudflareAccount.setRecords_self, CloudflareAccount.setRecords_twice] at hothers
        exact hfirst.bind (hothers.bind turns_pure)
      · rw [if_neg hip, if_neg hip]
        exact turns_pure.bind ((ih h hkept hrest.2 hdistinct.2).bind turns_pure)

theorem turns_removeMember (h : s.Knows d id) (record ip : String) :
    Turns clusters d (d.removeMember record ip) s ()
      ((d.keep id s).setRecords id ((s.records id).removeMember record ip)) := by
  have hdistinct : (((s.records id).query .a record).map (·.id)).Nodup :=
    (s.records id).distinct.sublist (List.filter_sublist.map _)
  have hdeletes : Turns clusters d (each ((s.records id).query .a record) fun rec =>
      if rec.content = ip then d.deleteRecord rec else pure ()) (d.keep id s) _ _ :=
    turns_deletes (knows_keep h) keep_zoneIds_self (fun rec hrec => List.mem_of_mem_filter hrec)
      hdistinct
  exact (turns_records h .a record).bind (hdeletes.bind turns_pure)

/-- What the drivers of an account have in common with the one it set out from. -/
structure Since (d : CloudflareDriver κ) (id : String) (s t : CloudflareAccount κ) : Prop where
  knows : t.Knows d id
  others : ∀ x, x ≠ id → t.records x = s.records x

theorem since_keep (h : Since d id s t) (z : CloudflareZone) :
    Since d id s ((d.keep id t).setRecords id z) where
  knows := ⟨h.knows.found, (knows_keep h.knows).kept⟩
  others x hx := (Function.update_of_ne hx ..).trans (h.others x hx)

variable (clusters) in
/-- Every effect comes to what the one-step driver does to the zone. -/
theorem turns_carry (h : Since d id s t) (op : DnsEffect) :
    ∃ a u, Turns clusters d (d.carry op) t a u ∧
      cloudflareDriver.handler clusters op (t.records id) = (.ok a, u.records id) ∧
      Since d id s u := by
  have hsame : (d.keep id t).setRecords id (t.records id) = d.keep id t := setRecords_same
  have hread : Since d id s (d.keep id t) := hsame ▸ since_keep h (t.records id)
  cases op with
  | driver c =>
      cases c with
      | listMembers record => exact ⟨_, _, turns_listMembers h.knows record, rfl, hread⟩
      | hasMarker record => exact ⟨_, _, turns_hasMarker h.knows record, rfl, hread⟩
      | addMember record ip ttl =>
          refine ⟨_, _, turns_addMember h.knows record ip ttl, ?_, since_keep h _⟩
          rw [CloudflareAccount.setRecords_self]
          rfl
      | removeMember record ip =>
          refine ⟨_, _, turns_removeMember h.knows record ip, ?_, since_keep h _⟩
          rw [CloudflareAccount.setRecords_self]
          rfl
      | ensureMarker record =>
          refine ⟨_, _, turns_ensureMarker h.knows record, ?_, since_keep h _⟩
          rw [CloudflareAccount.setRecords_self]
          rfl
  | probe => exact ⟨clusters, t, turns_perform rfl (Nat.zero_add _), rfl, h⟩
  | audit event => exact ⟨(), t, turns_perform rfl (Nat.zero_add _), rfl, h⟩
  | sleep seconds => exact ⟨(), t, turns_perform rfl (Nat.zero_add _), rfl, h⟩
  | onRound report => exact ⟨(), t, turns_perform rfl (Nat.zero_add _), rfl, h⟩

end CloudflareDriver

open CloudflareDriver in
/-- Whatever the failover code does through a driver of its own, request by request it returns
what it does through the one-step driver and leaves the zone of the driver as that does; no other
zone changes, and the identifier of the zone is looked up at most once. -/
theorem cloudflare_refines {κ α : Type} [DecidableEq κ] (clusters : List ClusterStatus)
    (d : CloudflareDriver κ) (s : CloudflareAccount κ) (id : String) (known : s.Knows d id)
    (p : DnsProgram α) :
    let e := exec (cloudflareApi clusters) (p.expand d.carry) s
    let e' := exec (cloudflareDriver.handler clusters) p (s.records id)
    e.result = e'.result ∧ e.final.records id = e'.final ∧
      (∀ x, x ≠ id → e.final.records x = s.records x) ∧ lookups e.trace ≤ 1 ∧
        (s.zoneIds d.self = some id → lookups e.trace = 0) := by
  have hstart : Since d id s s := ⟨known, fun _ _ => rfl⟩
  have hrun := exec_expand (cloudflareDriver.handler clusters) (cloudflareApi clusters)
    (fun t : CloudflareAccount κ => t.records id) (Since d id s) (fun op t ht => by
      obtain ⟨a, u, hturns, hop, hsince⟩ := turns_carry clusters ht op
      rw [hop, hturns.result, hturns.final]
      exact ⟨rfl, rfl, hsince⟩) p hstart
  have hgain := exec_expand_gain (cloudflareApi clusters) lookups d.held
    (fun xs ys => List.countP_append) rfl (Since d id s) (fun op t ht => by
      obtain ⟨a, u, hturns, -, hsince⟩ := turns_carry clusters ht op
      have hfinal := hturns.gain
      rw [← hturns.final] at hsince hfinal
      exact ⟨hsince, hfinal⟩) p hstart
  have hheld := d.held_le_one (exec (cloudflareApi clusters) (p.expand d.carry) s).final
  refine ⟨hrun.1, hrun.2.1, hrun.2.2.others, by omega, fun hkept => ?_⟩
  have hone : d.held s = 1 := by
    rw [held, hkept]
    rfl
  omega

/-! ## A zone that is not there -/

/-- The world in which every driver call raises. -/
def zonelessApi {κ : Type} (d : CloudflareDriver κ) (clusters : List ClusterStatus) :
    Handler dnsSignature Exn Unit
  | .driver _, s => (.error d.zoneMissing, s)
  | .probe, s => (.ok clusters, s)
  | .audit _, s => (.ok (), s)
  | .sleep _, s => (.ok (), s)
  | .onRound _, s => (.ok (), s)

namespace CloudflareDriver

variable {κ α β : Type} [DecidableEq κ] {clusters : List ClusterStatus} {d : CloudflareDriver κ}
  {s : CloudflareAccount κ}

/-- The program raises that the zone is missing, and leaves the state. -/
def Misses (clusters : List ClusterStatus) (d : CloudflareDriver κ) (p : CloudflareProgram κ α)
    (s : CloudflareAccount κ) : Prop :=
  (exec (cloudflareApi clusters) p s).result = .error d.zoneMissing ∧
    (exec (cloudflareApi clusters) p s).final = s

theorem Misses.bind {p : CloudflareProgram κ α} (h : Misses clusters d p s)
    (f : α → CloudflareProgram κ β) : Misses clusters d (p >>= f) s := by
  rw [Misses, exec_bind_error h.1]
  exact ⟨rfl, h.2⟩

theorem misses_zid (missing : s.zonesNamed d.zone = []) (unkept : s.zoneIds d.self = none) :
    Misses clusters d d.zid s := by
  have hfield : exec (cloudflareApi clusters)
      (perform (S := cloudflareSignature κ) (.zoneId d.self)) s =
        ⟨s, [⟨.zoneId d.self, .ok (s.zoneIds d.self)⟩], .ok (s.zoneIds d.self)⟩ := rfl
  have hlookup : exec (cloudflareApi clusters) (request (.getZones d.zone)) s =
      ⟨s, [⟨.request (.getZones d.zone), .ok (s.zonesNamed d.zone)⟩],
        .ok (s.zonesNamed d.zone)⟩ := rfl
  have hfrom : Misses clusters d (d.zidFrom none) s := by
    rw [Misses, zidFrom, exec_bind, hlookup, missing]
    exact ⟨rfl, rfl⟩
  rw [Misses, zid, exec_bind, hfield, unkept]
  exact hfrom

end CloudflareDriver

open CloudflareDriver in
/-- A driver whose zone the account does not have raises on every call, and nothing changes. -/
theorem cloudflare_zone_missing {κ α : Type} [DecidableEq κ] (clusters : List ClusterStatus)
    (d : CloudflareDriver κ) (s : CloudflareAccount κ) (missing : s.zonesNamed d.zone = [])
    (unkept : s.zoneIds d.self = none) (p : DnsProgram α) :
    (exec (cloudflareApi clusters) (p.expand d.carry) s).result =
        (exec (zonelessApi d clusters) p ()).result ∧
      (exec (cloudflareApi clusters) (p.expand d.carry) s).final = s := by
  have hzid : Misses clusters d d.zid s := misses_zid missing unkept
  have hrecords : ∀ rtype name, Misses clusters d (d.records rtype name) s := fun _ _ =>
    hzid.bind _
  have hdriver : ∀ c, Misses clusters d (d.carry (.driver c)) s := by
    intro c
    cases c with
    | listMembers record => exact (hrecords _ _).bind _
    | addMember record ip ttl => exact ((hrecords _ _).bind _).bind _
    | removeMember record ip => exact (hrecords _ _).bind _
    | hasMarker record => exact (hrecords _ _).bind _
    | ensureMarker record => exact ((hrecords _ _).bind _).bind _
  have hrun := exec_expand (zonelessApi d clusters) (cloudflareApi clusters)
    (fun _ : CloudflareAccount κ => ()) (fun t => t = s) (fun op t ht => by
      subst ht
      cases op with
      | driver c => exact ⟨(hdriver c).1, rfl, (hdriver c).2⟩
      | probe | audit | sleep | onRound => exact ⟨rfl, rfl, rfl⟩) p rfl
  exact ⟨hrun.1, hrun.2.2⟩

/-! ## An account -/

def exampleAccount : CloudflareAccount Unit where
  zones := [("example.com", "z1"), ("example.org", "z2")]
  records _ := ⟨[], 1, nofun, List.nodup_nil⟩
  zoneIds _ := none

theorem cloudflare_refines_example :
    (exec (cloudflareApi []) ((driverCall (.addMember "rpc.example.com" "10.0.0.1" 60)).expand
        (CloudflareDriver.mk "example.com" ()).carry) exampleAccount).final.records "z1" =
      (exec (cloudflareDriver.handler []) (driverCall (.addMember "rpc.example.com" "10.0.0.1" 60))
        (exampleAccount.records "z1")).final :=
  (cloudflare_refines [] ⟨"example.com", ()⟩ exampleAccount "z1"
    ⟨by decide, fun _ h => by cases h⟩
      (driverCall (.addMember "rpc.example.com" "10.0.0.1" 60))).2.1

end Solfleet
