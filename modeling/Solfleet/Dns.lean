import Mathlib.Data.Finset.Insert
import Mathlib.Data.List.Sort
import Mathlib.Data.String.Basic
import Mathlib.Logic.Function.Basic
import Solfleet.Library.Concurrent
import Solfleet.Library.Sorted
import Solfleet.Probe
import Solfleet.Safety

/-! # DNS drivers

A pool is a record with one A entry per serving host. The operations decide
through a driver: five calls on a record, each atomic. `LawfulDriver` states what
an add or a remove of one address does to the sets of addresses, and the
in-memory and the Cloudflare driver are proved to be such drivers.
-/

namespace Solfleet

/-! ## Driver calls -/

inductive DriverCall where
  | listMembers (record : String)
  | addMember (record ip : String) (ttl : Int)
  | removeMember (record ip : String)
  | hasMarker (record : String)
  | ensureMarker (record : String)
  deriving DecidableEq

abbrev DriverCall.Answer : DriverCall → Type
  | .listMembers _ => List String
  | .addMember .. => Unit
  | .removeMember .. => Unit
  | .hasMarker _ => Bool
  | .ensureMarker _ => Unit

/-- The calls that may change provider state. -/
def DriverCall.Mutates : DriverCall → Prop
  | .addMember .. | .removeMember .. | .ensureMarker _ => True
  | .listMembers _ | .hasMarker _ => False

structure DnsDriver where
  State : Type
  listMembers : State → String → List String
  addMember : State → String → String → Int → State
  removeMember : State → String → String → State
  hasMarker : State → String → Bool
  ensureMarker : State → String → State

/-- The answer to a call and the state it leaves. -/
def DnsDriver.perform (D : DnsDriver) (s : D.State) : (c : DriverCall) → c.Answer × D.State
  | .listMembers record => (D.listMembers s record, s)
  | .addMember record ip ttl => ((), D.addMember s record ip ttl)
  | .removeMember record ip => ((), D.removeMember s record ip)
  | .hasMarker record => (D.hasMarker s record, s)
  | .ensureMarker record => ((), D.ensureMarker s record)

/-- The A set of a record. -/
def DnsDriver.members (D : DnsDriver) (s : D.State) (record : String) : Finset String :=
  (D.listMembers s record).toFinset

/-- A driver that adds and removes one address of one record at a time. -/
structure LawfulDriver extends DnsDriver where
  members_add : ∀ s record ip ttl,
    toDnsDriver.members (addMember s record ip ttl) =
      Function.update (toDnsDriver.members s) record (insert ip (toDnsDriver.members s record))
  members_remove : ∀ s record ip,
    toDnsDriver.members (removeMember s record ip) =
      Function.update (toDnsDriver.members s) record ((toDnsDriver.members s record).erase ip)
  members_ensure : ∀ s record,
    toDnsDriver.members (ensureMarker s record) = toDnsDriver.members s
  marker_add : ∀ s record ip ttl, hasMarker (addMember s record ip ttl) = hasMarker s
  marker_remove : ∀ s record ip, hasMarker (removeMember s record ip) = hasMarker s
  marker_ensure : ∀ s record,
    hasMarker (ensureMarker s record) = Function.update (hasMarker s) record true

instance : Coe LawfulDriver DnsDriver := ⟨LawfulDriver.toDnsDriver⟩

/-! ## The in-memory driver -/

/-- `ops` records every mutation of an A entry. -/
structure InMemoryDns where
  a : String → Finset String := fun _ => ∅
  markers : Finset String := ∅
  ops : List (String × String × String) := []

namespace InMemoryDns

def listMembers (s : InMemoryDns) (record : String) : List String := sorted (s.a record)

def addMember (s : InMemoryDns) (record ip : String) (_ttl : Int) : InMemoryDns :=
  { s with
    a := Function.update s.a record (insert ip (s.a record))
    ops := s.ops ++ [("add", record, ip)] }

def removeMember (s : InMemoryDns) (record ip : String) : InMemoryDns :=
  { s with
    a := Function.update s.a record ((s.a record).erase ip)
    ops := s.ops ++ [("remove", record, ip)] }

def hasMarker (s : InMemoryDns) (record : String) : Bool := decide (record ∈ s.markers)

def ensureMarker (s : InMemoryDns) (record : String) : InMemoryDns :=
  { s with markers := insert record s.markers }

end InMemoryDns

def inMemoryDnsDriver : LawfulDriver where
  State := InMemoryDns
  listMembers := InMemoryDns.listMembers
  addMember := InMemoryDns.addMember
  removeMember := InMemoryDns.removeMember
  hasMarker := InMemoryDns.hasMarker
  ensureMarker := InMemoryDns.ensureMarker
  members_add s record ip ttl := by
    funext r
    by_cases hr : r = record
    · subst hr
      simp [DnsDriver.members, InMemoryDns.listMembers, InMemoryDns.addMember]
    · simp [DnsDriver.members, InMemoryDns.listMembers, InMemoryDns.addMember, hr]
  members_remove s record ip := by
    funext r
    by_cases hr : r = record
    · subst hr
      simp [DnsDriver.members, InMemoryDns.listMembers, InMemoryDns.removeMember]
    · simp [DnsDriver.members, InMemoryDns.listMembers, InMemoryDns.removeMember, hr]
  members_ensure _ _ := rfl
  marker_add _ _ _ _ := rfl
  marker_remove _ _ _ := rfl
  marker_ensure s record := by
    funext r
    by_cases hr : r = record <;>
      simp [InMemoryDns.hasMarker, InMemoryDns.ensureMarker, hr]

@[simp] theorem inMemory_members (s : InMemoryDns) (record : String) :
    inMemoryDnsDriver.members s record = s.a record :=
  toFinset_sorted (s.a record)

/-! ## The Cloudflare driver -/

def markerContent : String := "solfleet-managed"

def markerName (record : String) : String := "_solfleet." ++ record

inductive RecordType where
  | a
  | txt
  deriving DecidableEq

structure ZoneRecord where
  id : Nat
  rtype : RecordType
  name : String
  content : String
  ttl : Int
  deriving DecidableEq

/-- The records of one zone. The provider hands out a new identifier for every
record it creates, so identifiers are distinct and below `nextId`. -/
structure CloudflareZone where
  records : List ZoneRecord
  nextId : Nat
  fresh : ∀ rec ∈ records, rec.id < nextId
  distinct : (records.map (·.id)).Nodup

namespace CloudflareZone

/-- The records of one type and name. -/
def query (z : CloudflareZone) (rtype : RecordType) (name : String) : List ZoneRecord :=
  z.records.filter fun rec => decide (rec.rtype = rtype ∧ rec.name = name)

def post (z : CloudflareZone) (rtype : RecordType) (name content : String) (ttl : Int) :
    CloudflareZone where
  records := z.records ++ [⟨z.nextId, rtype, name, content, ttl⟩]
  nextId := z.nextId + 1
  fresh rec hrec := by
    rcases List.mem_append.mp hrec with h | h
    · exact Nat.lt_succ_of_lt (z.fresh rec h)
    · simp only [List.mem_singleton] at h
      simp [h]
  distinct := by
    simp only [List.map_append, List.map_cons, List.map_nil, List.nodup_append,
      List.nodup_singleton, true_and, List.mem_singleton, List.mem_map]
    refine ⟨z.distinct, ?_⟩
    rintro _ ⟨rec, hrec, rfl⟩ _ rfl
    exact Nat.ne_of_lt (z.fresh rec hrec)

def delete (z : CloudflareZone) (id : Nat) : CloudflareZone where
  records := z.records.filter fun rec => decide (rec.id ≠ id)
  nextId := z.nextId
  fresh rec hrec := z.fresh rec (List.mem_of_mem_filter hrec)
  distinct := z.distinct.sublist (List.filter_sublist.map _)

def listMembers (z : CloudflareZone) (record : String) : List String :=
  ((z.query .a record).map (·.content)).insertionSort (· ≤ ·)

def addMember (z : CloudflareZone) (record ip : String) (ttl : Int) : CloudflareZone :=
  if ip ∈ z.listMembers record then z else z.post .a record ip ttl

/-- Every listed record of that address is deleted by its identifier. -/
def removeMember (z : CloudflareZone) (record ip : String) : CloudflareZone :=
  (z.query .a record).foldl (fun z rec => if rec.content = ip then z.delete rec.id else z) z

def hasMarker (z : CloudflareZone) (record : String) : Bool :=
  !(z.query .txt (markerName record)).isEmpty

def ensureMarker (z : CloudflareZone) (record : String) : CloudflareZone :=
  if z.hasMarker record then z else z.post .txt (markerName record) markerContent 300

theorem mem_listMembers {z : CloudflareZone} {record ip : String} :
    ip ∈ z.listMembers record ↔
      ∃ rec ∈ z.records, rec.rtype = .a ∧ rec.name = record ∧ rec.content = ip := by
  simp only [listMembers, List.mem_insertionSort, query, List.mem_map, List.mem_filter,
    decide_eq_true_eq]
  constructor
  · rintro ⟨rec, ⟨hrec, ht, hn⟩, hc⟩
    exact ⟨rec, hrec, ht, hn, hc⟩
  · rintro ⟨rec, hrec, ht, hn, hc⟩
    exact ⟨rec, ⟨hrec, ht, hn⟩, hc⟩

theorem hasMarker_iff {z : CloudflareZone} {record : String} :
    z.hasMarker record = true ↔
      ∃ rec ∈ z.records, rec.rtype = .txt ∧ rec.name = markerName record := by
  simp [hasMarker, query]

/-- The deletions of a list of records remove exactly the matching identifiers. -/
theorem mem_foldl_delete {ip : String} {found : List ZoneRecord} {z : CloudflareZone}
    {rec : ZoneRecord} :
    rec ∈ (found.foldl (fun z r => if r.content = ip then z.delete r.id else z) z).records ↔
      rec ∈ z.records ∧ ∀ r ∈ found, r.content = ip → rec.id ≠ r.id := by
  induction found generalizing z with
  | nil => simp
  | cons r found ih =>
      rw [List.foldl_cons, ih]
      by_cases hr : r.content = ip
      · simp only [hr, if_true, delete, List.mem_filter, decide_eq_true_eq, List.forall_mem_cons,
          true_implies]
        tauto
      · simp [hr]

theorem mem_removeMember {z : CloudflareZone} {record ip : String} {rec : ZoneRecord} :
    rec ∈ (z.removeMember record ip).records ↔
      rec ∈ z.records ∧ ¬ (rec.rtype = .a ∧ rec.name = record ∧ rec.content = ip) := by
  simp only [removeMember, mem_foldl_delete, query, List.mem_filter, decide_eq_true_eq]
  refine and_congr_right fun hrec => ⟨?_, ?_⟩
  · rintro h ⟨ht, hn, hc⟩
    exact h rec ⟨hrec, ht, hn⟩ hc rfl
  · rintro h r ⟨hr, ht, hn⟩ hc hid
    obtain rfl := List.inj_on_of_nodup_map z.distinct hrec hr hid
    exact h ⟨ht, hn, hc⟩

end CloudflareZone

open CloudflareZone in
def cloudflareDriver : LawfulDriver where
  State := CloudflareZone
  listMembers := CloudflareZone.listMembers
  addMember := CloudflareZone.addMember
  removeMember := CloudflareZone.removeMember
  hasMarker := CloudflareZone.hasMarker
  ensureMarker := CloudflareZone.ensureMarker
  members_add z record ip ttl := by
    funext r
    ext x
    by_cases hin : ip ∈ z.listMembers record
    · by_cases hr : r = record
      · subst hr
        simp only [DnsDriver.members, addMember, hin, if_true, Function.update_self,
          List.mem_toFinset, Finset.mem_insert]
        exact ⟨.inr, fun h => h.elim (fun he => he ▸ hin) id⟩
      · simp [DnsDriver.members, addMember, hin, hr]
    · by_cases hr : r = record
      · subst hr
        simp [DnsDriver.members, addMember, hin, mem_listMembers, post, or_comm, or_and_right,
          exists_or, eq_comm]
      · simp [DnsDriver.members, addMember, hin, mem_listMembers, post, or_and_right, exists_or,
          hr, Ne.symm hr]
  members_remove z record ip := by
    funext r
    ext x
    by_cases hr : r = record
    · subst hr
      simp only [DnsDriver.members, Function.update_self, List.mem_toFinset, Finset.mem_erase,
        mem_listMembers, mem_removeMember]
      constructor
      · rintro ⟨rec, ⟨hrec, hne⟩, ht, hn, rfl⟩
        exact ⟨fun hx => hne ⟨ht, hn, hx⟩, rec, hrec, ht, hn, rfl⟩
      · rintro ⟨hx, rec, hrec, ht, hn, rfl⟩
        exact ⟨rec, ⟨hrec, fun h => hx h.2.2⟩, ht, hn, rfl⟩
    · simp only [DnsDriver.members, Function.update_of_ne hr, List.mem_toFinset,
        mem_listMembers, mem_removeMember]
      constructor
      · rintro ⟨rec, ⟨hrec, -⟩, h⟩
        exact ⟨rec, hrec, h⟩
      · rintro ⟨rec, hrec, ht, hn, hc⟩
        exact ⟨rec, ⟨hrec, fun h => hr (hn ▸ h.2.1)⟩, ht, hn, hc⟩
  members_ensure z record := by
    funext r
    ext x
    by_cases hm : z.hasMarker record = true
    · simp [DnsDriver.members, ensureMarker, hm]
    · simp [DnsDriver.members, ensureMarker, hm, mem_listMembers, post, or_and_right, exists_or]
  marker_add z record ip ttl := by
    funext r
    rw [Bool.eq_iff_iff]
    by_cases hin : ip ∈ z.listMembers record
    · simp [addMember, hin]
    · simp [addMember, hin, hasMarker_iff, post, or_and_right, exists_or]
  marker_remove z record ip := by
    funext r
    rw [Bool.eq_iff_iff]
    simp only [hasMarker_iff, mem_removeMember]
    constructor
    · rintro ⟨rec, ⟨hrec, -⟩, h⟩
      exact ⟨rec, hrec, h⟩
    · rintro ⟨rec, hrec, ht, hn⟩
      exact ⟨rec, ⟨hrec, fun h => by simp [ht] at h⟩, ht, hn⟩
  marker_ensure z record := by
    funext r
    rw [Bool.eq_iff_iff]
    by_cases hm : z.hasMarker record = true
    · by_cases hr : r = record
      · simp [ensureMarker, hm, hr]
      · simp [ensureMarker, hm, hr]
    · by_cases hr : r = record
      · subst hr
        simp [ensureMarker, hm, hasMarker_iff, post, or_and_right, exists_or]
      · have hname : markerName record ≠ markerName r := by
          simpa [markerName, String.append_right_inj] using Ne.symm hr
        simp [ensureMarker, hm, hr, hasMarker_iff, post, or_and_right, exists_or, hname]

end Solfleet
