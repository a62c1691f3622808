import Mathlib.Data.List.Lex
import Mathlib.Data.Prod.Lex
import Solfleet.Dns
import Solfleet.Library.Table

/-! # The Route53 driver

A record is one record set with all its addresses. The driver reads a set by listing from
its name on, and writes by replacing the whole set or by deleting the set it has just read;
each of these is one call to the provider. `Route53.members` and `Route53.marked` are what
a zone says of a record, and every method is specified by what it does to them.
-/

namespace Solfleet

open Interaction Program

/-! ## The provider -/

structure RecordKey where
  name : String
  rtype : RecordType
  deriving DecidableEq

structure RecordSet where
  name : String
  rtype : RecordType
  ttl : Int
  values : List String
  deriving DecidableEq

def RecordSet.key (rs : RecordSet) : RecordKey := ⟨rs.name, rs.rtype⟩

inductive ChangeAction where
  | upsert
  | delete
  deriving DecidableEq

/-- The calls on one hosted zone; a listing asks for a single record set. -/
inductive Route53Call where
  | listResourceRecordSets (startName : String) (startType : RecordType)
  | changeResourceRecordSets (action : ChangeAction) (rs : RecordSet)

abbrev Route53Call.Answer : Route53Call → Type
  | .listResourceRecordSets .. => List RecordSet
  | .changeResourceRecordSets .. => Unit

abbrev route53Signature : Signature := ⟨Route53Call, Route53Call.Answer⟩

abbrev Route53Program := Program route53Signature Exn

abbrev Route53Event := Event route53Signature Exn

def Route53Call.Changes : Route53Call → Prop
  | .listResourceRecordSets .. => False
  | .changeResourceRecordSets .. => True

def invalidChangeBatch : Exn := .raised "InvalidChangeBatch"

/-- The record sets of a zone, in whichever order the provider lists them. -/
abbrev Route53Zone [LinearOrder RecordKey] := Table RecordSet.key

/-- UPSERT replaces the set of a name and type, DELETE removes the identical set. -/
def route53 [LinearOrder RecordKey] : Handler route53Signature Exn Route53Zone
  | .listResourceRecordSets startName startType, z =>
      (.ok (z.seek ⟨startName, startType⟩).toList, z)
  | .changeResourceRecordSets .upsert rs, z => (.ok (), z.put rs)
  | .changeResourceRecordSets .delete rs, z =>
      if rs ∈ z.rows then (.ok (), z.drop rs.key) else (.error invalidChangeBatch, z)

/-! ## The driver -/

namespace Route53

def fqdn (name : String) : String := Text.rstrip '.' name ++ "."

def recordSet (rtype : RecordType) (name : String) : Route53Program (Option RecordSet) := do
  let sets ← perform (S := route53Signature) (.listResourceRecordSets (fqdn name) rtype)
  pure (sets.find? fun rs => decide (rs.name = fqdn name ∧ rs.rtype = rtype))

def valuesOf : Option RecordSet → List String
  | none => []
  | some rs => rs.values

def listMembers (record : String) : Route53Program (List String) := do
  let rs ← recordSet .a record
  pure ((valuesOf rs).insertionSort (· ≤ ·))

def deleteSet : Option RecordSet → Route53Program Unit
  | none => pure ()
  | some rs => perform (S := route53Signature) (.changeResourceRecordSets .delete rs)

/-- `_upsert`: a set without values is a set that is deleted. -/
def upsert (record : String) (values : Finset String) (ttl : Int) : Route53Program Unit :=
  if values = ∅ then do
    let rs ← recordSet .a record
    deleteSet rs
  else
    perform (S := route53Signature)
      (.changeResourceRecordSets .upsert ⟨fqdn record, .a, ttl, sorted values⟩)

def addMember (record ip : String) (ttl : Int) : Route53Program Unit := do
  let listed ← listMembers record
  if ip ∈ listed.toFinset then pure () else upsert record (insert ip listed.toFinset) ttl

def removeMember (record ip : String) : Route53Program Unit := do
  let listed ← listMembers record
  if ip ∈ listed.toFinset then upsert record (listed.toFinset.erase ip) 60 else pure ()

def hasMarker (record : String) : Route53Program Bool := do
  let rs ← recordSet .txt (markerName record)
  pure rs.isSome

def ensureMarker (record : String) : Route53Program Unit := do
  let marked ← hasMarker record
  if marked then pure ()
  else
    perform (S := route53Signature)
      (.changeResourceRecordSets .upsert
        ⟨fqdn (markerName record), .txt, 300, ["\"" ++ markerContent ++ "\""]⟩)

/-! ## What a zone says -/

theorem toList_find? {α : Type} (o : Option α) (p : α → Bool) : o.toList.find? p = o.filter p := by
  cases o with
  | none => rfl
  | some a =>
      rw [Option.filter_some, Option.toList_some, List.find?_singleton]

section

variable [LinearOrder RecordKey]

def memberKey (record : String) : RecordKey := ⟨fqdn record, .a⟩

def markerKey (record : String) : RecordKey := ⟨fqdn (markerName record), .txt⟩

def members (z : Route53Zone) (record : String) : Finset String :=
  (valuesOf (z.row? (memberKey record))).toFinset

def marked (z : Route53Zone) (record : String) : Bool := (z.row? (markerKey record)).isSome

/-- A listing that starts at a name and type finds the set of that name and type. -/
theorem find?_seek (z : Route53Zone) (name : String) (rtype : RecordType) :
    ((z.seek ⟨name, rtype⟩).toList.find? fun rs =>
      decide (rs.name = name ∧ rs.rtype = rtype)) = z.row? ⟨name, rtype⟩ := by
  rw [toList_find?, ← Table.seek_filter]
  congr 1
  funext rs
  simp [RecordSet.key]

theorem recordSet_ends (z : Route53Zone) (rtype : RecordType) (name : String) :
    Ends route53 (recordSet rtype name) z (z.row? ⟨fqdn name, rtype⟩) z := by
  rw [← find?_seek]
  exact (ends_perform rfl).bind ends_pure

/-- What a listing of the record returns. -/
def listed (z : Route53Zone) (record : String) : List String :=
  (valuesOf (z.row? (memberKey record))).insertionSort (· ≤ ·)

theorem toFinset_listed (z : Route53Zone) (record : String) :
    (listed z record).toFinset = members z record := by
  ext ip
  simp [listed, members]

theorem listMembers_ends (z : Route53Zone) (record : String) :
    Ends route53 (listMembers record) z (listed z record) z :=
  (recordSet_ends z .a record).bind ends_pure

theorem hasMarker_ends (z : Route53Zone) (record : String) :
    Ends route53 (hasMarker record) z (marked z record) z :=
  (recordSet_ends z .txt (markerName record)).bind ends_pure

/-! ## What the methods do -/

/-- Only the row of that key may differ. -/
def Keeps (key : RecordKey) (z z' : Route53Zone) : Prop := ∀ k, k ≠ key → z'.row? k = z.row? k

theorem keeps_put (z : Route53Zone) {rs : RecordSet} {key : RecordKey} (h : rs.key = key) :
    Keeps key z (z.put rs) := by
  intro k hk
  rw [Table.row?_put, h, if_neg (Ne.symm hk)]

theorem put_ends (z : Route53Zone) (rs : RecordSet) :
    Ends route53 (perform (S := route53Signature) (.changeResourceRecordSets .upsert rs)) z ()
      (z.put rs) :=
  ends_perform rfl

/-- Deleting the set that was read leaves none. -/
theorem deleteSet_ends (z : Route53Zone) (key : RecordKey) :
    ∃ z', Ends route53 (deleteSet (z.row? key)) z () z' ∧ Keeps key z z' ∧ z'.row? key = none := by
  cases hrow : z.row? key with
  | none => exact ⟨z, ends_pure, fun _ _ => rfl, hrow⟩
  | some rs =>
      obtain ⟨hrs, hkey⟩ := Table.row?_eq_some_iff.mp hrow
      have hdelete : route53 (.changeResourceRecordSets .delete rs) z = (.ok (), z.drop rs.key) :=
        if_pos hrs
      refine ⟨z.drop rs.key, ends_perform hdelete, fun k hk => ?_, ?_⟩
      · rw [Table.row?_drop, hkey, if_neg (Ne.symm hk)]
      · rw [Table.row?_drop, if_pos hkey]

/-- The whole set is written, its TTL with it. -/
theorem upsert_writes (z : Route53Zone) (record : String) (values : Finset String) (ttl : Int) :
    ∃ z', Ends route53 (upsert record values ttl) z () z' ∧ Keeps (memberKey record) z z' ∧
      z'.row? (memberKey record) =
        if values = ∅ then none else some ⟨fqdn record, .a, ttl, sorted values⟩ := by
  unfold upsert
  by_cases hvalues : values = ∅
  · rw [if_pos hvalues, if_pos hvalues]
    obtain ⟨z', hends, hkeeps, hrow⟩ := deleteSet_ends z (memberKey record)
    exact ⟨z', (recordSet_ends z .a record).bind hends, hkeeps, hrow⟩
  · rw [if_neg hvalues, if_neg hvalues]
    have hkey : RecordSet.key ⟨fqdn record, .a, ttl, sorted values⟩ = memberKey record := rfl
    exact ⟨_, put_ends z _, keeps_put z rfl, by rw [Table.row?_put, if_pos hkey]⟩

theorem upsert_ends (z : Route53Zone) (record : String) (values : Finset String) (ttl : Int) :
    ∃ z', Ends route53 (upsert record values ttl) z () z' ∧ Keeps (memberKey record) z z' ∧
      listed z' record = sorted values := by
  obtain ⟨z', hends, hkeeps, hrow⟩ := upsert_writes z record values ttl
  refine ⟨z', hends, hkeeps, ?_⟩
  rw [listed, hrow]
  by_cases hvalues : values = ∅
  · rw [if_pos hvalues, hvalues]
    rfl
  · rw [if_neg hvalues]
    exact insertionSort_sorted values

/-- The addresses are listed in order, each once. -/
def Lists (z : Route53Zone) (record : String) (ips : Finset String) : Prop :=
  listed z record = sorted ips

theorem addMember_ends (z : Route53Zone) (record ip : String) (ttl : Int) :
    ∃ z', Ends route53 (addMember record ip ttl) z () z' ∧ Keeps (memberKey record) z z' ∧
      members z' record = insert ip (members z record) ∧
      ∀ ips, Lists z record ips → Lists z' record (insert ip ips) := by
  by_cases hip : ip ∈ (listed z record).toFinset
  · refine ⟨z, (listMembers_ends z record).bind ?_, fun _ _ => rfl, ?_, fun ips h => ?_⟩
    · rw [if_pos hip]
      exact ends_pure
    · rw [toFinset_listed] at hip
      rw [Finset.insert_eq_of_mem hip]
    · rw [h, toFinset_sorted] at hip
      rw [Finset.insert_eq_of_mem hip]
      exact h
  · obtain ⟨z', hends, hkeeps, hlisted⟩ :=
      upsert_ends z record (insert ip (listed z record).toFinset) ttl
    refine ⟨z', (listMembers_ends z record).bind ?_, hkeeps, ?_, fun ips h => ?_⟩
    · rw [if_neg hip]
      exact hends
    · rw [← toFinset_listed, hlisted, toFinset_sorted, toFinset_listed]
    · rw [h, toFinset_sorted] at hlisted
      exact hlisted

theorem removeMember_ends (z : Route53Zone) (record ip : String) :
    ∃ z', Ends route53 (removeMember record ip) z () z' ∧ Keeps (memberKey record) z z' ∧
      members z' record = (members z record).erase ip ∧
      ∀ ips, Lists z record ips → Lists z' record (ips.erase ip) := by
  by_cases hip : ip ∈ (listed z record).toFinset
  · obtain ⟨z', hends, hkeeps, hlisted⟩ :=
      upsert_ends z record ((listed z record).toFinset.erase ip) 60
    refine ⟨z', (listMembers_ends z record).bind ?_, hkeeps, ?_, fun ips h => ?_⟩
    · rw [if_pos hip]
      exact hends
    · rw [← toFinset_listed, hlisted, toFinset_sorted, toFinset_listed]
    · rw [h, toFinset_sorted] at hlisted
      exact hlisted
  · refine ⟨z, (listMembers_ends z record).bind ?_, fun _ _ => rfl, ?_, fun ips h => ?_⟩
    · rw [if_neg hip]
      exact ends_pure
    · rw [toFinset_listed] at hip
      rw [Finset.erase_eq_of_notMem hip]
    · rw [h, toFinset_sorted] at hip
      rw [Finset.erase_eq_of_notMem hip]
      exact h

theorem ensureMarker_ends (z : Route53Zone) (record : String) :
    ∃ z', Ends route53 (ensureMarker record) z () z' ∧ Keeps (markerKey record) z z' ∧
      marked z' record = true := by
  cases hmarked : marked z record with
  | true =>
      refine ⟨z, (hasMarker_ends z record).bind ?_, fun _ _ => rfl, hmarked⟩
      rw [hmarked]
      exact ends_pure
  | false =>
      have hkey : RecordSet.key ⟨fqdn (markerName record), .txt, 300,
          ["\"" ++ markerContent ++ "\""]⟩ = markerKey record := rfl
      refine ⟨_, (hasMarker_ends z record).bind ?_, keeps_put z hkey, ?_⟩
      · rw [hmarked]
        exact put_ends z _
      · rw [marked, Table.row?_put, if_pos hkey]
        rfl

end

end Route53

/-! ## The driver as the loop sees it -/

/-- Without concurrency a method runs to its end before the next one. -/
def route53Driver [LinearOrder RecordKey] : DnsDriver where
  State := Route53Zone
  listMembers z record := (exec route53 (Route53.listMembers record) z).result.toOption.getD []
  addMember z record ip ttl := (exec route53 (Route53.addMember record ip ttl) z).final
  removeMember z record ip := (exec route53 (Route53.removeMember record ip) z).final
  hasMarker z record := (exec route53 (Route53.hasMarker record) z).result.toOption.getD false
  ensureMarker z record := (exec route53 (Route53.ensureMarker record) z).final

/-! ## An order of the sets -/

/-- Names from their last letter on, then the types. -/
def listingRank (key : RecordKey) : List Char ×ₗ Bool :=
  toLex (key.name.toList.reverse, decide (key.rtype = .txt))

theorem listingRank_injective : Function.Injective listingRank := by
  intro k k' h
  have hpair := congrArg ofLex h
  have hname : k.name = k'.name :=
    String.toList_injective (List.reverse_injective (congrArg Prod.fst hpair))
  have htypes : ∀ t t' : RecordType, decide (t = .txt) = decide (t' = .txt) → t = t' := by
    intro t t'
    cases t <;> cases t' <;> decide
  have htype := htypes _ _ (congrArg Prod.snd hpair)
  cases k
  cases k'
  exact congrArg₂ RecordKey.mk hname htype

/-- An order in which a provider may list its sets. -/
@[reducible] def listingOrder : LinearOrder RecordKey :=
  LinearOrder.lift' listingRank listingRank_injective

end Solfleet
