import Solfleet.Dns.Route53
import Solfleet.Library.Interleaving

/-! # Two processes on one record

An update of a record reads its set and later writes a whole set back. Two processes that
both write keep both updates only if one of them has written before the other reads.
-/

namespace Solfleet

open Interaction Program

/-! ## Updates of one record -/

inductive MemberChange where
  | add (ip : String) (ttl : Int)
  | remove (ip : String)
  deriving DecidableEq

namespace MemberChange

def ip : MemberChange → String
  | .add ip _ => ip
  | .remove ip => ip

def program (record : String) : MemberChange → Route53Program Unit
  | .add ip ttl => Route53.addMember record ip ttl
  | .remove ip => Route53.removeMember record ip

/-- The set the update is to make of a set. -/
def target (ips : Finset String) : MemberChange → Finset String
  | .add ip _ => insert ip ips
  | .remove ip => ips.erase ip

/-- A set reflects the update. -/
def Made (ips : Finset String) : MemberChange → Prop
  | .add ip _ => ip ∈ ips
  | .remove ip => ip ∉ ips

theorem made_target (c : MemberChange) (ips : Finset String) : c.Made (c.target ips) := by
  cases c with
  | add ip ttl => exact Finset.mem_insert_self ip ips
  | remove ip => exact Finset.notMem_erase ip ips

theorem target_eq_self_iff {c : MemberChange} {ips : Finset String} :
    c.target ips = ips ↔ c.Made ips := by
  cases c with
  | add ip ttl => exact Finset.insert_eq_self
  | remove ip => exact Finset.erase_eq_self

theorem mem_target_of_ne {c : MemberChange} {ips : Finset String} {ip : String} (h : ip ≠ c.ip) :
    ip ∈ c.target ips ↔ ip ∈ ips := by
  cases c with
  | add ip' ttl => simp only [target, Finset.mem_insert, or_iff_right_iff_imp]; exact (absurd · h)
  | remove ip' => simp only [target, Finset.mem_erase, and_iff_right_iff_imp]; exact fun _ => h

/-- Whether an update is reflected depends on its own address only. -/
theorem made_congr {c : MemberChange} {ips ips' : Finset String} (h : c.ip ∈ ips ↔ c.ip ∈ ips') :
    c.Made ips ↔ c.Made ips' := by
  cases c with
  | add ip ttl => exact h
  | remove ip => exact not_congr h

theorem eq_singleton_of_target_eq_empty {c : MemberChange} {ips : Finset String}
    (h : c.target ips = ∅) (hne : ips ≠ ∅) : ips = {c.ip} := by
  cases c with
  | add ip ttl => exact absurd h (Finset.insert_ne_empty ip ips)
  | remove ip =>
      rcases (Finset.erase_eq_empty_iff ips ip).mp h with hempty | hsingle
      · exact absurd hempty hne
      · exact hsingle

end MemberChange

/-! ## The calls of one update -/

namespace Route53

/-- The set of the record in what a listing answered. -/
def found (record : String) (sets : List RecordSet) : Option RecordSet :=
  sets.find? fun rs => decide (rs.name = fqdn record ∧ rs.rtype = .a)

def seen (record : String) (sets : List RecordSet) : Finset String :=
  (valuesOf (found record sets)).toFinset

def look (record : String) (sets : List RecordSet) : Route53Event :=
  ⟨.listResourceRecordSets (fqdn record) .a, .ok sets⟩

/-- The call makes the set of the record `ips`, if it is answered. -/
inductive Writes (record : String) : Route53Event → Finset String → Prop
  | put (ttl : Int) (ips : Finset String) :
      Writes record
        ⟨.changeResourceRecordSets .upsert ⟨fqdn record, .a, ttl, sorted ips⟩, .ok ()⟩ ips
  | drop {sets : List RecordSet} {rs : RecordSet} (h : found record sets = some rs) :
      Writes record ⟨.changeResourceRecordSets .delete rs, .ok ()⟩ ∅

/-- What an update that returns has called: it reads, and what it reads tells whether it
writes. -/
inductive ChangeCalls (record : String) (c : MemberChange) : List Route53Event → Prop
  | idle (sets : List RecordSet) (h : c.target (seen record sets) = seen record sets) :
      ChangeCalls record c [look record sets]
  | gone (sets sets' : List RecordSet) (h : c.target (seen record sets) = ∅)
      (hne : seen record sets ≠ ∅) (hgone : found record sets' = none) :
      ChangeCalls record c [look record sets, look record sets']
  | write (sets : List RecordSet) (looks : List Route53Event) (w : Route53Event)
      (hlooks : ∀ e ∈ looks, ∃ sets', e = look record sets')
      (h : c.target (seen record sets) ≠ seen record sets)
      (hw : Writes record w (c.target (seen record sets))) :
      ChangeCalls record c (look record sets :: looks ++ [w])

theorem Writes.changes {record : String} {w : Route53Event} {ips : Finset String}
    (h : Writes record w ips) : w.op.Changes := by
  cases h with
  | put => trivial
  | drop => trivial

theorem runs_recordSet {record : String} {trace : List Route53Event} {rs : Option RecordSet}
    (h : Runs (recordSet .a record) trace (.ok rs)) :
    ∃ sets, trace = [look record sets] ∧ rs = found record sets := by
  obtain ⟨first, rest, sets, hfirst, hrest, rfl⟩ := runs_bind_ok_iff.mp h
  obtain ⟨rfl, hrs⟩ := runs_pure_iff.mp hrest
  rw [runs_perform_iff.mp hfirst]
  exact ⟨sets, rfl, Except.ok.inj hrs⟩

theorem runs_listMembers {record : String} {trace : List Route53Event} {ips : List String}
    (h : Runs (listMembers record) trace (.ok ips)) :
    ∃ sets, trace = [look record sets] ∧ ips.toFinset = seen record sets := by
  obtain ⟨first, rest, rs, hfirst, hrest, rfl⟩ := runs_bind_ok_iff.mp h
  obtain ⟨rfl, hips⟩ := runs_pure_iff.mp hrest
  obtain ⟨sets, rfl, rfl⟩ := runs_recordSet hfirst
  refine ⟨sets, rfl, ?_⟩
  rw [Except.ok.inj hips]
  ext ip
  simp [seen]

/-- Writing a set back: one call, or a second look and at most one call. -/
theorem runs_upsert {record : String} {ips : Finset String} {ttl : Int}
    {trace : List Route53Event} (h : Runs (upsert record ips ttl) trace (.ok ())) :
    (ips = ∅ ∧ ∃ sets, trace = [look record sets] ∧ found record sets = none) ∨
      ∃ looks w, trace = looks ++ [w] ∧ (∀ e ∈ looks, ∃ sets, e = look record sets) ∧
        Writes record w ips := by
  unfold upsert at h
  by_cases hips : ips = ∅
  · rw [if_pos hips] at h
    obtain ⟨first, rest, rs, hfirst, hrest, rfl⟩ := runs_bind_ok_iff.mp h
    obtain ⟨sets, rfl, hfound⟩ := runs_recordSet hfirst
    cases rs with
    | none =>
        obtain ⟨rfl, -⟩ := runs_pure_iff.mp hrest
        exact .inl ⟨hips, sets, rfl, hfound.symm⟩
    | some rs =>
        rw [deleteSet, runs_perform_iff] at hrest
        refine .inr ⟨[look record sets], _, by rw [hrest], ?_, ?_⟩
        · exact List.forall_mem_singleton.mpr ⟨sets, rfl⟩
        · rw [hips]
          exact .drop hfound.symm
  · rw [if_neg hips, runs_perform_iff] at h
    exact .inr ⟨[], _, h, nofun, .put ttl ips⟩

theorem runs_change {record : String} {c : MemberChange} {trace : List Route53Event}
    (h : Runs (c.program record) trace (.ok ())) : ChangeCalls record c trace := by
  have hwrite : ∀ sets ttl rest, c.target (seen record sets) ≠ seen record sets →
      Runs (upsert record (c.target (seen record sets)) ttl) rest (.ok ()) →
      ChangeCalls record c ([look record sets] ++ rest) := by
    intro sets ttl rest hne hrest
    rcases runs_upsert hrest with ⟨hempty, sets', rfl, hgone⟩ | ⟨looks, w, rfl, hlooks, hw⟩
    · exact .gone sets sets' hempty (fun h => hne (hempty.trans h.symm)) hgone
    · exact .write sets looks w hlooks hne hw
  cases c with
  | add ip ttl =>
      obtain ⟨first, rest, ips, hfirst, hrest, rfl⟩ := runs_bind_ok_iff.mp h
      obtain ⟨sets, rfl, hseen⟩ := runs_listMembers hfirst
      rw [hseen] at hrest
      by_cases hip : ip ∈ seen record sets
      · rw [if_pos hip] at hrest
        obtain ⟨rfl, -⟩ := runs_pure_iff.mp hrest
        exact .idle sets (Finset.insert_eq_of_mem hip)
      · rw [if_neg hip] at hrest
        exact hwrite sets ttl rest (fun h => hip (Finset.insert_eq_self.mp h)) hrest
  | remove ip =>
      obtain ⟨first, rest, ips, hfirst, hrest, rfl⟩ := runs_bind_ok_iff.mp h
      obtain ⟨sets, rfl, hseen⟩ := runs_listMembers hfirst
      rw [hseen] at hrest
      by_cases hip : ip ∈ seen record sets
      · rw [if_pos hip] at hrest
        exact hwrite sets 60 rest (fun h => Finset.erase_eq_self.mp h hip) hrest
      · rw [if_neg hip] at hrest
        obtain ⟨rfl, -⟩ := runs_pure_iff.mp hrest
        exact .idle sets (Finset.erase_eq_of_notMem hip)

theorem not_changes_look (record : String) (sets : List RecordSet) :
    ¬ (look record sets).op.Changes := id

/-- An update writes once, at its end, what it is to make of the set it saw first. -/
theorem ChangeCalls.write_last {record : String} {c : MemberChange}
    {before after : List Route53Event} {w : Route53Event}
    (h : ChangeCalls record c (before ++ w :: after)) (hw : w.op.Changes) :
    after = [] ∧ ∃ sets looks, before = look record sets :: looks ∧
      (∀ e ∈ before, ¬ e.op.Changes) ∧ c.target (seen record sets) ≠ seen record sets ∧
      Writes record w (c.target (seen record sets)) := by
  have hmem : w ∈ before ++ w :: after := List.mem_append_right _ List.mem_cons_self
  generalize htrace : before ++ w :: after = trace at h hmem
  cases h with
  | idle sets h =>
      rw [List.mem_singleton.mp hmem] at hw
      exact absurd hw (not_changes_look record sets)
  | gone sets sets' h hne hgone =>
      rcases List.mem_pair.mp hmem with rfl | rfl
      · exact absurd hw (not_changes_look record sets)
      · exact absurd hw (not_changes_look record sets')
  | write sets looks w' hlooks h hw' =>
      have hquiet : ∀ e ∈ look record sets :: looks, ¬ e.op.Changes := by
        refine List.forall_mem_cons.mpr ⟨not_changes_look record sets, fun e he => ?_⟩
        obtain ⟨sets', rfl⟩ := hlooks e he
        exact not_changes_look record sets'
      rcases List.eq_nil_or_concat after with rfl | ⟨after', last, rfl⟩
      · obtain ⟨hbefore, hlast⟩ := List.append_inj' htrace rfl
        rw [hbefore, List.cons_eq_cons.mp hlast |>.1]
        exact ⟨rfl, sets, looks, rfl, hquiet, h, hw'⟩
      · -- a call that is not the last one is a look
        have hsplit : (before ++ w :: after') ++ [last] = (look record sets :: looks) ++ [w'] := by
          rw [← htrace, List.concat_eq_append, List.append_assoc, List.cons_append]
        have hfront := (List.append_inj' hsplit rfl).1
        have hwfront : w ∈ look record sets :: looks := by
          rw [← hfront]
          exact List.mem_append_right _ List.mem_cons_self
        exact absurd hw (hquiet w hwfront)

end Route53

/-! ## Two of them -/

section Interleaved

open Route53

/-- Calls that only read. -/
def ReadOnly (calls : List (Bool × Route53Event)) : Prop := ∀ c ∈ calls, ¬ c.2.op.Changes

/-- Up to the first write nothing changes. -/
theorem readOnly_or_first_write (calls : List (Bool × Route53Event)) :
    ReadOnly calls ∨ ∃ xs i w ys, calls = xs ++ (i, w) :: ys ∧ ReadOnly xs ∧ w.op.Changes := by
  induction calls with
  | nil => exact .inl nofun
  | cons c calls ih =>
      by_cases hc : c.2.op.Changes
      · exact .inr ⟨[], c.1, c.2, calls, rfl, nofun, hc⟩
      · rcases ih with hquiet | ⟨xs, i, w, ys, rfl, hquiet, hw⟩
        · exact .inl (List.forall_mem_cons.mpr ⟨hc, hquiet⟩)
        · exact .inr ⟨c :: xs, i, w, ys, rfl, List.forall_mem_cons.mpr ⟨hc, hquiet⟩, hw⟩

/-- A look of `i` comes before a write of `j`. -/
def LooksBefore (calls : List (Bool × Route53Event)) (i j : Bool) : Prop :=
  ∃ before e after, calls = before ++ (i, e) :: after ∧ ¬ e.op.Changes ∧
    ∃ w, (j, w) ∈ after ∧ w.op.Changes

/-- Both updates are made, and every other address is as it was. -/
def Reflects (c : Bool → MemberChange) (before after : Finset String) : Prop :=
  (∀ i, (c i).Made after) ∧ ∀ ip, (∀ i, ip ≠ (c i).ip) → (ip ∈ after ↔ ip ∈ before)

variable {c : Bool → MemberChange}

section FirstWrite

variable {xs ys : List (Bool × Route53Event)} {i : Bool} {w : Route53Event}

/-- The writer has looked, so the other writes after a look of it if it writes at all. -/
theorem looksBefore_iff_of_looked (hxs : ReadOnly xs) {e : Route53Event} (he : (i, e) ∈ xs) :
    LooksBefore (xs ++ (i, w) :: ys) i (!i) ↔ ∃ w', (!i, w') ∈ ys ∧ w'.op.Changes := by
  constructor
  · rintro ⟨before, e', after, hcalls, -, w', hw', hchanges⟩
    have hmem : (!i, w') ∈ xs ++ (i, w) :: ys := by
      rw [hcalls]
      exact List.mem_append_right _ (List.mem_cons_of_mem _ hw')
    rcases List.mem_append.mp hmem with hmem | hmem
    · exact absurd hchanges (hxs _ hmem)
    · rcases List.mem_cons.mp hmem with heq | hmem
      · exact absurd (congrArg Prod.fst heq) (Bool.not_ne_self i)
      · exact ⟨w', hmem, hchanges⟩
  · rintro ⟨w', hw', hchanges⟩
    obtain ⟨before, after, rfl⟩ := List.append_of_mem he
    refine ⟨before, e, after ++ (i, w) :: ys, by rw [List.append_assoc, List.cons_append],
      hxs _ he, w', ?_, hchanges⟩
    exact List.mem_append_right _ (List.mem_cons_of_mem _ hw')

/-- After the write only the other goes on, so its look comes first exactly if it is among the
calls before. -/
theorem looksBefore_iff_of_lone (hxs : ReadOnly xs) (hw : w.op.Changes)
    (hlone : ∀ x ∈ ys, x.1 = !i) :
    LooksBefore (xs ++ (i, w) :: ys) (!i) i ↔ callsOf (!i) xs ≠ [] := by
  constructor
  · rintro ⟨before, e, after, hcalls, -, w', hw', -⟩ hnone
    have hout : (!i, e) ∉ xs := by
      intro hmem
      have hcall := mem_callsOf.mpr hmem
      rw [hnone] at hcall
      exact nomatch hcall
    rcases List.append_eq_append_iff.mp hcalls with ⟨mid, -, hmid⟩ | ⟨mid, hmid, hrest⟩
    · cases mid with
      | nil => exact Bool.not_ne_self i (congrArg Prod.fst (List.cons_eq_cons.mp hmid).1).symm
      | cons x mid =>
          have hin : (i, w') ∈ ys := by
            rw [(List.cons_eq_cons.mp hmid).2]
            exact List.mem_append_right _ (List.mem_cons_of_mem _ hw')
          exact Bool.not_ne_self i (hlone _ hin).symm
    · cases mid with
      | nil => exact Bool.not_ne_self i (congrArg Prod.fst (List.cons_eq_cons.mp hrest).1)
      | cons x mid =>
          have hx : (!i, e) = x := (List.cons_eq_cons.mp hrest).1
          refine hout ?_
          rw [hmid, hx]
          exact List.mem_append_right _ List.mem_cons_self
  · intro hlooked
    obtain ⟨e, es, hes⟩ := List.exists_cons_of_ne_nil hlooked
    have he : (!i, e) ∈ xs := by
      refine mem_callsOf.mp ?_
      rw [hes]
      exact List.mem_cons_self
    obtain ⟨before, after, rfl⟩ := List.append_of_mem he
    refine ⟨before, e, after ++ (i, w) :: ys, by rw [List.append_assoc, List.cons_append],
      hxs _ he, w, ?_, hw⟩
    exact List.mem_append_right _ List.mem_cons_self

end FirstWrite

theorem forall_bool_iff_not {P : Bool → Prop} (i : Bool) : (∀ k, P k) ↔ P i ∧ P (!i) := by
  cases i with
  | false => exact Bool.forall_bool
  | true => exact Bool.forall_bool.trans and_comm

theorem made_of_other (hne : ∀ i, (c (!i)).ip ≠ (c i).ip) (i : Bool) {ips : Finset String} :
    (c (!i)).Made ((c i).target ips) ↔ (c (!i)).Made ips :=
  MemberChange.made_congr (MemberChange.mem_target_of_ne (hne i))

theorem reflects_of_made (hne : ∀ i, (c (!i)).ip ≠ (c i).ip) (i : Bool) {ips : Finset String}
    (h : (c (!i)).Made ips) : Reflects c ips ((c i).target ips) := by
  refine ⟨fun j => ?_, fun ip hip => MemberChange.mem_target_of_ne (hip i)⟩
  by_cases hj : j = i
  · rw [hj]
    exact (c i).made_target ips
  · rw [Bool.eq_not_of_ne hj]
    exact (made_of_other hne i).mpr h

/-- One after the other, both are kept. -/
theorem reflects_of_sequence (hne : ∀ i, (c (!i)).ip ≠ (c i).ip) (i : Bool) {ips : Finset String} :
    Reflects c ips ((c (!i)).target ((c i).target ips)) := by
  refine ⟨fun j => ?_, fun ip hip => ?_⟩
  · by_cases hj : j = i
    · have hi : (c i).ip ≠ (c (!i)).ip := (hne i).symm
      rw [hj]
      exact (MemberChange.made_congr (MemberChange.mem_target_of_ne hi)).mpr ((c i).made_target ips)
    · rw [Bool.eq_not_of_ne hj]
      exact (c (!i)).made_target _
  · rw [MemberChange.mem_target_of_ne (hip (!i)), MemberChange.mem_target_of_ne (hip i)]

variable [LinearOrder RecordKey] {record : String} {z z' : Route53Zone}
  {calls : List (Bool × Route53Event)}

theorem route53_still {op : Route53Call} (h : ¬ op.Changes) (z : Route53Zone) :
    (route53 op z).2 = z := by
  cases op with
  | listResourceRecordSets startName startType => rfl
  | changeResourceRecordSets action rs => exact absurd trivial h

theorem ReadOnly.still (hquiet : ReadOnly calls) (h : Answered route53 z calls z') : z' = z :=
  h.still fun c hc => route53_still (hquiet c hc) z

/-- A look in a zone sees the set of the record there. -/
theorem look_answer {sets : List RecordSet}
    (h : (look record sets).answer = (route53 (look record sets).op z).1) :
    found record sets = z.row? (memberKey record) := by
  have hsets : sets = (z.seek ⟨fqdn record, .a⟩).toList := Except.ok.inj h
  rw [found, hsets]
  exact find?_seek z (fqdn record) .a

theorem ReadOnly.found_eq (hquiet : ReadOnly calls) (h : Answered route53 z calls z') {i : Bool}
    {sets : List RecordSet} (hmem : (i, look record sets) ∈ calls) :
    found record sets = z.row? (memberKey record) := by
  obtain ⟨before, after, rfl⟩ := List.append_of_mem hmem
  obtain ⟨mid, hbefore, hlook, -⟩ := answered_append_iff.mp h
  have hmid : mid = z := ReadOnly.still (fun c hc => hquiet c (List.mem_append_left _ hc)) hbefore
  rw [← hmid]
  exact look_answer hlook

theorem ReadOnly.seen_eq (hquiet : ReadOnly calls) (h : Answered route53 z calls z') {i : Bool}
    {sets : List RecordSet} (hmem : (i, look record sets) ∈ calls) :
    seen record sets = members z record := by
  rw [seen, hquiet.found_eq h hmem, members]

theorem Route53.Writes.members_eq {w : Route53Event} {ips : Finset String}
    (hw : Writes record w ips) (h : w.answer = (route53 w.op z).1) :
    members (route53 w.op z).2 record = ips := by
  cases hw with
  | put ttl ips =>
      have hkey : RecordSet.key ⟨fqdn record, .a, ttl, sorted ips⟩ = memberKey record := rfl
      show members (z.put ⟨fqdn record, .a, ttl, sorted ips⟩) record = ips
      rw [members, Table.row?_put, if_pos hkey]
      exact toFinset_sorted ips
  | @drop sets rs hfound =>
      have hkey : rs.key = memberKey record := by
        have hname := List.find?_some hfound
        obtain ⟨hname, htype⟩ := of_decide_eq_true hname
        rw [RecordSet.key, hname, htype, memberKey]
      by_cases hrs : rs ∈ z.rows
      · have hstep : route53 (.changeResourceRecordSets .delete rs) z = (.ok (), z.drop rs.key) :=
          if_pos hrs
        show members (route53 (.changeResourceRecordSets .delete rs) z).2 record = ∅
        rw [hstep, members, Table.row?_drop, if_pos hkey]
        rfl
      · have hstep : route53 (.changeResourceRecordSets .delete rs) z =
            (.error invalidChangeBatch, z) := if_neg hrs
        have hanswer : (Except.ok () : Except Exn Unit) =
            (route53 (.changeResourceRecordSets .delete rs) z).1 := h
        rw [hstep] at hanswer
        cases hanswer

/-- Alone, an update makes of the set what it is to make of it. -/
theorem MemberChange.members_of_exec {c : MemberChange} {trace : List Route53Event}
    (h : exec route53 (c.program record) z = ⟨z', trace, .ok ()⟩) :
    members z' record = c.target (members z record) := by
  cases c with
  | add ip ttl =>
      obtain ⟨z'', hends, -, hmembers, -⟩ := addMember_ends z record ip ttl
      have hfinal : z' = z'' := (congrArg Execution.final h).symm.trans hends.final
      rw [hfinal]
      exact hmembers
  | remove ip =>
      obtain ⟨z'', hends, -, hmembers, -⟩ := removeMember_ends z record ip
      have hfinal : z' = z'' := (congrArg Execution.final h).symm.trans hends.final
      rw [hfinal]
      exact hmembers

/-- An update that never writes has found itself made. The other one may write meanwhile,
but not its address. -/
theorem made_of_readOnly {m : MemberChange} {i : Bool} {xs ys : List (Bool × Route53Event)}
    {z₁ mid : Route53Zone} (hxs : ReadOnly xs) (hys : ReadOnly ys)
    (hbefore : Answered route53 z xs mid)
    (hafter : Answered route53 z₁ ys z')
    (hkept : m.ip ∈ members z₁ record ↔ m.ip ∈ members z record)
    (hcalls : ChangeCalls record m (callsOf i xs ++ callsOf i ys)) :
    m.Made (members z record) := by
  have hseen : ∀ sets, look record sets ∈ callsOf i xs ++ callsOf i ys →
      seen record sets = members z record ∨ seen record sets = members z₁ record := by
    intro sets hsets
    rcases List.mem_append.mp hsets with hsets | hsets
    · exact .inl (hxs.seen_eq hbefore (mem_callsOf.mp hsets))
    · exact .inr (hys.seen_eq hafter (mem_callsOf.mp hsets))
  have hip : ∀ sets, look record sets ∈ callsOf i xs ++ callsOf i ys →
      (m.ip ∈ seen record sets ↔ m.ip ∈ members z record) := by
    intro sets hsets
    rcases hseen sets hsets with h | h
    · rw [h]
    · rw [h, hkept]
  have hquiet : ∀ e ∈ callsOf i xs ++ callsOf i ys, ¬ e.op.Changes := by
    intro e he
    rcases List.mem_append.mp he with he | he
    · exact hxs _ (mem_callsOf.mp he)
    · exact hys _ (mem_callsOf.mp he)
  generalize callsOf i xs ++ callsOf i ys = trace at hcalls hip hquiet
  cases hcalls with
  | idle sets h =>
      have hmade := MemberChange.target_eq_self_iff.mp h
      exact (MemberChange.made_congr (hip sets List.mem_cons_self)).mp hmade
  | gone sets sets' h hne hgone =>
      have hfirst : m.ip ∈ seen record sets := by
        rw [MemberChange.eq_singleton_of_target_eq_empty h hne]
        exact Finset.mem_singleton_self _
      have hlater : m.ip ∈ seen record sets' :=
        (hip sets' (List.mem_cons_of_mem _ List.mem_cons_self)).mpr
          ((hip sets List.mem_cons_self).mp hfirst)
      rw [seen, hgone] at hlater
      exact absurd hlater (Finset.notMem_empty _)
  | write sets looks w hlooks h hw =>
      exact absurd hw.changes (hquiet w (List.mem_append_right _ List.mem_cons_self))

/-- Where the other process has looked before the write and writes itself, its write is the
last and leaves what it is to make of the set as it was. -/
theorem members_of_overlap {j : Bool} {m : MemberChange} {xs ys : List (Bool × Route53Event)}
    {mid z₁ : Route53Zone} (hxs : ReadOnly xs) (hbefore : Answered route53 z xs mid)
    (hafter : Answered route53 z₁ ys z') (hlone : ∀ x ∈ ys, x.1 = j) (hlooked : callsOf j xs ≠ [])
    (hcalls : ChangeCalls record m (callsOf j xs ++ callsOf j ys)) {w : Route53Event}
    (hw : (j, w) ∈ ys) (hchanges : w.op.Changes) :
    members z' record = m.target (members z record) := by
  obtain ⟨us, vs, rfl⟩ := List.append_of_mem hw
  obtain ⟨e, es, hes⟩ := List.exists_cons_of_ne_nil hlooked
  have hsplit : callsOf j xs ++ callsOf j (us ++ (j, w) :: vs) =
      (callsOf j xs ++ callsOf j us) ++ w :: callsOf j vs := by
    rw [callsOf_append, callsOf_cons_self, List.append_assoc]
  rw [hsplit] at hcalls
  obtain ⟨hlast, sets, looks, hlooks, hquiet, -, hwrites⟩ := hcalls.write_last hchanges
  -- the first look is among the calls before the other's write
  have hlook : look record sets ∈ callsOf j xs := by
    rw [hes, List.cons_append] at hlooks
    rw [hes, ← (List.cons_eq_cons.mp hlooks).1]
    exact List.mem_cons_self
  have hseen := hxs.seen_eq hbefore (mem_callsOf.mp hlook)
  obtain ⟨mid', hus, hanswer, hvs⟩ := answered_append_iff.mp hafter
  have hmine : ∀ x ∈ vs, x.1 = j := fun x hx =>
    hlone x (List.mem_append_right _ (List.mem_cons_of_mem _ hx))
  have hnone : vs = [] := by
    cases vs with
    | nil => rfl
    | cons x vs =>
        obtain ⟨i, event⟩ := x
        have hi : i = j := hmine _ List.mem_cons_self
        rw [hi, callsOf_cons_self] at hlast
        exact nomatch hlast
  subst hnone
  rw [← hvs, hwrites.members_eq hanswer, hseen]

/-- Where nothing was written both updates found themselves made. -/
theorem reflects_of_readOnly {c : Bool → MemberChange}
    (h : Interleaving route53 (fun i => (c i).program record) z calls z' fun _ => .ok ())
    (hquiet : ReadOnly calls) : Reflects c (members z record) (members z' record) := by
  rw [hquiet.still h.answered]
  refine ⟨fun i => ?_, fun _ _ => Iff.rfl⟩
  have hcalls : ChangeCalls record (c i) (callsOf i calls ++ callsOf i []) := by
    rw [callsOf_nil, List.append_nil]
    exact runs_change (h.runs i)
  have hnone : ReadOnly [] := nofun
  exact made_of_readOnly hquiet hnone h.answered rfl Iff.rfl hcalls

/-- Two updates of one record for different addresses, each of them answered throughout, both
last unless each has looked before the other wrote. -/
theorem no_lost_update_iff {c : Bool → MemberChange} (hips : (c true).ip ≠ (c false).ip)
    (h : Interleaving route53 (fun i => (c i).program record) z calls z' fun _ => .ok ()) :
    Reflects c (members z record) (members z' record) ↔
      ¬ ∀ i, LooksBefore calls i (!i) := by
  have hne : ∀ i, (c (!i)).ip ≠ (c i).ip := by
    intro i
    cases i with
    | false => exact hips
    | true => exact hips.symm
  have hcalls : ∀ i, ChangeCalls record (c i) (callsOf i calls) := fun i => runs_change (h.runs i)
  rcases readOnly_or_first_write calls with hquiet | ⟨xs, i, w, ys, rfl, hxs, hw⟩
  · refine iff_of_true (reflects_of_readOnly h hquiet) fun hall => ?_
    obtain ⟨before, e, after, rfl, -, w, hw, hchanges⟩ := hall true
    exact hquiet _ (List.mem_append_right _ (List.mem_cons_of_mem _ hw)) hchanges
  · obtain ⟨mid, hbefore, hanswer, hafter⟩ := answered_append_iff.mp h.answered
    have hmid : mid = z := hxs.still hbefore
    subst hmid
    have hmine := hcalls i
    rw [callsOf_append, callsOf_cons_self] at hmine
    obtain ⟨hlast, sets, looks, hlooks, -, hactive, hwrites⟩ := hmine.write_last hw
    have hlook : (i, look record sets) ∈ xs := by
      refine mem_callsOf.mp ?_
      rw [hlooks]
      exact List.mem_cons_self
    have hseen := hxs.seen_eq hbefore hlook
    have hwritten := hwrites.members_eq hanswer
    rw [hseen] at hactive hwritten
    have hlone : ∀ x ∈ ys, x.1 = !i := by
      intro x hx
      refine Bool.eq_not_of_ne fun hi => ?_
      have hcall : x.2 ∈ callsOf i ys := by
        rw [mem_callsOf, ← hi]
        exact hx
      rw [hlast] at hcall
      exact nomatch hcall
    have hother := hcalls (!i)
    have hruns := h.runs (!i)
    rw [callsOf_append, callsOf_cons_of_ne (c := (i, w)) (Bool.not_ne_self i).symm] at hother hruns
    rw [forall_bool_iff_not i, Bool.not_not, looksBefore_iff_of_looked hxs hlook,
      looksBefore_iff_of_lone hxs hw hlone]
    by_cases hlooked : callsOf (!i) xs = []
    · -- the other starts after the write
      rw [hlooked, List.nil_append] at hruns
      have hsolo := hafter.exec hruns fun x hx hxi => absurd (hlone x hx) hxi
      rw [MemberChange.members_of_exec hsolo, hwritten]
      exact iff_of_true (reflects_of_sequence hne i) fun hall => hall.2 hlooked
    · by_cases hwrites' : ∃ w', (!i, w') ∈ ys ∧ w'.op.Changes
      · -- both have read the set as it was: the second write forgets the first
        obtain ⟨w', hw', hchanges⟩ := hwrites'
        rw [members_of_overlap hxs hbefore hafter hlone hlooked hother hw' hchanges]
        refine iff_of_false (fun hreflects => ?_) fun hnot => hnot ⟨⟨w', hw', hchanges⟩, hlooked⟩
        have hmade := hreflects.1 i
        rw [MemberChange.made_congr (MemberChange.mem_target_of_ne (hne i).symm)] at hmade
        exact hactive (MemberChange.target_eq_self_iff.mpr hmade)
      · have hys : ReadOnly ys := by
          rintro ⟨k, e⟩ hk hchanges
          have hki : k = !i := hlone _ hk
          exact hwrites' ⟨e, hki ▸ hk, hchanges⟩
        have hkept : (c (!i)).ip ∈ members (route53 w.op mid).2 record ↔
            (c (!i)).ip ∈ members mid record := by
          rw [hwritten]
          exact MemberChange.mem_target_of_ne (hne i)
        have hmade := made_of_readOnly hxs hys hbefore hafter hkept hother
        rw [hys.still hafter, hwritten]
        exact iff_of_true (reflects_of_made hne i hmade) fun hall => hwrites' hall.1

end Interleaved

/-! ## A lost address -/

section Duel

attribute [local instance] listingOrder

def duelRecord : String := "rpc.example.com"

def duelZone : Route53Zone :=
  Table.empty.put ⟨"rpc.example.com.", .a, 60, ["10.0.0.1"]⟩

def duel : Bool → MemberChange
  | true => .add "10.0.0.2" 60
  | false => .add "10.0.0.3" 60

/-- Both look, then both write. -/
def duelRun : Scheduled route53Signature Exn Unit Route53Zone Bool :=
  schedule route53 [true, false, true, false] (fun i => (duel i).program duelRecord) duelZone

theorem duelRun_interleaving :
    Interleaving route53 (fun i => (duel i).program duelRecord) duelZone duelRun.calls
      duelRun.state fun _ => .ok () := by
  have hdone : ∀ i, (duelRun.programs i).result? = some (.ok ()) := by decide +kernel
  exact schedule_interleaving fun i => result?_eq_some_iff.mp (hdone i)

theorem duelRun_members : Route53.members duelRun.state duelRecord = {"10.0.0.1", "10.0.0.3"} := by
  decide +kernel

/-- The address added first is gone. -/
theorem update_lost :
    ¬ ∀ (record : String) (c : Bool → MemberChange) (z z' : Route53Zone)
      (calls : List (Bool × Route53Event)), (c true).ip ≠ (c false).ip →
      Interleaving route53 (fun i => (c i).program record) z calls z' (fun _ => .ok ()) →
      Reflects c (Route53.members z record) (Route53.members z' record) := by
  intro h
  have hkept := (h duelRecord duel duelZone _ _ (by decide) duelRun_interleaving).1 true
  rw [duelRun_members] at hkept
  have hlost : "10.0.0.2" ∉ ({"10.0.0.1", "10.0.0.3"} : Finset String) := by decide
  exact hlost hkept

theorem no_lost_update_iff_duel :
    Reflects duel (Route53.members duelZone duelRecord) (Route53.members duelRun.state duelRecord) ↔
      ¬ ∀ i, LooksBefore duelRun.calls i (!i) :=
  no_lost_update_iff (by decide) duelRun_interleaving

end Duel

end Solfleet
