import Solfleet.Probe.Isolation
import Solfleet.Voting

/-! # Two readers of the vote accounts

The probe keeps a dictionary over all accounts and looks the identity up; the view scans for
the identity and keeps the last account. One turn of both loops keeps the slot of the
identity and the account found in step, and so do the loops.
-/

namespace Solfleet

namespace Voting

open Probe

/-! ## Accounts of an identity -/

def Names (identity : String) (acct : Json) : Prop :=
  getOr "nodePubkey" .null acct = .ok (.str identity)

/-- The accounts of a group of the answer. -/
def groupOf (key : String) (accounts : Json) : List Json :=
  match getOr key (.arr []) accounts with
  | .ok group => group.items?.getD []
  | .error _ => []

def NamedIn (identity key : String) (accounts : Json) : Prop :=
  ∃ acct ∈ groupOf key accounts, Names identity acct

/-- What a probe stores of an account. -/
def accountVote (delinquent : Bool) (acct : Json) : Except Exn Vote := do
  let stake ← getOr "activatedStake" (.int 0) acct
  let sol ← stakeSol stake
  let credits ← credits acct
  let lastVote ← getOr "lastVote" .null acct
  pure { delinquent, stakeSol := sol, credits, lastVote }

theorem isText_iff {text : String} {value : Json} :
    isText text value = true ↔ value = .str text := by
  cases value with
  | str s => simp [isText]
  | _ => simp [isText]

theorem accountVote_obj (delinquent : Bool) (members : List (String × Json)) :
    accountVote delinquent (.obj members) =
      stakeSol ((Json.find? members "activatedStake").getD (.int 0)) >>= fun sol =>
      lastCredits ((Json.find? members "epochCredits").getD .null) >>= fun credits =>
      .ok ⟨delinquent, sol, credits, (Json.find? members "lastVote").getD .null⟩ := rfl

theorem readAccount_obj (delinquent : Bool) (votes : Dict String Vote)
    (members : List (String × Json)) :
    readAccount delinquent votes (.obj members) =
      accountVote delinquent (.obj members) >>=
        fun vote => storeVote votes vote (.obj members) := by
  rw [accountVote_obj]
  simp only [bind_assoc, except_ok_bind]
  rfl

/-- Storing under a key changes what is looked up under that key, if it is text. -/
theorem get?_storeVote {votes votes' : Dict String Vote} {vote : Vote}
    {members : List (String × Json)} (h : storeVote votes vote (.obj members) = .ok votes')
    (identity : String) :
    ∃ key, Json.find? members "nodePubkey" = some key ∧
      votes'.get? identity = if isText identity key then some vote else votes.get? identity := by
  simp only [storeVote] at h
  cases hkey : Json.find? members "nodePubkey" with
  | none =>
      rw [hkey] at h
      cases h
  | some key =>
      rw [hkey] at h
      refine ⟨key, rfl, ?_⟩
      cases key with
      | str s =>
          cases h
          rw [Dict.get?_insert]
          by_cases hs : identity = s
          · rw [if_pos hs, if_pos (isText_iff.mpr (congrArg Json.str hs.symm))]
          · rw [if_neg hs, if_neg fun ht => hs (Json.str.inj (isText_iff.mp ht)).symm]
      | arr items => cases h
      | obj members => cases h
      | _ =>
          cases h
          rfl

/-! ## One turn of both loops -/

def InStep : Option (Json × Bool) → Option Vote → Prop
  | none, slot => slot = none
  | some (acct, delinquent), slot =>
      ∃ vote, slot = some vote ∧ accountVote delinquent acct = .ok vote

section InStep

variable {identity : String} {delinquent : Bool} {votes votes' : Dict String Vote}
  {found : Option (Json × Bool)}

theorem readAccount_inStep {acct : Json} (h : readAccount delinquent votes acct = .ok votes')
    (hstep : InStep found (votes.get? identity)) :
    ∃ found', scanAccount identity delinquent found acct = .ok found' ∧
      InStep found' (votes'.get? identity) := by
  cases acct with
  | obj members =>
      rw [readAccount_obj] at h
      obtain ⟨vote, hvote, hstore⟩ := except_bind_eq_ok_iff.mp h
      obtain ⟨key, hkey, hget⟩ := get?_storeVote hstore identity
      refine ⟨_, rfl, ?_⟩
      rw [hkey, Option.getD_some, hget]
      by_cases htext : isText identity key = true
      · rw [if_pos htext, if_pos htext]
        exact ⟨vote, rfl, hvote⟩
      · rw [if_neg htext, if_neg htext]
        exact hstep
  | _ => cases h

theorem readAccounts_inStep {accts : List Json}
    (h : readAccounts delinquent votes accts = .ok votes')
    (hstep : InStep found (votes.get? identity)) :
    ∃ found', scanAccounts identity delinquent found accts = .ok found' ∧
      InStep found' (votes'.get? identity) := by
  induction accts generalizing votes found with
  | nil =>
      cases h
      exact ⟨found, rfl, hstep⟩
  | cons acct accts ih =>
      obtain ⟨mid, hmid, hrest⟩ := except_bind_eq_ok_iff.mp h
      obtain ⟨next, hnext, hstep'⟩ := readAccount_inStep hmid hstep
      obtain ⟨found', hfound, hend⟩ := ih hrest hstep'
      exact ⟨found', except_bind_eq_ok_iff.mpr ⟨next, hnext, hfound⟩, hend⟩

theorem readGroup_inStep {group : Json} (h : readGroup delinquent votes group = .ok votes')
    (hstep : InStep found (votes.get? identity)) :
    ∃ found', scanGroup identity delinquent found group = .ok found' ∧
      InStep found' (votes'.get? identity) := by
  unfold readGroup at h
  unfold scanGroup
  cases hitems : group.items? with
  | none =>
      rw [hitems] at h
      cases h
  | some items =>
      rw [hitems] at h
      exact readAccounts_inStep h hstep

/-- Whatever the probe can read, the scan finds the account whose vote was kept. -/
theorem readVoteAccounts_inStep {accounts : Json} (h : readVoteAccounts accounts = .ok votes)
    (identity : String) :
    ∃ found, findEntry identity accounts = .ok found ∧ InStep found (votes.get? identity) := by
  obtain ⟨current, hcurrent, h⟩ := except_bind_eq_ok_iff.mp h
  obtain ⟨behind, hbehind, h⟩ := except_bind_eq_ok_iff.mp h
  obtain ⟨mid, hmid, hlast⟩ := except_bind_eq_ok_iff.mp h
  have hstart : InStep none ((Dict.empty : Dict String Vote).get? identity) := rfl
  obtain ⟨next, hnext, hstep⟩ := readGroup_inStep hmid hstart
  obtain ⟨found, hfound, hend⟩ := readGroup_inStep hlast hstep
  refine ⟨found, ?_, hend⟩
  exact except_bind_eq_ok_iff.mpr ⟨current, hcurrent,
    except_bind_eq_ok_iff.mpr ⟨behind, hbehind, except_bind_eq_ok_iff.mpr ⟨next, hnext, hfound⟩⟩⟩

end InStep

/-! ## Which account is found -/

section Found

variable {identity : String} {delinquent : Bool} {found found' : Option (Json × Bool)}

theorem scanAccount_cases {acct : Json}
    (h : scanAccount identity delinquent found acct = .ok found') :
    (Names identity acct ∧ found' = some (acct, delinquent)) ∨
      (¬ Names identity acct ∧ found' = found) := by
  obtain ⟨key, hkey, hpure⟩ := except_bind_eq_ok_iff.mp h
  have hnames : Names identity acct ↔ isText identity key = true := by
    rw [Names, hkey, Except.ok.injEq, isText_iff]
  cases hpure
  by_cases htext : isText identity key = true
  · exact .inl ⟨hnames.mpr htext, if_pos htext⟩
  · exact .inr ⟨fun hn => htext (hnames.mp hn), if_neg htext⟩

/-- A scan ends with an account of the identity, if there is one, and as it started
otherwise. -/
theorem scanAccounts_cases {accts : List Json}
    (h : scanAccounts identity delinquent found accts = .ok found') :
    (∃ acct ∈ accts, Names identity acct ∧ found' = some (acct, delinquent)) ∨
      ((∀ acct ∈ accts, ¬ Names identity acct) ∧ found' = found) := by
  induction accts generalizing found with
  | nil =>
      cases h
      exact .inr ⟨fun _ hmem => absurd hmem List.not_mem_nil, rfl⟩
  | cons acct accts ih =>
      obtain ⟨next, hnext, hrest⟩ := except_bind_eq_ok_iff.mp h
      rcases ih hrest with ⟨last, hmem, hlast, hfound⟩ | ⟨hnone, hfound⟩
      · exact .inl ⟨last, List.mem_cons_of_mem _ hmem, hlast, hfound⟩
      · rcases scanAccount_cases hnext with ⟨hnames, hnext⟩ | ⟨hnames, hnext⟩
        · exact .inl ⟨acct, List.mem_cons_self, hnames, hfound.trans hnext⟩
        · exact .inr ⟨List.forall_mem_cons.mpr ⟨hnames, hnone⟩, hfound.trans hnext⟩

theorem scanGroup_cases {key : String} {accounts group : Json}
    (hgroup : getOr key (.arr []) accounts = .ok group)
    (h : scanGroup identity delinquent found group = .ok found') :
    (∃ acct ∈ groupOf key accounts, Names identity acct ∧ found' = some (acct, delinquent)) ∨
      (¬ NamedIn identity key accounts ∧ found' = found) := by
  unfold scanGroup at h
  cases hitems : group.items? with
  | none =>
      rw [hitems] at h
      cases h
  | some items =>
      rw [hitems] at h
      have hof : groupOf key accounts = items := by
        simp only [groupOf, hgroup, hitems, Option.getD_some]
      unfold NamedIn
      rw [hof]
      rcases scanAccounts_cases h with hsome | ⟨hnone, hfound⟩
      · exact .inl hsome
      · exact .inr ⟨fun ⟨acct, hmem, hnames⟩ => hnone acct hmem hnames, hfound⟩

/-- An account of the delinquent group hides those of the current one. -/
theorem findEntry_cases {accounts : Json} (h : findEntry identity accounts = .ok found) :
    (∃ acct ∈ groupOf "delinquent" accounts,
        Names identity acct ∧ found = some (acct, true)) ∨
      (¬ NamedIn identity "delinquent" accounts ∧
        ((∃ acct ∈ groupOf "current" accounts,
            Names identity acct ∧ found = some (acct, false)) ∨
          (¬ NamedIn identity "current" accounts ∧ found = none))) := by
  obtain ⟨current, hcurrent, h⟩ := except_bind_eq_ok_iff.mp h
  obtain ⟨behind, hbehind, h⟩ := except_bind_eq_ok_iff.mp h
  obtain ⟨mid, hmid, hlast⟩ := except_bind_eq_ok_iff.mp h
  rcases scanGroup_cases hbehind hlast with hsome | ⟨hnone, hfound⟩
  · exact .inl hsome
  · rw [hfound]
    exact .inr ⟨hnone, scanGroup_cases hcurrent hmid⟩

end Found

/-! ## What is reported of an identity -/

/-- Delinquent only without a current account, and whatever has a current account is
reported from one. -/
structure Attributed (accounts : Json) (identity : String) (delinquent : Option Bool)
    (voteCredits lastVote : Json) : Prop where
  delinquentOnly : delinquent = some true →
    NamedIn identity "delinquent" accounts ∧ ¬ NamedIn identity "current" accounts
  current : NamedIn identity "current" accounts →
    delinquent = some false ∧ ∃ acct ∈ groupOf "current" accounts, Names identity acct ∧
      credits acct = .ok voteCredits ∧ getOr "lastVote" .null acct = .ok lastVote

def Reported (found : Option (Json × Bool)) (delinquent : Option Bool)
    (voteCredits lastVote : Json) : Prop :=
  match found with
  | none => delinquent = none
  | some (acct, isDelinquent) =>
      delinquent = some isDelinquent ∧ credits acct = .ok voteCredits ∧
        getOr "lastVote" .null acct = .ok lastVote

/-- The report is right exactly for an identity whose accounts are all in one group. -/
theorem attributed_iff {accounts : Json} {identity : String} {found : Option (Json × Bool)}
    {delinquent : Option Bool} {voteCredits lastVote : Json}
    (hfound : findEntry identity accounts = .ok found)
    (h : Reported found delinquent voteCredits lastVote) :
    Attributed accounts identity delinquent voteCredits lastVote ↔
      ¬ (NamedIn identity "current" accounts ∧ NamedIn identity "delinquent" accounts) := by
  rcases findEntry_cases hfound with ⟨acct, hmem, hnames, rfl⟩ | ⟨hnone, hcurrent⟩
  · obtain ⟨rfl, hcredits, hlast⟩ := h
    have hbehind : NamedIn identity "delinquent" accounts := ⟨acct, hmem, hnames⟩
    constructor
    · rintro ⟨honly, -⟩ ⟨hcurrent, -⟩
      exact (honly rfl).2 hcurrent
    · intro hboth
      have hcurrent : ¬ NamedIn identity "current" accounts := fun hc => hboth ⟨hc, hbehind⟩
      exact ⟨fun _ => ⟨hbehind, hcurrent⟩, fun hc => absurd hc hcurrent⟩
  · refine ⟨fun _ hboth => hnone hboth.2, fun _ => ?_⟩
    rcases hcurrent with ⟨acct, hmem, hnames, rfl⟩ | ⟨hcurrent, rfl⟩
    · obtain ⟨rfl, hcredits, hlast⟩ := h
      exact ⟨fun hd => (by cases hd), fun _ => ⟨rfl, acct, hmem, hnames, hcredits, hlast⟩⟩
    · have hunset : delinquent = none := h
      rw [hunset]
      exact ⟨fun hd => (by cases hd), fun hc => absurd hc hcurrent⟩

/-! ## The probe -/

/-- The reference answers all three calls of the probe, the accounts among them. -/
structure AnswersVotes (ask : Method → Response) (accounts : Json) : Prop where
  slot : ∃ slot, (ask .getSlot).result? = some slot
  version : ∃ version, (ask .getVersion).result? = some version ∧ IsObject version
  accounts : (ask .getVoteAccounts).result? = some accounts

structure Carries (status : Status) (slot : Option Vote) : Prop where
  delinquent : status.delinquent = slot.map (·.delinquent)
  stake : status.activatedStakeSol = slot.map (·.stakeSol)
  credits : status.voteCredits = (slot.map (·.credits)).getD .null
  lastVote : status.lastVote = (slot.map (·.lastVote)).getD .null

theorem probeReference_votes {ask : Method → Response} {cluster : Cluster} {accounts : Json}
    {votes : Dict String Vote} (h : AnswersVotes ask accounts)
    (hread : readVoteAccounts accounts = .ok votes)
    (hid : (cluster.nodes.any fun n => Text.truthy n.identity) = true) :
    ∃ found, probeReference ask cluster = .ok found ∧ found.votes = some votes := by
  obtain ⟨slot, hslot⟩ := h.slot
  obtain ⟨core, hcore⟩ := solanaCore_returns_iff.mpr h.version
  have hvotes : voteAccounts (ask .getVoteAccounts) = .ok votes := by
    unfold voteAccounts
    rw [except_bind_eq_ok_iff]
    exact ⟨accounts, rpcCall_eq_ok_iff.mpr h.accounts, reading_eq_ok_iff.mpr hread⟩
  refine ⟨{ slot, version := core, votes := some votes }, ?_, rfl⟩
  unfold probeReference
  rw [rpcCall_eq_ok_iff.mpr hslot, guarded, hcore, guarded, if_pos hid, hvotes, guarded]

theorem startStatus_carries {clusterName identity : String} {node : Node}
    {votes : Dict String Vote} (hidentity : node.identity = some identity)
    (hne : identity ≠ "") :
    Carries (startStatus clusterName node (some votes)) (votes.get? identity) := by
  have hvote : voteOf node (some votes) = votes.get? identity := by
    simp only [voteOf, hidentity, if_neg hne]
  unfold startStatus
  rw [hvote]
  cases votes.get? identity <;> exact ⟨rfl, rfl, rfl, rfl⟩

/-- Nothing after the start touches the vote. -/
theorem probeNode_carries {ask : Method → Response} {clusterName : String} {node : Node}
    {referenceSlot : Json} {votes : Option (Dict String Vote)} {status : Status}
    {slot : Option Vote} (h : probeNode ask clusterName node referenceSlot votes = .ok status)
    (hstart : Carries (startStatus clusterName node votes) slot) : Carries status slot := by
  obtain ⟨hdelinquent, hstake, hcredits, hlast⟩ := hstart
  rcases probeNode_cases h with ⟨-, rfl⟩ | ⟨-, ⟨e, rfl⟩ | ⟨healthy, version, slot, e, rfl⟩ |
    ⟨healthy, version, slot, lag, -, rfl⟩⟩
  all_goals exact ⟨hdelinquent, hstake, hcredits, hlast⟩

/-- The calls besides the vote accounts leave the probe of a cluster standing. -/
def NodesReturn (w : World) (clusterName : String) (cluster : Cluster) : Prop :=
  ∀ node ∈ cluster.nodes,
    TameNode (w.asNode clusterName node) node (w.referenceSlot clusterName cluster)

/-- The status of a node carries what the accounts hold under its identity. -/
theorem probeCluster_carries {w : World} {clusterName identity : String} {cluster : Cluster}
    {node : Node} {j : Nat} {accounts : Json} {votes : Dict String Vote}
    (h : AnswersVotes (w.asReference clusterName cluster) accounts)
    (hread : readVoteAccounts accounts = .ok votes) (hnodes : NodesReturn w clusterName cluster)
    (hj : cluster.nodes[j]? = some node) (hidentity : node.identity = some identity)
    (hne : identity ≠ "") :
    ∃ found status, probeCluster w clusterName cluster = .ok found ∧
      found.nodes[j]? = some status ∧ Carries status (votes.get? identity) := by
  have hid : (cluster.nodes.any fun n => Text.truthy n.identity) = true := by
    refine List.any_eq_true.mpr ⟨node, List.mem_of_getElem? hj, ?_⟩
    rw [hidentity, Text.truthy]
    exact bne_iff_ne.mpr hne
  obtain ⟨ref, href, hvotes⟩ := probeReference_votes h hread hid
  obtain ⟨found, hfound⟩ := probeCluster_returns_iff.mpr
    ⟨probeReference_returns_iff.mp ⟨ref, href⟩, hnodes⟩
  obtain ⟨ref', nodes, href', hgather, rfl⟩ := probeCluster_eq_ok_iff.mp hfound
  obtain rfl : ref = ref' := Except.ok.inj (href.symm.trans href')
  obtain ⟨status, hstatus, hnode⟩ := gather_map_getElem? hgather hj
  rw [hvotes] at hnode
  exact ⟨_, status, hfound, hstatus, probeNode_carries hnode (startStatus_carries hidentity hne)⟩

/-! ## The view -/

/-- The calls of a view besides the vote accounts raise nothing past their `try`. -/
structure OthersReturn (answers : Answers) (node : Node) : Prop where
  balance : ∃ b, balance answers.balance = .ok b
  catchUp : ∃ c, catchUp node answers.referenceSlot answers.nodeSlot = .ok c
  leader : ∃ l, leader answers.leaderWindows = .ok l

def Shows : Option VoteEntry → Option Vote → Prop
  | none, slot => slot = none
  | some entry, slot => slot = some ⟨entry.delinquent, entry.stake, entry.credits, entry.lastVote⟩

theorem readEntry_obj (members : List (String × Json)) (delinquent : Bool) :
    readEntry (.obj members) delinquent =
      lastCredits ((Json.find? members "epochCredits").getD .null) >>= fun credits =>
      stakeSol ((Json.find? members "activatedStake").getD (.int 0)) >>= fun sol =>
      .ok
        { voteAccount := (Json.find? members "votePubkey").getD .null
          delinquent
          credits
          lastVote := (Json.find? members "lastVote").getD .null
          rootSlot := (Json.find? members "rootSlot").getD .null
          commission := (Json.find? members "commission").getD .null
          stake := sol } := rfl

/-- An account whose vote can be stored can be shown. -/
theorem readEntry_of_accountVote {acct : Json} {delinquent : Bool} {vote : Vote}
    (h : accountVote delinquent acct = .ok vote) :
    ∃ entry, readEntry acct delinquent = .ok entry ∧ Shows (some entry) (some vote) := by
  cases acct with
  | obj members =>
      rw [accountVote_obj] at h
      obtain ⟨sol, hsol, h⟩ := except_bind_eq_ok_iff.mp h
      obtain ⟨earned, hearned, h⟩ := except_bind_eq_ok_iff.mp h
      cases h
      rw [readEntry_obj, hearned, except_ok_bind, hsol, except_ok_bind]
      exact ⟨_, rfl, rfl⟩
  | _ => cases h

theorem voteReport_shows (clusterName nodeName : String) {answers : Answers} {identity : String}
    {node : Node} {accounts : Json} {votes : Dict String Vote}
    (haccounts : answers.voteAccounts.result? = some accounts)
    (hread : readVoteAccounts accounts = .ok votes) (hothers : OthersReturn answers node) :
    ∃ report, voteReport answers clusterName node nodeName identity = .ok report ∧
      Shows report.entry (votes.get? identity) := by
  obtain ⟨found, hfound, hstep⟩ := readVoteAccounts_inStep hread identity
  obtain ⟨b, hb⟩ := hothers.balance
  obtain ⟨c, hc⟩ := hothers.catchUp
  obtain ⟨l, hl⟩ := hothers.leader
  have hvote : voteAccount identity answers.voteAccounts = .ok (found, none) := by
    unfold voteAccount
    rw [rpcCall_eq_ok_iff.mpr haccounts, guarded, hfound]
    rfl
  unfold voteReport
  rw [hvote, hb, hc, hl]
  cases found with
  | none => exact ⟨_, rfl, hstep⟩
  | some found =>
      obtain ⟨acct, delinquent⟩ := found
      obtain ⟨vote, hslot, haccount⟩ := hstep
      obtain ⟨entry, hentry, hshows⟩ := readEntry_of_accountVote haccount
      simp only [except_ok_bind, hentry]
      refine ⟨_, rfl, ?_⟩
      rw [hslot]
      exact hshows

/-- The view of a validator, by the name of its node. -/
theorem voteStatus_shows {answers : Answers} {fleet : Fleet}
    {nodeName clusterName identity : String} {cluster : Cluster} {node : Node} {accounts : Json}
    {votes : Dict String Vote}
    (hfind : fleet.findNode nodeName = some (clusterName, cluster, node))
    (hrole : node.role = .validator) (hidentity : node.identity = some identity)
    (hne : identity ≠ "") (haccounts : answers.voteAccounts.result? = some accounts)
    (hread : readVoteAccounts accounts = .ok votes) (hothers : OthersReturn answers node) :
    ∃ report, voteStatus answers fleet nodeName = .ok (.report report) ∧
      Shows report.entry (votes.get? identity) := by
  obtain ⟨report, hreport, hshows⟩ :=
    voteReport_shows clusterName nodeName haccounts hread hothers
  have htruthy : Text.truthy node.identity = true := by
    rw [hidentity, Text.truthy]
    exact bne_iff_ne.mpr hne
  refine ⟨report, ?_, hshows⟩
  unfold voteStatus
  rw [hfind]
  simp only [hrole, htruthy, ne_eq, not_true_eq_false, Bool.true_eq_false, or_self, if_false]
  rw [hidentity, Option.getD_some, hreport]
  rfl

/-! ## A validator with an old vote account -/

def votingNode : Node :=
  { name := "val", role := .validator, host := "10.0.0.7", identity := some "VAL1" }

def votingCluster : Cluster := { referenceRpc := "http://reference", nodes := [votingNode] }

def votingFleet : Fleet := { clusters := ⟨[("testnet", votingCluster)], by decide⟩ }

/-- The account it votes with. -/
def activeAccount : Json :=
  .obj [("nodePubkey", .str "VAL1"), ("lastVote", .int 900),
    ("epochCredits", .arr [.arr [.int 5, .int 4200, .int 4000]])]

/-- An account it no longer uses. -/
def unusedAccount : Json := .obj [("nodePubkey", .str "VAL1"), ("lastVote", .int 7)]

def accountsIn (current delinquent : List Json) : Json :=
  .obj [("current", .arr current), ("delinquent", .arr delinquent)]

/-- The reference answers the accounts, and is at slot 1000. -/
def votingWorld (accounts : Json) : World
  | _, _, .getVoteAccounts => answerWith accounts
  | _, _, method => healthyEndpoint method

def votingAnswers (accounts : Json) : Answers where
  voteAccounts := answerWith accounts
  balance := .transportError "timed out"
  referenceSlot := answerWith (.int 1000)
  nodeSlot := .transportError "timed out"
  leaderWindows := .error (.caught (.http "timed out"))

theorem tameStake_zero : TameStake (.int 0) := ⟨.int 0, rfl, by decide +kernel⟩

theorem tame_activeAccount : TameAccount activeAccount := by
  refine ⟨⟨.str "VAL1", rfl, rfl⟩, tameStake_zero, fun last hlast => ?_⟩
  cases hlast
  exact Nat.le_of_ble_eq_true rfl

theorem tame_unusedAccount : TameAccount unusedAccount :=
  ⟨⟨.str "VAL1", rfl, rfl⟩, tameStake_zero, rfl⟩

theorem tame_accountsIn {current delinquent : List Json}
    (hcurrent : ∀ acct ∈ current, TameAccount acct)
    (hdelinquent : ∀ acct ∈ delinquent, TameAccount acct) :
    TameVoteAccounts (accountsIn current delinquent) :=
  ⟨⟨current, rfl, hcurrent⟩, delinquent, rfl, hdelinquent⟩

theorem votingWorld_answers (accounts : Json) :
    AnswersVotes ((votingWorld accounts).asReference "testnet" votingCluster) accounts :=
  ⟨⟨.int 1000, rfl⟩, ⟨_, rfl, trivial⟩, rfl⟩

theorem votingWorld_nodes (accounts : Json) :
    NodesReturn (votingWorld accounts) "testnet" votingCluster := by
  intro node hnode hurl
  rw [List.mem_singleton.mp hnode] at hurl
  cases hurl

theorem votingAnswers_return (accounts : Json) :
    OthersReturn (votingAnswers accounts) votingNode :=
  ⟨⟨_, rfl⟩, ⟨_, rfl⟩, ⟨_, rfl⟩⟩

theorem votingFleet_findNode :
    votingFleet.findNode "val" = some ("testnet", votingCluster, votingNode) := by
  decide +kernel

/-! ## What both report of the account found -/

theorem accountVote_reads {acct : Json} {delinquent : Bool} {vote : Vote}
    (h : accountVote delinquent acct = .ok vote) :
    vote.delinquent = delinquent ∧ credits acct = .ok vote.credits ∧
      getOr "lastVote" .null acct = .ok vote.lastVote := by
  cases acct with
  | obj members =>
      rw [accountVote_obj] at h
      obtain ⟨sol, hsol, h⟩ := except_bind_eq_ok_iff.mp h
      obtain ⟨earned, hearned, h⟩ := except_bind_eq_ok_iff.mp h
      cases h
      exact ⟨rfl, hearned, rfl⟩
  | _ => cases h

theorem Carries.reported {status : Status} {slot : Option Vote} {found : Option (Json × Bool)}
    (h : Carries status slot) (hstep : InStep found slot) :
    Reported found status.delinquent status.voteCredits status.lastVote := by
  obtain ⟨hdelinquent, -, hcredits, hlast⟩ := h
  rw [hdelinquent, hcredits, hlast]
  cases found with
  | none =>
      obtain rfl : slot = none := hstep
      rfl
  | some found =>
      obtain ⟨acct, delinquent⟩ := found
      obtain ⟨vote, rfl, hvote⟩ := hstep
      obtain ⟨rfl, hearned, hvoted⟩ := accountVote_reads hvote
      exact ⟨rfl, hearned, hvoted⟩

theorem Shows.reported {report : VoteReport} {slot : Option Vote} {found : Option (Json × Bool)}
    (h : Shows report.entry slot) (hstep : InStep found slot) :
    Reported found report.delinquent report.credits report.lastVote := by
  unfold VoteReport.delinquent VoteReport.credits VoteReport.lastVote
  cases found with
  | none =>
      obtain rfl : slot = none := hstep
      cases hentry : report.entry with
      | none => rfl
      | some entry =>
          rw [hentry] at h
          cases h
  | some found =>
      obtain ⟨acct, delinquent⟩ := found
      obtain ⟨vote, rfl, hvote⟩ := hstep
      obtain ⟨rfl, hearned, hvoted⟩ := accountVote_reads hvote
      cases hentry : report.entry with
      | none =>
          rw [hentry] at h
          cases h
      | some entry =>
          rw [hentry] at h
          cases h
          exact ⟨rfl, hearned, hvoted⟩

/-! ## Delinquency -/

def InBothGroups (identity : String) (accounts : Json) : Prop :=
  NamedIn identity "current" accounts ∧ NamedIn identity "delinquent" accounts

theorem delinquency_attributed_iff (fleet : Fleet) (nodeName clusterName identity : String)
    (cluster : Cluster) (node : Node) (j : Nat) (w : World) (answers : Answers) (accounts : Json)
    (hfind : fleet.findNode nodeName = some (clusterName, cluster, node))
    (hj : cluster.nodes[j]? = some node) (hidentity : node.identity = some identity)
    (hne : identity ≠ "") (haccounts : TameVoteAccounts accounts)
    (hprobe : AnswersVotes (w.asReference clusterName cluster) accounts)
    (hnodes : NodesReturn w clusterName cluster)
    (hview : answers.voteAccounts.result? = some accounts)
    (hothers : OthersReturn answers node) :
    (∃ found status, probeCluster w clusterName cluster = .ok found ∧
      found.nodes[j]? = some status ∧
        (Attributed accounts identity status.delinquent status.voteCredits status.lastVote ↔
          ¬ InBothGroups identity accounts)) ∧
      (node.role = .validator → ∃ report, voteStatus answers fleet nodeName = .ok (.report report) ∧
        (Attributed accounts identity report.delinquent report.credits report.lastVote ↔
          ¬ InBothGroups identity accounts)) := by
  obtain ⟨votes, hread⟩ := readVoteAccounts_returns_iff.mpr haccounts
  obtain ⟨entry, hentry, hstep⟩ := readVoteAccounts_inStep hread identity
  refine ⟨?_, fun hrole => ?_⟩
  · obtain ⟨found, status, hfound, hstatus, hcarries⟩ :=
      probeCluster_carries hprobe hread hnodes hj hidentity hne
    exact ⟨found, status, hfound, hstatus, attributed_iff hentry (hcarries.reported hstep)⟩
  · obtain ⟨report, hreport, hshows⟩ :=
      voteStatus_shows hfind hrole hidentity hne hview hread hothers
    exact ⟨report, hreport, attributed_iff hentry (hshows.reported hstep)⟩

/-- Both accounts current: the report is right, and made of the last one. -/
theorem delinquency_attributed_iff_current :
    (∃ found status,
      probeCluster (votingWorld (accountsIn [unusedAccount, activeAccount] [])) "testnet"
          votingCluster = .ok found ∧ found.nodes[0]? = some status ∧
        (Attributed (accountsIn [unusedAccount, activeAccount] []) "VAL1" status.delinquent
            status.voteCredits status.lastVote ↔
          ¬ InBothGroups "VAL1" (accountsIn [unusedAccount, activeAccount] []))) := by
  refine (delinquency_attributed_iff votingFleet "val" "testnet" "VAL1" votingCluster votingNode 0
    (votingWorld _) (votingAnswers _) _ votingFleet_findNode rfl rfl (by decide) ?_
    (votingWorld_answers _) (votingWorld_nodes _) rfl (votingAnswers_return _)).1
  refine tame_accountsIn (fun acct hacct => ?_) fun acct hacct => absurd hacct List.not_mem_nil
  rcases List.mem_cons.mp hacct with rfl | hacct
  · exact tame_unusedAccount
  · rw [List.mem_singleton.mp hacct]
    exact tame_activeAccount

/-- One account in each group: both readers call a voting validator delinquent. -/
theorem voting_validator_reported_delinquent :
    ∃ found status report,
      probeCluster (votingWorld (accountsIn [activeAccount] [unusedAccount])) "testnet"
          votingCluster = .ok found ∧ found.nodes[0]? = some status ∧
      voteStatus (votingAnswers (accountsIn [activeAccount] [unusedAccount])) votingFleet "val" =
          .ok (.report report) ∧
      ¬ Attributed (accountsIn [activeAccount] [unusedAccount]) "VAL1" status.delinquent
          status.voteCredits status.lastVote ∧
      ¬ Attributed (accountsIn [activeAccount] [unusedAccount]) "VAL1" report.delinquent
          report.credits report.lastVote := by
  have htame : TameVoteAccounts (accountsIn [activeAccount] [unusedAccount]) :=
    tame_accountsIn
      (fun acct hacct => by
        rw [List.mem_singleton.mp hacct]
        exact tame_activeAccount)
      fun acct hacct => by
        rw [List.mem_singleton.mp hacct]
        exact tame_unusedAccount
  have hboth : InBothGroups "VAL1" (accountsIn [activeAccount] [unusedAccount]) :=
    ⟨⟨activeAccount, List.mem_singleton.mpr rfl, rfl⟩, unusedAccount, List.mem_singleton.mpr rfl,
      rfl⟩
  obtain ⟨votes, hread⟩ := readVoteAccounts_returns_iff.mpr htame
  obtain ⟨entry, hentry, hstep⟩ := readVoteAccounts_inStep hread "VAL1"
  obtain ⟨found, status, hfound, hstatus, hcarries⟩ :=
    probeCluster_carries (votingWorld_answers _) hread (votingWorld_nodes _)
      (rfl : votingCluster.nodes[0]? = some votingNode) rfl (by decide)
  obtain ⟨report, hreport, hshows⟩ :=
    voteStatus_shows votingFleet_findNode rfl rfl (by decide) (rfl :
      (votingAnswers (accountsIn [activeAccount] [unusedAccount])).voteAccounts.result? = _)
      hread (votingAnswers_return _)
  refine ⟨found, status, report, hfound, hstatus, hreport, fun h => ?_, fun h => ?_⟩
  · exact (attributed_iff hentry (hcarries.reported hstep)).mp h hboth
  · exact (attributed_iff hentry (hshows.reported hstep)).mp h hboth

/-! ## The readers agree -/

/-- The status of a probe and the report of a view say the same of the vote account. -/
structure Agree (status : Status) (report : VoteReport) : Prop where
  unset : status.delinquent = none ↔ report.inVoteSet = false
  entry : ∀ entry, report.entry = some entry →
    status.delinquent = some entry.delinquent ∧ status.voteCredits = entry.credits ∧
      status.lastVote = entry.lastVote ∧ status.activatedStakeSol = some entry.stake

theorem agree_of_shows {status : Status} {report : VoteReport} {slot : Option Vote}
    (hcarries : Carries status slot) (hshows : Shows report.entry slot) :
    Agree status report := by
  obtain ⟨hdelinquent, hstake, hcredits, hlast⟩ := hcarries
  have hset : report.inVoteSet = report.entry.isSome := rfl
  cases hentry : report.entry with
  | none =>
      rw [hentry] at hshows hset
      obtain rfl : slot = none := hshows
      refine ⟨⟨fun _ => hset, fun _ => hdelinquent⟩, fun entry h => ?_⟩
      rw [hentry] at h
      cases h
  | some shown =>
      rw [hentry] at hshows hset
      obtain rfl := hshows
      refine ⟨⟨fun h => ?_, fun h => ?_⟩, fun entry h => ?_⟩
      · rw [hdelinquent] at h
        cases h
      · rw [hset] at h
        cases h
      · rw [hentry] at h
        cases h
        exact ⟨hdelinquent, hcredits, hlast, hstake⟩

theorem voteReaders_agree (fleet : Fleet) (nodeName clusterName identity : String)
    (cluster : Cluster) (node : Node) (j : Nat) (w : World) (answers : Answers) (accounts : Json)
    (hfind : fleet.findNode nodeName = some (clusterName, cluster, node))
    (hj : cluster.nodes[j]? = some node) (hrole : node.role = .validator)
    (hidentity : node.identity = some identity) (hne : identity ≠ "")
    (haccounts : TameVoteAccounts accounts)
    (hprobe : AnswersVotes (w.asReference clusterName cluster) accounts)
    (hnodes : NodesReturn w clusterName cluster)
    (hview : answers.voteAccounts.result? = some accounts)
    (hothers : OthersReturn answers node) :
    ∃ found status report, probeCluster w clusterName cluster = .ok found ∧
      found.nodes[j]? = some status ∧ voteStatus answers fleet nodeName = .ok (.report report) ∧
      Agree status report := by
  obtain ⟨votes, hread⟩ := readVoteAccounts_returns_iff.mpr haccounts
  obtain ⟨found, status, hfound, hstatus, hcarries⟩ :=
    probeCluster_carries hprobe hread hnodes hj hidentity hne
  obtain ⟨report, hreport, hshows⟩ :=
    voteStatus_shows hfind hrole hidentity hne hview hread hothers
  exact ⟨found, status, report, hfound, hstatus, hreport, agree_of_shows hcarries hshows⟩

/-- An identity with an account in each group: the readers agree on the delinquent one. -/
theorem voteReaders_agree_both :
    ∃ found status report,
      probeCluster (votingWorld (accountsIn [activeAccount] [unusedAccount, unusedAccount]))
          "testnet" votingCluster = .ok found ∧ found.nodes[0]? = some status ∧
      voteStatus (votingAnswers (accountsIn [activeAccount] [unusedAccount, unusedAccount]))
          votingFleet "val" = .ok (.report report) ∧
      Agree status report := by
  refine voteReaders_agree votingFleet "val" "testnet" "VAL1" votingCluster votingNode 0
    (votingWorld _) (votingAnswers _) _ votingFleet_findNode rfl rfl rfl (by decide) ?_
    (votingWorld_answers _) (votingWorld_nodes _) rfl (votingAnswers_return _)
  refine tame_accountsIn (fun acct hacct => ?_) fun acct hacct => ?_
  · rw [List.mem_singleton.mp hacct]
    exact tame_activeAccount
  · have hunused : acct = unusedAccount := by simpa using hacct
    rw [hunused]
    exact tame_unusedAccount

end Voting

end Solfleet
