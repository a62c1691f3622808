import Solfleet.Operations
import Solfleet.Probe.Rpc

/-! # The status of a voting validator

The vote account of a validator as the reference knows it, the balance of its identity, its
lag and its leader windows in one view. Each call has its own `try`; what a call raises past
it ends the view.
-/

namespace Solfleet

namespace Voting

open Probe

def lowBalanceSol : Rat := 1

/-! ## The vote account -/

/-- `a.get("nodePubkey") == node.identity` -/
def isText (text : String) : Json → Bool
  | .str s => s == text
  | _ => false

/-- One turn of the scan: the account replaces what was found so far. -/
def scanAccount (identity : String) (isDelinquent : Bool) (found : Option (Json × Bool))
    (acct : Json) : Except Exn (Option (Json × Bool)) := do
  let key ← getOr "nodePubkey" .null acct
  pure (if isText identity key then some (acct, isDelinquent) else found)

def scanAccounts (identity : String) (isDelinquent : Bool) :
    Option (Json × Bool) → List Json → Except Exn (Option (Json × Bool))
  | found, [] => .ok found
  | found, acct :: rest => do
      let found ← scanAccount identity isDelinquent found acct
      scanAccounts identity isDelinquent found rest

def scanGroup (identity : String) (isDelinquent : Bool) (found : Option (Json × Bool))
    (group : Json) : Except Exn (Option (Json × Bool)) :=
  match group.items? with
  | none => .error (typeError ("'" ++ group.typeName ++ "' object is not iterable"))
  | some items => scanAccounts identity isDelinquent found items

/-- The account of an identity and whether it is delinquent. -/
def findEntry (identity : String) (accounts : Json) : Except Exn (Option (Json × Bool)) := do
  let current ← getOr "current" (.arr []) accounts
  let delinquent ← getOr "delinquent" (.arr []) accounts
  let found ← scanGroup identity false none current
  scanGroup identity true found delinquent

/-- `_credits(entry)` -/
def credits (entry : Json) : Except Exn Json := do
  let epochCredits ← getOr "epochCredits" .null entry
  lastCredits epochCredits

/-- The part of the view read from the account. -/
structure VoteEntry where
  voteAccount : Json
  delinquent : Bool
  credits : Json
  lastVote : Json
  rootSlot : Json
  commission : Json
  /-- The stake before it is rounded. -/
  stake : PyFloat

def VoteEntry.voting (entry : VoteEntry) : Bool := !entry.delinquent

def VoteEntry.activatedStakeSol (entry : VoteEntry) : PyFloat := entry.stake.round 4

def readEntry (entry : Json) (delinquent : Bool) : Except Exn VoteEntry := do
  let voteAccount ← getOr "votePubkey" .null entry
  let credits ← credits entry
  let lastVote ← getOr "lastVote" .null entry
  let rootSlot ← getOr "rootSlot" .null entry
  let commission ← getOr "commission" .null entry
  let stake ← getOr "activatedStake" (.int 0) entry
  let sol ← stakeSol stake
  pure { voteAccount, delinquent, credits, lastVote, rootSlot, commission, stake := sol }

/-- What was found, or why the accounts could not be asked for. -/
def voteAccount (identity : String) (response : Response) :
    Except Exn (Option (Json × Bool) × Option Caught) :=
  guarded (rpcCall .getVoteAccounts response) (fun e => (none, some e)) fun accounts => do
    let found ← findEntry identity accounts
    pure (found, none)

/-! ## The balance -/

/-- What `getBalance` raises where it is caught. -/
inductive BalanceError where
  | http (message : String)
  | rpc (error : List (String × Json))

def BalanceError.text (pyStr : Json → String) : BalanceError → String
  | .http message => message
  | .rpc error =>
      "getBalance: " ++ pyStr ((Json.find? error "message").getD (.obj error))

/-- `rpc_call(client, ref, "getBalance", ...)` -/
def callBalance : Response → Except Exn (Except BalanceError Json)
  | .transportError message => .ok (.error (.http message))
  | .statusError message => .ok (.error (.http message))
  | .notJson message => .error (.valueError message)
  | .body (.obj members) =>
      match Json.find? members "error" with
      | none => .ok (.ok ((Json.find? members "result").getD .null))
      | some (.obj error) => .ok (.error (.rpc error))
      | some error => .error (noGet error)
  | .body value => .error (badBody value)

structure Balance where
  sol : PyFloat
  low : Bool

/-- `bal.get("value") if isinstance(bal, dict) else bal` -/
def lamports : Json → Json
  | .obj members => (Json.find? members "value").getD .null
  | value => value

def readBalance (answer : Json) : Except Exn Balance := do
  let amount := lamports answer
  let sol ← stakeSol (if amount.truthy then amount else .int 0)
  let rounded := sol.round 4
  pure { sol := rounded, low := rounded.below lowBalanceSol }

def balance (response : Response) : Except Exn (Except BalanceError Balance) := do
  match ← callBalance response with
  | .error e => pure (.error e)
  | .ok answer => .ok <$> readBalance answer

/-! ## Catch-up -/

inductive CatchUp where
  | notAsked
  | unknown
  | lag (slots : PyNumber)
  deriving DecidableEq

def CatchUp.caughtUp : CatchUp → Option Bool
  | .lag slots => some (slots.atMost 2)
  | _ => none

/-- `max(0, ref_slot - node_slot)` -/
def lagOf (refSlot nodeSlot : Json) : Except Exn PyNumber :=
  match refSlot.number?, nodeSlot.number? with
  | some x, some y =>
      match x.sub? y with
      | none => .error (.overflowError "int too large to convert to float")
      | some difference => .ok difference.atLeastZero
  | _, _ =>
      .error (typeError ("unsupported operand type(s) for -: '" ++ refSlot.typeName ++ "' and '" ++
        nodeSlot.typeName ++ "'"))

def catchUp (node : Node) (referenceSlot nodeSlot : Response) : Except Exn CatchUp :=
  guarded (rpcCall .getSlot referenceSlot) (fun _ => .unknown) fun refSlot =>
  if Text.truthy node.rpcUrl then
    guarded (rpcCall .getSlot nodeSlot) (fun _ => .unknown) fun nodeSlot =>
    .lag <$> lagOf refSlot nodeSlot
  else .ok .notAsked

/-- A `KeyError` is caught here too. -/
def leader : Except Raised LeaderWindows → Except Exn (Option LeaderWindows)
  | .ok windows => .ok (some windows)
  | .error (.caught _) => .ok none
  | .error (.other (.keyError _)) => .ok none
  | .error (.other e) => .error e

/-! ## The view -/

/-- How the endpoints behave on the calls of one view. -/
structure Answers where
  voteAccounts : Response
  balance : Response
  referenceSlot : Response
  nodeSlot : Response
  leaderWindows : Except Raised LeaderWindows

structure VoteReport where
  node : String
  cluster : String
  identity : String
  voteAccountError : Option Caught
  balance : Except BalanceError Balance
  catchUp : CatchUp
  leader : Option LeaderWindows
  /-- `none`: not in the vote set. -/
  entry : Option VoteEntry

def VoteReport.inVoteSet (report : VoteReport) : Bool := report.entry.isSome

def VoteReport.voting (report : VoteReport) : Bool := report.entry.any (·.voting)

def VoteReport.delinquent (report : VoteReport) : Option Bool := report.entry.map (·.delinquent)

def VoteReport.credits (report : VoteReport) : Json := (report.entry.map (·.credits)).getD .null

def VoteReport.lastVote (report : VoteReport) : Json :=
  (report.entry.map (·.lastVote)).getD .null

def VoteReport.note (report : VoteReport) : Option String :=
  if report.inVoteSet then none
  else
    some ("identity not in the cluster's vote accounts yet " ++
      "(no vote account, or freshly created and not seen)")

inductive VoteStatus where
  | error (message : String)
  | report (report : VoteReport)

def notVoting (nodeName : String) : String :=
  nodeName ++ " is not a voting validator (needs role=validator and an identity pubkey)"

def voteReport (answers : Answers) (clusterName : String) (node : Node)
    (nodeName identity : String) : Except Exn VoteReport := do
  let (found, voteAccountError) ← voteAccount identity answers.voteAccounts
  let balance ← balance answers.balance
  let catchUp ← catchUp node answers.referenceSlot answers.nodeSlot
  let leader ← leader answers.leaderWindows
  let entry ←
    match found with
    | none => pure none
    | some (acct, delinquent) => some <$> readEntry acct delinquent
  pure
    { node := nodeName
      cluster := clusterName
      identity
      voteAccountError
      balance
      catchUp
      leader
      entry }

def voteStatus (answers : Answers) (fleet : Fleet) (nodeName : String) : Except Exn VoteStatus :=
  match fleet.findNode nodeName with
  | none => .ok (.error (unknownNode nodeName))
  | some (clusterName, _, node) =>
      if node.role ≠ .validator ∨ Text.truthy node.identity = false then
        .ok (.error (notVoting nodeName))
      else
        .report <$> voteReport answers clusterName node nodeName (node.identity.getD "")

end Voting

end Solfleet
