import Solfleet.Config
import Solfleet.Library.Json
import Solfleet.Safety

/-! # Probing over JSON-RPC

The probe of a fleet against endpoints that answer anything at all. A cluster's reference is
asked first, then every node of the cluster is compared with it; all nodes and all clusters
are gathered. Only transport, status and JSON-RPC errors are caught on the way.
-/

namespace Solfleet

namespace Probe

/-! ## Calls -/

inductive Method where
  | getHealth
  | getVersion
  | getSlot
  | getVoteAccounts
  deriving DecidableEq

def Method.text : Method → String
  | .getHealth => "getHealth"
  | .getVersion => "getVersion"
  | .getSlot => "getSlot"
  | .getVoteAccounts => "getVoteAccounts"

/-- How an endpoint behaves on one request. -/
inductive Response where
  | transportError (message : String)
  | statusError (message : String)
  | notJson (message : String)
  | body (value : Json)

/-- The exceptions both probes catch: `httpx.HTTPError` and `RpcError`. -/
inductive Caught where
  | http (message : String)
  | rpc (method : Method) (error : List (String × Json))

/-- `str(e)`, where `pyStr` is the host's `str` of a decoded value. -/
def Caught.text (pyStr : Json → String) : Caught → String
  | .http message => message
  | .rpc method error =>
      method.text ++ ": " ++ pyStr ((Json.find? error "message").getD (.obj error))

inductive Raised where
  | caught (e : Caught)
  | other (e : Exn)

def typeError (message : String) : Exn := .raised ("TypeError: " ++ message)

def indexError (message : String) : Exn := .raised ("IndexError: " ++ message)

/-- What `value.get` raises on a value that is no dictionary. -/
def noGet (value : Json) : Exn :=
  .attributeError ("'" ++ value.typeName ++ "' object has no attribute 'get'")

/-- `value.get(key, default)` -/
def getOr (key : String) (default : Json) : Json → Except Exn Json
  | .obj members => .ok ((Json.find? members key).getD default)
  | value => .error (noGet value)

/-- `value[index]` -/
def subscript (index : Int) : Json → Except Exn Json
  | .arr items =>
      match Json.item? items index with
      | none => .error (indexError "list index out of range")
      | some item => .ok item
  | .str s =>
      match Json.item? s.toList index with
      | none => .error (indexError "string index out of range")
      | some c => .ok (.str (String.singleton c))
  | .obj _ => .error (.keyError (toString index))
  | value => .error (typeError ("'" ++ value.typeName ++ "' object is not subscriptable"))

def isErrorWord : Json → Bool
  | .str s => s == "error"
  | _ => false

/-- `"error" in body`, then `body["error"]` or `body.get("result")`, on a body that is no
dictionary. -/
def badBody : Json → Exn
  | .arr items =>
      if items.any isErrorWord then typeError "list indices must be integers or slices, not str"
      else noGet (.arr items)
  | .str s =>
      if Text.contains "error" s then typeError "string indices must be integers, not 'str'"
      else noGet (.str s)
  | value => typeError ("argument of type '" ++ value.typeName ++ "' is not iterable")

/-- One call. Only an error that is an object becomes an `RpcError`. -/
def rpcCall (method : Method) : Response → Except Raised Json
  | .transportError message => .error (.caught (.http message))
  | .statusError message => .error (.caught (.http message))
  | .notJson message => .error (.other (.valueError message))
  | .body (.obj members) =>
      match Json.find? members "error" with
      | none => .ok ((Json.find? members "result").getD .null)
      | some (.obj error) => .error (.caught (.rpc method error))
      | some error => .error (.other (noGet error))
  | .body value => .error (.other (badBody value))

/-- What reading a value raises is never an RPC error. -/
def reading {α : Type} : Except Exn α → Except Raised α
  | .ok a => .ok a
  | .error e => .error (.other e)

/-- A step inside a `try`: what it raises ends the probe, as `caught` says where it is
caught. -/
def guarded {α β : Type} (step : Except Raised α) (caught : Caught → β)
    (next : α → Except Exn β) : Except Exn β :=
  match step with
  | .ok a => next a
  | .error (.caught e) => .ok (caught e)
  | .error (.other e) => .error e

/-- All results in order, unless one of them raises. -/
def gather {α : Type} : List (Except Exn α) → Except Exn (List α)
  | [] => .ok []
  | .error e :: _ => .error e
  | .ok a :: rest =>
      match gather rest with
      | .error e => .error e
      | .ok as => .ok (a :: as)

/-! ## Vote accounts -/

structure Vote where
  delinquent : Bool
  stakeSol : PyFloat
  credits : Json
  lastVote : Json

def lamportsPerSol : Nat := 1000000000

/-- `acct.get("activatedStake", 0) / 1_000_000_000` -/
def stakeSol (stake : Json) : Except Exn PyFloat :=
  match stake.number? with
  | none =>
      .error (typeError
        ("unsupported operand type(s) for /: '" ++ stake.typeName ++ "' and 'int'"))
  | some n =>
      match n.div? lamportsPerSol with
      | none => .error (.overflowError "integer division result too large for a float")
      | some sol => .ok sol

/-- `ec[-1][1] if ec else 0` -/
def lastCredits (epochCredits : Json) : Except Exn Json :=
  if epochCredits.truthy then do subscript 1 (← subscript (-1) epochCredits) else .ok (.int 0)

/-- `vote_status[acct["nodePubkey"]] = vote`. Only text is ever looked up again. -/
def storeVote (votes : Dict String Vote) (vote : Vote) (acct : Json) :
    Except Exn (Dict String Vote) :=
  match acct with
  | .obj members =>
      match Json.find? members "nodePubkey" with
      | none => .error (.keyError "nodePubkey")
      | some (.str key) => .ok (votes.insert key vote)
      | some key =>
          if key.hashable then .ok votes
          else .error (typeError ("unhashable type: '" ++ key.typeName ++ "'"))
  | value => .error (noGet value)

def readAccount (delinquent : Bool) (votes : Dict String Vote) (acct : Json) :
    Except Exn (Dict String Vote) := do
  let epochCredits ← getOr "epochCredits" .null acct
  let stake ← getOr "activatedStake" (.int 0) acct
  let sol ← stakeSol stake
  let credits ← lastCredits epochCredits
  let lastVote ← getOr "lastVote" .null acct
  storeVote votes { delinquent, stakeSol := sol, credits, lastVote } acct

def readAccounts (delinquent : Bool) :
    Dict String Vote → List Json → Except Exn (Dict String Vote)
  | votes, [] => .ok votes
  | votes, acct :: rest => do
      let votes ← readAccount delinquent votes acct
      readAccounts delinquent votes rest

def readGroup (delinquent : Bool) (votes : Dict String Vote) (group : Json) :
    Except Exn (Dict String Vote) :=
  match group.items? with
  | none => .error (typeError ("'" ++ group.typeName ++ "' object is not iterable"))
  | some items => readAccounts delinquent votes items

def readVoteAccounts (accounts : Json) : Except Exn (Dict String Vote) := do
  let current ← getOr "current" (.arr []) accounts
  let delinquent ← getOr "delinquent" (.arr []) accounts
  let votes ← readGroup false .empty current
  readGroup true votes delinquent

/-! ## One node -/

inductive StatusError where
  | noRpcUrl
  | unreachable (e : Caught)
  | failed (e : Caught)

def StatusError.text (pyStr : Json → String) : StatusError → String
  | .noRpcUrl => "no rpc_url configured; probe limited to cluster-side data"
  | .unreachable e => "unreachable: " ++ e.text pyStr
  | .failed e => e.text pyStr

/-- A `NodeStatus` as the endpoints filled it in; `null` is `None`. -/
structure Status where
  name : String
  cluster : String
  role : Role
  reachable : Bool := false
  healthy : Option Bool := none
  version : Json := .null
  slot : Json := .null
  slotLag : Option PyNumber := none
  delinquent : Option Bool := none
  activatedStakeSol : Option PyFloat := none
  voteCredits : Json := .null
  lastVote : Json := .null
  error : Option StatusError := none

/-- What the reference's vote accounts say of the node. -/
def voteOf (node : Node) (votes : Option (Dict String Vote)) : Option Vote :=
  match node.identity, votes with
  | some identity, some votes => if identity = "" then none else votes.get? identity
  | _, _ => none

def startStatus (clusterName : String) (node : Node) (votes : Option (Dict String Vote)) : Status :=
  let status : Status := { name := node.name, cluster := clusterName, role := node.role }
  match voteOf node votes with
  | none => status
  | some vote =>
      { status with
        delinquent := some vote.delinquent
        activatedStakeSol := some vote.stakeSol
        voteCredits := vote.credits
        lastVote := vote.lastVote }

def isOk : Json → Bool
  | .str s => s == "ok"
  | _ => false

/-- A node that is behind reports that as a JSON-RPC error. -/
def health (response : Response) : Except Raised Bool :=
  match rpcCall .getHealth response with
  | .ok value => .ok (isOk value)
  | .error (.caught (.rpc _ _)) => .ok false
  | .error e => .error e

/-- `max(0, reference_slot - status.slot)` where neither is `None` -/
def slotLag (referenceSlot slot : Json) : Except Exn (Option PyNumber) :=
  match referenceSlot, slot with
  | .null, _ => .ok none
  | _, .null => .ok none
  | a, b =>
      match a.number?, b.number? with
      | some x, some y =>
          match x.sub? y with
          | none => .error (.overflowError "int too large to convert to float")
          | some difference => .ok (some difference.atLeastZero)
      | _, _ =>
          .error (typeError ("unsupported operand type(s) for -: '" ++ a.typeName ++ "' and '" ++
            b.typeName ++ "'"))

/-- `version.get("solana-core")` of a `getVersion` answer -/
def solanaCore (response : Response) : Except Raised Json := do
  let version ← rpcCall .getVersion response
  reading (getOr "solana-core" .null version)

def probeNode (ask : Method → Response) (clusterName : String) (node : Node)
    (referenceSlot : Json) (votes : Option (Dict String Vote)) : Except Exn Status :=
  let status := startStatus clusterName node votes
  if Text.truthy node.rpcUrl = false then .ok { status with error := some .noRpcUrl }
  else
    guarded (health (ask .getHealth))
      (fun e => { status with error := some (.unreachable e) }) fun healthy =>
    let status := { status with healthy := some healthy, reachable := true }
    guarded (solanaCore (ask .getVersion))
      (fun e => { status with error := some (.failed e) }) fun version =>
    let status := { status with version }
    guarded (rpcCall .getSlot (ask .getSlot))
      (fun e => { status with error := some (.failed e) }) fun slot =>
    let status := { status with slot }
    guarded (reading (slotLag referenceSlot slot))
      (fun e => { status with error := some (.failed e) }) fun lag =>
    .ok { status with slotLag := lag }

/-! ## Clusters and the fleet -/

/-- What the reference of a cluster told. -/
structure Reference where
  slot : Json := .null
  version : Json := .null
  votes : Option (Dict String Vote) := none
  error : Option Caught := none

def voteAccounts (response : Response) : Except Raised (Dict String Vote) := do
  let accounts ← rpcCall .getVoteAccounts response
  reading (readVoteAccounts accounts)

def probeReference (ask : Method → Response) (cluster : Cluster) : Except Exn Reference :=
  guarded (rpcCall .getSlot (ask .getSlot)) (fun e => { error := some e }) fun slot =>
  guarded (solanaCore (ask .getVersion)) (fun e => { slot, error := some e }) fun version =>
  if cluster.nodes.any fun n => Text.truthy n.identity then
    guarded (voteAccounts (ask .getVoteAccounts))
      (fun e => { slot, version, error := some e }) fun votes =>
    .ok { slot, version, votes := some votes }
  else .ok { slot, version }

/-- Who makes a call: the probe of a reference, or of one node of a cluster. -/
inductive Asker where
  | reference (cluster : String)
  | node (cluster name : String)
  deriving DecidableEq

/-- How every endpoint behaves on every request. A probe of the fleet makes no request
twice, so whatever the endpoints do over time, and in whatever order the gathered calls
reach them, they behave as one such world. -/
abbrev World := String → Asker → Method → Response

structure FoundCluster where
  name : String
  referenceRpc : String
  referenceSlot : Json
  referenceVersion : Json
  referenceError : Option Caught
  nodes : List Status

def World.asNode (w : World) (clusterName : String) (node : Node) : Method → Response :=
  w (node.rpcUrl.getD "") (.node clusterName node.name)

def World.asReference (w : World) (clusterName : String) (cluster : Cluster) :
    Method → Response :=
  w cluster.referenceRpc (.reference clusterName)

def probeCluster (w : World) (name : String) (cluster : Cluster) : Except Exn FoundCluster := do
  let found ← probeReference (w.asReference name cluster) cluster
  let nodes ← gather (cluster.nodes.map fun node =>
    probeNode (w.asNode name node) name node found.slot found.votes)
  pure
    { name
      referenceRpc := cluster.referenceRpc
      referenceSlot := found.slot
      referenceVersion := found.version
      referenceError := found.error
      nodes }

def probeFleet (w : World) (fleet : Fleet) : Except Exn (List FoundCluster) :=
  gather (fleet.clusters.entries.map fun entry => probeCluster w entry.1 entry.2)

end Probe

end Solfleet
