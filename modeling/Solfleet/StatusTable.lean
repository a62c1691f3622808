import Solfleet.Library.Text
import Solfleet.Operations
import Solfleet.Probe

/-! # The status command

The table of a probe and the test behind the command's exit code.
-/

namespace Solfleet

/-! ## Rows -/

def Role.text : Role → String
  | .rpc => "rpc"
  | .validator => "validator"

/-- `n.error and not n.reachable` -/
def NodeStatus.down (n : NodeStatus) : Bool := Text.truthy n.error && !n.reachable

def healthCell (n : NodeStatus) : String :=
  if n.down then "UNREACHABLE"
  else if n.healthy = some true then "ok"
  else if n.healthy = some false then "BEHIND"
  else "-"

def voteCell (n : NodeStatus) : String :=
  if n.delinquent = some true then "DELINQUENT"
  else if n.delinquent = some false then "voting"
  else "-"

def lagCell (n : NodeStatus) : String :=
  match n.slotLag with
  | none => "-"
  | some lag => toString lag

def versionCell (n : NodeStatus) : String :=
  if Text.truthy n.version then n.version.getD "" else "-"

def tableRow (cluster : ClusterStatus) (n : NodeStatus) : List String :=
  [cluster.name, n.name, n.role.text, healthCell n, versionCell n, lagCell n, voteCell n]

def tableHeaders : List String :=
  ["CLUSTER", "NODE", "ROLE", "HEALTH", "VERSION", "SLOT LAG", "VOTE"]

def tableRows (clusters : List ClusterStatus) : List (List String) :=
  clusters.flatMap fun cluster => cluster.nodes.map (tableRow cluster)

/-! ## The table -/

/-- `s.ljust(width)` -/
def ljust (s : String) (width : Nat) : String :=
  s ++ String.ofList (List.replicate (width - s.length) ' ')

/-- The widest cell of every column. -/
def columnWidths (rows : List (List String)) : List Nat :=
  rows.foldl (fun widths row => List.zipWith (fun w c => max w c.length) widths row)
    (tableHeaders.map String.length)

def tableLine (widths : List Nat) (cells : List String) : String :=
  "  ".intercalate (List.zipWith ljust cells widths)

def tableWarnings (clusters : List ClusterStatus) : List String :=
  clusters.filterMap fun cluster =>
    if Text.truthy cluster.referenceError then
      some ("warning: " ++ cluster.name ++ ": " ++ cluster.referenceError.getD "")
    else none

def formatTable (clusters : List ClusterStatus) : String :=
  let rows := tableRows clusters
  let widths := columnWidths rows
  "\n".intercalate
    ((tableHeaders :: rows).map (tableLine widths) ++ tableWarnings clusters)

/-! ## The exit code -/

/-- What the exit code of the command looks for in a node. -/
def NodeStatus.flagged (n : NodeStatus) : Bool :=
  n.healthy == some false || n.down || n.delinquent == some true

def unhealthy (clusters : List ClusterStatus) : Bool :=
  clusters.any fun cluster => cluster.nodes.any (·.flagged)

end Solfleet
