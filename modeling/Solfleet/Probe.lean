import Mathlib.Data.Rat.Defs
import Solfleet.Config

/-! # Probe results

What a probe of the fleet returns, per node and per cluster.
-/

namespace Solfleet

structure NodeStatus where
  name : String
  cluster : String
  role : Role
  reachable : Bool := false
  healthy : Option Bool := none
  version : Option String := none
  slot : Option Int := none
  slotLag : Option Int := none
  delinquent : Option Bool := none
  activatedStakeSol : Option Rat := none
  voteCredits : Option Int := none
  lastVote : Option Int := none
  error : Option String := none
  deriving DecidableEq

structure ClusterStatus where
  name : String
  referenceRpc : String
  referenceSlot : Option Int := none
  referenceVersion : Option String := none
  referenceError : Option String := none
  nodes : List NodeStatus := []
  deriving DecidableEq

end Solfleet
