import WireGuardControl.Config
/-!
Updates that are too large for one message.

* `Config.isLarge`: more peers or more networks than one message is given.
* `Config.batches`: the updates that are sent in place of one. A large update is split into
  one peer and at most `networksPerBatch` networks each, in order; a peer's settings go with
  its first part, so that later parts only add networks, and all peers are discarded at most
  once, by the first part of all.
-/

namespace WireGuardControl

/-- The most networks that one part of a large update holds. -/
def networksPerBatch : Nat := 256

/-- The most peers of an update that is not large. -/
def peersPerBatch : Nat := 32

/-- Cuts a list into runs of `size` members, the last of which may be shorter; an empty list
is one empty run. -/
def chunks {α : Type} (size : Nat) (xs : List α) : List (List α) :=
  if xs.length ≤ size ∨ size = 0 then [xs] else xs.take size :: chunks size (xs.drop size)
  termination_by xs.length
  decreasing_by simp only [List.length_drop]; omega

namespace PeerConfig

/-- A part of an update that only adds networks; it is aimed at the same peer in the same
way. -/
def part (p : PeerConfig) (networks : List Network) : PeerConfig where
  publicKey := p.publicKey
  remove := p.remove
  updateOnly := p.updateOnly
  allowedIps := networks

/-- The first part of an update, which also holds the settings of the peer. -/
def leadingPart (p : PeerConfig) (networks : List Network) : PeerConfig :=
  { p with allowedIps := networks }

/-- The parts of an update of a peer; `seen` tells whether an earlier update was for the same
peer, and then the settings are left out. -/
def parts (p : PeerConfig) (seen : Bool) : List PeerConfig :=
  match chunks networksPerBatch p.allowedIps with
  | [] => []
  | first :: later =>
      (if seen then p.part first else p.leadingPart first) :: later.map p.part

/-- The parts of updates of peers, some of which, those with the keys `seen`, have been updated
before. -/
def allParts (seen : List Key) : List PeerConfig → List PeerConfig
  | [] => []
  | p :: rest => p.parts (p.publicKey ∈ seen) ++ allParts (p.publicKey :: seen) rest

end PeerConfig

namespace Config

/-- Whether an update is too large for one message. -/
def isLarge (c : Config) : Bool :=
  peersPerBatch < c.peers.length || networksPerBatch < c.allowedIpCount

/-- The part of an update that is for one peer. -/
def onePeer (c : Config) (p : PeerConfig) : Config := { c with peers := [p] }

/-- The same update, which keeps the peers that exist. -/
def keepingPeers (c : Config) : Config := { c with replacePeers := false }

/-- The updates that are sent in place of one, in order. -/
def batches (c : Config) : List Config :=
  if c.isLarge then
    match PeerConfig.allParts [] c.peers with
    | [] => []
    | first :: later => c.onePeer first :: later.map fun p => (c.onePeer p).keepingPeers
  else [c]

end Config

end WireGuardControl
