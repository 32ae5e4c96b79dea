import Mathlib.Data.List.Sort
import GuixP2p.Basic

/-!
# GuixP2p.PeerStore

`src/peer_store.rs`: the disk-backed list of recently reachable peers.

Multiaddrs and peer identities are parsed and printed by the libp2p crates, and the file is read
and written by `serde_json`; `MultiaddrLib` and `PeerStoreFormat` package these functions. The
clock, the addresses of the local interfaces and the outcome of a write come from outside.
-/

namespace GuixP2p

/-! ### Addresses -/

structure Ipv4Addr where
  octets : UInt8 × UInt8 × UInt8 × UInt8
  deriving DecidableEq

namespace Ipv4Addr

def isUnspecified (ip : Ipv4Addr) : Bool := decide (ip.octets = (0, 0, 0, 0))

def isLoopback (ip : Ipv4Addr) : Bool := decide (ip.octets.1 = 127)

def isPrivate (ip : Ipv4Addr) : Bool :=
  match ip.octets with
  | (10, _, _, _) => true
  | (172, b, _, _) => decide (16 ≤ b ∧ b ≤ 31)
  | (192, 168, _, _) => true
  | _ => false

def isLinkLocal (ip : Ipv4Addr) : Bool := decide (ip.octets.1 = 169 ∧ ip.octets.2.1 = 254)

end Ipv4Addr

structure Ipv6Addr where
  segments : Vector UInt16 8
  deriving DecidableEq

namespace Ipv6Addr

def isUnspecified (ip : Ipv6Addr) : Bool := decide (ip.segments = #v[0, 0, 0, 0, 0, 0, 0, 0])

def isLoopback (ip : Ipv6Addr) : Bool := decide (ip.segments = #v[0, 0, 0, 0, 0, 0, 0, 1])

def isUniqueLocal (ip : Ipv6Addr) : Bool := decide (ip.segments[0] &&& 0xfe00 = 0xfc00)

def isUnicastLinkLocal (ip : Ipv6Addr) : Bool := decide (ip.segments[0] &&& 0xffc0 = 0xfe80)

end Ipv6Addr

inductive IpAddr
  | v4 (ip : Ipv4Addr)
  | v6 (ip : Ipv6Addr)
  deriving DecidableEq

/-- A component of a multiaddr; the daemon tells IP addresses and peer identities from the rest. -/
inductive Protocol
  | ip4 (ip : Ipv4Addr)
  | ip6 (ip : Ipv6Addr)
  | p2p (peer : PeerId)
  | other (text : Text)
  deriving DecidableEq

abbrev Multiaddr := List Protocol

/-- Reading and writing multiaddrs and peer identities. -/
class MultiaddrLib where
  parseMultiaddr : Text → Option Multiaddr
  multiaddrText : Multiaddr → Text
  parsePeerId : Text → Option PeerId
  peerIdText : PeerId → Text

/-- The addresses of the local interfaces, if they can be read. -/
abbrev LocalIps := Option (List IpAddr)

/-- Without the peer identity at the end. -/
def normalizeAddress (address : Multiaddr) : Multiaddr :=
  match address.getLast? with
  | some (.p2p _) => address.dropLast
  | _ => address

def isUnspecified (address : Multiaddr) : Bool :=
  address.any fun
    | .ip4 ip => ip.isUnspecified
    | .ip6 ip => ip.isUnspecified
    | _ => false

def isLoopback (address : Multiaddr) : Bool :=
  address.any fun
    | .ip4 ip => ip.isLoopback
    | .ip6 ip => ip.isLoopback
    | _ => false

def cleanAddress (address : Multiaddr) : Option Multiaddr :=
  let addr := normalizeAddress address
  if isUnspecified addr then none else if isLoopback addr then none else some addr

/-- The first IP address. -/
def multiaddrIp (address : Multiaddr) : Option IpAddr :=
  address.findSome? fun
    | .ip4 ip => some (.v4 ip)
    | .ip6 ip => some (.v6 ip)
    | _ => none

def isLocalInterfaceAddress (localIps : LocalIps) (address : Multiaddr) : Bool :=
  match multiaddrIp address, localIps with
  | some ip, some ips => decide (ip ∈ ips)
  | _, _ => false

def cleanPeerAddress (localIps : LocalIps) (address : Multiaddr) : Option Multiaddr :=
  match cleanAddress address with
  | none => none
  | some addr => if isLocalInterfaceAddress localIps addr then none else some addr

def hasPrivateIp (address : Multiaddr) : Bool :=
  address.any fun
    | .ip4 ip => ip.isPrivate || ip.isLinkLocal
    | .ip6 ip => ip.isUniqueLocal || ip.isUnicastLinkLocal
    | _ => false

/-- Return true when an address is suitable for non-LAN peer advertisement. -/
def isPublicPeerAddress (localIps : LocalIps) (address : Multiaddr) : Bool :=
  match cleanPeerAddress localIps address with
  | none => false
  | some addr => !hasPrivateIp addr

/-! ### Entries -/

structure PeerStoreEntry where
  peerId : Text
  address : Text
  lastSeen : UInt64
  deriving DecidableEq

/-- `serde_json` on the file. -/
class PeerStoreFormat where
  toStringPretty : List PeerStoreEntry → Text
  fromStr : Text → Option (List PeerStoreEntry)

def maxPeerAgeSecs : Nat := 30 * 24 * 60 * 60

/-- What an entry is recognised by. -/
def PeerStoreEntry.key (entry : PeerStoreEntry) : Text × Text := (entry.peerId, entry.address)

/-- `now_unix().saturating_sub(MAX_PEER_AGE_SECS)`. -/
def minSeen (now : UInt64) : Nat := now.toNat - maxPeerAgeSecs

/-- Older than 30 days. -/
def PeerStoreEntry.stale (now : UInt64) (entry : PeerStoreEntry) : Bool :=
  decide (entry.lastSeen.toNat < minSeen now)

/-- What pruning finds around it. -/
structure PruneWorld where
  now : UInt64
  localIps : LocalIps

structure PeerStore where
  maxEntries : Nat
  entries : List PeerStoreEntry

/-- How a save ends; a file that could not be written may be left in any state. -/
inductive SaveOutcome
  | written
  | failed (left : Option Text)

/-- What recording an address finds around it: the interfaces and the clock when the address is
checked and entered, and then those that pruning reads. -/
structure RecordWorld where
  localIps : LocalIps
  now : UInt64
  prune : PruneWorld
  save : SaveOutcome

section

variable [MultiaddrLib]

open MultiaddrLib

def PeerStoreEntry.fullMultiaddr (localIps : LocalIps) (entry : PeerStoreEntry) : Option Multiaddr :=
  match parsePeerId entry.peerId, parseMultiaddr entry.address with
  | some peer, some address =>
    (cleanPeerAddress localIps address).map fun addr => addr ++ [.p2p peer]
  | _, _ => none

def PeerStoreEntry.publicFullMultiaddr (localIps : LocalIps) (entry : PeerStoreEntry) : Option Multiaddr :=
  match parsePeerId entry.peerId, parseMultiaddr entry.address with
  | some peer, some address =>
    if isPublicPeerAddress localIps address then some (address ++ [.p2p peer]) else none
  | _, _ => none

/-- An entry that pruning keeps, unless its key has been seen before. -/
def PeerStoreEntry.keepable (world : PruneWorld) (entry : PeerStoreEntry) : Bool :=
  !(entry.stale world.now || (entry.fullMultiaddr world.localIps).isNone)

/-- `retain` with the keys seen so far. -/
def retainEntries (world : PruneWorld) : List (Text × Text) → List PeerStoreEntry → List PeerStoreEntry
  | _, [] => []
  | seen, entry :: rest =>
    if entry.keepable world then
      if entry.key ∈ seen then retainEntries world seen rest
      else entry :: retainEntries world (entry.key :: seen) rest
    else retainEntries world seen rest

namespace PeerStore

/-- Most recent first. -/
def NewerFirst (a b : PeerStoreEntry) : Prop := b.lastSeen ≤ a.lastSeen

instance : DecidableRel NewerFirst := fun a b => inferInstanceAs (Decidable (b.lastSeen ≤ a.lastSeen))

/-- `sort_by_key` and insertion sort are both stable. -/
def prune (world : PruneWorld) (store : PeerStore) : PeerStore :=
  { store with
    entries := ((retainEntries world [] store.entries).insertionSort NewerFirst).take store.maxEntries }

/-- Return stored peers as full `/p2p/<peer-id>` multiaddrs. -/
def bootstrapPeers (localIps : LocalIps) (store : PeerStore) : List Text :=
  store.entries.filterMap fun entry => (entry.publicFullMultiaddr localIps).map multiaddrText

variable [PeerStoreFormat]

/-- The entries in a file; a file that cannot be read or parsed has none. -/
def fileEntries (file : Option Text) : List PeerStoreEntry :=
  (file.bind PeerStoreFormat.fromStr).getD []

/-- Load the peer store. The file is not written. -/
def load (world : PruneWorld) (maxEntries : Nat) (file : Option Text) : PeerStore :=
  prune world ⟨maxEntries, fileEntries file⟩

/-- The file after a save. -/
def save (store : PeerStore) : SaveOutcome → Option Text
  | .written => some (PeerStoreFormat.toStringPretty store.entries)
  | .failed left => left

/-- Set the time of the entry with this key, or enter it. -/
def touch (key : Text × Text) (now : UInt64) : List PeerStoreEntry → List PeerStoreEntry
  | [] => [⟨key.1, key.2, now⟩]
  | entry :: rest =>
    if entry.key = key then { entry with lastSeen := now } :: rest else entry :: touch key now rest

/-- Record a reachable address for a peer. -/
def recordAddress (peer : PeerId) (address : Multiaddr) (world : RecordWorld) (store : PeerStore)
    (file : Option Text) : PeerStore × Option Text :=
  match cleanPeerAddress world.localIps address with
  | none => (store, file)
  | some address =>
    let key := (peerIdText peer, multiaddrText address)
    let store := prune world.prune { store with entries := touch key world.now store.entries }
    (store, store.save world.save)

/-- Remove a failed address for a peer from the persistent peer store. -/
def removeAddress (peer : PeerId) (address : Multiaddr) (outcome : SaveOutcome) (store : PeerStore)
    (file : Option Text) : PeerStore × Option Text :=
  let key := (peerIdText peer, multiaddrText (normalizeAddress address))
  let entries := store.entries.filter fun entry => !decide (entry.key = key)
  let after : PeerStore := { store with entries }
  (after, if entries.length ≠ store.entries.length then after.save outcome else file)

end PeerStore

end

end GuixP2p
