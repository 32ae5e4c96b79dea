import GuixP2p.Lib.Hex
import GuixP2p.Lib.Text
import GuixP2p.PeerStore
import GuixP2p.Swarm.Codec

/-!
# GuixP2p.Dht

The daemon's use of the DHT: `src/dht.rs`, the commands of `src/runtime.rs` that look up and announce
a NAR, and the probe in `src/provider_probe.rs`.

A NAR is announced under the bytes that its store key spells. It is looked up under the bytes that
`extractHashBytes` makes of a text, which knows hexadecimal only.
-/

namespace GuixP2p

open GuixP2p.Lib

abbrev RecordKey := Bytes

abbrev QueryId := Nat

/-! ### Keys -/

/-- `[0u8; 32]`, with as much of the bytes as it has room for. -/
def paddedBytes (bytes : Bytes) : Digest := Vector.ofFn fun i => bytes.getD i 0

/-- Whether `&t[..n]` is a slice of whole characters. -/
def isCharBoundary (t : Text) (n : Nat) : Bool :=
  (List.range (t.length + 1)).any fun k => (Text.utf8 (t.take k)).length == n

/-- The bytes of a text that is no hash in hexadecimal. -/
def rawHashBytes (hexHash hex : Text) : Except Panic Digest :=
  let bytes := Text.utf8 hex
  -- the log line has the first bytes of the text, prefix and all
  if isCharBoundary hexHash (min bytes.length 16) then .ok (paddedBytes bytes)
  else .error .sliceOutOfRange

def extractHashBytes (hexHash : Text) : Except Panic Digest :=
  let hex := (hexHash.dropPrefix? "sha256:".toList).getD hexHash
  match Hex.decode hex with
  | some bytes => if 32 ≤ bytes.length then .ok (paddedBytes bytes) else rawHashBytes hexHash hex
  | none => rawHashBytes hexHash hex

def recordKeyHex (key : RecordKey) : Text := Hex.encode key

/-! ### Commands and events -/

/-- What the dashboard is told about the DHT. -/
inductive ProviderEvent
  | lookupStarted (narHash : Text)
  | lookupFinished (narHash : Text) (providerCount : Nat) (result : Text)
  | announceStarted (narHash reason : Text)
  | announceFinished (narHash result : Text) (reason : Option Text)
  deriving DecidableEq

/-- The events of the Kademlia crate that the daemon handles; `last` is the end of a query. -/
inductive KadEvent
  | foundProviders (id : QueryId) (key : RecordKey) (providers : List PeerId) (last : Bool)
  | finishedWithNoAdditionalRecord (id : QueryId) (last : Bool)
  | getProvidersTimeout (id : QueryId) (key : RecordKey) (last : Bool)
  /-- `StartProviding` or `RepublishProvider`. -/
  | provided (key : RecordKey) (result : Except Text Unit)
  | other

/-- What the swarm task keeps of the DHT. -/
structure DhtTask where
  cache : Table Text (List PeerId)
  activeProviderQueries : Table QueryId Text

/-- What one step of the swarm task asks of the Kademlia crate, and whom it tells. -/
structure DhtStep where
  task : DhtTask
  lookups : List RecordKey
  announced : List RecordKey
  notifications : List SwarmNotification
  events : List ProviderEvent

namespace DhtTask

/-- A step that has done nothing. -/
def idle (t : DhtTask) : DhtStep := { task := t, lookups := [], announced := [], notifications := [], events := [] }

def forget (t : DhtTask) (id : QueryId) (last : Bool) : DhtTask :=
  if last then { t with activeProviderQueries := t.activeProviderQueries.erase id } else t

/-- Add a peer to an entry of the provider cache. -/
def addProvider (entry : List PeerId) (peer : PeerId) : List PeerId :=
  if peer ∈ entry then entry else entry ++ [peer]

/-- What a lookup has found so far. -/
def report (t : DhtTask) (key : RecordKey) (providers : List PeerId) (result : Text) : DhtStep :=
  let keyHex := recordKeyHex key
  { t.idle with
    task := { t with cache := t.cache.upsert keyHex [] fun entry => providers.foldl addProvider entry }
    notifications := [.providersFound keyHex providers]
    events := [.lookupFinished keyHex providers.length result] }

def handleKadEvent (t : DhtTask) : KadEvent → DhtStep
  | .foundProviders id key providers last => (t.forget id last).report key providers "found".toList
  | .finishedWithNoAdditionalRecord id last =>
    match t.activeProviderQueries.lookup id with
    | none => t.idle
    | some keyHex =>
      { (t.forget id last).idle with events := [.lookupFinished keyHex 0 "empty".toList] }
  | .getProvidersTimeout id key last => (t.forget id last).report key [] "timeout".toList
  | .provided key (.ok ()) =>
    { t.idle with events := [.announceFinished (recordKeyHex key) "succeeded".toList none] }
  | .provided key (.error reason) =>
    { t.idle with events := [.announceFinished (recordKeyHex key) "failed".toList (some reason)] }
  | .other => t.idle

/-- Look a hash up; `id` is what the Kademlia crate calls the query. -/
def getProviders (t : DhtTask) (id : QueryId) (hash : Text) : Except Panic DhtStep :=
  match extractHashBytes hash with
  | .error p => .error p
  | .ok key =>
    .ok { t.idle with
          task := { t with activeProviderQueries := t.activeProviderQueries.insert id hash }
          lookups := [key.toList]
          events := [.lookupStarted hash] }

/-- The key under which a hash is announced. -/
def announceKey (hash : Text) : Option RecordKey := Hex.decode hash

/-- Announce a hash; `started` is what `start_providing` returns. What is no hexadecimal is passed
over. -/
def announceNar (t : DhtTask) (hash reason : Text) (started : Except Text Unit) : DhtStep :=
  match announceKey hash with
  | none => t.idle
  | some key =>
    match started with
    | .ok () =>
      { t.idle with announced := [key], events := [.announceStarted hash reason] }
    | .error e =>
      { t.idle with
        events := [.announceStarted hash reason, .announceFinished hash "failed".toList (some e)] }

end DhtTask

/-! ### The probe -/

/-- Commands sent from the daemon task to the swarm task. -/
inductive SwarmCommand
  | getProviders (hash : Text)
  | sendBlockRequest (peer : PeerId) (request : BlockRequest)
  | startProviding (hash : Text)
  deriving DecidableEq

namespace ProviderProbe

/-- The elapsed time is left out. -/
structure ProviderLookupProbeReport where
  narHash : Text
  dhtProviders : List Text
  fallbackCandidates : List Text
  handshakePeer : Option Text
  blockCount : Option UInt32
  success : Bool
  detail : Text
  deriving DecidableEq

/-- Each peer once, where it comes first. -/
def mergePeers (left right : List PeerId) : List PeerId := (left ++ right).foldl DhtTask.addProvider []

/-- The providers that the notifications name for the key. -/
def collectProviders (dhtKey : Text) (notes : List SwarmNotification) : List PeerId :=
  notes.foldl (fun providers note =>
    match note with
    | .providersFound hash peers => if hash = dhtKey then peers.foldl DhtTask.addProvider providers else providers
    | _ => providers) []

/-- The first handshake reply of a candidate. -/
def waitForHandshake (candidates : List PeerId) (notes : List SwarmNotification) : Option (PeerId × UInt32) :=
  notes.findSome? fun
    | .blockResponse peer (.handshakeReply _ blockCount _ _) =>
      if peer ∈ candidates then some (peer, blockCount) else none
    | _ => none

section

variable [MultiaddrLib]

open MultiaddrLib

def bootstrapPeerId (addr : Text) : Option PeerId :=
  match parseMultiaddr addr with
  | none => none
  | some addr =>
    match addr.getLast? with
    | some (.p2p peer) => some peer
    | _ => none

def bootstrapPeerIds (addrs : List Text) : List PeerId := mergePeers (addrs.filterMap bootstrapPeerId) []

def fallbackCandidates (bootstrapPeers : List Text) (connected exclude : List PeerId) : List PeerId :=
  (mergePeers connected (bootstrapPeerIds bootstrapPeers)).filter fun peer => decide (peer ∉ exclude)

/-- What the probe finds around it: the peers of the connection manager and of the configuration,
and the notifications that come in time for the lookup and for the handshake. -/
structure ProbeWorld where
  connected : List PeerId
  bootstrapPeers : List Text
  lookupNotes : List SwarmNotification
  handshakeNotes : List SwarmNotification

/-- What the probe says about the handshake. -/
def handshakeDetail : Option (PeerId × UInt32) → Text
  | some (peer, blockCount) =>
    if 0 < blockCount then
      "provider handshake succeeded with ".toList ++ peerIdText peer ++ " (".toList ++
        Text.ofNat blockCount.toNat ++ " blocks)".toList
    else "peer ".toList ++ peerIdText peer ++ " answered but did not have the NAR".toList
  | none => "no provider handshake succeeded".toList

/-- Query providers, then verify whether any discovered or fallback peer has the NAR. -/
def testProviderLookup (world : ProbeWorld) (narHash : Text) :
    Except Panic (ProviderLookupProbeReport × List SwarmCommand) :=
  match extractHashBytes narHash with
  | .error p => .error p
  | .ok hashBytes =>
    let dhtKey := Hex.encode hashBytes.toList
    let dhtProviders := collectProviders dhtKey world.lookupNotes
    let fallbackCandidates := fallbackCandidates world.bootstrapPeers world.connected dhtProviders
    let handshakeCandidates := mergePeers dhtProviders fallbackCandidates
    let handshake := waitForHandshake handshakeCandidates world.handshakeNotes
    .ok (
      { narHash := dhtKey
        dhtProviders := dhtProviders.map peerIdText
        fallbackCandidates := fallbackCandidates.map peerIdText
        handshakePeer := handshake.map fun h => peerIdText h.1
        blockCount := handshake.map (·.2)
        success := handshake.any fun h => decide (0 < h.2)
        detail := handshakeDetail handshake },
      .getProviders dhtKey ::
        handshakeCandidates.map fun peer => .sendBlockRequest peer (.handshake hashBytes.toList))

end

end ProviderProbe

end GuixP2p
