import Mathlib.Data.Finset.Card
import Mathlib.Data.Finset.Dedup
import Mathlib.Data.List.MinMax
import Mathlib.Data.Prod.Lex
import GuixP2p.Swarm.Codec
import GuixP2p.Swarm.Downloader

/-!
# GuixP2p.Daemon.BlockFetch

The block scheduler of `src/daemon.rs`: which peer is asked for which block, and
what a response, an expiry or a failed request does to that assignment.

The scheduler keeps the same fact twice: `blockStates[i]` names the peer that
block `i` was requested from, and that peer's `inFlight` set holds `i`. Four
operations update the two copies, each by its own rule:

* `dispatchBlockRequests` assigns pending blocks to peers with a free slot;
* `recordBlockResponse` hands received blocks to the `ActiveDownload`, frees the
  slots of the sender, marks accepted blocks and requeues rejected ones;
* `requeueExpiredBlocks` takes back blocks requested too long ago;
* `requeueInFlightBlocksForPeer` takes back the blocks of a peer whose request
  failed.

`FetchEvent` and `BlockDownload.step` make them the events of one machine, so that
a run is any interleaving of them.
-/

namespace GuixP2p

open GuixP2p.Lib

/-- Successful handshake with a provider. -/
structure PeerHandshake where
  peer : PeerId
  blocksAvailable : List UInt32
  blockHashes : List Digest
  blockCount : UInt32
  deriving DecidableEq

inductive BlockFetchState
  | pending
  | inFlight (peer : PeerId) (requestedAt : Instant)
  | complete
  deriving DecidableEq, Repr

/-- Per-peer state tracked while one NAR download is active. -/
structure PeerFetchState where
  available : Finset UInt32
  inFlight : Finset UInt32
  failures : Nat
  bytesReceived : Nat
  deriving DecidableEq

/-- The two tables of the scheduler. -/
@[ext] structure Scheduler where
  peerStates : Table PeerId PeerFetchState
  blockStates : List BlockFetchState
  deriving DecidableEq

/-- The slots in use at all peers together; the download loop gives up when there
are none and blocks are missing. -/
def Scheduler.inFlightTotal (s : Scheduler) : Nat :=
  (s.peerStates.values.map fun peer => peer.inFlight.card).sum

/-- The dashboard event that reports accepted blocks. -/
structure BlockReceived where
  peer : PeerId
  indices : List UInt32
  bytes : Nat
  deriving DecidableEq

/-! ### Responses -/

def decodeBlockData (data : List BlockData) : List (UInt32 × Bytes) :=
  data.map fun bd => (bd.index, bd.data)

/-- The sender's slots are freed for every index it names, accepted or not. -/
def updatePeerAfterBlockResponse (peerStates : Table PeerId PeerFetchState) (peer : PeerId)
    (blocks : List (UInt32 × Bytes)) : Table PeerId PeerFetchState :=
  peerStates.modify peer fun st =>
    { st with
      bytesReceived := st.bytesReceived + (blocks.map fun b => b.2.length).sum
      inFlight := blocks.foldl (fun s b => s.erase b.1) st.inFlight }

def emitBlocksReceived (peer : PeerId) (blocks : List (UInt32 × Bytes)) (accepted : List UInt32) :
    Option BlockReceived :=
  if accepted = [] then none
  else
    some { peer, indices := accepted
           bytes := ((blocks.filter fun b => b.1 ∈ accepted).map fun b => b.2.length).sum }

/-- One turn of the loop of `mark_accepted_blocks`. -/
def markAcceptedBlock (states : List BlockFetchState) (idx : UInt32) : List BlockFetchState :=
  match states[idx.toNat]? with
  | none => states
  | some .complete => states
  | some _ => states.set idx.toNat .complete

def markAcceptedBlocks (blockStates : List BlockFetchState) (accepted : List UInt32) :
    List BlockFetchState :=
  accepted.foldl markAcceptedBlock blockStates

/-- One turn of the loop of `requeue_rejected_blocks`. -/
def requeueRejectedBlock (peer : PeerId) (accepted : List UInt32) (states : List BlockFetchState)
    (idx : UInt32) : List BlockFetchState :=
  if idx ∈ accepted then states
  else
    match states[idx.toNat]? with
    | some (.inFlight statePeer _) => if statePeer = peer then states.set idx.toNat .pending else states
    | _ => states

def requeueRejectedBlocks (blockStates : List BlockFetchState) (peer : PeerId)
    (blocks : List (UInt32 × Bytes)) (accepted : List UInt32) : List BlockFetchState :=
  blocks.foldl (fun states b => requeueRejectedBlock peer accepted states b.1) blockStates

/-- The scheduler after a response of which `accepted` was accepted. -/
def Scheduler.afterResponse (s : Scheduler) (peer : PeerId) (blocks : List (UInt32 × Bytes))
    (accepted : List UInt32) : Scheduler where
  peerStates := updatePeerAfterBlockResponse s.peerStates peer blocks
  blockStates := requeueRejectedBlocks (markAcceptedBlocks s.blockStates accepted) peer blocks accepted

/-- One block download: the verified blocks and the scheduler's tables. -/
structure BlockDownload where
  download : ActiveDownload
  sched : Scheduler

/-- What handling one `Blocks` response yields besides the new state. -/
structure ResponseOutcome where
  newlyAccepted : Nat
  event : Option BlockReceived
  deriving DecidableEq

section

variable [Sha256]

def recordBlockResponse (s : BlockDownload) (peer : PeerId) (data : List BlockData) :
    Except Panic (BlockDownload × ResponseOutcome) :=
  let blocks := decodeBlockData data
  match s.download.recordBlocks peer blocks with
  | .error p => .error p
  | .ok (download, accepted) =>
    .ok ({ download, sched := s.sched.afterResponse peer blocks accepted },
      { newlyAccepted := accepted.length, event := emitBlocksReceived peer blocks accepted })

end

/-! ### Taking blocks back -/

/-- Make a block pending again: the peer it was requested from loses the slot and
is charged `penalty` failures. -/
def Scheduler.release (s : Scheduler) (idx : Nat) (peer : PeerId) (penalty : Nat) : Scheduler where
  peerStates := s.peerStates.modify peer fun st =>
    { st with
      inFlight := st.inFlight.erase (UInt32.ofNat idx)
      failures := st.failures + penalty }
  blockStates := s.blockStates.set idx .pending

/-- Charge a peer one failure. -/
def Scheduler.penalize (s : Scheduler) (peer : PeerId) : Scheduler :=
  { s with peerStates := s.peerStates.modify peer fun st => { st with failures := st.failures + 1 } }

/-- One turn of the loop of `requeue_expired_blocks`, with the count so far. -/
def requeueExpiredBlock (now timeout : Instant) (acc : Scheduler × Nat) (idx : Nat) :
    Scheduler × Nat :=
  match acc.1.blockStates[idx]? with
  | some (.inFlight peer requestedAt) =>
    if timeout ≤ now - requestedAt then (acc.1.release idx peer 1, acc.2 + 1) else acc
  | _ => acc

def requeueExpiredBlocks (s : Scheduler) (now timeout : Instant) : Scheduler × Nat :=
  (List.range s.blockStates.length).foldl (requeueExpiredBlock now timeout) (s, 0)

/-- One turn of the loop of `requeue_in_flight_blocks_for_peer`. -/
def requeueInFlightBlock (peer : PeerId) (acc : Scheduler × Nat) (idx : Nat) : Scheduler × Nat :=
  match acc.1.blockStates[idx]? with
  | some (.inFlight statePeer _) =>
    if statePeer = peer then (acc.1.release idx peer 0, acc.2 + 1) else acc
  | _ => acc

/-- A failed request costs the peer one failure, however many blocks it owed. -/
def requeueInFlightBlocksForPeer (s : Scheduler) (peer : PeerId) : Scheduler × Nat :=
  let r := (List.range s.blockStates.length).foldl (requeueInFlightBlock peer) (s, 0)
  if 0 < r.2 then (r.1.penalize peer, r.2) else r

/-! ### Dispatching -/

/-- The least-loaded peer with a free slot that advertises the block; ties go to
the fewest failures and then to the iteration order. -/
def choosePeer (peerStates : Table PeerId PeerFetchState) (maxInFlight : Nat) (idx : UInt32) :
    Option PeerId :=
  ((peerStates.entries.filter fun e =>
      decide (e.2.inFlight.card < maxInFlight) && decide (idx ∈ e.2.available)).argmin
    fun e => toLex (e.2.inFlight.card, e.2.failures)).map (·.1)

/-- `batches.entry(peer).or_default().push(idx)`. -/
def pushBatch (batches : Table PeerId (List UInt32)) (peer : PeerId) (idx : UInt32) :
    Table PeerId (List UInt32) :=
  match batches.lookup peer with
  | some _ => batches.modify peer fun l => l ++ [idx]
  | none => batches.insert peer [idx]

/-- Record that a block was requested from a peer. -/
def Scheduler.assign (s : Scheduler) (idx : Nat) (peer : PeerId) (now : Instant) : Scheduler where
  peerStates := s.peerStates.modify peer fun st =>
    { st with inFlight := insert (UInt32.ofNat idx) st.inFlight }
  blockStates := s.blockStates.set idx (.inFlight peer now)

/-- One turn of the loop of `dispatch_block_requests`. -/
def dispatchBlock (now : Instant) (maxInFlight : Nat)
    (acc : Scheduler × Table PeerId (List UInt32)) (idx : Nat) :
    Scheduler × Table PeerId (List UInt32) :=
  match acc.1.blockStates[idx]? with
  | some .pending =>
    match choosePeer acc.1.peerStates maxInFlight (UInt32.ofNat idx) with
    | some peer => (acc.1.assign idx peer now, pushBatch acc.2 peer (UInt32.ofNat idx))
    | none => acc
  | _ => acc

/-- Assign every pending block it can and batch the requests per peer. -/
def dispatchBlockRequests (s : Scheduler) (now : Instant) (maxInFlight : Nat) :
    Scheduler × Table PeerId (List UInt32) :=
  (List.range s.blockStates.length).foldl (dispatchBlock now maxInFlight) (s, ∅)

/-- The commands a dispatch sends to the swarm. -/
def batchRequests (narHash : Bytes) (batches : Table PeerId (List UInt32)) :
    List (PeerId × BlockRequest) :=
  batches.entries.map fun e => (e.1, .getBlocks narHash e.2)

/-! ### The download as a machine -/

/-- The settings the scheduler reads. -/
structure FetchConfig where
  maxInFlightBlocksPerPeer : Nat
  stallTimeoutSecs : Nat

def FetchConfig.maxInFlight (cfg : FetchConfig) : Nat := max cfg.maxInFlightBlocksPerPeer 1

def FetchConfig.blockTimeout (cfg : FetchConfig) : Instant := cfg.stallTimeoutSecs * 1000

/-- What can happen to a download, in any order. -/
inductive FetchEvent
  | dispatch (now : Instant)
  | response (peer : PeerId) (data : List BlockData)
  | expire (now : Instant)
  | requestFailed (peer : PeerId)
  deriving DecidableEq

/-- The block layout `try_p2p_download` hands to the download. The hash list is the
first peer's, and so is the block count when the size is unknown. -/
def downloadBlockInfo (narSize blockSize : UInt64) (hb : 0 < blockSize) (first : PeerHandshake) :
    BlockInfo :=
  if narSize = 0 then
    { blockCount := first.blockCount
      blockSize := blockSize.toNat
      lastBlockSize := blockSize.toNat
      blockHashes := first.blockHashes }
  else
    (BlockInfo.fromFileSize narSize blockSize hb).setHashes first.blockHashes

namespace BlockDownload

/-- A peer's state before anything was requested; advertised indices beyond the
last block are dropped. -/
def initialPeerState (total : Nat) (hs : PeerHandshake) : PeerFetchState where
  available := (hs.blocksAvailable.filter fun idx => idx.toNat < total).toFinset
  inFlight := ∅
  failures := 0
  bytesReceived := 0

/-- The state `download_blocks_from_peers` sets up. -/
def start (narHashHex : Text) (narSize : UInt64) (blockInfo : BlockInfo)
    (handshakes : List PeerHandshake) : BlockDownload where
  download := handshakes.foldl (fun d hs => d.addPeer hs.peer)
    (ActiveDownload.new narHashHex narSize blockInfo)
  sched :=
    { peerStates := Table.ofPairs (handshakes.map fun hs =>
        (hs.peer, initialPeerState blockInfo.blockCount.toNat hs))
      blockStates := List.replicate blockInfo.blockCount.toNat .pending }

/-- The same download, its hash maps possibly iterated in another order. -/
structure SameMaps (s t : BlockDownload) : Prop where
  narHashHex : s.download.narHashHex = t.download.narHashHex
  narSize : s.download.narSize = t.download.narSize
  blockInfo : s.download.blockInfo = t.download.blockInfo
  receivers : s.download.receivers.Equiv t.download.receivers
  peerStates : s.sched.peerStates.Equiv t.sched.peerStates
  blockStates : s.sched.blockStates = t.sched.blockStates

theorem SameMaps.refl (s : BlockDownload) : s.SameMaps s :=
  ⟨rfl, rfl, rfl, Table.Equiv.refl _, Table.Equiv.refl _, rfl⟩

instance (s t : BlockDownload) : Decidable (s.SameMaps t) :=
  decidable_of_iff
    (s.download.narHashHex = t.download.narHashHex ∧ s.download.narSize = t.download.narSize ∧
      s.download.blockInfo = t.download.blockInfo ∧
      s.download.receivers.entries.Perm t.download.receivers.entries ∧
      s.sched.peerStates.entries.Perm t.sched.peerStates.entries ∧
      s.sched.blockStates = t.sched.blockStates)
    ⟨fun h => ⟨h.1, h.2.1, h.2.2.1, h.2.2.2.1, h.2.2.2.2.1, h.2.2.2.2.2⟩,
      fun h => ⟨h.narHashHex, h.narSize, h.blockInfo, h.receivers, h.peerStates, h.blockStates⟩⟩

variable [Sha256]

/-- One event. -/
def step (cfg : FetchConfig) (s : BlockDownload) : FetchEvent → Except Panic BlockDownload
  | .dispatch now =>
    .ok { s with sched := (dispatchBlockRequests s.sched now cfg.maxInFlight).1 }
  | .response peer data =>
    match recordBlockResponse s peer data with
    | .error p => .error p
    | .ok (s', _) => .ok s'
  | .expire now =>
    .ok { s with sched := (requeueExpiredBlocks s.sched now cfg.blockTimeout).1 }
  | .requestFailed peer =>
    .ok { s with sched := (requeueInFlightBlocksForPeer s.sched peer).1 }

/-- The block requests an event sends. -/
def requests (cfg : FetchConfig) (s : BlockDownload) : FetchEvent → Table PeerId (List UInt32)
  | .dispatch now => (dispatchBlockRequests s.sched now cfg.maxInFlight).2
  | _ => ∅

end BlockDownload

end GuixP2p
