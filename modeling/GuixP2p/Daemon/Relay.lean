import GuixP2p.Daemon.FetchInvariants
import GuixP2p.Daemon.Handshake

/-!
# GuixP2p.Daemon.Relay

**Several relay connections on one swarm.** Every relay connection of the daemon
handles its own substitute request, but all of them send their block requests
through the one swarm task, and the swarm task broadcasts every notification to all
of them (`src/channel.rs`, `src/runtime.rs`). A `BlockResponse` notification carries
the sender and the message; neither says which request, or which NAR, it answers.

`System.step` lets the events of the connections, the answers of the peers and the
failures of requests interleave in any way. Two components are *ghost* state that no
code reads and the results need: each queued notification remembers the request it
answers, and `answered` is the log of all answers.
-/

namespace GuixP2p

open GuixP2p.Lib

/-- A notification in a connection's queue, with the request it answers (ghost). -/
structure Published where
  note : SwarmNotification
  answers : Option BlockRequest
  deriving DecidableEq

/-! ### Connections -/

/-- The settings a connection reads. -/
structure RelayConfig where
  fetch : FetchConfig
  blockSize : UInt64
  blockSize_pos : 0 < blockSize

/-- Blocks of four bytes, eight slots per peer and a timeout of 30 s. -/
def sampleConfig : RelayConfig := ⟨⟨8, 30⟩, 4, BlockInfo.four_pos⟩

/-- Where a connection is in `try_p2p_download`. -/
inductive Phase
  /-- No download, or waiting for providers. -/
  | idle
  /-- In `handshake_with_providers`, with what an earlier round collected. -/
  | handshake (earlier : List PeerHandshake) (round : Round)
  /-- Between rounds, or before the download. -/
  | collected (narHash : Digest) (handshakes : List PeerHandshake)
  /-- In `download_blocks_from_peers`. -/
  | download (narHash : Digest) (d : BlockDownload)

structure Connection where
  queue : List Published
  phase : Phase

inductive ConnEvent
  /-- The connection is opened: it subscribes to the notifications sent from now on. -/
  | subscribe
  /-- The queue overflowed and lost its oldest notifications. -/
  | lagged (n : Nat)
  | recv
  | beginHandshake (narHash : Digest) (providers : List PeerId) (maxPeers : Nat) (now : Instant)
  /-- A second passed without notification. -/
  | tick (now : Instant)
  | endHandshake
  /-- The download is set up, in whatever order its hash maps are iterated. -/
  | beginDownload (narSize : UInt64) (setUp : BlockDownload)
  | dispatch (now : Instant)
  | expire (now : Instant)
  | finish

/-- What leaves a loop over the notifications: a finished round, or a failed download. -/
def Phase.leaveLoop : Phase → Phase
  | .handshake earlier round => .collected round.narHash (earlier ++ round.results)
  | .download _ _ => .idle
  | phase => phase

variable [Sha256]

namespace Connection

/-- A connection takes the next notification. What it does not wait for it drops. -/
def recv (cfg : RelayConfig) (k : Connection) : Except Panic Connection :=
  match k.queue with
  | [] => .ok k
  | n :: queue =>
    match k.phase, n.note with
    | .handshake earlier round, .blockResponse peer response =>
      match PeerHandshake.ofReply peer response with
      | some hs => .ok ⟨queue, .handshake earlier (round.reply hs)⟩
      | none => .ok ⟨queue, k.phase⟩
    | .download narHash d, .blockResponse peer (.blocks data) =>
      match d.step cfg.fetch (.response peer data) with
      | .error p => .error p
      | .ok d' => .ok ⟨queue, .download narHash d'⟩
    | .download narHash d, .blockRequestFailed peer =>
      match d.step cfg.fetch (.requestFailed peer) with
      | .error p => .error p
      | .ok d' => .ok ⟨queue, .download narHash d'⟩
    | phase, _ => .ok ⟨queue, phase⟩

/-- One event of a connection, with the requests it hands to the swarm task. -/
def step (cfg : RelayConfig) (k : Connection) :
    ConnEvent → Except Panic (Connection × List (PeerId × BlockRequest))
  | .subscribe => .ok (⟨[], .idle⟩, [])
  | .lagged n => .ok (⟨k.queue.drop n, k.phase.leaveLoop⟩, [])
  | .recv =>
    match k.recv cfg with
    | .error p => .error p
    | .ok k' => .ok (k', [])
  | .beginHandshake narHash providers maxPeers now =>
    let round := Round.start narHash providers maxPeers now
    let requests := (Round.contacts providers maxPeers).map fun p => (p, round.request)
    match k.phase with
    | .idle => .ok (⟨k.queue, .handshake [] round⟩, requests)
    | .collected narHash' handshakes =>
      if narHash' = narHash then .ok (⟨k.queue, .handshake handshakes round⟩, requests)
      else .ok (k, [])
    | _ => .ok (k, [])
  | .tick now =>
    match k.phase with
    | .handshake earlier round =>
      .ok (⟨k.queue, .handshake earlier (round.tick now)⟩,
        (round.retries now).map fun p => (p, round.request))
    | _ => .ok (k, [])
  | .endHandshake =>
    match k.phase with
    | .handshake _ _ => .ok (⟨k.queue, k.phase.leaveLoop⟩, [])
    | _ => .ok (k, [])
  | .beginDownload narSize setUp =>
    match k.phase with
    | .collected narHash (first :: rest) =>
      if (BlockDownload.start (Hex.encode narHash.toList) narSize
          (downloadBlockInfo narSize cfg.blockSize cfg.blockSize_pos first)
          (first :: rest)).SameMaps setUp then
        .ok (⟨k.queue, .download narHash setUp⟩, [])
      else .ok (k, [])
    | _ => .ok (k, [])
  | .dispatch now =>
    match k.phase with
    | .download narHash d =>
      match d.step cfg.fetch (.dispatch now) with
      | .error p => .error p
      | .ok d' => .ok (⟨k.queue, .download narHash d'⟩,
          batchRequests narHash.toList (d.requests cfg.fetch (.dispatch now)))
    | _ => .ok (k, [])
  | .expire now =>
    match k.phase with
    | .download narHash d =>
      match d.step cfg.fetch (.expire now) with
      | .error p => .error p
      | .ok d' => .ok (⟨k.queue, .download narHash d'⟩, [])
    | _ => .ok (k, [])
  | .finish => .ok (⟨k.queue, .idle⟩, [])

end Connection

/-! ### The system -/

/-- One answer a peer gave (ghost). -/
structure Answer where
  peer : PeerId
  request : BlockRequest
  response : BlockResponse
  deriving DecidableEq

structure System where
  conns : Nat → Connection
  /-- Requests sent and not answered yet. -/
  wire : List (PeerId × BlockRequest)
  answered : List Answer

inductive SystemEvent
  | conn (c : Nat) (e : ConnEvent)
  /-- The `i`-th outstanding request is answered. -/
  | answer (i : Nat) (response : BlockResponse)
  /-- The `i`-th outstanding request fails. -/
  | fail (i : Nat)
  | providersFound (hash : Text) (peers : List PeerId)

namespace System

/-- Before the first connection is opened. -/
def init : System := ⟨fun _ => ⟨[], .idle⟩, [], []⟩

/-- The swarm task broadcasts a notification. -/
def publish (s : System) (n : Published) : System :=
  { s with conns := fun c => ⟨(s.conns c).queue ++ [n], (s.conns c).phase⟩ }

def step (cfg : RelayConfig) (s : System) : SystemEvent → Except Panic System
  | .conn c e =>
    match (s.conns c).step cfg e with
    | .error p => .error p
    | .ok (k, requests) =>
      .ok { s with conns := Function.update s.conns c k, wire := s.wire ++ requests }
  | .answer i response =>
    match s.wire[i]? with
    | none => .ok s
    | some (peer, request) =>
      .ok { s.publish ⟨.blockResponse peer response, some request⟩ with
            wire := s.wire.eraseIdx i
            answered := s.answered ++ [⟨peer, request, response⟩] }
  | .fail i =>
    match s.wire[i]? with
    | none => .ok s
    | some (peer, request) =>
      .ok { s.publish ⟨.blockRequestFailed peer, some request⟩ with wire := s.wire.eraseIdx i }
  | .providersFound hash peers => .ok (s.publish ⟨.providersFound hash peers, none⟩)

end System

end GuixP2p
