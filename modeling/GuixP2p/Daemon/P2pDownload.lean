import GuixP2p.Daemon.DownloadLoop
import GuixP2p.Daemon.Handshake
import GuixP2p.Daemon.Protocol
import GuixP2p.HttpClient

/-!
# GuixP2p.Daemon.P2pDownload

`try_p2p_download` of `src/daemon.rs`: find providers, shake hands with them, fall back to
connected and bootstrap peers if too few answer, and download the blocks.

Which providers the DHT finds, and which of them reputation and connection backoff let
through, is up to the world the download runs in; so is everything the peers send.
-/

namespace GuixP2p

open GuixP2p.Lib

/-! ### Handshake rounds -/

/-- One turn of the loop of a round: the clock when the deadline is checked, what the wait
ended with, and the clock after it. -/
structure RoundTurn where
  deadlineAt : Instant
  waited : Waited
  tickAt : Instant

structure RoundWorld where
  startAt : Instant
  turns : List RoundTurn

/-- The loop of `handshake_with_providers`. -/
def Round.run : List RoundTurn → Round → Round
  | [], r => r
  | t :: ts, r =>
    if r.finished t.deadlineAt then r
    else
      match t.waited with
      | .note (.blockResponse peer response) =>
        match PeerHandshake.ofReply peer response with
        | some hs => Round.run ts (r.reply hs)
        | none => Round.run ts r
      | .note _ => Round.run ts r
      | .closed => r
      | .elapsed => Round.run ts (r.tick t.tickAt)

/-- Send Handshake requests and collect replies. -/
def handshakeWithProviders (world : RoundWorld) (providers : List PeerId) (narHash : Digest)
    (maxPeers : Nat) : List PeerHandshake :=
  (Round.run world.turns (Round.start narHash providers maxPeers world.startAt)).results

/-! ### Candidates -/

/-- Both lists in order, without repetitions. -/
def mergeProviderLists (left right : List PeerId) : List PeerId := (left ++ right).eraseDups

def handshakePeers (handshakes : List PeerHandshake) : List PeerId := handshakes.map (·.peer)

def excludePeers (peers exclude : List PeerId) : List PeerId := peers.filter fun p => p ∉ exclude

/-- What a P2P download meets. -/
structure P2pWorld where
  /-- What waiting for providers yields, and waiting again. -/
  providers : List PeerId
  refreshed : List PeerId
  /-- What the `k`-th selection lets through. -/
  select : Nat → List PeerId → List PeerId
  connected : List PeerId
  bootstrap : List PeerId
  round : RoundWorld
  fallbackRound : RoundWorld
  download : DownloadWorld

def fallbackPeerCandidates (world : P2pWorld) : List PeerId :=
  mergeProviderLists world.connected world.bootstrap

/-- The providers of the first round: selected again, with more of them, if the wait for
them was not a short one. -/
def selectedProviders (cfg : Config) (world : P2pWorld) (providerTimeout : UInt64) : List PeerId :=
  let selected := world.select 0 world.providers
  if selected.length < cfg.minProviders ∧ cfg.requestTimeoutSecs ≤ providerTimeout then
    world.select 1 (mergeProviderLists world.providers world.refreshed)
  else selected

/-- The candidates of the fallback round. -/
def fallbackCandidates (world : P2pWorld) (selected : List PeerId)
    (handshakes : List PeerHandshake) : List PeerId :=
  world.select 2 (excludePeers (mergeProviderLists selected (fallbackPeerCandidates world))
    (handshakePeers handshakes))

/-! ### The download -/

/-- Why there is no NAR. -/
inductive DownloadFailure
  | notEnoughHandshakes (got needed : Nat)
  | noHandshakes
  | swarm (e : DownloadError)
  | http (e : HttpClientError)

/-- The block layout of the download. -/
def p2pBlockInfo (cfg : Config) (narSize : UInt64) (handshakes : List PeerHandshake) :
    Except Panic (Except DownloadFailure BlockInfo) :=
  if narSize = 0 then
    match handshakes with
    | [] => .ok (.error .noHandshakes)
    | first :: _ =>
      .ok (.ok
        { blockCount := first.blockCount
          blockSize := cfg.blockSize.toNat
          lastBlockSize := cfg.blockSize.toNat
          blockHashes := first.blockHashes })
  else if hb : 0 < cfg.blockSize then
    match handshakes with
    | [] => .ok (.ok (BlockInfo.fromFileSize narSize cfg.blockSize hb))
    | first :: _ => .ok (.ok (downloadBlockInfo narSize cfg.blockSize hb first))
  else .error .assertionFailed

def p2pTraceUrl (hashPart : Text) : Text := "p2p://".toList ++ hashPart

def fallbackTraceUrl (hashPart : Text) : Text := "p2p+connected-fallback://".toList ++ hashPart

/-- The handshakes of the first round, if there are enough providers for one. -/
def firstHandshakes (cfg : Config) (world : P2pWorld) (narHash : Digest) (selected : List PeerId) :
    List PeerHandshake :=
  if cfg.minProviders ≤ selected.length then
    handshakeWithProviders world.round selected narHash cfg.maxPeersPerDownload
  else []

variable {σ : Type}

/-- Shake hands with providers, and with the fallback peers if too few answer. The second
result is how many handshakes it takes: one is enough if the fallback found any. -/
def collectHandshakes (cfg : Config) (world : P2pWorld) (narHash : Digest) (storePath : Text)
    (narSize : UInt64) (hashPart : Text) (providerTimeout : UInt64) :
    Action σ Effect Panic (List PeerHandshake × Nat) :=
  let selected := selectedProviders cfg world providerTimeout
  let handshakes := firstHandshakes cfg world narHash selected
  let candidates := fallbackCandidates world selected handshakes
  if handshakes.length < cfg.minProviders ∧ candidates ≠ [] then do
    Action.emit (.trace (formatTraceStarted storePath (fallbackTraceUrl hashPart) narSize.toNat))
    match handshakeWithProviders world.fallbackRound candidates narHash cfg.maxPeersPerDownload with
    | [] => pure (handshakes, cfg.minProviders)
    | more => pure (handshakes ++ more, 1)
  else pure (handshakes, cfg.minProviders)

section

variable [Sha256]

/-- The blocks from the peers that answered. -/
def fetchFromPeers (cfg : Config) (world : P2pWorld) (narHash : Digest) (narSize : UInt64)
    (handshakes : List PeerHandshake) : Except Panic (Except DownloadFailure Bytes) :=
  match p2pBlockInfo cfg narSize handshakes with
  | .error p => .error p
  | .ok (.error e) => .ok (.error e)
  | .ok (.ok blockInfo) =>
    match downloadBlocksFromPeers cfg world.download handshakes narSize blockInfo
        (Hex.encode narHash.toList) with
    | .error p => .error p
    | .ok (.error e) => .ok (.error (.swarm e))
    | .ok (.ok (nar, _)) => .ok (.ok nar)

/-- Attempt P2P swarm download. -/
def tryP2pDownload (cfg : Config) (world : P2pWorld) (narHash : Digest) (storePath : Text)
    (narSize : UInt64) (hashPart : Text) (providerTimeout : UInt64) :
    Action σ Effect Panic (Except DownloadFailure Bytes) := do
  let (handshakes, needed) ←
    collectHandshakes cfg world narHash storePath narSize hashPart providerTimeout
  if handshakes.length < needed then
    pure (.error (.notEnoughHandshakes handshakes.length needed))
  else Action.ofExcept (fetchFromPeers cfg world narHash narSize handshakes)

end

/-! ### What a download does -/

variable {I : σ → List Effect → Prop} {cfg : Config} {storePath hashPart : Text} {narSize : UInt64}
  (hI : ∀ s τ, I s τ → I s (τ ++ [.trace (formatTraceStarted storePath (fallbackTraceUrl hashPart)
    narSize.toNat)]))

include hI

theorem keeps_collectHandshakes (world : P2pWorld) (narHash : Digest) (providerTimeout : UInt64) :
    Action.Keeps I
      (collectHandshakes cfg world narHash storePath narSize hashPart providerTimeout) := by
  unfold collectHandshakes
  dsimp only
  split
  · refine Action.Keeps.bind (Action.Keeps.emit hI) fun _ => ?_
    split
    · exact Action.Keeps.pure _
    · exact Action.Keeps.pure _
  · exact Action.Keeps.pure _

/-- **A P2P download only writes to the build log.** -/
theorem keeps_tryP2pDownload [Sha256] (world : P2pWorld) (narHash : Digest)
    (providerTimeout : UInt64) :
    Action.Keeps I
      (tryP2pDownload cfg world narHash storePath narSize hashPart providerTimeout) := by
  refine Action.Keeps.bind (keeps_collectHandshakes hI _ _ _) fun r => ?_
  dsimp only
  split
  · exact Action.Keeps.pure _
  · exact Action.Keeps.ofExcept _

end GuixP2p
