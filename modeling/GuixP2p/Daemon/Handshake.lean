import GuixP2p.Daemon.BlockFetch

/-!
# GuixP2p.Daemon.Handshake

`handshake_with_providers` of `src/daemon.rs`: one round of handshakes with the
providers of a NAR, and how a reply on the wire becomes a `PeerHandshake`.

A round is a small machine. It is started for some providers (`Round.start`),
consumes handshake replies (`Round.reply`), retries after a second without
notification (`Round.tick`) and ends as its loop does (`Round.finished`), charging
the peers that did not answer (`Round.failures`). A reply is matched with the round
by its sender alone: the message names no NAR.
-/

namespace GuixP2p

open GuixP2p.Lib

/-! ### Replies -/

/-- The first 32 bytes of a hash, padded with zeros. -/
def blockHashArray (hash : Bytes) : Digest := Vector.ofFn fun i => hash.getD i 0

/-- Convert wire-format hashes into fixed-size SHA-256 arrays. -/
def normalizeBlockHashes (blockHashes : List Bytes) : List Digest :=
  blockHashes.map blockHashArray

theorem blockHashArray_toList (d : Digest) : blockHashArray d.toList = d := by
  refine Vector.ext fun i hi => ?_
  simp [blockHashArray, List.getD]

/-- The handshake a reply from `peer` stands for; the block size it carries is not
read. -/
def PeerHandshake.ofReply (peer : PeerId) : BlockResponse → Option PeerHandshake
  | .handshakeReply blocksAvailable blockCount _ blockHashes =>
    some { peer, blocksAvailable, blockHashes := normalizeBlockHashes blockHashes, blockCount }
  | .blocks _ => none
  | .error _ => none

theorem PeerHandshake.peer_of_ofReply {peer : PeerId} {r : BlockResponse} {hs : PeerHandshake}
    (h : PeerHandshake.ofReply peer r = some hs) : hs.peer = peer := by
  cases r with
  | handshakeReply available count size hashes => rw [← Option.some.inj h]
  | blocks data => cases h
  | error message => cases h

/-! ### Rounds -/

/-- A provider that has not answered yet. -/
structure PendingHandshake where
  attempts : Nat
  lastSent : Instant
  deriving DecidableEq

structure Round where
  narHash : Digest
  max : Nat
  pending : Table PeerId PendingHandshake
  results : List PeerHandshake
  deadline : Instant

namespace Round

/-- The request a round sends, first and on each retry. -/
def request (r : Round) : BlockRequest := .handshake r.narHash.toList

/-- A round for the first `max` providers; a request goes out to each of them. -/
def start (narHash : Digest) (providers : List PeerId) (maxPeers : Nat) (now : Instant) : Round :=
  let max := min providers.length maxPeers
  { narHash, max
    pending := Table.ofPairs ((providers.take max).map fun p => (p, ⟨1, now⟩))
    results := []
    deadline := now + 15000 }

/-- The peers a starting round contacts, in order. -/
def contacts (providers : List PeerId) (maxPeers : Nat) : List PeerId :=
  providers.take (min providers.length maxPeers)

/-- The loop condition fails, or the deadline has passed. -/
def finished (r : Round) (now : Instant) : Bool :=
  r.pending.entries.isEmpty || decide (r.max ≤ r.results.length) || decide (r.deadline ≤ now)

/-- A handshake reply. One from a peer that is not pending is ignored as unsolicited. -/
def reply (r : Round) (hs : PeerHandshake) : Round :=
  if hs.peer ∈ r.pending then
    { r with results := r.results ++ [hs], pending := r.pending.erase hs.peer }
  else r

/-- Is this provider asked again? Twice more at most, three seconds apart. -/
def due (now : Instant) (p : PendingHandshake) : Bool :=
  decide (p.attempts < 3) && decide (3000 ≤ now - p.lastSent)

/-- A second has passed without notification: ask the providers that are due again. -/
def tick (r : Round) (now : Instant) : Round :=
  { r with pending := r.pending.mapValues fun p =>
      if due now p then ⟨p.attempts + 1, now⟩ else p }

/-- The peers a tick asks again. -/
def retries (r : Round) (now : Instant) : List PeerId :=
  (r.pending.entries.filter fun e => due now e.2).map (·.1)

/-- The peers charged a failure when the round ends. -/
def failures (r : Round) : List PeerId := r.pending.keys

/-! ### What a round waits for -/

theorem mem_pending_start {narHash : Digest} {providers : List PeerId} {maxPeers : Nat}
    {now : Instant} {p : PeerId} :
    p ∈ (start narHash providers maxPeers now).pending ↔ p ∈ contacts providers maxPeers := by
  simp [start, contacts, Function.comp_def]

theorem mem_results_reply {r : Round} {hs x : PeerHandshake} :
    x ∈ (r.reply hs).results ↔ x ∈ r.results ∨ (x = hs ∧ hs.peer ∈ r.pending) := by
  unfold reply
  split
  next hmem => simp [hmem]
  next hmem => simp [hmem]

theorem mem_pending_of_reply {r : Round} {hs : PeerHandshake} {p : PeerId}
    (h : p ∈ (r.reply hs).pending) : p ∈ r.pending := by
  unfold reply at h
  split at h
  · exact (AList.mem_erase.mp h).2
  · exact h

@[simp] theorem narHash_reply (r : Round) (hs : PeerHandshake) :
    (r.reply hs).narHash = r.narHash := by
  unfold reply
  split <;> rfl

end Round

end GuixP2p
