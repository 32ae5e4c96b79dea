import GuixP2p.Basic

/-!
# GuixP2p.Swarm.Codec

`src/swarm/codec.rs` and `src/channel.rs`: the messages of the block exchange protocol
and how the swarm task passes them on. A reply names neither the NAR nor the request it
answers.
-/

namespace GuixP2p

/-- One indexed NAR block carried in a block response. -/
structure BlockData where
  index : UInt32
  data : Bytes
  deriving DecidableEq, Repr

/-- What a downloader asks a provider. -/
inductive BlockRequest
  /-- Which blocks of this NAR can be served, and what are their digests? -/
  | handshake (narHash : Bytes)
  /-- Send these blocks of this NAR. -/
  | getBlocks (narHash : Bytes) (indices : List UInt32)
  deriving DecidableEq, Repr

/-- The NAR a request is about. -/
def BlockRequest.narHash : BlockRequest → Bytes
  | .handshake narHash => narHash
  | .getBlocks narHash _ => narHash

/-- The blocks that a request names. -/
def BlockRequest.indices : BlockRequest → List UInt32
  | .handshake _ => []
  | .getBlocks _ indices => indices

/-- What a provider answers. -/
inductive BlockResponse
  | handshakeReply (blocksAvailable : List UInt32) (blockCount blockSize : UInt32)
      (blockHashes : List Bytes)
  | blocks (data : List BlockData)
  | error (message : Text)
  deriving DecidableEq, Repr

/-- Notifications sent from the swarm task to every relay connection. -/
inductive SwarmNotification
  | providersFound (hash : Text) (peers : List PeerId)
  | blockResponse (peer : PeerId) (response : BlockResponse)
  | blockRequestFailed (peer : PeerId)
  deriving DecidableEq

end GuixP2p
