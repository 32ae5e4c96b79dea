import GuixP2p.Daemon.BlockFetch

/-!
# GuixP2p.Config

The settings of `src/config.rs` that the request handlers read. A configuration file may
set them to anything; the block size in particular may be zero.
-/

namespace GuixP2p

/-- Where the daemon gets NARs from. -/
inductive SubstitutePolicy
  | p2pOnly
  | p2pFirst
  | httpFirst
  deriving DecidableEq, Repr

/-- Which downloads are cached and seeded. -/
inductive AutoSeedDownloads
  | off
  | p2p
  | all
  deriving DecidableEq, Repr

namespace AutoSeedDownloads

def shouldSeedP2p : AutoSeedDownloads → Bool
  | .p2p | .all => true
  | .off => false

def shouldSeedHttp : AutoSeedDownloads → Bool
  | .all => true
  | .p2p | .off => false

end AutoSeedDownloads

structure Config where
  substituteUrls : List Text
  substitutePolicy : SubstitutePolicy
  autoSeedDownloads : AutoSeedDownloads
  localNarinfoPath : Option Text
  minProviders : Nat
  maxPeersPerDownload : Nat
  maxInFlightBlocksPerPeer : Nat
  requestTimeoutSecs : UInt64
  stallTimeoutSecs : UInt64
  blockSize : UInt64

/-- The settings of the block scheduler. -/
def Config.fetch (cfg : Config) : FetchConfig :=
  ⟨cfg.maxInFlightBlocksPerPeer, cfg.stallTimeoutSecs.toNat⟩

end GuixP2p
