import GuixP2p.Lib.Action
import GuixP2p.Lib.FileSystem
import GuixP2p.NarStore.Serve

/-!
# GuixP2p.NarStore.Save

The saving half of `src/nar_store.rs`: a downloaded NAR goes to `<cache_dir>/<hash>.nar`,
an entry to the index and a sidecar file to `<cache_dir>/<hash>.json`.

Every file operation can fail on its own; the index entry is made between the two. The
sidecar's text format is that of an external crate (`MetadataFormat`).
-/

namespace GuixP2p

open GuixP2p.Lib

/-- A node's NAR store and the file system under it. -/
structure NarDisk where
  store : NarStore
  files : FileSystem

/-- What a file is written for. -/
inductive Target
  /-- The temporary copy of a NAR on its way to its destination. -/
  | temporary
  | destination
  /-- The NAR file of a seed. -/
  | seed (narHash : Text)
  /-- The sidecar of a seed. -/
  | metadata (narHash : Text)
  deriving DecidableEq

/-- Bytes that reached a file; `complete` if the write succeeded. -/
structure FileWrite where
  target : Target
  path : Text
  bytes : Bytes
  complete : Bool
  deriving DecidableEq

/-- Write a file; the result says whether that succeeded. -/
def writeFile (target : Target) (path : Text) (data : Bytes) (outcome : WriteOutcome) :
    Action NarDisk FileWrite Panic Bool := fun disk =>
  let (files, ok) := disk.files.write path data outcome
  ⟨(disk.files.written path data outcome).toList.map fun bytes => ⟨target, path, bytes, ok⟩,
    { disk with files }, .ok ok⟩

/-- Remove a file; the result says whether that succeeded. -/
def removeFile (path : Text) (allowed : Bool) : Action NarDisk FileWrite Panic Bool := fun disk =>
  let (files, ok) := disk.files.removeFile path allowed
  ⟨[], { disk with files }, .ok ok⟩

structure NarMetadata where
  storePath : Option Text
  source : SeedSource
  createdAt : UInt64
  updatedAt : UInt64
  deriving DecidableEq

/-- `serde_json` on the sidecar files. -/
class MetadataFormat where
  toVecPretty : NarMetadata → Bytes
  fromStr : Bytes → Option NarMetadata

/-- A format nothing is written in. -/
@[reducible] def noMetadataFormat : MetadataFormat := ⟨fun _ => [], fun _ => none⟩

/-- What a save finds around it: two readings of the clock, whether the sidecar can be
read, and how the two writes go. -/
structure SaveWorld where
  now : UInt64
  updatedAt : UInt64
  sidecarReadable : Bool
  nar : WriteOutcome
  sidecar : WriteOutcome

namespace NarStore

def narPath (store : NarStore) (narHashHex : Text) : Text :=
  store.cacheDir ++ "/".toList ++ narHashHex ++ ".nar".toList

def metadataPath (store : NarStore) (narHashHex : Text) : Text :=
  store.cacheDir ++ "/".toList ++ narHashHex ++ ".json".toList

/-- Check if we have a nar for the given hash. -/
def hasNar (store : NarStore) (narHashHex : Text) : Bool := (store.index.lookup narHashHex).isSome

end NarStore

variable [MetadataFormat]

/-- A sidecar that is missing, unreadable or malformed counts as absent. -/
def readMetadata (disk : NarDisk) (narHashHex : Text) (readable : Bool) : Option NarMetadata :=
  if readable then
    (disk.files.read (disk.store.metadataPath narHashHex)).bind MetadataFormat.fromStr
  else none

def writeMetadata (narHashHex : Text) (metadata : NarMetadata) (outcome : WriteOutcome) :
    Action NarDisk FileWrite Panic Bool := do
  let disk ← Action.get
  writeFile (.metadata narHashHex) (disk.store.metadataPath narHashHex)
    (MetadataFormat.toVecPretty metadata) outcome

/-- Save a nar; the result says whether that succeeded. A block size of zero fails an
assertion after the file was written. -/
def saveWithSource (world : SaveWorld) (narHashHex : Text) (narData : Bytes)
    (storePath : Option Text) (source : SeedSource) : Action NarDisk FileWrite Panic Bool := do
  let disk ← Action.get
  let path := disk.store.narPath narHashHex
  let createdAt :=
    match readMetadata disk narHashHex world.sidecarReadable with
    | some metadata => metadata.createdAt
    | none => world.now
  if ← writeFile (.seed narHashHex) path narData world.nar then
    let disk ← Action.get
    if hb : 0 < disk.store.blockSize then
      let narSize := UInt64.ofNat narData.length
      let entry : NarEntry :=
        { path, narSize
          blockInfo := BlockInfo.fromFileSize narSize disk.store.blockSize hb
          storePath, source, createdAt }
      Action.set
        { disk with
          store := { disk.store with index := disk.store.index.insert narHashHex entry } }
      writeMetadata narHashHex ⟨storePath, source, createdAt, world.updatedAt⟩ world.sidecar
    else Action.fault .assertionFailed
  else pure false

/-- Save a nar and retain the originating store path when it is known. -/
def saveWithStorePath (world : SaveWorld) (narHashHex : Text) (narData : Bytes)
    (storePath : Option Text) : Action NarDisk FileWrite Panic Bool :=
  saveWithSource world narHashHex narData storePath .downloaded

end GuixP2p
