import GuixP2p.NarHash
import GuixP2p.Narinfo
import GuixP2p.NarStore.Save

/-!
# GuixP2p.NarStore.Index

The rest of `src/nar_store.rs`: the scan of the NAR directory at start-up and the operations
that change the index afterwards. Each operation takes a description of what it finds (the
clock, what Guix answers, which files can be read, how its writes go), so that an operation
can fail at any of its file operations and at no other place.

`StoreOp` collects the operations; `NarDisk.after` runs a list of them. The daemon holds a
lock around each, so no two of them overlap.
-/

namespace GuixP2p

open GuixP2p.Lib

/-! ### File names -/

/-- The stem and the extension of a file name, cut at its last dot. A name without a dot,
or with no other dot than its first character, has no extension. -/
def rsplitFileAtDot (file : Text) : Text × Option Text :=
  if file = "..".toList then (file, none)
  else
    match file.reverse.dropWhile (· ≠ '.') with
    | [] => (file, none)
    | [_] => (file, none)
    | _ :: before => (before.reverse, some (file.reverse.takeWhile (· ≠ '.')).reverse)

/-! ### Start-up -/

/-- What the scan finds: the names in the directory, in any order (`none` if it cannot be
listed), and which files can be read. -/
structure ScanWorld where
  listing : Option (List Text)
  narReadable : Text → Bool
  sidecarReadable : Text → Bool

section

variable [Sha256] [MetadataFormat]

/-- One file of the directory: it is indexed if it is called after its digest. -/
def scanFile (world : ScanWorld) (name : Text) : Action NarDisk FileWrite Panic Unit := do
  let disk ← Action.get
  match rsplitFileAtDot name with
  | (stem, some extension) =>
    if extension = "nar".toList then
      let path := disk.store.cacheDir ++ "/".toList ++ name
      match if world.narReadable stem then disk.files.read path else none with
      | none => pure ()
      | some data =>
        if Hex.encode (Sha256.digest data).toList = stem then
          if hb : 0 < disk.store.blockSize then
            let narSize := UInt64.ofNat data.length
            let metadata := readMetadata disk stem (world.sidecarReadable stem)
            let entry : NarEntry :=
              { path, narSize
                blockInfo := BlockInfo.fromFileSize narSize disk.store.blockSize hb
                storePath := metadata.bind (·.storePath)
                source := (metadata.map (·.source)).getD .cache
                createdAt := (metadata.map (·.createdAt)).getD 0 }
            Action.set
              { disk with
                store := { disk.store with index := disk.store.index.insert stem entry } }
          else Action.fault .assertionFailed
        else pure ()
    else pure ()
  | (_, none) => pure ()

def scanFiles (world : ScanWorld) : List Text → Action NarDisk FileWrite Panic Unit
  | [] => pure ()
  | name :: names => do
    scanFile world name
    scanFiles world names

/-- Scan the nar directory and index all stored nars. -/
def scan (world : ScanWorld) : Action NarDisk FileWrite Panic Unit :=
  match world.listing with
  | none => pure ()
  | some names => scanFiles world names

/-- Open the store: an empty index, then the scan. -/
def openStore (world : ScanWorld) : Action NarDisk FileWrite Panic Unit := do
  let disk ← Action.get
  Action.set { disk with store := { disk.store with index := ∅ } }
  scan world

end

/-! ### Changing the index -/

/-- The clock and the outcome of one write of a sidecar. -/
structure SidecarWorld where
  updatedAt : UInt64
  outcome : WriteOutcome

/-- What Guix answers about a store path, and how a save goes. -/
structure SeedWorld where
  /-- The output of `guix hash`, if it succeeds. -/
  narHashHex : Option Text
  /-- The NAR that Guix's serializer writes, if it succeeds. -/
  exported : Option Bytes
  save : SaveWorld

/-- How the removal of the two files goes. -/
structure RemoveWorld where
  nar : Bool
  sidecar : Bool

/-- Summary info for a seeded nar. -/
structure SeededNarInfo where
  narSize : UInt64
  blockCount : UInt32
  blockSize : UInt32
  storePath : Option Text
  source : SeedSource
  createdAt : UInt64
  deriving DecidableEq

namespace NarDisk

/-- Change an entry of the index in place. -/
def modifyEntry (disk : NarDisk) (narHashHex : Text) (f : NarEntry → NarEntry) : NarDisk :=
  { disk with store := { disk.store with index := disk.store.index.modify narHashHex f } }

def eraseEntry (disk : NarDisk) (narHashHex : Text) : NarDisk :=
  { disk with store := { disk.store with index := disk.store.index.erase narHashHex } }

end NarDisk

section

variable [MetadataFormat]

/-- Write the sidecar of an entry. -/
def writeEntryMetadata (narHashHex : Text) (entry : NarEntry) (world : SidecarWorld) :
    Action NarDisk FileWrite Panic Bool :=
  writeMetadata narHashHex ⟨entry.storePath, entry.source, entry.createdAt, world.updatedAt⟩
    world.outcome

/-- Seed a store path. A nar that is indexed already becomes a manual seed; the sidecar is
updated if possible. -/
def seedStorePath (world : SeedWorld) (storePath : Text) :
    Action NarDisk FileWrite Panic (Option Text) := do
  match world.narHashHex with
  | none => pure none
  | some h =>
    let disk ← Action.get
    match disk.store.index.lookup h with
    | some entry =>
      let entry := { entry with storePath := some (entry.storePath.getD storePath), source := .manual }
      Action.set (disk.modifyEntry h fun _ => entry)
      let _ ← writeEntryMetadata h entry ⟨world.save.updatedAt, world.save.sidecar⟩
      pure (some h)
    | none =>
      match world.exported with
      | none => pure none
      | some narData =>
        if ← saveWithSource world.save h narData (some storePath) .manual then pure (some h)
        else pure none

/-- Name the store path of an entry that has none, and write that down. -/
def annotateEntry (narHashHex storePath : Text) (world : SidecarWorld) :
    Action NarDisk FileWrite Panic Bool := do
  let disk ← Action.get
  match disk.store.index.lookup narHashHex with
  | none => pure false
  | some entry =>
    if entry.storePath.isNone && !storePath.isEmpty then
      let entry := { entry with storePath := some storePath }
      Action.set (disk.modifyEntry narHashHex fun _ => entry)
      let _ ← writeEntryMetadata narHashHex entry world
      pure true
    else pure false

/-- Attach store-path metadata from trusted narinfos to cached nars; the result counts
the entries that changed. -/
def annotateFromNarinfos : List (Narinfo × SidecarWorld) → Action NarDisk FileWrite Panic Nat
  | [] => pure 0
  | (narinfo, world) :: rest => do
    match ← Action.ofExcept (sha256Bytes narinfo.narHash) with
    | none => annotateFromNarinfos rest
    | some digest =>
      let updated ← annotateEntry (Hex.encode digest.toList) narinfo.storePath world
      let count ← annotateFromNarinfos rest
      pure (if updated then count + 1 else count)

/-- Attach trusted store-path metadata to one cached nar. -/
def annotateSeedStorePath (narHashHex storePath : Text) (world : SidecarWorld) :
    Action NarDisk FileWrite Panic Bool :=
  annotateEntry narHashHex storePath world

end

/-- Stop serving a nar and remove the cached nar file from disk. -/
def removeSeed (narHashHex : Text) (world : RemoveWorld) :
    Action NarDisk FileWrite Panic (Option SeededNarInfo) := do
  let disk ← Action.get
  match disk.store.index.lookup narHashHex with
  | none => pure none
  | some entry =>
    Action.set (disk.eraseEntry narHashHex)
    let _ ← removeFile entry.path world.nar
    let _ ← removeFile (disk.store.metadataPath narHashHex) world.sidecar
    pure (some
      { narSize := entry.narSize
        blockCount := entry.blockInfo.blockCount
        blockSize := disk.store.blockSize.toUInt32
        storePath := entry.storePath
        source := entry.source
        createdAt := entry.createdAt })

/-! ### Operations -/

/-- What can happen to the store, one after the other. The data of a save has been verified
by its caller, so it is saved under its digest. -/
inductive StoreOp
  /-- The daemon is restarted. -/
  | reopen (world : ScanWorld)
  /-- `save` and `save_with_store_path`. -/
  | save (world : SaveWorld) (narData : Bytes) (storePath : Option Text)
  /-- The auto-seeding of a download: a save unless the nar is indexed. -/
  | autoSeed (world : SaveWorld) (narData : Bytes) (storePath : Text)
  | seed (world : SeedWorld) (storePath : Text)
  | annotateFromNarinfos (narinfos : List (Narinfo × SidecarWorld))
  | annotateSeed (narHashHex storePath : Text) (world : SidecarWorld)
  | removeSeed (narHashHex : Text) (world : RemoveWorld)

variable [Sha256] [MetadataFormat]

/-- The text a nar is indexed under. -/
def hashHex (narData : Bytes) : Text := Hex.encode (Sha256.digest narData).toList

def StoreOp.action : StoreOp → Action NarDisk FileWrite Panic Unit
  | .reopen world => openStore world
  | .save world narData storePath => do
    let _ ← saveWithStorePath world (hashHex narData) narData storePath
    pure ()
  | .autoSeed world narData storePath => do
    let disk ← Action.get
    if disk.store.hasNar (hashHex narData) then pure ()
    else
      let _ ← saveWithStorePath world (hashHex narData) narData (some storePath)
      pure ()
  | .seed world storePath => do
    let _ ← seedStorePath world storePath
    pure ()
  | .annotateFromNarinfos narinfos => do
    let _ ← GuixP2p.annotateFromNarinfos narinfos
    pure ()
  | .annotateSeed narHashHex storePath world => do
    let _ ← annotateSeedStorePath narHashHex storePath world
    pure ()
  | .removeSeed narHashHex world => do
    let _ ← GuixP2p.removeSeed narHashHex world
    pure ()

/-- The state a list of operations leaves, also where one of them panics. -/
def NarDisk.after (disk : NarDisk) : List StoreOp → NarDisk
  | [] => disk
  | op :: ops => (op.action disk).state.after ops

end GuixP2p
