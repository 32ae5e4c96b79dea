import GuixP2p.Lib.Text
import GuixP2p.NarStore.Index
import GuixP2p.PeerStore

/-!
# GuixP2p.Dashboard

The seed requests of `src/dashboard.rs`, the list of seeds that they keep in the user's config file
(`src/dashboard/seed_config.rs`), and the start of the daemon in `src/main.rs`, which reads that list.

Store items do not change, so a store path has one NAR: `nars`. Guix may fail to hash or to export
it. The config file is read and written by the `toml_edit` and `toml` crates (`TomlLib`).
-/

namespace GuixP2p

open GuixP2p.Lib

/-! ### The config file -/

/-- What the crates make of a config file. -/
class TomlLib where
  /-- `toml_edit::DocumentMut`. -/
  Doc : Type
  parse : Text → Option Doc
  new : Doc
  toString : Doc → Text
  /-- The array `seed_paths`, if there is one; an element may be no string. -/
  seedPathArray : Doc → Option (List (Option Text))
  /-- Make `seed_paths` an array of strings. -/
  setSeedPaths : Doc → List Text → Doc
  /-- `toml::from_str`, as to the field `seed_paths`. -/
  fromStr : Text → Option (Option (List Text))

section

variable [TomlLib]

open TomlLib

def seedPaths (doc : Doc) : List Text :=
  match seedPathArray doc with
  | none => []
  | some existing => existing.filterMap id

/-- A file that does not parse counts as empty. -/
def parseOrNew (content : Text) : Doc := (parse content).getD new

/-- The file after a write, and whether that succeeded. -/
def writeConfig (content : Text) : SaveOutcome → Option Text × Bool
  | .written => (some content, true)
  | .failed left => (left, false)

/-- A file that cannot be read counts as empty, too. -/
def persistSeedPathToConfig (readable : Bool) (outcome : SaveOutcome) (storePath : Text)
    (config : Option Text) : Option Text × Bool :=
  let content := (if readable then config else none).getD []
  let doc := parseOrNew content
  let values := seedPaths doc
  let values := if storePath ∈ values then values else values ++ [storePath]
  writeConfig (toString (setSeedPaths doc values)) outcome

def removeSeedPathFromConfig (readable : Bool) (outcome : SaveOutcome) (storePath : Text)
    (config : Option Text) : Option Text × Bool :=
  match if readable then config else none with
  | none => (config, true)
  | some content =>
    let doc := parseOrNew content
    match seedPathArray doc with
    | none => (config, true)
    | some existing =>
      let values := (existing.filterMap id).filter fun value => decide (value ≠ storePath)
      writeConfig (toString (setSeedPaths doc values)) outcome

/-- `Config::load`, as to `seed_paths`. -/
def loadSeedPaths (readable : Bool) (config : Option Text) : List Text :=
  match if readable then config else none with
  | none => []
  | some content =>
    match fromStr content with
    | none => []
    | some field => field.getD []

/-- The seed paths that are kept in the config file. -/
def persistedSeedPaths (config : Option Text) : List Text :=
  match config with
  | none => []
  | some content => seedPaths (parseOrNew content)

end

/-! ### Requests -/

/-- The daemon as the dashboard sees it. -/
structure Dashboard where
  disk : NarDisk
  /-- The user's config file, if there is one. -/
  config : Option Text
  /-- Does the dashboard listen on a loopback address? -/
  seedMutationAllowed : Bool

/-- A status other than success, and the text of the answer. -/
structure ApiError where
  status : Nat
  error : Text
  deriving DecidableEq

structure ApiSeedMutation where
  narHash : Text
  storePath : Text
  narSize : UInt64
  deriving DecidableEq

/-- What a request does beside changing the store and the config file. -/
inductive DashboardEffect
  /-- `SwarmCommand::StartProviding`. -/
  | startProviding (hash : Text)
  | seedAdded (narHash : Text) (storePath : Option Text) (narSize : UInt64) (source : Text)
  | seedRemoved (narHash : Text) (storePath : Option Text)
  deriving DecidableEq

/-- Whether Guix hashes and exports a store path, and how a save goes. -/
structure GuixWorld where
  hashes : Bool
  exports : Bool
  save : SaveWorld

/-- What a request finds around it. The text is that of a library's error. -/
structure SeedRequestWorld where
  pathExists : Bool
  guix : GuixWorld
  /-- The swarm takes the announcement. -/
  announced : Bool
  configReadable : Bool
  configWrite : SaveOutcome
  detail : Text

structure SeedDeleteWorld where
  remove : RemoveWorld
  configReadable : Bool
  configWrite : SaveOutcome

/-- Return summary info for a seeded nar. -/
def NarStore.seedInfo (store : NarStore) (narHashHex : Text) : Option SeededNarInfo :=
  (store.index.lookup narHashHex).map fun entry =>
    { narSize := entry.narSize
      blockCount := entry.blockInfo.blockCount
      blockSize := store.blockSize.toUInt32
      storePath := entry.storePath
      source := entry.source
      createdAt := entry.createdAt }

def apiError {α : Type} (status : Nat) (message : Text) : Action Dashboard DashboardEffect ApiError α :=
  Action.fault ⟨status, message⟩

/-- The store path of a seed that was removed. -/
def removedStorePath : Except Panic (Option SeededNarInfo) → Option Text
  | .ok (some info) => info.storePath
  | _ => none

def notLoopback : Text := "dashboard seed mutation requires a loopback bind address".toList

section

variable [Sha256] [MetadataFormat] [TomlLib] (nars : Text → Bytes)

/-- What Guix says of a store path. -/
def GuixWorld.seedWorld (world : GuixWorld) (storePath : Text) : SeedWorld where
  narHashHex := if world.hashes then some (hashHex (nars storePath)) else none
  exported := if world.exports then some (nars storePath) else none
  save := world.save

omit [Sha256] [MetadataFormat] in
def completeSeedMutation (world : SeedRequestWorld) (storePath narHash : Text) (narSize : UInt64) :
    Action Dashboard DashboardEffect ApiError Unit := do
  if world.announced then
    Action.emit (.startProviding narHash)
    let dashboard ← Action.get
    let (config, ok) :=
      persistSeedPathToConfig world.configReadable world.configWrite storePath dashboard.config
    Action.set { dashboard with config }
    if ok then Action.emit (.seedAdded narHash (some storePath) narSize "manual".toList)
    else apiError 500 ("persist failed: ".toList ++ world.detail)
  else apiError 500 ("failed to announce seed: ".toList ++ world.detail)

/-- `POST /api/seeds`. -/
def apiSeed (world : SeedRequestWorld) (requested : Text) :
    Action Dashboard DashboardEffect ApiError ApiSeedMutation := do
  let dashboard ← Action.get
  if !dashboard.seedMutationAllowed then apiError 403 notLoopback
  else
    let storePath := Text.trim requested
    if !"/gnu/store/".toList.isPrefixOf storePath then
      apiError 400 "store_path must start with /gnu/store/".toList
    else if !world.pathExists then apiError 404 "store_path does not exist".toList
    else
      let seeded := seedStorePath (world.guix.seedWorld nars storePath) storePath dashboard.disk
      Action.set { dashboard with disk := seeded.state }
      match seeded.result with
      | .error _ => apiError 500 ("seed task failed: ".toList ++ world.detail)
      | .ok none => apiError 500 ("seed failed: ".toList ++ world.detail)
      | .ok (some narHash) =>
        match seeded.state.store.seedInfo narHash with
        | none => apiError 500 "seed metadata missing".toList
        | some info =>
          completeSeedMutation world storePath narHash info.narSize
          pure ⟨narHash, storePath, info.narSize⟩

omit [Sha256] [MetadataFormat] in
/-- A failure to change the config file is only logged. -/
def completeSeedRemoval (world : SeedDeleteWorld) (narHash : Text) (storePath : Option Text) :
    Action Dashboard DashboardEffect ApiError Unit := do
  match storePath with
  | none => pure ()
  | some path =>
    let dashboard ← Action.get
    Action.set { dashboard with
      config := (removeSeedPathFromConfig world.configReadable world.configWrite path dashboard.config).1 }
  Action.emit (.seedRemoved narHash storePath)

omit [Sha256] [MetadataFormat] in
/-- `DELETE /api/seeds/{hash}`; its answer is 204. -/
def apiSeedDelete (world : SeedDeleteWorld) (hash : Text) :
    Action Dashboard DashboardEffect ApiError Unit := do
  let dashboard ← Action.get
  if !dashboard.seedMutationAllowed then apiError 403 notLoopback
  else
    let removed := removeSeed hash world.remove dashboard.disk
    Action.set { dashboard with disk := removed.state }
    completeSeedRemoval world hash (removedStorePath removed.result)

/-! ### Start-up -/

/-- What the start of the daemon finds: the cache directory, the config file, what Guix makes of the
seed paths, one after the other, and the local narinfos. -/
structure StartWorld where
  scan : ScanWorld
  configReadable : Bool
  guix : Nat → GuixWorld
  narinfos : List (Narinfo × SidecarWorld)
  loopback : Bool

omit [TomlLib] in
/-- Seed the paths in order; one that fails is passed over. -/
def seedAll (guix : Nat → GuixWorld) : Nat → List Text → Action NarDisk FileWrite Panic Unit
  | _, [] => pure ()
  | i, storePath :: rest => do
    let _ ← seedStorePath ((guix i).seedWorld nars storePath) storePath
    seedAll guix (i + 1) rest

omit [TomlLib] in
/-- Open the store, seed the configured paths and annotate what is cached. -/
def startStore (world : StartWorld) (seedPaths : List Text) : Action NarDisk FileWrite Panic Unit := do
  openStore world.scan
  seedAll nars world.guix 0 seedPaths
  let _ ← annotateFromNarinfos world.narinfos
  pure ()

def Dashboard.restart (world : StartWorld) (dashboard : Dashboard) : Dashboard :=
  { dashboard with
    disk := (startStore nars world (loadSeedPaths world.configReadable dashboard.config) dashboard.disk).state
    seedMutationAllowed := world.loopback }

end

end GuixP2p
