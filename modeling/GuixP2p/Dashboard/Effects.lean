import GuixP2p.Dashboard
import GuixP2p.NarStore.Integrity

/-!
# GuixP2p.Dashboard.Effects

**What the seed requests do**: to the list in the config file, to the file and the index entry of a
NAR (`NarDisk.SameNar` says that an operation does not touch them), and as a whole.
-/

namespace GuixP2p

open GuixP2p.Lib

/-! ### The list in the config file -/

/-- What the config code relies on: an empty document has no seed paths, what is written is read
back, and the two crates agree on a file that both can read. -/
class LawfulTomlLib [TomlLib] : Prop where
  seedPathArray_new : TomlLib.seedPathArray TomlLib.new = none
  seedPathArray_empty : ∀ doc, TomlLib.parse [] = some doc → TomlLib.seedPathArray doc = none
  parse_toString : ∀ doc values,
    (TomlLib.parse (TomlLib.toString (TomlLib.setSeedPaths doc values))).map TomlLib.seedPathArray =
      some (some (values.map some))
  fromStr_agrees : ∀ content paths, TomlLib.fromStr content = some (some paths) →
    seedPaths (parseOrNew content) = paths

section

variable [TomlLib] [LawfulTomlLib]

theorem seedPaths_empty : seedPaths (parseOrNew []) = [] := by
  have hnone : TomlLib.seedPathArray (parseOrNew []) = none := by
    unfold parseOrNew
    cases hparse : TomlLib.parse [] with
    | none => exact LawfulTomlLib.seedPathArray_new
    | some doc => exact LawfulTomlLib.seedPathArray_empty doc hparse
  unfold seedPaths
  rw [hnone]

/-- What is written is what is kept. -/
theorem persistedSeedPaths_written (doc : TomlLib.Doc) (values : List Text) :
    persistedSeedPaths (some (TomlLib.toString (TomlLib.setSeedPaths doc values))) = values := by
  have hround := LawfulTomlLib.parse_toString doc values
  obtain ⟨doc', hparse, harray⟩ := Option.map_eq_some_iff.mp hround
  simp only [persistedSeedPaths, parseOrNew, hparse, Option.getD_some]
  unfold seedPaths
  rw [harray]
  simp

/-- Persisting a path adds no other. -/
theorem mem_persist {readable : Bool} {storePath path : Text} {config : Option Text}
    (h : path ∈ persistedSeedPaths (persistSeedPathToConfig readable .written storePath config).1) :
    path = storePath ∨ path ∈ persistedSeedPaths config := by
  have hold : ∀ path ∈ seedPaths (parseOrNew ((if readable then config else none).getD [])),
      path ∈ persistedSeedPaths config := by
    intro path hpath
    cases hcontent : (if readable then config else none) with
    | none =>
        rw [hcontent, Option.getD_none, seedPaths_empty] at hpath
        exact absurd hpath List.not_mem_nil
    | some content =>
        have hconfig : config = some content := by
          split at hcontent
          · exact hcontent
          · cases hcontent
        rw [hcontent] at hpath
        rw [hconfig]
        exact hpath
  unfold persistSeedPathToConfig at h
  dsimp only [writeConfig] at h
  rw [persistedSeedPaths_written] at h
  by_cases hmem : storePath ∈ seedPaths (parseOrNew ((if readable then config else none).getD []))
  · rw [if_pos hmem] at h
    exact Or.inr (hold path h)
  · rw [if_neg hmem] at h
    rcases List.mem_append.mp h with h | h
    · exact Or.inr (hold path h)
    · exact Or.inl (List.mem_singleton.mp h)

/-- Removing a path removes it, if the file can be read. -/
theorem mem_remove_iff {readable : Bool} {storePath path : Text} {config : Option Text} :
    path ∈ persistedSeedPaths (removeSeedPathFromConfig readable .written storePath config).1 ↔
      path ∈ persistedSeedPaths config ∧ (readable = true → path ≠ storePath) := by
  unfold removeSeedPathFromConfig
  cases readable with
  | false => simp
  | true =>
      cases config with
      | none => simp [persistedSeedPaths]
      | some content =>
          simp only [if_true, forall_const]
          cases harray : TomlLib.seedPathArray (parseOrNew content) with
          | none => simp [persistedSeedPaths, seedPaths, harray]
          | some existing =>
              simp only [writeConfig, persistedSeedPaths_written, List.mem_filter, decide_eq_true_eq]
              simp only [persistedSeedPaths, seedPaths, harray]

/-- The daemon starts with paths that are kept. -/
theorem mem_of_mem_loadSeedPaths {readable : Bool} {path : Text} {config : Option Text}
    (h : path ∈ loadSeedPaths readable config) : path ∈ persistedSeedPaths config := by
  unfold loadSeedPaths at h
  cases hcontent : (if readable then config else none) with
  | none =>
      rw [hcontent] at h
      exact absurd h List.not_mem_nil
  | some content =>
      have hconfig : config = some content := by
        split at hcontent
        · exact hcontent
        · cases hcontent
      rw [hcontent] at h
      dsimp only at h
      cases hfield : TomlLib.fromStr content with
      | none =>
          rw [hfield] at h
          exact absurd h List.not_mem_nil
      | some field =>
          rw [hfield] at h
          cases field with
          | none => exact absurd h List.not_mem_nil
          | some paths =>
              rw [hconfig]
              show path ∈ seedPaths (parseOrNew content)
              rw [LawfulTomlLib.fromStr_agrees content paths hfield]
              exact h

end

/-! ### What a store knows of one NAR -/

namespace NarDisk

/-- The two disks have the same NAR file for a hash, and the hash is indexed in both or in none. -/
structure SameNar (disk disk' : NarDisk) (h : Text) : Prop where
  cacheDir : disk'.store.cacheDir = disk.store.cacheDir
  blockSize : disk'.store.blockSize = disk.store.blockSize
  file : disk'.files (disk.store.narPath h) = disk.files (disk.store.narPath h)
  indexed : disk'.store.hasNar h = disk.store.hasNar h

variable {disk disk' disk'' : NarDisk} {h : Text}

theorem SameNar.refl (disk : NarDisk) (h : Text) : disk.SameNar disk h := ⟨rfl, rfl, rfl, rfl⟩

theorem SameNar.narPath (hsame : disk.SameNar disk' h) : disk'.store.narPath h = disk.store.narPath h := by
  unfold NarStore.narPath
  rw [hsame.cacheDir]

theorem SameNar.trans (hsame : disk.SameNar disk' h) (hsame' : disk'.SameNar disk'' h) :
    disk.SameNar disk'' h where
  cacheDir := hsame'.cacheDir.trans hsame.cacheDir
  blockSize := hsame'.blockSize.trans hsame.blockSize
  file := by
    have hfile := hsame'.file
    rw [hsame.narPath] at hfile
    exact hfile.trans hsame.file
  indexed := hsame'.indexed.trans hsame.indexed

/-- An entry may change, also that of the hash. -/
theorem sameNar_modifyEntry (disk : NarDisk) (h h' : Text) (f : NarEntry → NarEntry) :
    disk.SameNar (disk.modifyEntry h' f) h := by
  refine ⟨rfl, rfl, rfl, ?_⟩
  show ((disk.store.index.modify h' f).lookup h).isSome = (disk.store.index.lookup h).isSome
  rw [Table.lookup_modify]
  split
  · simp
  · rfl

theorem sameNar_insertEntry {h' : Text} (hne : h ≠ h') (entry : NarEntry) :
    disk.SameNar (disk.insertEntry h' entry) h := by
  refine ⟨rfl, rfl, rfl, ?_⟩
  show ((disk.store.index.insert h' entry).lookup h).isSome = (disk.store.index.lookup h).isSome
  rw [AList.lookup_insert_ne hne]

theorem sameNar_writeNar {h' : Text} (hne : h ≠ h') (narData : Bytes) (outcome : WriteOutcome) :
    disk.SameNar (disk.writeNar h' narData outcome) h :=
  ⟨rfl, rfl, FileSystem.write_apply_of_ne (fun heq => hne (NarStore.narPath_injective heq)) _ _, rfl⟩

section

variable [MetadataFormat]

theorem sameNar_writeSidecar (disk : NarDisk) (h h' : Text) (metadata : NarMetadata)
    (outcome : WriteOutcome) : disk.SameNar (disk.writeSidecar h' metadata outcome) h :=
  ⟨rfl, rfl, FileSystem.write_apply_of_ne (NarStore.metadataPath_ne_narPath h' h).symm _ _, rfl⟩

/-- A NAR is saved under another hash. -/
theorem sameNar_saveWithSource {h' : Text} (hne : h ≠ h') (world : SaveWorld) (narData : Bytes)
    (storePath : Option Text) (source : SeedSource) :
    disk.SameNar (saveWithSource world h' narData storePath source disk).state h := by
  have hwritten : disk.SameNar _ h := sameNar_writeNar hne narData world.nar
  rw [state_saveWithSource]
  split
  · split
    · exact (hwritten.trans (sameNar_insertEntry hne _)).trans (sameNar_writeSidecar _ h h' _ _)
    · exact hwritten
  · exact hwritten

theorem sameNar_annotateEntry (disk : NarDisk) (h h' storePath : Text) (world : SidecarWorld) :
    disk.SameNar (annotateEntry h' storePath world disk).state h := by
  rw [state_annotateEntry]
  cases disk.store.index.lookup h' with
  | none => exact SameNar.refl disk h
  | some entry =>
      dsimp only
      split
      · exact (sameNar_modifyEntry disk h h' _).trans (sameNar_writeSidecar _ h h' _ _)
      · exact SameNar.refl disk h

/-- A store path with another NAR is seeded. -/
theorem sameNar_seedStorePath {world : SeedWorld} (hother : ∀ h', world.narHashHex = some h' → h ≠ h')
    (storePath : Text) : disk.SameNar (seedStorePath world storePath disk).state h := by
  rcases @state_seedStorePath _ disk world storePath with
    heq | ⟨h', entry, -, -, heq⟩ | ⟨h', narData, hhash, -, -, heq⟩
  · rw [heq]
    exact SameNar.refl disk h
  · rw [heq]
    exact (sameNar_modifyEntry disk h h' _).trans (sameNar_writeSidecar _ h h' _ _)
  · rw [heq]
    exact sameNar_saveWithSource (hother h' hhash) _ _ _ _

theorem sameNar_annotateFromNarinfos (disk : NarDisk) (h : Text) (narinfos : List (Narinfo × SidecarWorld)) :
    disk.SameNar (annotateFromNarinfos narinfos disk).state h :=
  annotateFromNarinfos_induction (P := fun disk' => disk.SameNar disk' h)
    (fun _ _ _ _ disk' hdisk' => hdisk'.trans (sameNar_annotateEntry disk' h _ _ _)) (SameNar.refl disk h)

variable [Sha256] {nars : Text → Bytes}

theorem sameNar_seed {storePath : Text} (hother : hashHex (nars storePath) ≠ h) (world : GuixWorld) :
    disk.SameNar (seedStorePath (world.seedWorld nars storePath) storePath disk).state h := by
  refine sameNar_seedStorePath (fun h' hhash => ?_) storePath
  simp only [GuixWorld.seedWorld] at hhash
  split at hhash
  · rw [← Option.some.inj hhash]
    exact hother.symm
  · cases hhash

theorem sameNar_seedAll {paths : List Text} (hother : ∀ p ∈ paths, hashHex (nars p) ≠ h)
    (guix : Nat → GuixWorld) (i : Nat) (disk : NarDisk) :
    disk.SameNar (seedAll nars guix i paths disk).state h := by
  induction paths generalizing disk i with
  | nil => exact SameNar.refl disk h
  | cons path paths ih =>
      rw [List.forall_mem_cons] at hother
      exact Action.state_bind (P := fun disk' => disk.SameNar disk' h) (sameNar_seed hother.1 (guix i))
        fun _ disk' hdisk' => hdisk'.trans (ih hother.2 (i + 1) disk')

end

end NarDisk
/-! ### What the requests leave -/

section

variable [Sha256] [MetadataFormat] [TomlLib] {nars : Text → Bytes} {dashboard : Dashboard} {h : Text}

omit [Sha256] [MetadataFormat] in
/-- The rest of a seed request leaves the store alone. -/
theorem state_completeSeedMutation (world : SeedRequestWorld) {storePath narHash : Text} {narSize : UInt64}
    {answer : ApiSeedMutation} :
    let dashboard' := ((do
      completeSeedMutation world storePath narHash narSize
      pure answer : Action Dashboard DashboardEffect ApiError ApiSeedMutation) dashboard).state
    dashboard'.disk = dashboard.disk ∧
      (dashboard'.config = dashboard.config ∨
        dashboard'.config =
          (persistSeedPathToConfig world.configReadable world.configWrite storePath dashboard.config).1) := by
  refine Action.state_bind (P := fun dashboard' : Dashboard => dashboard'.disk = dashboard.disk ∧
    (dashboard'.config = dashboard.config ∨ dashboard'.config =
      (persistSeedPathToConfig world.configReadable world.configWrite storePath dashboard.config).1)) ?_
    fun _ dashboard' hdashboard' => hdashboard'
  unfold completeSeedMutation
  cases world.announced with
  | false => exact ⟨rfl, Or.inl rfl⟩
  | true =>
      simp only [if_true]
      rw [Action.bind_of_ok rfl]
      dsimp only [Action.emit, Action.emitAll]
      rw [Action.bind_of_ok rfl]
      dsimp only [Action.get]
      cases persistSeedPathToConfig world.configReadable world.configWrite storePath dashboard.config with
      | mk config ok =>
          rw [Action.bind_of_ok rfl]
          cases ok with
          | false => exact ⟨rfl, Or.inr rfl⟩
          | true => exact ⟨rfl, Or.inr rfl⟩

/-- Everything a seed request can do to the store and to the config file. -/
theorem state_apiSeed (world : SeedRequestWorld) (requested : Text) {dashboard' : Dashboard}
    (h : (apiSeed nars world requested dashboard).state = dashboard') :
    dashboard' = dashboard ∨
      dashboard'.disk =
          (seedStorePath (world.guix.seedWorld nars (Text.trim requested)) (Text.trim requested)
            dashboard.disk).state ∧
        (dashboard'.config = dashboard.config ∨
          dashboard'.config =
            (persistSeedPathToConfig world.configReadable world.configWrite (Text.trim requested)
              dashboard.config).1) := by
  have hrun : apiSeed nars world requested dashboard = Action.bind Action.get (fun dashboard => _) dashboard := rfl
  rw [hrun] at h
  simp only [Action.bind, Action.get] at h
  split at h
  · exact Or.inl h.symm
  split at h
  · exact Or.inl h.symm
  split at h
  · exact Or.inl h.symm
  refine Or.inr ?_
  rw [Action.bind_of_ok rfl] at h
  dsimp only [Action.set] at h
  cases hseeded : (seedStorePath (world.guix.seedWorld nars (Text.trim requested)) (Text.trim requested)
      dashboard.disk).result with
  | error p =>
      rw [hseeded] at h
      rw [← h]
      exact ⟨rfl, Or.inl rfl⟩
  | ok seeded =>
      rw [hseeded] at h
      cases seeded with
      | none =>
          rw [← h]
          exact ⟨rfl, Or.inl rfl⟩
      | some narHash =>
          dsimp only at h
          cases hinfo : NarStore.seedInfo _ narHash with
          | none =>
              rw [hinfo] at h
              rw [← h]
              exact ⟨rfl, Or.inl rfl⟩
          | some info =>
              rw [hinfo] at h
              rw [← h]
              exact state_completeSeedMutation world

omit [Sha256] [MetadataFormat] in
theorem completeSeedRemoval_eq (world : SeedDeleteWorld) (storePath : Option Text) (dashboard : Dashboard) :
    completeSeedRemoval world h storePath dashboard =
      ⟨[.seedRemoved h storePath],
        { dashboard with
          config :=
            match storePath with
            | none => dashboard.config
            | some path =>
              (removeSeedPathFromConfig world.configReadable world.configWrite path dashboard.config).1 },
        .ok ()⟩ := by
  cases storePath with
  | none => rfl
  | some path => rfl

omit [Sha256] [MetadataFormat] [TomlLib] in
theorem removedStorePath_removeSeed (disk : NarDisk) (world : RemoveWorld) :
    removedStorePath (removeSeed h world disk).result = (disk.store.index.lookup h).bind (·.storePath) := by
  have hrun : removeSeed h world disk = Action.bind Action.get (fun disk => _) disk := rfl
  rw [hrun]
  simp only [Action.bind, Action.get]
  cases disk.store.index.lookup h with
  | none => rfl
  | some entry => rfl

omit [Sha256] [MetadataFormat] in
theorem apiSeedDelete_of_forbidden (hforbidden : dashboard.seedMutationAllowed = false) (world : SeedDeleteWorld) :
    apiSeedDelete world h dashboard = ⟨[], dashboard, .error ⟨403, notLoopback⟩⟩ := by
  have hrun : apiSeedDelete world h dashboard =
      Action.bind Action.get (fun dashboard => _) dashboard := rfl
  rw [hrun]
  simp only [Action.bind, Action.get, hforbidden, Bool.not_false, if_true]
  rfl

omit [Sha256] [MetadataFormat] in
/-- What a deletion does, once it is allowed. -/
theorem apiSeedDelete_eq (hallowed : dashboard.seedMutationAllowed = true) (world : SeedDeleteWorld) :
    let storePath := (dashboard.disk.store.index.lookup h).bind (·.storePath)
    apiSeedDelete world h dashboard =
      ⟨[.seedRemoved h storePath],
        { dashboard with
          disk := (removeSeed h world.remove dashboard.disk).state
          config :=
            match storePath with
            | none => dashboard.config
            | some path =>
              (removeSeedPathFromConfig world.configReadable world.configWrite path dashboard.config).1 },
        .ok ()⟩ := by
  have hrun : apiSeedDelete world h dashboard =
      Action.bind Action.get (fun dashboard => _) dashboard := rfl
  rw [hrun]
  simp only [Action.bind, Action.get, hallowed, Bool.not_true, Bool.false_eq_true, if_false]
  rw [Action.bind_of_ok rfl, completeSeedRemoval_eq, removedStorePath_removeSeed]
  rfl

omit [Sha256] [MetadataFormat] in
/-- A deletion takes the path of the index off the list, if it can read the list. -/
theorem mem_persisted_delete_iff [LawfulTomlLib] (hallowed : dashboard.seedMutationAllowed = true)
    {world : SeedDeleteWorld} (hwritten : world.configWrite = .written) {p : Text} :
    p ∈ persistedSeedPaths (apiSeedDelete world h dashboard).state.config ↔
      p ∈ persistedSeedPaths dashboard.config ∧
        ¬ ((dashboard.disk.store.index.lookup h).bind (·.storePath) = some p ∧
          world.configReadable = true) := by
  rw [apiSeedDelete_eq hallowed]
  dsimp only
  cases (dashboard.disk.store.index.lookup h).bind (·.storePath) with
  | none => simp
  | some path =>
      dsimp only
      rw [hwritten, mem_remove_iff, Option.some.injEq, not_and']
      simp only [ne_comm, ne_eq]

end

end GuixP2p
