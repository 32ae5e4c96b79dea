import GuixP2p.NarStore.Effects
import GuixP2p.Daemon.Substitute

/-!
# GuixP2p.NarStore.Integrity

**What is indexed can be served.** Every entry of the index names a file whose bytes have
the digest the entry is indexed under, with their length and block layout on record. The
scan checks the digest; everybody else relies on one more fact: a NAR file is written only
while its hash is not indexed, so a write that stops part-way spoils no entry. Sidecars and
NAR files never share a path, and each hash has its own.
-/

namespace GuixP2p

open GuixP2p.Lib

/-! ### Paths -/

namespace NarStore

variable {store : NarStore}

theorem narPath_injective {h h' : Text} (heq : store.narPath h = store.narPath h') : h = h' := by
  simpa [narPath] using heq

theorem metadataPath_injective {h h' : Text} (heq : store.metadataPath h = store.metadataPath h') :
    h = h' := by
  simpa [metadataPath] using heq

/-- A sidecar is not a NAR file: their names end differently. -/
theorem metadataPath_ne_narPath (h h' : Text) : store.metadataPath h ≠ store.narPath h' := by
  intro heq
  have hlast := congrArg List.reverse heq
  simp [metadataPath, narPath] at hlast

end NarStore

/-! ### The invariant -/

variable [Sha256]

/-- The entry is about these bytes, and they have the digest `h`. -/
structure NarEntry.About (entry : NarEntry) (h : Text) (blockSize : UInt64) (bytes : Bytes) :
    Prop where
  hash : hashHex bytes = h
  narSize : entry.narSize = UInt64.ofNat bytes.length
  blockInfo : ∃ hb, entry.blockInfo = BlockInfo.fromFileSize entry.narSize blockSize hb

namespace NarDisk

/-- Every entry of the index is about the bytes of its file, which has the path its hash
gives. -/
def Intact (disk : NarDisk) : Prop :=
  ∀ h entry, disk.store.index.lookup h = some entry → entry.path = disk.store.narPath h ∧
    ∃ bytes, disk.files.read entry.path = some bytes ∧ entry.About h disk.store.blockSize bytes

variable {disk : NarDisk} {h : Text}

/-- A file that is no indexed NAR file may change. -/
theorem Intact.of_files {disk' : NarDisk} (hintact : disk.Intact) (hstore : disk'.store = disk.store)
    (hsame : ∀ h entry, disk.store.index.lookup h = some entry →
      disk'.files (disk.store.narPath h) = disk.files (disk.store.narPath h)) : disk'.Intact := by
  intro h entry hentry
  rw [hstore] at hentry ⊢
  obtain ⟨hpath, bytes, hread, habout⟩ := hintact h entry hentry
  refine ⟨hpath, bytes, ?_, habout⟩
  rw [hpath] at hread ⊢
  rw [← hread]
  exact FileSystem.read_congr (hsame h entry hentry)

/-- A sidecar may be written, however that goes. -/
theorem Intact.writeSidecar [MetadataFormat] (hintact : disk.Intact) (h : Text)
    (metadata : NarMetadata) (outcome : WriteOutcome) :
    (disk.writeSidecar h metadata outcome).Intact :=
  hintact.of_files rfl fun h' _ _ =>
    FileSystem.write_apply_of_ne (NarStore.metadataPath_ne_narPath h h').symm _ _

/-- A NAR file may be written, however that goes, while it is not indexed. -/
theorem Intact.writeNar (hintact : disk.Intact) (hfree : disk.store.index.lookup h = none)
    (narData : Bytes) (outcome : WriteOutcome) : (disk.writeNar h narData outcome).Intact := by
  refine hintact.of_files rfl fun h' entry hentry => FileSystem.write_apply_of_ne (fun heq => ?_) _ _
  rw [NarStore.narPath_injective heq, hfree] at hentry
  cases hentry

/-- An entry may be added for a file that has its digest. -/
theorem Intact.insertEntry (hintact : disk.Intact) {entry : NarEntry} {bytes : Bytes}
    (hpath : entry.path = disk.store.narPath h)
    (hread : disk.files.read (disk.store.narPath h) = some bytes)
    (habout : entry.About h disk.store.blockSize bytes) : (disk.insertEntry h entry).Intact := by
  intro h' entry' hentry'
  rcases of_lookup_insertEntry hentry' with ⟨rfl, rfl⟩ | ⟨-, hold⟩
  · exact ⟨hpath, bytes, by rw [hpath]; exact hread, habout⟩
  · exact hintact h' entry' hold

/-- The provenance of an entry may change. -/
theorem Intact.modifyEntry (hintact : disk.Intact) {entry : NarEntry}
    (hentry : disk.store.index.lookup h = some entry) (storePath : Option Text) (source : SeedSource) :
    (disk.modifyEntry h fun _ => { entry with storePath, source }).Intact := by
  intro h' entry' hentry'
  rcases of_lookup_modifyEntry hentry' with ⟨rfl, -, -, rfl⟩ | ⟨-, hold⟩
  · obtain ⟨hpath, bytes, hread, habout⟩ := hintact h' entry hentry
    exact ⟨hpath, bytes, hread, habout.hash, habout.narSize, habout.blockInfo⟩
  · exact hintact h' entry' hold

/-- An entry may go, and with it, however that goes, its two files. -/
theorem Intact.erase (hintact : disk.Intact) {entry : NarEntry}
    (hentry : disk.store.index.lookup h = some entry) (nar sidecar : Bool) :
    Intact { disk.eraseEntry h with
      files := ((disk.files.removeFile entry.path nar).1.removeFile
        (disk.store.metadataPath h) sidecar).1 } := by
  intro h' entry' hentry'
  obtain ⟨hne, hold⟩ := of_lookup_eraseEntry hentry'
  obtain ⟨hpath, bytes, hread, habout⟩ := hintact h' entry' hold
  refine ⟨hpath, bytes, ?_, habout⟩
  rw [← hread, hpath]
  refine FileSystem.read_congr ?_
  dsimp only
  rw [FileSystem.removeFile_apply_of_ne (NarStore.metadataPath_ne_narPath h h').symm,
    FileSystem.removeFile_apply_of_ne]
  rw [(hintact h entry hentry).1]
  exact fun hp => hne (NarStore.narPath_injective hp)

/-! ### One operation -/

variable [MetadataFormat]

/-- Everything the scan inserts has passed its check. -/
theorem Intact.insert_scanned (hintact : disk.Intact) {world : ScanWorld} {entry : NarEntry}
    (hscan : disk.scanned world h = some entry) : (disk.insertEntry h entry).Intact := by
  obtain ⟨hb, data, hread, hhash, rfl⟩ := scanned_inv hscan
  exact hintact.insertEntry rfl hread ⟨hhash, rfl, hb, rfl⟩

theorem intact_openStore (world : ScanWorld) (disk : NarDisk) :
    (openStore world disk).state.Intact := by
  have hempty : disk.emptied.Intact := by
    intro h entry hentry
    simp [emptied] at hentry
  exact openStore_induction (fun _ _ _ hintact hscan => hintact.insert_scanned hscan) hempty

/-- A save under the digest of the data, while it is not indexed. -/
theorem Intact.saveWithSource (hintact : disk.Intact) {narData : Bytes}
    (hfree : disk.store.index.lookup (hashHex narData) = none) (world : SaveWorld)
    (storePath : Option Text) (source : SeedSource) :
    (GuixP2p.saveWithSource world (hashHex narData) narData storePath source disk).state.Intact := by
  have hwritten := hintact.writeNar hfree narData world.nar
  rw [state_saveWithSource]
  split
  next hok =>
    split
    next hb =>
      exact (hwritten.insertEntry rfl (FileSystem.read_of_write hok) ⟨rfl, rfl, hb, rfl⟩).writeSidecar _ _ _
    next => exact hwritten
  next => exact hwritten

theorem Intact.annotateEntry (hintact : disk.Intact) (h storePath : Text) (world : SidecarWorld) :
    (GuixP2p.annotateEntry h storePath world disk).state.Intact := by
  rw [state_annotateEntry]
  cases hentry : disk.store.index.lookup h with
  | none => exact hintact
  | some entry =>
      dsimp only
      split
      · exact (hintact.modifyEntry hentry (some storePath) entry.source).writeSidecar _ _ _
      · exact hintact

end NarDisk

/-! ### Every run -/

variable [MetadataFormat]

/-- What an operation is when `save` is called as the daemon calls it, after a look at the
index, and when `guix hash` and Guix's serializer agree on the path being seeded. -/
def StoreOp.Guarded : StoreOp → Prop
  | .save _ _ _ => False
  | .seed world _ => ∀ h narData, world.narHashHex = some h → world.exported = some narData →
      h = hashHex narData
  | _ => True

/-- **Step lemma.** -/
theorem StoreOp.intact {op : StoreOp} (hop : op.Guarded) {disk : NarDisk} (hintact : disk.Intact) :
    (op.action disk).state.Intact := by
  cases op with
  | reopen world => exact NarDisk.intact_openStore world disk
  | save world narData storePath => exact absurd hop id
  | autoSeed world narData storePath =>
      show (Action.bind Action.get _ disk).state.Intact
      simp only [Action.bind, Action.get]
      split
      · exact hintact
      next hfree =>
        rw [Action.state_discard]
        refine hintact.saveWithSource ?_ world (some storePath) .downloaded
        simpa [NarStore.hasNar] using hfree
  | seed world storePath =>
      rw [action, Action.state_discard]
      rcases @state_seedStorePath _ disk world storePath with
        heq | ⟨h, entry, -, hentry, heq⟩ | ⟨h, narData, hhash, hexported, hfree, heq⟩
      · rw [heq]
        exact hintact
      · rw [heq]
        exact (hintact.modifyEntry hentry _ .manual).writeSidecar _ _ _
      · rw [heq]
        obtain rfl := hop h narData hhash hexported
        exact hintact.saveWithSource hfree world.save (some storePath) .manual
  | annotateFromNarinfos narinfos =>
      rw [action, Action.state_discard]
      exact annotateFromNarinfos_induction
        (fun _ _ _ _ _ hintact => hintact.annotateEntry _ _ _) hintact
  | annotateSeed h storePath world =>
      rw [action, Action.state_discard]
      exact hintact.annotateEntry h storePath world
  | removeSeed h world =>
      rw [action, Action.state_discard, state_removeSeed]
      cases hentry : disk.store.index.lookup h with
      | none => exact hintact
      | some entry => exact hintact.erase hentry world.nar world.sidecar

/-- **Run lemma.** -/
theorem NarDisk.Intact.after {disk : NarDisk} (hintact : disk.Intact) {ops : List StoreOp}
    (hops : ∀ op ∈ ops, op.Guarded) : (disk.after ops).Intact := by
  induction ops generalizing disk with
  | nil => exact hintact
  | cons op ops ih =>
      rw [List.forall_mem_cons] at hops
      exact ih (op.intact hops.1 hintact) hops.2

/-- **Provider-side integrity.** From any directory and through any operations, with any of
their file operations failing or stopping part-way, every entry of the index points to a
file whose bytes have the digest it is indexed under, with their length and their block
layout. -/
theorem indexed_nars_intact (disk : NarDisk) (world : ScanWorld) {ops : List StoreOp}
    (hops : ∀ op ∈ ops, op.Guarded) {h : Text} {entry : NarEntry}
    (hentry : (disk.after (.reopen world :: ops)).store.index.lookup h = some entry) :
    ∃ bytes, (disk.after (.reopen world :: ops)).files.read entry.path = some bytes ∧
      hashHex bytes = h ∧ entry.narSize = UInt64.ofNat bytes.length ∧
      ∃ hb, entry.blockInfo = BlockInfo.fromFileSize entry.narSize
        (disk.after (.reopen world :: ops)).store.blockSize hb := by
  have hintact : (disk.after (.reopen world :: ops)).Intact :=
    NarDisk.Intact.after (NarDisk.intact_openStore world disk) hops
  obtain ⟨-, bytes, hread, habout⟩ := hintact h entry hentry
  exact ⟨bytes, hread, habout.hash, habout.narSize, habout.blockInfo⟩

/-- A directory that holds one NAR file, called after its digest. -/
def oneNarDisk : NarDisk where
  store := ⟨"/c/nar".toList, 4, ∅⟩
  files := Function.update (fun _ => none)
    ("/c/nar/".toList ++ @hashHex sampleSha256 sampleNar ++ ".nar".toList) (some (.file sampleNar))

def oneNarScan : ScanWorld :=
  ⟨some [@hashHex sampleSha256 sampleNar ++ ".nar".toList], fun _ => true, fun _ => true⟩

/-- The save of another NAR stops after two bytes. -/
def cutSave : StoreOp := .autoSeed ⟨0, 0, true, .cut 2, .done⟩ sampleTail "/gnu/store/a".toList

omit [Sha256] [MetadataFormat] in
theorem oneNarScan_finds : ∃ entry,
    @NarDisk.scanned sampleSha256 noMetadataFormat oneNarDisk.emptied oneNarScan
      (@hashHex sampleSha256 sampleNar) = some entry := by
  let _ := sampleSha256
  let _ := noMetadataFormat
  have hread : oneNarDisk.emptied.files.read (oneNarDisk.emptied.store.narPath (hashHex sampleNar)) =
      some sampleNar := by
    have hpath : oneNarDisk.emptied.store.narPath (hashHex sampleNar) =
        "/c/nar/".toList ++ hashHex sampleNar ++ ".nar".toList := rfl
    rw [hpath]
    simp [FileSystem.read, NarDisk.emptied, oneNarDisk]
  have hb : 0 < oneNarDisk.emptied.store.blockSize := by decide
  rw [← Option.isSome_iff_exists]
  unfold NarDisk.scanned
  rw [if_pos (show oneNarScan.narReadable _ = true from rfl), hread]
  dsimp only
  rw [dif_pos hb, if_pos rfl]
  rfl

omit [Sha256] [MetadataFormat] in
theorem indexed_nars_intact_cutSave : ∃ entry bytes,
    (@NarDisk.after sampleSha256 noMetadataFormat oneNarDisk
      [.reopen oneNarScan, cutSave]).store.index.lookup (@hashHex sampleSha256 sampleNar) = some entry ∧
    (@NarDisk.after sampleSha256 noMetadataFormat oneNarDisk
      [.reopen oneNarScan, cutSave]).files.read entry.path = some bytes ∧
    @hashHex sampleSha256 bytes = @hashHex sampleSha256 sampleNar := by
  let _ := sampleSha256
  let _ := noMetadataFormat
  obtain ⟨entry, hfound⟩ := oneNarScan_finds
  have hname : rsplitFileAtDot (hashHex sampleNar ++ ".nar".toList) =
      (hashHex sampleNar, some "nar".toList) :=
    rsplitFileAtDot_append (Hex.encode_ne_nil (by simp)) (by decide) (by decide)
  have hopen : (openStore oneNarScan oneNarDisk).state =
      oneNarDisk.emptied.insertEntry (hashHex sampleNar) entry := by
    obtain ⟨hstate, hresult⟩ := @state_scanFile _ _ oneNarScan _ _ oneNarDisk.emptied hname
    rw [hfound] at hstate
    have hrun : openStore oneNarScan oneNarDisk =
        (do scanFile oneNarScan (hashHex sampleNar ++ ".nar".toList); pure ()) oneNarDisk.emptied := rfl
    rw [hrun, Action.bind_of_ok (hresult (by decide))]
    exact hstate
  have hlookup : (oneNarDisk.after [.reopen oneNarScan, cutSave]).store.index.lookup
      (hashHex sampleNar) = some entry := by
    have hother : hashHex sampleTail ≠ hashHex sampleNar := by decide +kernel
    have hfree : (oneNarDisk.emptied.insertEntry (hashHex sampleNar) entry).store.hasNar
        (hashHex sampleTail) = false := by
      show ((AList.insert _ _ ∅).lookup _).isSome = false
      rw [AList.lookup_insert_ne hother]
      rfl
    show (cutSave.action (openStore oneNarScan oneNarDisk).state).state.store.index.lookup _ = _
    rw [hopen]
    have hrun : cutSave.action (oneNarDisk.emptied.insertEntry (hashHex sampleNar) entry) =
        Action.bind Action.get (fun disk => _) _ := rfl
    rw [hrun]
    simp only [Action.bind, Action.get]
    rw [hfree, if_neg (by decide), Action.state_discard, saveWithStorePath, state_saveWithSource,
      if_neg]
    · exact AList.lookup_insert _
    · unfold FileSystem.write
      split
      · simp
      · simp
  obtain ⟨bytes, hread, hhash, -⟩ := indexed_nars_intact oneNarDisk oneNarScan
    (fun op hop => by obtain rfl := List.mem_singleton.mp hop; trivial) hlookup
  exact ⟨entry, bytes, hlookup, hread, hhash⟩

/-! ### Where the daemon seeds a download -/

/-- The auto-seeding of a substitute is the `autoSeed` operation, or nothing. -/
theorem disk_autoSeed (cfg : Config) (world : SaveWorld) (narData : Bytes) (storePath : Text)
    (source : DownloadSource) (s : Shared) :
    (autoSeed cfg world (hashHex narData) narData storePath source s).state.disk = s.disk ∨
      (autoSeed cfg world (hashHex narData) narData storePath source s).state.disk =
        ((StoreOp.autoSeed world narData storePath).action s.disk).state := by
  unfold autoSeed
  by_cases hseed : shouldAutoSeed cfg source = true
  · rw [if_pos hseed]
    refine Or.inr ?_
    have hrun : ((StoreOp.autoSeed world narData storePath).action s.disk) =
        Action.bind Action.get (fun disk => _) s.disk := rfl
    rw [hrun]
    show (Action.bind Action.get _ s).state.disk = _
    simp only [Action.bind, Action.get]
    by_cases hhas : s.disk.store.hasNar (hashHex narData) = true
    · rw [if_pos hhas, if_pos hhas]
      rfl
    · rw [if_neg hhas, if_neg hhas, Action.state_discard]
      show (Action.bind (onDisk _) _ s).state.disk = _
      simp only [Action.bind, onDisk, Action.focus]
      cases (saveWithStorePath world (hashHex narData) narData (some storePath) s.disk).result with
      | error p => rfl
      | ok saved =>
          cases saved with
          | false => rfl
          | true => rfl
  · rw [if_neg hseed]
    exact Or.inl rfl

end GuixP2p
