import Mathlib.Data.Countable.Basic
import Mathlib.Logic.Equiv.List
import GuixP2p.NarStore.Integrity

/-!
# GuixP2p.NarStore.Reopen

**The index is a cache of the directory.** When every file operation succeeds, the index
holds at any time what a scan of the directory would find (`NarDisk.Mirrors`): each
operation writes the sidecar that says what it did to the entry. So opening the store again
changes nothing.

What the sidecar says is read back by an external crate; `LawfulMetadataFormat` is the round
trip that it promises.
-/

namespace GuixP2p

open GuixP2p.Lib

/-- `serde_json` reads back what it wrote. -/
class LawfulMetadataFormat [MetadataFormat] : Prop where
  fromStr_toVecPretty : ∀ m, MetadataFormat.fromStr (MetadataFormat.toVecPretty m) = some m

/-! ### Operations that succeed -/

/-- Every file of the directory is listed, and all of them can be read. -/
structure ScanWorld.Complete (world : ScanWorld) (disk : NarDisk) : Prop where
  narReadable : ∀ h, world.narReadable h = true
  sidecarReadable : ∀ h, world.sidecarReadable h = true
  listing : ∃ names, world.listing = some names ∧ ∀ name, name ≠ [] → '/' ∉ name →
    disk.files (disk.store.cacheDir ++ "/".toList ++ name) ≠ none → name ∈ names

structure SaveWorld.Done (world : SaveWorld) : Prop where
  nar : world.nar = .done
  sidecar : world.sidecar = .done
  sidecarReadable : world.sidecarReadable = true

/-- No directory is in the way of the two files of a hash. -/
structure NarDisk.Writable (disk : NarDisk) (h : Text) : Prop where
  nar : disk.files (disk.store.narPath h) ≠ some .dir
  sidecar : disk.files (disk.store.metadataPath h) ≠ some .dir

section

variable [Sha256]

/-- All file operations of the operation succeed. -/
def StoreOp.Succeeds (disk : NarDisk) : StoreOp → Prop
  | .reopen world => world.Complete disk
  | .save world narData _ => world.Done ∧ disk.Writable (hashHex narData)
  | .autoSeed world narData _ => world.Done ∧ disk.Writable (hashHex narData)
  | .seed world _ => world.save.Done ∧ (∀ h, world.narHashHex = some h → disk.Writable h) ∧
      ∀ h narData, world.narHashHex = some h → world.exported = some narData → h = hashHex narData
  | .annotateFromNarinfos narinfos => ∀ e ∈ narinfos, e.2.outcome = .done ∧
      ∀ digest, sha256Bytes e.1.narHash = .ok (some digest) →
        disk.Writable (Hex.encode digest.toList)
  | .annotateSeed h _ world => world.outcome = .done ∧ disk.Writable h
  | .removeSeed _ world => world.nar = true ∧ world.sidecar = true

variable [MetadataFormat]

/-- All file operations of a list of operations succeed. -/
def NarDisk.Succeeds : NarDisk → List StoreOp → Prop
  | _, [] => True
  | disk, op :: ops => op.Succeeds disk ∧ (op.action disk).state.Succeeds ops

end

/-! ### What is on the disk -/

variable [Sha256] [MetadataFormat]

namespace NarDisk

/-- What a scan that can read everything makes of the file of a hash. -/
def recorded (disk : NarDisk) (h : Text) : Option NarEntry :=
  disk.scanned ⟨none, fun _ => true, fun _ => true⟩ h

/-- The entry that a NAR file and a sidecar make. -/
def entryOf (store : NarStore) (hb : 0 < store.blockSize) (h : Text) (data : Bytes)
    (metadata : Option NarMetadata) : NarEntry where
  path := store.narPath h
  narSize := UInt64.ofNat data.length
  blockInfo := BlockInfo.fromFileSize (UInt64.ofNat data.length) store.blockSize hb
  storePath := metadata.bind (·.storePath)
  source := (metadata.map (·.source)).getD .cache
  createdAt := (metadata.map (·.createdAt)).getD 0

variable {disk disk' : NarDisk} {h : Text}

/-- The file is called after its digest. -/
theorem recorded_eq_some (disk : NarDisk) (hb : 0 < disk.store.blockSize) {data : Bytes}
    (hread : disk.files.read (disk.store.narPath h) = some data) (hhash : hashHex data = h) :
    disk.recorded h = some (entryOf disk.store hb h data (readMetadata disk h true)) := by
  simp only [recorded, scanned, if_true, hread]
  rw [dif_pos hb, if_pos hhash]
  rfl

theorem recorded_eq_none (hread : disk.files.read (disk.store.narPath h) = none) :
    disk.recorded h = none := by
  simp only [recorded, scanned, if_true, hread]

/-- An entry on the disk comes from a file that is called after its digest. -/
theorem recorded_inv {entry : NarEntry} (hrec : disk.recorded h = some entry) :
    ∃ hb data, disk.files.read (disk.store.narPath h) = some data ∧ hashHex data = h ∧
      entry = entryOf disk.store hb h data (readMetadata disk h true) :=
  scanned_inv hrec

/-- It depends on the two files of its hash and on the settings of the store. -/
theorem recorded_congr (hdir : disk'.store.cacheDir = disk.store.cacheDir)
    (hsize : disk'.store.blockSize = disk.store.blockSize)
    (hnar : disk'.files (disk.store.narPath h) = disk.files (disk.store.narPath h))
    (hsidecar : disk'.files (disk.store.metadataPath h) = disk.files (disk.store.metadataPath h)) :
    disk'.recorded h = disk.recorded h := by
  obtain ⟨⟨dir, size, index⟩, files⟩ := disk
  obtain ⟨⟨dir', size', index'⟩, files'⟩ := disk'
  obtain rfl : dir' = dir := hdir
  obtain rfl : size' = size := hsize
  have hread : files'.read (NarStore.narPath ⟨dir', size', index'⟩ h) =
      files.read (NarStore.narPath ⟨dir', size', index⟩ h) := FileSystem.read_congr hnar
  have hmeta : files'.read (NarStore.metadataPath ⟨dir', size', index'⟩ h) =
      files.read (NarStore.metadataPath ⟨dir', size', index⟩ h) := FileSystem.read_congr hsidecar
  simp only [recorded, scanned, readMetadata, if_true, hread, hmeta]
  rfl

/-- **The simulation relation**: the index is what a scan would find. -/
structure Mirrors (disk : NarDisk) : Prop where
  blockSize_pos : 0 < disk.store.blockSize
  lookup_eq : ∀ h, disk.store.index.lookup h = disk.recorded h

/-- An operation on one hash has to be looked at under that hash only. -/
theorem Mirrors.of_ne (hmirrors : disk.Mirrors) (hdir : disk'.store.cacheDir = disk.store.cacheDir)
    (hsize : disk'.store.blockSize = disk.store.blockSize)
    (hindex : ∀ h', h' ≠ h → disk'.store.index.lookup h' = disk.store.index.lookup h')
    (hfiles : ∀ path, path ≠ disk.store.narPath h → path ≠ disk.store.metadataPath h →
      disk'.files path = disk.files path)
    (hself : disk'.store.index.lookup h = disk'.recorded h) : disk'.Mirrors := by
  refine ⟨hsize ▸ hmirrors.blockSize_pos, fun h' => ?_⟩
  by_cases heq : h' = h
  · rw [heq]
    exact hself
  · rw [hindex h' heq, hmirrors.lookup_eq h']
    refine (recorded_congr hdir hsize (hfiles _ ?_ ?_) (hfiles _ ?_ ?_)).symm
    · exact fun hp => heq (NarStore.narPath_injective hp)
    · exact (NarStore.metadataPath_ne_narPath h h').symm
    · exact NarStore.metadataPath_ne_narPath h' h
    · exact fun hp => heq (NarStore.metadataPath_injective hp)

/-! ### The scan -/

/-- What the scan of the files called `names` leaves: the files as they were, and under each
hash whose file it came across what it found there. -/
structure Scanned (world : ScanWorld) (names : List Text) (disk disk' : NarDisk) : Prop where
  files : disk'.files = disk.files
  cacheDir : disk'.store.cacheDir = disk.store.cacheDir
  blockSize : disk'.store.blockSize = disk.store.blockSize
  scanned : ∀ h, disk'.scanned world h = disk.scanned world h
  lookup : ∀ h, disk'.store.index.lookup h =
    if ∃ name ∈ names, rsplitFileAtDot name = (h, some "nar".toList) then
      (disk.scanned world h).or (disk.store.index.lookup h)
    else disk.store.index.lookup h

theorem scanned_scanFile (world : ScanWorld) (name : Text) (hb : 0 < disk.store.blockSize) :
    (scanFile world name disk).result = .ok () ∧
      Scanned world [name] disk (scanFile world name disk).state := by
  by_cases hname : ∃ stem, rsplitFileAtDot name = (stem, some "nar".toList)
  · obtain ⟨stem, hstem⟩ := hname
    obtain ⟨hstate, hresult⟩ := @state_scanFile _ _ world name stem disk hstem
    refine ⟨hresult hb, ?_⟩
    rw [hstate]
    have hiff : ∀ h, (∃ name' ∈ [name], rsplitFileAtDot name' = (h, some "nar".toList)) ↔ h = stem := by
      intro h
      simp [hstem, eq_comm]
    cases hscan : disk.scanned world stem with
    | none =>
        refine ⟨rfl, rfl, rfl, fun _ => rfl, fun h => ?_⟩
        simp only [hiff]
        split
        next heq => rw [heq, hscan]; rfl
        next => rfl
    | some entry =>
        refine ⟨rfl, rfl, rfl, fun _ => rfl, fun h => ?_⟩
        simp only [hiff]
        split
        next heq =>
          rw [heq, hscan]
          exact AList.lookup_insert _
        next hne => exact AList.lookup_insert_ne hne
  · rw [state_scanFile_of_ne (not_exists.mp hname)]
    refine ⟨rfl, rfl, rfl, rfl, fun _ => rfl, fun h => ?_⟩
    rw [if_neg]
    intro h'
    obtain ⟨name', hmem, hsplit⟩ := h'
    obtain rfl := List.mem_singleton.mp hmem
    exact hname ⟨h, hsplit⟩

/-- **Run lemma.** -/
theorem scanned_scanFiles (world : ScanWorld) (names : List Text) (hb : 0 < disk.store.blockSize) :
    (scanFiles world names disk).result = .ok () ∧
      Scanned world names disk (scanFiles world names disk).state := by
  induction names generalizing disk with
  | nil =>
      refine ⟨rfl, rfl, rfl, rfl, fun _ => rfl, fun h => ?_⟩
      rw [if_neg fun hex => by obtain ⟨_, hmem, -⟩ := hex; exact List.not_mem_nil hmem]
      rfl
  | cons name names ih =>
      obtain ⟨hresult, hfirst⟩ := scanned_scanFile world name hb
      obtain ⟨hresult', hrest⟩ := ih (hfirst.blockSize ▸ hb)
      have hrun : scanFiles world (name :: names) disk =
          (do scanFile world name; scanFiles world names) disk := rfl
      rw [hrun, Action.bind_of_ok hresult]
      refine ⟨hresult', hrest.files.trans hfirst.files, hrest.cacheDir.trans hfirst.cacheDir,
        hrest.blockSize.trans hfirst.blockSize,
        fun h => (hrest.scanned h).trans (hfirst.scanned h), fun h => ?_⟩
      dsimp only
      rw [hrest.lookup h, hfirst.lookup h, hfirst.scanned h]
      simp only [List.exists_mem_cons_iff, List.mem_singleton, exists_eq_left]
      by_cases hhead : rsplitFileAtDot name = (h, some "nar".toList)
      · -- what is found twice is found once
        rw [if_pos hhead, if_pos (Or.inl hhead)]
        cases disk.scanned world h with
        | none => simp only [Option.none_or, ite_self]
        | some entry => simp only [Option.some_or, ite_self]
      · rw [if_neg hhead]
        simp only [hhead, false_or]

/-- A file that is called after its digest is not overlooked. -/
theorem listed_of_scanned {world : ScanWorld} (hworld : world.Complete disk) {entry : NarEntry}
    (hscan : disk.scanned world h = some entry) {names : List Text}
    (hnames : world.listing = some names) :
    ∃ name ∈ names, rsplitFileAtDot name = (h, some "nar".toList) := by
  obtain ⟨names', hnames', hall⟩ := hworld.listing
  obtain rfl := Option.some.inj (hnames.symm.trans hnames')
  have hrec : disk.recorded h = some entry := by
    rw [← hscan]
    simp only [recorded, scanned, hworld.narReadable, hworld.sidecarReadable]
  obtain ⟨-, data, hread, hhash, -⟩ := recorded_inv hrec
  have hne : h ≠ [] := by
    rw [← hhash]
    exact Hex.encode_ne_nil (by simp)
  have hslash : '/' ∉ h := by
    rw [← hhash]
    exact Hex.not_mem_encode (by decide)
  refine ⟨h ++ ".nar".toList, hall _ (by simp) (by simp [hslash]) fun hnone => ?_,
    rsplitFileAtDot_append hne (by decide) (by decide)⟩
  rw [← NarStore.narPath_eq] at hnone
  rw [FileSystem.read, hnone] at hread
  cases hread

/-- Opening the store makes the index what is on the disk. -/
theorem mirrors_openStore {world : ScanWorld} (hworld : world.Complete disk)
    (hb : 0 < disk.store.blockSize) :
    (openStore world disk).result = .ok () ∧ (openStore world disk).state.Mirrors ∧
      ∀ h, (openStore world disk).state.store.index.lookup h = disk.recorded h := by
  obtain ⟨names, hnames, -⟩ := hworld.listing
  obtain ⟨hresult, hscanned⟩ := scanned_scanFiles world names (show 0 < disk.emptied.store.blockSize from hb)
  have hrun : openStore world disk = scanFiles world names disk.emptied := by
    rw [openStore_eq, scan, hnames]
  rw [hrun]
  have hsame : ∀ h, disk.emptied.scanned world h = disk.recorded h := by
    intro h
    show disk.scanned world h = _
    simp only [recorded, scanned, hworld.narReadable, hworld.sidecarReadable]
  have hlookup : ∀ h,
      (scanFiles world names disk.emptied).state.store.index.lookup h = disk.recorded h := by
    intro h
    rw [hscanned.lookup h, hsame h]
    split
    · cases disk.recorded h <;> rfl
    next hlisted =>
      cases hrec : disk.recorded h with
      | none => rfl
      | some entry =>
          exact absurd (listed_of_scanned hworld ((hsame h).trans hrec) hnames) hlisted
  refine ⟨hresult, ⟨hscanned.blockSize ▸ hb, fun h => ?_⟩, hlookup⟩
  rw [hlookup h]
  exact (recorded_congr hscanned.cacheDir hscanned.blockSize (by rw [hscanned.files])
    (by rw [hscanned.files])).symm

/-! ### One operation -/

section

variable {metadata : NarMetadata}

omit [Sha256]

theorem read_writeSidecar_narPath (metadata : NarMetadata) (outcome : WriteOutcome) (h' : Text) :
    (disk.writeSidecar h' metadata outcome).files.read (disk.store.narPath h) =
      disk.files.read (disk.store.narPath h) :=
  FileSystem.read_congr
    (FileSystem.write_apply_of_ne (NarStore.metadataPath_ne_narPath h' h).symm _ _)

/-- A sidecar that was written is read back. -/
theorem readMetadata_writeSidecar [LawfulMetadataFormat]
    (hdir : disk.files (disk.store.metadataPath h) ≠ some .dir) :
    readMetadata (disk.writeSidecar h metadata .done) h true = some metadata := by
  have hok : (disk.files.write (disk.store.metadataPath h)
      (MetadataFormat.toVecPretty metadata) .done).2 = true := by
    rw [FileSystem.write_done hdir]
  have hread : (disk.writeSidecar h metadata .done).files.read (disk.store.metadataPath h) =
      some (MetadataFormat.toVecPretty metadata) := FileSystem.read_of_write hok
  show ((disk.writeSidecar h metadata .done).files.read (disk.store.metadataPath h)).bind
    MetadataFormat.fromStr = some metadata
  rw [hread]
  exact LawfulMetadataFormat.fromStr_toVecPretty metadata

/-- Writing a sidecar puts no directory in the way. -/
theorem Writable.writeSidecar (hwritable : disk.Writable h) (h' : Text) (outcome : WriteOutcome) :
    (disk.writeSidecar h' metadata outcome).Writable h :=
  ⟨FileSystem.write_ne_dir hwritable.nar _ _, FileSystem.write_ne_dir hwritable.sidecar _ _⟩

end

variable [LawfulMetadataFormat]

/-- What is on the disk after the sidecar of a NAR file was written. -/
theorem recorded_writeSidecar (disk : NarDisk) (hb : 0 < disk.store.blockSize) {data : Bytes}
    (hread : disk.files.read (disk.store.narPath h) = some data) (hhash : hashHex data = h)
    (hdir : disk.files (disk.store.metadataPath h) ≠ some .dir) (metadata : NarMetadata) :
    (disk.writeSidecar h metadata .done).recorded h =
      some (entryOf disk.store hb h data (some metadata)) := by
  have hread' := (read_writeSidecar_narPath metadata .done h).trans hread
  rw [recorded_eq_some (disk.writeSidecar h metadata .done) hb hread' hhash,
    readMetadata_writeSidecar hdir]
  rfl

/-- The provenance of an entry may change if the sidecar says so too. -/
theorem Mirrors.annotate (hmirrors : disk.Mirrors) {entry : NarEntry}
    (hentry : disk.store.index.lookup h = some entry)
    (hdir : disk.files (disk.store.metadataPath h) ≠ some .dir) (storePath : Option Text)
    (source : SeedSource) (updatedAt : UInt64) :
    ((disk.modifyEntry h fun _ => { entry with storePath, source }).writeSidecar h
      ⟨storePath, source, entry.createdAt, updatedAt⟩ .done).Mirrors := by
  obtain ⟨hb, data, hread, hhash, hentry'⟩ :=
    recorded_inv ((hmirrors.lookup_eq h).symm.trans hentry)
  refine hmirrors.of_ne (h := h) rfl rfl (fun h' hne => ?_) (fun path _ hmeta => ?_) ?_
  · exact Table.lookup_modify_of_ne hne _ _
  · exact FileSystem.write_apply_of_ne hmeta _ _
  · have hlookup := Table.lookup_modify_self h (fun _ => { entry with storePath, source })
      disk.store.index
    rw [hentry] at hlookup
    refine hlookup.trans ?_
    rw [recorded_writeSidecar (disk.modifyEntry h fun _ => { entry with storePath, source })
      hb hread hhash hdir, hentry']
    rfl

/-- A save under the digest of the data. -/
theorem Mirrors.saveWithSource (hmirrors : disk.Mirrors) {world : SaveWorld} (hworld : world.Done)
    {narData : Bytes} (hwritable : disk.Writable (hashHex narData)) (storePath : Option Text)
    (source : SeedSource) :
    (GuixP2p.saveWithSource world (hashHex narData) narData storePath source disk).state.Mirrors := by
  have hb := hmirrors.blockSize_pos
  have hok : (disk.files.write (disk.store.narPath (hashHex narData)) narData .done).2 = true := by
    rw [FileSystem.write_done hwritable.nar]
  have hread := FileSystem.read_of_write hok
  rw [state_saveWithSource, hworld.nar, hworld.sidecar, if_pos hok, dif_pos hb]
  refine hmirrors.of_ne (h := hashHex narData) rfl rfl (fun h' hne => ?_)
    (fun path hnar hmeta => ?_) ?_
  · exact AList.lookup_insert_ne hne
  · exact (FileSystem.write_apply_of_ne hmeta _ _).trans (FileSystem.write_apply_of_ne hnar _ _)
  · refine (AList.lookup_insert _).trans ?_
    rw [recorded_writeSidecar ((disk.writeNar (hashHex narData) narData .done).insertEntry _ _) hb
      hread rfl (FileSystem.write_ne_dir hwritable.sidecar _ _)]
    rfl

theorem Mirrors.annotateEntry (hmirrors : disk.Mirrors) (hwritable : disk.Writable h)
    (storePath : Text) {world : SidecarWorld} (hworld : world.outcome = .done) :
    (GuixP2p.annotateEntry h storePath world disk).state.Mirrors := by
  rw [state_annotateEntry]
  cases hentry : disk.store.index.lookup h with
  | none => exact hmirrors
  | some entry =>
      dsimp only
      split
      · rw [hworld]
        exact hmirrors.annotate hentry hwritable.sidecar (some storePath) entry.source world.updatedAt
      · exact hmirrors

omit [Sha256] [LawfulMetadataFormat] in
theorem Writable.annotateEntry {h' : Text} (hwritable : disk.Writable h') (storePath : Text)
    (world : SidecarWorld) : (GuixP2p.annotateEntry h storePath world disk).state.Writable h' := by
  rw [state_annotateEntry]
  cases disk.store.index.lookup h with
  | none => exact hwritable
  | some entry =>
      dsimp only
      split
      · have hsame : (disk.modifyEntry h fun _ => { entry with storePath := some storePath }).Writable h' :=
          ⟨hwritable.nar, hwritable.sidecar⟩
        exact hsame.writeSidecar h world.outcome
      · exact hwritable

omit [LawfulMetadataFormat] in
/-- A seed that is removed leaves nothing on the disk. -/
theorem Mirrors.removeSeed (hmirrors : disk.Mirrors) {world : RemoveWorld} (hnar : world.nar = true) :
    (GuixP2p.removeSeed h world disk).state.Mirrors := by
  rw [state_removeSeed]
  cases hentry : disk.store.index.lookup h with
  | none => exact hmirrors
  | some entry =>
      obtain ⟨hb, data, hread, -, hentry'⟩ :=
        recorded_inv ((hmirrors.lookup_eq h).symm.trans hentry)
      have hpath : entry.path = disk.store.narPath h := by rw [hentry']; rfl
      dsimp only
      rw [hpath, hnar]
      refine hmirrors.of_ne (h := h) rfl rfl (fun h' hne => ?_) (fun path hnar' hmeta => ?_) ?_
      · exact AList.lookup_erase_ne hne
      · exact (FileSystem.removeFile_apply_of_ne hmeta _).trans
          (FileSystem.removeFile_apply_of_ne hnar' _)
      · refine (AList.lookup_erase _ _).trans (recorded_eq_none ?_).symm
        have hgone : ((disk.files.removeFile (disk.store.narPath h) true).1.removeFile
            (disk.store.metadataPath h) world.sidecar).1 (disk.store.narPath h) = none := by
          rw [FileSystem.removeFile_apply_of_ne (NarStore.metadataPath_ne_narPath h h).symm]
          exact FileSystem.removeFile_allowed hread
        unfold FileSystem.read
        dsimp only
        rw [show (disk.eraseEntry h).store.narPath h = disk.store.narPath h from rfl, hgone]

end NarDisk

/-! ### Every run -/

variable [LawfulMetadataFormat] {disk : NarDisk}

/-- **Step lemma.** -/
theorem StoreOp.mirrors {op : StoreOp} (hop : op.Succeeds disk) (hmirrors : disk.Mirrors) :
    (op.action disk).state.Mirrors := by
  cases op with
  | reopen world => exact (NarDisk.mirrors_openStore hop hmirrors.blockSize_pos).2.1
  | save world narData storePath =>
      rw [action, Action.state_discard]
      exact hmirrors.saveWithSource hop.1 hop.2 storePath .downloaded
  | autoSeed world narData storePath =>
      show (Action.bind Action.get _ disk).state.Mirrors
      simp only [Action.bind, Action.get]
      split
      · exact hmirrors
      · rw [Action.state_discard]
        exact hmirrors.saveWithSource hop.1 hop.2 (some storePath) .downloaded
  | seed world storePath =>
      obtain ⟨hworld, hwritable, hagree⟩ := hop
      rw [action, Action.state_discard]
      rcases @state_seedStorePath _ disk world storePath with
        heq | ⟨h, entry, hhash, hentry, heq⟩ | ⟨h, narData, hhash, hexported, -, heq⟩
      · rw [heq]
        exact hmirrors
      · rw [heq, hworld.sidecar]
        exact hmirrors.annotate hentry (hwritable h hhash).sidecar _ .manual _
      · rw [heq]
        obtain rfl := hagree h narData hhash hexported
        exact hmirrors.saveWithSource hworld (hwritable _ hhash) (some storePath) .manual
  | annotateFromNarinfos narinfos =>
      rw [action, Action.state_discard]
      refine (annotateFromNarinfos_induction (P := fun disk' => disk'.Mirrors ∧
        ∀ h, disk.Writable h → disk'.Writable h) ?_ ⟨hmirrors, fun _ hwritable => hwritable⟩).1
      intro e he digest hhash disk' hdisk'
      have hwritable := hdisk'.2 _ ((hop e he).2 digest hhash)
      exact ⟨hdisk'.1.annotateEntry hwritable _ (hop e he).1,
        fun h' hh' => (hdisk'.2 h' hh').annotateEntry _ _⟩
  | annotateSeed h storePath world =>
      rw [action, Action.state_discard]
      exact hmirrors.annotateEntry hop.2 storePath hop.1
  | removeSeed h world =>
      rw [action, Action.state_discard]
      exact hmirrors.removeSeed hop.1

/-- **Run lemma.** -/
theorem NarDisk.Mirrors.after {disk : NarDisk} (hmirrors : disk.Mirrors) {ops : List StoreOp}
    (hops : disk.Succeeds ops) : (disk.after ops).Mirrors := by
  induction ops generalizing disk with
  | nil => exact hmirrors
  | cons op ops ih => exact ih (op.mirrors hops.1 hmirrors) hops.2

/-! ### Reopening -/

/-- Opening the store again, when everything can be read, finds what is in the index. -/
def NarDisk.SameWhenReopened (disk : NarDisk) : Prop :=
  ∀ world : ScanWorld, world.Complete disk → (openStore world disk).result = .ok () ∧
    ∀ h, (openStore world disk).state.store.index.lookup h = disk.store.index.lookup h

omit [LawfulMetadataFormat] in
theorem NarDisk.Mirrors.sameWhenReopened (hmirrors : disk.Mirrors) : disk.SameWhenReopened := by
  intro world hworld
  obtain ⟨hresult, -, hlookup⟩ := NarDisk.mirrors_openStore hworld hmirrors.blockSize_pos
  exact ⟨hresult, fun h => (hlookup h).trans (hmirrors.lookup_eq h).symm⟩

omit [Sha256] [MetadataFormat] [LawfulMetadataFormat] in
theorem lookup_removeSeed (h : Text) (world : RemoveWorld) :
    (removeSeed h world disk).state.store.index.lookup h = none := by
  rw [state_removeSeed]
  cases hentry : disk.store.index.lookup h with
  | none => exact hentry
  | some entry => exact AList.lookup_erase _ _

omit [Sha256] [LawfulMetadataFormat] in
/-- A sidecar that was there decides the age of a nar that is saved again. -/
theorem createdAt_saveWithSource (hb : 0 < disk.store.blockSize) {world : SaveWorld}
    (hworld : world.Done) {h : Text} (hwritable : disk.Writable h) {metadata : NarMetadata}
    (hmetadata : readMetadata disk h true = some metadata) (narData : Bytes)
    (storePath : Option Text) (source : SeedSource) :
    ((saveWithSource world h narData storePath source disk).state.store.index.lookup h).map
      (·.createdAt) = some metadata.createdAt := by
  have hok : (disk.files.write (disk.store.narPath h) narData .done).2 = true := by
    rw [FileSystem.write_done hwritable.nar]
  rw [state_saveWithSource, hworld.nar, if_pos hok, dif_pos hb, hworld.sidecarReadable, hmetadata]
  show Option.map _ ((disk.store.index.insert h _).lookup h) = _
  rw [AList.lookup_insert]
  rfl

/-- **Reopening is the identity.** Whatever was done to a store that was opened on any
directory, opening it again finds the same nars with the same entries. A seed that was
removed does not come back, and a nar that is saved over an old sidecar keeps its age. -/
theorem reopen_identity (hb : 0 < disk.store.blockSize) {world : ScanWorld} {ops : List StoreOp}
    (hops : disk.Succeeds (.reopen world :: ops)) {current : NarDisk}
    (hcurrent : disk.after (.reopen world :: ops) = current) :
    current.SameWhenReopened ∧
      (∀ h removal, (StoreOp.removeSeed h removal).Succeeds current →
        (current.after [.removeSeed h removal]).SameWhenReopened ∧
        (current.after [.removeSeed h removal]).store.index.lookup h = none) ∧
      (∀ saving narData storePath metadata, (StoreOp.save saving narData storePath).Succeeds current →
        readMetadata current (hashHex narData) true = some metadata →
        (current.after [.save saving narData storePath]).SameWhenReopened ∧
        ((current.after [.save saving narData storePath]).store.index.lookup (hashHex narData)).map
          (·.createdAt) = some metadata.createdAt) := by
  have hmirrors : current.Mirrors := by
    rw [← hcurrent]
    exact (NarDisk.mirrors_openStore hops.1 hb).2.1.after hops.2
  refine ⟨hmirrors.sameWhenReopened, fun h removal hremoval => ?_,
    fun saving narData storePath metadata hsaving hmetadata => ?_⟩
  · have hnext : current.Succeeds [.removeSeed h removal] := ⟨hremoval, trivial⟩
    refine ⟨(hmirrors.after hnext).sameWhenReopened, ?_⟩
    simp only [NarDisk.after, StoreOp.action, Action.state_discard]
    exact lookup_removeSeed h removal
  · have hnext : current.Succeeds [.save saving narData storePath] := ⟨hsaving, trivial⟩
    refine ⟨(hmirrors.after hnext).sameWhenReopened, ?_⟩
    simp only [NarDisk.after, StoreOp.action, Action.state_discard]
    exact createdAt_saveWithSource hmirrors.blockSize_pos hsaving.1 hsaving.2 hmetadata _ _ _

/-! ### A store of one nar -/

section

omit [Sha256] [MetadataFormat]

def sampleMetadata : NarMetadata := ⟨some "/gnu/store/a".toList, .downloaded, 1, 2⟩

/-- The sidecar of `sampleMetadata`. -/
def sampleSidecar : Bytes :=
  0x7b :: Text.utf8 "\n  \"store_path\": \"/gnu/store/a\",\n  \"source\": \"downloaded\",\n".toList ++
    Text.utf8 "  \"created_at\": 1,\n  \"updated_at\": 2\n".toList ++ [0x7d]

instance : Countable NarMetadata := by
  have hchar : Countable Char := Function.Injective.countable fun _ _ h => Char.toNat_inj.mp h
  have hword : Countable UInt64 := Function.Injective.countable fun _ _ h => UInt64.toNat_inj.mp h
  have hsource : Countable SeedSource :=
    Function.Injective.countable (f := fun s => (decide (s = .manual), decide (s = .cache))) <| by
      intro s s' h
      cases s <;> cases s' <;> simp at h ⊢
  refine Function.Injective.countable
    (f := fun m : NarMetadata => (m.storePath, m.source, m.createdAt, m.updatedAt)) ?_
  rintro ⟨p, s, c, u⟩ ⟨p', s', c', u'⟩ h
  simpa using h

/-- The sidecar of `sampleMetadata` as it is; every other record gets a text of its own. -/
noncomputable def samplePretty (m : NarMetadata) : Bytes :=
  if m = sampleMetadata then sampleSidecar
  else List.replicate ((exists_injective_nat NarMetadata).choose m) 255

theorem samplePretty_injective : Function.Injective samplePretty :=
  Text.printer_injective (exists_injective_nat NarMetadata).choose_spec fun n =>
    Text.replicate_ne_cons (by decide) _ n

@[reducible] noncomputable def sampleMetadataFormat : MetadataFormat where
  toVecPretty := samplePretty
  fromStr := Function.partialInv samplePretty

theorem lawful_sampleMetadataFormat : @LawfulMetadataFormat sampleMetadataFormat :=
  let _ := sampleMetadataFormat
  ⟨Function.partialInv_left samplePretty_injective⟩

/-- An empty directory. -/
def emptyDisk : NarDisk := ⟨⟨"/c/nar".toList, 4, ∅⟩, fun _ => none⟩

def emptyScan : ScanWorld := ⟨some [], fun _ => true, fun _ => true⟩

def sampleSave : StoreOp := .save ⟨1, 2, true, .done, .done⟩ sampleNar (some "/gnu/store/a".toList)

/-- The two files of the nar. -/
def sampleScan : ScanWorld :=
  ⟨some [@hashHex sampleSha256 sampleNar ++ ".nar".toList,
    @hashHex sampleSha256 sampleNar ++ ".json".toList], fun _ => true, fun _ => true⟩

/-- The state after the save. -/
noncomputable def savedDisk : NarDisk :=
  @NarDisk.after sampleSha256 sampleMetadataFormat emptyDisk [.reopen emptyScan, sampleSave]

theorem succeeds_sampleSave :
    @NarDisk.Succeeds sampleSha256 sampleMetadataFormat emptyDisk [.reopen emptyScan, sampleSave] := by
  refine ⟨⟨fun _ => rfl, fun _ => rfl, [], rfl, fun _ _ _ h => absurd rfl h⟩, ⟨⟨rfl, rfl, rfl⟩, ?_⟩, trivial⟩
  constructor
  · exact fun h => nomatch h
  · exact fun h => nomatch h

def sampleEntry : NarEntry where
  path := emptyDisk.store.narPath (@hashHex sampleSha256 sampleNar)
  narSize := 4
  blockInfo := BlockInfo.fromFileSize 4 4 BlockInfo.four_pos
  storePath := some "/gnu/store/a".toList
  source := .downloaded
  createdAt := 1

theorem savedDisk_eq :
    savedDisk = @NarDisk.writeSidecar sampleMetadataFormat
      ((emptyDisk.writeNar (@hashHex sampleSha256 sampleNar) sampleNar .done).insertEntry
        (@hashHex sampleSha256 sampleNar) sampleEntry)
      (@hashHex sampleSha256 sampleNar) sampleMetadata .done := by
  let _ := sampleSha256
  let _ := sampleMetadataFormat
  have hok : (emptyDisk.files.write (emptyDisk.store.narPath (hashHex sampleNar)) sampleNar .done).2 =
      true := by
    rw [FileSystem.write_done (by simp [emptyDisk])]
  show (sampleSave.action emptyDisk).state = _
  rw [sampleSave, StoreOp.action, Action.state_discard, saveWithStorePath, state_saveWithSource,
    if_pos hok, dif_pos (show 0 < emptyDisk.store.blockSize by decide)]
  rfl

theorem complete_sampleScan : sampleScan.Complete savedDisk := by
  let _ := sampleSha256
  let _ := sampleMetadataFormat
  refine ⟨fun _ => rfl, fun _ => rfl, _, rfl, fun name _ _ hfile => ?_⟩
  by_contra hname
  rw [List.mem_cons, List.mem_singleton, not_or] at hname
  refine hfile ?_
  rw [savedDisk_eq]
  simp only [NarDisk.writeSidecar, NarDisk.insertEntry, NarDisk.writeNar]
  rw [FileSystem.write_apply_of_ne fun heq => hname.2 ?_,
    FileSystem.write_apply_of_ne fun heq => hname.1 ?_]
  · rfl
  · exact List.append_cancel_left (heq.trans (List.append_assoc _ _ _))
  · exact List.append_cancel_left (heq.trans (List.append_assoc _ _ _))

/-- The nar that was saved is found again, with its store path. -/
theorem reopen_identity_sampleSave :
    savedDisk.store.index.lookup (@hashHex sampleSha256 sampleNar) = some sampleEntry ∧
      (@openStore sampleSha256 sampleMetadataFormat sampleScan savedDisk).state.store.index.lookup
        (@hashHex sampleSha256 sampleNar) = some sampleEntry := by
  let _ := sampleSha256
  let _ := sampleMetadataFormat
  have _ := lawful_sampleMetadataFormat
  have hsame := (reopen_identity (show 0 < emptyDisk.store.blockSize by decide) succeeds_sampleSave
    (show _ = savedDisk from rfl)).1 sampleScan complete_sampleScan
  have hsaved : savedDisk.store.index.lookup (hashHex sampleNar) = some sampleEntry := by
    rw [savedDisk_eq]
    exact AList.lookup_insert _
  exact ⟨hsaved, (hsame.2 _).trans hsaved⟩

end

end GuixP2p
