import GuixP2p.NarStore.Integrity

/-!
# GuixP2p.NarStore.FailedSave

**What a failed save leaves behind.** A save writes the NAR file, puts the entry into the index
and writes the sidecar, in this order, and stops at the first write that fails. Nothing is undone:
after a sidecar that could not be written the entry stays in the index although the save returns
an error, and a NAR file that was cut short has replaced the one the hash was indexed with.

`saveHarmless_iff` says when a failure goes unnoticed. Which paths a store looks at is an
invariant of every run (`OwnPaths`), and what a request is answered with depends on nothing but
the entry of its hash and the file there (`handleRequest_congr`).
-/

namespace GuixP2p

open GuixP2p.Lib

namespace NarStore

/-- Return the list of nar hashes currently stored. A hash map gives them in any order. -/
def seededHashes (store : NarStore) : List Text := store.index.keys

end NarStore

namespace NarDisk

/-- Every entry of the index has the path of its hash. -/
def OwnPaths (disk : NarDisk) : Prop :=
  ∀ h entry, disk.store.index.lookup h = some entry → entry.path = disk.store.narPath h

/-- Two files that no block and no digest tells apart. -/
def SameBlocks [Sha256] (blockSize : UInt64) (old new : Bytes) : Prop :=
  computeBlockHashes old blockSize.toNat = computeBlockHashes new blockSize.toNat ∧
    ∀ i, NarStore.serveBlock blockSize old i = NarStore.serveBlock blockSize new i

/-- Nobody who asks for the NAR of `h` learns that its file now holds `new`: there is no such NAR,
no request can name it, or the file can be read and has the same blocks. -/
def Unnoticed [Sha256] (disk : NarDisk) (h : Text) (new : Bytes) : Prop :=
  ∀ narHash entry, Hex.encode narHash = h → disk.store.index.lookup h = some entry →
    ∃ old, disk.files.read (disk.store.narPath h) = some old ∧ SameBlocks disk.store.blockSize old new

/-- The entry a save makes. -/
def savedEntry [MetadataFormat] (disk : NarDisk) (world : SaveWorld) (h : Text) (narData : Bytes)
    (storePath : Option Text) (source : SeedSource) (hb : 0 < disk.store.blockSize) : NarEntry where
  path := disk.store.narPath h
  narSize := UInt64.ofNat narData.length
  blockInfo := BlockInfo.fromFileSize (UInt64.ofNat narData.length) disk.store.blockSize hb
  storePath := storePath
  source := source
  createdAt := ((readMetadata disk h world.sidecarReadable).map (·.createdAt)).getD world.now

/-- **The failures that leave the seeds alone.** A NAR file cut short must go unnoticed; a sidecar
that cannot be written must be that of a NAR which is indexed already, in just this way. -/
structure SaveHarmless [Sha256] [MetadataFormat] (disk : NarDisk) (world : SaveWorld) (h : Text)
    (narData : Bytes) (storePath : Option Text) (source : SeedSource) : Prop where
  cut : ∀ n, world.nar = .cut n → disk.files (disk.store.narPath h) ≠ some .dir →
    disk.Unnoticed h (narData.take n)
  sidecar : ∀ hb : 0 < disk.store.blockSize, world.nar = .done →
    disk.files (disk.store.narPath h) ≠ some .dir →
    disk.files (disk.store.metadataPath h) = some .dir ∨ world.sidecar ≠ .done →
      disk.store.index.lookup h = some (disk.savedEntry world h narData storePath source hb) ∧
        disk.Unnoticed h narData

/-- **The seeds are what they were**: the index, and with it every answer about it. -/
structure SeedsUnchanged [Sha256] (before after : NarDisk) : Prop where
  index : ∀ h, after.store.index.lookup h = before.store.index.lookup h
  hasNar : ∀ h, after.store.hasNar h = before.store.hasNar h
  seededHashes : after.store.seededHashes.Perm before.store.seededHashes
  handleRequest : ∀ request, after.store.handleRequest after.files.read request =
    before.store.handleRequest before.files.read request

/-! ### Every entry has the path of its hash -/

variable {disk : NarDisk} {h : Text}

theorem OwnPaths.insertEntry (hown : disk.OwnPaths) {entry : NarEntry}
    (hpath : entry.path = disk.store.narPath h) : (disk.insertEntry h entry).OwnPaths := by
  intro h' entry' hentry'
  rcases of_lookup_insertEntry hentry' with ⟨rfl, rfl⟩ | ⟨-, hold⟩
  · exact hpath
  · exact hown h' entry' hold

theorem OwnPaths.modifyEntry (hown : disk.OwnPaths) {entry : NarEntry}
    (hentry : disk.store.index.lookup h = some entry) (storePath : Option Text) (source : SeedSource) :
    (disk.modifyEntry h fun _ => { entry with storePath, source }).OwnPaths := by
  intro h' entry' hentry'
  rcases of_lookup_modifyEntry hentry' with ⟨rfl, -, -, rfl⟩ | ⟨-, hold⟩
  · exact hown h' entry hentry
  · exact hown h' entry' hold

theorem OwnPaths.eraseEntry (hown : disk.OwnPaths) (h : Text) : (disk.eraseEntry h).OwnPaths :=
  fun h' entry' hentry' => hown h' entry' (of_lookup_eraseEntry hentry').2

section

variable [MetadataFormat]

theorem OwnPaths.saveWithSource (hown : disk.OwnPaths) (world : SaveWorld) (h : Text) (narData : Bytes)
    (storePath : Option Text) (source : SeedSource) :
    (GuixP2p.saveWithSource world h narData storePath source disk).state.OwnPaths := by
  have hwritten : (disk.writeNar h narData world.nar).OwnPaths := hown
  rw [state_saveWithSource]
  split
  next =>
    split
    next => exact hwritten.insertEntry rfl
    next => exact hwritten
  next => exact hwritten

theorem OwnPaths.annotateEntry (hown : disk.OwnPaths) (h storePath : Text) (world : SidecarWorld) :
    (GuixP2p.annotateEntry h storePath world disk).state.OwnPaths := by
  rw [state_annotateEntry]
  cases hentry : disk.store.index.lookup h with
  | none => exact hown
  | some entry =>
      dsimp only
      split
      · exact hown.modifyEntry hentry (some storePath) entry.source
      · exact hown

variable [Sha256]

theorem ownPaths_openStore (world : ScanWorld) (disk : NarDisk) : (openStore world disk).state.OwnPaths := by
  have hempty : disk.emptied.OwnPaths := by
    intro h entry hentry
    simp [emptied] at hentry
  refine openStore_induction (fun disk h entry hown hscan => ?_) hempty
  obtain ⟨-, -, -, -, rfl⟩ := scanned_inv hscan
  exact hown.insertEntry rfl

/-- **Step lemma.** -/
theorem OwnPaths.step (hown : disk.OwnPaths) (op : StoreOp) : (op.action disk).state.OwnPaths := by
  cases op with
  | reopen world => exact ownPaths_openStore world disk
  | save world narData storePath =>
      rw [StoreOp.action, Action.state_discard]
      exact hown.saveWithSource world _ narData storePath .downloaded
  | autoSeed world narData storePath =>
      show (Action.bind Action.get _ disk).state.OwnPaths
      simp only [Action.bind, Action.get]
      split
      · exact hown
      · rw [Action.state_discard]
        exact hown.saveWithSource world _ narData (some storePath) .downloaded
  | seed world storePath =>
      rw [StoreOp.action, Action.state_discard]
      rcases @state_seedStorePath _ disk world storePath with
        heq | ⟨h, entry, -, hentry, heq⟩ | ⟨h, narData, -, -, -, heq⟩
      · rw [heq]
        exact hown
      · rw [heq]
        exact hown.modifyEntry hentry _ .manual
      · rw [heq]
        exact hown.saveWithSource world.save h narData (some storePath) .manual
  | annotateFromNarinfos narinfos =>
      rw [StoreOp.action, Action.state_discard]
      exact annotateFromNarinfos_induction (fun _ _ _ _ _ hown => hown.annotateEntry _ _ _) hown
  | annotateSeed h storePath world =>
      rw [StoreOp.action, Action.state_discard]
      exact hown.annotateEntry h storePath world
  | removeSeed h world =>
      rw [StoreOp.action, Action.state_discard, state_removeSeed]
      cases disk.store.index.lookup h with
      | none => exact hown
      | some entry => exact hown.eraseEntry h

/-- **Run lemma.** -/
theorem OwnPaths.after (hown : disk.OwnPaths) (ops : List StoreOp) : (disk.after ops).OwnPaths := by
  induction ops generalizing disk with
  | nil => exact hown
  | cons op ops ih => exact ih (hown.step op)

end

/-! ### When the answers stay the same -/

theorem SameBlocks.refl [Sha256] (blockSize : UInt64) (data : Bytes) : SameBlocks blockSize data data :=
  ⟨rfl, fun _ => rfl⟩

/-- In a file of at most 2^32 blocks the blocks are all there is. -/
theorem sameBlocks_iff_eq [Sha256] {blockSize : UInt64} (hb : 0 < blockSize) {old new : Bytes}
    (hmem : old.length < 2 ^ 63) (hmem' : new.length < 2 ^ 63)
    (hcount : chunkCount old.length blockSize.toNat ≤ 2 ^ 32) :
    SameBlocks blockSize old new ↔ old = new := by
  refine ⟨fun ⟨hhashes, hserve⟩ => ?_, fun heq => heq ▸ SameBlocks.refl blockSize old⟩
  have hb' : 0 < blockSize.toNat := UInt64.lt_iff_toNat_lt.mp hb
  have hsame : chunkCount old.length blockSize.toNat = chunkCount new.length blockSize.toNat := by
    simpa using congrArg List.length hhashes
  have hchunks : chunks blockSize.toNat old = chunks blockSize.toNat new := by
    refine List.ext_getElem? fun j => ?_
    by_cases hj : j < chunkCount old.length blockSize.toNat
    · have hword : (UInt32.ofNat j).toNat = j :=
        UInt32.toNat_ofNat_of_lt' (show j < 2 ^ 32 from hj.trans_le hcount)
      have hblock := hserve (UInt32.ofNat j)
      rw [NarStore.serveBlock_chunkAt hb hmem (by rwa [hword]),
        NarStore.serveBlock_chunkAt hb hmem' (by rwa [hword, ← hsame]), hword] at hblock
      rw [getElem?_chunks hj, getElem?_chunks (hsame ▸ hj)]
      simpa using hblock
    · rw [List.getElem?_eq_none (by simpa using hj), List.getElem?_eq_none (by simpa [← hsame] using hj)]
  rw [← flatten_chunks hb' old, hchunks, flatten_chunks hb']

section

variable [Sha256] {after : NarDisk}

theorem SeedsUnchanged.refl (disk : NarDisk) : disk.SeedsUnchanged disk :=
  ⟨fun _ => rfl, fun _ => rfl, List.Perm.refl _, fun _ => rfl⟩

omit [Sha256] in
/-- Indexes that agree on every hash list the same hashes. -/
theorem seededHashes_perm (hlookup : ∀ h, after.store.index.lookup h = disk.store.index.lookup h) :
    after.store.seededHashes.Perm disk.store.seededHashes := by
  have hentries : after.store.index.entries.Perm disk.store.index.entries :=
    List.lookup_ext after.store.index.nodupKeys disk.store.index.nodupKeys
      fun h entry => by rw [show after.store.index.entries.dlookup h = _ from hlookup h]; exact Iff.rfl
  exact hentries.map Sigma.fst

/-- A request is answered from the entry of its hash and from the file there. -/
theorem handleRequest_congr {narHash : Bytes} (hblock : after.store.blockSize = disk.store.blockSize)
    (hlookup : after.store.index.lookup (Hex.encode narHash) = disk.store.index.lookup (Hex.encode narHash))
    (hfile : ∀ entry, disk.store.index.lookup (Hex.encode narHash) = some entry →
      after.files.read entry.path = disk.files.read entry.path ∨
        ∃ old new, disk.files.read entry.path = some old ∧ after.files.read entry.path = some new ∧
          SameBlocks disk.store.blockSize old new) :
    after.store.handleRequest after.files.read (.handshake narHash) =
        disk.store.handleRequest disk.files.read (.handshake narHash) ∧
      ∀ indices, after.store.handleRequest after.files.read (.getBlocks narHash indices) =
        disk.store.handleRequest disk.files.read (.getBlocks narHash indices) := by
  cases hentry : disk.store.index.lookup (Hex.encode narHash) with
  | none =>
      rw [hentry] at hlookup
      simp [NarStore.handleRequest, NarStore.serveBlocks, hentry, hlookup]
  | some entry =>
      rw [hentry] at hlookup
      rcases hfile entry hentry with hsame | ⟨old, new, hold, hnew, hhashes, hblocks⟩
      · simp [NarStore.handleRequest, NarStore.readBlockHashes, NarStore.serveBlocks, hentry, hlookup, hblock, hsame]
      · have hserve := funext hblocks
        simp [NarStore.handleRequest, NarStore.readBlockHashes, NarStore.serveBlocks, hentry, hlookup, hblock,
          hold, hnew, hhashes, hserve]

/-- Conversely, the answers give away whether the file there can be read, and its blocks. -/
theorem sameBlocks_of_handleRequest {narHash new : Bytes} {entry : NarEntry}
    (hblock : after.store.blockSize = disk.store.blockSize)
    (hentry : disk.store.index.lookup (Hex.encode narHash) = some entry)
    (hentry' : after.store.index.lookup (Hex.encode narHash) = some entry)
    (hnew : after.files.read entry.path = some new)
    (hanswers : ∀ request, after.store.handleRequest after.files.read request =
      disk.store.handleRequest disk.files.read request) :
    ∃ old, disk.files.read entry.path = some old ∧ SameBlocks disk.store.blockSize old new := by
  cases hold : disk.files.read entry.path with
  | none =>
      -- a file that cannot be read is answered with nothing, also when no block is asked for
      have hnone := hanswers (.getBlocks narHash [])
      simp [NarStore.handleRequest, NarStore.serveBlocks, filterMapPanic, hentry, hentry', hold, hnew] at hnone
  | some old =>
      refine ⟨old, rfl, ?_, fun i => ?_⟩
      · have hreply := hanswers (.handshake narHash)
        rw [NarStore.handshake_of_read hentry hold, NarStore.handshake_of_read hentry' hnew, hblock] at hreply
        obtain ⟨-, -, -, hhashes⟩ := BlockResponse.handshakeReply.inj (Option.some.inj (Except.ok.inj hreply))
        exact (List.map_injective_iff.mpr (fun _ _ => Vector.toList_inj.mp) hhashes).symm
      · have hreply := (hanswers (.getBlocks narHash [i])).symm
        rw [NarStore.getBlock_of_read hentry hold, NarStore.getBlock_of_read hentry' hnew, hblock] at hreply
        revert hreply
        cases NarStore.serveBlock disk.store.blockSize old i with
        | error p =>
            cases NarStore.serveBlock disk.store.blockSize new i with
            | error p' => simp
            | ok served => cases served <;> simp
        | ok served =>
            cases NarStore.serveBlock disk.store.blockSize new i with
            | error p' => cases served <;> simp
            | ok served' => cases served <;> cases served' <;> simp

/-- **What a write of the NAR file of `h` is noticed by.** -/
theorem seedsUnchanged_iff (hown : disk.OwnPaths) (after : NarDisk) {new : Bytes}
    (hblock : after.store.blockSize = disk.store.blockSize)
    (hother : ∀ h', h' ≠ h →
      after.files.read (disk.store.narPath h') = disk.files.read (disk.store.narPath h'))
    (hnew : after.files.read (disk.store.narPath h) = some new) :
    disk.SeedsUnchanged after ↔
      (∀ h', after.store.index.lookup h' = disk.store.index.lookup h') ∧ disk.Unnoticed h new := by
  constructor
  · intro hall
    obtain ⟨hlookup, -, -, hanswers⟩ := hall
    refine ⟨hlookup, fun narHash entry hkey hentry => ?_⟩
    subst hkey
    have hpath := hown _ entry hentry
    rw [← hpath] at hnew ⊢
    exact sameBlocks_of_handleRequest hblock hentry ((hlookup _).trans hentry) hnew hanswers
  · intro hall
    obtain ⟨hlookup, hunnoticed⟩ := hall
    have hanswers : ∀ narHash, _ := fun narHash =>
      handleRequest_congr hblock (hlookup (Hex.encode narHash)) fun entry hentry => by
        rw [hown _ entry hentry]
        by_cases heq : Hex.encode narHash = h
        · subst heq
          obtain ⟨old, hold, hsame⟩ := hunnoticed narHash entry rfl hentry
          exact Or.inr ⟨old, new, hold, hnew, hsame⟩
        · exact Or.inl (hother _ heq)
    refine ⟨hlookup, fun h' => ?_, seededHashes_perm hlookup, fun request => ?_⟩
    · simp [NarStore.hasNar, hlookup h']
    · cases request with
      | handshake narHash => exact (hanswers narHash).1
      | getBlocks narHash indices => exact (hanswers narHash).2 indices

end

/-! ### How a save goes -/

section

variable [MetadataFormat]

/-- What a save reports. -/
theorem result_saveWithSource (world : SaveWorld) (narData : Bytes) (storePath : Option Text)
    (source : SeedSource) :
    (saveWithSource world h narData storePath source disk).result =
      if (disk.files.write (disk.store.narPath h) narData world.nar).2 = true then
        if hb : 0 < disk.store.blockSize then
          .ok ((disk.writeNar h narData world.nar).files.write (disk.store.metadataPath h)
            (MetadataFormat.toVecPretty ⟨storePath, source,
              (disk.savedEntry world h narData storePath source hb).createdAt, world.updatedAt⟩)
            world.sidecar).2
        else .error .assertionFailed
      else .ok false := by
  have hresult := congrArg Prod.snd (@saveWithSource_eq _ disk h world narData storePath source)
  dsimp only at hresult
  rw [hresult]
  by_cases hok : (disk.files.write (disk.store.narPath h) narData world.nar).2 = true
  · rw [if_pos hok, if_pos hok]
    by_cases hb : 0 < disk.store.blockSize
    · rw [dif_pos hb, dif_pos hb]
      rfl
    · rw [dif_neg hb, dif_neg hb]
  · rw [if_neg hok, if_neg hok]

variable [Sha256]

omit [Sha256] in
/-- A NAR file that was not even opened. -/
theorem state_saveWithSource_of_unopened {world : SaveWorld} {narData : Bytes}
    (hwrite : disk.files.write (disk.store.narPath h) narData world.nar = (disk.files, false))
    (storePath : Option Text) (source : SeedSource) :
    (saveWithSource world h narData storePath source disk).state = disk := by
  rw [state_saveWithSource, hwrite, if_neg Bool.false_ne_true, writeNar, hwrite]

omit [Sha256] [MetadataFormat] in
theorem lookup_insertEntry_iff {entry : NarEntry} :
    (∀ h', (disk.insertEntry h entry).store.index.lookup h' = disk.store.index.lookup h') ↔
      disk.store.index.lookup h = some entry := by
  have hinsert : ∀ h', (disk.insertEntry h entry).store.index.lookup h' =
      (disk.store.index.insert h entry).lookup h' := fun _ => rfl
  simp only [hinsert]
  constructor
  · intro hlookup
    rw [← hlookup h, AList.lookup_insert]
  · intro hentry h'
    by_cases heq : h' = h
    · rw [heq, AList.lookup_insert, hentry]
    · exact AList.lookup_insert_ne heq

omit [MetadataFormat] in
/-- A NAR file that was written, in whole or in part, over what the path held. -/
theorem seedsUnchanged_writeNar_iff (hown : disk.OwnPaths) {narData new : Bytes} {outcome : WriteOutcome}
    (hread : (disk.writeNar h narData outcome).files.read (disk.store.narPath h) = some new) :
    disk.SeedsUnchanged (disk.writeNar h narData outcome) ↔ disk.Unnoticed h new := by
  refine (seedsUnchanged_iff hown (disk.writeNar h narData outcome) rfl (fun h' hne => ?_) hread).trans ?_
  · exact FileSystem.read_congr
      (FileSystem.write_apply_of_ne (fun heq => hne (NarStore.narPath_injective heq)) _ _)
  · exact and_iff_right fun _ => rfl

/-- The same with an entry put into the index, and however the sidecar went. -/
theorem seedsUnchanged_saved_iff (hown : disk.OwnPaths) {narData new : Bytes} {outcome sidecar : WriteOutcome}
    (hread : (disk.writeNar h narData outcome).files.read (disk.store.narPath h) = some new)
    (entry : NarEntry) (metadata : NarMetadata) :
    disk.SeedsUnchanged
        (((disk.writeNar h narData outcome).insertEntry h entry).writeSidecar h metadata sidecar) ↔
      disk.store.index.lookup h = some entry ∧ disk.Unnoticed h new := by
  have hnars : ∀ h', (((disk.writeNar h narData outcome).insertEntry h entry).writeSidecar h metadata
      sidecar).files.read (disk.store.narPath h') =
        (disk.writeNar h narData outcome).files.read (disk.store.narPath h') := fun h' =>
    FileSystem.read_congr (FileSystem.write_apply_of_ne (NarStore.metadataPath_ne_narPath h h').symm _ _)
  have hother : ∀ h', h' ≠ h → (((disk.writeNar h narData outcome).insertEntry h entry).writeSidecar h
      metadata sidecar).files.read (disk.store.narPath h') = disk.files.read (disk.store.narPath h') :=
    fun h' hne => (hnars h').trans (FileSystem.read_congr
      (FileSystem.write_apply_of_ne (fun heq => hne (NarStore.narPath_injective heq)) _ _))
  have hlookup : (∀ h', (((disk.writeNar h narData outcome).insertEntry h entry).writeSidecar h metadata
      sidecar).store.index.lookup h' = disk.store.index.lookup h') ↔ disk.store.index.lookup h = some entry :=
    lookup_insertEntry_iff
  exact (seedsUnchanged_iff hown
    (((disk.writeNar h narData outcome).insertEntry h entry).writeSidecar h metadata sidecar) rfl hother
     ((hnars h).trans hread)).trans (and_congr_left' hlookup)

/-- **When a failed save goes unnoticed.** -/
theorem saveHarmless_iff (hown : disk.OwnPaths) (world : SaveWorld) (h : Text) (narData : Bytes)
    (storePath : Option Text) (source : SeedSource) :
    ((saveWithSource world h narData storePath source disk).result = .ok false →
        disk.SeedsUnchanged (saveWithSource world h narData storePath source disk).state) ↔
      disk.SaveHarmless world h narData storePath source := by
  by_cases hdir : disk.files (disk.store.narPath h) = some .dir
  · -- the file could not be created
    have hwrite : disk.files.write (disk.store.narPath h) narData world.nar = (disk.files, false) := by
      simp [FileSystem.write, hdir]
    rw [state_saveWithSource_of_unopened hwrite]
    exact iff_of_true (fun _ => .refl disk)
      ⟨fun _ _ hne => absurd hdir hne, fun _ _ hne => absurd hdir hne⟩
  cases hnar : world.nar with
  | refused =>
      have hwrite : disk.files.write (disk.store.narPath h) narData world.nar = (disk.files, false) := by
        simp [FileSystem.write, hdir, hnar]
      rw [state_saveWithSource_of_unopened hwrite]
      exact iff_of_true (fun _ => .refl disk)
        ⟨fun _ hcut => by simp [hnar] at hcut, fun _ hdone => by simp [hnar] at hdone⟩
  | cut n =>
      have hwrite : disk.files.write (disk.store.narPath h) narData (.cut n) =
          (Function.update disk.files (disk.store.narPath h) (some (.file (narData.take n))), false) := by
        simp [FileSystem.write, hdir]
      have hread : (disk.writeNar h narData (.cut n)).files.read (disk.store.narPath h) =
          some (narData.take n) := by
        simp [writeNar, hwrite, FileSystem.read]
      rw [result_saveWithSource, state_saveWithSource, hnar, hwrite, if_neg Bool.false_ne_true,
        if_neg Bool.false_ne_true, seedsUnchanged_writeNar_iff hown hread]
      constructor
      · intro hunnoticed
        refine ⟨fun m hcut _ => ?_, fun _ hdone => by simp [hnar] at hdone⟩
        obtain rfl : n = m := by simpa [hnar] using hcut
        exact hunnoticed rfl
      · intro hharmless _
        exact hharmless.cut n hnar hdir
  | done =>
      have hok : (disk.files.write (disk.store.narPath h) narData .done).2 = true := by
        rw [FileSystem.write_done hdir]
      rw [result_saveWithSource, state_saveWithSource, hnar, if_pos hok, if_pos hok]
      by_cases hb : 0 < disk.store.blockSize
      · have hsame : (disk.writeNar h narData .done).files (disk.store.metadataPath h) =
            disk.files (disk.store.metadataPath h) :=
          FileSystem.write_apply_of_ne (NarStore.metadataPath_ne_narPath h h) _ _
        rw [dif_pos hb, dif_pos hb, Except.ok.injEq, FileSystem.write_fails_iff, hsame]
        dsimp only
        rw [seedsUnchanged_saved_iff hown (FileSystem.read_of_write hok)]
        constructor
        · intro hunchanged
          exact ⟨fun _ hcut => by simp [hnar] at hcut, fun _ _ _ hfails => hunchanged hfails⟩
        · intro hharmless hfails
          exact hharmless.sidecar hb hnar hdir hfails
      · -- a block size of zero is an assertion that fails, not an error
        rw [dif_neg hb]
        exact iff_of_true (fun herror => by cases herror)
          ⟨fun _ hcut => by simp [hnar] at hcut, fun hb' => absurd hb' hb⟩

omit [Sha256] in
/-- Seeding a new nar fails when its save does. -/
theorem seedStorePath_of_exported {world : SeedWorld} {narData : Bytes} (hhash : world.narHashHex = some h)
    (hfree : disk.store.index.lookup h = none) (hexported : world.exported = some narData) (storePath : Text) :
    (seedStorePath world storePath disk).state =
        (saveWithSource world.save h narData (some storePath) .manual disk).state ∧
      ((seedStorePath world storePath disk).result = .ok none ↔
        (saveWithSource world.save h narData (some storePath) .manual disk).result = .ok false) := by
  have hrun : seedStorePath world storePath disk =
      Action.bind (saveWithSource world.save h narData (some storePath) .manual)
        (fun saved => if saved then pure (some h) else pure none) disk := by
    rw [seedStorePath_of_free hhash hfree, hexported]
    rfl
  rw [hrun]
  simp only [Action.bind]
  cases (saveWithSource world.save h narData (some storePath) .manual disk).result with
  | error p => exact ⟨rfl, by simp⟩
  | ok saved =>
      cases saved with
      | false => exact ⟨rfl, iff_of_true rfl rfl⟩
      | true => exact ⟨rfl, iff_of_false (fun hnone => by cases hnone) (fun hfalse => by cases hfalse)⟩

/-- The same for seeding, which saves a nar that is not indexed. -/
theorem seedHarmless_iff (hown : disk.OwnPaths) (world : SeedWorld) (storePath : Text) :
    ((seedStorePath world storePath disk).result = .ok none →
        disk.SeedsUnchanged (seedStorePath world storePath disk).state) ↔
      ∀ h narData, world.narHashHex = some h → world.exported = some narData →
        disk.store.index.lookup h = none →
          disk.SaveHarmless world.save h narData (some storePath) .manual := by
  cases hhash : world.narHashHex with
  | none =>
      have hrun : seedStorePath world storePath disk = ⟨[], disk, .ok none⟩ := by
        unfold seedStorePath
        rw [hhash]
        rfl
      rw [hrun]
      exact iff_of_true (fun _ => .refl disk) fun _ _ hsome => by cases hsome
  | some h =>
      cases hentry : disk.store.index.lookup h with
      | some entry =>
          -- a nar that is indexed is seeded, whatever becomes of its sidecar
          have hresult : (seedStorePath world storePath disk).result = .ok (some h) := by
            unfold seedStorePath
            rw [hhash]
            show (Action.bind Action.get _ disk).result = _
            simp only [Action.bind, Action.get]
            rewrite [hentry]
            rfl
          rw [hresult]
          refine iff_of_true (fun hnone => by cases hnone) fun h' narData hsome _ hfree => ?_
          obtain rfl := Option.some.inj hsome
          rw [hentry] at hfree
          cases hfree
      | none =>
          cases hexported : world.exported with
          | none =>
              have hrun : seedStorePath world storePath disk = ⟨[], disk, .ok none⟩ := by
                rw [seedStorePath_of_free hhash hentry, hexported]
                rfl
              rw [hrun]
              exact iff_of_true (fun _ => .refl disk) fun _ _ _ hsome => by cases hsome
          | some narData =>
              obtain ⟨hstate, hresult⟩ := seedStorePath_of_exported hhash hentry hexported storePath
              rw [hstate, hresult, saveHarmless_iff hown]
              constructor
              · rintro hharmless h' narData' hsome hsome' -
                obtain rfl := Option.some.inj hsome
                obtain rfl := Option.some.inj hsome'
                exact hharmless
              · intro hharmless
                exact hharmless h narData rfl rfl hentry

/-- **When a failed save leaves no seed behind**, in every state a store can be in: the failures
that leave the seeds alone are those of `SaveHarmless`, for a save and for the seeding of a path. -/
theorem failed_save_leaves_no_seed_iff (disk₀ : NarDisk) (scan : ScanWorld) (ops : List StoreOp) :
    let disk := disk₀.after (.reopen scan :: ops)
    (∀ world h narData storePath source,
      ((saveWithSource world h narData storePath source disk).result = .ok false →
          disk.SeedsUnchanged (saveWithSource world h narData storePath source disk).state) ↔
        disk.SaveHarmless world h narData storePath source) ∧
    ∀ world storePath,
      ((seedStorePath world storePath disk).result = .ok none →
          disk.SeedsUnchanged (seedStorePath world storePath disk).state) ↔
        ∀ h narData, world.narHashHex = some h → world.exported = some narData →
          disk.store.index.lookup h = none →
            disk.SaveHarmless world.save h narData (some storePath) .manual := by
  have hown : (disk₀.after (.reopen scan :: ops)).OwnPaths := (ownPaths_openStore scan disk₀).after ops
  exact ⟨saveHarmless_iff hown, seedHarmless_iff hown⟩

end

/-! ### A sidecar that cannot be written -/

/-- An empty directory, opened. -/
def emptyDisk : NarDisk := ⟨⟨"/c/nar".toList, 4, ∅⟩, fun _ => none⟩

/-- The NAR is written; the sidecar is refused. -/
def noSidecar : SaveWorld := ⟨0, 0, true, .done, .refused⟩

/-- The save fails, and the NAR is announced as a seed. -/
theorem failed_save_is_seeded :
    let _ := sampleSha256
    let _ := noMetadataFormat
    let disk := emptyDisk.after [.reopen ⟨some [], fun _ => true, fun _ => true⟩]
    let saved := saveWithStorePath noSidecar (hashHex sampleNar) sampleNar none disk
    saved.result = .ok false ∧ disk.store.seededHashes = [] ∧
      saved.state.store.seededHashes = [hashHex sampleNar] ∧
      ¬ disk.SeedsUnchanged saved.state := by
  intro _ _ disk saved
  refine ⟨rfl, rfl, rfl, fun hunchanged => ?_⟩
  have hperm := hunchanged.seededHashes
  exact absurd hperm.length_eq (by decide)

end NarDisk

end GuixP2p
