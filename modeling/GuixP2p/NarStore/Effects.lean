import GuixP2p.NarStore.Index

/-!
# GuixP2p.NarStore.Effects

**What the operations of the store do to the disk.** For each operation, the state it leaves
as an equation or as a list of cases; what is proved about the store starts from these and
does not look at the operations again. `NarDisk.scanned` is what the scan makes of one file.
-/

namespace GuixP2p

open GuixP2p.Lib

variable [Sha256] [MetadataFormat]

namespace NarDisk

variable {disk : NarDisk} {h : Text}

/-- Put an entry into the index. -/
def insertEntry (disk : NarDisk) (narHashHex : Text) (entry : NarEntry) : NarDisk :=
  { disk with store := { disk.store with index := disk.store.index.insert narHashHex entry } }

/-- The store as it is before the scan. -/
def emptied (disk : NarDisk) : NarDisk := { disk with store := { disk.store with index := ∅ } }

/-- Write the sidecar of a hash. -/
def writeSidecar (disk : NarDisk) (narHashHex : Text) (metadata : NarMetadata)
    (outcome : WriteOutcome) : NarDisk :=
  { disk with files := (disk.files.write (disk.store.metadataPath narHashHex)
      (MetadataFormat.toVecPretty metadata) outcome).1 }

/-- Write the NAR file of a hash. -/
def writeNar (disk : NarDisk) (narHashHex : Text) (narData : Bytes) (outcome : WriteOutcome) :
    NarDisk :=
  { disk with files := (disk.files.write (disk.store.narPath narHashHex) narData outcome).1 }

/-! What is in an index that was changed at one hash. -/

omit [Sha256] [MetadataFormat]

theorem of_lookup_insertEntry {h' : Text} {entry entry' : NarEntry}
    (hentry : (disk.insertEntry h entry).store.index.lookup h' = some entry') :
    (h' = h ∧ entry' = entry) ∨ (h' ≠ h ∧ disk.store.index.lookup h' = some entry') := by
  have hlookup : (disk.store.index.insert h entry).lookup h' = some entry' := hentry
  by_cases heq : h' = h
  · subst heq
    rw [AList.lookup_insert] at hlookup
    exact Or.inl ⟨rfl, (Option.some.inj hlookup).symm⟩
  · rw [AList.lookup_insert_ne heq] at hlookup
    exact Or.inr ⟨heq, hlookup⟩

theorem of_lookup_modifyEntry {h' : Text} {f : NarEntry → NarEntry} {entry' : NarEntry}
    (hentry : (disk.modifyEntry h f).store.index.lookup h' = some entry') :
    (h' = h ∧ ∃ entry, disk.store.index.lookup h = some entry ∧ entry' = f entry) ∨
      (h' ≠ h ∧ disk.store.index.lookup h' = some entry') := by
  have hlookup : (disk.store.index.modify h f).lookup h' = some entry' := hentry
  by_cases heq : h' = h
  · subst heq
    rw [Table.lookup_modify_self, Option.map_eq_some_iff] at hlookup
    obtain ⟨entry, hold, rfl⟩ := hlookup
    exact Or.inl ⟨rfl, entry, hold, rfl⟩
  · rw [Table.lookup_modify_of_ne heq] at hlookup
    exact Or.inr ⟨heq, hlookup⟩

theorem of_lookup_eraseEntry {h' : Text} {entry' : NarEntry}
    (hentry : (disk.eraseEntry h).store.index.lookup h' = some entry') :
    h' ≠ h ∧ disk.store.index.lookup h' = some entry' := by
  have hlookup : (disk.store.index.erase h).lookup h' = some entry' := hentry
  by_cases heq : h' = h
  · subst heq
    simp at hlookup
  · rw [AList.lookup_erase_ne heq] at hlookup
    exact ⟨heq, hlookup⟩

end NarDisk

section

variable {disk : NarDisk} {h : Text}

omit [Sha256]

/-- What a save leaves behind, and what it reports. -/
theorem saveWithSource_eq (world : SaveWorld) (narData : Bytes) (storePath : Option Text)
    (source : SeedSource) :
    let saved := saveWithSource world h narData storePath source disk
    (saved.state, saved.result) =
      if (disk.files.write (disk.store.narPath h) narData world.nar).2 = true then
        if hb : 0 < disk.store.blockSize then
          let createdAt := ((readMetadata disk h world.sidecarReadable).map (·.createdAt)).getD world.now
          let narSize := UInt64.ofNat narData.length
          let metadata : NarMetadata := ⟨storePath, source, createdAt, world.updatedAt⟩
          (((disk.writeNar h narData world.nar).insertEntry h
            { path := disk.store.narPath h, narSize
              blockInfo := BlockInfo.fromFileSize narSize disk.store.blockSize hb
              storePath, source, createdAt }).writeSidecar h metadata world.sidecar,
            .ok ((disk.writeNar h narData world.nar).files.write (disk.store.metadataPath h)
              (MetadataFormat.toVecPretty metadata) world.sidecar).2)
        else (disk.writeNar h narData world.nar, .error .assertionFailed)
      else (disk.writeNar h narData world.nar, .ok false) := by
  intro saved
  show ((Action.bind Action.get _ disk).state, (Action.bind Action.get _ disk).result) = _
  simp only [Action.bind, Action.get]
  show ((Action.bind (writeFile _ _ _ _) _ disk).state, (Action.bind (writeFile _ _ _ _) _ disk).result) = _
  simp only [Action.bind, writeFile]
  by_cases hok : (disk.files.write (disk.store.narPath h) narData world.nar).2 = true
  · rw [hok]
    simp only [if_true]
    by_cases hb : 0 < disk.store.blockSize
    · rw [dif_pos hb]
      show ((Action.bind Action.get _ _).state, (Action.bind Action.get _ _).result) = _
      simp only [Action.bind, Action.get]
      rw [dif_pos hb]
      cases readMetadata disk h world.sidecarReadable with
      | none => rfl
      | some m => rfl
    · rw [dif_neg hb]
      show ((Action.bind Action.get _ _).state, (Action.bind Action.get _ _).result) = _
      simp only [Action.bind, Action.get]
      rw [dif_neg hb]
      rfl
  · rw [Bool.not_eq_true] at hok
    rw [hok]
    rfl

theorem state_saveWithSource (world : SaveWorld) (narData : Bytes) (storePath : Option Text)
    (source : SeedSource) :
    (saveWithSource world h narData storePath source disk).state =
      if (disk.files.write (disk.store.narPath h) narData world.nar).2 = true then
        if hb : 0 < disk.store.blockSize then
          let createdAt := ((readMetadata disk h world.sidecarReadable).map (·.createdAt)).getD world.now
          let narSize := UInt64.ofNat narData.length
          ((disk.writeNar h narData world.nar).insertEntry h
            { path := disk.store.narPath h, narSize
              blockInfo := BlockInfo.fromFileSize narSize disk.store.blockSize hb
              storePath, source, createdAt }).writeSidecar h
                ⟨storePath, source, createdAt, world.updatedAt⟩ world.sidecar
        else disk.writeNar h narData world.nar
      else disk.writeNar h narData world.nar := by
  have hstate := congrArg Prod.fst (@saveWithSource_eq _ disk h world narData storePath source)
  dsimp only at hstate
  rw [hstate]
  by_cases hok : (disk.files.write (disk.store.narPath h) narData world.nar).2 = true
  · rw [if_pos hok, if_pos hok]
    by_cases hb : 0 < disk.store.blockSize
    · rw [dif_pos hb, dif_pos hb]
    · rw [dif_neg hb, dif_neg hb]
  · rw [if_neg hok, if_neg hok]

/-- What `seed_store_path` does to a nar that is indexed. -/
theorem state_seedStorePath_of_indexed {world : SeedWorld} {entry : NarEntry}
    (hhash : world.narHashHex = some h) (hentry : disk.store.index.lookup h = some entry)
    (storePath : Text) :
    (seedStorePath world storePath disk).state =
      (disk.modifyEntry h fun _ => { entry with
          storePath := some (entry.storePath.getD storePath), source := .manual }).writeSidecar h
        ⟨some (entry.storePath.getD storePath), .manual, entry.createdAt, world.save.updatedAt⟩
        world.save.sidecar := by
  unfold seedStorePath
  rw [hhash]
  show (Action.bind Action.get _ disk).state = _
  simp only [Action.bind, Action.get]
  rw [hentry]
  rfl

/-- What `seed_store_path` does to a nar that is not. -/
theorem seedStorePath_of_free {world : SeedWorld} (hhash : world.narHashHex = some h)
    (hfree : disk.store.index.lookup h = none) (storePath : Text) :
    seedStorePath world storePath disk =
      (match world.exported with
        | none => pure none
        | some narData => do
          if ← saveWithSource world.save h narData (some storePath) .manual then pure (some h)
          else pure none : Action NarDisk FileWrite Panic (Option Text)) disk := by
  unfold seedStorePath
  rw [hhash]
  show Action.bind Action.get _ disk = _
  simp only [Action.bind, Action.get]
  rewrite [hfree]
  rfl

/-- Everything `seed_store_path` can do. -/
theorem state_seedStorePath (world : SeedWorld) (storePath : Text) :
    (seedStorePath world storePath disk).state = disk ∨
      (∃ h entry, world.narHashHex = some h ∧ disk.store.index.lookup h = some entry ∧
        (seedStorePath world storePath disk).state =
          (disk.modifyEntry h fun _ => { entry with
              storePath := some (entry.storePath.getD storePath), source := .manual }).writeSidecar h
            ⟨some (entry.storePath.getD storePath), .manual, entry.createdAt, world.save.updatedAt⟩
            world.save.sidecar) ∨
      (∃ h narData, world.narHashHex = some h ∧ world.exported = some narData ∧
        disk.store.index.lookup h = none ∧
        (seedStorePath world storePath disk).state =
          (saveWithSource world.save h narData (some storePath) .manual disk).state) := by
  cases hhash : world.narHashHex with
  | none =>
      refine Or.inl ?_
      unfold seedStorePath
      rw [hhash]
      rfl
  | some h =>
      cases hentry : disk.store.index.lookup h with
      | some entry =>
          exact Or.inr (Or.inl ⟨h, entry, rfl, hentry, state_seedStorePath_of_indexed hhash hentry _⟩)
      | none =>
          rw [seedStorePath_of_free hhash hentry]
          cases hexported : world.exported with
          | none => exact Or.inl rfl
          | some narData =>
              refine Or.inr (Or.inr ⟨h, narData, rfl, rfl, hentry, ?_⟩)
              show (Action.bind (saveWithSource _ _ _ _ _) _ disk).state = _
              simp only [Action.bind]
              cases (saveWithSource world.save h narData (some storePath) .manual disk).result with
              | error e => rfl
              | ok saved =>
                  cases saved with
                  | false => rfl
                  | true => rfl

theorem state_annotateEntry (storePath : Text) (world : SidecarWorld) :
    (annotateEntry h storePath world disk).state =
      match disk.store.index.lookup h with
      | none => disk
      | some entry =>
        if entry.storePath.isNone && !storePath.isEmpty then
          (disk.modifyEntry h fun _ => { entry with storePath := some storePath }).writeSidecar h
            ⟨some storePath, entry.source, entry.createdAt, world.updatedAt⟩ world.outcome
        else disk := by
  show (Action.bind Action.get _ disk).state = _
  simp only [Action.bind, Action.get]
  cases disk.store.index.lookup h with
  | none => rfl
  | some entry =>
      dsimp only
      split
      · rfl
      · rfl

/-- Annotating from narinfos annotates entries one after the other. -/
theorem annotateFromNarinfos_induction {P : NarDisk → Prop}
    {narinfos : List (Narinfo × SidecarWorld)}
    (hstep : ∀ e ∈ narinfos, ∀ digest, sha256Bytes e.1.narHash = .ok (some digest) → ∀ disk, P disk →
      P (annotateEntry (Hex.encode digest.toList) e.1.storePath e.2 disk).state)
    (hdisk : P disk) : P (annotateFromNarinfos narinfos disk).state := by
  induction narinfos generalizing disk with
  | nil => exact hdisk
  | cons e rest ih =>
      obtain ⟨narinfo, world⟩ := e
      rw [List.forall_mem_cons] at hstep
      show P (Action.bind (Action.ofExcept (sha256Bytes narinfo.narHash)) _ disk).state
      simp only [Action.bind]
      cases hhash : sha256Bytes narinfo.narHash with
      | error p => exact hdisk
      | ok digest =>
          cases digest with
          | none => exact ih hstep.2 hdisk
          | some digest =>
              have hnext := hstep.1 digest hhash disk hdisk
              show P (Action.bind (annotateEntry _ _ world) _ disk).state
              simp only [Action.bind]
              cases (annotateEntry (Hex.encode digest.toList) narinfo.storePath world disk).result with
              | error p => exact hnext
              | ok updated =>
                  have hrest := ih hstep.2 hnext
                  show P (Action.bind (annotateFromNarinfos rest) _ _).state
                  simp only [Action.bind]
                  cases (annotateFromNarinfos rest _).result with
                  | error p => exact hrest
                  | ok count => exact hrest

omit [MetadataFormat] in
theorem state_removeSeed (world : RemoveWorld) :
    (removeSeed h world disk).state =
      match disk.store.index.lookup h with
      | none => disk
      | some entry =>
        { disk.eraseEntry h with
          files := ((disk.files.removeFile entry.path world.nar).1.removeFile
            (disk.store.metadataPath h) world.sidecar).1 } := by
  show (Action.bind Action.get _ disk).state = _
  simp only [Action.bind, Action.get]
  cases disk.store.index.lookup h with
  | none => rfl
  | some entry => rfl

end

/-! ### What the scan finds -/

/-- What the scan records for the file of a hash, if it takes it up. -/
def NarDisk.scanned (disk : NarDisk) (world : ScanWorld) (h : Text) : Option NarEntry :=
  match if world.narReadable h then disk.files.read (disk.store.narPath h) else none with
  | none => none
  | some data =>
    if hb : 0 < disk.store.blockSize then
      if hashHex data = h then
        let metadata := readMetadata disk h (world.sidecarReadable h)
        some
          { path := disk.store.narPath h
            narSize := UInt64.ofNat data.length
            blockInfo := BlockInfo.fromFileSize (UInt64.ofNat data.length) disk.store.blockSize hb
            storePath := metadata.bind (·.storePath)
            source := (metadata.map (·.source)).getD .cache
            createdAt := (metadata.map (·.createdAt)).getD 0 }
      else none
    else none

/-- The scan takes up a file that is called after its digest. -/
theorem NarDisk.scanned_inv {disk : NarDisk} {world : ScanWorld} {h : Text} {entry : NarEntry}
    (hscan : disk.scanned world h = some entry) :
    ∃ (hb : 0 < disk.store.blockSize) (data : Bytes),
      disk.files.read (disk.store.narPath h) = some data ∧ hashHex data = h ∧
      let metadata := readMetadata disk h (world.sidecarReadable h)
      entry =
        { path := disk.store.narPath h
          narSize := UInt64.ofNat data.length
          blockInfo := BlockInfo.fromFileSize (UInt64.ofNat data.length) disk.store.blockSize hb
          storePath := metadata.bind (·.storePath)
          source := (metadata.map (·.source)).getD .cache
          createdAt := (metadata.map (·.createdAt)).getD 0 } := by
  unfold scanned at hscan
  split at hscan
  · cases hscan
  next data hdata =>
    have hread : disk.files.read (disk.store.narPath h) = some data := by
      split at hdata
      · exact hdata
      · cases hdata
    split at hscan
    next hb =>
      split at hscan
      next hhash => exact ⟨hb, data, hread, hhash, (Option.some.inj hscan).symm⟩
      next => cases hscan
    next => cases hscan

omit [MetadataFormat] [Sha256] in
/-- A name with an extension is its stem, a dot and the extension. -/
theorem eq_of_rsplitFileAtDot {name stem extension : Text}
    (h : rsplitFileAtDot name = (stem, some extension)) : name = stem ++ '.' :: extension := by
  unfold rsplitFileAtDot at h
  split at h
  · cases h
  · split at h
    · cases h
    · cases h
    next dot before _ hdrop =>
      obtain ⟨rfl, hext⟩ := Prod.mk.inj h
      obtain rfl := Option.some.inj hext
      have hdot : dot = '.' := by
        have hhead := List.head?_dropWhile_not (fun c => decide (c ≠ '.')) name.reverse
        rw [hdrop] at hhead
        simpa using hhead
      have hjoin := List.takeWhile_append_dropWhile (p := fun c => decide (c ≠ '.')) (l := name.reverse)
      rw [hdrop, hdot] at hjoin
      have hrev := congrArg List.reverse hjoin
      simpa using hrev.symm

omit [MetadataFormat] [Sha256] in
/-- Conversely, for a stem that is not empty and an extension without dots. -/
theorem rsplitFileAtDot_append {stem extension : Text} (hstem : stem ≠ [])
    (hdot : '.' ∉ extension) (hne : extension ≠ []) :
    rsplitFileAtDot (stem ++ '.' :: extension) = (stem, some extension) := by
  have hall : ∀ c ∈ extension.reverse, decide (c ≠ '.') = true := by
    intro c hc
    rw [List.mem_reverse] at hc
    exact decide_eq_true fun heq => hdot (heq ▸ hc)
  have hrev : (stem ++ '.' :: extension).reverse = extension.reverse ++ '.' :: stem.reverse := by
    simp
  have hdrop : (extension.reverse ++ '.' :: stem.reverse).dropWhile (fun c => decide (c ≠ '.')) =
      '.' :: stem.reverse := by
    rw [List.dropWhile_append_of_pos hall]
    simp
  have htake : (extension.reverse ++ '.' :: stem.reverse).takeWhile (fun c => decide (c ≠ '.')) =
      extension.reverse := by
    rw [List.takeWhile_append_of_pos hall]
    simp
  have hdots : stem ++ '.' :: extension ≠ "..".toList := by
    intro heq
    have hlen := congrArg List.length heq
    have hstem' := List.length_pos_iff.mpr hstem
    have hne' := List.length_pos_iff.mpr hne
    simp at hlen
    omega
  obtain ⟨c, before, hbefore⟩ := List.exists_cons_of_ne_nil (List.reverse_ne_nil_iff.mpr hstem)
  unfold rsplitFileAtDot
  rw [if_neg hdots, hrev, hdrop, htake, hbefore]
  simp [← hbefore]

omit [Sha256] [MetadataFormat] in
/-- The path of a file the scan takes up. -/
theorem NarStore.narPath_eq (store : NarStore) (h : Text) :
    store.narPath h = store.cacheDir ++ "/".toList ++ (h ++ ".nar".toList) := by
  simp [narPath]

/-- A file that is not a NAR file is passed over. -/
theorem state_scanFile_of_ne {world : ScanWorld} {name : Text} {disk : NarDisk}
    (hname : ∀ stem, rsplitFileAtDot name ≠ (stem, some "nar".toList)) :
    scanFile world name disk = ⟨[], disk, .ok ()⟩ := by
  have hrun : scanFile world name disk = Action.bind Action.get (fun disk => _) disk := rfl
  rw [hrun]
  simp only [Action.bind, Action.get]
  cases hsplit : rsplitFileAtDot name with
  | mk stem extension =>
      cases extension with
      | none => rfl
      | some extension =>
          have hne : extension ≠ "nar".toList := fun heq => hname stem (heq ▸ hsplit)
          dsimp only
          rw [if_neg hne]
          rfl

/-- A NAR file is indexed as `scanned` says. -/
theorem state_scanFile {world : ScanWorld} {name stem : Text} {disk : NarDisk}
    (hname : rsplitFileAtDot name = (stem, some "nar".toList)) :
    (scanFile world name disk).state =
        (match disk.scanned world stem with
          | some entry => disk.insertEntry stem entry
          | none => disk) ∧
      (0 < disk.store.blockSize → (scanFile world name disk).result = .ok ()) := by
  have hpath : disk.store.cacheDir ++ "/".toList ++ name = disk.store.narPath stem := by
    rw [NarStore.narPath_eq, eq_of_rsplitFileAtDot hname]
    rfl
  unfold NarDisk.scanned
  rw [← hpath]
  have hrun : scanFile world name disk = Action.bind Action.get (fun disk => _) disk := rfl
  rw [hrun]
  simp only [Action.bind, Action.get, hname, if_true]
  cases (if world.narReadable stem = true then
      disk.files.read (disk.store.cacheDir ++ "/".toList ++ name) else none) with
  | none => exact ⟨rfl, fun _ => rfl⟩
  | some data =>
      dsimp only
      by_cases hhash : Hex.encode (Sha256.digest data).toList = stem
      · by_cases hb : 0 < disk.store.blockSize
        · rw [if_pos hhash, dif_pos hb, dif_pos hb, if_pos (show hashHex data = stem from hhash)]
          exact ⟨rfl, fun _ => rfl⟩
        · rw [if_pos hhash, dif_neg hb, dif_neg hb]
          exact ⟨rfl, fun hb' => absurd hb' hb⟩
      · by_cases hb : 0 < disk.store.blockSize
        · rw [if_neg hhash, dif_pos hb, if_neg (show ¬ hashHex data = stem from hhash)]
          exact ⟨rfl, fun _ => rfl⟩
        · rw [if_neg hhash, dif_neg hb]
          exact ⟨rfl, fun _ => rfl⟩

/-- Opening the store starts from an empty index. -/
theorem openStore_eq (world : ScanWorld) (disk : NarDisk) :
    openStore world disk = scan world disk.emptied := rfl

/-- Everything the scan does is to insert what `scanned` finds. -/
theorem scanFiles_induction {world : ScanWorld} {P : NarDisk → Prop}
    (hstep : ∀ disk h entry, P disk → disk.scanned world h = some entry → P (disk.insertEntry h entry))
    {names : List Text} {disk : NarDisk} (hdisk : P disk) : P (scanFiles world names disk).state := by
  induction names generalizing disk with
  | nil => exact hdisk
  | cons name names ih =>
      have hfile : P (scanFile world name disk).state := by
        by_cases hname : ∃ stem, rsplitFileAtDot name = (stem, some "nar".toList)
        · obtain ⟨stem, hstem⟩ := hname
          rw [(state_scanFile hstem).1]
          cases hscan : disk.scanned world stem with
          | none => exact hdisk
          | some entry => exact hstep disk stem entry hdisk hscan
        · rw [state_scanFile_of_ne (not_exists.mp hname)]
          exact hdisk
      show P (Action.bind (scanFile world name) _ disk).state
      simp only [Action.bind]
      cases (scanFile world name disk).result with
      | error p => exact hfile
      | ok _ => exact ih hfile

/-- What an empty index has and an insertion of the scan keeps, a started store has. -/
theorem openStore_induction {world : ScanWorld} {P : NarDisk → Prop}
    (hstep : ∀ disk h entry, P disk → disk.scanned world h = some entry → P (disk.insertEntry h entry))
    {disk : NarDisk} (hempty : P disk.emptied) : P (openStore world disk).state := by
  rw [openStore_eq]
  unfold scan
  cases world.listing with
  | none => exact hempty
  | some names => exact scanFiles_induction hstep hempty

end GuixP2p
