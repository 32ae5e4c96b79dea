import GuixP2p.Daemon.Liveness
import GuixP2p.NarStore.Integrity

/-!
# GuixP2p.Daemon.Replication

**Seeds spread.** A node whose store has come about in any way, by start-ups, seeds, downloads and
removals with any of their file operations failing, can serve every NAR in its index. So a download
from such nodes succeeds in every fair environment, and the node that saves what it got becomes one
that the NAR can be downloaded from in turn.

A `Seeder` carries the history of its disk, so that what holds of every history is a fact about it.
-/

namespace GuixP2p

open GuixP2p.Lib

/-- An index entry is in step with the file it points to. -/
theorem NarDisk.Intact.holdsNar [Sha256] {disk : NarDisk} (hintact : disk.Intact) {h : Text} {entry : NarEntry}
    (hentry : disk.store.index.lookup h = some entry) :
    ∃ bytes, hashHex bytes = h ∧ disk.store.HoldsNar disk.files.read bytes := by
  obtain ⟨-, bytes, hread, rfl, hsize, hb, hinfo⟩ := hintact h entry hentry
  exact ⟨bytes, rfl, hb, entry, hentry, hread, by rw [hinfo, hsize]⟩

variable [Sha256] [MetadataFormat]

/-- The disk of a node that was started on some directory, after any operations of its store. -/
structure Seeder where
  disk : NarDisk
  reached : ∃ (before : NarDisk) (world : ScanWorld) (ops : List StoreOp), (∀ op ∈ ops, op.Guarded) ∧
    disk = before.after (.reopen world :: ops)

namespace Seeder

variable {node : PeerId → Seeder} {cfg : Config} {data : Bytes} {narSize : UInt64} {first : PeerHandshake}
  {rest : List PeerHandshake}

theorem intact (s : Seeder) : s.disk.Intact := by
  obtain ⟨before, world, ops, hops, heq⟩ := s.reached
  rw [heq]
  exact NarDisk.Intact.after (NarDisk.intact_openStore world before) hops

theorem after_append (disk : NarDisk) (ops ops' : List StoreOp) :
    disk.after (ops ++ ops') = (disk.after ops).after ops' := by
  induction ops generalizing disk with
  | nil => rfl
  | cons op ops ih => exact ih _

/-- One more operation. -/
def act (s : Seeder) (op : StoreOp) (hop : op.Guarded) : Seeder where
  disk := (op.action s.disk).state
  reached := by
    obtain ⟨before, world, ops, hops, heq⟩ := s.reached
    refine ⟨before, world, ops ++ [op], fun o ho => ?_, ?_⟩
    · rcases List.mem_append.mp ho with ho | ho
      · exact hops o ho
      · rwa [List.mem_singleton.mp ho]
    · rw [← List.cons_append, after_append, ← heq]
      rfl

/-- The node saves a NAR that it has downloaded. -/
def autoSeed (s : Seeder) (world : SaveWorld) (narData : Bytes) (storePath : Text) : Seeder :=
  s.act (.autoSeed world narData storePath) trivial

/-- The swarm of these nodes. -/
def providers (node : PeerId → Seeder) : Providers where
  store p := (node p).disk.store
  files p := (node p).disk.files.read

/-- No file of the node differs from `data` and has its digest. -/
def NoCollision (s : Seeder) (data : Bytes) : Prop :=
  ∀ path bytes, s.disk.files.read path = some bytes → Sha256.digest bytes = Sha256.digest data → bytes = data

/-- The node holds what it has indexed under the digest of `data`. -/
theorem holdsNar (s : Seeder) (hno : s.NoCollision data) {entry : NarEntry}
    (hentry : s.disk.store.index.lookup (hashHex data) = some entry) :
    s.disk.store.HoldsNar s.disk.files.read data := by
  obtain ⟨bytes, hhash, hholds⟩ := s.intact.holdsNar hentry
  obtain ⟨entry', -, hread, -⟩ := hholds.indexed
  have hdigest : Sha256.digest bytes = Sha256.digest data :=
    Vector.toList_inj.mp (Hex.encode_injective hhash)
  rwa [hno _ bytes hread hdigest] at hholds

/-- Only a store that has the NAR in its index answers a handshake. -/
theorem indexed_of_reply {s : Seeder} {r : BlockResponse}
    (h : s.disk.store.handleRequest s.disk.files.read (.handshake (Sha256.digest data).toList) = .ok (some r)) :
    ∃ entry, s.disk.store.index.lookup (hashHex data) = some entry := by
  cases hentry : s.disk.store.index.lookup (Hex.encode (Sha256.digest data).toList) with
  | none => simp [NarStore.handleRequest, hentry] at h
  | some entry => exact ⟨entry, hentry⟩

/-- The file of a NAR that is saved is the NAR. -/
theorem holdsNar_autoSeed (s : Seeder) (hno : s.NoCollision data) (hb : 0 < s.disk.store.blockSize)
    {world : SaveWorld} (hwritten : (s.disk.files.write (s.disk.store.narPath (hashHex data)) data world.nar).2 = true)
    (storePath : Text) :
    (s.autoSeed world data storePath).disk.store.HoldsNar (s.autoSeed world data storePath).disk.files.read data := by
  have hdisk : (s.autoSeed world data storePath).disk =
      if s.disk.store.hasNar (hashHex data) then s.disk
      else (saveWithSource world (hashHex data) data (some storePath) .downloaded s.disk).state := by
    have hrun : (StoreOp.autoSeed world data storePath).action s.disk =
        Action.bind Action.get (fun disk => _) s.disk := rfl
    show ((StoreOp.autoSeed world data storePath).action s.disk).state = _
    rw [hrun]
    simp only [Action.bind, Action.get]
    split
    · rfl
    · rw [Action.state_discard]
      rfl
  rw [hdisk]
  split
  next hhas =>
    obtain ⟨entry, hentry⟩ := Option.isSome_iff_exists.mp hhas
    exact s.holdsNar hno hentry
  next =>
    rw [state_saveWithSource, if_pos hwritten, dif_pos hb]
    refine ⟨hb, _, AList.lookup_insert _, ?_, rfl⟩
    -- the sidecar is written to another file
    exact (FileSystem.read_congr (FileSystem.write_apply_of_ne
      (NarStore.metadataPath_ne_narPath (hashHex data) (hashHex data)).symm _ _)).trans
        (FileSystem.read_of_write hwritten)

/-- Handshakes with such nodes are those of an honest run. -/
theorem honest (hblock : ∀ p, (node p).disk.store.blockSize = cfg.blockSize)
    (hno : ∀ p, (node p).NoCollision data) {handshakes : List PeerHandshake}
    (hreplied : ∀ hs ∈ handshakes, ∃ r,
      (node hs.peer).disk.store.handleRequest (node hs.peer).disk.files.read
        (.handshake (Sha256.digest data).toList) = .ok (some r) ∧ PeerHandshake.ofReply hs.peer r = some hs) :
    HonestRun (providers node) data cfg.blockSize handshakes [] where
  blockSize_eq hs _ := hblock hs.peer
  holds hs hhs := by
    obtain ⟨r, hr, -⟩ := hreplied hs hhs
    obtain ⟨entry, hentry⟩ := indexed_of_reply hr
    exact (node hs.peer).holdsNar (hno hs.peer) hentry
  replied := hreplied
  served := nofun

/-- **Seeds spread.** Whatever the nodes have been through: if some of them reply to a handshake for
`data`, a download from those that do returns `data`, in every fair environment; and any node that
then saves it, its own past being what it may, holds it and can be asked for it. -/
theorem seeds_spread (world : P2pWorld) (hblock : ∀ p, (node p).disk.store.blockSize = cfg.blockSize)
    (hno : ∀ p, (node p).NoCollision data) (hne : data ≠ []) (hmem : data.length < 2 ^ 63)
    (hb : 0 < cfg.blockSize) (hcount : chunkCount data.length cfg.blockSize.toNat < 2 ^ 32)
    (hsize : narSize = UInt64.ofNat data.length ∨ narSize = 0)
    (hreplied : ∀ hs ∈ first :: rest, ∃ r,
      (node hs.peer).disk.store.handleRequest (node hs.peer).disk.files.read
        (.handshake (Sha256.digest data).toList) = .ok (some r) ∧ PeerHandshake.ofReply hs.peer r = some hs)
    {events : ℕ → TransferEvent}
    (hfair : Transfer.Fair (providers node) cfg (Transfer.deadline cfg world.download narSize) data
      (Transfer.entered cfg world.download (first :: rest) narSize
        (downloadBlockInfo narSize cfg.blockSize hb first) (Sha256.digest data)) events) :
    ∃ n, ∀ later, ∃ nar, fetchFromPeers cfg
        { world with download :=
          { world.download with turns := (Machine.upTo events n).map TransferEvent.turn ++ later } }
        (Sha256.digest data) narSize (first :: rest) = .ok (.ok nar) ∧
      ∀ (p : PeerId) (save : SaveWorld) (storePath : Text),
        ((node p).disk.files.write ((node p).disk.store.narPath (hashHex nar)) nar save.nar).2 = true →
        ((node p).autoSeed save nar storePath).disk.store.HoldsNar
          ((node p).autoSeed save nar storePath).disk.files.read data := by
  obtain ⟨n, hn⟩ := Transfer.download_of_fair world.download hne hmem hb hcount hsize (honest hblock hno hreplied) hfair
  refine ⟨n, fun later => ⟨data, ?_, fun p save storePath hwritten => ?_⟩⟩
  · simp only [fetchFromPeers, Transfer.p2pBlockInfo_eq hb, hn later]
  · exact (node p).holdsNar_autoSeed (hno p) (by rw [hblock p]; exact hb) hwritten storePath

end Seeder

/-! ### A swarm of nodes with the same disk -/

open Transfer (fetchConfig sampleWorld sampleEvent)

/-- A node that was started on a directory with one NAR. -/
def sampleSeeder : @Seeder sampleSha256 noMetadataFormat :=
  @Seeder.mk sampleSha256 noMetadataFormat
    (@NarDisk.after sampleSha256 noMetadataFormat oneNarDisk [.reopen oneNarScan])
    ⟨oneNarDisk, oneNarScan, [], nofun, rfl⟩

omit [Sha256] [MetadataFormat] in
theorem sampleSeeder_disk : ∃ entry,
    @Seeder.disk sampleSha256 noMetadataFormat sampleSeeder =
      oneNarDisk.emptied.insertEntry (@hashHex sampleSha256 sampleNar) entry := by
  let _ := sampleSha256
  let _ := noMetadataFormat
  obtain ⟨entry, hfound⟩ := oneNarScan_finds
  have hname : rsplitFileAtDot (hashHex sampleNar ++ ".nar".toList) = (hashHex sampleNar, some "nar".toList) :=
    rsplitFileAtDot_append (Hex.encode_ne_nil (by simp)) (by decide) (by decide)
  obtain ⟨hstate, hresult⟩ := @state_scanFile _ _ oneNarScan _ _ oneNarDisk.emptied hname
  rw [hfound] at hstate
  have hrun : openStore oneNarScan oneNarDisk =
      (do scanFile oneNarScan (hashHex sampleNar ++ ".nar".toList); pure ()) oneNarDisk.emptied := rfl
  refine ⟨entry, ?_⟩
  show (openStore oneNarScan oneNarDisk).state = _
  rw [hrun, Action.bind_of_ok (hresult (by decide))]
  exact hstate

omit [Sha256] [MetadataFormat] in
theorem sampleSeeder_noCollision : @Seeder.NoCollision sampleSha256 noMetadataFormat sampleSeeder sampleNar := by
  intro path bytes hread _
  obtain ⟨entry, hdisk⟩ := sampleSeeder_disk
  rw [hdisk] at hread
  by_cases hpath : path = "/c/nar/".toList ++ @hashHex sampleSha256 sampleNar ++ ".nar".toList
  · simp [FileSystem.read, NarDisk.insertEntry, NarDisk.emptied, oneNarDisk, hpath] at hread
    exact hread.symm
  · have hnone : (oneNarDisk.emptied.insertEntry (@hashHex sampleSha256 sampleNar) entry).files path = none :=
      Function.update_of_ne hpath _ fun _ => none
    simp [FileSystem.read, hnone] at hread

omit [Sha256] [MetadataFormat] in
theorem sampleSeeder_replies (hs : PeerHandshake) (hhs : hs ∈ [sampleHandshake peerA]) : ∃ r,
    @NarStore.handleRequest sampleSha256 (@Seeder.disk sampleSha256 noMetadataFormat sampleSeeder).store
      (@Seeder.disk sampleSha256 noMetadataFormat sampleSeeder).files.read
      (.handshake (sampleSha256.digest sampleNar).toList) = .ok (some r) ∧
      PeerHandshake.ofReply hs.peer r = some hs := by
  let _ := sampleSha256
  let _ := noMetadataFormat
  obtain rfl := List.mem_singleton.mp hhs
  obtain ⟨entry, hdisk⟩ := sampleSeeder_disk
  have hentry : sampleSeeder.disk.store.index.lookup (hashHex sampleNar) = some entry := by
    rw [hdisk]
    exact AList.lookup_insert _
  have hblock : sampleSeeder.disk.store.blockSize = 4 := by
    rw [hdisk]
    rfl
  have hreply := (sampleSeeder.holdsNar sampleSeeder_noCollision hentry).handshake (by decide) (by decide)
  rw [hblock] at hreply
  exact ⟨_, hreply, by decide⟩

/-- The block arrives in the first turn. -/
def oneBlockEvent : TransferEvent where
  turn := { sampleEvent.turn with waited := .note (.blockResponse peerA (.blocks [⟨0, sampleNar⟩])) }
  gone := {(peerA, .getBlocks (sampleSha256.digest sampleNar).toList [0])}

/-- A download of the one block. -/
def oneBlockEntered : Transfer :=
  Transfer.entered fetchConfig sampleWorld.download [sampleHandshake peerA] 4
    (downloadBlockInfo 4 4 BlockInfo.four_pos (sampleHandshake peerA)) (sampleSha256.digest sampleNar)

omit [Sha256] [MetadataFormat] in
theorem oneBlockEvent_fair (ps : Providers) :
    @Transfer.Fair sampleSha256 ps fetchConfig (Transfer.deadline fetchConfig sampleWorld.download 4) sampleNar
      oneBlockEntered fun _ => oneBlockEvent := by
  refine @Transfer.fair_of_ends sampleSha256 _ _ _ _ _ _
    ⟨by decide +kernel, by decide +kernel, by simp [oneBlockEvent]⟩ ?_ ?_
  · intro peer blocks hw bd hbd i hdigest
    obtain ⟨-, rfl⟩ : peerA = peer ∧ [⟨0, sampleNar⟩] = blocks := by simpa [oneBlockEvent] using hw
    obtain rfl := List.mem_singleton.mp hbd
    rcases i with _ | i
    · rfl
    · have hchunk : chunkAt fetchConfig.blockSize.toNat sampleNar (i + 1) = [] := by
        rw [chunkAt, List.drop_eq_nil_of_le (by simp [sampleNar, fetchConfig]), List.take_nil]
      rw [hchunk] at hdigest
      exact absurd hdigest (by decide)
  · have h : (@Transfer.step sampleSha256 fetchConfig (Transfer.deadline fetchConfig sampleWorld.download 4)
        (sampleSha256.digest sampleNar) oneBlockEntered oneBlockEvent).toBool = false := by
      decide +kernel
    cases hstep : @Transfer.step sampleSha256 fetchConfig (Transfer.deadline fetchConfig sampleWorld.download 4)
        (sampleSha256.digest sampleNar) oneBlockEntered oneBlockEvent with
    | error f => exact ⟨f, rfl⟩
    | ok y => rw [hstep] at h; cases h

omit [Sha256] [MetadataFormat] in
/-- A node that has the NAR already holds it after the download. -/
theorem seeds_spread_sample : ∃ turns nar, @fetchFromPeers sampleSha256 fetchConfig
    { sampleWorld with download := { sampleWorld.download with turns := turns } }
    (sampleSha256.digest sampleNar) 4 [sampleHandshake peerA] = .ok (.ok nar) := by
  obtain ⟨n, hn⟩ := @Seeder.seeds_spread sampleSha256 noMetadataFormat (fun _ => sampleSeeder) fetchConfig sampleNar 4
    (sampleHandshake peerA) [] sampleWorld
    (fun _ => by
      obtain ⟨entry, hdisk⟩ := sampleSeeder_disk
      rw [hdisk]
      rfl)
    (fun _ => sampleSeeder_noCollision) (by decide) (by decide) BlockInfo.four_pos (by decide) (Or.inl rfl)
    sampleSeeder_replies _ (oneBlockEvent_fair _)
  obtain ⟨nar, hnar, -⟩ := hn []
  exact ⟨_, nar, hnar⟩

end GuixP2p
