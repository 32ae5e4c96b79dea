import GuixP2p.Daemon.FetchSafety
import GuixP2p.Daemon.Handshake
import GuixP2p.NarStore.Serve

/-!
# GuixP2p.Daemon.HonestSwarm

**Provider and downloader agree.** The two sides cut a NAR into blocks by different
code: a provider takes the chunks of the file and seeks to offsets, the downloader
computes a layout from the size, or takes the first peer's count when the size is
unknown. Against providers that hold the NAR, in every run of the download, each
block they send has the digest the downloader expects, and a complete download
assembles to exactly the NAR.

`HonestRun` says what such a run is. The scheduler's events stay arbitrary; only the
blocks in responses of the handshaked peers have to come from their stores.
-/

namespace GuixP2p

open GuixP2p.Lib

variable [Sha256]

/-- The nodes of the swarm: the store of each peer and what its file system answers. -/
structure Providers where
  store : PeerId → NarStore
  files : PeerId → Files

/-- `bd` is part of an answer of `peer` to some request for the blocks of `data`. -/
def Providers.Serves (ps : Providers) (data : Bytes) (peer : PeerId) (bd : BlockData) : Prop :=
  ∃ indices served,
    (ps.store peer).handleRequest (ps.files peer) (.getBlocks (Sha256.digest data).toList indices) =
      .ok (some (.blocks served)) ∧ bd ∈ served

/-- A download of `data` in which every handshaked peer holds it: the handshakes are
the replies of the peers' stores, and every block of a response comes from the
store of its sender. Responses may be repeated, cut down, reordered or lost. -/
structure HonestRun (ps : Providers) (data : Bytes) (blockSize : UInt64)
    (handshakes : List PeerHandshake) (events : List FetchEvent) : Prop where
  blockSize_eq : ∀ hs ∈ handshakes, (ps.store hs.peer).blockSize = blockSize
  holds : ∀ hs ∈ handshakes, (ps.store hs.peer).HoldsNar (ps.files hs.peer) data
  replied : ∀ hs ∈ handshakes, ∃ r,
    (ps.store hs.peer).handleRequest (ps.files hs.peer) (.handshake (Sha256.digest data).toList) =
      .ok (some r) ∧ PeerHandshake.ofReply hs.peer r = some hs
  served : ∀ peer blocks, FetchEvent.response peer blocks ∈ events →
    (∃ hs ∈ handshakes, hs.peer = peer) → ∀ bd ∈ blocks, ps.Serves data peer bd

namespace HonestRun

variable {ps : Providers} {data : Bytes} {blockSize : UInt64} {handshakes : List PeerHandshake}
  {events : List FetchEvent}

/-- What every handshake of an honest run says. -/
theorem handshake_eq (h : HonestRun ps data blockSize handshakes events) (hne : data ≠ [])
    (hmem : data.length < 2 ^ 63) {hs : PeerHandshake} (hhs : hs ∈ handshakes) :
    hs.blockHashes = computeBlockHashes data blockSize.toNat ∧
      hs.blockCount = UInt32.ofNat (chunkCount data.length blockSize.toNat) := by
  obtain ⟨r, hr, hof⟩ := h.replied hs hhs
  have hsize := h.blockSize_eq hs hhs
  rw [(h.holds hs hhs).handshake hne hmem] at hr
  obtain rfl := Option.some.inj (Except.ok.inj hr)
  have heq := Option.some.inj hof
  rw [← heq]
  refine ⟨?_, by rw [hsize]⟩
  simp [normalizeBlockHashes, Function.comp_def, blockHashArray_toList, hsize]

/-- A block an honest peer sends under a valid index is the chunk at that index. -/
theorem served_eq (h : HonestRun ps data blockSize handshakes events)
    (hmem : data.length < 2 ^ 63) {hs : PeerHandshake} (hhs : hs ∈ handshakes) {bd : BlockData}
    (hserves : ps.Serves data hs.peer bd)
    (hi : bd.index.toNat < chunkCount data.length blockSize.toNat) :
    bd.data = chunkAt blockSize.toNat data bd.index.toNat := by
  obtain ⟨indices, served, hreq, hbd⟩ := hserves
  obtain ⟨entry, hentry, hfile, -⟩ := (h.holds hs hhs).indexed
  have hsize := h.blockSize_eq hs hhs
  rw [← hsize] at hi ⊢
  exact NarStore.chunkAt_of_serveBlocks (h.holds hs hhs).blockSize_pos hentry hfile hmem hreq hbd hi

end HonestRun

namespace BlockDownload

variable {ps : Providers} {data : Bytes} {blockSize narSize : UInt64} {first : PeerHandshake}
  {rest : List PeerHandshake} {events : List FetchEvent} {cfg : FetchConfig}
  {s₀ s : BlockDownload}

/-- Every copy held is the chunk at its index. -/
def HoldsChunks (data : Bytes) (blockSize : Nat) (s : BlockDownload) : Prop :=
  ∀ p i b, s.download.HoldsFrom p i b → b = chunkAt blockSize data i

/-- What every block a handshaked peer sends under a valid index satisfies, every copy held
satisfies. -/
theorem run_holds {handshakes : List PeerHandshake} {blockInfo : BlockInfo} {narHashHex : Text}
    {Q : Nat → Bytes → Prop} (hstart : Started narHashHex narSize blockInfo handshakes s₀)
    (hsent : ∀ peer blocks, FetchEvent.response peer blocks ∈ events →
      (∃ hs ∈ handshakes, hs.peer = peer) → ∀ bd ∈ blocks,
        bd.index.toNat < blockInfo.blockCount.toNat → Q bd.index.toNat bd.data)
    (hrun : Machine.run (step cfg) s₀ events = .ok s) :
    ∀ p i b, s.download.HoldsFrom p i b → Q i b := by
  have hguard : Machine.Meets (step cfg) (fun _ e => e ∈ events) s₀ events :=
    Machine.meets_of_forall (fun e he _ => he) s₀
  have hinv : s.WellFormed ∧ (s.download.blockInfo = blockInfo ∧
      ∀ p, p ∈ s.download.receivers ↔ ∃ hs ∈ handshakes, hs.peer = p) ∧
      ∀ p i b, s.download.HoldsFrom p i b → Q i b := by
    refine Machine.run_guarded_invariant (P := fun s => s.WellFormed ∧
      (s.download.blockInfo = blockInfo ∧
        ∀ p, p ∈ s.download.receivers ↔ ∃ hs ∈ handshakes, hs.peer = p) ∧
      ∀ p i b, s.download.HoldsFrom p i b → Q i b) (fun a e b ha he hab => ?_) ?_ hguard hrun
    · obtain ⟨hwf, hfields, hheld⟩ := ha
      refine ⟨step_wellFormed cfg a e b hwf hab, step_fields hfields hab, ?_⟩
      rcases step_cases hab with ⟨sched, -, -, rfl⟩ |
        ⟨peer, blocks, download, accepted, rfl, hrec, rfl⟩
      · exact hheld
      · intro p i c hc
        rcases ActiveDownload.holdsFrom_of_recordBlocks hrec hc with hold |
          ⟨idx, hidx, rfl, hmem, -⟩
        · exact hheld p i c hold
        · have hlt := lt_length_of_accepted hwf hrec ⟨idx, hidx, rfl⟩
          rw [hwf.length_eq, hfields.1] at hlt
          obtain ⟨r, _, hr, -⟩ := (ActiveDownload.mem_accepted_iff hrec idx).mp hidx
          have hknown := (hfields.2 peer).mp (Table.mem_iff_exists_lookup.mpr ⟨r, hr⟩)
          exact hsent peer blocks he hknown ⟨idx, c⟩ (mem_decodeBlockData.mp hmem) hlt
    · refine ⟨hstart.wellFormed, ⟨hstart.blockInfo_eq, hstart.receivers_mem⟩, ?_⟩
      intro p i b h
      obtain ⟨r, hr, hb⟩ := h
      rw [hstart.receivers_empty p r hr] at hb
      cases List.eq_of_mem_replicate (List.mem_of_getElem? hb)
  exact hinv.2.2

/-- The NAR that a download is for passes its final checks, in every state of a run. -/
theorem checkNar_of_run {blockInfo : BlockInfo} {handshakes : List PeerHandshake} {s : BlockDownload}
    (hmem : data.length < 2 ^ 64) (hsize : narSize = UInt64.ofNat data.length ∨ narSize = 0)
    (hstarted : Started (Hex.encode (Sha256.digest data).toList) narSize blockInfo handshakes s₀)
    (hframe : Frame s₀ s) : s.download.checkNar data = .ok data := by
  refine ActiveDownload.checkNar_eq_ok ?_ (hframe.narHashHex.trans hstarted.narHashHex_eq)
  rw [hframe.narSize, hstarted.narSize_eq]
  rcases hsize with rfl | rfl
  · exact Or.inr (UInt64.toNat_ofNat_of_lt' hmem).symm
  · exact Or.inl rfl

/-- **Honest swarm correctness.** In every run against providers that hold `data`, the
download does not panic, every block they send under a valid index has the expected
digest, and once `is_complete` holds, `assemble` returns exactly `data`. -/
theorem honest_swarm (hne : data ≠ []) (hmem : data.length < 2 ^ 63) (hb : 0 < blockSize)
    (hcount : chunkCount data.length blockSize.toNat < 2 ^ 32)
    (hsize : narSize = UInt64.ofNat data.length ∨ narSize = 0)
    (hstart : (start (Hex.encode (Sha256.digest data).toList) narSize
      (downloadBlockInfo narSize blockSize hb first) (first :: rest)).SameMaps s₀)
    (hhonest : HonestRun ps data blockSize (first :: rest) events) :
    ∃ s, Machine.run (step cfg) s₀ events = .ok s ∧
      (∀ peer blocks, FetchEvent.response peer blocks ∈ events →
        (∃ hs ∈ first :: rest, hs.peer = peer) → ∀ bd ∈ blocks,
          bd.index < s.download.blockInfo.blockCount →
          s.download.blockInfo.blockHashes[bd.index.toNat]? = some (Sha256.digest bd.data)) ∧
      (s.download.isComplete = .ok true → s.download.assemble = .ok (.ok data)) := by
  have hstarted := started_of_sameMaps hstart
  obtain ⟨hhashes, hfirst⟩ := hhonest.handshake_eq hne hmem (List.mem_cons_self)
  have hlen : (UInt64.ofNat data.length).toNat = data.length :=
    UInt64.toNat_ofNat_of_lt' (show data.length < 2 ^ 64 by omega)
  -- both ways of computing the block count give the number of chunks
  have hblocks : (downloadBlockInfo narSize blockSize hb first).blockCount.toNat =
      chunkCount data.length blockSize.toNat := by
    rw [blockCount_downloadBlockInfo, requiredHashes]
    split
    next => rw [hfirst, UInt32.toNat_ofNat_of_lt' hcount]
    next hnonzero =>
      obtain rfl := hsize.resolve_right hnonzero
      rw [hlen, Nat.mod_eq_of_lt hcount]
  have hinfo := @blockHashes_downloadBlockInfo narSize blockSize hb first
  rw [hhashes] at hinfo
  have hchunk : ∀ peer blocks, FetchEvent.response peer blocks ∈ events →
      (∃ hs ∈ first :: rest, hs.peer = peer) → ∀ bd ∈ blocks,
        bd.index.toNat < chunkCount data.length blockSize.toNat →
        bd.data = chunkAt blockSize.toNat data bd.index.toNat := by
    rintro peer blocks hevent ⟨hs, hhs, rfl⟩ bd hbd hlt
    exact hhonest.served_eq hmem hhs (hhonest.served hs.peer blocks hevent ⟨hs, hhs, rfl⟩ bd hbd) hlt
  obtain ⟨s, hrun⟩ := run_ok_of_hashes hstarted
    (by rw [hblocks, hinfo, length_computeBlockHashes]) cfg events
  have hframe := run_frame hrun
  have hs_info : s.download.blockInfo = downloadBlockInfo narSize blockSize hb first :=
    hframe.blockInfo.trans hstarted.blockInfo_eq
  refine ⟨s, hrun, fun peer blocks hevent hknown bd hbd hlt => ?_, fun hcomplete => ?_⟩
  · rw [UInt32.lt_iff_toNat_lt, hs_info, hblocks] at hlt
    rw [hs_info, hinfo, getElem?_computeBlockHashes hlt,
      hchunk peer blocks hevent hknown bd hbd hlt]
  · have hwf := Machine.run_invariant (step_wellFormed cfg) hstarted.wellFormed hrun
    obtain ⟨b, hb', hall⟩ := ActiveDownload.isComplete_spec hwf.slotsFit
    obtain rfl : b = true := Except.ok.inj (hb'.symm.trans hcomplete)
    have hheld : s.HoldsChunks data blockSize.toNat :=
      run_holds hstarted (by rw [hblocks]; exact hchunk) hrun
    have hflat : ((List.range (chunkCount data.length blockSize.toNat)).map
        (chunkAt blockSize.toNat data)).flatten = data :=
      flatten_chunks (UInt64.lt_iff_toNat_lt.mp hb) data
    rw [ActiveDownload.assemble_eq hwf.slotsFit (hall.mp rfl) hheld, hs_info, hblocks, hflat,
      checkNar_of_run (by omega) hsize hstarted hframe]

/-! ### A download of two blocks -/

/-- Every peer has `abcdefgh` in blocks of four bytes. -/
def sampleProviders : Providers where
  store _ :=
    { cacheDir := "/var/cache/nar".toList
      blockSize := 4
      index := Table.ofPairs [(Hex.encode (sampleSha256.digest (sampleNar ++ sampleTail)).toList,
        { path := "/var/cache/nar/a.nar".toList
          narSize := 8
          blockInfo := BlockInfo.fromFileSize 8 4 BlockInfo.four_pos
          storePath := none
          source := .cache
          createdAt := 0 })] }
  files _ _ := some (sampleNar ++ sampleTail)

/-- What such a peer replies to a handshake. -/
def twoBlockHandshake : PeerHandshake :=
  ⟨peerA, [0, 1], [sampleSha256.digest sampleNar, sampleSha256.digest sampleTail], 2⟩

/-- The blocks arrive in the wrong order, the second one twice. -/
def twoBlockEvents : List FetchEvent :=
  [.dispatch 0, .response peerA [⟨1, sampleTail⟩], .response peerA [⟨1, sampleTail⟩, ⟨0, sampleNar⟩]]

omit [Sha256] in
theorem sampleProviders_serve {bd : BlockData}
    (h : bd = ⟨0, sampleNar⟩ ∨ bd = ⟨1, sampleTail⟩) (peer : PeerId) :
    @Providers.Serves sampleSha256 sampleProviders (sampleNar ++ sampleTail) peer bd := by
  refine ⟨[0, 1], [⟨0, sampleNar⟩, ⟨1, sampleTail⟩], rfl, ?_⟩
  rcases h with rfl | rfl <;> simp

omit [Sha256] in
theorem twoBlock_honest :
    @HonestRun sampleSha256 sampleProviders (sampleNar ++ sampleTail) 4 [twoBlockHandshake]
      twoBlockEvents := by
  refine @HonestRun.mk sampleSha256 _ _ _ _ _ (fun hs _ => rfl) (fun hs _ => ?_) (fun hs hhs => ?_)
    (fun peer blocks hevent _ bd hbd => sampleProviders_serve ?_ peer)
  · exact @NarStore.HoldsNar.mk sampleSha256 _ _ _ (show (0 : UInt64) < 4 by decide)
      ⟨_, rfl, rfl, rfl⟩
  · obtain rfl := List.mem_singleton.mp hhs
    exact ⟨_, rfl, rfl⟩
  · simp only [twoBlockEvents, List.mem_cons, reduceCtorEq, FetchEvent.response.injEq,
      List.not_mem_nil, or_false, false_or] at hevent
    rcases hevent with ⟨-, rfl⟩ | ⟨-, rfl⟩ <;> simp at hbd <;> tauto

omit [Sha256] in
theorem honest_swarm_two_blocks :
    ∃ s, Machine.run (@step sampleSha256 ⟨8, 30⟩)
        (start (Hex.encode (sampleSha256.digest (sampleNar ++ sampleTail)).toList) 0
          (downloadBlockInfo 0 4 (by decide) twoBlockHandshake) [twoBlockHandshake])
        twoBlockEvents = .ok s ∧
      @ActiveDownload.assemble sampleSha256 s.download = .ok (.ok (sampleNar ++ sampleTail)) := by
  obtain ⟨s, hrun, -, hdone⟩ := @honest_swarm sampleSha256 sampleProviders (sampleNar ++ sampleTail)
    4 0 twoBlockHandshake [] twoBlockEvents ⟨8, 30⟩ _ (by decide) (by decide) (by decide)
    (by decide) (Or.inr rfl) (SameMaps.refl _) twoBlock_honest
  refine ⟨s, hrun, hdone ?_⟩
  obtain rfl := Except.ok.inj hrun
  rfl

end BlockDownload

end GuixP2p
