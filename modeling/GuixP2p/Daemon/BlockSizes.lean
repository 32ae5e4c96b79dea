import GuixP2p.Daemon.HonestSwarm
import GuixP2p.Swarm.Assembly

/-!
# GuixP2p.Daemon.BlockSizes

**Two block sizes.** The block size is a setting of each node. A provider cuts its file by
its own size and says so in its handshake reply; the downloader does not read that field.
When it knows the size of the NAR it computes the number of blocks from its own block size
and takes only the hash list from the provider.

`complete_iff_counts_agree` is about one honest provider all of whose announced blocks have
been delivered: the download is complete and assembles to the NAR exactly when the two
sides count the same number of blocks, or the downloader had no size to count from.
-/

namespace GuixP2p

open GuixP2p.Lib

variable [Sha256]

/-- One provider holds `data`, its handshake was accepted, and every block it announced has
been delivered, in any order and any number of times, as its store serves it. -/
structure FullDelivery (store : NarStore) (files : Files) (data : Bytes) (hs : PeerHandshake)
    (events : List FetchEvent) : Prop where
  holds : store.HoldsNar files data
  replied : ∃ r, store.handleRequest files (.handshake (Sha256.digest data).toList) = .ok (some r) ∧
    PeerHandshake.ofReply hs.peer r = some hs
  unmodified : ∀ blocks, FetchEvent.response hs.peer blocks ∈ events → ∀ bd ∈ blocks,
    bd.index ∈ hs.blocksAvailable ∧ ∃ indices served,
      store.handleRequest files (.getBlocks (Sha256.digest data).toList indices) =
        .ok (some (.blocks served)) ∧ bd ∈ served
  delivered : ∀ i ∈ hs.blocksAvailable, ∃ blocks, FetchEvent.response hs.peer blocks ∈ events ∧
    ∃ bd ∈ blocks, bd.index = i

namespace FullDelivery

variable {store : NarStore} {files : Files} {data : Bytes} {hs : PeerHandshake}
  {events : List FetchEvent}

/-- What the handshake says. -/
theorem handshake_eq (h : FullDelivery store files data hs events) (hne : data ≠ [])
    (hmem : data.length < 2 ^ 63) :
    hs.blockHashes = computeBlockHashes data store.blockSize.toNat ∧
      hs.blockCount = UInt32.ofNat (chunkCount data.length store.blockSize.toNat) ∧
      ∀ i, i ∈ hs.blocksAvailable ↔
        i.toNat < chunkCount data.length store.blockSize.toNat % 2 ^ 32 := by
  obtain ⟨r, hr, hof⟩ := h.replied
  rw [h.holds.handshake hne hmem] at hr
  obtain rfl := Option.some.inj (Except.ok.inj hr)
  rw [← Option.some.inj hof]
  refine ⟨?_, rfl, fun i => ?_⟩
  · simp [normalizeBlockHashes, Function.comp_def, blockHashArray_toList]
  · simp only [List.mem_map, List.mem_range]
    constructor
    · intro h'
      obtain ⟨j, hj, rfl⟩ := h'
      rw [UInt32.toNat_ofNat']
      exact (Nat.mod_le _ _).trans_lt hj
    · intro hi
      exact ⟨i.toNat, hi, UInt32.ofNat_toNat⟩

/-- A delivered block is the provider's chunk at its index. -/
theorem data_eq (h : FullDelivery store files data hs events) (hne : data ≠ [])
    (hmem : data.length < 2 ^ 63) {blocks : List BlockData}
    (hevent : FetchEvent.response hs.peer blocks ∈ events) {bd : BlockData} (hbd : bd ∈ blocks) :
    bd.index.toNat < chunkCount data.length store.blockSize.toNat % 2 ^ 32 ∧
      bd.data = chunkAt store.blockSize.toNat data bd.index.toNat := by
  obtain ⟨havail, indices, served, hreq, hserved⟩ := h.unmodified blocks hevent bd hbd
  have hlt := ((h.handshake_eq hne hmem).2.2 bd.index).mp havail
  obtain ⟨entry, hentry, hfile, -⟩ := h.holds.indexed
  exact ⟨hlt, NarStore.chunkAt_of_serveBlocks h.holds.blockSize_pos hentry hfile hmem hreq hserved
    (hlt.trans_le (Nat.mod_le _ _))⟩

end FullDelivery

namespace BlockDownload

/-! ### What is delivered is held -/

/-- A block with the right digest from a known peer is held after it was recorded, accepted
now or held before. -/
theorem holds_of_recordBlocks {d d' : ActiveDownload} {peer : PeerId}
    {blocks : List (UInt32 × Bytes)} {accepted : List UInt32} (hfit : d.SlotsFit)
    (hrec : d.recordBlocks peer blocks = .ok (d', accepted)) (hpeer : peer ∈ d.receivers)
    {i : UInt32} {b : Bytes} (hb : (i, b) ∈ blocks) (hi : i.toNat < d.blockInfo.blockCount.toNat)
    (hhash : d.blockInfo.blockHashes[i.toNat]? = some (Sha256.digest b)) : d'.Holds i.toNat := by
  obtain ⟨r, hr⟩ := Table.mem_iff_exists_lookup.mp hpeer
  have hlen : i.toNat < r.blocks.length := by rw [hfit peer r hr]; exact hi
  cases hslot : r.blocks[i.toNat] with
  | some c =>
      refine ⟨peer, c, ActiveDownload.holdsFrom_mono hrec ⟨r, hr, ?_⟩⟩
      rw [List.getElem?_eq_getElem hlen, hslot]
  | none =>
      refine ActiveDownload.holds_of_accepted hrec ?_
      refine (ActiveDownload.mem_accepted_iff hrec i).mpr ⟨r, b, hr, hb, ?_, hhash, ?_⟩
      · rw [UInt32.lt_iff_toNat_lt, hfit peer r hr, UInt32.ofNat_toNat]
        exact hi
      · rw [List.getElem?_eq_getElem hlen, hslot]

theorem step_holds {cfg : FetchConfig} {s s' : BlockDownload} {e : FetchEvent} {i : Nat}
    (h : step cfg s e = .ok s') (hheld : s.download.Holds i) : s'.download.Holds i := by
  rcases step_cases h with ⟨sched, -, -, rfl⟩ | ⟨peer, data, download, accepted, -, hrec, rfl⟩
  · exact hheld
  · obtain ⟨p, b, hb⟩ := hheld
    exact ⟨p, b, ActiveDownload.holdsFrom_mono hrec hb⟩

/-- Over a run, every block delivered with the right digest by a known peer is held. -/
theorem run_holds_delivered {cfg : FetchConfig} {s₀ s : BlockDownload} {events : List FetchEvent}
    {narHashHex : Text} {narSize : UInt64} {blockInfo : BlockInfo} {handshakes : List PeerHandshake}
    (hstart : Started narHashHex narSize blockInfo handshakes s₀)
    (hrun : Machine.run (step cfg) s₀ events = .ok s) {hs : PeerHandshake} (hhs : hs ∈ handshakes)
    {blocks : List BlockData} (hevent : FetchEvent.response hs.peer blocks ∈ events) {bd : BlockData}
    (hbd : bd ∈ blocks) (hi : bd.index.toNat < blockInfo.blockCount.toNat)
    (hhash : blockInfo.blockHashes[bd.index.toNat]? = some (Sha256.digest bd.data)) :
    s.download.Holds bd.index.toNat := by
  -- cut the run at the response
  obtain ⟨before, after, rfl⟩ := List.append_of_mem hevent
  obtain ⟨s₁, hbefore, hrest⟩ := Machine.run_append_inv hrun
  obtain ⟨s₂, hstep, hafter⟩ := Machine.run_cons_inv hrest
  have hwf := Machine.run_invariant (step_wellFormed cfg) hstart.wellFormed hbefore
  have hfields := Machine.run_invariant (P := fun s : BlockDownload =>
    s.download.blockInfo = blockInfo ∧
      ∀ p, p ∈ s.download.receivers ↔ ∃ hs ∈ handshakes, hs.peer = p)
    (fun _ _ _ ha hab => step_fields ha hab) ⟨hstart.blockInfo_eq, hstart.receivers_mem⟩ hbefore
  have hheld : s₂.download.Holds bd.index.toNat := by
    rcases step_cases hstep with ⟨sched, hno, -, -⟩ | ⟨peer, data, download, accepted, he, hrec, rfl⟩
    · exact absurd rfl (hno hs.peer blocks)
    · obtain ⟨rfl, rfl⟩ := FetchEvent.response.inj he
      have hinfo := hfields.1
      refine holds_of_recordBlocks hwf.slotsFit hrec ((hfields.2 hs.peer).mpr ⟨hs, hhs, rfl⟩)
        (mem_decodeBlockData.mpr hbd) ?_ ?_
      · rw [hinfo]
        exact hi
      · rw [hinfo]
        exact hhash
  exact Machine.run_invariant (P := fun s : BlockDownload => s.download.Holds bd.index.toNat)
    (fun _ _ _ ha hab => step_holds hab ha) hheld hafter

/-! ### A download that receives the first chunks -/

/-- The first `n` chunks of `data` have been delivered by the peer of `hs`, and nothing else
has; the hash list is theirs. -/
structure Receives (data : Bytes) (b n : Nat) (info : BlockInfo) (hs : PeerHandshake)
    (events : List FetchEvent) : Prop where
  digest : ∀ i < n, info.blockHashes[i]? = some (Sha256.digest (chunkAt b data i))
  sent : ∀ blocks, FetchEvent.response hs.peer blocks ∈ events → ∀ bd ∈ blocks,
    bd.index.toNat < n ∧ bd.data = chunkAt b data bd.index.toNat
  all : ∀ i < n, ∃ blocks, FetchEvent.response hs.peer blocks ∈ events ∧
    ∃ bd ∈ blocks, bd.index.toNat = i

section Receives

variable {data : Bytes} {b n : Nat} {info : BlockInfo} {hs : PeerHandshake}
  {events : List FetchEvent} {cfg : FetchConfig} {narHashHex : Text} {narSize : UInt64}
  {s₀ s : BlockDownload}

theorem Receives.sent_of_known (h : Receives data b n info hs events) {peer : PeerId}
    {blocks : List BlockData} (hevent : FetchEvent.response peer blocks ∈ events)
    (hknown : ∃ hs' ∈ [hs], hs'.peer = peer) {bd : BlockData} (hbd : bd ∈ blocks) :
    bd.index.toNat < n ∧ bd.data = chunkAt b data bd.index.toNat := by
  obtain ⟨hs', hmem, rfl⟩ := hknown
  obtain rfl := List.mem_singleton.mp hmem
  exact h.sent blocks hevent bd hbd

/-- Every delivered block has a hash, so nothing panics. -/
theorem Receives.run_ok (h : Receives data b n info hs events)
    (hstart : Started narHashHex narSize info [hs] s₀) :
    ∃ s, Machine.run (step cfg) s₀ events = .ok s := by
  refine (run_ok_iff_hashesCover hstart cfg events).mpr fun e he => ?_
  cases e with
  | dispatch now => trivial
  | expire now => trivial
  | requestFailed peer => trivial
  | response peer blocks =>
      intro hknown bd hbd _
      have hlt := (h.sent_of_known he hknown hbd).1
      exact (List.getElem?_eq_some_iff.mp (h.digest _ hlt)).1

theorem Receives.holdsFrom (h : Receives data b n info hs events)
    (hstart : Started narHashHex narSize info [hs] s₀)
    (hrun : Machine.run (step cfg) s₀ events = .ok s) :
    ∀ p i c, s.download.HoldsFrom p i c → i < n ∧ c = chunkAt b data i :=
  run_holds (Q := fun i c => i < n ∧ c = chunkAt b data i) hstart
    (fun _ _ hevent hknown _ hbd _ => h.sent_of_known hevent hknown hbd) hrun

/-- The blocks held are those delivered, as far as the downloader has slots for them. -/
theorem Receives.holds_iff (h : Receives data b n info hs events)
    (hstart : Started narHashHex narSize info [hs] s₀)
    (hrun : Machine.run (step cfg) s₀ events = .ok s) {i : Nat} (hi : i < info.blockCount.toNat) :
    s.download.Holds i ↔ i < n := by
  constructor
  · intro h'
    obtain ⟨p, c, hpc⟩ := h'
    exact (h.holdsFrom hstart hrun p i c hpc).1
  · intro hlt
    obtain ⟨blocks, hevent, bd, hbd, rfl⟩ := h.all i hlt
    refine run_holds_delivered hstart hrun (List.mem_singleton.mpr rfl) hevent hbd hi ?_
    rw [(h.sent blocks hevent bd hbd).2]
    exact h.digest _ hlt

theorem Receives.isComplete_iff (h : Receives data b n info hs events)
    (hstart : Started narHashHex narSize info [hs] s₀)
    (hrun : Machine.run (step cfg) s₀ events = .ok s) :
    s.download.isComplete = .ok true ↔ info.blockCount.toNat ≤ n := by
  have hwf := Machine.run_invariant (step_wellFormed cfg) hstart.wellFormed hrun
  have hinfo : s.download.blockInfo = info := (run_frame hrun).blockInfo.trans hstart.blockInfo_eq
  obtain ⟨complete, hcomplete, hall⟩ := ActiveDownload.isComplete_spec hwf.slotsFit
  rw [hcomplete, Except.ok.injEq, hall, hinfo]
  constructor
  · intro hheld
    by_contra hlt
    rw [Nat.not_le] at hlt
    exact Nat.lt_irrefl n ((h.holds_iff hstart hrun hlt).mp (hheld n hlt))
  · intro hle i hi
    exact (h.holds_iff hstart hrun hi).mpr (hi.trans_le hle)

/-- A complete download concatenates as many chunks as the downloader counts. -/
theorem Receives.assemble_eq (h : Receives data b n info hs events)
    (hstart : Started narHashHex narSize info [hs] s₀)
    (hrun : Machine.run (step cfg) s₀ events = .ok s) (hle : info.blockCount.toNat ≤ n) :
    s.download.assemble = .ok (s.download.checkNar (data.take (info.blockCount.toNat * b))) := by
  have hwf := Machine.run_invariant (step_wellFormed cfg) hstart.wellFormed hrun
  have hinfo : s.download.blockInfo = info := (run_frame hrun).blockInfo.trans hstart.blockInfo_eq
  have hheld : ∀ i < s.download.blockInfo.blockCount.toNat, s.download.Holds i := by
    rw [hinfo]
    intro i hi
    exact (h.holds_iff hstart hrun hi).mpr (hi.trans_le hle)
  have hchunk : ∀ p i c, s.download.HoldsFrom p i c → c = chunkAt b data i :=
    fun p i c hpc => (h.holdsFrom hstart hrun p i c hpc).2
  rw [ActiveDownload.assemble_eq hwf.slotsFit hheld hchunk, hinfo, flatten_map_chunkAt]

end Receives

/-! ### When the two sides agree -/

variable {store : NarStore} {files : Files} {data : Bytes} {hs : PeerHandshake}
  {blockSize narSize : UInt64} {events : List FetchEvent} {cfg : FetchConfig} {s₀ : BlockDownload}

/-- Full delivery, in the downloader's terms. -/
theorem receives_of_fullDelivery (hfull : FullDelivery store files data hs events) (hne : data ≠ [])
    (hmem : data.length < 2 ^ 63) (hb : 0 < blockSize) :
    Receives data store.blockSize.toNat (chunkCount data.length store.blockSize.toNat % 2 ^ 32)
      (downloadBlockInfo narSize blockSize hb hs) hs events := by
  obtain ⟨hhashes, -, havail⟩ := hfull.handshake_eq hne hmem
  refine ⟨fun i hi => ?_, fun blocks hevent bd hbd => hfull.data_eq hne hmem hevent hbd,
    fun i hi => ?_⟩
  · rw [blockHashes_downloadBlockInfo, hhashes]
    exact getElem?_computeBlockHashes (hi.trans_le (Nat.mod_le _ _))
  · have hi32 : i < 2 ^ 32 := hi.trans (Nat.mod_lt _ (by decide))
    have hofNat : (UInt32.ofNat i).toNat = i := UInt32.toNat_ofNat_of_lt' hi32
    obtain ⟨blocks, hevent, bd, hbd, hidx⟩ :=
      hfull.delivered (UInt32.ofNat i) ((havail _).mpr (by rw [hofNat]; exact hi))
    exact ⟨blocks, hevent, bd, hbd, by rw [hidx, hofNat]⟩

omit [Sha256] in
/-- As many chunks as there are, or more, are the whole of the data. -/
theorem take_eq_self_iff_chunkCount_le {b : Nat} (hb : 0 < b) (data : Bytes) (n : Nat) :
    data.take (n * b) = data ↔ chunkCount data.length b ≤ n := by
  rw [List.take_eq_self_iff, ← Nat.not_lt, ← lt_chunkCount_iff hb, Nat.not_lt]

/-- **When differing block sizes work.** One honest provider has delivered every block it
announced. The download does not panic; it is complete and assembles to the NAR exactly
when the provider's block count fits a machine word and either the downloader does not know
the size of the NAR or the size gives it the same count. -/
theorem complete_iff_counts_agree (hne : data ≠ []) (hmem : data.length < 2 ^ 63)
    (hb : 0 < blockSize) (hsize : narSize = UInt64.ofNat data.length ∨ narSize = 0)
    (hstart : (start (Hex.encode (Sha256.digest data).toList) narSize
      (downloadBlockInfo narSize blockSize hb hs) [hs]).SameMaps s₀)
    (hfull : FullDelivery store files data hs events) :
    ∃ s, Machine.run (step cfg) s₀ events = .ok s ∧
      ((s.download.isComplete = .ok true ∧ s.download.assemble = .ok (.ok data)) ↔
        chunkCount data.length store.blockSize.toNat < 2 ^ 32 ∧
          (narSize = 0 ∨ chunkCount data.length blockSize.toNat % 2 ^ 32 =
            chunkCount data.length store.blockSize.toNat)) := by
  have hstarted := started_of_sameMaps hstart
  have hreceives : Receives data store.blockSize.toNat _ (downloadBlockInfo narSize blockSize hb hs)
      hs events := receives_of_fullDelivery hfull hne hmem hb
  obtain ⟨s, hrun⟩ : ∃ s, Machine.run (step cfg) s₀ events = .ok s := hreceives.run_ok hstarted
  refine ⟨s, hrun, ?_⟩
  have hframe := run_frame hrun
  have hlen : (UInt64.ofNat data.length).toNat = data.length :=
    UInt64.toNat_ofNat_of_lt' (show data.length < 2 ^ 64 by omega)
  have hwhole := take_eq_self_iff_chunkCount_le
    (UInt64.lt_iff_toNat_lt.mp hfull.holds.blockSize_pos) data
  -- the downloader's count, in terms of the two sizes
  have hblocks := @blockCount_downloadBlockInfo narSize blockSize hb hs
  rw [requiredHashes, (hfull.handshake_eq hne hmem).2.1, UInt32.toNat_ofNat'] at hblocks
  have hmod := Nat.mod_le (chunkCount data.length store.blockSize.toNat) (2 ^ 32)
  rw [hreceives.isComplete_iff hstarted hrun]
  constructor
  · intro h
    obtain ⟨hle, hnar⟩ := h
    rw [hreceives.assemble_eq hstarted hrun hle] at hnar
    obtain ⟨htake, -, -⟩ := ActiveDownload.checkNar_ok_inv (Except.ok.inj hnar)
    have hge := (hwhole _).mp htake
    refine ⟨by omega, or_iff_not_imp_left.mpr fun hzero => ?_⟩
    obtain rfl := hsize.resolve_right hzero
    rw [if_neg hzero, hlen] at hblocks
    omega
  · intro h
    obtain ⟨hfits, hagree⟩ := h
    have heq : (downloadBlockInfo narSize blockSize hb hs).blockCount.toNat =
        chunkCount data.length store.blockSize.toNat := by
      by_cases hzero : narSize = 0
      · rw [hblocks, if_pos hzero, Nat.mod_eq_of_lt hfits]
      · rw [hblocks, if_neg hzero, hsize.resolve_right hzero, hlen]
        exact hagree.resolve_left hzero
    have hle : (downloadBlockInfo narSize blockSize hb hs).blockCount.toNat ≤
        chunkCount data.length store.blockSize.toNat % 2 ^ 32 := by
      rw [heq, Nat.mod_eq_of_lt hfits]
    refine ⟨hle, ?_⟩
    rw [hreceives.assemble_eq hstarted hrun hle, (hwhole _).mpr heq.ge,
      checkNar_of_run (by omega) hsize hstarted hframe]

/-! ### Blocks of four bytes, and of eight -/

omit [Sha256] in
/-- The provider cuts `abcdefgh` into two blocks, and both arrive. -/
theorem fullDelivery_two_blocks :
    @FullDelivery sampleSha256 (sampleProviders.store peerA) (sampleProviders.files peerA)
      (sampleNar ++ sampleTail) twoBlockHandshake twoBlockEvents := by
  refine @FullDelivery.mk sampleSha256 _ _ _ _ _ ?_ ⟨_, rfl, rfl⟩ (fun blocks hevent bd hbd => ?_)
    (fun i hi => ?_)
  · exact @NarStore.HoldsNar.mk sampleSha256 _ _ _ (show (0 : UInt64) < 4 by decide)
      ⟨_, rfl, rfl, rfl⟩
  · have hcases : bd = ⟨0, sampleNar⟩ ∨ bd = ⟨1, sampleTail⟩ := by
      simp only [twoBlockEvents, List.mem_cons, reduceCtorEq, FetchEvent.response.injEq,
        List.not_mem_nil, or_false, false_or] at hevent
      rcases hevent with ⟨-, rfl⟩ | ⟨-, rfl⟩ <;> simp at hbd <;> tauto
    refine ⟨?_, sampleProviders_serve hcases peerA⟩
    rcases hcases with rfl | rfl <;> decide
  · have hindex : i = 0 ∨ i = 1 := by simpa [twoBlockHandshake] using hi
    refine ⟨[⟨1, sampleTail⟩, ⟨0, sampleNar⟩], by decide, ?_⟩
    rcases hindex with rfl | rfl <;> simp

omit [Sha256] in
/-- A downloader with blocks of eight bytes wants one block, takes the first four bytes for
it, and fails. -/
theorem larger_blocks_never_assemble :
    @FullDelivery sampleSha256 (sampleProviders.store peerA) (sampleProviders.files peerA)
        (sampleNar ++ sampleTail) twoBlockHandshake twoBlockEvents ∧
      ∃ s, Machine.run (@step sampleSha256 ⟨8, 30⟩)
          (start (Hex.encode (sampleSha256.digest (sampleNar ++ sampleTail)).toList) 8
            (downloadBlockInfo 8 8 (by decide) twoBlockHandshake) [twoBlockHandshake])
          twoBlockEvents = .ok s ∧
        s.download.isComplete = .ok true ∧
        @ActiveDownload.assemble sampleSha256 s.download = .ok (.error .incomplete) :=
  ⟨fullDelivery_two_blocks, _, rfl, rfl, rfl⟩

omit [Sha256] in
/-- Blocks of six bytes are also two, and do. -/
theorem complete_iff_counts_agree_six :
    ∃ s, Machine.run (@step sampleSha256 ⟨8, 30⟩)
        (start (Hex.encode (sampleSha256.digest (sampleNar ++ sampleTail)).toList) 8
          (downloadBlockInfo 8 6 (by decide) twoBlockHandshake) [twoBlockHandshake])
        twoBlockEvents = .ok s ∧
      @ActiveDownload.assemble sampleSha256 s.download = .ok (.ok (sampleNar ++ sampleTail)) := by
  obtain ⟨s, hrun, hiff⟩ := @complete_iff_counts_agree sampleSha256 (sampleProviders.store peerA)
    (sampleProviders.files peerA) (sampleNar ++ sampleTail) twoBlockHandshake 6 8 twoBlockEvents
    ⟨8, 30⟩ _ (by decide) (by decide) (by decide) (Or.inl rfl) (SameMaps.refl _)
    fullDelivery_two_blocks
  exact ⟨s, hrun, (hiff.mpr ⟨by decide, Or.inr (by decide)⟩).2⟩

end BlockDownload

end GuixP2p
