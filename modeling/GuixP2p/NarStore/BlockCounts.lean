import Mathlib.Data.Set.Card
import GuixP2p.NarStore.Serve

/-!
# GuixP2p.NarStore.BlockCounts

**How many blocks a file has.** A store counts the blocks of a NAR three times: by clamped division
when the NAR is indexed, by chunking when a handshake is answered, and by offsets when blocks are
asked for. `blocksAgree_iff` says when the three are one.

They part in three places. An empty file counts as one block of one byte, has no digest and no block
to serve. The first count is cut to 32 bits. And the offset of an index far past the end may wrap
around into the file, which then serves a block nobody has announced.
-/

namespace GuixP2p

open GuixP2p.Lib

namespace NarStore

/-- The offset of a block, a 64-bit word. -/
def blockOffset (blockSize : UInt64) (i : UInt32) : Nat := (i.toNat * blockSize.toNat) % 2 ^ 64

/-- The index is past the end of a file of this length, and wraps around to a block in it. -/
def WrapsInto (blockSize : UInt64) (len : Nat) (i : UInt32) : Prop :=
  len ≤ i.toNat * blockSize.toNat ∧ blockOffset blockSize i < len ∧
    blockOffset blockSize i + blockSize.toNat < 2 ^ 64

variable [Sha256]

/-- A request for the block alone is answered with it. -/
def ServesAt (store : NarStore) (files : Files) (narHash : Bytes) (i : UInt32) (block : Bytes) : Prop :=
  store.handleRequest files (.getBlocks narHash [i]) = .ok (some (.blocks [⟨i, block⟩]))

/-- **The three computations agree** on a stored file, with the layout `info` for its length. -/
structure BlocksAgree (store : NarStore) (files : Files) (data : Bytes) (info : BlockInfo) : Prop where
  replied : ∃ available size hashes,
    store.handleRequest files (.handshake (Sha256.digest data).toList) =
      .ok (some (.handshakeReply available info.blockCount size hashes)) ∧
    hashes.length = info.blockCount.toNat ∧
    ∀ i ∈ available, ∃ block, store.ServesAt files (Sha256.digest data).toList i block ∧
      hashes[i.toNat]? = some (Sha256.digest block).toList
  served : {i | ∃ block, store.ServesAt files (Sha256.digest data).toList i block}.ncard = info.blockCount.toNat
  length : (info.blockCount.toNat - 1) * info.blockSize + info.lastBlockSize = data.length

/-! ### The layout and the length -/

omit [Sha256] in
/-- An empty file is laid out as one block. -/
theorem blockCount_fromFileSize_zero {blockSize : UInt64} (hb : 0 < blockSize) :
    (BlockInfo.fromFileSize 0 blockSize hb).blockCount = 1 := by
  have hb' : 0 < blockSize.toNat := UInt64.lt_iff_toNat_lt.mp hb
  have hmin : min blockSize.toNat 1 = 1 := by omega
  simp [BlockInfo.fromFileSize, hmin]

omit [Sha256] in
/-- All blocks but the last are full. -/
theorem length_fromFileSize {fileSize blockSize : UInt64} (hb : 0 < blockSize) (hsize : 0 < fileSize)
    (hcount : chunkCount fileSize.toNat blockSize.toNat < 2 ^ 32) :
    let info := BlockInfo.fromFileSize fileSize blockSize hb
    (info.blockCount.toNat - 1) * info.blockSize + info.lastBlockSize = fileSize.toNat := by
  intro info
  have hb' : 0 < blockSize.toNat := UInt64.lt_iff_toNat_lt.mp hb
  have hf' : 0 < fileSize.toNat := UInt64.lt_iff_toNat_lt.mp hsize
  have hblocks : info.blockCount.toNat = chunkCount fileSize.toNat blockSize.toNat := by
    rw [BlockInfo.blockCount_fromFileSize hb hsize, UInt32.toNat_ofNat', Nat.mod_eq_of_lt hcount]
  have heff : max fileSize.toNat 1 = fileSize.toNat := by omega
  have hbs : info.blockSize = min blockSize.toNat fileSize.toNat := by
    simp only [info, BlockInfo.fromFileSize, heff]
  have hlast : info.lastBlockSize =
      if 0 < fileSize.toNat % info.blockSize then fileSize.toNat % info.blockSize else info.blockSize := by
    rw [hbs]
    simp only [info, BlockInfo.fromFileSize, heff]
  rw [hlast, hblocks]
  rcases Nat.le_total fileSize.toNat blockSize.toNat with hle | hle
  · rw [chunkCount_eq_one hf' hle, hbs, Nat.min_eq_right hle, Nat.mod_self]
    simp
  · rw [hbs, Nat.min_eq_left hle, chunkCount_eq_div_add hb']
    have hsplit := Nat.div_add_mod' fileSize.toNat blockSize.toNat
    split
    next => simpa using hsplit
    next hrem =>
      -- the last of the full blocks is the last block
      have hquot : 0 < fileSize.toNat / blockSize.toNat := Nat.div_pos hle hb'
      rw [Nat.sub_mul, Nat.one_mul]
      have hone : blockSize.toNat ≤ fileSize.toNat / blockSize.toNat * blockSize.toNat :=
        Nat.le_mul_of_pos_left _ hquot
      omega

/-! ### What is served -/

omit [Sha256] in
theorem serveBlock_eq (b : UInt64) (data : Bytes) (i : UInt32) :
    serveBlock b data i =
      if data.length ≤ blockOffset b i then .ok none
      else
        match slice data (blockOffset b i) (min ((blockOffset b i + b.toNat) % 2 ^ 64) data.length) with
        | .error p => .error p
        | .ok block => .ok (some ⟨i, block⟩) := rfl

omit [Sha256] in
/-- A block is served exactly when its offset is in the file and its end does not wrap around. -/
theorem serveBlock_eq_some_iff {b : UInt64} {data : Bytes} {i : UInt32} :
    (∃ block, serveBlock b data i = .ok (some ⟨i, block⟩)) ↔
      blockOffset b i < data.length ∧ blockOffset b i + b.toNat < 2 ^ 64 := by
  have hoff : blockOffset b i < 2 ^ 64 := Nat.mod_lt _ (by decide)
  have hb := b.toNat_lt
  rw [serveBlock_eq]
  generalize blockOffset b i = off at *
  by_cases hin : data.length ≤ off
  · rw [if_pos hin]
    refine iff_of_false (fun hserved => ?_) fun h => absurd h.1 (Nat.not_lt.mpr hin)
    obtain ⟨block, h⟩ := hserved
    cases h
  · rw [if_neg hin, slice]
    by_cases hend : off + b.toNat < 2 ^ 64
    · rw [Nat.mod_eq_of_lt hend, if_pos (by omega)]
      exact iff_of_true ⟨_, rfl⟩ ⟨by omega, hend⟩
    · -- the end comes before the offset, and the slice panics
      rw [Nat.mod_eq_sub_mod (Nat.not_lt.mp hend), Nat.mod_eq_of_lt (by omega), if_neg (by omega)]
      refine iff_of_false (fun hserved => ?_) fun h => hend h.2
      obtain ⟨block, h⟩ := hserved
      cases h

section

variable {store : NarStore} {files : Files} {data : Bytes}

theorem servesAt_iff (h : store.HoldsNar files data) {i : UInt32} {block : Bytes} :
    store.ServesAt files (Sha256.digest data).toList i block ↔
      serveBlock store.blockSize data i = .ok (some ⟨i, block⟩) := by
  obtain ⟨entry, hentry, hfile, -⟩ := h.indexed
  unfold ServesAt
  rw [getBlock_of_read hentry hfile]
  cases hserve : serveBlock store.blockSize data i with
  | error p => simp
  | ok r =>
      cases r with
      | none => simp
      | some bd => simp

/-- The indices of the blocks, and those that wrap around. -/
theorem exists_servesAt_iff (h : store.HoldsNar files data) (hmem : data.length < 2 ^ 63) {i : UInt32} :
    (∃ block, store.ServesAt files (Sha256.digest data).toList i block) ↔
      i.toNat < chunkCount data.length store.blockSize.toNat ∨ WrapsInto store.blockSize data.length i := by
  have hb : 0 < store.blockSize.toNat := UInt64.lt_iff_toNat_lt.mp h.blockSize_pos
  have hb64 := store.blockSize.toNat_lt
  simp only [servesAt_iff h, serveBlock_eq_some_iff, lt_chunkCount_iff hb, WrapsInto]
  by_cases hin : i.toNat * store.blockSize.toNat < data.length
  · have hoff : blockOffset store.blockSize i = i.toNat * store.blockSize.toNat := Nat.mod_eq_of_lt (by omega)
    refine iff_of_true ⟨by omega, ?_⟩ (Or.inl hin)
    rw [hoff]
    rcases Nat.eq_zero_or_pos i.toNat with hzero | hpos
    · rw [hzero]
      omega
    · have hle : store.blockSize.toNat ≤ i.toNat * store.blockSize.toNat := Nat.le_mul_of_pos_left _ hpos
      omega
  · rw [or_iff_right hin, and_iff_right (Nat.not_lt.mp hin)]

/-! ### Counting indices -/

omit [Sha256] in
theorem finite_indices (s : Set UInt32) : s.Finite := by
  have hfin : Finite UInt32 := Finite.of_injective (fun i : UInt32 => (⟨i.toNat, i.toNat_lt⟩ : Fin (2 ^ 32)))
    fun i j hij => UInt32.toNat_inj.mp (Fin.mk.inj hij)
  exact Set.toFinite s

omit [Sha256] in
/-- As many indices as there are numbers. -/
theorem ncard_indices_below {n : Nat} (hn : n ≤ 2 ^ 32) : {i : UInt32 | i.toNat < n}.ncard = n := by
  have himage : UInt32.toNat '' {i : UInt32 | i.toNat < n} = ↑(Finset.range n) := by
    ext k
    simp only [Set.mem_image, Set.mem_ofPred_eq, Finset.coe_range, Set.mem_Iio]
    constructor
    · intro h
      obtain ⟨i, hi, rfl⟩ := h
      exact hi
    · intro hk
      have hword : (UInt32.ofNat k).toNat = k := UInt32.toNat_ofNat_of_lt' (Nat.lt_of_lt_of_le hk hn)
      exact ⟨UInt32.ofNat k, by rw [hword]; exact hk, hword⟩
  rw [← Set.ncard_image_of_injective _ fun i j hij => UInt32.toNat_inj.mp hij, himage, Set.ncard_coe_finset,
    Finset.card_range]

/-- The count of the served indices is that of the blocks exactly if none wraps around. -/
theorem ncard_served_iff (h : store.HoldsNar files data) (hmem : data.length < 2 ^ 63)
    (hcount : chunkCount data.length store.blockSize.toNat ≤ 2 ^ 32) :
    {i | ∃ block, store.ServesAt files (Sha256.digest data).toList i block}.ncard =
        chunkCount data.length store.blockSize.toNat ↔
      ∀ i, ¬ WrapsInto store.blockSize data.length i := by
  have hb : 0 < store.blockSize.toNat := UInt64.lt_iff_toNat_lt.mp h.blockSize_pos
  have hbelow := ncard_indices_below hcount
  have hsub : {i : UInt32 | i.toNat < chunkCount data.length store.blockSize.toNat} ⊆
      {i | ∃ block, store.ServesAt files (Sha256.digest data).toList i block} := by
    intro i hi
    exact (exists_servesAt_iff h hmem).mpr (Or.inl hi)
  constructor
  · intro heq i hwraps
    have hsame := Set.eq_of_subset_of_ncard_le hsub (by rw [heq, hbelow]) (finite_indices _)
    have hi : i ∈ {i : UInt32 | i.toNat < chunkCount data.length store.blockSize.toNat} := by
      rw [hsame]
      exact (exists_servesAt_iff h hmem).mpr (Or.inr hwraps)
    exact absurd ((lt_chunkCount_iff hb).mp hi) (Nat.not_lt.mpr hwraps.1)
  · intro hnone
    refine Eq.trans (congrArg Set.ncard (Set.Subset.antisymm (fun i hi => ?_) hsub)) hbelow
    exact ((exists_servesAt_iff h hmem).mp hi).resolve_right (hnone i)

/-! ### The three counts -/

/-- What a store that holds the NAR replies to a handshake. -/
theorem handshake_reply (h : store.HoldsNar files data) :
    store.handleRequest files (.handshake (Sha256.digest data).toList) =
      .ok (some (.handshakeReply
        ((List.range (BlockInfo.fromFileSize (UInt64.ofNat data.length) store.blockSize h.blockSize_pos).blockCount.toNat).map
          UInt32.ofNat)
        (BlockInfo.fromFileSize (UInt64.ofNat data.length) store.blockSize h.blockSize_pos).blockCount
        store.blockSize.toUInt32
        ((computeBlockHashes data store.blockSize.toNat).map Vector.toList))) := by
  obtain ⟨entry, hentry, hfile, hinfo⟩ := h.indexed
  rw [handshake_of_read hentry hfile, hinfo]

/-- **When the three computations agree**: exactly for a file that is not empty, has a block count of
32 bits, and that no offset past its end wraps around into. -/
theorem blocksAgree_iff (h : store.HoldsNar files data) (hmem : data.length < 2 ^ 63) :
    store.BlocksAgree files data (BlockInfo.fromFileSize (UInt64.ofNat data.length) store.blockSize h.blockSize_pos) ↔
      0 < data.length ∧ chunkCount data.length store.blockSize.toNat < 2 ^ 32 ∧
        ∀ i, ¬ WrapsInto store.blockSize data.length i := by
  have hlen : (UInt64.ofNat data.length).toNat = data.length :=
    UInt64.toNat_ofNat_of_lt' (show data.length < 2 ^ 64 by omega)
  have hreply := handshake_reply h
  generalize hinfo : BlockInfo.fromFileSize (UInt64.ofNat data.length) store.blockSize h.blockSize_pos = info at *
  have hblocks : 0 < data.length → info.blockCount = UInt32.ofNat (chunkCount data.length store.blockSize.toNat) := by
    intro hpos
    rw [← hinfo, BlockInfo.blockCount_fromFileSize _ (by rw [UInt64.lt_iff_toNat_lt, hlen]; exact hpos), hlen]
  constructor
  · intro h'
    obtain ⟨⟨available, size, hashes, heq, hhashes, -⟩, hserved, -⟩ := h'
    rw [hreply] at heq
    obtain ⟨-, -, -, rfl⟩ := BlockResponse.handshakeReply.inj (Option.some.inj (Except.ok.inj heq))
    rw [List.length_map, length_computeBlockHashes] at hhashes
    have hcount : chunkCount data.length store.blockSize.toNat < 2 ^ 32 := hhashes ▸ info.blockCount.toNat_lt
    refine ⟨List.length_pos_iff.mpr ?_, hcount, (ncard_served_iff h hmem hcount.le).mp (hserved.trans hhashes.symm)⟩
    intro h'
    obtain rfl := h'
    -- an empty file has a block, and no digests
    have hone : info.blockCount = 1 := hinfo ▸ blockCount_fromFileSize_zero h.blockSize_pos
    have hzero : ¬ 0 < chunkCount ([] : Bytes).length store.blockSize.toNat := by
      rw [lt_chunkCount_iff (UInt64.lt_iff_toNat_lt.mp h.blockSize_pos)]
      simp
    rw [hone] at hhashes
    exact hzero (hhashes ▸ Nat.one_pos)
  · intro h'
    obtain ⟨hpos, hcount, hnone⟩ := h'
    have hnat : info.blockCount.toNat = chunkCount data.length store.blockSize.toNat := by
      rw [hblocks hpos, UInt32.toNat_ofNat', Nat.mod_eq_of_lt hcount]
    refine ⟨⟨_, _, _, hreply, ?_, fun i hi => ?_⟩, ?_, ?_⟩
    · rw [List.length_map, length_computeBlockHashes, hnat]
    · obtain ⟨j, hj, rfl⟩ := List.mem_map.mp hi
      rw [List.mem_range, hnat] at hj
      have hword : (UInt32.ofNat j).toNat = j := UInt32.toNat_ofNat_of_lt' (hj.trans hcount)
      refine ⟨chunkAt store.blockSize.toNat data j, (servesAt_iff h).mpr ?_, ?_⟩
      · have hserve := serveBlock_chunkAt h.blockSize_pos hmem (i := UInt32.ofNat j) (by rw [hword]; exact hj)
        rwa [hword] at hserve
      · rw [hword, List.getElem?_map, getElem?_computeBlockHashes hj, Option.map_some]
    · rw [hnat]
      exact (ncard_served_iff h hmem hcount.le).mpr hnone
    · have hlength := @length_fromFileSize (UInt64.ofNat data.length) store.blockSize h.blockSize_pos
        (by rw [UInt64.lt_iff_toNat_lt, hlen]; exact hpos) (by rw [hlen]; exact hcount)
      rw [hinfo, hlen] at hlength
      exact hlength

omit [Sha256] in
/-- With blocks of 4 GiB at most no offset wraps around. -/
theorem not_wrapsInto {b : UInt64} (hb : b.toNat ≤ 2 ^ 32) (len : Nat) (i : UInt32) : ¬ WrapsInto b len i := by
  intro h
  obtain ⟨hpast, hin, -⟩ := h
  have hword : i.toNat * b.toNat < 2 ^ 64 :=
    calc i.toNat * b.toNat ≤ i.toNat * 2 ^ 32 := Nat.mul_le_mul_left _ hb
      _ < 2 ^ 32 * 2 ^ 32 := Nat.mul_lt_mul_of_pos_right i.toNat_lt (by decide)
      _ = 2 ^ 64 := by decide
  rw [blockOffset, Nat.mod_eq_of_lt hword] at hin
  omega

end

/-! ### A file of one block, and an empty one -/

/-- A store with one file, in blocks of four bytes. -/
def storeOf (data : Bytes) : NarStore where
  cacheDir := "/c".toList
  blockSize := 4
  index := Table.ofPairs [(Hex.encode (sampleSha256.digest data).toList,
    { path := "/c/a.nar".toList
      narSize := UInt64.ofNat data.length
      blockInfo := BlockInfo.fromFileSize (UInt64.ofNat data.length) 4 BlockInfo.four_pos
      storePath := none
      source := .cache
      createdAt := 0 })]

omit [Sha256] in
theorem storeOf_holds (data : Bytes) : @HoldsNar sampleSha256 (storeOf data) (fun _ => some data) data :=
  @HoldsNar.mk sampleSha256 _ _ _ (show (0 : UInt64) < 4 by decide)
    ⟨_, Table.lookup_ofPairs_of_mem (List.nodup_singleton _) (List.mem_singleton_self _), rfl, rfl⟩

omit [Sha256] in
theorem blocksAgree_sample :
    @BlocksAgree sampleSha256 (storeOf sampleNar) (fun _ => some sampleNar) sampleNar
      (BlockInfo.fromFileSize 4 4 (by decide)) :=
  (@blocksAgree_iff sampleSha256 _ _ _ (storeOf_holds sampleNar) (by decide)).mpr
    ⟨by decide, by decide, not_wrapsInto (by decide) _⟩

omit [Sha256] in
/-- The empty file is announced with one block and no digest, and none is served. -/
theorem empty_file_disagrees :
    @HoldsNar sampleSha256 (storeOf []) (fun _ => some []) [] ∧
      @handleRequest sampleSha256 (storeOf []) (fun _ => some []) (.handshake (sampleSha256.digest []).toList) =
        .ok (some (.handshakeReply [0] 1 4 [])) ∧
      @handleRequest sampleSha256 (storeOf []) (fun _ => some []) (.getBlocks (sampleSha256.digest []).toList [0]) =
        .ok (some (.error "no blocks available for this nar".toList)) ∧
      ¬ @BlocksAgree sampleSha256 (storeOf []) (fun _ => some []) [] (BlockInfo.fromFileSize 0 4 (by decide)) := by
  refine ⟨storeOf_holds [], rfl, rfl, fun h => ?_⟩
  -- one block of one byte is not the empty file
  exact absurd (@BlocksAgree.length sampleSha256 _ _ _ _ h) (by decide)

end NarStore

end GuixP2p
