import GuixP2p.Swarm.Block
import GuixP2p.Swarm.Codec
import GuixP2p.Lib.Hex

/-!
# GuixP2p.NarStore.Serve

The serving half of `src/nar_store.rs`: how a node that has a NAR answers
handshakes and block requests.

A NAR file is read again for every request; `Files` is what the file system
answers. Offsets are machine integers: `i * block_size` and `off + block_size` wrap
at 64 bits, and a slice whose end lies before its start panics. For the indices a
store advertises neither happens (`serveBlock_chunkAt`), and what it serves is the
chunk whose digest it announced.
-/

namespace GuixP2p

open GuixP2p.Lib

/-- Why a NAR is available for serving. -/
inductive SeedSource
  | manual
  | downloaded
  | cache
  deriving DecidableEq, Repr

structure NarEntry where
  path : Text
  narSize : UInt64
  blockInfo : BlockInfo
  storePath : Option Text
  source : SeedSource
  createdAt : UInt64
  deriving DecidableEq

/-- The local NARs of a node, indexed by the hex text of their digest. -/
structure NarStore where
  cacheDir : Text
  blockSize : UInt64
  index : Table Text NarEntry

/-- What reading a path yields; `none` when the file cannot be read. -/
abbrev Files := Text → Option Bytes

/-- A slice of a byte string. -/
def slice (data : Bytes) (start stop : Nat) : Except Panic Bytes :=
  if start ≤ stop ∧ stop ≤ data.length then .ok ((data.drop start).take (stop - start))
  else .error .sliceOutOfRange

/-- Rust's `filter_map` with a closure that may panic. -/
def filterMapPanic {α β : Type} (f : α → Except Panic (Option β)) : List α → Except Panic (List β)
  | [] => .ok []
  | a :: l =>
    match f a with
    | .error p => .error p
    | .ok none => filterMapPanic f l
    | .ok (some b) =>
      match filterMapPanic f l with
      | .error p => .error p
      | .ok bs => .ok (b :: bs)

theorem mem_of_filterMapPanic {α β : Type} {f : α → Except Panic (Option β)} {l : List α}
    {bs : List β} {b : β} (h : filterMapPanic f l = .ok bs) (hb : b ∈ bs) :
    ∃ a ∈ l, f a = .ok (some b) := by
  induction l generalizing bs with
  | nil =>
      obtain rfl := Except.ok.inj h
      exact absurd hb List.not_mem_nil
  | cons a l ih =>
      simp only [filterMapPanic] at h
      cases hf : f a with
      | error p => rw [hf] at h; cases h
      | ok r =>
          rw [hf] at h
          cases r with
          | none =>
              obtain ⟨a', ha', hfa'⟩ := ih h hb
              exact ⟨a', List.mem_cons_of_mem _ ha', hfa'⟩
          | some c =>
              cases hl : filterMapPanic f l with
              | error p => rw [hl] at h; cases h
              | ok cs =>
                  rw [hl] at h
                  obtain rfl := Except.ok.inj h
                  rcases List.mem_cons.mp hb with rfl | hb'
                  · exact ⟨a, List.mem_cons_self, hf⟩
                  · obtain ⟨a', ha', hfa'⟩ := ih hl hb'
                    exact ⟨a', List.mem_cons_of_mem _ ha', hfa'⟩

namespace NarStore

/-- One block of a file that has been read; `none` past its end. -/
def serveBlock (blockSize : UInt64) (data : Bytes) (i : UInt32) :
    Except Panic (Option BlockData) :=
  let off := (i.toNat * blockSize.toNat) % 2 ^ 64
  if data.length ≤ off then .ok none
  else
    let stop := min ((off + blockSize.toNat) % 2 ^ 64) data.length
    match slice data off stop with
    | .error p => .error p
    | .ok block => .ok (some ⟨i, block⟩)

def serveBlocks (store : NarStore) (files : Files) (narHashHex : Text) (indices : List UInt32) :
    Except Panic (Option BlockResponse) :=
  match store.index.lookup narHashHex with
  | none => .ok none
  | some entry =>
    match files entry.path with
    | none => .ok none
    | some data =>
      match filterMapPanic (serveBlock store.blockSize data) indices with
      | .error p => .error p
      | .ok [] => .ok (some (.error "no blocks available for this nar".toList))
      | .ok (b :: bs) => .ok (some (.blocks (b :: bs)))

variable [Sha256]

/-- The digests of the file's chunks; `none` when it cannot be read. -/
def readBlockHashes (store : NarStore) (files : Files) (narHashHex : Text) :
    Option (List Digest) :=
  match store.index.lookup narHashHex with
  | none => none
  | some entry => (files entry.path).map fun data => computeBlockHashes data store.blockSize.toNat

/-- Handle an incoming block request; `none` if the NAR is not here. -/
def handleRequest (store : NarStore) (files : Files) :
    BlockRequest → Except Panic (Option BlockResponse)
  | .handshake narHash =>
    let key := Hex.encode narHash
    match store.index.lookup key with
    | none => .ok none
    | some entry =>
      match store.readBlockHashes files key with
      -- an unreadable file is announced as a NAR without blocks
      | none => .ok (some (.handshakeReply [] 0 store.blockSize.toUInt32 []))
      | some hashes =>
        let n := entry.blockInfo.blockCount
        .ok (some (.handshakeReply ((List.range n.toNat).map UInt32.ofNat) n
          store.blockSize.toUInt32 (hashes.map Vector.toList)))
  | .getBlocks narHash indices => store.serveBlocks files (Hex.encode narHash) indices

/-! ### Answers about a file that can be read -/

section

variable {store : NarStore} {files : Files} {narHash data : Bytes} {entry : NarEntry}

theorem handshake_of_read (hentry : store.index.lookup (Hex.encode narHash) = some entry)
    (hread : files entry.path = some data) :
    store.handleRequest files (.handshake narHash) =
      .ok (some (.handshakeReply
        ((List.range entry.blockInfo.blockCount.toNat).map UInt32.ofNat) entry.blockInfo.blockCount
        store.blockSize.toUInt32 ((computeBlockHashes data store.blockSize.toNat).map Vector.toList))) := by
  simp only [handleRequest, readBlockHashes, hentry, hread, Option.map_some]

/-- A request for one block comes down to that block. -/
theorem getBlock_of_read (hentry : store.index.lookup (Hex.encode narHash) = some entry)
    (hread : files entry.path = some data) (i : UInt32) :
    store.handleRequest files (.getBlocks narHash [i]) =
      match serveBlock store.blockSize data i with
      | .error p => .error p
      | .ok none => .ok (some (.error "no blocks available for this nar".toList))
      | .ok (some block) => .ok (some (.blocks [block])) := by
  simp only [handleRequest, serveBlocks, hentry, hread, filterMapPanic]
  cases serveBlock store.blockSize data i with
  | error p => rfl
  | ok served =>
      cases served with
      | none => rfl
      | some block => rfl

end

/-! ### Stores that hold a NAR -/

/-- The store has `data` indexed under its digest, its file can be read and the
layout on record is the one for its length. -/
structure HoldsNar (store : NarStore) (files : Files) (data : Bytes) : Prop where
  blockSize_pos : 0 < store.blockSize
  indexed : ∃ entry, store.index.lookup (Hex.encode (Sha256.digest data).toList) = some entry ∧
    files entry.path = some data ∧
    entry.blockInfo =
      BlockInfo.fromFileSize (UInt64.ofNat data.length) store.blockSize blockSize_pos

section

variable {store : NarStore} {files : Files} {data : Bytes}

omit [Sha256] in
/-- An advertised index is served as the chunk at its offset: nothing wraps. The bound
is the largest length of a Rust vector. -/
theorem serveBlock_chunkAt {b : UInt64} (hb : 0 < b) (hmem : data.length < 2 ^ 63) {i : UInt32}
    (hi : i.toNat < chunkCount data.length b.toNat) :
    serveBlock b data i = .ok (some ⟨i, chunkAt b.toNat data i.toNat⟩) := by
  have hb' : 0 < b.toNat := UInt64.lt_iff_toNat_lt.mp hb
  have hoff : i.toNat * b.toNat < data.length := (lt_chunkCount_iff hb').mp hi
  have hoff64 : (i.toNat * b.toNat) % 2 ^ 64 = i.toNat * b.toNat := Nat.mod_eq_of_lt (by omega)
  have hstop : min ((i.toNat * b.toNat + b.toNat) % 2 ^ 64) data.length =
      min (i.toNat * b.toNat + b.toNat) data.length := by
    have hb64 := b.toNat_lt
    rcases Nat.eq_zero_or_pos i.toNat with hzero | hpos
    · rw [hzero, Nat.zero_mul, Nat.zero_add, Nat.mod_eq_of_lt hb64]
    · -- from block 1 on, the block size is at most the offset
      have hle : b.toNat ≤ i.toNat * b.toNat := Nat.le_mul_of_pos_left _ hpos
      rw [Nat.mod_eq_of_lt (by omega)]
  have htake : (data.drop (i.toNat * b.toNat)).take
      (min (i.toNat * b.toNat + b.toNat) data.length - i.toNat * b.toNat) =
        chunkAt b.toNat data i.toNat := by
    rw [chunkAt, List.take_eq_take_iff, List.length_drop]
    omega
  unfold serveBlock
  simp only [hoff64, hstop]
  rw [if_neg (by omega), slice, if_pos (by omega), htake]

omit [Sha256] in
/-- Whatever is served under an advertised index is that chunk. -/
theorem chunkAt_of_serveBlocks {key : Text} {entry : NarEntry} {indices : List UInt32}
    {served : List BlockData} {bd : BlockData} (hb : 0 < store.blockSize)
    (hentry : store.index.lookup key = some entry) (hfile : files entry.path = some data)
    (hmem : data.length < 2 ^ 63)
    (h : store.serveBlocks files key indices = .ok (some (.blocks served))) (hbd : bd ∈ served)
    (hi : bd.index.toNat < chunkCount data.length store.blockSize.toNat) :
    bd.data = chunkAt store.blockSize.toNat data bd.index.toNat := by
  have hloop : filterMapPanic (serveBlock store.blockSize data) indices = .ok served := by
    simp only [serveBlocks, hentry, hfile] at h
    cases hl : filterMapPanic (serveBlock store.blockSize data) indices with
    | error p => rw [hl] at h; cases h
    | ok l =>
        rw [hl] at h
        cases l with
        | nil => cases h
        | cons b bs =>
            have heq : b :: bs = served := by simpa using h
            rw [heq]
  obtain ⟨i, -, hserve⟩ := mem_of_filterMapPanic hloop hbd
  have hidx : bd.index = i := by
    unfold serveBlock at hserve
    dsimp only at hserve
    split at hserve
    · cases hserve
    · split at hserve
      · cases hserve
      · have heq := Option.some.inj (Except.ok.inj hserve)
        rw [← heq]
  rw [hidx] at hi
  rw [serveBlock_chunkAt hb hmem hi] at hserve
  have heq := Option.some.inj (Except.ok.inj hserve)
  rw [← heq]

/-- **The handshake of a store that holds the NAR** carries the digest of every block,
and announces as many blocks as fit their count. -/
theorem HoldsNar.handshake (h : store.HoldsNar files data) (hne : data ≠ [])
    (hmem : data.length < 2 ^ 63) :
    store.handleRequest files (.handshake (Sha256.digest data).toList) =
      .ok (some (.handshakeReply
        ((List.range (chunkCount data.length store.blockSize.toNat % 2 ^ 32)).map UInt32.ofNat)
        (UInt32.ofNat (chunkCount data.length store.blockSize.toNat))
        store.blockSize.toUInt32
        ((computeBlockHashes data store.blockSize.toNat).map Vector.toList))) := by
  obtain ⟨entry, hentry, hfile, hinfo⟩ := h.indexed
  have hlen : (UInt64.ofNat data.length).toNat = data.length :=
    UInt64.toNat_ofNat_of_lt' (show data.length < 2 ^ 64 by omega)
  have hpos : 0 < UInt64.ofNat data.length := by
    rw [UInt64.lt_iff_toNat_lt, hlen]
    exact List.length_pos_iff.mpr hne
  have hblocks : entry.blockInfo.blockCount =
      UInt32.ofNat (chunkCount data.length store.blockSize.toNat) := by
    rw [hinfo, BlockInfo.blockCount_fromFileSize h.blockSize_pos hpos, hlen]
  rw [handshake_of_read hentry hfile, hblocks, UInt32.toNat_ofNat']

end

end NarStore

end GuixP2p
