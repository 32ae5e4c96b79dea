import GuixP2p.Basic
import GuixP2p.Lib.Chunks

/-!
# GuixP2p.Swarm.Block

`src/swarm/block.rs`: how a NAR is cut into blocks.

The block layout is computed twice by different code. The downloader computes it
from the size alone (`fromFileSize`, with the block size clamped to the file
size); a provider hashes the chunks of the file (`computeBlockHashes`). The
results of this module say when the two agree.
-/

namespace GuixP2p

open GuixP2p.Lib

/-- The block layout of a NAR and the digests its blocks must have. -/
structure BlockInfo where
  blockCount : UInt32
  blockSize : Nat
  lastBlockSize : Nat
  blockHashes : List Digest
  deriving DecidableEq

namespace BlockInfo

/-- The block size of the sample files. -/
theorem four_pos : (0 : UInt64) < 4 := by decide

/-- The layout for a file of a known size. The source asserts that the block size
is positive; here a caller has to show it. -/
def fromFileSize (fileSize blockSize : UInt64) (_ : 0 < blockSize) : BlockInfo :=
  let effective := max fileSize.toNat 1
  let bs := min blockSize.toNat effective
  let fullBlocks := effective / bs
  let remainder := effective % bs
  -- `as u32`: the count wraps
  { blockCount := UInt32.ofNat (if remainder > 0 then fullBlocks + 1 else fullBlocks)
    blockSize := bs
    lastBlockSize := if remainder > 0 then remainder else bs
    blockHashes := [] }

def setHashes (info : BlockInfo) (hashes : List Digest) : BlockInfo :=
  { info with blockHashes := hashes }

end BlockInfo

/-! ### The two layouts agree -/

/-- Clamping the block size to the file size does not change how many blocks a
non-empty file has. -/
theorem BlockInfo.blockCount_fromFileSize {fileSize blockSize : UInt64} (hb : 0 < blockSize)
    (hsize : 0 < fileSize) :
    (BlockInfo.fromFileSize fileSize blockSize hb).blockCount =
      UInt32.ofNat (chunkCount fileSize.toNat blockSize.toNat) := by
  have hb' : 0 < blockSize.toNat := UInt64.lt_iff_toNat_lt.mp hb
  have hf' : 0 < fileSize.toNat := UInt64.lt_iff_toNat_lt.mp hsize
  have heff : max fileSize.toNat 1 = fileSize.toNat := by omega
  simp only [fromFileSize, heff]
  rcases Nat.le_total fileSize.toNat blockSize.toNat with hle | hle
  · have hone : chunkCount fileSize.toNat blockSize.toNat = 1 := chunkCount_eq_one hf' hle
    rw [Nat.min_eq_right hle, Nat.mod_self, Nat.div_self hf', hone]
    rfl
  · rw [Nat.min_eq_left hle, ← chunkCount_eq_div_add hb']

variable [Sha256]

/-- The digest of every chunk of the file. -/
def computeBlockHashes (data : Bytes) (blockSize : Nat) : List Digest :=
  (chunks blockSize data).map Sha256.digest

@[simp] theorem length_computeBlockHashes (data : Bytes) (blockSize : Nat) :
    (computeBlockHashes data blockSize).length = chunkCount data.length blockSize := by
  simp [computeBlockHashes]

theorem getElem?_computeBlockHashes {data : Bytes} {blockSize i : Nat}
    (hi : i < chunkCount data.length blockSize) :
    (computeBlockHashes data blockSize)[i]? = some (Sha256.digest (chunkAt blockSize data i)) := by
  simp [computeBlockHashes, getElem?_chunks hi]

/-! ### A small set-up for concrete runs -/

/-- The bytes `abcd`. -/
def sampleNar : Bytes := [97, 98, 99, 100]

/-- The bytes `efgh`. -/
def sampleTail : Bytes := [101, 102, 103, 104]

/-- SHA-256 of `abcd`, `efgh` and `abcdefgh`, and zero elsewhere. -/
@[reducible] def sampleSha256 : Sha256 where
  digest data :=
    if data = sampleNar then
      #v[0x88, 0xd4, 0x26, 0x6f, 0xd4, 0xe6, 0x33, 0x8d, 0x13, 0xb8, 0x45, 0xfc, 0xf2, 0x89, 0x57, 0x9d,
         0x20, 0x9c, 0x89, 0x78, 0x23, 0xb9, 0x21, 0x7d, 0xa3, 0xe1, 0x61, 0x93, 0x6f, 0x03, 0x15, 0x89]
    else if data = sampleTail then
      #v[0xe5, 0xe0, 0x88, 0xa0, 0xb6, 0x61, 0x63, 0xa0, 0xa2, 0x6a, 0x5e, 0x05, 0x3d, 0x2a, 0x44, 0x96,
         0xdc, 0x16, 0xab, 0x6e, 0x0e, 0x3d, 0xd1, 0xad, 0xf2, 0xd1, 0x6a, 0xa8, 0x4a, 0x07, 0x8c, 0x9d]
    else if data = sampleNar ++ sampleTail then
      #v[0x9c, 0x56, 0xcc, 0x51, 0xb3, 0x74, 0xc3, 0xba, 0x18, 0x92, 0x10, 0xd5, 0xb6, 0xd4, 0xbf, 0x57,
         0x79, 0x0d, 0x35, 0x1c, 0x96, 0xc4, 0x7c, 0x02, 0x19, 0x0e, 0xcf, 0x1e, 0x43, 0x06, 0x35, 0xab]
    else Vector.replicate 32 0

def peerA : PeerId := ⟨[1]⟩

def peerB : PeerId := ⟨[2]⟩

end GuixP2p
