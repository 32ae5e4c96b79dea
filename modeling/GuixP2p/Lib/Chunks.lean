import Mathlib.Data.List.Basic
import Mathlib.Order.Nat

/-!
# GuixP2p.Lib.Chunks

**Fixed-size chunks of a list**, as Rust's `slice::chunks`: chunk `i` of size `n`
holds the elements from `i * n` on, at most `n` of them, and only the last chunk
may be shorter. Every chunk is addressed by its offset, so a reader that seeks to
`i * n` and one that walks the chunks in order see the same pieces.
-/

namespace GuixP2p.Lib

variable {α : Type*}

/-- How many chunks of size `n` a list of length `len` has. -/
def chunkCount (len n : Nat) : Nat := (len + n - 1) / n

/-- The chunk of size `n` at index `i`. -/
def chunkAt (n : Nat) (xs : List α) (i : Nat) : List α := (xs.drop (i * n)).take n

/-- The consecutive chunks of size `n`. -/
def chunks (n : Nat) (xs : List α) : List (List α) :=
  (List.range (chunkCount xs.length n)).map (chunkAt n xs)

/-- A chunk index is in range exactly when its offset is. -/
theorem lt_chunkCount_iff {len n i : Nat} (hn : 0 < n) :
    i < chunkCount len n ↔ i * n < len := by
  rw [chunkCount, Nat.lt_iff_add_one_le, Nat.le_div_iff_mul_le hn, Nat.add_mul]
  omega

theorem chunkCount_pos {len n : Nat} (hn : 0 < n) (hlen : 0 < len) : 0 < chunkCount len n := by
  rw [lt_chunkCount_iff hn]
  omega

/-- A chunk size at least the length gives one chunk. -/
theorem chunkCount_eq_one {len n : Nat} (hlen : 0 < len) (h : len ≤ n) : chunkCount len n = 1 := by
  have hn : 0 < n := by omega
  have hpos := chunkCount_pos hn hlen
  have hle : ¬ 1 < chunkCount len n := by
    rw [lt_chunkCount_iff hn]
    omega
  omega

/-- The chunk count is the quotient, rounded up. -/
theorem chunkCount_eq_div_add {len n : Nat} (hn : 0 < n) :
    chunkCount len n = if 0 < len % n then len / n + 1 else len / n := by
  refine eq_of_forall_lt_iff fun i => ?_
  rw [lt_chunkCount_iff hn]
  have hsplit : len / n * n + len % n = len := Nat.div_add_mod' len n
  have hmod : len % n < n := Nat.mod_lt len hn
  have hlt : i * n < len / n * n ↔ i < len / n := Nat.mul_lt_mul_right hn
  have hle : i * n ≤ len / n * n ↔ i ≤ len / n := Nat.mul_le_mul_right_iff hn
  split
  · have hnext : (len / n + 1) * n ≤ i * n ↔ len / n + 1 ≤ i := Nat.mul_le_mul_right_iff hn
    rw [Nat.add_mul] at hnext
    omega
  · omega

@[simp] theorem length_chunks (n : Nat) (xs : List α) :
    (chunks n xs).length = chunkCount xs.length n := by
  simp [chunks]

theorem getElem?_chunks {n i : Nat} {xs : List α} (hi : i < chunkCount xs.length n) :
    (chunks n xs)[i]? = some (chunkAt n xs i) := by
  simp [chunks, hi]

/-- The first `c` chunks are the first `c * n` elements. -/
theorem flatten_map_chunkAt (n : Nat) (xs : List α) (c : Nat) :
    ((List.range c).map (chunkAt n xs)).flatten = xs.take (c * n) := by
  induction c with
  | zero => simp
  | succ c ih =>
      rw [List.range_succ, List.map_append, List.flatten_append, ih, Nat.add_mul, Nat.one_mul,
        List.take_add]
      simp [chunkAt]

/-- The chunks, joined, are the list. -/
theorem flatten_chunks {n : Nat} (hn : 0 < n) (xs : List α) : (chunks n xs).flatten = xs := by
  rw [chunks, flatten_map_chunkAt, List.take_of_length_le]
  have h : ¬ chunkCount xs.length n < chunkCount xs.length n := lt_irrefl _
  rw [lt_chunkCount_iff hn] at h
  omega

end GuixP2p.Lib
