import Mathlib.Algebra.BigOperators.Group.List.Basic
import GuixP2p.Swarm.Assembly

/-!
# GuixP2p.Swarm.HeldBytes

How many bytes a download holds. Recording a response adds, for each accepted index, the first block
of the response that matches the hash; what else the response has under that index is not kept.
A download that holds one copy of each block holds as many bytes as the NAR it assembles.
-/

namespace GuixP2p

open GuixP2p.Lib

/-- The bytes in a peer's slots. -/
def slotsBytes (slots : List (Option Bytes)) : Nat := (slots.map fun s => (s.map List.length).getD 0).sum

/-- All that a response has under an index. -/
def namedBytes (blocks : List (UInt32 × Bytes)) (idx : UInt32) : Nat :=
  ((blocks.filter fun b => b.1 = idx).map fun b => b.2.length).sum

section

variable [Sha256]

/-- The first block that a response has under an index and that matches the hash. -/
def firstMatch (hashes : List Digest) (blocks : List (UInt32 × Bytes)) (idx : UInt32) : Option Bytes :=
  (blocks.find? fun b => b.1 = idx ∧ hashes[idx.toNat]? = some (Sha256.digest b.2)).map (·.2)

def matchBytes (hashes : List Digest) (blocks : List (UInt32 × Bytes)) (idx : UInt32) : Nat :=
  ((firstMatch hashes blocks idx).map List.length).getD 0

end

/-! ### Slots -/

theorem slotsBytes_set {slots : List (Option Bytes)} {i : Nat} (h : slots[i]? = some none) (data : Bytes) :
    slotsBytes (slots.set i (some data)) = slotsBytes slots + data.length := by
  obtain ⟨hlt, hi⟩ := List.getElem?_eq_some_iff.mp h
  have hsplit : slots = slots.take i ++ none :: slots.drop (i + 1) := by
    rw [← hi, List.cons_getElem_drop_succ, List.take_append_drop]
  have hset : slots.set i (some data) = slots.take i ++ some data :: slots.drop (i + 1) :=
    List.set_eq_take_cons_drop _ hlt
  rw [hset]
  conv_rhs => rw [hsplit]
  simp [slotsBytes]
  omega

theorem slotsBytes_replicate_none (n : Nat) : slotsBytes (List.replicate n none) = 0 := by
  simp [slotsBytes]

/-! ### Recording -/

section

variable [Sha256] {hashes : List Digest}

theorem matchBytes_cons_of_match {blocks : List (UInt32 × Bytes)} {idx : UInt32} {data : Bytes}
    (h : hashes[idx.toNat]? = some (Sha256.digest data)) :
    matchBytes hashes ((idx, data) :: blocks) idx = data.length := by
  simp [matchBytes, firstMatch, h]

theorem matchBytes_cons_of_not {blocks : List (UInt32 × Bytes)} {k idx : UInt32} {data : Bytes}
    (h : ¬ (idx = k ∧ hashes[k.toNat]? = some (Sha256.digest data))) :
    matchBytes hashes ((idx, data) :: blocks) k = matchBytes hashes blocks k := by
  simp [matchBytes, firstMatch, h]

omit [Sha256] in
theorem namedBytes_cons (blocks : List (UInt32 × Bytes)) (k idx : UInt32) (data : Bytes) :
    namedBytes ((idx, data) :: blocks) k = (if idx = k then data.length else 0) + namedBytes blocks k := by
  by_cases h : idx = k <;> simp [namedBytes, h]

/-- What is kept is part of what was sent. -/
theorem matchBytes_le_namedBytes (blocks : List (UInt32 × Bytes)) (k : UInt32) :
    matchBytes hashes blocks k ≤ namedBytes blocks k := by
  induction blocks with
  | nil => simp [matchBytes, firstMatch]
  | cons b blocks ih =>
      obtain ⟨idx, data⟩ := b
      rw [namedBytes_cons]
      by_cases h : idx = k ∧ hashes[k.toNat]? = some (Sha256.digest data)
      · obtain ⟨rfl, hmatch⟩ := h
        rw [matchBytes_cons_of_match hmatch, if_pos rfl]
        exact Nat.le_add_right _ _
      · rw [matchBytes_cons_of_not h]
        exact Nat.le_add_left_of_le ih

namespace ActiveDownload

/-- **What the loop keeps**: the first match of each accepted index. -/
theorem recordLoop_bytes {blocks : List (UInt32 × Bytes)} {slots slots' : List (Option Bytes)}
    {acc acc' : List UInt32} (h : recordLoop hashes blocks slots acc = .ok (slots', acc')) :
    ∃ new, acc' = acc ++ new ∧ Recorded hashes blocks slots slots' new ∧
      slotsBytes slots' = slotsBytes slots + (new.map (matchBytes hashes blocks)).sum := by
  induction blocks generalizing slots acc with
  | nil =>
      obtain ⟨rfl, rfl⟩ := Prod.mk.inj (Except.ok.inj h)
      exact ⟨[], by simp, Recorded.nil, by simp⟩
  | cons b blocks ih =>
      obtain ⟨idx, data⟩ := b
      rcases recordBlock_cases hashes slots idx data with ⟨-, heq⟩ | ⟨-, hacc, heq⟩ | ⟨-, hacc, heq⟩
      · simp only [recordLoop, heq] at h
        cases h
      · simp only [recordLoop, heq] at h
        obtain ⟨new, rfl, hrec, hbytes⟩ := ih h
        refine ⟨idx :: new, by simp, hrec.store hacc, ?_⟩
        -- the slot is taken from here on, so the index is not accepted again
        have hrest : ∀ k ∈ new, matchBytes hashes ((idx, data) :: blocks) k = matchBytes hashes blocks k := by
          intro k hk
          refine matchBytes_cons_of_not fun hsame => ?_
          obtain ⟨-, -, -, -, hslot⟩ := (hrec.mem_iff k).mp hk
          rw [← hsame.1, List.getElem?_set_self (List.getElem?_eq_some_iff.mp hacc.2.2).1] at hslot
          cases hslot
        rw [hbytes, slotsBytes_set hacc.2.2, List.map_cons, List.sum_cons, matchBytes_cons_of_match hacc.2.1,
          List.map_congr_left hrest, Nat.add_assoc]
      · simp only [recordLoop, heq] at h
        obtain ⟨new, rfl, hrec, hbytes⟩ := ih h
        refine ⟨new, rfl, hrec.skip hacc, ?_⟩
        have hrest : ∀ k ∈ new, matchBytes hashes ((idx, data) :: blocks) k = matchBytes hashes blocks k := by
          intro k hk
          refine matchBytes_cons_of_not fun hsame => hacc ?_
          obtain ⟨data', -, hlt, -, hslot⟩ := (hrec.mem_iff k).mp hk
          rw [hsame.1]
          exact ⟨hlt, hsame.2, hslot⟩
        rw [hbytes, List.map_congr_left hrest]

/-- The bytes in the slots of all peers. -/
def heldBytes (d : ActiveDownload) : Nat := (d.receivers.values.map fun r => slotsBytes r.blocks).sum

theorem heldBytes_recordBlocks {d d' : ActiveDownload} {peer : PeerId} {blocks : List (UInt32 × Bytes)}
    {accepted : List UInt32} (h : d.recordBlocks peer blocks = .ok (d', accepted)) :
    d'.heldBytes = d.heldBytes + (accepted.map (matchBytes d.blockInfo.blockHashes blocks)).sum := by
  unfold recordBlocks at h
  cases hr : d.receivers.lookup peer with
  | none =>
      rw [hr] at h
      obtain ⟨rfl, rfl⟩ := Prod.mk.inj (Except.ok.inj h)
      simp
  | some r =>
      rw [hr] at h
      dsimp only at h
      cases hloop : recordLoop d.blockInfo.blockHashes blocks r.blocks [] with
      | error p =>
          rw [hloop] at h
          cases h
      | ok result =>
          obtain ⟨slots, new⟩ := result
          rw [hloop] at h
          obtain ⟨rfl, rfl⟩ := Prod.mk.inj (Except.ok.inj h)
          obtain ⟨new', hnew, -, hbytes⟩ := recordLoop_bytes hloop
          rw [List.nil_append] at hnew
          subst hnew
          have hsum := Table.sum_values_modify hr (fun _ => ⟨slots⟩) fun r => slotsBytes r.blocks
          dsimp only at hsum
          rw [hbytes] at hsum
          simp only [heldBytes, setSlots]
          omega

/-! ### One copy of each block -/

/-- No block is held from two peers. -/
def SingleCopy (d : ActiveDownload) : Prop :=
  ∀ p q i b c, d.HoldsFrom p i b → d.HoldsFrom q i c → p = q

/-- The bytes that the peers hold for block `i`. -/
def copyBytes (rs : List DownloadResult) (i : Nat) : Nat :=
  (rs.map fun r => ((r.blocks[i]?.join).map List.length).getD 0).sum

omit [Sha256] in
@[simp] theorem copyBytes_nil (i : Nat) : copyBytes [] i = 0 := rfl

omit [Sha256] in
@[simp] theorem copyBytes_cons (r : DownloadResult) (rs : List DownloadResult) (i : Nat) :
    copyBytes (r :: rs) i = ((r.blocks[i]?.join).map List.length).getD 0 + copyBytes rs i := rfl

omit [Sha256] in
theorem slotsBytes_eq_sum {slots : List (Option Bytes)} {n : Nat} (h : slots.length = n) :
    slotsBytes slots = ((List.range n).map fun i => ((slots[i]?.join).map List.length).getD 0).sum := by
  rw [slotsBytes]
  congr 1
  refine List.ext_getElem (by simp [h]) fun i hi _ => ?_
  simp only [List.length_map] at hi
  simp [hi]

omit [Sha256] in
theorem sum_slotsBytes {rs : List DownloadResult} {n : Nat} (h : ∀ r ∈ rs, r.blocks.length = n) :
    (rs.map fun r => slotsBytes r.blocks).sum = ((List.range n).map (copyBytes rs)).sum := by
  induction rs with
  | nil =>
      refine (List.sum_eq_zero fun k hk => ?_).symm
      obtain ⟨i, -, rfl⟩ := List.mem_map.mp hk
      rfl
  | cons r rs ih =>
      rw [List.forall_mem_cons] at h
      rw [List.map_cons, List.sum_cons, ih h.2, slotsBytes_eq_sum h.1, ← List.sum_map_add]
      exact congrArg List.sum (List.map_congr_left fun i _ => (copyBytes_cons r rs i).symm)

/-- Two peers that do not hold the same block. -/
def Apart (r r' : DownloadResult) : Prop :=
  ∀ (i : Nat) (b c : Bytes), r.blocks[i]? = some (some b) → r'.blocks[i]? ≠ some (some c)

omit [Sha256] in
theorem SingleCopy.apart {d : ActiveDownload} (h : d.SingleCopy) : d.receivers.values.Pairwise Apart := by
  rw [Table.values, List.pairwise_map]
  refine (List.nodupKeys_iff_pairwise.mp d.receivers.nodupKeys).imp_of_mem ?_
  intro e e' he he' hne i b c hb hc
  exact hne (h _ _ i b c ⟨_, AList.mem_lookup_iff.mpr he, hb⟩ ⟨_, AList.mem_lookup_iff.mpr he', hc⟩)

omit [Sha256] in
/-- The copy that the scan finds is the only one. -/
theorem copyBytes_of_findBlock {rs : List DownloadResult} {i : Nat} {b : Bytes} (hapart : rs.Pairwise Apart)
    (h : findBlock rs i = .ok (some b)) : copyBytes rs i = b.length := by
  induction rs with
  | nil => cases h
  | cons r rs ih =>
      rw [List.pairwise_cons] at hapart
      unfold findBlock at h
      split at h
      next => cases h
      next hb =>
        obtain rfl := Option.some.inj (Except.ok.inj h)
        have hothers : copyBytes rs i = 0 := by
          refine List.sum_eq_zero fun n hn => ?_
          obtain ⟨r', hr', rfl⟩ := List.mem_map.mp hn
          have hno := hapart.1 r' hr' i
          cases hslot : r'.blocks[i]? with
          | none => rfl
          | some slot =>
              cases slot with
              | none => rfl
              | some c => exact absurd hslot (hno _ c hb)
        simpa [hb] using hothers
      next hb =>
        rw [← ih hapart.2 h]
        simp [hb]

omit [Sha256] in
theorem length_assembleLoop {rs : List DownloadResult} (hapart : rs.Pairwise Apart) {is : List Nat}
    {nar nar' : Bytes} (h : assembleLoop rs is nar = .ok (.ok nar')) :
    nar'.length = nar.length + (is.map (copyBytes rs)).sum := by
  induction is generalizing nar with
  | nil =>
      obtain rfl := Except.ok.inj (Except.ok.inj h)
      simp
  | cons i is ih =>
      unfold assembleLoop at h
      split at h
      next => cases h
      next => cases h
      next b hb =>
        rw [ih h, List.length_append, List.map_cons, List.sum_cons, copyBytes_of_findBlock hapart hb, Nat.add_assoc]

/-- **A download with one copy of each block** holds as many bytes as it assembles. -/
theorem heldBytes_eq_length {d : ActiveDownload} (hfit : d.SlotsFit) (hsingle : d.SingleCopy) {nar : Bytes}
    (h : d.assemble = .ok (.ok nar)) : d.heldBytes = nar.length := by
  have hlen : ∀ r ∈ d.receivers.values, r.blocks.length = d.blockInfo.blockCount.toNat := by
    intro r hr
    obtain ⟨p, hp⟩ := Table.mem_values.mp hr
    exact hfit p r hp
  rw [heldBytes, sum_slotsBytes hlen, length_assembleLoop hsingle.apart (assemble_ok_inv h).1]
  simp

end ActiveDownload

end

end GuixP2p
