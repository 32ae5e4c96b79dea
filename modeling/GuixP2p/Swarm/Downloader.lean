import GuixP2p.Swarm.Block
import GuixP2p.Lib.Hex

/-!
# GuixP2p.Swarm.Downloader

`src/swarm/downloader.rs`: the verified blocks of one active NAR download.

`ActiveDownload` keeps, per peer, the blocks whose digest matched the hash list
learned in the handshake, and assembles the NAR from them. Every vector access of
the source is explicit: an index out of range is `Panic.indexOutOfBounds`, and
when that can happen is a result, not an assumption. The bounds come from three
places (`blockCount`, the length of the hash list, the length of each peer's
slots); `SlotsFit` says that the slots have the length the block count promises,
which `addPeer` establishes and `recordBlocks` keeps. Nothing establishes it for
the hash list.

The destination path, the store path and the start time of the source's struct
are never read and are left out.
-/

namespace GuixP2p

open GuixP2p.Lib

/-- Why a download that did not panic produced no NAR. -/
inductive DownloadError
  | incomplete
  | hashMismatch
  deriving DecidableEq, Repr

/-- The blocks received from one peer: one slot per block. -/
structure DownloadResult where
  blocks : List (Option Bytes)
  deriving DecidableEq

structure ActiveDownload where
  narHashHex : Text
  narSize : UInt64
  blockInfo : BlockInfo
  receivers : Table PeerId DownloadResult

namespace ActiveDownload

def new (narHashHex : Text) (narSize : UInt64) (blockInfo : BlockInfo) : ActiveDownload :=
  { narHashHex, narSize, blockInfo, receivers := ∅ }

def addPeer (d : ActiveDownload) (peer : PeerId) : ActiveDownload :=
  { d with receivers :=
      d.receivers.insert peer ⟨List.replicate d.blockInfo.blockCount.toNat none⟩ }

/-! ### Recording blocks -/

variable [Sha256]

/-- One turn of the loop of `record_blocks`: the new slots, and whether the block
was accepted. The index is checked against the slots and then used on the hash
list. -/
def recordBlock (hashes : List Digest) (slots : List (Option Bytes)) (idx : UInt32)
    (data : Bytes) : Except Panic (List (Option Bytes) × Bool) :=
  if idx < UInt32.ofNat slots.length then
    match hashes[idx.toNat]? with
    | none => .error .indexOutOfBounds
    | some expected =>
      if Sha256.digest data = expected ∧ slots[idx.toNat]? = some none then
        .ok (slots.set idx.toNat (some data), true)
      else
        .ok (slots, false)
  else
    .ok (slots, false)

/-- The loop of `record_blocks`, with the indices accepted so far. -/
def recordLoop (hashes : List Digest) :
    List (UInt32 × Bytes) → List (Option Bytes) → List UInt32 →
      Except Panic (List (Option Bytes) × List UInt32)
  | [], slots, accepted => .ok (slots, accepted)
  | (idx, data) :: blocks, slots, accepted =>
    match recordBlock hashes slots idx data with
    | .error p => .error p
    | .ok (slots', true) => recordLoop hashes blocks slots' (accepted ++ [idx])
    | .ok (slots', false) => recordLoop hashes blocks slots' accepted

/-- Replace the slots of a peer that has some. -/
def setSlots (d : ActiveDownload) (peer : PeerId) (slots : List (Option Bytes)) :
    ActiveDownload :=
  { d with receivers := d.receivers.modify peer fun _ => ⟨slots⟩ }

/-- Verify and store newly received blocks from a peer; the result lists the
indices accepted by this call. -/
def recordBlocks (d : ActiveDownload) (peer : PeerId) (blocks : List (UInt32 × Bytes)) :
    Except Panic (ActiveDownload × List UInt32) :=
  match d.receivers.lookup peer with
  | none => .ok (d, [])
  | some result =>
    match recordLoop d.blockInfo.blockHashes blocks result.blocks [] with
    | .error p => .error p
    | .ok (slots, accepted) => .ok (d.setSlots peer slots, accepted)

/-! ### Completion and assembly -/

/-- `receivers.values().find_map(|r| r.blocks[i].as_ref())`. -/
def findBlock : List DownloadResult → Nat → Except Panic (Option Bytes)
  | [], _ => .ok none
  | r :: rs, i =>
    match r.blocks[i]? with
    | none => .error .indexOutOfBounds
    | some (some b) => .ok (some b)
    | some none => findBlock rs i

/-- The cross-peer check of `is_complete`: at least one copy of each block. -/
def crossPeerComplete (rs : List DownloadResult) : List Nat → Except Panic Bool
  | [] => .ok true
  | i :: is =>
    match findBlock rs i with
    | .error p => .error p
    | .ok none => .ok false
    | .ok (some _) => crossPeerComplete rs is

/-- Can the NAR be assembled? One peer may have all blocks, or several together. -/
def isComplete (d : ActiveDownload) : Except Panic Bool :=
  if d.receivers.values.any fun r => r.blocks.all Option.isSome then
    .ok true
  else
    crossPeerComplete d.receivers.values (List.range d.blockInfo.blockCount.toNat)

/-- The concatenation loop of `assemble`. -/
def assembleLoop (rs : List DownloadResult) :
    List Nat → Bytes → Except Panic (Except DownloadError Bytes)
  | [], nar => .ok (.ok nar)
  | i :: is, nar =>
    match findBlock rs i with
    | .error p => .error p
    | .ok none => .ok (.error .incomplete)
    | .ok (some b) => assembleLoop rs is (nar ++ b)

/-- The final checks of `assemble`: the length, when it is known, and the digest. -/
def checkNar (d : ActiveDownload) (nar : Bytes) : Except DownloadError Bytes :=
  let got := Hex.encode (Sha256.digest nar).toList
  if 0 < d.narSize ∧ nar.length ≠ d.narSize.toNat then .error .incomplete
  else if got ≠ d.narHashHex ∧ "sha256:".toList ++ got ≠ d.narHashHex then .error .hashMismatch
  else .ok nar

def assemble (d : ActiveDownload) : Except Panic (Except DownloadError Bytes) :=
  match assembleLoop d.receivers.values (List.range d.blockInfo.blockCount.toNat) [] with
  | .error p => .error p
  | .ok (.error e) => .ok (.error e)
  | .ok (.ok nar) => .ok (d.checkNar nar)

/-! ### What `recordBlock` accepts -/

/-- A block that `recordBlock` accepts: in range, with the expected digest, and not
received from this peer before. -/
def Acceptable (hashes : List Digest) (slots : List (Option Bytes)) (idx : UInt32)
    (data : Bytes) : Prop :=
  idx < UInt32.ofNat slots.length ∧ hashes[idx.toNat]? = some (Sha256.digest data) ∧
    slots[idx.toNat]? = some none

/-- An index the slots admit and the hash list does not have. -/
def Overruns (hashes : List Digest) (slots : List (Option Bytes)) (idx : UInt32) : Prop :=
  idx < UInt32.ofNat slots.length ∧ hashes.length ≤ idx.toNat

/-- Everything one turn of the loop can do. -/
theorem recordBlock_cases (hashes : List Digest) (slots : List (Option Bytes)) (idx : UInt32)
    (data : Bytes) :
    (Overruns hashes slots idx ∧
        recordBlock hashes slots idx data = .error .indexOutOfBounds) ∨
      (¬ Overruns hashes slots idx ∧ Acceptable hashes slots idx data ∧
        recordBlock hashes slots idx data = .ok (slots.set idx.toNat (some data), true)) ∨
      (¬ Overruns hashes slots idx ∧ ¬ Acceptable hashes slots idx data ∧
        recordBlock hashes slots idx data = .ok (slots, false)) := by
  unfold recordBlock Overruns Acceptable
  by_cases hlt : idx < UInt32.ofNat slots.length
  · rw [if_pos hlt]
    cases hhash : hashes[idx.toNat]? with
    | none => exact Or.inl ⟨⟨hlt, List.getElem?_eq_none_iff.mp hhash⟩, rfl⟩
    | some expected =>
        have hin : ¬ hashes.length ≤ idx.toNat := fun hle => by
          rw [List.getElem?_eq_none hle] at hhash
          cases hhash
        dsimp only
        by_cases hok : Sha256.digest data = expected ∧ slots[idx.toNat]? = some none
        · rw [if_pos hok]
          exact Or.inr (Or.inl ⟨fun h => hin h.2, ⟨hlt, by rw [hok.1], hok.2⟩, rfl⟩)
        · rw [if_neg hok]
          refine Or.inr (Or.inr ⟨fun h => hin h.2, fun h => hok ⟨?_, h.2.2⟩, rfl⟩)
          exact (Option.some.inj h.2.1).symm
  · rw [if_neg hlt]
    exact Or.inr (Or.inr ⟨fun h => hlt h.1, fun h => hlt h.1, rfl⟩)

/-- What a run of the loop did: `new` are the accepted indices. -/
structure Recorded (hashes : List Digest) (blocks : List (UInt32 × Bytes))
    (slots slots' : List (Option Bytes)) (new : List UInt32) : Prop where
  length_eq : slots'.length = slots.length
  mem_iff : ∀ i, i ∈ new ↔ ∃ data, (i, data) ∈ blocks ∧ Acceptable hashes slots i data
  nodup : new.Nodup
  filled : ∀ i ∈ new, ∃ data, (i, data) ∈ blocks ∧
    hashes[i.toNat]? = some (Sha256.digest data) ∧ slots'[i.toNat]? = some (some data)
  kept : ∀ j : Nat, (∀ i ∈ new, i.toNat ≠ j) → slots'[j]? = slots[j]?

theorem Recorded.nil {hashes : List Digest} {slots : List (Option Bytes)} :
    Recorded hashes [] slots slots [] where
  length_eq := rfl
  mem_iff i := by simp
  nodup := List.nodup_nil
  filled i hi := absurd hi List.not_mem_nil
  kept j _ := rfl

/-- A block the loop passes over. -/
theorem Recorded.skip {hashes : List Digest} {blocks : List (UInt32 × Bytes)}
    {slots slots' : List (Option Bytes)} {new : List UInt32} {idx : UInt32} {data : Bytes}
    (hno : ¬ Acceptable hashes slots idx data) (h : Recorded hashes blocks slots slots' new) :
    Recorded hashes ((idx, data) :: blocks) slots slots' new where
  length_eq := h.length_eq
  mem_iff i := by
    rw [h.mem_iff]
    constructor
    · intro h'
      obtain ⟨d, hmem, hacc⟩ := h'
      exact ⟨d, List.mem_cons_of_mem _ hmem, hacc⟩
    · intro h'
      obtain ⟨d, hmem, hacc⟩ := h'
      rcases List.mem_cons.mp hmem with heq | hmem'
      · obtain ⟨rfl, rfl⟩ := Prod.mk.inj heq
        exact absurd hacc hno
      · exact ⟨d, hmem', hacc⟩
  nodup := h.nodup
  filled i hi := by
    obtain ⟨d, hmem, hrest⟩ := h.filled i hi
    exact ⟨d, List.mem_cons_of_mem _ hmem, hrest⟩
  kept := h.kept

/-- A block the loop stores: the rest of the loop sees its slot filled. -/
theorem Recorded.store {hashes : List Digest} {blocks : List (UInt32 × Bytes)}
    {slots slots' : List (Option Bytes)} {new : List UInt32} {idx : UInt32} {data : Bytes}
    (hacc : Acceptable hashes slots idx data)
    (h : Recorded hashes blocks (slots.set idx.toNat (some data)) slots' new) :
    Recorded hashes ((idx, data) :: blocks) slots slots' (idx :: new) := by
  have hin : idx.toNat < slots.length := (List.getElem?_eq_some_iff.mp hacc.2.2).1
  -- a filled slot accepts nothing more, so the index is accepted once
  have hnot : idx ∉ new := by
    intro hmem
    obtain ⟨d, -, -, -, hslot⟩ := (h.mem_iff idx).mp hmem
    rw [List.getElem?_set_self hin] at hslot
    cases hslot
  have hother : ∀ i : UInt32, i ≠ idx → ∀ d,
      Acceptable hashes (slots.set idx.toNat (some data)) i d ↔ Acceptable hashes slots i d := by
    intro i hne d
    have hne' : idx.toNat ≠ i.toNat := fun he => hne (UInt32.toNat_inj.mp he.symm)
    rw [Acceptable, Acceptable, List.length_set, List.getElem?_set_ne hne']
  refine ⟨by rw [h.length_eq, List.length_set], fun i => ?_, ?_, fun i hi => ?_, fun j hj => ?_⟩
  · rw [List.mem_cons, h.mem_iff]
    by_cases hi : i = idx
    · subst hi
      exact iff_of_true (Or.inl rfl) ⟨data, List.mem_cons_self, hacc⟩
    · simp only [hi, false_or, List.mem_cons, Prod.mk.injEq, false_and]
      exact exists_congr fun d => and_congr_right fun _ => hother i hi d
  · exact List.nodup_cons.mpr ⟨hnot, h.nodup⟩
  · rcases List.mem_cons.mp hi with rfl | hi'
    · refine ⟨data, List.mem_cons_self, hacc.2.1, ?_⟩
      rw [h.kept i.toNat fun k hk he => hnot (UInt32.toNat_inj.mp he ▸ hk),
        List.getElem?_set_self hin]
    · obtain ⟨d, hmem, hrest⟩ := h.filled i hi'
      exact ⟨d, List.mem_cons_of_mem _ hmem, hrest⟩
  · have hne : idx.toNat ≠ j := hj idx List.mem_cons_self
    rw [h.kept j fun i hi => hj i (List.mem_cons_of_mem _ hi), List.getElem?_set_ne hne]

/-- **The loop of `record_blocks`.** It panics exactly when some block overruns the
hash list; otherwise it records as `Recorded` says. -/
theorem recordLoop_spec (hashes : List Digest) (blocks : List (UInt32 × Bytes)) :
    ∀ (slots : List (Option Bytes)) (acc : List UInt32),
      ((∃ b ∈ blocks, Overruns hashes slots b.1) ∧
          recordLoop hashes blocks slots acc = .error .indexOutOfBounds) ∨
        ((∀ b ∈ blocks, ¬ Overruns hashes slots b.1) ∧
          ∃ slots' new, recordLoop hashes blocks slots acc = .ok (slots', acc ++ new) ∧
            Recorded hashes blocks slots slots' new) := by
  induction blocks with
  | nil =>
      intro slots acc
      exact Or.inr ⟨fun b hb => absurd hb List.not_mem_nil, slots, [], by simp [recordLoop],
        Recorded.nil⟩
  | cons b blocks ih =>
      intro slots acc
      obtain ⟨idx, data⟩ := b
      rcases recordBlock_cases hashes slots idx data with
        ⟨hover, heq⟩ | ⟨hno, hacc, heq⟩ | ⟨hno, hacc, heq⟩
      · exact Or.inl ⟨⟨_, List.mem_cons_self, hover⟩, by simp only [recordLoop, heq]⟩
      · have hlen : ∀ i : UInt32, Overruns hashes (slots.set idx.toNat (some data)) i ↔
            Overruns hashes slots i := by
          intro i
          rw [Overruns, Overruns, List.length_set]
        simp only [recordLoop, heq]
        rcases ih (slots.set idx.toNat (some data)) (acc ++ [idx]) with
          ⟨⟨b, hb, hover⟩, herr⟩ | ⟨hall, slots', new, hok, hrec⟩
        · exact Or.inl ⟨⟨b, List.mem_cons_of_mem _ hb, (hlen b.1).mp hover⟩, herr⟩
        · refine Or.inr ⟨?_, slots', idx :: new, by simpa using hok, hrec.store hacc⟩
          intro b hb
          rcases List.mem_cons.mp hb with rfl | hb'
          · exact hno
          · exact fun h => hall b hb' ((hlen b.1).mpr h)
      · simp only [recordLoop, heq]
        rcases ih slots acc with ⟨⟨b, hb, hover⟩, herr⟩ | ⟨hall, slots', new, hok, hrec⟩
        · exact Or.inl ⟨⟨b, List.mem_cons_of_mem _ hb, hover⟩, herr⟩
        · refine Or.inr ⟨?_, slots', new, hok, hrec.skip hacc⟩
          intro b hb
          rcases List.mem_cons.mp hb with rfl | hb'
          · exact hno
          · exact hall b hb'

/-- Everything `recordBlocks` can do. -/
theorem recordBlocks_cases (d : ActiveDownload) (peer : PeerId) (blocks : List (UInt32 × Bytes)) :
    (d.receivers.lookup peer = none ∧ d.recordBlocks peer blocks = .ok (d, [])) ∨
      (∃ r, d.receivers.lookup peer = some r ∧
        (∃ b ∈ blocks, Overruns d.blockInfo.blockHashes r.blocks b.1) ∧
        d.recordBlocks peer blocks = .error .indexOutOfBounds) ∨
      (∃ r slots new, d.receivers.lookup peer = some r ∧
        Recorded d.blockInfo.blockHashes blocks r.blocks slots new ∧
        (∀ b ∈ blocks, ¬ Overruns d.blockInfo.blockHashes r.blocks b.1) ∧
        d.recordBlocks peer blocks = .ok (d.setSlots peer slots, new)) := by
  unfold recordBlocks
  cases hr : d.receivers.lookup peer with
  | none => exact Or.inl ⟨rfl, rfl⟩
  | some r =>
      rcases recordLoop_spec d.blockInfo.blockHashes blocks r.blocks [] with
        ⟨hover, herr⟩ | ⟨hall, slots, new, hok, hrec⟩
      · exact Or.inr (Or.inl ⟨r, rfl, hover, by simp only [herr]⟩)
      · exact Or.inr (Or.inr ⟨r, slots, new, rfl, hrec, hall, by simp only [hok, List.nil_append]⟩)

/-- Inverting a recording that did not panic. -/
theorem recordBlocks_inv {d d' : ActiveDownload} {peer : PeerId}
    {blocks : List (UInt32 × Bytes)} {accepted : List UInt32}
    (h : d.recordBlocks peer blocks = .ok (d', accepted)) :
    (d.receivers.lookup peer = none ∧ d' = d ∧ accepted = []) ∨
      (∃ r slots, d.receivers.lookup peer = some r ∧ d' = d.setSlots peer slots ∧
        Recorded d.blockInfo.blockHashes blocks r.blocks slots accepted) := by
  rcases recordBlocks_cases d peer blocks with
    ⟨hr, heq⟩ | ⟨_, -, -, heq⟩ | ⟨r, slots, new, hr, hrec, -, heq⟩
  · rw [heq] at h
    obtain ⟨rfl, rfl⟩ := Prod.mk.inj (Except.ok.inj h)
    exact Or.inl ⟨hr, rfl, rfl⟩
  · rw [heq] at h; cases h
  · rw [heq] at h
    obtain ⟨rfl, rfl⟩ := Prod.mk.inj (Except.ok.inj h)
    exact Or.inr ⟨r, slots, hr, rfl, hrec⟩

theorem mem_accepted_iff {d d' : ActiveDownload} {peer : PeerId}
    {blocks : List (UInt32 × Bytes)} {accepted : List UInt32}
    (h : d.recordBlocks peer blocks = .ok (d', accepted)) (i : UInt32) :
    i ∈ accepted ↔ ∃ r data, d.receivers.lookup peer = some r ∧ (i, data) ∈ blocks ∧
      Acceptable d.blockInfo.blockHashes r.blocks i data := by
  rcases recordBlocks_inv h with ⟨hr, -, rfl⟩ | ⟨r, slots, hr, -, hrec⟩
  · simp [hr]
  · rw [hrec.mem_iff, hr]
    simp

/-! ### Held blocks -/

omit [Sha256] in
@[simp] theorem setSlots_blockInfo (d : ActiveDownload) (peer : PeerId)
    (slots : List (Option Bytes)) : (d.setSlots peer slots).blockInfo = d.blockInfo := rfl

omit [Sha256] in
theorem lookup_setSlots (d : ActiveDownload) (peer q : PeerId) (slots : List (Option Bytes)) :
    (d.setSlots peer slots).receivers.lookup q =
      if q = peer then (d.receivers.lookup q).map fun _ => ⟨slots⟩ else d.receivers.lookup q :=
  Table.lookup_modify peer q _ _

/-- Every peer has one slot per block. -/
def SlotsFit (d : ActiveDownload) : Prop :=
  ∀ p r, d.receivers.lookup p = some r → r.blocks.length = d.blockInfo.blockCount.toNat

/-- Peer `p` has delivered `b` as block `i`. -/
def HoldsFrom (d : ActiveDownload) (p : PeerId) (i : Nat) (b : Bytes) : Prop :=
  ∃ r, d.receivers.lookup p = some r ∧ r.blocks[i]? = some (some b)

/-- Some peer has delivered block `i`. -/
def Holds (d : ActiveDownload) (i : Nat) : Prop := ∃ p b, d.HoldsFrom p i b

omit [Sha256] in
theorem SlotsFit.setSlots {d : ActiveDownload} (h : d.SlotsFit) {peer : PeerId}
    {slots : List (Option Bytes)} (hlen : slots.length = d.blockInfo.blockCount.toNat) :
    (d.setSlots peer slots).SlotsFit := by
  intro p r hr
  rw [lookup_setSlots] at hr
  split at hr
  · obtain ⟨_, -, rfl⟩ := Option.map_eq_some_iff.mp hr
    exact hlen
  · exact h p r hr

theorem recordBlocks_slotsFit {d d' : ActiveDownload} {peer : PeerId}
    {blocks : List (UInt32 × Bytes)} {accepted : List UInt32} (hfit : d.SlotsFit)
    (h : d.recordBlocks peer blocks = .ok (d', accepted)) : d'.SlotsFit := by
  rcases recordBlocks_inv h with ⟨-, rfl, rfl⟩ | ⟨r, slots, hr, rfl, hrec⟩
  · exact hfit
  · exact hfit.setSlots (hrec.length_eq.trans (hfit peer r hr))

/-- Recording changes neither the layout nor the expected NAR. -/
theorem recordBlocks_fields {d d' : ActiveDownload} {peer : PeerId}
    {blocks : List (UInt32 × Bytes)} {accepted : List UInt32}
    (h : d.recordBlocks peer blocks = .ok (d', accepted)) :
    d'.blockInfo = d.blockInfo ∧ d'.narHashHex = d.narHashHex ∧ d'.narSize = d.narSize ∧
      ∀ p, p ∈ d'.receivers ↔ p ∈ d.receivers := by
  rcases recordBlocks_inv h with ⟨-, rfl, rfl⟩ | ⟨r, slots, -, rfl, -⟩
  · exact ⟨rfl, rfl, rfl, fun _ => Iff.rfl⟩
  · exact ⟨rfl, rfl, rfl, fun _ => Table.mem_modify⟩

/-- A copy held after recording was held before, or was delivered now with the
expected digest and accepted. -/
theorem holdsFrom_of_recordBlocks {d d' : ActiveDownload} {peer p : PeerId}
    {blocks : List (UInt32 × Bytes)} {accepted : List UInt32} {i : Nat} {b : Bytes}
    (h : d.recordBlocks peer blocks = .ok (d', accepted)) (hb : d'.HoldsFrom p i b) :
    d.HoldsFrom p i b ∨ ∃ idx ∈ accepted, idx.toNat = i ∧ (idx, b) ∈ blocks ∧
      d.blockInfo.blockHashes[i]? = some (Sha256.digest b) := by
  rcases recordBlocks_inv h with ⟨-, rfl, rfl⟩ | ⟨r, slots, hr, rfl, hrec⟩
  · exact Or.inl hb
  · obtain ⟨r', hr', hb'⟩ := hb
    rw [lookup_setSlots] at hr'
    split at hr'
    next hp =>
      subst hp
      obtain ⟨_, -, rfl⟩ := Option.map_eq_some_iff.mp hr'
      by_cases hacc : ∃ idx ∈ accepted, idx.toNat = i
      · obtain ⟨idx, hidx, rfl⟩ := hacc
        obtain ⟨data, hmem, hhash, hslot⟩ := hrec.filled idx hidx
        obtain rfl : data = b := by
          have hboth : some (some data) = some (some b) := hslot.symm.trans hb'
          simpa using hboth
        exact Or.inr ⟨idx, hidx, rfl, hmem, hhash⟩
      · refine Or.inl ⟨r, hr, ?_⟩
        rw [← hrec.kept i fun idx hidx he => hacc ⟨idx, hidx, he⟩]
        exact hb'
    next => exact Or.inl ⟨r', hr', hb'⟩

/-- Recording forgets nothing. -/
theorem holdsFrom_mono {d d' : ActiveDownload} {peer p : PeerId}
    {blocks : List (UInt32 × Bytes)} {accepted : List UInt32} {i : Nat} {b : Bytes}
    (h : d.recordBlocks peer blocks = .ok (d', accepted)) (hb : d.HoldsFrom p i b) :
    d'.HoldsFrom p i b := by
  rcases recordBlocks_inv h with ⟨-, rfl, rfl⟩ | ⟨r, slots, hr, rfl, hrec⟩
  · exact hb
  · obtain ⟨r', hr', hb'⟩ := hb
    by_cases hp : p = peer
    · subst hp
      obtain rfl : r = r' := Option.some.inj (hr.symm.trans hr')
      refine ⟨⟨slots⟩, by rw [lookup_setSlots, if_pos rfl, hr]; rfl, ?_⟩
      have hkeep : ∀ idx ∈ accepted, idx.toNat ≠ i := by
        intro idx hidx h'
        obtain rfl := h'
        obtain ⟨_, -, -, -, hslot⟩ := (hrec.mem_iff idx).mp hidx
        rw [hb'] at hslot
        cases hslot
      rw [hrec.kept i hkeep]
      exact hb'
    · exact ⟨r', by rw [lookup_setSlots, if_neg hp]; exact hr', hb'⟩

/-- Every accepted index is held afterwards. -/
theorem holds_of_accepted {d d' : ActiveDownload} {peer : PeerId}
    {blocks : List (UInt32 × Bytes)} {accepted : List UInt32} {idx : UInt32}
    (h : d.recordBlocks peer blocks = .ok (d', accepted)) (hidx : idx ∈ accepted) :
    d'.Holds idx.toNat := by
  rcases recordBlocks_inv h with ⟨-, rfl, rfl⟩ | ⟨r, slots, hr, rfl, hrec⟩
  · exact absurd hidx List.not_mem_nil
  · obtain ⟨data, -, -, hslot⟩ := hrec.filled idx hidx
    exact ⟨peer, data, ⟨slots⟩, by rw [lookup_setSlots, if_pos rfl, hr]; rfl, hslot⟩

/-- **Held blocks after recording**: those held before and those accepted now. -/
theorem holds_recordBlocks_iff {d d' : ActiveDownload} {peer : PeerId}
    {blocks : List (UInt32 × Bytes)} {accepted : List UInt32}
    (h : d.recordBlocks peer blocks = .ok (d', accepted)) (i : Nat) :
    d'.Holds i ↔ d.Holds i ∨ ∃ idx ∈ accepted, idx.toNat = i := by
  constructor
  · intro h'
    obtain ⟨p, b, hb⟩ := h'
    rcases holdsFrom_of_recordBlocks h hb with hold | ⟨idx, hidx, hi, -, -⟩
    · exact Or.inl ⟨p, b, hold⟩
    · exact Or.inr ⟨idx, hidx, hi⟩
  · intro h'
    rcases h' with ⟨p, b, hb⟩ | ⟨idx, hidx, rfl⟩
    · exact ⟨p, b, holdsFrom_mono h hb⟩
    · exact holds_of_accepted h hidx

/-! ### Completion and assembly of a download whose slots fit -/

section Fit

variable {d : ActiveDownload}

omit [Sha256] in
/-- With slots that fit, the scan for a copy of a block finds one exactly when the
block is held, and does not panic. -/
theorem findBlock_values (hfit : d.SlotsFit) {i : Nat} (hi : i < d.blockInfo.blockCount.toNat) :
    (∃ p b, d.HoldsFrom p i b ∧ findBlock d.receivers.values i = .ok (some b)) ∨
      (¬ d.Holds i ∧ findBlock d.receivers.values i = .ok none) := by
  have hlen : ∀ r ∈ d.receivers.values, i < r.blocks.length := by
    intro r hr
    obtain ⟨p, hp⟩ := Table.mem_values.mp hr
    rw [hfit p r hp]
    exact hi
  have hscan : ∀ rs : List DownloadResult, (∀ r ∈ rs, i < r.blocks.length) →
      (∃ b, (∃ r ∈ rs, r.blocks[i]? = some (some b)) ∧ findBlock rs i = .ok (some b)) ∨
        ((∀ r ∈ rs, r.blocks[i]? = some none) ∧ findBlock rs i = .ok none) := by
    intro rs
    induction rs with
    | nil => intro _; exact Or.inr ⟨fun r hr => absurd hr List.not_mem_nil, rfl⟩
    | cons r rs ih =>
        intro hrs
        obtain ⟨slot, hget⟩ : ∃ slot, r.blocks[i]? = some slot :=
          ⟨_, List.getElem?_eq_getElem (hrs r List.mem_cons_self)⟩
        cases slot with
        | some b =>
            exact Or.inl ⟨b, ⟨r, List.mem_cons_self, hget⟩, by simp only [findBlock, hget]⟩
        | none =>
            simp only [findBlock, hget]
            rcases ih fun r' hr' => hrs r' (List.mem_cons_of_mem _ hr') with
              ⟨b, ⟨r', hr', hb⟩, heq⟩ | ⟨hall, heq⟩
            · exact Or.inl ⟨b, ⟨r', List.mem_cons_of_mem _ hr', hb⟩, heq⟩
            · exact Or.inr ⟨List.forall_mem_cons.mpr ⟨hget, hall⟩, heq⟩
  rcases hscan _ hlen with ⟨b, ⟨r, hr, hb⟩, heq⟩ | ⟨hall, heq⟩
  · obtain ⟨p, hp⟩ := Table.mem_values.mp hr
    exact Or.inl ⟨p, b, ⟨r, hp, hb⟩, heq⟩
  · refine Or.inr ⟨?_, heq⟩
    intro h
    obtain ⟨p, b, r, hp, hb⟩ := h
    rw [hall r (Table.mem_values.mpr ⟨p, hp⟩)] at hb
    cases hb

omit [Sha256] in
/-- **Completion.** `is_complete` does not panic, and it holds exactly when every
block is held; the single-peer shortcut adds nothing. -/
theorem isComplete_spec (hfit : d.SlotsFit) :
    ∃ b, d.isComplete = .ok b ∧
      (b = true ↔ ∀ i < d.blockInfo.blockCount.toNat, d.Holds i) := by
  have hcross : ∀ is : List Nat, (∀ i ∈ is, i < d.blockInfo.blockCount.toNat) →
      ∃ b, crossPeerComplete d.receivers.values is = .ok b ∧ (b = true ↔ ∀ i ∈ is, d.Holds i) := by
    intro is
    induction is with
    | nil => intro _; exact ⟨true, rfl, by simp⟩
    | cons i is ih =>
        intro his
        rcases findBlock_values hfit (his i List.mem_cons_self) with
          ⟨p, b, hb, heq⟩ | ⟨hno, heq⟩
        · simp only [crossPeerComplete, heq]
          obtain ⟨c, hc, hiff⟩ := ih fun j hj => his j (List.mem_cons_of_mem _ hj)
          refine ⟨c, hc, ?_⟩
          rw [hiff, List.forall_mem_cons]
          exact ⟨fun h => ⟨⟨p, b, hb⟩, h⟩, fun h => h.2⟩
        · simp only [crossPeerComplete, heq]
          exact ⟨false, rfl, iff_of_false Bool.false_ne_true
            fun h => hno (h i List.mem_cons_self)⟩
  unfold isComplete
  split
  next hany =>
    refine ⟨true, rfl, iff_of_true rfl fun i hi => ?_⟩
    obtain ⟨r, hr, hall⟩ := List.any_eq_true.mp hany
    obtain ⟨p, hp⟩ := Table.mem_values.mp hr
    obtain ⟨slot, hslot⟩ : ∃ slot, r.blocks[i]? = some slot :=
      ⟨_, List.getElem?_eq_getElem (by rw [hfit p r hp]; exact hi)⟩
    obtain ⟨b, rfl⟩ := Option.isSome_iff_exists.mp
      (List.all_eq_true.mp hall slot (List.mem_of_getElem? hslot))
    exact ⟨p, b, r, hp, hslot⟩
  next =>
    obtain ⟨c, hc, hiff⟩ := hcross (List.range d.blockInfo.blockCount.toNat) fun i hi =>
      List.mem_range.mp hi
    exact ⟨c, hc, by simpa only [List.mem_range] using hiff⟩

omit [Sha256] in
/-- If every copy of block `i` is `f i`, then whichever copy the scan finds first,
the loop concatenates the `f i`. -/
theorem assembleLoop_eq (hfit : d.SlotsFit) {f : Nat → Bytes} :
    ∀ (is : List Nat) (nar : Bytes), (∀ i ∈ is, i < d.blockInfo.blockCount.toNat) →
      (∀ i ∈ is, d.Holds i) → (∀ i ∈ is, ∀ p b, d.HoldsFrom p i b → b = f i) →
      assembleLoop d.receivers.values is nar = .ok (.ok (nar ++ (is.map f).flatten)) := by
  intro is
  induction is with
  | nil => intro nar _ _ _; simp [assembleLoop]
  | cons i is ih =>
      intro nar his hheld hf
      rcases findBlock_values hfit (his i List.mem_cons_self) with ⟨p, b, hb, heq⟩ | ⟨hno, -⟩
      · obtain rfl := hf i List.mem_cons_self p b hb
        simp only [assembleLoop, heq]
        rw [ih _ (fun j hj => his j (List.mem_cons_of_mem _ hj))
          (fun j hj => hheld j (List.mem_cons_of_mem _ hj))
          (fun j hj => hf j (List.mem_cons_of_mem _ hj))]
        simp
      · exact absurd (hheld i List.mem_cons_self) hno

omit [Sha256] in
theorem assembleLoop_ne_error (hfit : d.SlotsFit) :
    ∀ (is : List Nat) (nar : Bytes), (∀ i ∈ is, i < d.blockInfo.blockCount.toNat) →
      ∃ r, assembleLoop d.receivers.values is nar = .ok r := by
  intro is
  induction is with
  | nil => intro nar _; exact ⟨_, rfl⟩
  | cons i is ih =>
      intro nar his
      rcases findBlock_values hfit (his i List.mem_cons_self) with ⟨p, b, -, heq⟩ | ⟨-, heq⟩
      · simp only [assembleLoop, heq]
        exact ih _ fun j hj => his j (List.mem_cons_of_mem _ hj)
      · exact ⟨_, by simp only [assembleLoop, heq]; rfl⟩

/-- A download that holds every block, each copy of block `i` being `f i`, assembles
the `f i` in order. -/
theorem assemble_eq (hfit : d.SlotsFit) {f : Nat → Bytes}
    (hheld : ∀ i < d.blockInfo.blockCount.toNat, d.Holds i)
    (hf : ∀ p i b, d.HoldsFrom p i b → b = f i) :
    d.assemble =
      .ok (d.checkNar ((List.range d.blockInfo.blockCount.toNat).map f).flatten) := by
  unfold assemble
  rw [assembleLoop_eq hfit _ [] (fun i hi => List.mem_range.mp hi)
    (fun i hi => hheld i (List.mem_range.mp hi)) (fun i _ p b hb => hf p i b hb)]
  rfl

/-- The final checks pass for a NAR of the right size and digest. -/
theorem checkNar_eq_ok {nar : Bytes} (hsize : d.narSize = 0 ∨ nar.length = d.narSize.toNat)
    (hhash : d.narHashHex = Hex.encode (Sha256.digest nar).toList) :
    d.checkNar nar = .ok nar := by
  have hlen : ¬ (0 < d.narSize ∧ nar.length ≠ d.narSize.toNat) := by
    intro h
    rcases hsize with hzero | heq
    · exact absurd h.1 (by rw [hzero]; exact UInt64.lt_irrefl 0)
    · exact h.2 heq
  simp only [checkNar]
  rw [if_neg hlen, if_neg fun h => h.1 hhash.symm]

/-- Assembly of a download whose slots fit does not panic. -/
theorem assemble_ok (hfit : d.SlotsFit) : ∃ r, d.assemble = .ok r := by
  obtain ⟨r, hr⟩ := assembleLoop_ne_error hfit (List.range d.blockInfo.blockCount.toNat) []
    fun i hi => List.mem_range.mp hi
  unfold assemble
  rw [hr]
  cases r with
  | error e => exact ⟨_, rfl⟩
  | ok nar => exact ⟨_, rfl⟩

end Fit

end ActiveDownload

end GuixP2p
