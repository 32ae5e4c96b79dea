import GuixP2p.Swarm.Downloader
import GuixP2p.Lib.Machine

/-!
# GuixP2p.Swarm.Assembly

**Assembly against any peers.** A download is driven by two operations, `add_peer` and
`record_blocks`, in any order and with whatever the peers choose to send. Over every such
run, each stored copy of block `i` has the digest the hash list names at `i`; so a NAR that
`assemble` returns is made of such blocks, and when no two delivered blocks collide it does
not matter whose copy the scan of the receivers meets first.
-/

namespace GuixP2p

open GuixP2p.Lib

namespace ActiveDownload

/-- What the scheduler does with a download. The blocks are the peer's choice. -/
inductive Op
  | addPeer (peer : PeerId)
  | recordBlocks (peer : PeerId) (blocks : List (UInt32 × Bytes))

/-- The data an operation delivers. -/
def Op.data : Op → List Bytes
  | .addPeer _ => []
  | .recordBlocks _ blocks => blocks.map Prod.snd

variable [Sha256]

def step (d : ActiveDownload) : Op → Except Panic ActiveDownload
  | .addPeer peer => .ok (d.addPeer peer)
  | .recordBlocks peer blocks => (d.recordBlocks peer blocks).map Prod.fst

/-- No two blocks that these operations deliver have the same digest: SHA-256 as
injective, on what the run has seen. -/
def CollisionFree (ops : List Op) : Prop :=
  ∀ a ∈ ops.flatMap Op.data, ∀ b ∈ ops.flatMap Op.data,
    Sha256.digest a = Sha256.digest b → a = b

/-- Everything a step can do. -/
theorem step_inv {d d' : ActiveDownload} {op : Op} (h : d.step op = .ok d') :
    (∃ peer, op = .addPeer peer ∧ d' = d.addPeer peer) ∨
      (∃ peer blocks accepted, op = .recordBlocks peer blocks ∧
        d.recordBlocks peer blocks = .ok (d', accepted)) := by
  cases op with
  | addPeer peer =>
      obtain rfl : d.addPeer peer = d' := Except.ok.inj h
      exact Or.inl ⟨peer, rfl, rfl⟩
  | recordBlocks peer blocks =>
      simp only [step] at h
      cases hr : d.recordBlocks peer blocks with
      | error p => rw [hr] at h; cases h
      | ok r =>
          rw [hr] at h
          obtain rfl : r.1 = d' := Except.ok.inj h
          exact Or.inr ⟨peer, blocks, r.2, rfl, hr⟩

/-! ### What every run keeps -/

/-- The invariant of a run: the layout and the expected NAR are those the download
started with, every peer has one slot per block, and every stored copy was delivered and
passed the check of its index. -/
structure Verified (d₀ : ActiveDownload) (delivered : List Bytes) (d : ActiveDownload) : Prop where
  blockInfo_eq : d.blockInfo = d₀.blockInfo
  narHashHex_eq : d.narHashHex = d₀.narHashHex
  narSize_eq : d.narSize = d₀.narSize
  slotsFit : d.SlotsFit
  holds : ∀ p i b, d.HoldsFrom p i b →
    b ∈ delivered ∧ d.blockInfo.blockHashes[i]? = some (Sha256.digest b)

omit [Sha256] in
theorem slotsFit_addPeer {d : ActiveDownload} (h : d.SlotsFit) (peer : PeerId) :
    (d.addPeer peer).SlotsFit := by
  intro p r hr
  by_cases hp : p = peer
  · subst hp
    simp only [addPeer, AList.lookup_insert] at hr
    obtain rfl := Option.some.inj hr
    exact List.length_replicate
  · simp only [addPeer, AList.lookup_insert_ne hp] at hr
    exact h p r hr

omit [Sha256] in
/-- A peer that is added, or added again, holds nothing. -/
theorem holdsFrom_of_addPeer {d : ActiveDownload} {peer p : PeerId} {i : Nat} {b : Bytes}
    (h : (d.addPeer peer).HoldsFrom p i b) : d.HoldsFrom p i b := by
  obtain ⟨r, hr, hb⟩ := h
  by_cases hp : p = peer
  · subst hp
    simp only [addPeer, AList.lookup_insert] at hr
    obtain rfl := Option.some.inj hr
    obtain ⟨_, hnone⟩ := List.getElem?_eq_some_iff.mp hb
    simp at hnone
  · simp only [addPeer, AList.lookup_insert_ne hp] at hr
    exact ⟨r, hr, hb⟩

theorem verified_new (narHashHex : Text) (narSize : UInt64) (info : BlockInfo)
    (delivered : List Bytes) :
    Verified (new narHashHex narSize info) delivered (new narHashHex narSize info) where
  blockInfo_eq := rfl
  narHashHex_eq := rfl
  narSize_eq := rfl
  slotsFit p r hr := by simp [new] at hr
  holds p i b hb := by
    obtain ⟨r, hr, -⟩ := hb
    simp [new] at hr

/-- **Step lemma.** -/
theorem Verified.step {d₀ d d' : ActiveDownload} {delivered : List Bytes} {op : Op}
    (hv : Verified d₀ delivered d) (hop : ∀ b ∈ op.data, b ∈ delivered)
    (h : d.step op = .ok d') : Verified d₀ delivered d' := by
  rcases step_inv h with ⟨peer, rfl, rfl⟩ | ⟨peer, blocks, accepted, rfl, hrec⟩
  · exact ⟨hv.blockInfo_eq, hv.narHashHex_eq, hv.narSize_eq, slotsFit_addPeer hv.slotsFit peer,
      fun p i b hb => hv.holds p i b (holdsFrom_of_addPeer hb)⟩
  · obtain ⟨hinfo, hhex, hsize, -⟩ := recordBlocks_fields hrec
    refine ⟨hinfo.trans hv.blockInfo_eq, hhex.trans hv.narHashHex_eq, hsize.trans hv.narSize_eq,
      recordBlocks_slotsFit hv.slotsFit hrec, fun p i b hb => ?_⟩
    rw [hinfo]
    rcases holdsFrom_of_recordBlocks hrec hb with hold | ⟨idx, -, -, hmem, hhash⟩
    · exact hv.holds p i b hold
    · exact ⟨hop b (List.mem_map.mpr ⟨(idx, b), hmem, rfl⟩), hhash⟩

/-- **Run lemma.** -/
theorem verified_of_run {narHashHex : Text} {narSize : UInt64} {info : BlockInfo}
    {ops : List Op} {d : ActiveDownload}
    (h : Machine.run step (new narHashHex narSize info) ops = .ok d) :
    Verified (new narHashHex narSize info) (ops.flatMap Op.data) d := by
  -- the guard says that an operation delivers nothing but what the whole run delivers
  have hguard : Machine.Meets step (fun _ op => ∀ b ∈ op.data, b ∈ ops.flatMap Op.data)
      (new narHashHex narSize info) ops :=
    Machine.meets_of_forall (fun op hop _ b hb => List.mem_flatMap.mpr ⟨op, hop, hb⟩) _
  exact Machine.run_guarded_invariant (fun _ _ _ hv hop hs => hv.step hop hs)
    (verified_new narHashHex narSize info _) hguard h

/-! ### What assembly returns -/

section Assemble

variable {d₀ d : ActiveDownload} {delivered : List Bytes}

/-- What the loop appends: one checked block per index, in index order. -/
theorem assembleLoop_blocks (hv : Verified d₀ delivered d) :
    ∀ (is : List Nat) (acc nar : Bytes), (∀ i ∈ is, i < d.blockInfo.blockCount.toNat) →
      assembleLoop d.receivers.values is acc = .ok (.ok nar) →
      ∃ blocks : List Bytes, nar = acc ++ blocks.flatten ∧
        List.Forall₂ (fun i b => d.blockInfo.blockHashes[i]? = some (Sha256.digest b)) is blocks := by
  intro is
  induction is with
  | nil =>
      intro acc nar _ h
      obtain rfl : acc = nar := by simpa [assembleLoop] using h
      exact ⟨[], by simp, List.Forall₂.nil⟩
  | cons i is ih =>
      intro acc nar his h
      rcases findBlock_values hv.slotsFit (his i List.mem_cons_self) with
        ⟨p, b, hb, heq⟩ | ⟨-, heq⟩
      · simp only [assembleLoop, heq] at h
        obtain ⟨blocks, rfl, hall⟩ := ih (acc ++ b) nar (fun j hj => his j (List.mem_cons_of_mem _ hj)) h
        exact ⟨b :: blocks, by simp, List.Forall₂.cons (hv.holds p i b hb).2 hall⟩
      · simp only [assembleLoop, heq] at h
        cases h

/-- The final checks, read back from a NAR that passed them. -/
theorem checkNar_ok_inv {nar nar' : Bytes} (h : d.checkNar nar = .ok nar') :
    nar = nar' ∧ (0 < d.narSize → nar.length = d.narSize.toNat) ∧
      (Hex.encode (Sha256.digest nar).toList = d.narHashHex ∨
        "sha256:".toList ++ Hex.encode (Sha256.digest nar).toList = d.narHashHex) := by
  simp only [checkNar] at h
  split at h
  · cases h
  · next hlen =>
      split at h
      · cases h
      · next hhash =>
          refine ⟨Except.ok.inj h, fun hpos => ?_, ?_⟩
          · by_contra hne
            exact hlen ⟨hpos, hne⟩
          · by_contra hno
            exact hhash ⟨fun he => hno (Or.inl he), fun he => hno (Or.inr he)⟩

/-- Inverting a successful assembly. -/
theorem assemble_ok_inv {nar : Bytes} (h : d.assemble = .ok (.ok nar)) :
    assembleLoop d.receivers.values (List.range d.blockInfo.blockCount.toNat) [] = .ok (.ok nar) ∧
      d.checkNar nar = .ok nar := by
  unfold assemble at h
  cases hloop : assembleLoop d.receivers.values (List.range d.blockInfo.blockCount.toNat) [] with
  | error p => rw [hloop] at h; cases h
  | ok r =>
      rw [hloop] at h
      cases r with
      | error e => cases h
      | ok nar' =>
          have hcheck : d.checkNar nar' = .ok nar := Except.ok.inj h
          obtain ⟨rfl, -, -⟩ := checkNar_ok_inv hcheck
          exact ⟨rfl, hcheck⟩

/-! ### The order of the receivers -/

variable {d' : ActiveDownload}

/-- The same download, its receivers possibly iterated in another order. -/
structure SameDownload (d d' : ActiveDownload) : Prop where
  blockInfo_eq : d'.blockInfo = d.blockInfo
  narHashHex_eq : d'.narHashHex = d.narHashHex
  narSize_eq : d'.narSize = d.narSize
  receivers : d.receivers.Equiv d'.receivers

omit [Sha256] in
theorem SameDownload.holdsFrom (h : SameDownload d d') {p : PeerId} {i : Nat} {b : Bytes} :
    d'.HoldsFrom p i b ↔ d.HoldsFrom p i b := by
  unfold HoldsFrom
  rw [h.receivers.lookup_eq p]

omit [Sha256] in
theorem SameDownload.slotsFit (h : SameDownload d d') (hfit : d.SlotsFit) : d'.SlotsFit := by
  intro p r hr
  rw [← h.receivers.lookup_eq p] at hr
  rw [h.blockInfo_eq]
  exact hfit p r hr

/-- Which copy the scan meets first depends on the order; the bytes do not. -/
theorem findBlock_eq (hv : Verified d₀ delivered d) (h : SameDownload d d')
    (hfree : ∀ a ∈ delivered, ∀ b ∈ delivered, Sha256.digest a = Sha256.digest b → a = b)
    {i : Nat} (hi : i < d.blockInfo.blockCount.toNat) :
    findBlock d'.receivers.values i = findBlock d.receivers.values i := by
  have hi' : i < d'.blockInfo.blockCount.toNat := by rw [h.blockInfo_eq]; exact hi
  rcases findBlock_values hv.slotsFit hi with ⟨p, b, hb, heq⟩ | ⟨hno, heq⟩ <;>
    rcases findBlock_values (h.slotsFit hv.slotsFit) hi' with ⟨q, c, hc, heq'⟩ | ⟨hno', heq'⟩
  · obtain ⟨hbmem, hbhash⟩ := hv.holds p i b hb
    obtain ⟨hcmem, hchash⟩ := hv.holds q i c (h.holdsFrom.mp hc)
    have hdigest : Sha256.digest b = Sha256.digest c :=
      Option.some.inj (hbhash.symm.trans hchash)
    rw [heq, heq', hfree b hbmem c hcmem hdigest]
  · exact absurd ⟨p, b, h.holdsFrom.mpr hb⟩ hno'
  · exact absurd ⟨q, c, h.holdsFrom.mp hc⟩ hno
  · rw [heq, heq']

theorem assembleLoop_same (hv : Verified d₀ delivered d) (h : SameDownload d d')
    (hfree : ∀ a ∈ delivered, ∀ b ∈ delivered, Sha256.digest a = Sha256.digest b → a = b) :
    ∀ (is : List Nat) (acc : Bytes), (∀ i ∈ is, i < d.blockInfo.blockCount.toNat) →
      assembleLoop d'.receivers.values is acc = assembleLoop d.receivers.values is acc := by
  intro is
  induction is with
  | nil => intro acc _; rfl
  | cons i is ih =>
      intro acc his
      have hfind := findBlock_eq hv h hfree (his i List.mem_cons_self)
      simp only [assembleLoop, hfind]
      cases findBlock d.receivers.values i with
      | error p => rfl
      | ok slot =>
          cases slot with
          | none => rfl
          | some b => exact ih (acc ++ b) fun j hj => his j (List.mem_cons_of_mem _ hj)

theorem assemble_same (hv : Verified d₀ delivered d) (h : SameDownload d d')
    (hfree : ∀ a ∈ delivered, ∀ b ∈ delivered, Sha256.digest a = Sha256.digest b → a = b) :
    d'.assemble = d.assemble := by
  have hcheck : ∀ nar, d'.checkNar nar = d.checkNar nar := by
    intro nar
    simp only [checkNar, h.narSize_eq, h.narHashHex_eq]
  simp only [assemble, h.blockInfo_eq, hcheck,
    assembleLoop_same hv h hfree _ [] fun i hi => List.mem_range.mp hi]

end Assemble

/-- **Assembly is sound and order-independent.** In every state that any operations with
any peers reach, `assemble` does not panic; a NAR it returns is the concatenation of one
block per index, each with the digest the hash list names there, of the expected size when
one is known, and with the expected hash; and iterating the receivers in another order
gives the same result, value or error. -/
theorem assemble_sound {narHashHex : Text} {narSize : UInt64} {info : BlockInfo} {ops : List Op}
    {d : ActiveDownload} (hrun : Machine.run step (new narHashHex narSize info) ops = .ok d)
    (hfree : CollisionFree ops) :
    (∃ r, d.assemble = .ok r) ∧
      (∀ nar, d.assemble = .ok (.ok nar) →
        (∃ blocks : List Bytes, nar = blocks.flatten ∧
          blocks.length = info.blockCount.toNat ∧
          ∀ i < info.blockCount.toNat, ∃ b, blocks[i]? = some b ∧
            info.blockHashes[i]? = some (Sha256.digest b)) ∧
        (0 < narSize → nar.length = narSize.toNat) ∧
        (Hex.encode (Sha256.digest nar).toList = narHashHex ∨
          "sha256:".toList ++ Hex.encode (Sha256.digest nar).toList = narHashHex)) ∧
      ∀ d', SameDownload d d' → d'.assemble = d.assemble := by
  have hv := verified_of_run hrun
  have hinfo : d.blockInfo = info := hv.blockInfo_eq
  refine ⟨assemble_ok hv.slotsFit, fun nar hnar => ?_, fun d' hd' => assemble_same hv hd' hfree⟩
  obtain ⟨hloop, hcheck⟩ := assemble_ok_inv hnar
  obtain ⟨-, hlen, hhash⟩ := checkNar_ok_inv hcheck
  obtain ⟨blocks, hflat, hall⟩ := assembleLoop_blocks hv _ [] nar (fun i hi => List.mem_range.mp hi) hloop
  rw [hinfo] at hall
  have hcount : blocks.length = info.blockCount.toNat := by
    rw [← hall.length_eq, List.length_range]
  refine ⟨⟨blocks, by simpa using hflat, hcount, fun i hi => ?_⟩, ?_, ?_⟩
  · have hib : i < blocks.length := by rw [hcount]; exact hi
    refine ⟨blocks[i], List.getElem?_eq_getElem hib, ?_⟩
    have hget := hall.get (i := i) (by rw [List.length_range]; exact hi) hib
    simpa using hget
  · rw [hv.narSize_eq] at hlen
    exact hlen
  · rw [hv.narHashHex_eq] at hhash
    exact hhash

/-! ### Two peers with copies of one block -/

/-- `peerB` delivers its copy of block 0 first and passes it off as block 1 as well. -/
def twoCopies : List Op :=
  [.addPeer peerA, .addPeer peerB, .recordBlocks peerB [(0, sampleNar), (1, sampleNar)],
    .recordBlocks peerA [(1, sampleTail), (0, sampleNar)]]

def twoBlockInfo : BlockInfo :=
  (BlockInfo.fromFileSize 8 4 BlockInfo.four_pos).setHashes
    [sampleSha256.digest sampleNar, sampleSha256.digest sampleTail]

omit [Sha256] in
theorem assemble_sound_two_copies :
    ∃ d, Machine.run (@step sampleSha256)
        (new (Hex.encode (sampleSha256.digest (sampleNar ++ sampleTail)).toList) 8 twoBlockInfo)
        twoCopies = .ok d ∧
      @assemble sampleSha256 d = .ok (.ok (sampleNar ++ sampleTail)) ∧
      @assemble sampleSha256 { d with receivers := ⟨d.receivers.entries.reverse, by
        rw [List.NodupKeys, List.keys, List.map_reverse]
        exact List.nodup_reverse.mpr d.receivers.nodupKeys⟩ } = @assemble sampleSha256 d := by
  refine ⟨_, rfl, rfl, ?_⟩
  have hfree : @CollisionFree sampleSha256 twoCopies := by
    unfold CollisionFree
    decide +kernel
  exact (@assemble_sound sampleSha256 _ 8 twoBlockInfo twoCopies _ rfl hfree).2.2 _
    ⟨rfl, rfl, rfl, (List.reverse_perm _).symm⟩

end ActiveDownload

end GuixP2p
