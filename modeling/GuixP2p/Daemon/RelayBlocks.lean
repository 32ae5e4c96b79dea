import GuixP2p.Daemon.FetchSafety
import GuixP2p.Daemon.RelayEffects

/-!
# GuixP2p.Daemon.RelayBlocks

**Block responses of concurrent downloads.** A download takes every `Blocks` response
its connection receives as its own. For a response of one of its peers it credits the
bytes, frees the slots and requeues the blocks of every index the response names,
whichever NAR it was sent for; block indices of two NARs overlap.

`foreign_blocks_unchanged_iff` says which responses leave the scheduler as it is.
-/

namespace GuixP2p

open GuixP2p.Lib

/-! ### Responses that change nothing -/

theorem foldl_erase_eq_self_iff {blocks : List (UInt32 × Bytes)} {inFlight : Finset UInt32} :
    blocks.foldl (fun s b => s.erase b.1) inFlight = inFlight ↔ ∀ b ∈ blocks, b.1 ∉ inFlight := by
  constructor
  · intro h b hb hin
    rw [← h] at hin
    exact (mem_foldl_erase.mp hin).2 b hb rfl
  · intro h
    ext i
    rw [mem_foldl_erase]
    constructor
    · exact fun hi => hi.1
    · intro hi
      exact ⟨hi, fun b hb hbi => h b hb (hbi ▸ hi)⟩

theorem updatePeerAfterBlockResponse_eq_self_iff {peerStates : Table PeerId PeerFetchState}
    {peer : PeerId} {blocks : List (UInt32 × Bytes)} :
    updatePeerAfterBlockResponse peerStates peer blocks = peerStates ↔
      ∀ st, peerStates.lookup peer = some st →
        ∀ b ∈ blocks, b.2 = [] ∧ b.1 ∉ st.inFlight := by
  rw [updatePeerAfterBlockResponse, Table.modify_eq_self_iff]
  refine forall₂_congr fun st _ => ?_
  rw [PeerFetchState.mk.injEq, foldl_erase_eq_self_iff]
  simp only [true_and, Nat.add_eq_left, List.sum_eq_zero_iff_forall_eq_nat, List.mem_map,
    forall_exists_index, and_imp, forall_apply_eq_imp_iff₂, List.length_eq_zero_iff]
  constructor
  · intro h b hb
    exact ⟨h.2 b hb, h.1 b hb⟩
  · intro h
    exact ⟨fun b hb => (h b hb).2, fun b hb => (h b hb).1⟩

/-- A response that completes no block and names none in flight to its sender leaves
the block table alone. -/
theorem blockStates_afterResponse_eq {s : Scheduler} {peer : PeerId}
    {blocks : List (UInt32 × Bytes)} {accepted : List UInt32}
    (hdone : ∀ a ∈ accepted, s.blockStates[a.toNat]? = some .complete)
    (howed : ∀ b ∈ blocks, ∀ t, s.blockStates[b.1.toNat]? ≠ some (.inFlight peer t)) :
    (s.afterResponse peer blocks accepted).blockStates = s.blockStates := by
  refine List.ext_getElem? fun j => ?_
  rw [getElem?_afterResponse]
  cases hst : s.blockStates[j]? with
  | none => rfl
  | some st =>
      rw [Option.map_some, Option.some.injEq, responseState]
      split
      next hacc =>
        obtain ⟨a, ha, rfl⟩ := hacc
        exact Option.some.inj ((hdone a ha).symm.trans hst)
      next =>
        split
        next hnamed =>
          obtain ⟨b, hb, rfl⟩ := hnamed
          cases st with
          | pending => rfl
          | complete => rfl
          | inFlight q t =>
              have hq : q ≠ peer := fun he => howed b hb t (he ▸ hst)
              simp [BlockFetchState.retry, hq]
        next => rfl

namespace BlockDownload

variable [Sha256] {d : BlockDownload}

/-- The blocks `peer` may send without effect: empty ones it does not owe, as long as
an index of the download has a hash, and not the empty block's unless it is
complete. -/
def Ineffective (d : BlockDownload) (st : PeerFetchState) (bd : BlockData) : Prop :=
  bd.data = [] ∧ bd.index ∉ st.inFlight ∧
    (bd.index < d.download.blockInfo.blockCount →
      ∃ h, d.download.blockInfo.blockHashes[bd.index.toNat]? = some h ∧
        (Sha256.digest [] = h → d.sched.blockStates[bd.index.toNat]? = some .complete))

/-- **Which responses change nothing**: those of strangers, and those whose blocks are
all ineffective. -/
theorem response_unchanged_iff {m : Nat} {cfg : FetchConfig} {peer : PeerId}
    {data : List BlockData} (hwf : d.WellFormed) (hassigned : d.sched.Assigned m)
    (hagree : d.CompletionAgrees) :
    (∃ d', d.step cfg (.response peer data) = .ok d' ∧ d'.sched = d.sched) ↔
      ∀ st, d.sched.peerStates.lookup peer = some st → ∀ bd ∈ data, d.Ineffective st bd := by
  have hknown : ∀ {st}, d.sched.peerStates.lookup peer = some st → peer ∈ d.download.receivers := by
    intro st hst
    rw [hwf.sameKeys, Scheduler.advertised_of_lookup hst]
    rfl
  constructor
  · rintro ⟨d', hstep, hsched⟩ st hst bd hbd
    have hcover := (step_ok_iff hwf cfg _).mp ⟨d', hstep⟩ (hknown hst) bd hbd
    rcases step_cases hstep with ⟨_, hno, -, -⟩ | ⟨_, _, download, accepted, heq, hrec, rfl⟩
    · exact absurd rfl (hno peer data)
    obtain ⟨rfl, rfl⟩ := FetchEvent.response.inj heq
    have hmem := mem_decodeBlockData.mpr hbd
    obtain ⟨hempty, hslot⟩ := updatePeerAfterBlockResponse_eq_self_iff.mp
      (congrArg Scheduler.peerStates hsched) st hst _ hmem
    dsimp only at hempty hslot
    refine ⟨hempty, hslot, fun hlt => ?_⟩
    rw [UInt32.lt_iff_toNat_lt] at hlt
    refine ⟨_, List.getElem?_eq_getElem (hcover hlt), fun hdigest => ?_⟩
    obtain ⟨r, hr⟩ := Table.mem_iff_exists_lookup.mp (hknown hst)
    have hfit := hwf.slotsFit peer r hr
    obtain ⟨slot, hget⟩ : ∃ slot, r.blocks[bd.index.toNat]? = some slot :=
      ⟨_, List.getElem?_eq_getElem (by rw [hfit]; exact hlt)⟩
    cases slot with
    | some b => exact (hagree _).mpr ⟨peer, b, r, hr, hget⟩
    | none =>
        -- the empty block is accepted, so it is complete afterwards, hence before
        have hacc : bd.index ∈ accepted := by
          refine (ActiveDownload.mem_accepted_iff hrec bd.index).mpr
            ⟨r, bd.data, hr, hmem, ?_, ?_, hget⟩
          · rw [hfit, UInt32.ofNat_toNat]
            exact UInt32.lt_iff_toNat_lt.mpr hlt
          · rw [hempty, hdigest, List.getElem?_eq_getElem (hcover hlt)]
        have hdone : (d.sched.afterResponse peer (decodeBlockData data) accepted).blockStates[
            bd.index.toNat]? = some .complete := complete_afterResponse_iff.mpr
          (Or.inr ⟨⟨bd.index, hacc, rfl⟩, lt_length_of_accepted hwf hrec ⟨_, hacc, rfl⟩⟩)
        rw [congrArg Scheduler.blockStates hsched] at hdone
        exact hdone
  · intro hall
    obtain ⟨d', hstep⟩ := (step_ok_iff hwf cfg (.response peer data)).mpr (by
      intro hmem bd hbd hlt
      rw [hwf.sameKeys, Scheduler.isSome_advertised] at hmem
      obtain ⟨st, hst⟩ := hmem
      obtain ⟨h, hh, -⟩ := (hall st hst bd hbd).2.2 (UInt32.lt_iff_toNat_lt.mpr hlt)
      exact (List.getElem?_eq_some_iff.mp hh).1)
    refine ⟨d', hstep, ?_⟩
    rcases step_cases hstep with ⟨_, hno, -, -⟩ | ⟨_, _, download, accepted, heq, hrec, rfl⟩
    · exact absurd rfl (hno peer data)
    obtain ⟨rfl, rfl⟩ := FetchEvent.response.inj heq
    refine Scheduler.ext ?_ (blockStates_afterResponse_eq (fun a ha => ?_) fun b hb t hin => ?_)
    · refine updatePeerAfterBlockResponse_eq_self_iff.mpr fun st hst b hb => ?_
      have hbd := hall st hst ⟨b.1, b.2⟩ (mem_decodeBlockData.mp hb)
      exact ⟨hbd.1, hbd.2.1⟩
    · obtain ⟨r, b, hr, hmem, hacc⟩ := (ActiveDownload.mem_accepted_iff hrec a).mp ha
      have hpeer := (hwf.sameKeys peer).mp (Table.mem_iff_exists_lookup.mpr ⟨r, hr⟩)
      obtain ⟨st, hst⟩ := Scheduler.isSome_advertised.mp hpeer
      obtain ⟨hempty, -, hhash⟩ := hall st hst ⟨a, b⟩ (mem_decodeBlockData.mp hmem)
      have hlt := hacc.1
      rw [hwf.slotsFit peer r hr, UInt32.ofNat_toNat] at hlt
      obtain ⟨h, hh, himp⟩ := hhash hlt
      refine himp ?_
      have hdigest := hacc.2.1.symm.trans hh
      rw [show b = [] from hempty] at hdigest
      exact Option.some.inj hdigest
    · -- a block in flight to the sender is one the sender owes
      have hslot := hassigned.slot _ peer t hin
      rw [UInt32.ofNat_toNat, Scheduler.mem_slots] at hslot
      obtain ⟨st, hst, howed⟩ := hslot
      exact (hall st hst ⟨b.1, b.2⟩ (mem_decodeBlockData.mp hb)).2.1 howed

end BlockDownload

/-! ### Foreign responses in the system -/

namespace System

variable [Sha256] {cfg : RelayConfig} {s : System} {events : List SystemEvent}

/-- Connection `c` is downloading the NAR `narHash` and is about to receive blocks that
`peer` sent for another NAR. -/
def ForeignBlocks (s : System) (c : Nat) (queue : List Published) (narHash : Digest)
    (d : BlockDownload) (peer : PeerId) (data : List BlockData) : Prop :=
  ∃ nar indices, nar ≠ narHash.toList ∧ s.conns c =
    ⟨⟨.blockResponse peer (.blocks data), some (.getBlocks nar indices)⟩ :: queue,
      .download narHash d⟩

/-- **When concurrent downloads mix.** In every reachable state, blocks that a peer sent
for another NAR leave the scheduler of the download that receives them unchanged if
and only if the peer is not one of the download's, or every block is empty, is not
owed by the peer, and is neither beyond the hash list nor a missing empty block. -/
theorem foreign_blocks_unchanged_iff (hrun : Machine.run (step cfg) init events = .ok s)
    {c : Nat} {queue : List Published} {narHash : Digest} {d : BlockDownload} {peer : PeerId}
    {data : List BlockData} (hforeign : s.ForeignBlocks c queue narHash d peer data) :
    (∃ s' d', step cfg s (.conn c .recv) = .ok s' ∧
        s'.conns c = ⟨queue, .download narHash d'⟩ ∧ d'.sched = d.sched) ↔
      ∀ st, d.sched.peerStates.lookup peer = some st → ∀ bd ∈ data, d.Ineffective st bd := by
  obtain ⟨nar, indices, -, hconn⟩ := hforeign
  obtain ⟨narSize, first, rest, s₀, fetchEvents, hstart, hfetch⟩ :=
    run_fetches hrun c narHash d (by rw [hconn])
  have hstarted := BlockDownload.started_of_sameMaps hstart
  obtain ⟨hwf, hassigned⟩ := BlockDownload.run_assigned hstarted hfetch
  obtain ⟨-, hagree⟩ := BlockDownload.run_completionAgrees hstarted hfetch
  rw [← @BlockDownload.response_unchanged_iff _ d _ cfg.fetch peer data hwf hassigned hagree]
  simp only [step, Connection.step, Connection.recv, hconn]
  cases hstep : d.step cfg.fetch (.response peer data) with
  | error p => simp
  | ok d' =>
      constructor
      · intro h
        obtain ⟨s', d'', hs', hc, hsched⟩ := h
        obtain rfl := Except.ok.inj hs'
        simp only [Function.update_self, Connection.mk.injEq, Phase.download.injEq, true_and] at hc
        exact ⟨d', rfl, hc ▸ hsched⟩
      · intro h
        obtain ⟨d'', hd'', hsched⟩ := h
        obtain rfl := Except.ok.inj hd''
        exact ⟨_, d', rfl, by simp, hsched⟩

end System

/-! ### A mix-up -/

namespace System

/-- What a provider of a one-block NAR replies. -/
def oneBlockReply (nar : Bytes) : BlockResponse :=
  .handshakeReply [0] 1 4 [(sampleSha256.digest nar).toList]

/-- The download of a one-block NAR from one peer. -/
def oneBlockDownload (peer : PeerId) (nar : Bytes) : BlockDownload :=
  let hs : PeerHandshake := ⟨peer, [0], [sampleSha256.digest nar], 1⟩
  BlockDownload.start (Hex.encode (sampleSha256.digest nar).toList) 4
    (downloadBlockInfo 4 4 BlockInfo.four_pos hs) [hs]

/-- Connection `c` finds a NAR at a peer and sets up its download. -/
def openDownload (c : Nat) (peer : PeerId) (nar : Bytes) : List SystemEvent :=
  [.conn c .subscribe, .conn c (.beginHandshake (sampleSha256.digest nar) [peer] 8 0),
    .answer 0 (oneBlockReply nar), .conn c .recv, .conn c .endHandshake,
    .conn c (.beginDownload 4 (oneBlockDownload peer nar))]

/-- Connection 0 downloads `abcd` from `peer` and connection 1 downloads `efgh` from
`peerA`; the request for `abcd` is answered. -/
def twoDownloads (peer : PeerId) : List SystemEvent :=
  openDownload 0 peer sampleNar ++ openDownload 1 peerA sampleTail ++
    [.conn 0 (.dispatch 0), .conn 1 (.dispatch 0), .answer 0 (.blocks [⟨0, sampleNar⟩])]

/-- If both downloads use `peerA`, then on receiving the block of `abcd` the download of
`efgh` takes its own block 0 back, frees the slot and credits the bytes. -/
theorem blocks_mix :
    ∃ s s' d d', Machine.run (@step sampleSha256 sampleConfig) init (twoDownloads peerA) = .ok s ∧
      s.ForeignBlocks 1 [] (sampleSha256.digest sampleTail) d peerA [⟨0, sampleNar⟩] ∧
      @step sampleSha256 sampleConfig s (.conn 1 .recv) = .ok s' ∧
      s'.conns 1 = ⟨[], .download (sampleSha256.digest sampleTail) d'⟩ ∧
      d.sched.blockStates = [.inFlight peerA 0] ∧ d'.sched.blockStates = [.pending] ∧
      d.sched.peerStates.lookup peerA = some ⟨{0}, {0}, 0, 0⟩ ∧
      d'.sched.peerStates.lookup peerA = some ⟨{0}, ∅, 0, 4⟩ := by
  refine ⟨_, _, _, _, rfl, ⟨_, _, ?_, rfl⟩, rfl, rfl, rfl, rfl, rfl, rfl⟩
  decide

/-- If they use different peers, the block of `abcd` does not concern the download of
`efgh`. -/
theorem foreign_blocks_unchanged_iff_sample :
    ∃ s d, Machine.run (@step sampleSha256 sampleConfig) init (twoDownloads peerB) = .ok s ∧
      s.ForeignBlocks 1 [] (sampleSha256.digest sampleTail) d peerB [⟨0, sampleNar⟩] ∧
      ∃ s' d', @step sampleSha256 sampleConfig s (.conn 1 .recv) = .ok s' ∧
        s'.conns 1 = ⟨[], .download (sampleSha256.digest sampleTail) d'⟩ ∧ d'.sched = d.sched := by
  refine ⟨_, _, rfl, ⟨_, _, ?_, rfl⟩, ?_⟩
  · decide
  · refine (@foreign_blocks_unchanged_iff sampleSha256 sampleConfig _ (twoDownloads peerB) rfl 1 []
      (sampleSha256.digest sampleTail) _ peerB [⟨0, sampleNar⟩] ⟨_, _, ?_, rfl⟩).mpr ?_
    · decide
    · intro st hst
      cases hst

end System

end GuixP2p
