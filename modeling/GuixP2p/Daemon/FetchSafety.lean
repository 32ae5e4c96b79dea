import GuixP2p.Daemon.FetchInvariants

/-!
# GuixP2p.Daemon.FetchSafety

What a block download guarantees over every run, from any set-up and against any
peers:

* `assignment_safe` — who is asked for what: a block in flight is at a handshaked
  peer that advertised it, within the limit per peer, and a complete block is never
  touched again;
* `completion_agrees` — the loop's exit test and the assembled data are about the
  same blocks;
* `slotsOwed_iff_noLateCompletion` — a peer's slots are exactly the blocks it still
  owes *as long as no late answer completes a block that has been handed to
  somebody else*; such an answer leaks the other peer's slot;
* `neverPanics_iff` — remote data can crash the download exactly when
  the first peer's hash list is shorter than the block count.
-/

namespace GuixP2p

open GuixP2p.Lib

/-! ### A small set-up for concrete runs -/

/-- The reply of a peer that has the one block of `sampleNar`. -/
def sampleHandshake (peer : PeerId) : PeerHandshake :=
  ⟨peer, [0], [sampleSha256.digest sampleNar], 1⟩

/-- A download of `sampleNar` from two peers. -/
def sampleDownload : BlockDownload :=
  BlockDownload.start (Hex.encode (sampleSha256.digest sampleNar).toList) 4
    (downloadBlockInfo 4 4 BlockInfo.four_pos (sampleHandshake peerA))
    [sampleHandshake peerA, sampleHandshake peerB]

/-- Runs of that download with one slot per peer and a timeout of 30 s. -/
def sampleRun (events : List FetchEvent) : Except Panic BlockDownload :=
  Machine.run (@BlockDownload.step sampleSha256 ⟨1, 30⟩) sampleDownload events

namespace BlockDownload

section

variable [Sha256] {narHashHex : Text} {narSize : UInt64} {blockInfo : BlockInfo}
  {handshakes : List PeerHandshake} {cfg : FetchConfig} {s₀ s : BlockDownload}
  {events : List FetchEvent}

/-! ### Assignment safety -/

/-- **Assignment safety.** In every state a run reaches: a block in flight to `p` was
advertised by `p`'s handshake, is available at `p` and uses one of its slots; the
slots of a peer are available blocks, no more than the limit; and from then on a
complete block stays complete and is in no request. -/
theorem assignment_safe
    (hstart : (start narHashHex narSize blockInfo handshakes).SameMaps s₀)
    (hrun : Machine.run (step cfg) s₀ events = .ok s) :
    (∀ i p t, s.sched.blockStates[i]? = some (.inFlight p t) →
      ∃ hs ∈ handshakes, hs.peer = p ∧ UInt32.ofNat i ∈ hs.blocksAvailable ∧
        ∃ st, s.sched.peerStates.lookup p = some st ∧
          UInt32.ofNat i ∈ st.available ∧ UInt32.ofNat i ∈ st.inFlight) ∧
    (∀ p st, s.sched.peerStates.lookup p = some st →
      st.inFlight ⊆ st.available ∧ st.inFlight.card ≤ max cfg.maxInFlightBlocksPerPeer 1) ∧
    (∀ i, s.sched.blockStates[i]? = some .complete →
      ∀ later s', Machine.run (step cfg) s later = .ok s' →
        s'.sched.blockStates[i]? = some .complete ∧
        ∀ e p l, (requests cfg s' e).lookup p = some l → ∀ k ∈ l, k.toNat ≠ i) := by
  have hstarted := started_of_sameMaps hstart
  obtain ⟨hwf, hassigned⟩ := run_assigned hstarted hrun
  have hpeer : ∀ p st, s.sched.peerStates.lookup p = some st →
      st.inFlight ⊆ st.available ∧ st.inFlight.card ≤ max cfg.maxInFlightBlocksPerPeer 1 := by
    intro p st hst
    have hsub := hassigned.subset p
    have hcard := hassigned.card_le p
    rw [Scheduler.slots_of_lookup hst] at hsub hcard
    rw [Scheduler.advertised_of_lookup hst] at hsub
    exact ⟨hsub, hcard⟩
  refine ⟨fun i p t hi => ?_, hpeer, fun i hi later s' hlater => ?_⟩
  · obtain ⟨st, hst, hslot⟩ := Scheduler.mem_slots.mp (hassigned.slot i p t hi)
    have havail := (hpeer p st hst).1 hslot
    have hframe := (run_frame hrun).advertised p
    rw [Scheduler.advertised_of_lookup hst] at hframe
    obtain ⟨st₀, hst₀, heq⟩ := Option.map_eq_some_iff.mp hframe.symm
    obtain ⟨hs, hmem, hpeer, rfl⟩ := hstarted.peers_initial p st₀ hst₀
    rw [← heq] at havail
    refine ⟨hs, hmem, hpeer, ?_, st, hst, heq ▸ havail, hslot⟩
    simp only [initialPeerState, List.mem_toFinset, List.mem_filter] at havail
    exact havail.1
  · have hdone := run_complete hlater hi
    refine ⟨hdone, fun e p l hl k hk hki => ?_⟩
    have hwf' := Machine.run_invariant (step_wellFormed cfg) hwf hlater
    cases e with
    | dispatch now =>
        have hpending := dispatchBlockRequests_pending hwf'.length_le hl hk
        rw [hki, hdone] at hpending
        cases hpending
    | response peer data => simp [requests] at hl
    | expire now => simp [requests] at hl
    | requestFailed peer => simp [requests] at hl

omit [Sha256] in
/-- A dispatched block is in flight to a peer that advertised it. -/
theorem assignment_safe_sample :
    ∃ s, sampleRun [.dispatch 0] = .ok s ∧
      ∃ hs ∈ [sampleHandshake peerA, sampleHandshake peerB],
        hs.peer = peerB ∧ UInt32.ofNat 0 ∈ hs.blocksAvailable := by
  refine ⟨_, rfl, ?_⟩
  obtain ⟨hs, hmem, hpeer, hadv, -⟩ :=
    (@assignment_safe sampleSha256 _ _ _ _ ⟨1, 30⟩ _ _ [.dispatch 0]
      (SameMaps.refl sampleDownload) rfl).1 0 peerB 0 (by decide)
  exact ⟨hs, hmem, hpeer, hadv⟩

/-! ### Completion -/

/-- **The two records of completion agree.** With a hash for every block no run
panics, and in every state it reaches a block is complete for the scheduler exactly
when some peer's copy is held; so `is_complete` holds exactly when every block is
complete, and neither is ever lost. -/
theorem completion_agrees
    (hstart : (start narHashHex narSize blockInfo handshakes).SameMaps s₀)
    (hhashes : blockInfo.blockCount.toNat ≤ blockInfo.blockHashes.length) :
    ∃ s, Machine.run (step cfg) s₀ events = .ok s ∧
      (∀ i, s.sched.blockStates[i]? = some .complete ↔ s.download.Holds i) ∧
      (s.download.isComplete = .ok true ↔ ∀ st ∈ s.sched.blockStates, st = .complete) ∧
      ∀ later s', Machine.run (step cfg) s later = .ok s' →
        (∀ i : Nat, s.sched.blockStates[i]? = some .complete →
          s'.sched.blockStates[i]? = some .complete) ∧
        (s.download.isComplete = .ok true → s'.download.isComplete = .ok true) := by
  have hstarted := started_of_sameMaps hstart
  obtain ⟨s, hrun⟩ := run_ok_of_hashes hstarted hhashes cfg events
  obtain ⟨hwf, hagree⟩ := run_completionAgrees hstarted hrun
  have hexit := isComplete_iff_forall_complete hwf hagree
  refine ⟨s, hrun, hagree, hexit, fun later s' hlater => ?_⟩
  have hrun' : Machine.run (step cfg) s₀ (events ++ later) = .ok s' := by
    rw [Machine.run_append hrun, hlater]
  obtain ⟨hwf', hagree'⟩ := run_completionAgrees hstarted hrun'
  refine ⟨fun i hi => run_complete hlater hi, fun hdone => ?_⟩
  rw [isComplete_iff_forall_complete hwf' hagree']
  intro st hst
  obtain ⟨i, hlt, hi⟩ := List.mem_iff_getElem.mp hst
  have hlt' : i < s.sched.blockStates.length := by
    rw [hwf.length_eq, ← (run_frame hlater).blockInfo, ← hwf'.length_eq]
    exact hlt
  have hwas : s.sched.blockStates[i]? = some .complete := by
    rw [List.getElem?_eq_getElem hlt', hexit.mp hdone _ (List.getElem_mem hlt')]
  have hnow := run_complete hlater hwas
  rw [List.getElem?_eq_getElem hlt, hi] at hnow
  exact Option.some.inj hnow

omit [Sha256] in
/-- After the block arrived, the download is complete for both. -/
theorem completion_agrees_sample :
    ∃ s, sampleRun
        [.dispatch 0, .response peerB [⟨0, sampleNar⟩]] = .ok s ∧
      s.download.isComplete = .ok true ∧ s.download.Holds 0 := by
  obtain ⟨s, hrun, hagree, hexit, -⟩ := @completion_agrees sampleSha256 _ _ _ _ ⟨1, 30⟩ _
    [.dispatch 0, .response peerB [⟨0, sampleNar⟩]] (SameMaps.refl sampleDownload) (by decide)
  have hdone : s.sched.blockStates = [.complete] := by
    obtain rfl := Except.ok.inj hrun
    decide
  refine ⟨s, hrun, hexit.mpr ?_, (hagree 0).mp ?_⟩
  · rw [hdone]
    decide
  · rw [hdone]
    rfl

/-! ### Leaked slots -/

/-- **When a slot leaks.** Along a run, every slot in use is a block its peer still
owes, and the `in_flight == 0` test sees exactly the blocks in flight, if and only if
no response of the run completes a block that is in flight to somebody else. -/
theorem slotsOwed_iff_noLateCompletion
    (hstart : (start narHashHex narSize blockInfo handshakes).SameMaps s₀)
    (hrun : Machine.run (step cfg) s₀ events = .ok s) :
    (∀ es u, es <+: events → Machine.run (step cfg) s₀ es = .ok u →
        (∀ p st, u.sched.peerStates.lookup p = some st → ∀ k ∈ st.inFlight,
          ∃ t, u.sched.blockStates[k.toNat]? = some (.inFlight p t)) ∧
        (u.sched.inFlightTotal = 0 ↔
          ∀ (i : Nat) p t, u.sched.blockStates[i]? ≠ some (.inFlight p t))) ↔
      Machine.Meets (step cfg) NoLateCompletion s₀ events := by
  have hstarted := started_of_sameMaps hstart
  rw [← Machine.forall_states_iff_meets
    (J := fun s => s.WellFormed ∧ s.sched.Assigned cfg.maxInFlight)
    (P := fun s => s.sched.SlotsOwed)
    (fun a e b ha hab => step_assigned ha hab)
    (fun a e b ha hb hab => step_slotsOwed_iff ha.1 ha.2 hb hab)
    ⟨hstarted.wellFormed, hstarted.assigned _⟩ hstarted.slotsOwed hrun]
  refine forall_congr' fun es => forall_congr' fun u => forall₂_congr fun _ hu => ?_
  have hassigned := (run_assigned hstarted hu).2
  constructor
  · intro h p k hk
    obtain ⟨st, hst, hin⟩ := Scheduler.mem_slots.mp hk
    exact h.1 p st hst k hin
  · intro howed
    refine ⟨fun p st hst k hk => howed p k ?_, ?_⟩
    · exact Scheduler.mem_slots.mpr ⟨st, hst, hk⟩
    · exact Scheduler.inFlightTotal_eq_zero_iff_of_owed hassigned howed

/-- The block is asked from `peerB`, expires, is asked from `peerA`, and then arrives
from `peerB`. -/
def lateCompletion : List FetchEvent :=
  [.dispatch 0, .expire 30000, .dispatch 30000, .response peerB [⟨0, sampleNar⟩]]

omit [Sha256] in
/-- The late answer completes the block and leaves `peerA` with a slot for it: no block
is in flight, yet a slot is in use. -/
theorem slot_leaks :
    ∃ s, sampleRun lateCompletion = .ok s ∧
      (∃ st, s.sched.peerStates.lookup peerA = some st ∧ (0 : UInt32) ∈ st.inFlight) ∧
      s.sched.blockStates = [.complete] ∧ s.sched.inFlightTotal = 1 := by
  refine ⟨_, rfl, ⟨_, rfl, ?_⟩, ?_, ?_⟩ <;> decide

omit [Sha256] in
/-- In a run without late answer the slots are owed. -/
theorem slotsOwed_iff_noLateCompletion_sample :
    ∃ u, sampleRun [.dispatch 0] = .ok u ∧
      ∀ p st, u.sched.peerStates.lookup p = some st → ∀ k ∈ st.inFlight,
        ∃ t, u.sched.blockStates[k.toNat]? = some (.inFlight p t) := by
  refine ⟨_, rfl, ?_⟩
  exact ((@slotsOwed_iff_noLateCompletion sampleSha256 _ _ _ _ ⟨1, 30⟩ _ _ [.dispatch 0]
    (SameMaps.refl sampleDownload) rfl).mpr ⟨trivial, fun _ _ => trivial⟩ _ _ (List.prefix_refl _)
    rfl).1

/-! ### Indexing -/

/-- How many hashes the first peer has to send for its list to cover every block. -/
def requiredHashes (narSize blockSize : UInt64) (first : PeerHandshake) : Nat :=
  if narSize = 0 then first.blockCount.toNat
  else chunkCount narSize.toNat blockSize.toNat % 2 ^ 32

omit [Sha256] in
theorem blockCount_downloadBlockInfo {blockSize : UInt64} (hb : 0 < blockSize)
    (first : PeerHandshake) :
    (downloadBlockInfo narSize blockSize hb first).blockCount.toNat =
      requiredHashes narSize blockSize first := by
  unfold downloadBlockInfo requiredHashes
  by_cases hsize : narSize = 0
  · rw [if_pos hsize, if_pos hsize]
  · rw [if_neg hsize, if_neg hsize]
    have hpos : 0 < narSize := UInt64.pos_iff_ne_zero.mpr hsize
    show (BlockInfo.fromFileSize narSize blockSize hb).blockCount.toNat = _
    rw [BlockInfo.blockCount_fromFileSize hb hpos, UInt32.toNat_ofNat']

omit [Sha256] in
theorem blockHashes_downloadBlockInfo {blockSize : UInt64} (hb : 0 < blockSize)
    (first : PeerHandshake) :
    (downloadBlockInfo narSize blockSize hb first).blockHashes = first.blockHashes := by
  unfold downloadBlockInfo
  split <;> rfl

/-- Neither the run nor the completion test nor the assembly indexes out of bounds. -/
def NeverPanics (cfg : FetchConfig) (s₀ : BlockDownload) (events : List FetchEvent) : Prop :=
  ∃ s, Machine.run (step cfg) s₀ events = .ok s ∧
    (∃ b, s.download.isComplete = .ok b) ∧ ∃ r, s.download.assemble = .ok r

/-- **When remote data crashes a download.** The download goes through exactly when no
response of one of its peers names a block the first peer sent no hash for; so it
goes through for every sequence of responses exactly when the first peer's hash list
covers every block. -/
theorem neverPanics_iff {blockSize : UInt64} (hb : 0 < blockSize) {first : PeerHandshake}
    {rest : List PeerHandshake}
    (hstart : (start narHashHex narSize (downloadBlockInfo narSize blockSize hb first)
      (first :: rest)).SameMaps s₀) :
    (∀ cfg events, NeverPanics cfg s₀ events ↔
      ∀ peer data, FetchEvent.response peer data ∈ events →
        (∃ hs ∈ first :: rest, hs.peer = peer) → ∀ bd ∈ data,
          bd.index.toNat < requiredHashes narSize blockSize first →
            bd.index.toNat < first.blockHashes.length) ∧
    ((∀ cfg events, NeverPanics cfg s₀ events) ↔
      requiredHashes narSize blockSize first ≤ first.blockHashes.length) := by
  have hstarted := started_of_sameMaps hstart
  have hcount := @blockCount_downloadBlockInfo narSize blockSize hb first
  have hhashes := @blockHashes_downloadBlockInfo narSize blockSize hb first
  have hrun : ∀ cfg events, NeverPanics cfg s₀ events ↔
      ∃ s, Machine.run (step cfg) s₀ events = .ok s := by
    intro cfg events
    constructor
    · intro h
      obtain ⟨s, hs, -⟩ := h
      exact ⟨s, hs⟩
    · intro h
      obtain ⟨s, hs⟩ := h
      have hwf := Machine.run_invariant (step_wellFormed cfg) hstarted.wellFormed hs
      obtain ⟨b, hb, -⟩ := ActiveDownload.isComplete_spec hwf.slotsFit
      exact ⟨s, hs, ⟨b, hb⟩, ActiveDownload.assemble_ok hwf.slotsFit⟩
  have hexact : ∀ cfg events, NeverPanics cfg s₀ events ↔
      ∀ peer data, FetchEvent.response peer data ∈ events →
        (∃ hs ∈ first :: rest, hs.peer = peer) → ∀ bd ∈ data,
          bd.index.toNat < requiredHashes narSize blockSize first →
            bd.index.toNat < first.blockHashes.length := by
    intro cfg events
    rw [hrun, run_ok_iff_hashesCover hstarted]
    constructor
    · intro hall peer data hmem hknown bd hbd hlt
      have hcover := hall _ hmem hknown bd hbd
      rw [hcount, hhashes] at hcover
      exact hcover hlt
    · intro hall e he
      cases e with
      | response peer data =>
          intro hknown bd hbd hlt
          rw [hcount] at hlt
          rw [hhashes]
          exact hall peer data he hknown bd hbd hlt
      | dispatch now => trivial
      | expire now => trivial
      | requestFailed peer => trivial
  refine ⟨hexact, fun hall => ?_, fun hle cfg events => ?_⟩
  · -- the first peer itself can name the first block without a hash
    by_contra hlt
    rw [Nat.not_le] at hlt
    have hsmall : first.blockHashes.length < 2 ^ 32 := by
      rw [← hcount] at hlt
      exact hlt.trans (UInt32.toNat_lt _)
    have hbad := (hexact ⟨1, 1⟩ [.response first.peer
      [⟨UInt32.ofNat first.blockHashes.length, []⟩]]).mp (hall _ _) first.peer _
      List.mem_cons_self ⟨first, List.mem_cons_self, rfl⟩ _ List.mem_cons_self
    rw [UInt32.toNat_ofNat_of_lt' hsmall] at hbad
    exact absurd (hbad hlt) (Nat.lt_irrefl _)
  · exact (hexact cfg events).mpr fun _ _ _ _ bd _ hlt => hlt.trans_le hle

/-- The reply a provider sends when it has the NAR indexed and cannot read its file. -/
def emptyHandshake (peer : PeerId) : PeerHandshake := ⟨peer, [], [], 0⟩

omit [Sha256] in
/-- If the first of two providers cannot read its file, the block that the second
one is asked for and sends crashes the download. -/
theorem panics_on_empty_handshake :
    Machine.run (@step sampleSha256 ⟨1, 30⟩)
      (start (Hex.encode (sampleSha256.digest sampleNar).toList) 4
        (downloadBlockInfo 4 4 (by decide) (emptyHandshake peerA))
        [emptyHandshake peerA, sampleHandshake peerB])
      [.dispatch 0, .response peerB [⟨0, sampleNar⟩]] = .error .indexOutOfBounds := by
  rfl

omit [Sha256] in
theorem neverPanics_iff_sample :
    @NeverPanics sampleSha256 ⟨1, 30⟩ sampleDownload lateCompletion :=
  (@neverPanics_iff sampleSha256 _ 4 _ 4 (by decide) (sampleHandshake peerA)
    [sampleHandshake peerB] (SameMaps.refl _)).2.mpr (by decide) _ _

end

end BlockDownload

end GuixP2p
