import Mathlib.Algebra.Order.BigOperators.Group.List
import GuixP2p.Daemon.HonestSwarm
import GuixP2p.Swarm.HeldBytes

/-!
# GuixP2p.Daemon.Progress

**Progress is counted once, unless a block comes twice.** A response counts as progress by what it
brought for its sender, while a block is complete for the whole download: a copy from a second peer
counts again. And the event that reports the accepted blocks sums up all that the response has under
their indices, so that a repeated index counts again too. `CountsOnce` excludes the two, and it is
exactly what a completed download needs for its events to be disjoint, to cover all blocks and to
add up to the NAR.
-/

namespace GuixP2p

open GuixP2p.Lib

namespace BlockDownload

variable [Sha256]

/-- The events that a step of the download sends to the dashboard. -/
def received (s : BlockDownload) : FetchEvent → List BlockReceived
  | .response peer data =>
    match recordBlockResponse s peer data with
    | .error _ => []
    | .ok (_, outcome) => outcome.event.toList
  | _ => []

/-- The blocks that a step completes. -/
def completedNow (s s' : BlockDownload) : Nat :=
  (List.range s.sched.blockStates.length).countP fun i =>
    decide (s'.sched.blockStates[i]? = some .complete) && decide (s.sched.blockStates[i]? ≠ some .complete)

/-- The block matches its hash and has not come from this peer yet. -/
def Fresh (s : BlockDownload) (peer : PeerId) (idx : UInt32) (data : Bytes) : Prop :=
  ∃ r, s.download.receivers.lookup peer = some r ∧
    ActiveDownload.Acceptable s.download.blockInfo.blockHashes r.blocks idx data

/-- No fresh block of a response is complete already. -/
def NoSecondCopy (s : BlockDownload) : FetchEvent → Prop
  | .response peer data => ∀ b ∈ decodeBlockData data, s.Fresh peer b.1 b.2 →
      s.sched.blockStates[b.1.toNat]? ≠ some .complete
  | _ => True

/-- What a response has under the index of a fresh block, besides the first match, is empty. -/
def NoRepeatedIndex (s : BlockDownload) : FetchEvent → Prop
  | .response peer data => ∀ b ∈ decodeBlockData data, s.Fresh peer b.1 b.2 →
      namedBytes (decodeBlockData data) b.1 =
        matchBytes s.download.blockInfo.blockHashes (decodeBlockData data) b.1
  | _ => True

/-- An event in which every block counts once. -/
def CountsOnce (s : BlockDownload) (e : FetchEvent) : Prop := s.NoSecondCopy e ∧ s.NoRepeatedIndex e

/-! ### One step -/

variable {cfg : FetchConfig} {s s' : BlockDownload}

omit [Sha256] in
/-- The bytes of an event, index by index. -/
theorem sum_filter_mem {accepted : List UInt32} (hnodup : accepted.Nodup) (blocks : List (UInt32 × Bytes)) :
    ((blocks.filter fun b => b.1 ∈ accepted).map fun b => b.2.length).sum =
      (accepted.map (namedBytes blocks)).sum := by
  induction accepted with
  | nil => simp
  | cons k accepted ih =>
      rw [List.nodup_cons] at hnodup
      rw [List.map_cons, List.sum_cons, ← ih hnodup.2]
      clear ih
      -- a block has one index: `k`, or one of the others, or none of them
      induction blocks with
      | nil => simp [namedBytes]
      | cons b blocks ihb =>
          obtain ⟨idx, data⟩ := b
          rw [namedBytes_cons]
          by_cases hk : idx = k
          · subst hk
            simp [hnodup.1] at ihb ⊢
            omega
          · by_cases hmem : idx ∈ accepted <;> simp [hk, hmem] at ihb ⊢ <;> omega

/-- What a response that is recorded does, index by index. -/
theorem mem_accepted_iff_fresh {peer : PeerId} {data : List BlockData} {download : ActiveDownload}
    {accepted : List UInt32} (hrec : s.download.recordBlocks peer (decodeBlockData data) = .ok (download, accepted))
    (k : UInt32) : k ∈ accepted ↔ ∃ b, (k, b) ∈ decodeBlockData data ∧ s.Fresh peer k b := by
  rw [ActiveDownload.mem_accepted_iff hrec]
  constructor
  · intro h
    obtain ⟨r, b, hr, hb, hacc⟩ := h
    exact ⟨b, hb, r, hr, hacc⟩
  · intro h
    obtain ⟨b, hb, r, hr, hacc⟩ := h
    exact ⟨r, b, hr, hb, hacc⟩

/-- A condition on the fresh blocks of a response is one on the accepted indices. -/
theorem forall_fresh_iff {peer : PeerId} {data : List BlockData} {download : ActiveDownload}
    {accepted : List UInt32} (hrec : s.download.recordBlocks peer (decodeBlockData data) = .ok (download, accepted))
    (Q : UInt32 → Prop) :
    (∀ b ∈ decodeBlockData data, s.Fresh peer b.1 b.2 → Q b.1) ↔ ∀ k ∈ accepted, Q k := by
  constructor
  · intro h k hk
    obtain ⟨b, hb, hfresh⟩ := (mem_accepted_iff_fresh hrec k).mp hk
    exact h (k, b) hb hfresh
  · intro h b hb hfresh
    exact h b.1 ((mem_accepted_iff_fresh hrec b.1).mpr ⟨b.2, hb, hfresh⟩)

omit [Sha256] in
/-- The sum of a list is that of a pointwise smaller one exactly when no item is larger. -/
theorem sum_map_eq_iff {l : List UInt32} {f g : UInt32 → Nat} (hle : ∀ k ∈ l, f k ≤ g k) :
    (l.map f).sum = (l.map g).sum ↔ ∀ k ∈ l, g k = f k := by
  induction l with
  | nil => simp
  | cons k l ih =>
      rw [List.forall_mem_cons] at hle
      have hsum := List.sum_le_sum hle.2
      rw [List.forall_mem_cons, ← ih hle.2, List.map_cons, List.map_cons, List.sum_cons, List.sum_cons]
      omega

/-- **What a step reports**: the events of a step name the blocks that are complete after it and
were not before, or were already; they carry at least the bytes that the step stores. -/
structure Reports (s : BlockDownload) (e : FetchEvent) (s' : BlockDownload) : Prop where
  apart : (s.received e).Pairwise fun a b => a.indices.Disjoint b.indices
  complete_iff : ∀ i, s'.sched.blockStates[i]? = some .complete ↔
    s.sched.blockStates[i]? = some .complete ∨ ∃ r ∈ s.received e, ∃ k ∈ r.indices, k.toNat = i
  bytes_le : s'.download.heldBytes ≤ s.download.heldBytes + ((s.received e).map (·.bytes)).sum
  noSecondCopy_iff : s.NoSecondCopy e ↔
    ∀ r ∈ s.received e, ∀ k ∈ r.indices, s.sched.blockStates[k.toNat]? ≠ some .complete
  noRepeatedIndex_iff : s.NoRepeatedIndex e ↔
    s'.download.heldBytes = s.download.heldBytes + ((s.received e).map (·.bytes)).sum

/-- A step that is no response reports nothing. -/
theorem reports_of_moves {e : FetchEvent} {sched : Scheduler} (hnot : ∀ peer data, e ≠ .response peer data)
    (hmoves : Scheduler.Moves cfg.maxInFlight s.sched sched) : Reports s e { s with sched } := by
  have hreceived : s.received e = [] := by
    cases e with
    | response peer data => exact absurd rfl (hnot peer data)
    | _ => rfl
  have honce : s.NoSecondCopy e ∧ s.NoRepeatedIndex e := by
    cases e with
    | response peer data => exact absurd rfl (hnot peer data)
    | _ => exact ⟨trivial, trivial⟩
  refine ⟨by simp [hreceived], fun i => ?_, by simp [hreceived], by simp [hreceived, honce.1],
    by simp [hreceived, honce.2]⟩
  simp only [hreceived, List.not_mem_nil, false_and, exists_false, or_false]
  exact Scheduler.Moves.invariant
    (P := fun t => t.blockStates[i]? = some .complete ↔ s.sched.blockStates[i]? = some .complete)
    (fun t u hmove ht => (hmove.complete_iff i).trans ht) hmoves Iff.rfl

omit [Sha256] in
/-- The one event of a response, if there is one. -/
theorem emitBlocksReceived_toList (peer : PeerId) (blocks : List (UInt32 × Bytes)) {accepted : List UInt32}
    (hnodup : accepted.Nodup) :
    (∀ k, (∃ r ∈ (emitBlocksReceived peer blocks accepted).toList, k ∈ r.indices) ↔ k ∈ accepted) ∧
      (((emitBlocksReceived peer blocks accepted).toList).map (·.bytes)).sum =
        (accepted.map (namedBytes blocks)).sum := by
  unfold emitBlocksReceived
  by_cases hnil : accepted = []
  · simp [hnil]
  · rw [if_neg hnil, ← sum_filter_mem hnodup]
    simp

theorem nodup_accepted {peer : PeerId} {data : List BlockData} {download : ActiveDownload} {accepted : List UInt32}
    (hrec : s.download.recordBlocks peer (decodeBlockData data) = .ok (download, accepted)) : accepted.Nodup := by
  rcases ActiveDownload.recordBlocks_inv hrec with ⟨-, -, rfl⟩ | ⟨r, slots, -, -, hrecd⟩
  · exact List.nodup_nil
  · exact hrecd.nodup

/-- **Step lemma.** -/
theorem step_reports (hwf : s.WellFormed) {e : FetchEvent} (h : step cfg s e = .ok s') : Reports s e s' := by
  rcases step_cases h with ⟨sched, hnot, hmoves, rfl⟩ | ⟨peer, data, download, accepted, rfl, hrec, rfl⟩
  · exact reports_of_moves hnot hmoves
  · have hreceived : s.received (.response peer data) =
        (emitBlocksReceived peer (decodeBlockData data) accepted).toList := by
      simp only [received, recordBlockResponse, hrec]
    obtain ⟨hindices, hbytes⟩ := emitBlocksReceived_toList peer (decodeBlockData data) (nodup_accepted hrec)
    have hheld := ActiveDownload.heldBytes_recordBlocks hrec
    have hle : ∀ k ∈ accepted, matchBytes s.download.blockInfo.blockHashes (decodeBlockData data) k ≤
        namedBytes (decodeBlockData data) k := fun k _ => matchBytes_le_namedBytes _ k
    have hindexed : ∀ Q : UInt32 → Prop, (∀ r ∈ s.received (.response peer data), ∀ k ∈ r.indices, Q k) ↔
        ∀ k ∈ accepted, Q k := by
      intro Q
      rw [hreceived]
      constructor
      · intro hall k hk
        obtain ⟨r, hr, hkr⟩ := (hindices k).mpr hk
        exact hall r hr k hkr
      · intro hall r hr k hk
        exact hall k ((hindices k).mp ⟨r, hr, hk⟩)
    refine ⟨?_, fun i => ?_, ?_, ?_, ?_⟩
    · rw [hreceived]
      cases emitBlocksReceived peer (decodeBlockData data) accepted <;> simp
    · rw [complete_afterResponse_iff, hreceived]
      refine or_congr_right ⟨?_, ?_⟩
      · intro h'
        obtain ⟨⟨k, hk, rfl⟩, -⟩ := h'
        obtain ⟨r, hr, hkr⟩ := (hindices k).mpr hk
        exact ⟨r, hr, k, hkr, rfl⟩
      · intro h'
        obtain ⟨r, hr, k, hkr, rfl⟩ := h'
        have hk : AcceptedAt accepted k.toNat := ⟨k, (hindices k).mp ⟨r, hr, hkr⟩, rfl⟩
        exact ⟨hk, lt_length_of_accepted hwf hrec hk⟩
    · rw [hheld, hreceived, hbytes]
      exact Nat.add_le_add_left (List.sum_le_sum hle) _
    · rw [hindexed]
      exact forall_fresh_iff hrec fun k => s.sched.blockStates[k.toNat]? ≠ some .complete
    · rw [hheld, hreceived, hbytes, Nat.add_left_cancel_iff, sum_map_eq_iff hle]
      exact forall_fresh_iff hrec fun k => namedBytes (decodeBlockData data) k =
        matchBytes s.download.blockInfo.blockHashes (decodeBlockData data) k

/-- **The count of a response** is the number of blocks it completes exactly when it brings no second
copy. -/
theorem newlyAccepted_eq_iff (hwf : s.WellFormed) {peer : PeerId} {data : List BlockData}
    {outcome : ResponseOutcome} (h : recordBlockResponse s peer data = .ok (s', outcome)) :
    outcome.newlyAccepted = completedNow s s' ↔ s.NoSecondCopy (.response peer data) := by
  unfold recordBlockResponse at h
  dsimp only at h
  cases hrec : s.download.recordBlocks peer (decodeBlockData data) with
  | error p => rw [hrec] at h; cases h
  | ok result =>
      obtain ⟨download, accepted⟩ := result
      rw [hrec] at h
      obtain ⟨rfl, rfl⟩ := Prod.mk.inj (Except.ok.inj h)
      -- the blocks that become complete are the accepted ones that were not
      have hperm : ((List.range s.sched.blockStates.length).filter fun i =>
          decide ((s.sched.afterResponse peer (decodeBlockData data) accepted).blockStates[i]? = some .complete) &&
            decide (s.sched.blockStates[i]? ≠ some .complete)).Perm
          ((accepted.filter fun k => decide (s.sched.blockStates[k.toNat]? ≠ some .complete)).map UInt32.toNat) := by
        refine (List.perm_ext_iff_of_nodup (List.nodup_range.filter _) ?_).mpr fun i => ?_
        · exact ((nodup_accepted hrec).filter _).map fun a b hab => UInt32.toNat_inj.mp hab
        · simp only [List.mem_filter, List.mem_range, Bool.and_eq_true, decide_eq_true_eq, List.mem_map,
            complete_afterResponse_iff]
          constructor
          · intro h'
            obtain ⟨-, hold | ⟨⟨k, hk, rfl⟩, -⟩, hnot⟩ := h'
            · exact absurd hold hnot
            · exact ⟨k, ⟨hk, hnot⟩, rfl⟩
          · intro h'
            obtain ⟨k, ⟨hk, hnot⟩, rfl⟩ := h'
            have hacc : AcceptedAt accepted k.toNat := ⟨k, hk, rfl⟩
            have hlt := lt_length_of_accepted hwf hrec hacc
            exact ⟨hlt, Or.inr ⟨hacc, hlt⟩, hnot⟩
      have hcount := hperm.length_eq
      rw [List.length_map] at hcount
      rw [completedNow, List.countP_eq_length_filter, hcount, eq_comm, List.length_filter_eq_length_iff, NoSecondCopy,
        forall_fresh_iff hrec fun k => s.sched.blockStates[k.toNat]? ≠ some .complete]
      simp

/-! ### Whole runs -/

variable {s₀ t : BlockDownload} {events : List FetchEvent}

/-- What a run reports: as for one step, and the events of different steps are apart. -/
structure RunReports (s : BlockDownload) (events : List FetchEvent) (cfg : FetchConfig) (t : BlockDownload) : Prop where
  complete_iff : ∀ i, t.sched.blockStates[i]? = some .complete ↔
    s.sched.blockStates[i]? = some .complete ∨
      ∃ r ∈ Machine.outputs (step cfg) received s events, ∃ k ∈ r.indices, k.toNat = i
  bytes_le : t.download.heldBytes ≤ s.download.heldBytes +
    ((Machine.outputs (step cfg) received s events).map (·.bytes)).sum
  noSecondCopy_iff : Machine.Meets (step cfg) NoSecondCopy s events ↔
    (Machine.outputs (step cfg) received s events).Pairwise (fun a b => a.indices.Disjoint b.indices) ∧
      ∀ r ∈ Machine.outputs (step cfg) received s events, ∀ k ∈ r.indices,
        s.sched.blockStates[k.toNat]? ≠ some .complete
  noRepeatedIndex_iff : Machine.Meets (step cfg) NoRepeatedIndex s events ↔
    t.download.heldBytes = s.download.heldBytes +
      ((Machine.outputs (step cfg) received s events).map (·.bytes)).sum

/-- **Run lemma.** -/
theorem run_reports (hwf : s.WellFormed) (hrun : Machine.run (step cfg) s events = .ok t) :
    RunReports s events cfg t := by
  induction events generalizing s with
  | nil =>
      obtain rfl : s = t := by simpa using hrun
      exact ⟨by simp [Machine.outputs], by simp [Machine.outputs], by simp [Machine.outputs, Machine.Meets],
        by simp [Machine.outputs, Machine.Meets]⟩
  | cons e events ih =>
      obtain ⟨u, hu, hrest⟩ := Machine.run_cons_inv hrun
      have hstep := step_reports hwf hu
      have hlater := ih (step_wellFormed cfg s e u hwf hu) hrest
      have hout : Machine.outputs (step cfg) received s (e :: events) =
          s.received e ++ Machine.outputs (step cfg) received u events := Machine.outputs_cons hu
      refine ⟨fun i => ?_, ?_, ?_, ?_⟩
      · rw [hout, hlater.complete_iff, hstep.complete_iff]
        simp only [List.mem_append, or_and_right, exists_or, or_assoc]
      · have hfirst := hstep.bytes_le
        have hrest := hlater.bytes_le
        rw [hout, List.map_append, List.sum_append]
        omega
      · -- what is not complete after the step was not complete before it and is not named by it
        have hfresh : (∀ r ∈ Machine.outputs (step cfg) received u events, ∀ k ∈ r.indices,
              u.sched.blockStates[k.toNat]? ≠ some .complete) ↔
            (∀ r ∈ Machine.outputs (step cfg) received u events, ∀ k ∈ r.indices,
              s.sched.blockStates[k.toNat]? ≠ some .complete) ∧
            ∀ a ∈ s.received e, ∀ r ∈ Machine.outputs (step cfg) received u events,
              a.indices.Disjoint r.indices := by
          constructor
          · intro h
            refine ⟨fun r hr k hk hc => h r hr k hk ((hstep.complete_iff _).mpr (Or.inl hc)), ?_⟩
            intro a ha r hr k hka hkr
            exact h r hr k hkr ((hstep.complete_iff _).mpr (Or.inr ⟨a, ha, k, hka, rfl⟩))
          · rintro ⟨hbefore, happart⟩ r hr k hk hc
            rcases (hstep.complete_iff _).mp hc with hold | ⟨a, ha, k', hk', heq⟩
            · exact hbefore r hr k hk hold
            · exact happart a ha r hr (UInt32.toNat_inj.mp heq ▸ hk') hk
        rw [Machine.meets_cons hu, hstep.noSecondCopy_iff, hlater.noSecondCopy_iff, hfresh, hout,
          List.pairwise_append, List.forall_mem_append, and_iff_right hstep.apart]
        tauto
      · -- neither part can make up for bytes of the other
        have hfirst := hstep.bytes_le
        have hrest := hlater.bytes_le
        rw [Machine.meets_cons hu, hstep.noRepeatedIndex_iff, hlater.noRepeatedIndex_iff, hout, List.map_append,
          List.sum_append]
        omega

/-! ### One copy of each block -/

omit [Sha256] in
theorem holdsFrom_setSlots_of_ne {d : ActiveDownload} {peer p : PeerId} (hp : p ≠ peer) {slots : List (Option Bytes)}
    {i : Nat} {b : Bytes} : (d.setSlots peer slots).HoldsFrom p i b ↔ d.HoldsFrom p i b := by
  rw [ActiveDownload.HoldsFrom, ActiveDownload.lookup_setSlots, if_neg hp, ActiveDownload.HoldsFrom]

/-- A response without second copies brings none. -/
theorem singleCopy_recordBlocks (hagree : s.CompletionAgrees) (hsingle : s.download.SingleCopy) {peer : PeerId}
    {data : List BlockData} {download : ActiveDownload} {accepted : List UInt32}
    (hrec : s.download.recordBlocks peer (decodeBlockData data) = .ok (download, accepted))
    (hno : s.NoSecondCopy (.response peer data)) : download.SingleCopy := by
  have hothers : ∀ p i b, p ≠ peer → download.HoldsFrom p i b → s.download.HoldsFrom p i b := by
    intro p i b hp hb
    rcases ActiveDownload.recordBlocks_inv hrec with ⟨-, rfl, -⟩ | ⟨r, slots, -, rfl, -⟩
    · exact hb
    · exact (holdsFrom_setSlots_of_ne hp).mp hb
  -- a block that another peer holds is complete, so the sender's copy is not new
  have hsame : ∀ q i b c, download.HoldsFrom peer i b → q ≠ peer → ¬ download.HoldsFrom q i c := by
    intro q i b c hb hq hc
    have hheld := hothers q i c hq hc
    rcases ActiveDownload.holdsFrom_of_recordBlocks hrec hb with hold | ⟨k, hk, rfl, -, -⟩
    · exact hq (hsingle q peer i c b hheld hold)
    · exact (forall_fresh_iff hrec fun k => s.sched.blockStates[k.toNat]? ≠ some .complete).mp hno k hk
        ((hagree _).mpr ⟨q, c, hheld⟩)
  intro p q i b c hb hc
  by_cases hp : p = peer
  · subst hp
    by_contra hne
    exact hsame q i b c hb (Ne.symm hne) hc
  · by_cases hq : q = peer
    · subst hq
      exact absurd hb (hsame p i c b hc hp)
    · exact hsingle p q i b c (hothers p i b hp hb) (hothers q i c hq hc)

omit [Sha256] in
theorem singleCopy_of_empty {d : ActiveDownload}
    (h : ∀ p r, d.receivers.lookup p = some r → ∃ n, r.blocks = List.replicate n none) : d.SingleCopy := by
  rintro p q i b c ⟨r, hr, hb⟩ -
  obtain ⟨n, hn⟩ := h p r hr
  rw [hn] at hb
  cases List.eq_of_mem_replicate (List.mem_of_getElem? hb)

theorem run_singleCopy (hwf : s₀.WellFormed) (hagree : s₀.CompletionAgrees) (hsingle : s₀.download.SingleCopy)
    (hno : Machine.Meets (step cfg) NoSecondCopy s₀ events) (hrun : Machine.run (step cfg) s₀ events = .ok s) :
    s.download.SingleCopy := by
  refine (Machine.run_guarded_invariant
    (P := fun s => (s.WellFormed ∧ s.CompletionAgrees) ∧ s.download.SingleCopy) (fun a e b ha hg hab => ?_)
    ⟨⟨hwf, hagree⟩, hsingle⟩ hno hrun).2
  refine ⟨step_completionAgrees ha.1 hab, ?_⟩
  rcases step_cases hab with ⟨sched, -, -, rfl⟩ | ⟨peer, data, download, accepted, rfl, hrec, rfl⟩
  · exact ha.2
  · exact singleCopy_recordBlocks ha.1.2 ha.2 hrec hg

/-! ### A download that completes -/

/-- Assembly found a copy of every block. -/
theorem holds_of_assemble {d : ActiveDownload} (hfit : d.SlotsFit) {nar : Bytes} (h : d.assemble = .ok (.ok nar))
    {i : Nat} (hi : i < d.blockInfo.blockCount.toNat) : d.Holds i := by
  have hloop : ∀ (is : List Nat) (acc nar : Bytes),
      ActiveDownload.assembleLoop d.receivers.values is acc = .ok (.ok nar) → ∀ i ∈ is,
        ∃ b, ActiveDownload.findBlock d.receivers.values i = .ok (some b) := by
    intro is
    induction is with
    | nil => simp
    | cons j is ih =>
        intro acc nar h
        unfold ActiveDownload.assembleLoop at h
        split at h
        next => cases h
        next => cases h
        next b hb => exact List.forall_mem_cons.mpr ⟨⟨b, hb⟩, ih _ _ h⟩
  obtain ⟨b, hb⟩ := hloop _ _ _ (ActiveDownload.assemble_ok_inv h).1 i (List.mem_range.mpr hi)
  rcases ActiveDownload.findBlock_values hfit hi with ⟨p, c, hc, -⟩ | ⟨-, hnone⟩
  · exact ⟨p, c, hc⟩
  · rw [hb] at hnone
    cases hnone

/-- What the events of a completed download should say: each block is reported once, and the bytes
add up to the NAR. -/
structure ReportsNar (received : List BlockReceived) (blockCount : Nat) (nar : Bytes) : Prop where
  apart : received.Pairwise fun a b => a.indices.Disjoint b.indices
  covers : ∀ i, i < blockCount ↔ ∃ r ∈ received, ∃ k ∈ r.indices, k.toNat = i
  bytes_eq : (received.map (·.bytes)).sum = nar.length

variable {narHashHex : Text} {narSize : UInt64} {blockInfo : BlockInfo} {handshakes : List PeerHandshake}

/-- **Progress is counted once, unless a block comes twice.** In every state a run reaches, the count
of a response is the number of blocks that become complete exactly when none of its fresh blocks is
complete already. And the events of a download that completes are disjoint, cover all blocks and add
up to the NAR exactly when this holds of every response on the way and none has more under the index
of a fresh block than that block. -/
theorem progress_counted_once_iff (hstart : (start narHashHex narSize blockInfo handshakes).SameMaps s₀)
    (hrun : Machine.run (step cfg) s₀ events = .ok s) :
    (∀ peer data s' outcome, recordBlockResponse s peer data = .ok (s', outcome) →
      (outcome.newlyAccepted = completedNow s s' ↔ s.NoSecondCopy (.response peer data))) ∧
    ∀ nar, s.download.assemble = .ok (.ok nar) →
      (ReportsNar (Machine.outputs (step cfg) received s₀ events) blockInfo.blockCount.toNat nar ↔
        Machine.Meets (step cfg) CountsOnce s₀ events) := by
  have hstarted := started_of_sameMaps hstart
  obtain ⟨hwf, hagree⟩ := run_completionAgrees hstarted hrun
  refine ⟨fun peer data s' outcome h => newlyAccepted_eq_iff hwf h, fun nar hnar => ?_⟩
  have hreports := run_reports hstarted.wellFormed hrun
  -- nothing is complete and nothing is held at the start
  have hpending : ∀ i : Nat, s₀.sched.blockStates[i]? ≠ some .complete := by
    intro i hi
    cases hstarted.getElem?_eq_pending hi
  have hempty : s₀.download.heldBytes = 0 := by
    refine List.sum_eq_zero fun n hn => ?_
    obtain ⟨r, hr, rfl⟩ := List.mem_map.mp hn
    obtain ⟨p, hp⟩ := Table.mem_values.mp hr
    rw [hstarted.receivers_empty p r hp, slotsBytes_replicate_none]
  have hcount : s.download.blockInfo.blockCount = blockInfo.blockCount := by
    rw [(run_frame hrun).blockInfo, hstarted.blockInfo_eq]
  have hcovers : ∀ i, i < blockInfo.blockCount.toNat ↔
      ∃ r ∈ Machine.outputs (step cfg) received s₀ events, ∃ k ∈ r.indices, k.toNat = i := by
    intro i
    have hiff := hreports.complete_iff i
    rw [or_iff_right (hpending i)] at hiff
    rw [← hiff, ← hcount]
    constructor
    · exact fun hi => (hagree i).mpr (holds_of_assemble hwf.slotsFit hnar hi)
    · intro hi
      rw [← hwf.length_eq]
      exact (List.getElem?_eq_some_iff.mp hi).1
  have hlength : Machine.Meets (step cfg) NoSecondCopy s₀ events → s.download.heldBytes = nar.length := fun hno =>
    ActiveDownload.heldBytes_eq_length hwf.slotsFit (run_singleCopy hstarted.wellFormed hstarted.completionAgrees
      (singleCopy_of_empty fun p r hr => ⟨_, hstarted.receivers_empty p r hr⟩) hno hrun) hnar
  have hcounts : Machine.Meets (step cfg) CountsOnce s₀ events ↔
      Machine.Meets (step cfg) NoSecondCopy s₀ events ∧ Machine.Meets (step cfg) NoRepeatedIndex s₀ events :=
    Machine.meets_and_iff
  rw [hcounts]
  constructor
  · intro h
    have hno := hreports.noSecondCopy_iff.mpr ⟨h.apart, fun r _ k _ => hpending k.toNat⟩
    refine ⟨hno, hreports.noRepeatedIndex_iff.mpr ?_⟩
    rw [hlength hno, hempty, Nat.zero_add, h.bytes_eq]
  · intro h'
    obtain ⟨hno, honce⟩ := h'
    refine ⟨(hreports.noSecondCopy_iff.mp hno).1, hcovers, ?_⟩
    rw [← hlength hno, hreports.noRepeatedIndex_iff.mp honce, hempty, Nat.zero_add]

/-! ### Three blocks and a late answer -/

/-- SHA-256 of `abcdefghabcd` besides the samples. -/
@[reducible] def threeBlockSha256 : Sha256 where
  digest data :=
    if data = sampleNar ++ sampleTail ++ sampleNar then
      #v[0x9d, 0x07, 0xe7, 0x82, 0x06, 0xe4, 0x61, 0xaf, 0xa6, 0x50, 0xe1, 0x01, 0x2a, 0xcf, 0x85, 0xa4,
         0x72, 0xe2, 0x02, 0x35, 0x65, 0x1c, 0x94, 0x82, 0x67, 0x8a, 0x81, 0xad, 0x64, 0x88, 0xb7, 0x54]
    else sampleSha256.digest data

/-- A peer that has three blocks of four bytes, the first and the last one alike. -/
def threeBlockHandshake (peer : PeerId) : PeerHandshake :=
  ⟨peer, [0, 1, 2], [threeBlockSha256.digest sampleNar, threeBlockSha256.digest sampleTail, threeBlockSha256.digest sampleNar], 3⟩

def threeBlockDownload : BlockDownload :=
  start (Hex.encode (threeBlockSha256.digest (sampleNar ++ sampleTail ++ sampleNar)).toList) 12
    (downloadBlockInfo 12 4 BlockInfo.four_pos (threeBlockHandshake peerA)) [threeBlockHandshake peerA, threeBlockHandshake peerB]

/-- `peerA` delivers block 1. Blocks 0 and 2 expire at `peerB`, and `peerA` is asked for block 0;
then `peerB` delivers it after all. -/
def lateAnswer : List FetchEvent :=
  [.dispatch 0, .response peerA [⟨1, sampleTail⟩], .expire 30000, .dispatch 30000, .response peerB [⟨0, sampleNar⟩]]

omit [Sha256] in
/-- The copy from `peerA` counts as progress and completes nothing; at the end the events report
16 bytes for a NAR of 12. -/
theorem late_copy_counts_again :
    ∃ s s' outcome t nar, Machine.run (@step threeBlockSha256 ⟨2, 30⟩) threeBlockDownload lateAnswer = .ok s ∧
      s.sched.blockStates[0]? = some .complete ∧ (s.sched.peerStates.lookup peerA).map (·.inFlight) = some {0} ∧
      @recordBlockResponse threeBlockSha256 s peerA [⟨0, sampleNar⟩] = .ok (s', outcome) ∧
      outcome.newlyAccepted = 1 ∧ completedNow s s' = 0 ∧
      Machine.run (@step threeBlockSha256 ⟨2, 30⟩) threeBlockDownload
        (lateAnswer ++ [.response peerA [⟨0, sampleNar⟩], .response peerB [⟨2, sampleNar⟩]]) = .ok t ∧
      @ActiveDownload.assemble threeBlockSha256 t.download = .ok (.ok nar) ∧
      ¬ ReportsNar (Machine.outputs (@step threeBlockSha256 ⟨2, 30⟩) (@received threeBlockSha256) threeBlockDownload
        (lateAnswer ++ [.response peerA [⟨0, sampleNar⟩], .response peerB [⟨2, sampleNar⟩]])) 3 nar := by
  refine ⟨_, _, _, _, _, rfl, by decide, by decide, rfl, rfl, by decide, rfl, rfl, fun h => ?_⟩
  exact absurd h.bytes_eq (by decide)

omit [Sha256] in
/-- When `peerA` delivers both blocks, and one of them twice, the second copy counts for nothing. -/
theorem progress_counted_once_iff_sample :
    ∃ s, Machine.run (@step sampleSha256 ⟨8, 30⟩)
        (start (Hex.encode (sampleSha256.digest (sampleNar ++ sampleTail)).toList) 8
          (downloadBlockInfo 8 4 (by decide) twoBlockHandshake) [twoBlockHandshake]) twoBlockEvents = .ok s ∧
      @NoSecondCopy sampleSha256 s (.response peerA [⟨1, sampleTail⟩]) ∧
      Machine.Meets (@step sampleSha256 ⟨8, 30⟩) (@CountsOnce sampleSha256)
        (start (Hex.encode (sampleSha256.digest (sampleNar ++ sampleTail)).toList) 8
          (downloadBlockInfo 8 4 (by decide) twoBlockHandshake) [twoBlockHandshake]) twoBlockEvents := by
  refine ⟨_, rfl, ?_⟩
  obtain ⟨hcount, hnar⟩ := @progress_counted_once_iff sampleSha256 ⟨8, 30⟩ _ _ twoBlockEvents
    (Hex.encode (sampleSha256.digest (sampleNar ++ sampleTail)).toList) 8
    (downloadBlockInfo 8 4 (by decide) twoBlockHandshake) [twoBlockHandshake] (SameMaps.refl _) rfl
  refine ⟨(hcount peerA [⟨1, sampleTail⟩] _ _ rfl).mp (by decide), (hnar (sampleNar ++ sampleTail) rfl).mp ?_⟩
  have houtputs : Machine.outputs (@step sampleSha256 ⟨8, 30⟩) (@received sampleSha256)
      (start (Hex.encode (sampleSha256.digest (sampleNar ++ sampleTail)).toList) 8
        (downloadBlockInfo 8 4 (by decide) twoBlockHandshake) [twoBlockHandshake]) twoBlockEvents =
      [⟨peerA, [1], 4⟩, ⟨peerA, [0], 4⟩] := by decide
  rw [houtputs]
  refine ⟨by simp, fun i => ?_, by decide⟩
  have hcount : (downloadBlockInfo 8 4 (by decide) twoBlockHandshake).blockCount.toNat = 2 := by decide
  rw [hcount]
  simp
  omega

end BlockDownload

end GuixP2p
