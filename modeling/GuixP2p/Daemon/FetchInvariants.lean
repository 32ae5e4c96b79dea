import GuixP2p.Lib.Machine
import GuixP2p.Daemon.FetchMoves

/-!
# GuixP2p.Daemon.FetchInvariants

Invariants of a block download, over every run: any interleaving of dispatches,
responses from any peer with any content, expiries and failed requests.

The proofs share one shape. `BlockDownload.step_cases` says what an event can do:
move the scheduler (`Scheduler.Moves`) or record a response. Each invariant is
checked against one move and against one response, and `Machine.run_invariant`
lifts it to runs.

* `WellFormed` — the tables have the sizes and the keys the set-up gave them;
* `Assigned` — a block in flight to `p` is in `p`'s `inFlight` set, and these sets
  respect what the peer advertised and the limit per peer;
* `SlotsOwed` — the converse: a slot is only used by a block that is in flight. It
  holds only for runs without *late completions*;
* `CompletionAgrees` — the scheduler calls a block complete exactly when the
  `ActiveDownload` holds a copy.
-/

namespace GuixP2p

open GuixP2p.Lib
open Scheduler (Move Moves)

/-! ### What an event can do -/

namespace BlockDownload

variable [Sha256]

/-- **What an event can do**: move the scheduler, or record a response. -/
theorem step_cases {cfg : FetchConfig} {s s' : BlockDownload} {e : FetchEvent}
    (h : step cfg s e = .ok s') :
    (∃ sched, (∀ peer data, e ≠ .response peer data) ∧ Moves cfg.maxInFlight s.sched sched ∧
        s' = { s with sched }) ∨
      (∃ peer data download accepted, e = .response peer data ∧
        s.download.recordBlocks peer (decodeBlockData data) = .ok (download, accepted) ∧
        s' = ⟨download, s.sched.afterResponse peer (decodeBlockData data) accepted⟩) := by
  cases e with
  | dispatch now =>
      obtain rfl := Except.ok.inj h
      exact Or.inl ⟨_, nofun, dispatchBlockRequests_moves _ _ _, rfl⟩
  | expire now =>
      obtain rfl := Except.ok.inj h
      exact Or.inl ⟨_, nofun, requeueExpiredBlocks_moves _ _ _ _, rfl⟩
  | requestFailed peer =>
      obtain rfl := Except.ok.inj h
      exact Or.inl ⟨_, nofun, requeueInFlightBlocksForPeer_moves _ _ _, rfl⟩
  | response peer data =>
      simp only [step, recordBlockResponse] at h
      cases hrec : s.download.recordBlocks peer (decodeBlockData data) with
      | error p => rw [hrec] at h; cases h
      | ok r =>
          obtain ⟨download, accepted⟩ := r
          rw [hrec] at h
          obtain rfl := Except.ok.inj h
          exact Or.inr ⟨peer, data, download, accepted, rfl, hrec, rfl⟩

/-- An event that keeps `Inv` under moves and under responses keeps it. -/
theorem step_invariant {cfg : FetchConfig} {Inv : BlockDownload → Prop}
    (hmove : ∀ s sched, Inv s → Move cfg.maxInFlight s.sched sched → Inv { s with sched })
    (hresp : ∀ s peer data download accepted, Inv s →
      s.download.recordBlocks peer (decodeBlockData data) = .ok (download, accepted) →
      Inv ⟨download, s.sched.afterResponse peer (decodeBlockData data) accepted⟩)
    (s : BlockDownload) (e : FetchEvent) (s' : BlockDownload) (hs : Inv s)
    (h : step cfg s e = .ok s') : Inv s' := by
  rcases step_cases h with ⟨sched, -, hmoves, rfl⟩ | ⟨peer, data, download, accepted, -, hrec, rfl⟩
  · exact Scheduler.Moves.invariant (P := fun t => Inv { s with sched := t })
      (fun a b hab ha => hmove { s with sched := a } b ha hab) hmoves hs
  · exact hresp s peer data download accepted hs hrec

/-! ### The set-up -/

omit [Sha256] in
theorem foldl_addPeer (handshakes : List PeerHandshake) (d : ActiveDownload) :
    let d' := handshakes.foldl (fun d hs => d.addPeer hs.peer) d
    d'.blockInfo = d.blockInfo ∧ d'.narHashHex = d.narHashHex ∧ d'.narSize = d.narSize ∧
      (∀ p, p ∈ d'.receivers ↔ p ∈ d.receivers ∨ ∃ hs ∈ handshakes, hs.peer = p) ∧
      ∀ p r, d'.receivers.lookup p = some r → d.receivers.lookup p = some r ∨
        r.blocks = List.replicate d.blockInfo.blockCount.toNat none := by
  induction handshakes generalizing d with
  | nil => exact ⟨rfl, rfl, rfl, by simp, fun p r h => Or.inl h⟩
  | cons hs handshakes ih =>
      obtain ⟨hinfo, hhash, hsize, hmem, hlook⟩ := ih (d.addPeer hs.peer)
      refine ⟨hinfo, hhash, hsize, fun p => ?_, fun p r h => ?_⟩
      · rw [List.foldl_cons, hmem]
        simp only [ActiveDownload.addPeer, AList.mem_insert, List.exists_mem_cons_iff]
        tauto
      · rcases hlook p r h with hold | hnew
        · by_cases hp : p = hs.peer
          · subst hp
            simp only [ActiveDownload.addPeer, AList.lookup_insert, Option.some.injEq] at hold
            exact Or.inr (by rw [← hold])
          · simp only [ActiveDownload.addPeer, AList.lookup_insert_ne hp] at hold
            exact Or.inl hold
        · exact Or.inr hnew

/-- What the set-up of `download_blocks_from_peers` yields, whatever the iteration
order of its maps. -/
structure Started (narHashHex : Text) (narSize : UInt64) (blockInfo : BlockInfo)
    (handshakes : List PeerHandshake) (s : BlockDownload) : Prop where
  narHashHex_eq : s.download.narHashHex = narHashHex
  narSize_eq : s.download.narSize = narSize
  blockInfo_eq : s.download.blockInfo = blockInfo
  receivers_mem : ∀ p, p ∈ s.download.receivers ↔ ∃ hs ∈ handshakes, hs.peer = p
  receivers_empty : ∀ p r, s.download.receivers.lookup p = some r →
    r.blocks = List.replicate blockInfo.blockCount.toNat none
  peers_mem : ∀ p, p ∈ s.sched.peerStates ↔ ∃ hs ∈ handshakes, hs.peer = p
  peers_initial : ∀ p st, s.sched.peerStates.lookup p = some st →
    ∃ hs ∈ handshakes, hs.peer = p ∧ st = initialPeerState blockInfo.blockCount.toNat hs
  blockStates_eq : s.sched.blockStates = List.replicate blockInfo.blockCount.toNat .pending

omit [Sha256] in
theorem started_of_sameMaps {narHashHex : Text} {narSize : UInt64} {blockInfo : BlockInfo}
    {handshakes : List PeerHandshake} {s : BlockDownload}
    (h : (start narHashHex narSize blockInfo handshakes).SameMaps s) :
    Started narHashHex narSize blockInfo handshakes s := by
  obtain ⟨hinfo, hhash, hsize, hmem, hlook⟩ :=
    foldl_addPeer handshakes (ActiveDownload.new narHashHex narSize blockInfo)
  refine ⟨?_, ?_, ?_, fun p => ?_, fun p r hr => ?_, fun p => ?_, fun p st hst => ?_, ?_⟩
  · exact h.narHashHex.symm.trans hhash
  · exact h.narSize.symm.trans hsize
  · exact h.blockInfo.symm.trans hinfo
  · rw [← AList.mem_of_perm h.receivers]
    refine (hmem p).trans ?_
    simp [ActiveDownload.new]
  · rw [← h.receivers.lookup_eq] at hr
    rcases hlook p r hr with hold | hnew
    · simp [ActiveDownload.new] at hold
    · exact hnew
  · rw [← AList.mem_of_perm h.peerStates]
    simp [start]
  · rw [← h.peerStates.lookup_eq] at hst
    obtain ⟨hs, hmem, heq⟩ := List.mem_map.mp (Table.mem_of_lookup_ofPairs hst)
    obtain ⟨rfl, rfl⟩ := Prod.mk.inj heq
    exact ⟨hs, hmem, rfl, rfl⟩
  · exact h.blockStates.symm

/-! ### Well-formed tables -/

/-- The sizes and the keys the set-up gave the tables. -/
structure WellFormed (s : BlockDownload) : Prop where
  slotsFit : s.download.SlotsFit
  length_eq : s.sched.blockStates.length = s.download.blockInfo.blockCount.toNat
  sameKeys : ∀ p, p ∈ s.download.receivers ↔ (s.sched.advertised p).isSome

theorem step_wellFormed (cfg : FetchConfig) (s : BlockDownload) (e : FetchEvent)
    (s' : BlockDownload) (hs : s.WellFormed) (h : step cfg s e = .ok s') : s'.WellFormed := by
  refine step_invariant ?_ ?_ s e s' hs h
  · intro s sched hs hmove
    refine ⟨hs.slotsFit, hmove.length_eq.trans hs.length_eq, fun p => ?_⟩
    rw [hmove.advertised_eq p]
    exact hs.sameKeys p
  · intro s peer data download accepted hs hrec
    obtain ⟨hinfo, -, -, hkeys⟩ := ActiveDownload.recordBlocks_fields hrec
    refine ⟨ActiveDownload.recordBlocks_slotsFit hs.slotsFit hrec, ?_, fun p => ?_⟩
    · rw [length_afterResponse, hs.length_eq, hinfo]
    · rw [hkeys p, hs.sameKeys p, advertised_afterResponse]

omit [Sha256] in
theorem Started.wellFormed {narHashHex : Text} {narSize : UInt64} {blockInfo : BlockInfo}
    {handshakes : List PeerHandshake} {s : BlockDownload}
    (h : Started narHashHex narSize blockInfo handshakes s) : s.WellFormed := by
  refine ⟨fun p r hr => ?_, ?_, fun p => ?_⟩
  · rw [h.receivers_empty p r hr, List.length_replicate, h.blockInfo_eq]
  · rw [h.blockStates_eq, List.length_replicate, h.blockInfo_eq]
  · rw [h.receivers_mem, ← h.peers_mem, ← AList.lookup_isSome, Scheduler.advertised,
      Option.isSome_map]

/-- An event changes neither the layout nor the set of peers. -/
theorem step_fields {cfg : FetchConfig} {info : BlockInfo} {known : PeerId → Prop}
    {s s' : BlockDownload} {e : FetchEvent}
    (hs : s.download.blockInfo = info ∧ ∀ p, p ∈ s.download.receivers ↔ known p)
    (h : step cfg s e = .ok s') :
    s'.download.blockInfo = info ∧ ∀ p, p ∈ s'.download.receivers ↔ known p := by
  rcases step_cases h with ⟨sched, -, -, rfl⟩ | ⟨peer, data, download, accepted, -, hrec, rfl⟩
  · exact hs
  · obtain ⟨hinfo, -, -, hkeys⟩ := ActiveDownload.recordBlocks_fields hrec
    exact ⟨hinfo.trans hs.1, fun p => (hkeys p).trans (hs.2 p)⟩

/-- What a run never changes. -/
structure Frame (s t : BlockDownload) : Prop where
  blockInfo : t.download.blockInfo = s.download.blockInfo
  narHashHex : t.download.narHashHex = s.download.narHashHex
  narSize : t.download.narSize = s.download.narSize
  advertised : ∀ p, t.sched.advertised p = s.sched.advertised p

theorem run_frame {cfg : FetchConfig} {s t : BlockDownload} {events : List FetchEvent}
    (h : Machine.run (step cfg) s events = .ok t) : Frame s t := by
  refine Machine.run_invariant (P := Frame s) (fun a e b ha hab => ?_)
    ⟨rfl, rfl, rfl, fun _ => rfl⟩ h
  refine step_invariant ?_ ?_ a e b ha hab
  · intro a sched ha hmove
    exact ⟨ha.blockInfo, ha.narHashHex, ha.narSize,
      fun p => (hmove.advertised_eq p).trans (ha.advertised p)⟩
  · intro a peer data download accepted ha hrec
    obtain ⟨hinfo, hhash, hsize, -⟩ := ActiveDownload.recordBlocks_fields hrec
    exact ⟨hinfo.trans ha.blockInfo, hhash.trans ha.narHashHex, hsize.trans ha.narSize,
      fun p => (advertised_afterResponse a.sched peer _ accepted p).trans (ha.advertised p)⟩

end BlockDownload

/-! ### Assignment -/

namespace Scheduler

/-- A block in flight to `p` uses one of `p`'s slots, and the slots respect what
the peer advertised and the limit. -/
structure Assigned (maxInFlight : Nat) (s : Scheduler) : Prop where
  slot : ∀ i p t, s.blockStates[i]? = some (.inFlight p t) → UInt32.ofNat i ∈ s.slots p
  subset : ∀ p, s.slots p ⊆ (s.advertised p).getD ∅
  card_le : ∀ p, (s.slots p).card ≤ maxInFlight

theorem ofNat_ne {i j : Nat} (hi : i < 2 ^ 32) (hj : j < 2 ^ 32) (h : i ≠ j) :
    UInt32.ofNat i ≠ UInt32.ofNat j := by
  intro he
  have hval := congrArg UInt32.toNat he
  rw [UInt32.toNat_ofNat_of_lt' hi, UInt32.toNat_ofNat_of_lt' hj] at hval
  exact h hval

theorem Assigned.move {m : Nat} {s t : Scheduler} (hsize : s.blockStates.length ≤ 2 ^ 32)
    (hs : s.Assigned m) (h : Move m s t) : t.Assigned m := by
  have hlt : ∀ {i st}, s.blockStates[i]? = some st → i < 2 ^ 32 := fun hi =>
    lt_of_lt_of_le (List.getElem?_eq_some_iff.mp hi).1 hsize
  have hadv_eq := h.advertised_eq
  cases h with
  | @assign idx peer now st hpending hst hfree hadv =>
      refine ⟨fun i p t hi => ?_, fun p => ?_, fun p => ?_⟩
      · by_cases hidx : idx = i
        · subst hidx
          rw [getElem?_assign_self hpending] at hi
          obtain ⟨rfl, -⟩ : peer = p ∧ now = t := by simpa using hi
          rw [slots_assign_self hst]
          exact Finset.mem_insert_self _ _
        · rw [getElem?_assign_of_ne hidx] at hi
          by_cases hp : p = peer
          · subst hp
            rw [slots_assign_self hst]
            exact Finset.mem_insert_of_mem (hs.slot i p t hi)
          · rw [slots_assign_of_ne hp]
            exact hs.slot i p t hi
      · rw [hadv_eq]
        by_cases hp : p = peer
        · subst hp
          rw [slots_assign_self hst]
          refine Finset.insert_subset ?_ (hs.subset p)
          rw [advertised_of_lookup hst]
          exact hadv
        · rw [slots_assign_of_ne hp]
          exact hs.subset p
      · by_cases hp : p = peer
        · subst hp
          rw [slots_assign_self hst, slots_of_lookup hst]
          exact (Finset.card_insert_le _ _).trans hfree
        · rw [slots_assign_of_ne hp]
          exact hs.card_le p
  | @release idx peer requestedAt penalty hin =>
      have hsub : ∀ p, (s.release idx peer penalty).slots p ⊆ s.slots p := by
        intro p
        rw [slots_release]
        split
        · exact Finset.erase_subset _ _
        · exact Finset.Subset.refl _
      refine ⟨fun i p t hi => ?_, fun p => ?_, fun p => ?_⟩
      · by_cases hidx : idx = i
        · subst hidx
          rw [getElem?_release_self hin] at hi
          cases hi
        · rw [getElem?_release_of_ne hidx] at hi
          rw [slots_release]
          split
          · exact Finset.mem_erase.mpr
              ⟨ofNat_ne (hlt hi) (hlt hin) (Ne.symm hidx), hs.slot i p t hi⟩
          · exact hs.slot i p t hi
      · rw [hadv_eq]
        exact (hsub p).trans (hs.subset p)
      · exact (Finset.card_le_card (hsub p)).trans (hs.card_le p)
  | @penalize peer =>
      refine ⟨fun i p t hi => ?_, fun p => ?_, fun p => ?_⟩
      · rw [slots_penalize]
        exact hs.slot i p t hi
      · rw [hadv_eq, slots_penalize]
        exact hs.subset p
      · rw [slots_penalize]
        exact hs.card_le p

/-- A block still in flight after a response was in flight before, and either the
response does not name it or it came from somebody else. -/
theorem inFlight_of_afterResponse {s : Scheduler} {peer p : PeerId}
    {blocks : List (UInt32 × Bytes)} {accepted : List UInt32} {i : Nat} {t : Instant}
    (h : (s.afterResponse peer blocks accepted).blockStates[i]? = some (.inFlight p t)) :
    s.blockStates[i]? = some (.inFlight p t) ∧ ¬ AcceptedAt accepted i ∧
      (p = peer → ¬ NamedAt blocks i) := by
  rw [getElem?_afterResponse] at h
  obtain ⟨st, hst, hresp⟩ := Option.map_eq_some_iff.mp h
  unfold responseState at hresp
  split at hresp
  next => cases hresp
  next hacc =>
    split at hresp
    next hnamed =>
      cases st with
      | pending => cases hresp
      | complete => cases hresp
      | inFlight q u =>
          by_cases hq : q = peer
          · simp [BlockFetchState.retry, hq] at hresp
          · simp only [BlockFetchState.retry, hq, if_false] at hresp
            obtain ⟨rfl, rfl⟩ : q = p ∧ u = t := by simpa using hresp
            exact ⟨hst, hacc, fun hp => absurd hp hq⟩
    next hnamed =>
      subst hresp
      exact ⟨hst, hacc, fun _ => hnamed⟩

theorem Assigned.response {m : Nat} {s : Scheduler} (hs : s.Assigned m) (peer : PeerId)
    (blocks : List (UInt32 × Bytes)) (accepted : List UInt32)
    (hsize : s.blockStates.length ≤ 2 ^ 32) :
    (s.afterResponse peer blocks accepted).Assigned m := by
  have hsub : ∀ p, (s.afterResponse peer blocks accepted).slots p ⊆ s.slots p := by
    intro p k hk
    exact (mem_slots_afterResponse.mp hk).1
  refine ⟨fun i p t hi => ?_, fun p => ?_, fun p => ?_⟩
  · obtain ⟨hold, -, hname⟩ := inFlight_of_afterResponse hi
    have hi32 : i < 2 ^ 32 := lt_of_lt_of_le (List.getElem?_eq_some_iff.mp hold).1 hsize
    refine mem_slots_afterResponse.mpr ⟨hs.slot i p t hold, fun hp b hb hbi => ?_⟩
    refine hname hp ⟨b, hb, ?_⟩
    rw [hbi, UInt32.toNat_ofNat_of_lt' hi32]
  · rw [advertised_afterResponse]
    exact (hsub p).trans (hs.subset p)
  · exact (Finset.card_le_card (hsub p)).trans (hs.card_le p)

end Scheduler

namespace BlockDownload

variable [Sha256] {narHashHex : Text} {narSize : UInt64} {blockInfo : BlockInfo}
  {handshakes : List PeerHandshake} {cfg : FetchConfig} {s₀ s : BlockDownload}
  {events : List FetchEvent}

omit [Sha256] in
theorem WellFormed.length_le (h : s.WellFormed) : s.sched.blockStates.length ≤ 2 ^ 32 := by
  rw [h.length_eq]
  exact s.download.blockInfo.blockCount.toNat_lt.le

omit [Sha256] in
theorem Started.slots_eq_empty (h : Started narHashHex narSize blockInfo handshakes s)
    (p : PeerId) : s.sched.slots p = ∅ := by
  unfold Scheduler.slots
  cases hst : s.sched.peerStates.lookup p with
  | none => rfl
  | some st =>
      obtain ⟨hs, -, -, rfl⟩ := h.peers_initial p st hst
      rfl

omit [Sha256] in
theorem Started.getElem?_eq_pending (h : Started narHashHex narSize blockInfo handshakes s)
    {i : Nat} {st : BlockFetchState} (hi : s.sched.blockStates[i]? = some st) : st = .pending := by
  rw [h.blockStates_eq] at hi
  exact List.eq_of_mem_replicate (List.mem_of_getElem? hi)

omit [Sha256] in
theorem Started.assigned (h : Started narHashHex narSize blockInfo handshakes s) (m : Nat) :
    s.sched.Assigned m := by
  refine ⟨fun i p t hi => ?_, fun p => ?_, fun p => ?_⟩
  · cases h.getElem?_eq_pending hi
  · rw [h.slots_eq_empty p]
    exact Finset.empty_subset _
  · rw [h.slots_eq_empty p]
    exact Nat.zero_le m

theorem step_assigned {e : FetchEvent} {s' : BlockDownload}
    (hs : s.WellFormed ∧ s.sched.Assigned cfg.maxInFlight) (h : step cfg s e = .ok s') :
    s'.WellFormed ∧ s'.sched.Assigned cfg.maxInFlight := by
  refine ⟨step_wellFormed cfg s e s' hs.1 h, ?_⟩
  rcases step_cases h with ⟨sched, -, hmoves, rfl⟩ | ⟨peer, data, download, accepted, -, -, rfl⟩
  · -- the length bound travels with the assignment through the moves
    have hkeep : sched.blockStates.length ≤ 2 ^ 32 ∧ sched.Assigned cfg.maxInFlight :=
      Scheduler.Moves.invariant
        (P := fun t => t.blockStates.length ≤ 2 ^ 32 ∧ t.Assigned cfg.maxInFlight)
        (fun t u hmove ht => ⟨hmove.length_eq.trans_le ht.1, ht.2.move ht.1 hmove⟩)
        hmoves ⟨hs.1.length_le, hs.2⟩
    exact hkeep.2
  · exact hs.2.response peer _ accepted hs.1.length_le

/-- Every run keeps the tables well formed and the assignment consistent. -/
theorem run_assigned (hstart : Started narHashHex narSize blockInfo handshakes s₀)
    (hrun : Machine.run (step cfg) s₀ events = .ok s) :
    s.WellFormed ∧ s.sched.Assigned cfg.maxInFlight :=
  Machine.run_invariant (P := fun s => s.WellFormed ∧ s.sched.Assigned cfg.maxInFlight)
    (fun _ _ _ ha hab => step_assigned ha hab) ⟨hstart.wellFormed, hstart.assigned _⟩ hrun

end BlockDownload

/-! ### Completion -/

theorem Scheduler.Move.complete_iff {m : Nat} {s t : Scheduler} (h : Move m s t) (i : Nat) :
    t.blockStates[i]? = some .complete ↔ s.blockStates[i]? = some .complete := by
  cases h with
  | @assign idx peer now st hpending hst hfree hadv =>
      by_cases hidx : idx = i
      · subst hidx
        rw [Scheduler.getElem?_assign_self hpending, hpending]
        simp
      · rw [Scheduler.getElem?_assign_of_ne hidx]
  | @release idx peer requestedAt penalty hin =>
      by_cases hidx : idx = i
      · subst hidx
        rw [Scheduler.getElem?_release_self hin, hin]
        simp
      · rw [Scheduler.getElem?_release_of_ne hidx]
  | penalize => rfl

theorem complete_afterResponse_iff {s : Scheduler} {peer : PeerId}
    {blocks : List (UInt32 × Bytes)} {accepted : List UInt32} {i : Nat} :
    (s.afterResponse peer blocks accepted).blockStates[i]? = some .complete ↔
      s.blockStates[i]? = some .complete ∨
        (AcceptedAt accepted i ∧ i < s.blockStates.length) := by
  rw [getElem?_afterResponse]
  cases hst : s.blockStates[i]? with
  | none =>
      have hlen := List.getElem?_eq_none_iff.mp hst
      simp
      omega
  | some st =>
      have hlen := (List.getElem?_eq_some_iff.mp hst).1
      simp only [Option.map_some, Option.some.injEq, hlen, and_true, responseState]
      by_cases hacc : AcceptedAt accepted i
      · simp [hacc]
      · simp only [hacc, if_false, or_false]
        split
        · cases st with
          | pending => simp [BlockFetchState.retry]
          | complete => simp [BlockFetchState.retry]
          | inFlight q t => by_cases hq : q = peer <;> simp [BlockFetchState.retry, hq]
        · rfl

namespace BlockDownload

variable [Sha256] {narHashHex : Text} {narSize : UInt64} {blockInfo : BlockInfo}
  {handshakes : List PeerHandshake} {cfg : FetchConfig} {s₀ s t : BlockDownload}
  {events : List FetchEvent}

/-- An accepted index is one of the block table's. -/
theorem lt_length_of_accepted {peer : PeerId} {blocks : List (UInt32 × Bytes)}
    {download : ActiveDownload} {accepted : List UInt32} {i : Nat} (hs : s.WellFormed)
    (hrec : s.download.recordBlocks peer blocks = .ok (download, accepted))
    (hi : AcceptedAt accepted i) : i < s.sched.blockStates.length := by
  obtain ⟨a, ha, rfl⟩ := hi
  rcases ActiveDownload.recordBlocks_inv hrec with ⟨-, -, rfl⟩ | ⟨r, slots, hr, -, hrecd⟩
  · exact absurd ha List.not_mem_nil
  · obtain ⟨data, -, -, -, hslot⟩ := (hrecd.mem_iff a).mp ha
    rw [hs.length_eq, ← hs.slotsFit peer r hr]
    exact (List.getElem?_eq_some_iff.mp hslot).1

/-- A complete block stays complete over every run. -/
theorem run_complete {i : Nat} (hrun : Machine.run (step cfg) s events = .ok t)
    (hi : s.sched.blockStates[i]? = some .complete) :
    t.sched.blockStates[i]? = some .complete := by
  refine Machine.run_invariant
    (P := fun s : BlockDownload => s.sched.blockStates[i]? = some .complete)
    (fun a e b ha hab => ?_) hi hrun
  exact step_invariant
    (fun a sched ha hmove => (hmove.complete_iff i).mpr ha)
    (fun a peer data download accepted ha _ => complete_afterResponse_iff.mpr (Or.inl ha))
    a e b ha hab

/-- The scheduler calls a block complete exactly when some peer's copy is held. -/
def CompletionAgrees (s : BlockDownload) : Prop :=
  ∀ i, s.sched.blockStates[i]? = some .complete ↔ s.download.Holds i

omit [Sha256] in
theorem Started.completionAgrees (h : Started narHashHex narSize blockInfo handshakes s) :
    s.CompletionAgrees := by
  intro i
  refine iff_of_false (fun hi => ?_) ?_
  · cases h.getElem?_eq_pending hi
  · intro h'
    obtain ⟨p, b, r, hr, hb⟩ := h'
    rw [h.receivers_empty p r hr] at hb
    cases List.eq_of_mem_replicate (List.mem_of_getElem? hb)

theorem step_completionAgrees {e : FetchEvent} (hs : s.WellFormed ∧ s.CompletionAgrees) (h : step cfg s e = .ok t) :
    t.WellFormed ∧ t.CompletionAgrees := by
  refine ⟨step_wellFormed cfg s e t hs.1 h, ?_⟩
  rcases step_cases h with ⟨sched, -, hmoves, rfl⟩ | ⟨peer, data, download, accepted, -, hrec, rfl⟩
  · exact Scheduler.Moves.invariant (P := fun u => CompletionAgrees { s with sched := u })
      (fun u v hmove hu i => (hmove.complete_iff i).trans (hu i)) hmoves hs.2
  · intro i
    rw [complete_afterResponse_iff, ActiveDownload.holds_recordBlocks_iff hrec, hs.2 i]
    constructor
    · intro h'
      rcases h' with hold | ⟨hacc, -⟩
      · exact Or.inl hold
      · exact Or.inr hacc
    · intro h'
      rcases h' with hold | hacc
      · exact Or.inl hold
      · exact Or.inr ⟨hacc, lt_length_of_accepted hs.1 hrec hacc⟩

/-- Every run keeps the two records of completion in step. -/
theorem run_completionAgrees (hstart : Started narHashHex narSize blockInfo handshakes s₀)
    (hrun : Machine.run (step cfg) s₀ events = .ok s) : s.WellFormed ∧ s.CompletionAgrees :=
  Machine.run_invariant (P := fun s => s.WellFormed ∧ s.CompletionAgrees)
    (fun _ _ _ ha hab => step_completionAgrees ha hab) ⟨hstart.wellFormed, hstart.completionAgrees⟩ hrun

omit [Sha256] in
/-- The loop's exit test, in terms of the scheduler. -/
theorem isComplete_iff_forall_complete (hwf : s.WellFormed) (hagree : s.CompletionAgrees) :
    s.download.isComplete = .ok true ↔ ∀ st ∈ s.sched.blockStates, st = .complete := by
  obtain ⟨b, hb, hiff⟩ := ActiveDownload.isComplete_spec hwf.slotsFit
  rw [hb, Except.ok.injEq, hiff, ← hwf.length_eq]
  constructor
  · intro hall st hst
    obtain ⟨i, hlt, hi⟩ := List.mem_iff_getElem.mp hst
    have hdone := (hagree i).mpr (hall i hlt)
    rw [List.getElem?_eq_getElem hlt, hi] at hdone
    exact Option.some.inj hdone
  · intro hall i hlt
    refine (hagree i).mp ?_
    rw [List.getElem?_eq_getElem hlt, hall _ (List.getElem_mem hlt)]

/-- The event names no block of the download that has no hash. -/
def HashesCover (info : BlockInfo) (known : PeerId → Prop) : FetchEvent → Prop
  | .response peer data => known peer → ∀ bd ∈ data,
    bd.index.toNat < info.blockCount.toNat → bd.index.toNat < info.blockHashes.length
  | _ => True

/-- **Which events panic**: a response of a known peer that overruns the hash list. -/
theorem step_ok_iff (hwf : s.WellFormed) (cfg : FetchConfig) (e : FetchEvent) :
    (∃ s', step cfg s e = .ok s') ↔
      HashesCover s.download.blockInfo (· ∈ s.download.receivers) e := by
  cases e with
  | dispatch now => exact iff_of_true ⟨_, rfl⟩ trivial
  | expire now => exact iff_of_true ⟨_, rfl⟩ trivial
  | requestFailed peer => exact iff_of_true ⟨_, rfl⟩ trivial
  | response peer data =>
      have hover : ∀ r, s.download.receivers.lookup peer = some r → ∀ i : UInt32,
          ActiveDownload.Overruns s.download.blockInfo.blockHashes r.blocks i ↔
            ¬ (i.toNat < s.download.blockInfo.blockCount.toNat →
              i.toNat < s.download.blockInfo.blockHashes.length) := by
        intro r hr i
        rw [ActiveDownload.Overruns, hwf.slotsFit peer r hr, UInt32.ofNat_toNat,
          UInt32.lt_iff_toNat_lt, Classical.not_imp, Nat.not_lt]
      simp only [step, recordBlockResponse, HashesCover]
      rcases ActiveDownload.recordBlocks_cases s.download peer (decodeBlockData data) with
        ⟨hr, heq⟩ | ⟨r, hr, ⟨b, hb, hb'⟩, heq⟩ | ⟨r, slots, new, hr, -, hall, heq⟩
      · rw [heq]
        refine iff_of_true ⟨_, rfl⟩ fun hmem => ?_
        rw [← AList.lookup_isSome, hr] at hmem
        cases hmem
      · rw [heq]
        refine iff_of_false (fun h => by obtain ⟨_, h⟩ := h; cases h) fun h => ?_
        have hknown : peer ∈ s.download.receivers := by
          rw [← AList.lookup_isSome, hr]
          rfl
        exact (hover r hr b.1).mp hb' (h hknown ⟨b.1, b.2⟩ (mem_decodeBlockData.mp hb))
      · rw [heq]
        refine iff_of_true ⟨_, rfl⟩ fun _ bd hbd => ?_
        have hno := hall (bd.index, bd.data) (mem_decodeBlockData.mpr hbd)
        rw [hover r hr] at hno
        exact not_not.mp hno

/-- **Which runs panic**: those with a response of one of the download's peers that
overruns the hash list. -/
theorem run_ok_iff_hashesCover (hstart : Started narHashHex narSize blockInfo handshakes s₀)
    (cfg : FetchConfig) (events : List FetchEvent) :
    (∃ s, Machine.run (step cfg) s₀ events = .ok s) ↔
      ∀ e ∈ events, HashesCover blockInfo (fun p => ∃ hs ∈ handshakes, hs.peer = p) e := by
  refine Machine.run_ok_iff
    (J := fun s => s.WellFormed ∧ s.download.blockInfo = blockInfo ∧
      ∀ p, p ∈ s.download.receivers ↔ ∃ hs ∈ handshakes, hs.peer = p)
    (fun a e b ha hab => ⟨step_wellFormed cfg a e b ha.1 hab, step_fields ha.2 hab⟩)
    (fun a e ha => ?_) ⟨hstart.wellFormed, hstart.blockInfo_eq, hstart.receivers_mem⟩
  rw [step_ok_iff ha.1 cfg e, ha.2.1]
  simp only [ha.2.2]

/-- With a hash for every block, nothing a peer sends makes the download panic. -/
theorem run_ok_of_hashes (hstart : Started narHashHex narSize blockInfo handshakes s₀)
    (hhashes : blockInfo.blockCount.toNat ≤ blockInfo.blockHashes.length)
    (cfg : FetchConfig) (events : List FetchEvent) :
    ∃ s, Machine.run (step cfg) s₀ events = .ok s := by
  refine (run_ok_iff_hashesCover hstart cfg events).mpr fun e _ => ?_
  cases e with
  | response peer data => exact fun _ bd _ hlt => hlt.trans_le hhashes
  | dispatch now => trivial
  | expire now => trivial
  | requestFailed peer => trivial

end BlockDownload

/-! ### Slots and the blocks they stand for -/

/-- A slot in use at `p` is a block that `p` still owes. -/
def Scheduler.SlotsOwed (s : Scheduler) : Prop :=
  ∀ p, ∀ k ∈ s.slots p, ∃ t, s.blockStates[k.toNat]? = some (.inFlight p t)

namespace Scheduler

theorem SlotsOwed.move {m : Nat} {s t : Scheduler} (hsize : s.blockStates.length ≤ 2 ^ 32)
    (hs : s.SlotsOwed) (h : Move m s t) : t.SlotsOwed := by
  have hlt : ∀ {i st}, s.blockStates[i]? = some st → i < 2 ^ 32 := fun hi =>
    lt_of_lt_of_le (List.getElem?_eq_some_iff.mp hi).1 hsize
  intro p k hk
  cases h with
  | @assign idx peer now st hpending hst hfree hadv =>
      -- the pending block `idx` had no slot, so every other slot keeps its block
      have hother : k ∈ s.slots p →
          ∃ u, (s.assign idx peer now).blockStates[k.toNat]? = some (.inFlight p u) := by
        intro hold
        obtain ⟨u, hu⟩ := hs p k hold
        refine ⟨u, ?_⟩
        rw [getElem?_assign_of_ne]
        · exact hu
        · intro he
          rw [← he, hpending] at hu
          cases hu
      by_cases hp : p = peer
      · subst hp
        rw [slots_assign_self hst] at hk
        rcases Finset.mem_insert.mp hk with rfl | hold
        · rw [UInt32.toNat_ofNat_of_lt' (hlt hpending)]
          exact ⟨now, getElem?_assign_self hpending⟩
        · exact hother hold
      · rw [slots_assign_of_ne hp] at hk
        exact hother hk
  | @release idx peer requestedAt penalty hin =>
      rw [slots_release] at hk
      by_cases hp : p = peer
      · rw [if_pos hp] at hk
        obtain ⟨hne, hold⟩ := Finset.mem_erase.mp hk
        obtain ⟨u, hu⟩ := hs p k hold
        refine ⟨u, ?_⟩
        rw [getElem?_release_of_ne]
        · exact hu
        · intro he
          exact hne (by rw [he]; exact (UInt32.ofNat_toNat).symm)
      · rw [if_neg hp] at hk
        obtain ⟨u, hu⟩ := hs p k hk
        refine ⟨u, ?_⟩
        rw [getElem?_release_of_ne]
        · exact hu
        · intro he
          rw [← he, hin] at hu
          obtain ⟨rfl, -⟩ : peer = p ∧ requestedAt = u := by simpa using hu
          exact hp rfl
  | @penalize peer =>
      rw [slots_penalize] at hk
      exact hs p k hk

/-- A response keeps every slot owed exactly when the blocks it completes were
pending, complete already, or in flight to the sender. -/
theorem slotsOwed_afterResponse_iff {m : Nat} {s : Scheduler}
    (hassigned : s.Assigned m) (hs : s.SlotsOwed) {peer : PeerId}
    {blocks : List (UInt32 × Bytes)} {accepted : List UInt32}
    (hnamed : ∀ a ∈ accepted, ∃ b ∈ blocks, b.1 = a) :
    (s.afterResponse peer blocks accepted).SlotsOwed ↔
      ∀ a ∈ accepted, ∀ q t, s.blockStates[a.toNat]? = some (.inFlight q t) → q = peer := by
  constructor
  · intro howed a ha q t hin
    by_contra hq
    -- `q` still has the slot, but the block is complete
    have hslot : UInt32.ofNat a.toNat ∈ (s.afterResponse peer blocks accepted).slots q :=
      mem_slots_afterResponse.mpr ⟨hassigned.slot _ q t hin, fun he => absurd he hq⟩
    rw [UInt32.ofNat_toNat] at hslot
    obtain ⟨u, hu⟩ := howed q a hslot
    rw [getElem?_afterResponse, hin] at hu
    simp [responseState, show AcceptedAt accepted a.toNat from ⟨a, ha, rfl⟩] at hu
  · intro hown p k hk
    obtain ⟨hold, hkept⟩ := mem_slots_afterResponse.mp hk
    obtain ⟨t, ht⟩ := hs p k hold
    refine ⟨t, ?_⟩
    have hnot : ¬ AcceptedAt accepted k.toNat := by
      intro h
      obtain ⟨a, ha, hak⟩ := h
      obtain rfl := UInt32.toNat_inj.mp hak
      obtain ⟨b, hb, hba⟩ := hnamed a ha
      exact hkept (hown a ha p t ht) b hb hba
    rw [getElem?_afterResponse, ht, Option.map_some, Option.some.injEq, responseState, if_neg hnot]
    split
    next hn =>
      obtain ⟨b, hb, hbk⟩ := hn
      have hp : p ≠ peer := fun he => hkept he b hb (UInt32.toNat_inj.mp hbk)
      simp [BlockFetchState.retry, hp]
    next => rfl

theorem inFlightTotal_eq_zero_iff {s : Scheduler} :
    s.inFlightTotal = 0 ↔ ∀ p, s.slots p = ∅ := by
  rw [inFlightTotal, List.sum_eq_zero_iff_forall_eq_nat]
  constructor
  · intro hall p
    unfold slots
    cases hst : s.peerStates.lookup p with
    | none => rfl
    | some st =>
        have hcard := hall _ (List.mem_map_of_mem (Table.mem_values.mpr ⟨p, hst⟩))
        exact Finset.card_eq_zero.mp hcard
  · intro hall n hn
    obtain ⟨st, hst, rfl⟩ := List.mem_map.mp hn
    obtain ⟨p, hp⟩ := Table.mem_values.mp hst
    rw [← slots_of_lookup hp, hall p, Finset.card_empty]

/-- With consistent tables, no slot is in use exactly when no block is in flight. -/
theorem inFlightTotal_eq_zero_iff_of_owed {m : Nat} {s : Scheduler} (hassigned : s.Assigned m)
    (howed : s.SlotsOwed) :
    s.inFlightTotal = 0 ↔ ∀ (i : Nat) p t, s.blockStates[i]? ≠ some (.inFlight p t) := by
  rw [inFlightTotal_eq_zero_iff]
  constructor
  · intro hempty i p t hi
    have hslot := hassigned.slot i p t hi
    rw [hempty p] at hslot
    exact absurd hslot (Finset.notMem_empty _)
  · intro hnone p
    refine Finset.eq_empty_of_forall_notMem fun k hk => ?_
    obtain ⟨t, ht⟩ := howed p k hk
    exact hnone _ p t ht

end Scheduler

namespace BlockDownload

variable [Sha256] {narHashHex : Text} {narSize : UInt64} {blockInfo : BlockInfo}
  {handshakes : List PeerHandshake} {cfg : FetchConfig} {s : BlockDownload}

omit [Sha256] in
theorem Started.slotsOwed (h : Started narHashHex narSize blockInfo handshakes s) :
    s.sched.SlotsOwed := by
  intro p k hk
  rw [h.slots_eq_empty p] at hk
  exact absurd hk (Finset.notMem_empty k)

/-- The event completes no block that is in flight to somebody else than the sender. -/
def NoLateCompletion (s : BlockDownload) : FetchEvent → Prop
  | .response peer data =>
    ∀ r, s.download.receivers.lookup peer = some r → ∀ bd ∈ data,
      ActiveDownload.Acceptable s.download.blockInfo.blockHashes r.blocks bd.index bd.data →
      ∀ q t, s.sched.blockStates[bd.index.toNat]? = some (.inFlight q t) → q = peer
  | _ => True

/-- What one event needs to keep every slot owed: that it is no late completion. -/
theorem step_slotsOwed_iff {m : Nat} {s s' : BlockDownload} {e : FetchEvent} (hwf : s.WellFormed)
    (hassigned : s.sched.Assigned m) (hs : s.sched.SlotsOwed) (h : step cfg s e = .ok s') :
    s'.sched.SlotsOwed ↔ s.NoLateCompletion e := by
  rcases step_cases h with ⟨sched, hno, hmoves, rfl⟩ |
    ⟨peer, data, download, accepted, rfl, hrec, rfl⟩
  · have hkeep : sched.blockStates.length ≤ 2 ^ 32 ∧ sched.SlotsOwed :=
      Scheduler.Moves.invariant (P := fun t => t.blockStates.length ≤ 2 ^ 32 ∧ t.SlotsOwed)
        (fun t u hmove ht => ⟨hmove.length_eq.trans_le ht.1, ht.2.move ht.1 hmove⟩)
        hmoves ⟨hwf.length_le, hs⟩
    refine iff_of_true hkeep.2 ?_
    cases e with
    | response peer data => exact absurd rfl (hno peer data)
    | dispatch now => trivial
    | expire now => trivial
    | requestFailed peer => trivial
  · have hacc := ActiveDownload.mem_accepted_iff hrec
    have hnamed : ∀ a ∈ accepted, ∃ b ∈ decodeBlockData data, b.1 = a := by
      intro a ha
      obtain ⟨_, d, -, hmem, -⟩ := (hacc a).mp ha
      exact ⟨(a, d), hmem, rfl⟩
    rw [Scheduler.slotsOwed_afterResponse_iff hassigned hs hnamed]
    constructor
    · intro hown r hr bd hbd hok
      exact hown bd.index ((hacc bd.index).mpr ⟨r, bd.data, hr, mem_decodeBlockData.mpr hbd, hok⟩)
    · intro hlate a ha
      obtain ⟨r, d, hr, hmem, hok⟩ := (hacc a).mp ha
      exact hlate r hr ⟨a, d⟩ (mem_decodeBlockData.mp hmem) hok

end BlockDownload

/-! ### Requests -/

theorem mem_lookup_pushBatch {batches : Table PeerId (List UInt32)} {peer p : PeerId}
    {idx k : UInt32} {l : List UInt32} (h : (pushBatch batches peer idx).lookup p = some l)
    (hk : k ∈ l) : k = idx ∨ ∃ l', batches.lookup p = some l' ∧ k ∈ l' := by
  unfold pushBatch at h
  cases hb : batches.lookup peer with
  | none =>
      rw [hb] at h
      by_cases hp : p = peer
      · subst hp
        rw [AList.lookup_insert] at h
        obtain rfl := Option.some.inj h
        exact Or.inl (List.mem_singleton.mp hk)
      · rw [AList.lookup_insert_ne hp] at h
        exact Or.inr ⟨l, h, hk⟩
  | some l₀ =>
      rw [hb] at h
      dsimp only at h
      by_cases hp : p = peer
      · subst hp
        rw [Table.lookup_modify_self, hb] at h
        obtain rfl := Option.some.inj h
        rcases List.mem_append.mp hk with hold | hnew
        · exact Or.inr ⟨l₀, hb, hold⟩
        · exact Or.inl (List.mem_singleton.mp hnew)
      · rw [Table.lookup_modify_of_ne hp] at h
        exact Or.inr ⟨l, h, hk⟩

/-- Along a dispatch that began in `s`: what is pending was pending at the start, and
so was what has been batched. -/
def PendingOnly (s : Scheduler) (acc : Scheduler × Table PeerId (List UInt32)) : Prop :=
  (∀ j : Nat, acc.1.blockStates[j]? = some .pending → s.blockStates[j]? = some .pending) ∧
    ∀ p l, acc.2.lookup p = some l → ∀ k ∈ l, s.blockStates[k.toNat]? = some .pending

/-- Only blocks that were pending are requested. -/
theorem dispatchBlockRequests_pending {s : Scheduler} (hsize : s.blockStates.length ≤ 2 ^ 32)
    {now : Instant} {m : Nat} {p : PeerId} {l : List UInt32}
    (h : (dispatchBlockRequests s now m).2.lookup p = some l) {k : UInt32} (hk : k ∈ l) :
    s.blockStates[k.toNat]? = some .pending := by
  have hinv : PendingOnly s (dispatchBlockRequests s now m) := by
    refine List.foldlRecOn _ _ ?_ fun acc hacc idx hidx => ?_
    · refine ⟨fun j hj => hj, fun p l hl => ?_⟩
      rw [AList.lookup_empty] at hl
      cases hl
    · unfold dispatchBlock
      split
      next hpending =>
        cases hc : choosePeer acc.1.peerStates m (UInt32.ofNat idx) with
        | none => exact hacc
        | some peer =>
            have hwas := hacc.1 idx hpending
            have hlt : idx < 2 ^ 32 := (List.mem_range.mp hidx).trans_le hsize
            refine ⟨fun j hj => ?_, fun p l hl k hk => ?_⟩
            · by_cases hidx' : idx = j
              · exact hidx' ▸ hwas
              · rw [Scheduler.getElem?_assign_of_ne hidx'] at hj
                exact hacc.1 j hj
            · rcases mem_lookup_pushBatch hl hk with rfl | ⟨l', hl', hk'⟩
              · rw [UInt32.toNat_ofNat_of_lt' hlt]
                exact hwas
              · exact hacc.2 p l' hl' k hk'
      next => exact hacc
  exact hinv.2 p l h k hk

end GuixP2p
