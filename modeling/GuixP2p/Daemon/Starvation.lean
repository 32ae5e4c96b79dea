import GuixP2p.Daemon.BlockLoss
import GuixP2p.Daemon.Liveness

/-!
# GuixP2p.Daemon.Starvation

**A reliable network never starves a download.** The loop waits for answers as long as a slot is in
use, whether or not the peer still owes a block for it. If requests leave the network only by being
answered, every slot in use stands for a request that is on its way, and a loop with blocks missing
has a slot in use: there is always an answer to wait for. So the fairness that `fair_download_succeeds`
asks of the environment is no more than that what is on its way arrives.

A request that fails is not covered: it leaves the network without an answer, and a slot whose block
came from somebody else stays in use.
-/

namespace GuixP2p

open GuixP2p.Lib

/-- Along a dispatch, the slots taken are those of the requests batched. -/
theorem slots_dispatch (s : Scheduler) (now : Instant) (maxInFlight : Nat) {p : PeerId} {k : UInt32}
    (h : k ∈ (dispatchBlockRequests s now maxInFlight).1.slots p) :
    k ∈ s.slots p ∨ ∃ l, (dispatchBlockRequests s now maxInFlight).2.lookup p = some l ∧ k ∈ l := by
  have hinv : ∀ p k, k ∈ (dispatchBlockRequests s now maxInFlight).1.slots p →
      k ∈ s.slots p ∨ ∃ l, (dispatchBlockRequests s now maxInFlight).2.lookup p = some l ∧ k ∈ l := by
    refine List.foldlRecOn _ _ (motive := fun acc : Scheduler × Table PeerId (List UInt32) =>
      ∀ p k, k ∈ acc.1.slots p → k ∈ s.slots p ∨ ∃ l, acc.2.lookup p = some l ∧ k ∈ l) ?_ fun acc hacc idx _ => ?_
    · exact fun p k hk => Or.inl hk
    · rcases @dispatchBlock_cases now maxInFlight acc idx with
        ⟨-, hsame⟩ | ⟨-, hsame⟩ | ⟨peer, -, hleast, hnew⟩
      · rwa [hsame]
      · rwa [hsame]
      · rw [hnew]
        obtain ⟨st, heligible, -⟩ := hleast
        intro p k hk
        rw [mem_pushBatch]
        by_cases hp : p = peer
        · subst hp
          rw [Scheduler.slots_assign_self heligible.lookup] at hk
          rcases Finset.mem_insert.mp hk with rfl | hold
          · exact Or.inr (Or.inl ⟨rfl, rfl⟩)
          · exact (hacc p k hold).imp_right Or.inr
        · rw [Scheduler.slots_assign_of_ne hp] at hk
          exact (hacc p k hk).imp_right Or.inr
  exact hinv p k h

namespace Transfer

/-- A slot in use at `p` stands for a request to `p` that is among `net`. -/
def Backed (s : Scheduler) (net : Multiset (PeerId × BlockRequest)) : Prop :=
  ∀ p, ∀ k ∈ s.slots p, ∃ request, (p, request) ∈ net ∧ k ∈ request.indices

/-- Only a request that is answered in the turn leaves the network. -/
inductive Reliable [Sha256] (ps : Providers) (cfg : Config) (narHash : Digest) (x : Transfer) (e : TransferEvent) : Prop
  | kept : e.gone = 0 → Reliable ps cfg narHash x e
  | answered (peer : PeerId) (request : BlockRequest) (response : BlockResponse) :
      e.gone = {(peer, request)} → (peer, request) ∈ x.outstanding cfg narHash e.turn →
      (ps.store peer).handleRequest (ps.files peer) request = .ok (some response) →
      e.turn.waited = .note (.blockResponse peer response) → Reliable ps cfg narHash x e

section

variable {cfg : Config} {narHash : Digest} {x y : Transfer} {t : Turn} {e : TransferEvent}

theorem Backed.prepare (h : Backed x.loop.fetch.sched x.net) (narHash : Digest) (t : Turn) :
    Backed (FetchLoop.prepare cfg x.loop.fetch t).sched (x.outstanding cfg narHash t) := by
  intro p k hk
  rcases slots_dispatch _ _ _ hk with hold | ⟨l, hl, hk⟩
  · have hexpired := requeueExpiredBlocks_released x.loop.fetch.sched t.expireAt cfg.fetch.blockTimeout
    obtain ⟨request, hmem, hin⟩ := h p k ((hexpired.slots p k).mp hold).1
    exact ⟨request, Multiset.mem_add.mpr (Or.inl hmem), hin⟩
  · exact ⟨_, Multiset.mem_add.mpr (Or.inr (Multiset.mem_coe.mpr (mem_batchRequests.mpr ⟨l, hl, rfl⟩))), hk⟩

variable [Sha256] {ps : Providers} {data : Bytes} {overallDeadline : Instant}

/-- The turn that goes on is what its wait brings to the prepared loop. -/
theorem turn_none_inv {l l' : FetchLoop} (h : l.turn cfg overallDeadline t = .ok (l', none)) :
    FetchLoop.onWaited cfg { l with fetch := FetchLoop.prepare cfg l.fetch t } t = .ok (l', none) := by
  unfold FetchLoop.turn at h
  split at h
  · cases Except.ok.inj h
  · dsimp only at h
    split at h
    · cases Except.ok.inj h
    · split at h
      · cases Except.ok.inj h
      · exact h

/-- What a wait does to the slots: a response frees those it names, at its sender; nothing is taken. -/
theorem slots_onWaited {l l' : FetchLoop} (h : l.onWaited cfg t = .ok (l', none)) {p : PeerId} {k : UInt32}
    (hk : k ∈ l'.fetch.sched.slots p) :
    k ∈ l.fetch.sched.slots p ∧ ∀ peer blocks, t.waited = .note (.blockResponse peer (.blocks blocks)) →
      p = peer → ∀ bd ∈ blocks, bd.index ≠ k := by
  unfold FetchLoop.onWaited at h
  cases hw : t.waited with
  | closed => rw [hw] at h; cases Except.ok.inj h
  | elapsed =>
      rw [hw] at h
      obtain ⟨rfl, -⟩ := Prod.mk.inj (Except.ok.inj h)
      exact ⟨hk, nofun⟩
  | note n =>
      rw [hw] at h
      cases n with
      | providersFound hash peers =>
          obtain ⟨rfl, -⟩ := Prod.mk.inj (Except.ok.inj h)
          exact ⟨hk, nofun⟩
      | blockRequestFailed peer =>
          obtain ⟨rfl, -⟩ := Prod.mk.inj (Except.ok.inj h)
          obtain ⟨acc, hacc, heq⟩ := requeueInFlightBlocksForPeer_released l.fetch.sched peer
          have hslots : (requeueInFlightBlocksForPeer l.fetch.sched peer).1.slots p = acc.1.slots p := by
            rw [heq]
            split
            · exact Scheduler.slots_penalize peer p
            · rfl
          dsimp only at hk
          rw [hslots, hacc.slots] at hk
          exact ⟨hk.1, nofun⟩
      | blockResponse peer response =>
          cases response with
          | handshakeReply available count size hashes =>
              obtain ⟨rfl, -⟩ := Prod.mk.inj (Except.ok.inj h)
              exact ⟨hk, nofun⟩
          | error message =>
              obtain ⟨rfl, -⟩ := Prod.mk.inj (Except.ok.inj h)
              exact ⟨hk, nofun⟩
          | blocks data =>
              obtain ⟨download, accepted, hsched⟩ : ∃ (download : ActiveDownload) (accepted : List UInt32),
                  l'.fetch = ⟨download, l.fetch.sched.afterResponse peer (decodeBlockData data) accepted⟩ := by
                unfold FetchLoop.onBlocks at h
                unfold recordBlockResponse at h
                cases hrec : l.fetch.download.recordBlocks peer (decodeBlockData data) with
                | error panic => simp [hrec] at h
                | ok r =>
                    obtain ⟨download, accepted⟩ := r
                    simp only [hrec] at h
                    refine ⟨download, accepted, ?_⟩
                    split at h
                    · cases h
                    all_goals
                      obtain ⟨rfl, -⟩ := Prod.mk.inj (Except.ok.inj h)
                      rfl
              rw [hsched, mem_slots_afterResponse] at hk
              refine ⟨hk.1, fun peer' blocks hw' hp bd hbd => ?_⟩
              obtain ⟨rfl, rfl⟩ : peer = peer' ∧ data = blocks := by simpa using hw'
              exact hk.2 hp (bd.index, bd.data) (mem_decodeBlockData.mpr hbd)

/-- **Step lemma.** -/
theorem step_backed {handshakes : List PeerHandshake} (hmem : data.length < 2 ^ 63)
    (hhonest : HonestRun ps data cfg.blockSize handshakes [])
    (hasks : ∀ q ∈ x.outstanding cfg (Sha256.digest data) e.turn,
      Asks (Sha256.digest data) (chunkCount data.length cfg.blockSize.toNat) handshakes q)
    (hx : Backed x.loop.fetch.sched x.net) (hreliable : Reliable ps cfg (Sha256.digest data) x e)
    (h : step cfg overallDeadline (Sha256.digest data) x e = .ok y) : Backed y.loop.fetch.sched y.net := by
  obtain ⟨hturn, hnet⟩ := step_inv h
  have hwaited := turn_none_inv hturn
  intro p k hk
  obtain ⟨hold, hnamed⟩ := slots_onWaited hwaited hk
  obtain ⟨request, hout, hin⟩ := hx.prepare (Sha256.digest data) e.turn p k hold
  refine ⟨request, ?_, hin⟩
  rw [hnet]
  cases hreliable with
  | kept hgone => rwa [hgone, Multiset.sub_zero]
  | answered peer answered response hgone hout' hreply hw =>
      rw [hgone, Multiset.sub_singleton]
      refine (Multiset.mem_erase_of_ne ?_).mpr hout
      intro hsame
      obtain ⟨rfl, rfl⟩ := Prod.mk.inj hsame
      -- the answer names the block, so the slot is free
      obtain ⟨⟨hs, hhs, rfl⟩, indices, rfl, hlt⟩ := hasks _ hout
      have hne : indices ≠ [] := List.ne_nil_of_mem hin
      rw [hhonest.getBlocks hmem hhs hne hlt] at hreply
      obtain rfl := Option.some.inj (Except.ok.inj hreply)
      exact hnamed hs.peer _ hw rfl ⟨k, _⟩ (List.mem_map_of_mem hin) rfl

end

section

variable [Sha256] {ps : Providers} {cfg : Config} {data : Bytes} {narSize : UInt64} {overallDeadline : Instant}
  {first : PeerHandshake} {rest : List PeerHandshake} {es : List TransferEvent} {y : Transfer}

/-- **A reliable network never starves a download.** In every run in which requests leave the network
only by being answered, at any time and in any order, each slot in use is that of a request on its
way, and as long as a block is missing, some request is on its way that its peer has an answer to. -/
theorem never_starves (world : DownloadWorld) (hne : data ≠ []) (hmem : data.length < 2 ^ 63)
    (hb : 0 < cfg.blockSize) (hcount : chunkCount data.length cfg.blockSize.toNat < 2 ^ 32)
    (hsize : narSize = UInt64.ofNat data.length ∨ narSize = 0)
    (hhonest : HonestRun ps data cfg.blockSize (first :: rest) [])
    (hreliable : Machine.Meets (step cfg overallDeadline (Sha256.digest data))
      (Reliable ps cfg (Sha256.digest data))
      (entered cfg world (first :: rest) narSize (downloadBlockInfo narSize cfg.blockSize hb first)
        (Sha256.digest data)) es)
    (hrun : Machine.run (step cfg overallDeadline (Sha256.digest data))
      (entered cfg world (first :: rest) narSize (downloadBlockInfo narSize cfg.blockSize hb first)
        (Sha256.digest data)) es = .ok y) (t : Turn) :
    Backed (FetchLoop.prepare cfg y.loop.fetch t).sched (y.outstanding cfg (Sha256.digest data) t) ∧
      ((missing (FetchLoop.prepare cfg y.loop.fetch t).sched).Nonempty →
        ∃ peer request blocks, (peer, request) ∈ y.outstanding cfg (Sha256.digest data) t ∧
          (ps.store peer).handleRequest (ps.files peer) request = .ok (some (.blocks blocks)) ∧
          blocks.map BlockData.index = request.indices) := by
  have hgen := genuine_of_honest hne hmem hb hcount hsize hhonest
  obtain ⟨s₀, hstarted, hentered⟩ := entered_eq cfg world (first :: rest) narSize
    (downloadBlockInfo narSize cfg.blockSize hb first) (Sha256.digest data)
  have hsound := sound_entered world.dispatchAt (afterSecs world.stallAt cfg.stallTimeoutSecs) hgen hstarted
  rw [hentered] at hrun hreliable
  have hslots : Backed (dispatchBlockRequests s₀.sched world.dispatchAt cfg.fetch.maxInFlight).1
      (batchRequests (Sha256.digest data).toList
        (dispatchBlockRequests s₀.sched world.dispatchAt cfg.fetch.maxInFlight).2) := by
    intro p k hk
    rcases slots_dispatch _ _ _ hk with hold | ⟨l, hl, hk⟩
    · rw [hstarted.slots_eq_empty p] at hold
      exact absurd hold (Finset.notMem_empty k)
    · exact ⟨_, Multiset.mem_coe.mpr (mem_batchRequests.mpr ⟨l, hl, rfl⟩), hk⟩
  have hstep : ∀ x e y, (FetchLoop.Reaches cfg s₀ x.loop.fetch ∧
        (∀ q ∈ x.net, Asks (Sha256.digest data) (chunkCount data.length cfg.blockSize.toNat) (first :: rest) q) ∧
        Backed x.loop.fetch.sched x.net) → Reliable ps cfg (Sha256.digest data) x e →
      step cfg overallDeadline (Sha256.digest data) x e = .ok y →
      FetchLoop.Reaches cfg s₀ y.loop.fetch ∧
        (∀ q ∈ y.net, Asks (Sha256.digest data) (chunkCount data.length cfg.blockSize.toNat) (first :: rest) q) ∧
        Backed y.loop.fetch.sched y.net := by
    intro x e y hx hr h
    obtain ⟨hturn, hnet⟩ := step_inv h
    have hasks' := asks_of_outstanding (t := e.turn) hgen hstarted hx.1 hx.2.1
    refine ⟨hx.1.trans (FetchLoop.reaches_turn hturn), fun q hq => ?_, step_backed hmem hhonest hasks' hx.2.2 hr h⟩
    rw [hnet] at hq
    exact hasks' q (Multiset.mem_of_le (Multiset.sub_le_self _ _) hq)
  obtain ⟨hreach, hasks, hbacked⟩ := Machine.run_guarded_invariant hstep
    ⟨hsound.reached, hsound.asks, hslots⟩ hreliable hrun
  have hasks' := asks_of_outstanding (t := t) hgen hstarted hreach hasks
  refine ⟨hbacked.prepare (Sha256.digest data) t, fun hmissing => ?_⟩
  obtain ⟨i, hi⟩ := hmissing
  rw [mem_missing] at hi
  -- some slot is in use, and its request asks for blocks of the NAR
  have hbusy : (FetchLoop.prepare cfg y.loop.fetch t).sched.inFlightTotal ≠ 0 := by
    intro hzero
    have hall := in_flight_of_prepared hgen hstarted hreach t hzero
    refine hi.2 ?_
    rw [List.getElem?_eq_getElem hi.1, hall _ (List.getElem_mem hi.1)]
  rw [ne_eq, Scheduler.inFlightTotal_eq_zero_iff, not_forall] at hbusy
  obtain ⟨p, hp⟩ := hbusy
  obtain ⟨k, hk⟩ := Finset.nonempty_iff_ne_empty.mpr hp
  obtain ⟨request, hout, hin⟩ := hbacked.prepare (Sha256.digest data) t p k hk
  obtain ⟨⟨hs, hhs, rfl⟩, indices, rfl, hlt⟩ := hasks' _ hout
  have hne : indices ≠ [] := List.ne_nil_of_mem hin
  exact ⟨hs.peer, _, _, hout, hhonest.getBlocks hmem hhs hne hlt, by simp [BlockRequest.indices, Function.comp_def]⟩

end

/-- A second passes in which nothing arrives. -/
def idleEvent : TransferEvent where
  turn := { sampleEvent.turn with waited := .elapsed }
  gone := 0

/-- After a turn without answer, both blocks are still on their way. -/
theorem never_starves_sample :
    ∃ y, Machine.run (@step sampleSha256 fetchConfig (deadline fetchConfig sampleWorld.download 8)
        (sampleSha256.digest (sampleNar ++ sampleTail))) sampleEntered [idleEvent] = .ok y ∧
      Backed (FetchLoop.prepare fetchConfig y.loop.fetch idleEvent.turn).sched
        (y.outstanding fetchConfig (sampleSha256.digest (sampleNar ++ sampleTail)) idleEvent.turn) := by
  have hgoes : (Machine.run (@step sampleSha256 fetchConfig (deadline fetchConfig sampleWorld.download 8)
      (sampleSha256.digest (sampleNar ++ sampleTail))) sampleEntered [idleEvent]).toBool = true := by
    decide +kernel
  cases hrun : Machine.run (@step sampleSha256 fetchConfig (deadline fetchConfig sampleWorld.download 8)
      (sampleSha256.digest (sampleNar ++ sampleTail))) sampleEntered [idleEvent] with
  | error f => rw [hrun] at hgoes; cases hgoes
  | ok y =>
      refine ⟨y, rfl, (@never_starves sampleSha256 BlockDownload.sampleProviders fetchConfig
        (sampleNar ++ sampleTail) 8 _ BlockDownload.twoBlockHandshake [] [idleEvent] y sampleWorld.download
        (by decide) (by decide) BlockInfo.four_pos (by decide) (Or.inl rfl)
        (@HonestRun.handshaken sampleSha256 _ _ _ _ _ BlockDownload.twoBlock_honest) ?_ hrun idleEvent.turn).1⟩
      exact Machine.meets_of_forall (fun e he _ => by
        obtain rfl := List.mem_singleton.mp he
        exact @Reliable.kept sampleSha256 _ _ _ _ _ rfl) _

end Transfer

end GuixP2p
