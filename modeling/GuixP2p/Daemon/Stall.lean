import GuixP2p.Daemon.BlockLoss
import GuixP2p.Daemon.DownloadLoop

/-!
# GuixP2p.Daemon.Stall

**Expiry against the stall guard.** A block request expires after the same time without answer after
which, counted from the last accepted block, the stall guard ends the loop. So a block that was
requested after the last accepted one is taken back in the very turn that the guard ends, however
many other peers have it. The guard cuts off nobody in a run where, by the time it is due, the
peers that could take over are busy or have been asked (`Exhausted`).

Who has been asked for what is no part of the loop's state; `AskedLoop` records it beside the loop.
-/

namespace GuixP2p

open GuixP2p.Lib

/-! ### The loop with a record of its requests -/

/-- Who is asked for what by some batches. -/
def askedIn (batches : Table PeerId (List UInt32)) : List (PeerId × UInt32) :=
  batches.entries.flatMap fun e => e.2.map fun k => (e.1, k)

/-- The download loop and the requests it has made so far. -/
structure AskedLoop where
  loop : FetchLoop
  asked : List (PeerId × UInt32)

namespace AskedLoop

/-- The blocks whose request has been out for the timeout when the turn looks at them. -/
def overdue (cfg : Config) (t : Turn) : PeerId → Instant → Bool :=
  fun _ requestedAt => decide (cfg.fetch.blockTimeout ≤ t.expireAt - requestedAt)

/-- The scheduler once the turn has taken back the overdue blocks. -/
def expired (cfg : Config) (s : AskedLoop) (t : Turn) : Scheduler :=
  (requeueExpiredBlocks s.loop.fetch.sched t.expireAt cfg.fetch.blockTimeout).1

/-- The requests made up to and including the turn's dispatch. -/
def askedUpTo (cfg : Config) (s : AskedLoop) (t : Turn) : List (PeerId × UInt32) :=
  s.asked ++ askedIn (dispatchBlockRequests (s.expired cfg t) t.dispatchAt cfg.fetch.maxInFlight).2

/-- The scheduler that the stall guard finds. -/
def atGuard (cfg : Config) (s : AskedLoop) (t : Turn) : Scheduler :=
  (FetchLoop.prepare cfg s.loop.fetch t).sched

variable [Sha256]

/-- One turn; a turn that ends the loop is an error. -/
def step (cfg : Config) (overallDeadline : Instant) (s : AskedLoop) (t : Turn) :
    Except (Panic ⊕ LoopExit) AskedLoop :=
  match s.loop.turn cfg overallDeadline t with
  | .error p => .error (.inl p)
  | .ok (_, some exit) => .error (.inr exit)
  | .ok (loop, none) => .ok ⟨loop, s.askedUpTo cfg t⟩

/-- The loop when `download_blocks_from_peers` enters it. -/
def first (cfg : Config) (fetch : BlockDownload) (dispatchAt stallAt : Instant) : AskedLoop where
  loop :=
    { fetch := { fetch with sched := (dispatchBlockRequests fetch.sched dispatchAt cfg.fetch.maxInFlight).1 }
      stallDeadline := afterSecs stallAt cfg.stallTimeoutSecs }
  asked := askedIn (dispatchBlockRequests fetch.sched dispatchAt cfg.fetch.maxInFlight).2

/-- The record changes nothing: the turns that did not end the loop are those of the loop itself. -/
theorem run_eq {cfg : Config} {overallDeadline : Instant} {s s' : AskedLoop} {ts : List Turn}
    (h : Machine.run (step cfg overallDeadline) s ts = .ok s') (later : List Turn) :
    FetchLoop.run cfg overallDeadline (ts ++ later) s.loop = FetchLoop.run cfg overallDeadline later s'.loop := by
  induction ts generalizing s with
  | nil =>
      obtain rfl : s = s' := by simpa using h
      rfl
  | cons t ts ih =>
      obtain ⟨u, hu, hrun⟩ := Machine.run_cons_inv h
      rw [List.cons_append, FetchLoop.run, ← ih hrun]
      unfold step at hu
      cases ht : s.loop.turn cfg overallDeadline t with
      | error p => rw [ht] at hu; cases hu
      | ok r =>
          obtain ⟨loop, exit⟩ := r
          rw [ht] at hu
          cases exit with
          | some e => cases hu
          | none =>
              obtain rfl := Except.ok.inj hu
              rfl

/-! ### What the guard may cut off -/

omit [Sha256]

/-- The turn takes a block back from one peer and gives it to another. -/
def Reassigned (cfg : Config) (s : AskedLoop) (t : Turn) : Prop :=
  ∃ (i : Nat) (p q : PeerId) (requestedAt : Instant), p ≠ q ∧
    s.loop.fetch.sched.blockStates[i]? = some (.inFlight p requestedAt) ∧
    cfg.fetch.blockTimeout ≤ t.expireAt - requestedAt ∧
    (s.atGuard cfg t).blockStates[i]? = some (.inFlight q t.dispatchAt)

/-- A block is out at a peer, and not for too long, while another peer could be asked for it and
never was. -/
def Untried (cfg : Config) (s : AskedLoop) (t : Turn) : Prop :=
  ∃ (i : Nat) (p q : PeerId) (requestedAt : Instant) (st : PeerFetchState), p ≠ q ∧
    (s.atGuard cfg t).blockStates[i]? = some (.inFlight p requestedAt) ∧
    t.expireAt - requestedAt < cfg.fetch.blockTimeout ∧
    Eligible (s.atGuard cfg t).peerStates cfg.fetch.maxInFlight (UInt32.ofNat i) q st ∧
    (q, UInt32.ofNat i) ∉ s.askedUpTo cfg t

/-- The peer advertises the block and has a slot that is free or held by an overdue block. -/
def Spare (cfg : Config) (s : AskedLoop) (t : Turn) (idx : UInt32) (q : PeerId) : Prop :=
  ∃ st, s.loop.fetch.sched.peerStates.lookup q = some st ∧ idx ∈ st.available ∧
    (st.inFlight.filter fun k => takenFrom (overdue cfg t) s.loop.fetch.sched k.toNat ≠ some q).card <
      cfg.fetch.maxInFlight

/-- Nobody is left to take over: not for an overdue block, whatever the others were asked before;
for a block that is still out, nobody who was not asked; and for a pending block at most one peer
that was not. -/
structure Exhausted (cfg : Config) (s : AskedLoop) (t : Turn) : Prop where
  overdue : ∀ i p requestedAt, s.loop.fetch.sched.blockStates[i]? = some (.inFlight p requestedAt) →
    cfg.fetch.blockTimeout ≤ t.expireAt - requestedAt → ∀ q, s.Spare cfg t (UInt32.ofNat i) q → q = p
  waiting : ∀ i p requestedAt, s.loop.fetch.sched.blockStates[i]? = some (.inFlight p requestedAt) →
    t.expireAt - requestedAt < cfg.fetch.blockTimeout → ∀ q, s.Spare cfg t (UInt32.ofNat i) q →
      q = p ∨ (q, UInt32.ofNat i) ∈ s.asked
  pending : ∀ i, s.loop.fetch.sched.blockStates[i]? = some .pending → ∀ p q, p ≠ q →
    s.Spare cfg t (UInt32.ofNat i) p → s.Spare cfg t (UInt32.ofNat i) q → (q, UInt32.ofNat i) ∈ s.asked

/-- The guard is due in the turn only when nobody is left to take over. -/
def DueWhenExhausted (cfg : Config) (s : AskedLoop) (t : Turn) : Prop :=
  s.loop.stallDeadline < t.stallAt → s.Exhausted cfg t

/-! ### One turn -/

section

variable {cfg : Config} {overallDeadline : Instant} {s : AskedLoop} {t : Turn}

theorem atGuard_eq : s.atGuard cfg t =
    (dispatchUpTo (s.expired cfg t) t.dispatchAt cfg.fetch.maxInFlight (s.expired cfg t).blockStates.length).1 :=
  rfl

theorem expired_released : ∃ n, ReleasedUpTo (overdue cfg t) 1 s.loop.fetch.sched
    s.loop.fetch.sched.blockStates.length (s.expired cfg t, n) :=
  ⟨_, requeueExpiredBlocks_released _ _ _⟩

/-- Dispatching makes no peer eligible. -/
theorem eligible_of_dispatchUpTo {sched : Scheduler} {now : Instant} {m n : Nat} {idx : UInt32} {q : PeerId}
    {st : PeerFetchState} (h : Eligible (dispatchUpTo sched now m n).1.peerStates m idx q st) :
    ∃ st', Eligible sched.peerStates m idx q st' := by
  induction n generalizing st with
  | zero => exact ⟨st, h⟩
  | succ n ih =>
      rw [dispatchUpTo_succ] at h
      rcases dispatchBlock_cases (dispatchUpTo sched now m n) n with
        ⟨-, hsame⟩ | ⟨-, hsame⟩ | ⟨peer, -, -, hnew⟩
      · rw [hsame] at h
        exact ih h
      · rw [hsame] at h
        exact ih h
      · rw [hnew] at h
        obtain ⟨st', hst'⟩ := h.of_assign
        exact ih hst'

/-- A peer that can be asked after the overdue blocks were taken back has a slot to spare. -/
theorem spare_of_eligible (hsize : s.loop.fetch.sched.blockStates.length ≤ 2 ^ 32) {idx : UInt32} {q : PeerId}
    {st : PeerFetchState} (h : Eligible (s.expired cfg t).peerStates cfg.fetch.maxInFlight idx q st) :
    s.Spare cfg t idx q := by
  obtain ⟨n, hrel⟩ := @expired_released cfg s t
  have hadv := hrel.advertised q
  rw [Scheduler.advertised_of_lookup h.lookup] at hadv
  obtain ⟨st₀, hst₀, havail⟩ := Option.map_eq_some_iff.mp hadv.symm
  refine ⟨st₀, hst₀, havail ▸ h.advertises, Nat.lt_of_le_of_lt (Finset.card_le_card fun k hk => ?_) h.free⟩
  obtain ⟨hk, hlive⟩ := Finset.mem_filter.mp hk
  rw [← Scheduler.slots_of_lookup h.lookup, hrel.slots, Scheduler.slots_of_lookup hst₀]
  refine ⟨hk, fun j hj htaken heq => hlive ?_⟩
  rw [← heq, UInt32.toNat_ofNat_of_lt' (Nat.lt_of_lt_of_le hj hsize)]
  exact htaken

/-- A block that is in flight after the dispatch was so before, or went to a peer with a slot to
spare. -/
theorem atGuard_inFlight (hsize : s.loop.fetch.sched.blockStates.length ≤ 2 ^ 32) {i : Nat} {p : PeerId}
    {requestedAt : Instant} (h : (s.atGuard cfg t).blockStates[i]? = some (.inFlight p requestedAt)) :
    (s.loop.fetch.sched.blockStates[i]? = some (.inFlight p requestedAt) ∧
        t.expireAt - requestedAt < cfg.fetch.blockTimeout) ∨
      (s.Spare cfg t (UInt32.ofNat i) p ∧
        ((∃ q r, s.loop.fetch.sched.blockStates[i]? = some (.inFlight q r) ∧
            cfg.fetch.blockTimeout ≤ t.expireAt - r) ∨
          s.loop.fetch.sched.blockStates[i]? = some .pending)) := by
  obtain ⟨n, hrel⟩ := @expired_released cfg s t
  have hlen : (s.expired cfg t).blockStates.length ≤ 2 ^ 32 := by
    have hmoves := requeueExpiredBlocks_moves s.loop.fetch.sched t.expireAt cfg.fetch.blockTimeout
      cfg.fetch.maxInFlight
    exact Scheduler.Moves.invariant (P := fun u => u.blockStates.length ≤ 2 ^ 32)
      (fun u v huv hu => huv.length_eq.trans_le hu) hmoves hsize
  have hdisp := @dispatchedUpTo (s.expired cfg t) t.dispatchAt cfg.fetch.maxInFlight hlen
    (s.expired cfg t).blockStates.length
  rw [atGuard_eq] at h
  by_cases hpending : (s.expired cfg t).blockStates[i]? = some .pending
  · -- the dispatch took the block, so the peer was eligible at its turn
    obtain ⟨p', hp', st, hst, -⟩ := hdisp.taken i ⟨hpending, by simp [h]⟩
    obtain rfl : p = p' := by
      have heq := h.symm.trans hp'
      simp only [Option.some.injEq, BlockFetchState.inFlight.injEq] at heq
      exact heq.1
    obtain ⟨st', hst'⟩ := eligible_of_dispatchUpTo hst
    refine Or.inr ⟨spare_of_eligible hsize hst', ?_⟩
    rw [hrel.blockStates] at hpending
    split at hpending
    next htaken =>
      obtain ⟨q, hq⟩ := Option.isSome_iff_exists.mp htaken.2
      obtain ⟨r, hin, hdue⟩ := takenFrom_eq_some_iff.mp hq
      exact Or.inl ⟨q, r, hin, of_decide_eq_true hdue⟩
    next => exact Or.inr hpending
  · rw [hdisp.others i hpending] at h
    have hin := h
    rw [hrel.blockStates] at hin
    split at hin
    next => cases hin
    next hnot =>
      refine Or.inl ⟨hin, Nat.lt_of_not_le fun hdue => hnot ⟨(List.getElem?_eq_some_iff.mp hin).1, ?_⟩⟩
      rw [takenFrom_eq_some_iff.mpr ⟨requestedAt, hin, decide_eq_true hdue⟩]
      rfl

/-- When nobody is left to take over, nothing is reassigned and nobody is left untried. -/
theorem Exhausted.cuts_nobody_off (hsize : s.loop.fetch.sched.blockStates.length ≤ 2 ^ 32)
    (h : s.Exhausted cfg t) : ¬ s.Reassigned cfg t ∧ ¬ s.Untried cfg t := by
  constructor
  · intro h'
    obtain ⟨i, p, q, r, hne, hin, hdue, hq⟩ := h'
    rcases atGuard_inFlight hsize hq with ⟨hsame, hlive⟩ | ⟨hspare, -⟩
    · -- a block that is still with `q` was not taken back from `p`
      obtain ⟨rfl, -⟩ : p = q ∧ r = t.dispatchAt := by simpa using hin.symm.trans hsame
      exact hne rfl
    · exact hne (h.overdue i p r hin hdue q hspare).symm
  · intro h'
    obtain ⟨i, p, q, r, st, hne, hin, -, hq, hunasked⟩ := h'
    rw [atGuard_eq] at hq
    obtain ⟨st', hst'⟩ := eligible_of_dispatchUpTo hq
    have hspare := spare_of_eligible hsize hst'
    have hnot : (q, UInt32.ofNat i) ∉ s.asked := fun hmem => hunasked (List.mem_append_left _ hmem)
    rcases atGuard_inFlight hsize hin with ⟨hsame, hlive⟩ | ⟨hspare', ⟨q', r', hin', hdue⟩ | hpending⟩
    · rcases h.waiting i p r hsame hlive q hspare with rfl | hasked
      · exact hne rfl
      · exact hnot hasked
    · -- the only peer with a slot to spare is the one the block was taken back from
      rw [h.overdue i q' r' hin' hdue p hspare', h.overdue i q' r' hin' hdue q hspare] at hne
      exact hne rfl
    · exact hnot (h.pending i hpending p q hne hspare' hspare)

end

end AskedLoop

/-! ### The guard over a run -/

section

variable [Sha256] {cfg : Config} {overallDeadline : Instant}

/-- The guard ends a turn only when it is due. -/
theorem FetchLoop.due_of_stalled {l l' : FetchLoop} {t : Turn}
    (h : l.turn cfg overallDeadline t = .ok (l', some .stalled)) : l.stallDeadline < t.stallAt := by
  by_contra hdue
  unfold FetchLoop.turn at h
  split at h
  · cases h
  · dsimp only at h
    rw [if_neg hdue] at h
    split at h
    · cases h
    · unfold FetchLoop.onWaited at h
      split at h
      · unfold FetchLoop.onBlocks at h
        split at h
        · cases h
        · dsimp only at h
          split at h <;> cases h
      all_goals cases h

namespace AskedLoop

theorem step_reaches {s s' : AskedLoop} {t : Turn} (h : step cfg overallDeadline s t = .ok s') :
    FetchLoop.Reaches cfg s.loop.fetch s'.loop.fetch := by
  unfold step at h
  cases ht : s.loop.turn cfg overallDeadline t with
  | error p => rw [ht] at h; cases h
  | ok r =>
      obtain ⟨loop, exit⟩ := r
      rw [ht] at h
      cases exit with
      | some e => cases h
      | none =>
          obtain rfl := Except.ok.inj h
          exact FetchLoop.reaches_turn ht

/-- **A silent peer stalls nobody who is left.** In a run in which the guard is due only when nobody
is left to take over, it never ends a turn that has just reassigned a block, and never one in which
another peer could still be asked. -/
theorem stall_guard_cuts_nobody_off {narHash : Text} {narSize : UInt64} {blockInfo : BlockInfo}
    {handshakes : List PeerHandshake} {fetch : BlockDownload} {dispatchAt stallAt : Instant} {ts before after : List Turn}
    {t : Turn} {s : AskedLoop} {l : FetchLoop}
    (hstart : (BlockDownload.start narHash narSize blockInfo handshakes).SameMaps fetch)
    (hguard : Machine.Meets (step cfg overallDeadline) (DueWhenExhausted cfg) (first cfg fetch dispatchAt stallAt) ts)
    (hts : ts = before ++ t :: after)
    (hrun : Machine.run (step cfg overallDeadline) (first cfg fetch dispatchAt stallAt) before = .ok s)
    (hstalled : s.loop.turn cfg overallDeadline t = .ok (l, some .stalled)) :
    ¬ s.Reassigned cfg t ∧ ¬ s.Untried cfg t := by
  subst hts
  have hexhausted := hguard.guard_of_run hrun (FetchLoop.due_of_stalled hstalled)
  -- the tables have the size the set-up gave them
  have hreach : FetchLoop.Reaches cfg fetch s.loop.fetch := by
    refine Machine.run_invariant (P := fun s : AskedLoop => FetchLoop.Reaches cfg fetch s.loop.fetch)
      (fun a e b ha hab => ha.trans (step_reaches hab)) ⟨[.dispatch dispatchAt], rfl⟩ hrun
  obtain ⟨es, hes⟩ := hreach
  have hwf := (BlockDownload.run_assigned (BlockDownload.started_of_sameMaps hstart) hes).1
  exact hexhausted.cuts_nobody_off hwf.length_le

/-! ### Two peers and one block -/

omit [Sha256]

/-- Blocks and stalls time out after 30 s; one block is asked at a time. -/
def sampleLoopConfig : Config where
  substituteUrls := []
  substitutePolicy := .p2pOnly
  autoSeedDownloads := .off
  localNarinfoPath := none
  minProviders := 1
  maxPeersPerDownload := 4
  maxInFlightBlocksPerPeer := 1
  requestTimeoutSecs := 300
  stallTimeoutSecs := 30
  blockSize := 4

/-- A turn at the given time, a millisecond before the guard reads the clock. -/
def turnAt (now : Instant) (waited : Waited) : Turn := ⟨now, now, now, now + 1, waited, now + 1⟩

/-- `peerB` is asked at the start and says nothing for 30 s; in the turn that asks `peerA` instead,
the guard ends the loop. -/
theorem silent_peer_stalls :
    ∃ s l, Machine.run (@step sampleSha256 sampleLoopConfig 300000) (first sampleLoopConfig sampleDownload 0 0)
        ((List.range 30).map fun k => turnAt (1000 * k) .elapsed) = .ok s ∧
      @FetchLoop.turn sampleSha256 sampleLoopConfig 300000 s.loop (turnAt 30000 .elapsed) = .ok (l, some .stalled) ∧
      s.Reassigned sampleLoopConfig (turnAt 30000 .elapsed) ∧
      l.fetch.sched.blockStates = [.inFlight peerA 30000] :=
  ⟨_, _, rfl, rfl, ⟨0, peerB, peerA, 0, by decide, rfl, by decide, rfl⟩, rfl⟩

/-- `peerB` fails, `peerA` is asked and says nothing: the guard ends the loop with nobody left. -/
theorem stall_guard_cuts_nobody_off_sample :
    ∃ s l, Machine.run (@step sampleSha256 sampleLoopConfig 300000) (first sampleLoopConfig sampleDownload 0 0)
        [turnAt 0 (.note (.blockRequestFailed peerB)), turnAt 1000 .elapsed] = .ok s ∧
      @FetchLoop.turn sampleSha256 sampleLoopConfig 300000 s.loop (turnAt 30001 .elapsed) = .ok (l, some .stalled) ∧
      ¬ s.Reassigned sampleLoopConfig (turnAt 30001 .elapsed) ∧ ¬ s.Untried sampleLoopConfig (turnAt 30001 .elapsed) := by
  refine ⟨_, _, rfl, rfl, ?_⟩
  refine @stall_guard_cuts_nobody_off sampleSha256 sampleLoopConfig 300000 _ _ _ _ sampleDownload 0 0
    [turnAt 0 (.note (.blockRequestFailed peerB)), turnAt 1000 .elapsed, turnAt 30001 .elapsed]
    [turnAt 0 (.note (.blockRequestFailed peerB)), turnAt 1000 .elapsed] [] _ _ _ (BlockDownload.SameMaps.refl _)
    ⟨?_, fun s₁ h₁ => ⟨?_, fun s₂ h₂ => ⟨fun _ => ?_, fun _ _ => trivial⟩⟩⟩ rfl rfl rfl
  · exact fun hdue => absurd hdue (by decide)
  · obtain rfl := Except.ok.inj h₁
    exact fun hdue => absurd hdue (by decide)
  · obtain rfl := Except.ok.inj h₁
    -- the block is out at `peerA` since 1 s, and both peers have been asked
    have hstates : s₂.loop.fetch.sched.blockStates = [.inFlight peerA 1000] := by cases h₂; rfl
    have hasked : ∀ q ∈ s₂.loop.fetch.sched.peerStates.keys, (q, (0 : UInt32)) ∈ s₂.asked := by cases h₂; decide
    have hin : ∀ (i : Nat) st, s₂.loop.fetch.sched.blockStates[i]? = some st → i = 0 ∧ st = .inFlight peerA 1000 := by
      intro i st hi
      rw [hstates] at hi
      obtain ⟨hlt, rfl⟩ := List.getElem?_eq_some_iff.mp hi
      obtain rfl : i = 0 := Nat.lt_one_iff.mp hlt
      exact ⟨rfl, rfl⟩
    refine ⟨fun i p r hi hdue => ?_, fun i p r hi _ q hq => ?_, fun i hi => ?_⟩
    · cases (hin i _ hi).2
      exact absurd hdue (by decide)
    · obtain ⟨rfl, -⟩ := hin i _ hi
      obtain ⟨st, hst, -⟩ := hq
      exact Or.inr (hasked q (AList.mem_keys.mp (Table.mem_iff_exists_lookup.mpr ⟨st, hst⟩)))
    · cases (hin i _ hi).2

end AskedLoop

end

end GuixP2p
