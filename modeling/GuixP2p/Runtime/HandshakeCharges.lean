import GuixP2p.Reputation
import GuixP2p.Daemon.Handshake

/-!
# GuixP2p.Runtime.HandshakeCharges

**What a handshake round costs a peer.** Two tasks charge failures to a peer: the swarm
task, in `handle_block_exchange` of `src/runtime.rs`, once for every request that fails,
and `handshake_with_providers`, at its end, once for every peer that has not answered. The
round does not look at failure notifications, so a peer whose request failed stays pending
and is asked again.

`HandshakeTask.step` interleaves the two tasks in any way, over any number of rounds one
after the other. Its ledger is ghost state: it counts the requests sent and the two kinds
of charges. `failed_eq_ledger` says that the counter moves by exactly these charges, at
most one per request, three requests and one timeout per round.
-/

namespace GuixP2p

open GuixP2p.Lib

/-- What has been sent and charged so far (ghost). -/
structure Ledger where
  rounds : Nat
  sent : PeerId → Nat
  requestFailures : PeerId → Nat
  timeouts : PeerId → Nat

structure HandshakeTask where
  tracker : ReputationTracker
  round : Option Round
  queue : List SwarmNotification
  /-- The peers of the requests that are sent and not answered yet. -/
  wire : List PeerId
  ledger : Ledger

inductive HandshakeTaskEvent
  /-- A round is started. The callers pass lists without duplicates: provider sets of the
  DHT, and lists merged by `merge_provider_lists`. -/
  | start (narHash : Digest) (providers : { l : List PeerId // l.Nodup }) (maxPeers : Nat)
      (now : Instant)
  /-- The swarm task receives the response to the `i`-th outstanding request. -/
  | answer (i : Nat) (response : BlockResponse) (now : Instant)
  /-- The swarm task is told that the `i`-th outstanding request failed: the peer dropped
  the response channel, or the connection broke. -/
  | fail (i : Nat) (now : Instant)
  /-- The round takes the next notification. -/
  | recv
  /-- A second passed without notification. -/
  | tick (now : Instant)
  /-- The round's loop ends: everybody answered, the deadline has passed, or the
  notification channel failed. -/
  | finish (now : Instant)

namespace HandshakeTask

def idle (tracker : ReputationTracker) : HandshakeTask :=
  { tracker, round := none, queue := [], wire := []
    ledger := ⟨0, fun _ => 0, fun _ => 0, fun _ => 0⟩ }

/-- The round looks at handshake replies only. -/
def receive (r : Round) : SwarmNotification → Round
  | .blockResponse peer response =>
    match PeerHandshake.ofReply peer response with
    | some hs => r.reply hs
    | none => r
  | _ => r

def step (t : HandshakeTask) : HandshakeTaskEvent → HandshakeTask
  | .start narHash providers maxPeers now =>
    match t.round with
    | some _ => t
    | none =>
      let contacts := Round.contacts providers.1 maxPeers
      { t with
        round := some (Round.start narHash providers.1 maxPeers now)
        wire := t.wire ++ contacts
        ledger := { t.ledger with
          rounds := t.ledger.rounds + 1
          sent := fun p => t.ledger.sent p + contacts.count p } }
  | .answer i response now =>
    match t.wire[i]? with
    | none => t
    | some peer =>
      { t with
        tracker := t.tracker.recordSuccess now peer 0
        queue := t.queue ++ [.blockResponse peer response]
        wire := t.wire.eraseIdx i }
  | .fail i now =>
    match t.wire[i]? with
    | none => t
    | some peer =>
      { t with
        tracker := t.tracker.recordFailure now peer
        queue := t.queue ++ [.blockRequestFailed peer]
        wire := t.wire.eraseIdx i
        ledger := { t.ledger with
          requestFailures := fun p => t.ledger.requestFailures p + if p = peer then 1 else 0 } }
  | .recv =>
    match t.round, t.queue with
    | some r, n :: queue => { t with round := some (receive r n), queue }
    | _, _ => t
  | .tick now =>
    match t.round with
    | none => t
    | some r =>
      { t with
        round := some (r.tick now)
        wire := t.wire ++ r.retries now
        ledger := { t.ledger with
          sent := fun p => t.ledger.sent p + (r.retries now).count p } }
  | .finish now =>
    match t.round with
    | none => t
    | some r =>
      { t with
        tracker := r.failures.foldl (fun tracker p => tracker.recordFailure now p) t.tracker
        round := none
        ledger := { t.ledger with
          timeouts := fun p => t.ledger.timeouts p + r.failures.count p } }

def run (t : HandshakeTask) (events : List HandshakeTaskEvent) : HandshakeTask :=
  events.foldl step t

end HandshakeTask

/-! ### What a round may still send and charge -/

namespace Round

/-- The requests the round may still send to a peer. -/
def remaining (r : Round) (p : PeerId) : Nat :=
  ((r.pending.lookup p).map fun h => 3 - h.attempts).getD 0

theorem count_failures (r : Round) (p : PeerId) :
    r.failures.count p = if p ∈ r.pending then 1 else 0 := by
  unfold failures
  rw [List.Nodup.count r.pending.keys_nodup]
  exact if_congr AList.mem_keys.symm rfl rfl

theorem nodup_retries (r : Round) (now : Instant) : (r.retries now).Nodup :=
  (List.Sublist.map Sigma.fst List.filter_sublist).nodup r.pending.keys_nodup

/-- Only a peer that is due is asked again. -/
theorem due_of_mem_retries {r : Round} {now : Instant} {p : PeerId} (h : p ∈ r.retries now) :
    ∃ ph, r.pending.lookup p = some ph ∧ due now ph = true := by
  obtain ⟨e, he, rfl⟩ := List.mem_map.mp h
  obtain ⟨hmem, hdue⟩ := List.mem_filter.mp he
  exact ⟨e.2, AList.mem_lookup_iff.mpr hmem, hdue⟩

/-- At the start: one request is out, two may follow. -/
theorem count_contacts_add_remaining_start {providers : List PeerId} (hnodup : providers.Nodup)
    (narHash : Digest) (maxPeers : Nat) (now : Instant) (p : PeerId) :
    (contacts providers maxPeers).count p + (start narHash providers maxPeers now).remaining p ≤ 3 := by
  have hcount : (contacts providers maxPeers).count p ≤ 1 :=
    List.nodup_iff_count_le_one.mp (hnodup.sublist (List.take_sublist _ _)) p
  have hrem : (start narHash providers maxPeers now).remaining p ≤ 2 := by
    unfold remaining
    cases hlook : (start narHash providers maxPeers now).pending.lookup p with
    | none => simp
    | some ph =>
        obtain ⟨q, -, hq⟩ := List.mem_map.mp (Table.mem_of_lookup_ofPairs hlook)
        obtain ⟨-, rfl⟩ := Prod.mk.inj hq
        simp
  omega

/-- A tick uses up what it sends. -/
theorem count_retries_add_remaining_tick (r : Round) (now : Instant) (p : PeerId) :
    (r.retries now).count p + (r.tick now).remaining p ≤ r.remaining p := by
  have hcount := List.nodup_iff_count_le_one.mp (r.nodup_retries now) p
  unfold remaining tick
  rw [Table.lookup_mapValues]
  cases hlook : r.pending.lookup p with
  | none =>
      have hnot : p ∉ r.retries now := fun hmem => by
        obtain ⟨ph, hph, -⟩ := due_of_mem_retries hmem
        rw [hlook] at hph
        cases hph
      simp [List.count_eq_zero_of_not_mem hnot]
  | some ph =>
      by_cases hdue : due now ph = true
      · have hlt : ph.attempts < 3 := by
          simp only [due, Bool.and_eq_true, decide_eq_true_eq] at hdue
          exact hdue.1
        simp only [Option.map_some, hdue, if_true, Option.getD_some]
        omega
      · have hnot : p ∉ r.retries now := fun hmem => by
          obtain ⟨ph', hph', hdue'⟩ := due_of_mem_retries hmem
          obtain rfl : ph = ph' := Option.some.inj (hlook.symm.trans hph')
          exact hdue hdue'
        simp [List.count_eq_zero_of_not_mem hnot, hdue]

theorem remaining_reply_le (r : Round) (hs : PeerHandshake) (p : PeerId) :
    (r.reply hs).remaining p ≤ r.remaining p := by
  unfold remaining reply
  split
  next =>
    by_cases hp : p = hs.peer
    · subst hp
      simp
    · simp [AList.lookup_erase_ne hp]
  next => exact Nat.le_refl _

theorem mem_pending_tick {r : Round} {now : Instant} {p : PeerId} :
    p ∈ (r.tick now).pending ↔ p ∈ r.pending := Table.mem_mapValues

end Round

namespace HandshakeTask

/-- The requests the current round may still send to a peer. -/
def remaining (t : HandshakeTask) (p : PeerId) : Nat :=
  (t.round.map (·.remaining p)).getD 0

/-- The current round is waiting for the peer. -/
def Waiting (t : HandshakeTask) (p : PeerId) : Prop := ∃ r, t.round = some r ∧ p ∈ r.pending

/-- A notification is a reply to the round, or nothing. -/
theorem receive_cases (r : Round) (n : SwarmNotification) :
    receive r n = r ∨ ∃ hs, receive r n = r.reply hs := by
  cases n with
  | providersFound hash peers => exact Or.inl rfl
  | blockRequestFailed peer => exact Or.inl rfl
  | blockResponse peer response =>
      simp only [receive]
      cases PeerHandshake.ofReply peer response with
      | none => exact Or.inl rfl
      | some hs => exact Or.inr ⟨hs, rfl⟩

/-! ### The accounts of one peer -/

/-- The invariant of a run that starts with `tracker`. -/
structure Accounted (tracker : ReputationTracker) (p : PeerId) (t : HandshakeTask) : Prop where
  threshold : t.tracker.banThreshold = tracker.banThreshold
  failed_eq : t.tracker.failed p =
    tracker.failed p + UInt32.ofNat (t.ledger.requestFailures p + t.ledger.timeouts p)
  /-- A request on the wire has not failed yet. -/
  wire_le : t.ledger.requestFailures p + t.wire.count p ≤ t.ledger.sent p
  sent_le : t.ledger.sent p + t.remaining p ≤ 3 * t.ledger.rounds
  timeouts_le : t.ledger.timeouts p ≤ t.ledger.rounds
  /-- While a round waits for the peer, its timeout is still to come. -/
  timeouts_lt : t.Waiting p → t.ledger.timeouts p < t.ledger.rounds

variable {tracker : ReputationTracker} {p : PeerId} {t : HandshakeTask}

theorem accounted_idle (tracker : ReputationTracker) (p : PeerId) :
    Accounted tracker p (idle tracker) where
  threshold := rfl
  failed_eq := by simp [idle]
  wire_le := by simp [idle]
  sent_le := by simp [idle, remaining]
  timeouts_le := Nat.le_refl _
  timeouts_lt := by
    intro h
    obtain ⟨r, hr, -⟩ := h
    cases hr

/-- Taking a request off the wire. -/
theorem count_eraseIdx {l : List PeerId} {i : Nat} {q : PeerId} (h : l[i]? = some q) (p : PeerId) :
    (l.eraseIdx i).count p + (if p = q then 1 else 0) = l.count p := by
  obtain ⟨hi, rfl⟩ := List.getElem?_eq_some_iff.mp h
  rw [← (List.getElem_cons_eraseIdx_perm hi).count_eq p, List.count_cons]
  by_cases hp : p = l[i]
  · simp [← hp]
  · simp [hp, Ne.symm hp]

theorem accounted_start (h : Accounted tracker p t) (narHash : Digest)
    (providers : { l : List PeerId // l.Nodup }) (maxPeers : Nat) (now : Instant) :
    Accounted tracker p (t.step (.start narHash providers maxPeers now)) := by
  simp only [step]
  cases hr : t.round with
  | some r => exact h
  | none =>
      have hbudget := Round.count_contacts_add_remaining_start providers.2 narHash maxPeers now p
      have hwire := h.wire_le
      have hsent := h.sent_le
      have htimeouts := h.timeouts_le
      refine ⟨h.threshold, h.failed_eq, ?_, ?_, ?_, fun _ => ?_⟩
      · simp only [List.count_append]
        omega
      · simp only [remaining, hr, Option.map_none, Option.getD_none, Option.map_some,
          Option.getD_some] at hsent ⊢
        omega
      · exact Nat.le_succ_of_le htimeouts
      · exact Nat.lt_succ_of_le htimeouts

theorem accounted_answer (h : Accounted tracker p t) (i : Nat) (response : BlockResponse)
    (now : Instant) : Accounted tracker p (t.step (.answer i response now)) := by
  simp only [step]
  cases hi : t.wire[i]? with
  | none => exact h
  | some peer =>
      have hcount := count_eraseIdx hi p
      have hwire := h.wire_le
      refine ⟨h.threshold, ?_, ?_, h.sent_le, h.timeouts_le, h.timeouts_lt⟩
      · simpa using h.failed_eq
      · dsimp only
        omega

theorem accounted_fail (h : Accounted tracker p t) (i : Nat) (now : Instant) :
    Accounted tracker p (t.step (.fail i now)) := by
  simp only [step]
  cases hi : t.wire[i]? with
  | none => exact h
  | some peer =>
      have hcount := count_eraseIdx hi p
      have hwire := h.wire_le
      refine ⟨h.threshold, ?_, ?_, h.sent_le, h.timeouts_le, h.timeouts_lt⟩
      · simp only [ReputationTracker.failed_recordFailure, h.failed_eq]
        by_cases hp : p = peer
        · subst hp
          simp only [if_pos, UInt32.ofNat_add]
          rw [UInt32.add_assoc, UInt32.add_assoc, UInt32.add_assoc]
          congr 2
          exact UInt32.add_comm _ _
        · simp [hp]
      · dsimp only
        omega

theorem accounted_recv (h : Accounted tracker p t) : Accounted tracker p (t.step .recv) := by
  simp only [step]
  split
  next r n queue hr hq =>
    have hle : (receive r n).remaining p ≤ r.remaining p := by
      rcases receive_cases r n with heq | ⟨hs, heq⟩
      · rw [heq]
      · rw [heq]
        exact r.remaining_reply_le hs p
    have hmem : p ∈ (receive r n).pending → p ∈ r.pending := by
      rcases receive_cases r n with heq | ⟨hs, heq⟩
      · rw [heq]
        exact id
      · rw [heq]
        exact Round.mem_pending_of_reply
    have hsent := h.sent_le
    refine ⟨h.threshold, h.failed_eq, h.wire_le, ?_, h.timeouts_le, ?_⟩
    · simp only [remaining, hr, Option.map_some, Option.getD_some] at hsent ⊢
      omega
    · intro h'
      obtain ⟨r', hr', hpending⟩ := h'
      obtain rfl := Option.some.inj hr'
      exact h.timeouts_lt ⟨r, hr, hmem hpending⟩
  next => exact h

theorem accounted_tick (h : Accounted tracker p t) (now : Instant) :
    Accounted tracker p (t.step (.tick now)) := by
  simp only [step]
  cases hr : t.round with
  | none => exact h
  | some r =>
      have hbudget := r.count_retries_add_remaining_tick now p
      have hwire := h.wire_le
      have hsent := h.sent_le
      refine ⟨h.threshold, h.failed_eq, ?_, ?_, h.timeouts_le, ?_⟩
      · simp only [List.count_append]
        omega
      · simp only [remaining, hr, Option.map_some, Option.getD_some] at hsent ⊢
        omega
      · intro h'
        obtain ⟨r', hr', hmem⟩ := h'
        obtain rfl := Option.some.inj hr'
        exact h.timeouts_lt ⟨r, hr, Round.mem_pending_tick.mp hmem⟩

theorem accounted_finish (h : Accounted tracker p t) (now : Instant) :
    Accounted tracker p (t.step (.finish now)) := by
  simp only [step]
  cases hr : t.round with
  | none => exact h
  | some r =>
      have hcount := r.count_failures p
      have hsent := h.sent_le
      refine ⟨?_, ?_, h.wire_le, ?_, ?_, ?_⟩
      · exact (ReputationTracker.banThreshold_foldl_recordFailure now _ _).trans h.threshold
      · simp only [ReputationTracker.failed_foldl_recordFailure, h.failed_eq]
        rw [UInt32.add_assoc, ← UInt32.ofNat_add, Nat.add_assoc]
      · simp only [remaining, Option.map_none, Option.getD_none]
        omega
      · dsimp only
        by_cases hmem : p ∈ r.pending
        · have hlt := h.timeouts_lt ⟨r, hr, hmem⟩
          rw [if_pos hmem] at hcount
          omega
        · have hle := h.timeouts_le
          rw [if_neg hmem] at hcount
          omega
      · intro h'
        obtain ⟨r', hr', -⟩ := h'
        cases hr'

/-- **Step lemma.** -/
theorem accounted_step (h : Accounted tracker p t) (e : HandshakeTaskEvent) :
    Accounted tracker p (t.step e) := by
  cases e with
  | start narHash providers maxPeers now => exact accounted_start h narHash providers maxPeers now
  | answer i response now => exact accounted_answer h i response now
  | fail i now => exact accounted_fail h i now
  | recv => exact accounted_recv h
  | tick now => exact accounted_tick h now
  | finish now => exact accounted_finish h now

/-- **Run lemma.** -/
theorem accounted_run (h : Accounted tracker p t) (events : List HandshakeTaskEvent) :
    Accounted tracker p (t.run events) := by
  induction events generalizing t with
  | nil => exact h
  | cons e events ih => exact ih (accounted_step h e)

/-! ### What the rounds cost -/

/-- **What handshake rounds charge.** Over any number of rounds and any interleaving with
the swarm task, a peer's failure counter grows by one for each request to it that failed
and by one for each round that ended without its answer; it is sent at most three requests
a round, so a round costs it four failures at most, and a peer that is banned after `k`
rounds needs a threshold of at most `4 * k` more than the failures it came with. -/
theorem failed_eq_ledger (tracker : ReputationTracker) (events : List HandshakeTaskEvent)
    (p : PeerId) :
    let t := (idle tracker).run events
    t.tracker.failed p =
        tracker.failed p + UInt32.ofNat (t.ledger.requestFailures p + t.ledger.timeouts p) ∧
      t.ledger.requestFailures p ≤ t.ledger.sent p ∧ t.ledger.sent p ≤ 3 * t.ledger.rounds ∧
      t.ledger.timeouts p ≤ t.ledger.rounds ∧
      (t.tracker.isBanned p = true →
        tracker.banThreshold.toNat ≤ (tracker.failed p).toNat + 4 * t.ledger.rounds) := by
  intro t
  have h : Accounted tracker p t := accounted_run (accounted_idle tracker p) events
  have hwire := h.wire_le
  have hsent := h.sent_le
  have htimeouts := h.timeouts_le
  refine ⟨h.failed_eq, by omega, by omega, htimeouts, fun hbanned => ?_⟩
  have hle := UInt32.le_iff_toNat_le.mp (ReputationTracker.banThreshold_le_of_isBanned hbanned)
  rw [h.threshold, h.failed_eq, UInt32.toNat_add, UInt32.toNat_ofNat'] at hle
  have hmod := Nat.mod_le
    ((tracker.failed p).toNat + (t.ledger.requestFailures p + t.ledger.timeouts p) % 2 ^ 32) (2 ^ 32)
  have hmod' := Nat.mod_le (t.ledger.requestFailures p + t.ledger.timeouts p) (2 ^ 32)
  omega

/-- One round with a peer that does not hold the NAR: it drops each of the three requests,
and has not answered at the deadline. -/
def lackingPeer : List HandshakeTaskEvent :=
  [.start (Vector.replicate 32 0) ⟨[⟨[1]⟩], by decide⟩ 8 0, .fail 0 200, .recv,
    .tick 3200, .fail 0 3400, .recv, .tick 6400, .fail 0 6600, .recv, .finish 15000]

/-- Such a peer is charged four times in one round, and banned at a threshold of four. -/
theorem lackingPeer_charged_four_times :
    ((idle (.new 4)).run lackingPeer).ledger.rounds = 1 ∧
      ((idle (.new 4)).run lackingPeer).tracker.failed ⟨[1]⟩ = 4 ∧
      ((idle (.new 4)).run lackingPeer).tracker.isBanned ⟨[1]⟩ = true := by
  exact ⟨rfl, rfl, rfl⟩

end HandshakeTask

end GuixP2p
