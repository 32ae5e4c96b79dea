import GuixP2p.Daemon.FetchSafety
import GuixP2p.Daemon.RelayEffects

/-!
# GuixP2p.Daemon.RelayHandshakes

**Handshakes of concurrent downloads.** A round takes any handshake reply of a peer it
still waits for. The reply may answer the request of another connection's round for
another NAR, or a request of an earlier round on the same connection, and then the
round records block counts and hashes of the wrong NAR.

* `genuine_iff_noForeignReply` — along a run, every recorded handshake is an answer of
  that peer to a handshake for that NAR exactly as long as no round takes a foreign
  reply;
* `Separated` — a condition on when replies are published and rounds are started that
  excludes this.
-/

namespace GuixP2p

open GuixP2p.Lib

/-! ### What is recorded -/

/-- The handshakes a connection has recorded, with the NAR they were recorded for. -/
def Phase.recorded : Phase → Option (Digest × List PeerHandshake)
  | .handshake earlier round => some (round.narHash, earlier ++ round.results)
  | .collected narHash handshakes => some (narHash, handshakes)
  | .idle => none
  | .download _ _ => none

/-- The peer has answered a handshake for this NAR with what `hs` holds. -/
def AnsweredFor (log : List Answer) (narHash : Digest) (hs : PeerHandshake) : Prop :=
  ∃ response, ⟨hs.peer, .handshake narHash.toList, response⟩ ∈ log ∧
    PeerHandshake.ofReply hs.peer response = some hs

theorem AnsweredFor.mono {log log' : List Answer} {narHash : Digest} {hs : PeerHandshake}
    (hsub : log ⊆ log') (h : AnsweredFor log narHash hs) : AnsweredFor log' narHash hs := by
  obtain ⟨response, hmem, hof⟩ := h
  exact ⟨response, hsub hmem, hof⟩

/-- Every recorded handshake answers a request for the NAR it is recorded for. -/
def System.Genuine (s : System) : Prop :=
  ∀ c narHash handshakes, (s.conns c).phase.recorded = some (narHash, handshakes) →
    ∀ hs ∈ handshakes, AnsweredFor s.answered narHash hs

/-- On its next receive the connection records `hs`, carried by `n`, for this NAR. -/
def Connection.Takes (k : Connection) (n : Published) (narHash : Digest) (hs : PeerHandshake) :
    Prop :=
  ∃ queue earlier round response, k.queue = n :: queue ∧ k.phase = .handshake earlier round ∧
    round.narHash = narHash ∧ n.note = .blockResponse hs.peer response ∧
    PeerHandshake.ofReply hs.peer response = some hs ∧ hs.peer ∈ round.pending

/-- The event makes no round take a reply to another NAR's request, unless the peer
has said the same about the round's own NAR. -/
def System.NoForeignReply (s : System) : SystemEvent → Prop
  | .conn c .recv => ∀ n narHash hs, (s.conns c).Takes n narHash hs →
    n.answers ≠ some (.handshake narHash.toList) → AnsweredFor s.answered narHash hs
  | _ => True

/-- A condition on the traffic that keeps replies apart: when a handshake reply of `p`
is published, every round that waits for `p` is for the NAR it answers, and when a
round begins, no reply to another NAR's request is queued from a peer it contacts. -/
def System.Separated (s : System) : SystemEvent → Prop
  | .answer i response => ∀ peer request hs, s.wire[i]? = some (peer, request) →
    PeerHandshake.ofReply peer response = some hs → ∀ c earlier round,
    (s.conns c).phase = .handshake earlier round → peer ∈ round.pending →
    request = .handshake round.narHash.toList
  | .conn c (.beginHandshake narHash providers maxPeers _) => ∀ n ∈ (s.conns c).queue,
    ∀ peer response hs, n.note = .blockResponse peer response →
    PeerHandshake.ofReply peer response = some hs → peer ∈ Round.contacts providers maxPeers →
    n.answers = some (.handshake narHash.toList)
  | _ => True

/-! ### Exactly when handshakes stay genuine -/

section

variable [Sha256] {cfg : RelayConfig} {k k' : Connection} {ce : ConnEvent}

/-- What is recorded after an event was recorded before, or has just been taken. -/
theorem Connection.Effect.recorded_cases {narHash : Digest} {handshakes : List PeerHandshake}
    {hs : PeerHandshake} (h : k.Effect cfg ce k')
    (hrec : k'.phase.recorded = some (narHash, handshakes)) (hmem : hs ∈ handshakes) :
    (∃ handshakes₀, k.phase.recorded = some (narHash, handshakes₀) ∧ hs ∈ handshakes₀) ∨
      (ce = .recv ∧ ∃ n, k.Takes n narHash hs) := by
  cases h with
  | keep _ => exact Or.inl ⟨handshakes, hrec, hmem⟩
  | reset _ => cases hrec
  | @beginRound narHash' providers maxPeers now earlier hearlier =>
      obtain ⟨rfl, rfl⟩ := Prod.mk.inj (Option.some.inj hrec)
      -- a round begins without results of its own
      have hold : hs ∈ earlier := by simpa [Round.start] using hmem
      rcases hearlier with rfl | hphase
      · exact absurd hold List.not_mem_nil
      · exact Or.inl ⟨earlier, by rw [hphase]; rfl, hold⟩
  | @retry now earlier round hphase =>
      obtain ⟨rfl, rfl⟩ := Prod.mk.inj (Option.some.inj hrec)
      exact Or.inl ⟨_, by rw [hphase]; rfl, hmem⟩
  | @leaveRound _ queue earlier round _ hphase =>
      obtain ⟨rfl, rfl⟩ := Prod.mk.inj (Option.some.inj hrec)
      exact Or.inl ⟨_, by rw [hphase]; rfl, hmem⟩
  | @reply n queue earlier round peer response hs' hq hphase hnote hof =>
      obtain ⟨rfl, rfl⟩ := Prod.mk.inj (Option.some.inj hrec)
      rw [Round.narHash_reply]
      rcases List.mem_append.mp hmem with hold | hres
      · exact Or.inl ⟨_, by rw [hphase]; rfl, List.mem_append_left _ hold⟩
      · rcases Round.mem_results_reply.mp hres with hold | ⟨rfl, hpending⟩
        · exact Or.inl ⟨_, by rw [hphase]; rfl, List.mem_append_right _ hold⟩
        · obtain rfl := PeerHandshake.peer_of_ofReply hof
          exact Or.inr ⟨rfl, n, queue, earlier, round, response, hq, hphase, rfl, hnote, hof,
            hpending⟩
  | beginDownload _ _ => cases hrec
  | fetch _ _ _ => cases hrec

/-- What a connection is about to take is recorded after it receives. -/
theorem Connection.recv_of_takes {n : Published} {narHash : Digest} {hs : PeerHandshake}
    (h : k.Takes n narHash hs) :
    ∃ k', k.recv cfg = .ok k' ∧
      ∃ handshakes, k'.phase.recorded = some (narHash, handshakes) ∧ hs ∈ handshakes := by
  obtain ⟨queue, earlier, round, response, hq, hphase, rfl, hnote, hof, hpending⟩ := h
  refine ⟨⟨queue, .handshake earlier (round.reply hs)⟩, ?_, earlier ++ (round.reply hs).results,
    ?_, ?_⟩
  · simp only [recv, hq, hphase, hnote, hof]
  · rw [Phase.recorded, Round.narHash_reply]
  · exact List.mem_append_right _ (Round.mem_results_reply.mpr (Or.inr ⟨rfl, hpending⟩))

namespace System

variable {s s' : System} {e : SystemEvent}

omit [Sha256] in
/-- Replies that are taken and answer the right request are logged answers to it. -/
theorem QueuesLogged.answeredFor (hs : s.QueuesLogged) {c : Nat} {n : Published}
    {narHash : Digest} {hs' : PeerHandshake} (htakes : (s.conns c).Takes n narHash hs')
    (hans : n.answers = some (.handshake narHash.toList)) : AnsweredFor s.answered narHash hs' := by
  obtain ⟨queue, _, _, response, hq, -, -, hnote, hof, -⟩ := htakes
  have hmem : n ∈ (s.conns c).queue := by
    rw [hq]
    exact List.mem_cons_self
  obtain ⟨request, hreq, hlog⟩ := hs c n hmem hs'.peer response hnote
  obtain rfl := Option.some.inj (hreq.symm.trans hans)
  exact ⟨response, hlog, hof⟩

/-- What one event needs to keep every handshake genuine. -/
theorem step_genuine_iff (hlogged : s.QueuesLogged) (hs : s.Genuine)
    (h : step cfg s e = .ok s') : s'.Genuine ↔ s.NoForeignReply e := by
  rcases step_cases h with ⟨c, ce, k, rfl, heff, hconns, hlog⟩ | ⟨hno, rfl⟩ |
    ⟨n, hno, hsub, hconns, -⟩
  · constructor
    · intro hgen
      cases ce with
      | recv =>
          intro n narHash hs' htakes _
          obtain ⟨k', hrecv, handshakes, hrec, hmem⟩ := @Connection.recv_of_takes _ cfg _ _ _ _ htakes
          have hk : s'.conns c = k' := by
            simp only [step, Connection.step, hrecv] at h
            rw [← Except.ok.inj h]
            exact Function.update_self ..
          rw [← hlog]
          exact hgen c narHash handshakes (by rw [hk]; exact hrec) hs' hmem
      | _ => trivial
    · intro hguard c' narHash handshakes hrec hs' hmem
      rw [hlog]
      rw [hconns] at hrec
      by_cases hc : c' = c
      · subst hc
        rw [Function.update_self] at hrec
        rcases heff.recorded_cases hrec hmem with ⟨handshakes₀, hold, hmem₀⟩ | ⟨rfl, n, htakes⟩
        · exact hs c' narHash handshakes₀ hold hs' hmem₀
        · by_cases hans : n.answers = some (.handshake narHash.toList)
          · exact hlogged.answeredFor htakes hans
          · exact hguard n narHash hs' htakes hans
      · rw [Function.update_of_ne hc] at hrec
        exact hs c' narHash handshakes hrec hs' hmem
  · refine iff_of_true hs ?_
    cases e with
    | conn c ce => exact absurd rfl (hno c ce)
    | _ => trivial
  · refine iff_of_true (fun c narHash handshakes hrec hs' hmem => ?_) ?_
    · rw [hconns c] at hrec
      exact (hs c narHash handshakes hrec hs' hmem).mono hsub
    · cases e with
      | conn c ce => exact absurd rfl (hno c ce)
      | _ => trivial

/-- Along separated traffic, every queued reply a round waits for is its own. -/
def OwnReplies (s : System) : Prop :=
  ∀ c earlier round, (s.conns c).phase = .handshake earlier round → ∀ n ∈ (s.conns c).queue,
    ∀ peer response hs, n.note = .blockResponse peer response →
    PeerHandshake.ofReply peer response = some hs → peer ∈ round.pending →
    n.answers = some (.handshake round.narHash.toList)

theorem step_ownReplies (hs : s.OwnReplies) (hguard : s.Separated e)
    (h : step cfg s e = .ok s') : s'.OwnReplies := by
  intro c earlier round hphase n hn peer response hs' hnote hof hpending
  rcases step_cases h with ⟨c', ce, k, rfl, heff, hconns, -⟩ | ⟨-, rfl⟩ | ⟨m, -, -, hconns, hpub⟩
  · rw [hconns] at hphase hn
    by_cases hc : c = c'
    · subst hc
      rw [Function.update_self] at hphase hn
      rcases heff.round_cases hphase with ⟨providers, maxPeers, now, rfl, hqueue, hstart⟩ |
        ⟨earlier₀, round₀, hphase₀, hnar, hpend⟩
      · rw [hqueue] at hn
        rw [hstart] at hpending
        exact hguard n hn peer response hs' hnote hof (Round.mem_pending_start.mp hpending)
      · rw [hnar]
        exact hs c earlier₀ round₀ hphase₀ n (heff.queue_subset hn) peer response hs' hnote hof
          (hpend peer hpending)
    · rw [Function.update_of_ne hc] at hphase hn
      exact hs c earlier round hphase n hn peer response hs' hnote hof hpending
  · exact hs c earlier round hphase n hn peer response hs' hnote hof hpending
  · rw [hconns c] at hphase hn
    rcases List.mem_append.mp hn with hold | hnew
    · exact hs c earlier round hphase n hold peer response hs' hnote hof hpending
    · obtain rfl := List.mem_singleton.mp hnew
      obtain ⟨i, request, rfl, hwire, hans, -⟩ := hpub peer response hnote
      rw [hans, hguard peer request hs' hwire hof c earlier round hphase hpending]

omit [Sha256] in
/-- Separated traffic lets no round take a foreign reply. -/
theorem OwnReplies.noForeignReply (hs : s.OwnReplies) (e : SystemEvent) : s.NoForeignReply e := by
  cases e with
  | conn c ce =>
      cases ce with
      | recv =>
          intro n narHash hs' htakes hne
          obtain ⟨queue, earlier, round, response, hq, hphase, rfl, hnote, hof, hpending⟩ := htakes
          have hmem : n ∈ (s.conns c).queue := by
            rw [hq]
            exact List.mem_cons_self
          exact absurd (hs c earlier round hphase n hmem _ response hs' hnote hof hpending) hne
      | _ => trivial
  | _ => trivial

/-- **When concurrent handshakes mix.** In a run of the system, every handshake recorded
for a NAR is what that peer answered to a handshake for that NAR, in every state the
run reaches, if and only if no round of the run takes a foreign reply. Separated
traffic never gives a round one to take. -/
theorem genuine_iff_noForeignReply {events : List SystemEvent}
    (hrun : Machine.run (step cfg) init events = .ok s) :
    ((∀ es u, es <+: events → Machine.run (step cfg) init es = .ok u → u.Genuine) ↔
        Machine.Meets (step cfg) NoForeignReply init events) ∧
      (Machine.Meets (step cfg) Separated init events →
        Machine.Meets (step cfg) NoForeignReply init events) := by
  have hinit : init.Genuine := by
    intro c narHash handshakes hrec
    cases hrec
  refine ⟨?_, fun hsep => ?_⟩
  · exact Machine.forall_states_iff_meets
      (fun _ _ _ hs h => step_queuesLogged hs h)
      (fun _ _ _ hlogged hs h => step_genuine_iff hlogged hs h)
      queuesLogged_init hinit hrun
  · refine Machine.meets_of_meets (P := OwnReplies)
      (fun _ _ _ hs hguard h => step_ownReplies hs hguard h)
      (fun _ e hs _ => hs.noForeignReply e) ?_ hsep
    intro c earlier round hphase
    cases hphase

end System

end

/-! ### A mix-up -/

namespace System

/-- One peer, asked by connection 0 about `NAR A` and by connection 1 about `NAR B`;
it answers the first request and both connections receive the answer. -/
def mixedHandshakes : List SystemEvent :=
  [.conn 0 .subscribe, .conn 1 .subscribe,
    .conn 0 (.beginHandshake (Vector.replicate 32 1) [⟨[7]⟩] 8 0),
    .conn 1 (.beginHandshake (Vector.replicate 32 2) [⟨[7]⟩] 8 0),
    .answer 0 (.handshakeReply [0, 1] 2 4 [List.replicate 32 3, List.replicate 32 4]),
    .conn 0 .recv, .conn 1 .recv]

/-- Connection 1 has recorded the block hashes of NAR A for NAR B, about which the peer
has said nothing. -/
theorem handshakes_mix :
    ∃ s, Machine.run (@step sampleSha256 sampleConfig) init mixedHandshakes = .ok s ∧
      (s.conns 1).phase.recorded = some (Vector.replicate 32 2,
        [⟨⟨[7]⟩, [0, 1], [Vector.replicate 32 3, Vector.replicate 32 4], 2⟩]) ∧
      s.answered.map Answer.request = [.handshake (List.replicate 32 1)] ∧ ¬ s.Genuine := by
  refine ⟨_, rfl, rfl, rfl, fun hgen => ?_⟩
  obtain ⟨response, hmem, -⟩ := hgen 1 _ _ rfl _ List.mem_cons_self
  obtain ⟨-, hreq, -⟩ := Answer.mk.inj (List.mem_singleton.mp hmem)
  exact absurd hreq (by decide)

/-- A round that receives the answer to its own request. -/
def ownHandshake : List SystemEvent :=
  [.conn 0 (.beginHandshake (Vector.replicate 32 1) [⟨[7]⟩] 8 0),
    .answer 0 (.handshakeReply [0] 1 4 [List.replicate 32 3]), .conn 0 .recv]

theorem genuine_iff_noForeignReply_sample :
    ∃ s, Machine.run (@step sampleSha256 sampleConfig) init ownHandshake = .ok s ∧ s.Genuine := by
  refine ⟨_, rfl, ?_⟩
  refine (@genuine_iff_noForeignReply sampleSha256 sampleConfig _ ownHandshake rfl).1.mpr ?_
    ownHandshake _ (List.prefix_refl _) rfl
  refine ⟨trivial, fun s₁ h₁ => ⟨trivial, fun s₂ h₂ => ⟨?_, fun _ _ => trivial⟩⟩⟩
  obtain rfl := Except.ok.inj h₁
  obtain rfl := Except.ok.inj h₂
  intro n narHash hs htakes hne
  obtain ⟨queue, earlier, round, response, hq, hphase, rfl, -⟩ := htakes
  obtain ⟨rfl, -⟩ := List.cons.inj hq
  obtain ⟨-, rfl⟩ := Phase.handshake.inj hphase
  exact absurd rfl hne

end System

end GuixP2p
