import GuixP2p.Lib.Machine
import GuixP2p.Daemon.Relay

/-!
# GuixP2p.Daemon.RelayEffects

**What the events of the relay system can do.** `Connection.Effect` lists everything an
event can do to the connection it belongs to; `System.step_cases` says that any other
event appends one notification to every queue. Invariants of the system are checked
against these two statements and never unfold the step functions.

`System.run_fetches` is the bridge to the download machine: a download that is running
inside the system, among other connections and their traffic, is a run of
`BlockDownload.step` from a set-up of its own, so every result about those runs holds
of it.
-/

namespace GuixP2p

open GuixP2p.Lib

/-! ### Connections -/

namespace Connection

variable [Sha256]

/-- **What an event can do to a connection**, with all that has been checked. -/
inductive Effect (cfg : RelayConfig) (k : Connection) : ConnEvent → Connection → Prop
  | keep {e : ConnEvent} {queue : List Published} :
      queue ⊆ k.queue → Effect cfg k e ⟨queue, k.phase⟩
  | reset {e : ConnEvent} {queue : List Published} :
      queue ⊆ k.queue → Effect cfg k e ⟨queue, .idle⟩
  /-- A round begins; a fallback round keeps what the first one collected. -/
  | beginRound {narHash : Digest} {providers : List PeerId} {maxPeers : Nat} {now : Instant}
      {earlier : List PeerHandshake} :
      earlier = [] ∨ k.phase = .collected narHash earlier →
      Effect cfg k (.beginHandshake narHash providers maxPeers now)
        ⟨k.queue, .handshake earlier (Round.start narHash providers maxPeers now)⟩
  | retry {now : Instant} {earlier : List PeerHandshake} {round : Round} :
      k.phase = .handshake earlier round →
      Effect cfg k (.tick now) ⟨k.queue, .handshake earlier (round.tick now)⟩
  | leaveRound {e : ConnEvent} {queue : List Published} {earlier : List PeerHandshake}
      {round : Round} :
      queue ⊆ k.queue → k.phase = .handshake earlier round →
      Effect cfg k e ⟨queue, .collected round.narHash (earlier ++ round.results)⟩
  | reply {n : Published} {queue : List Published} {earlier : List PeerHandshake} {round : Round}
      {peer : PeerId} {response : BlockResponse} {hs : PeerHandshake} :
      k.queue = n :: queue → k.phase = .handshake earlier round →
      n.note = .blockResponse peer response → PeerHandshake.ofReply peer response = some hs →
      Effect cfg k .recv ⟨queue, .handshake earlier (round.reply hs)⟩
  | beginDownload {narHash : Digest} {first : PeerHandshake} {rest : List PeerHandshake}
      {narSize : UInt64} {setUp : BlockDownload} :
      k.phase = .collected narHash (first :: rest) →
      (BlockDownload.start (Hex.encode narHash.toList) narSize
        (downloadBlockInfo narSize cfg.blockSize cfg.blockSize_pos first)
        (first :: rest)).SameMaps setUp →
      Effect cfg k (.beginDownload narSize setUp) ⟨k.queue, .download narHash setUp⟩
  | fetch {e : ConnEvent} {queue : List Published} {narHash : Digest} {d d' : BlockDownload}
      {ev : FetchEvent} :
      queue ⊆ k.queue → k.phase = .download narHash d → d.step cfg.fetch ev = .ok d' →
      Effect cfg k e ⟨queue, .download narHash d'⟩

variable {cfg : RelayConfig} {k k' : Connection} {e : ConnEvent}
  {requests : List (PeerId × BlockRequest)}

theorem effect_leaveLoop {queue : List Published} (hq : queue ⊆ k.queue) :
    Effect cfg k e ⟨queue, k.phase.leaveLoop⟩ := by
  cases hphase : k.phase with
  | idle => exact .reset hq
  | handshake earlier round => exact .leaveRound hq hphase
  | collected narHash handshakes =>
      have hkeep : Effect cfg k e ⟨queue, k.phase⟩ := .keep hq
      rw [hphase] at hkeep
      exact hkeep
  | download narHash d => exact .reset hq

theorem effect_of_recv (h : k.recv cfg = .ok k') : Effect cfg k .recv k' := by
  unfold recv at h
  cases hq : k.queue with
  | nil =>
      rw [hq] at h
      obtain rfl := Except.ok.inj h
      exact .keep (List.Subset.refl _)
  | cons n queue =>
      rw [hq] at h
      have hsub : queue ⊆ k.queue := by
        rw [hq]
        exact List.subset_cons_self n queue
      dsimp only at h
      split at h
      next earlier round peer response hphase hnote =>
        cases hof : PeerHandshake.ofReply peer response with
        | none =>
            rw [hof] at h
            obtain rfl := Except.ok.inj h
            exact .keep hsub
        | some hs =>
            rw [hof] at h
            obtain rfl := Except.ok.inj h
            exact .reply hq hphase hnote hof
      next narHash d peer data hphase hnote =>
        split at h
        next => cases h
        next d' hstep =>
          obtain rfl := Except.ok.inj h
          exact .fetch hsub hphase hstep
      next narHash d peer hphase hnote =>
        split at h
        next => cases h
        next d' hstep =>
          obtain rfl := Except.ok.inj h
          exact .fetch hsub hphase hstep
      next =>
        obtain rfl := Except.ok.inj h
        exact .keep hsub

/-- The step function does nothing else. -/
theorem effect_of_step (h : k.step cfg e = .ok (k', requests)) : Effect cfg k e k' := by
  have hrefl : k.queue ⊆ k.queue := List.Subset.refl _
  cases e with
  | subscribe =>
      obtain ⟨rfl, -⟩ := Prod.mk.inj (Except.ok.inj h)
      exact .reset (List.nil_subset _)
  | lagged n =>
      obtain ⟨rfl, -⟩ := Prod.mk.inj (Except.ok.inj h)
      exact effect_leaveLoop (List.drop_subset n _)
  | recv =>
      simp only [step] at h
      cases hrecv : k.recv cfg with
      | error p => rw [hrecv] at h; cases h
      | ok k₁ =>
          rw [hrecv] at h
          obtain ⟨rfl, -⟩ := Prod.mk.inj (Except.ok.inj h)
          exact effect_of_recv hrecv
  | beginHandshake narHash providers maxPeers now =>
      simp only [step] at h
      split at h
      next =>
        obtain ⟨rfl, -⟩ := Prod.mk.inj (Except.ok.inj h)
        exact .beginRound (Or.inl rfl)
      next narHash' handshakes hphase =>
        split at h
        next heq =>
          subst heq
          obtain ⟨rfl, -⟩ := Prod.mk.inj (Except.ok.inj h)
          exact .beginRound (Or.inr hphase)
        next =>
          obtain ⟨rfl, -⟩ := Prod.mk.inj (Except.ok.inj h)
          exact .keep hrefl
      next =>
        obtain ⟨rfl, -⟩ := Prod.mk.inj (Except.ok.inj h)
        exact .keep hrefl
  | tick now =>
      simp only [step] at h
      split at h
      next earlier round hphase =>
        obtain ⟨rfl, -⟩ := Prod.mk.inj (Except.ok.inj h)
        exact .retry hphase
      next =>
        obtain ⟨rfl, -⟩ := Prod.mk.inj (Except.ok.inj h)
        exact .keep hrefl
  | endHandshake =>
      simp only [step] at h
      split at h
      next =>
        obtain ⟨rfl, -⟩ := Prod.mk.inj (Except.ok.inj h)
        exact effect_leaveLoop hrefl
      next =>
        obtain ⟨rfl, -⟩ := Prod.mk.inj (Except.ok.inj h)
        exact .keep hrefl
  | beginDownload narSize setUp =>
      simp only [step] at h
      split at h
      next narHash first rest hphase =>
        split at h
        next hset =>
          obtain ⟨rfl, -⟩ := Prod.mk.inj (Except.ok.inj h)
          exact .beginDownload hphase hset
        next =>
          obtain ⟨rfl, -⟩ := Prod.mk.inj (Except.ok.inj h)
          exact .keep hrefl
      next =>
        obtain ⟨rfl, -⟩ := Prod.mk.inj (Except.ok.inj h)
        exact .keep hrefl
  | dispatch now =>
      simp only [step] at h
      split at h
      next narHash d hphase =>
        split at h
        next => cases h
        next d' hstep =>
          obtain ⟨rfl, -⟩ := Prod.mk.inj (Except.ok.inj h)
          exact .fetch hrefl hphase hstep
      next =>
        obtain ⟨rfl, -⟩ := Prod.mk.inj (Except.ok.inj h)
        exact .keep hrefl
  | expire now =>
      simp only [step] at h
      split at h
      next narHash d hphase =>
        split at h
        next => cases h
        next d' hstep =>
          obtain ⟨rfl, -⟩ := Prod.mk.inj (Except.ok.inj h)
          exact .fetch hrefl hphase hstep
      next =>
        obtain ⟨rfl, -⟩ := Prod.mk.inj (Except.ok.inj h)
        exact .keep hrefl
  | finish =>
      obtain ⟨rfl, -⟩ := Prod.mk.inj (Except.ok.inj h)
      exact .reset hrefl

theorem Effect.queue_subset (h : Effect cfg k e k') : k'.queue ⊆ k.queue := by
  cases h with
  | keep hq => exact hq
  | reset hq => exact hq
  | beginRound _ => exact List.Subset.refl _
  | retry _ => exact List.Subset.refl _
  | leaveRound hq _ => exact hq
  | reply hq _ _ _ =>
      rw [hq]
      exact List.subset_cons_self _ _
  | beginDownload _ _ => exact List.Subset.refl _
  | fetch hq _ _ => exact hq

/-- A connection in a round after an event was in that round before, or has just begun
it. -/
theorem Effect.round_cases {earlier' : List PeerHandshake} {round' : Round}
    (h : Effect cfg k e k') (hphase : k'.phase = .handshake earlier' round') :
    (∃ providers maxPeers now, e = .beginHandshake round'.narHash providers maxPeers now ∧
        k'.queue = k.queue ∧ round' = Round.start round'.narHash providers maxPeers now) ∨
      ∃ earlier round, k.phase = .handshake earlier round ∧ round'.narHash = round.narHash ∧
        ∀ p ∈ round'.pending, p ∈ round.pending := by
  cases h with
  | keep _ => exact Or.inr ⟨earlier', round', hphase, rfl, fun _ hp => hp⟩
  | reset _ => cases hphase
  | @beginRound narHash providers maxPeers now earlier _ =>
      obtain ⟨-, rfl⟩ := Phase.handshake.inj hphase
      exact Or.inl ⟨providers, maxPeers, now, rfl, rfl, rfl⟩
  | @retry now earlier round hold =>
      obtain ⟨rfl, rfl⟩ := Phase.handshake.inj hphase
      exact Or.inr ⟨_, _, hold, rfl, fun _ hp => Table.mem_mapValues.mp hp⟩
  | leaveRound _ _ => cases hphase
  | @reply n queue earlier round peer response hs hq hold hnote hof =>
      obtain ⟨rfl, rfl⟩ := Phase.handshake.inj hphase
      exact Or.inr ⟨_, _, hold, round.narHash_reply hs, fun _ hp => round.mem_pending_of_reply hp⟩
  | beginDownload _ _ => cases hphase
  | fetch _ _ _ => cases hphase

end Connection

/-! ### The system -/

namespace System

variable [Sha256] {cfg : RelayConfig} {s s' : System} {e : SystemEvent}

/-- **What a system event can do**: it belongs to one connection, or it publishes one
notification; a published response has just been logged as an answer. -/
theorem step_cases (h : step cfg s e = .ok s') :
    (∃ c ce k, e = .conn c ce ∧ (s.conns c).Effect cfg ce k ∧
        s'.conns = Function.update s.conns c k ∧ s'.answered = s.answered) ∨
      ((∀ c ce, e ≠ .conn c ce) ∧ s' = s) ∨
      ∃ n, (∀ c ce, e ≠ .conn c ce) ∧ s.answered ⊆ s'.answered ∧
        (∀ c, s'.conns c = ⟨(s.conns c).queue ++ [n], (s.conns c).phase⟩) ∧
        ∀ peer response, n.note = .blockResponse peer response →
          ∃ i request, e = .answer i response ∧ s.wire[i]? = some (peer, request) ∧
            n.answers = some request ∧ ⟨peer, request, response⟩ ∈ s'.answered := by
  cases e with
  | conn c ce =>
      simp only [step] at h
      cases hstep : (s.conns c).step cfg ce with
      | error p => rw [hstep] at h; cases h
      | ok r =>
          obtain ⟨k, requests⟩ := r
          rw [hstep] at h
          obtain rfl := Except.ok.inj h
          exact Or.inl ⟨c, ce, k, rfl, Connection.effect_of_step hstep, rfl, rfl⟩
  | answer i response =>
      simp only [step] at h
      cases hwire : s.wire[i]? with
      | none =>
          rw [hwire] at h
          exact Or.inr (Or.inl ⟨nofun, (Except.ok.inj h).symm⟩)
      | some pr =>
          obtain ⟨peer, request⟩ := pr
          rw [hwire] at h
          obtain rfl := Except.ok.inj h
          refine Or.inr (Or.inr ⟨_, nofun, List.subset_append_left _ _, fun _ => rfl, ?_⟩)
          intro peer' response' hnote
          obtain ⟨rfl, rfl⟩ := SwarmNotification.blockResponse.inj hnote
          exact ⟨i, request, rfl, hwire, rfl, List.mem_append_right _ List.mem_cons_self⟩
  | fail i =>
      simp only [step] at h
      cases hwire : s.wire[i]? with
      | none =>
          rw [hwire] at h
          exact Or.inr (Or.inl ⟨nofun, (Except.ok.inj h).symm⟩)
      | some pr =>
          obtain ⟨peer, request⟩ := pr
          rw [hwire] at h
          obtain rfl := Except.ok.inj h
          exact Or.inr (Or.inr ⟨_, nofun, List.Subset.refl _, fun _ => rfl, nofun⟩)
  | providersFound hash peers =>
      obtain rfl := Except.ok.inj h
      exact Or.inr (Or.inr ⟨_, nofun, List.Subset.refl _, fun _ => rfl, nofun⟩)

/-- Every queued response is a logged answer to the request it remembers. -/
def QueuesLogged (s : System) : Prop :=
  ∀ c, ∀ n ∈ (s.conns c).queue, ∀ peer response, n.note = .blockResponse peer response →
    ∃ request, n.answers = some request ∧ ⟨peer, request, response⟩ ∈ s.answered

omit [Sha256] in
theorem queuesLogged_init : init.QueuesLogged := by
  intro c n hn
  exact absurd hn List.not_mem_nil

theorem step_queuesLogged (hs : s.QueuesLogged) (h : step cfg s e = .ok s') :
    s'.QueuesLogged := by
  intro c n hn peer response hnote
  rcases step_cases h with ⟨c', ce, k, -, heff, hconns, hlog⟩ | ⟨-, rfl⟩ |
    ⟨m, -, hsub, hconns, hpub⟩
  · rw [hlog]
    rw [hconns] at hn
    by_cases hc : c = c'
    · subst hc
      rw [Function.update_self] at hn
      exact hs c n (heff.queue_subset hn) peer response hnote
    · rw [Function.update_of_ne hc] at hn
      exact hs c n hn peer response hnote
  · exact hs c n hn peer response hnote
  · rw [hconns c] at hn
    rcases List.mem_append.mp hn with hold | hnew
    · obtain ⟨request, hans, hmem⟩ := hs c n hold peer response hnote
      exact ⟨request, hans, hsub hmem⟩
    · obtain rfl := List.mem_singleton.mp hnew
      obtain ⟨_, request, -, -, hans, hmem⟩ := hpub peer response hnote
      exact ⟨request, hans, hmem⟩

/-- A download inside the system is a run of the download machine. -/
def Fetches (cfg : RelayConfig) (s : System) : Prop :=
  ∀ c narHash d, (s.conns c).phase = .download narHash d →
    ∃ narSize first rest s₀ events,
      (BlockDownload.start (Hex.encode narHash.toList) narSize
        (downloadBlockInfo narSize cfg.blockSize cfg.blockSize_pos first)
        (first :: rest)).SameMaps s₀ ∧
      Machine.run (BlockDownload.step cfg.fetch) s₀ events = .ok d

theorem step_fetches (hs : s.Fetches cfg) (h : step cfg s e = .ok s') : s'.Fetches cfg := by
  intro c narHash d hphase
  rcases step_cases h with ⟨c', ce, k, -, heff, hconns, -⟩ | ⟨-, rfl⟩ | ⟨m, -, -, hconns, -⟩
  · rw [hconns] at hphase
    by_cases hc : c = c'
    · subst hc
      rw [Function.update_self] at hphase
      cases heff with
      | keep _ => exact hs c narHash d hphase
      | reset _ => cases hphase
      | beginRound _ => cases hphase
      | retry _ => cases hphase
      | leaveRound _ _ => cases hphase
      | reply _ _ _ _ => cases hphase
      | @beginDownload narHash' first rest narSize setUp _ hset =>
          obtain ⟨rfl, rfl⟩ := Phase.download.inj hphase
          exact ⟨narSize, first, rest, _, [], hset, rfl⟩
      | @fetch _ queue narHash' d₀ d' ev _ hold hstep =>
          obtain ⟨rfl, rfl⟩ := Phase.download.inj hphase
          obtain ⟨narSize, first, rest, s₀, events, hstart, hrun⟩ := hs c _ _ hold
          refine ⟨narSize, first, rest, s₀, events ++ [ev], hstart, ?_⟩
          rw [Machine.run_append hrun, Machine.run_cons_ok hstep, Machine.run_nil]
    · rw [Function.update_of_ne hc] at hphase
      exact hs c narHash d hphase
  · exact hs c narHash d hphase
  · rw [hconns c] at hphase
    exact hs c narHash d hphase

/-- **Downloads of the system are downloads.** -/
theorem run_fetches {events : List SystemEvent}
    (hrun : Machine.run (step cfg) init events = .ok s) : s.Fetches cfg :=
  Machine.run_invariant (P := Fetches cfg) (fun _ _ _ hs h => step_fetches hs h)
    (fun _ _ _ h => by cases h) hrun

end System

end GuixP2p
