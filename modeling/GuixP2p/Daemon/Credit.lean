import Mathlib.Data.List.Nodup
import GuixP2p.Daemon.FetchSafety
import GuixP2p.Daemon.P2pDownload
import GuixP2p.Daemon.Selection
import GuixP2p.Daemon.Stall
import GuixP2p.Swarm.Assembly

/-!
# GuixP2p.Daemon.Credit

**Who is credited for a download.** `try_p2p_download` of `src/daemon.rs` records a success for every
peer that it shook hands with, each with all the bytes of the NAR, and does not look at who sent
them. `credit_matches_iff` says when the credit is nevertheless the contribution: there is one
handshake, or nothing to credit.

The handshaked peers are distinct (`nodup_collectHandshakes`): a round takes one reply from each, and
the fallback round leaves out those that have answered. That the candidates of a round are among the
providers it selects from is the business of the provider selection.
-/

namespace GuixP2p

open GuixP2p.Lib

/-! ### The byte counters -/

namespace ReputationTracker

/-- A peer's counter of bytes served, zero for a peer never seen. -/
def bytesServed (t : ReputationTracker) (peer : PeerId) : UInt64 :=
  ((t.peers.lookup peer).map (·.bytesServed)).getD 0

theorem bytesServed_recordSuccess (t : ReputationTracker) (now : Instant) (peer p : PeerId) (bytes : UInt64) :
    (t.recordSuccess now peer bytes).bytesServed p =
      if p = peer then t.bytesServed p + bytes else t.bytesServed p := by
  unfold bytesServed recordSuccess
  by_cases hp : p = peer
  · subst hp
    rw [Table.lookup_upsert_self, if_pos rfl]
    cases t.peers.lookup p <;> rfl
  · rw [Table.lookup_upsert_of_ne hp, if_neg hp]

theorem mem_recordSuccess {t : ReputationTracker} {now : Instant} {peer p : PeerId} {bytes : UInt64} :
    p ∈ (t.recordSuccess now peer bytes).peers ↔ p = peer ∨ p ∈ t.peers := by
  rw [← AList.lookup_isSome, ← AList.lookup_isSome, recordSuccess]
  by_cases hp : p = peer
  · subst hp
    simp [Table.lookup_upsert_self]
  · simp [Table.lookup_upsert_of_ne hp, hp]

/-- By how much the counters of all peers have grown together. -/
def servedIncrease (t t' : ReputationTracker) : Nat :=
  (t'.peers.keys.map fun p => (t'.bytesServed p - t.bytesServed p).toNat).sum

end ReputationTracker

/-- What the daemon keeps about its peers. -/
structure PeerBooks where
  tracker : ReputationTracker
  manager : ConnectionManager

/-- One turn of the loop over the handshakes, with the clock when the peer's turn comes. -/
def creditPeer (clock : PeerId → Instant) (bytes : UInt64) (books : PeerBooks) (handshake : PeerHandshake) :
    PeerBooks where
  tracker := books.tracker.recordSuccess (clock handshake.peer) handshake.peer bytes
  manager := books.manager.onActive (clock handshake.peer) handshake.peer

def creditPeers (clock : PeerId → Instant) (bytes : UInt64) (handshakes : List PeerHandshake)
    (books : PeerBooks) : PeerBooks :=
  handshakes.foldl (creditPeer clock bytes) books

section

variable {clock : PeerId → Instant} {bytes : UInt64} {handshakes : List PeerHandshake} {books : PeerBooks}

/-- Every handshaked peer gets the same credit, and nobody else any. -/
theorem bytesServed_creditPeers (hnodup : (handshakePeers handshakes).Nodup) (p : PeerId) :
    (creditPeers clock bytes handshakes books).tracker.bytesServed p =
      if p ∈ handshakePeers handshakes then books.tracker.bytesServed p + bytes
      else books.tracker.bytesServed p := by
  unfold creditPeers handshakePeers at *
  induction handshakes generalizing books with
  | nil => rfl
  | cons hs handshakes ih =>
      rw [List.map_cons, List.nodup_cons] at hnodup
      rw [List.foldl_cons, ih hnodup.2, creditPeer, ReputationTracker.bytesServed_recordSuccess]
      by_cases hp : p = hs.peer
      · subst hp
        simp [hnodup.1]
      · simp [hp]

theorem mem_creditPeers {p : PeerId} :
    p ∈ (creditPeers clock bytes handshakes books).tracker.peers ↔
      p ∈ handshakePeers handshakes ∨ p ∈ books.tracker.peers := by
  have hstep : ∀ (books : PeerBooks) (hs : PeerHandshake),
      p ∈ (creditPeer clock bytes books hs).tracker.peers ↔ p ∈ books.tracker.peers ∨ hs.peer = p := by
    intro books hs
    rw [creditPeer, ReputationTracker.mem_recordSuccess, or_comm, eq_comm]
  rw [creditPeers, foldl_iff_or (P := fun books : PeerBooks => p ∈ books.tracker.peers) hstep, or_comm, handshakePeers, List.mem_map]

/-- The same amount for each of some distinct keys. -/
theorem sum_map_ite_mem {keys peers : List PeerId} (hkeys : keys.Nodup) (hpeers : peers.Nodup) (hsub : peers ⊆ keys)
    (n : Nat) : (keys.map fun p => if p ∈ peers then n else 0).sum = peers.length * n := by
  have hperm : (keys.filter fun p => p ∈ peers).Perm peers := by
    refine (List.perm_ext_iff_of_nodup (hkeys.filter _) hpeers).mpr fun p => ?_
    simp only [List.mem_filter, decide_eq_true_eq]
    exact and_iff_right_of_imp fun hp => hsub hp
  rw [← hperm.length_eq]
  clear hperm hsub hkeys
  induction keys with
  | nil => simp
  | cons k keys ih =>
      by_cases hk : k ∈ peers
      · simp only [List.map_cons, List.sum_cons, ih, List.filter_cons, hk, decide_true, if_true, List.length_cons]
        rw [Nat.add_mul, Nat.one_mul, Nat.add_comm]
      · simp [hk, ih]

/-- **The credit given in all**: the whole NAR, once for every handshake. -/
theorem servedIncrease_creditPeers (hnodup : (handshakePeers handshakes).Nodup) :
    books.tracker.servedIncrease (creditPeers clock bytes handshakes books).tracker =
      handshakes.length * bytes.toNat := by
  have hpeer : ∀ p, ((creditPeers clock bytes handshakes books).tracker.bytesServed p -
      books.tracker.bytesServed p).toNat = if p ∈ handshakePeers handshakes then bytes.toNat else 0 := by
    intro p
    rw [bytesServed_creditPeers hnodup]
    split
    · rw [UInt64.add_comm, UInt64.add_sub_cancel]
    · rw [UInt64.sub_self, UInt64.toNat_zero]
  unfold ReputationTracker.servedIncrease
  simp only [hpeer]
  rw [sum_map_ite_mem (AList.keys_nodup _) hnodup fun p hp => AList.mem_keys.mp (mem_creditPeers.mpr (Or.inl hp)),
    handshakePeers, List.length_map]

end

/-! ### Distinct handshakes -/

namespace Round

/-- What every reply and every tick preserve, a round preserves. -/
theorem run_invariant {P : Round → Prop} (hreply : ∀ r hs, P r → P (r.reply hs)) (htick : ∀ r now, P r → P (r.tick now)) :
    ∀ (turns : List RoundTurn) (r : Round), P r → P (Round.run turns r) := by
  intro turns
  induction turns with
  | nil => exact fun r hr => hr
  | cons t turns ih =>
      intro r hr
      unfold Round.run
      split
      · exact hr
      · split
        · split
          · exact ih _ (hreply _ _ hr)
          · exact ih _ hr
        · exact ih _ hr
        · exact hr
        · exact ih _ (htick _ _ hr)

/-- Every peer of the round has answered once, or is pending, or has been left out. -/
structure Distinct (peers : List PeerId) (r : Round) : Prop where
  nodup : (handshakePeers r.results).Nodup
  answered : ∀ p ∈ handshakePeers r.results, p ∉ r.pending ∧ p ∈ peers
  pending : ∀ p ∈ r.pending, p ∈ peers

theorem Distinct.reply {peers : List PeerId} {r : Round} (h : Distinct peers r) (hs : PeerHandshake) :
    Distinct peers (r.reply hs) := by
  unfold Round.reply
  split
  next hmem =>
    have hpeers : handshakePeers (r.results ++ [hs]) = handshakePeers r.results ++ [hs.peer] := by
      simp [handshakePeers]
    refine ⟨?_, fun p hp => ?_, fun p hp => h.pending p (AList.mem_erase.mp hp).2⟩
    · rw [hpeers]
      refine List.nodup_append.mpr ⟨h.nodup, List.nodup_singleton _, fun p hp q hq heq => ?_⟩
      rw [List.mem_singleton.mp hq] at heq
      exact (h.answered p hp).1 (heq ▸ hmem)
    · rw [hpeers] at hp
      rw [AList.mem_erase]
      rcases List.mem_append.mp hp with hp | hp
      · exact ⟨fun hmem => (h.answered p hp).1 hmem.2, (h.answered p hp).2⟩
      · rw [List.mem_singleton.mp hp]
        exact ⟨fun hmem => hmem.1 rfl, h.pending hs.peer hmem⟩
  next => exact h

theorem Distinct.tick {peers : List PeerId} {r : Round} (h : Distinct peers r) (now : Instant) :
    Distinct peers (r.tick now) := by
  refine ⟨h.nodup, fun p hp => ?_, fun p hp => h.pending p (Table.mem_mapValues.mp hp)⟩
  exact ⟨fun hmem => (h.answered p hp).1 (Table.mem_mapValues.mp hmem), (h.answered p hp).2⟩

/-- A round takes one reply from each peer that it contacts. -/
theorem distinct_run (narHash : Digest) (providers : List PeerId) (maxPeers : Nat) (world : RoundWorld) :
    Distinct providers (Round.run world.turns (Round.start narHash providers maxPeers world.startAt)) := by
  refine run_invariant (fun r hs h => h.reply hs) (fun r now h => h.tick now) _ _ ⟨List.nodup_nil, ?_, fun p hp => ?_⟩
  · simp [Round.start, handshakePeers]
  · exact List.mem_of_mem_take (mem_pending_start.mp hp)

end Round

/-- Every selection of the download is made by `select_provider_candidates`, with the reputation and
the connections as they are then. -/
def P2pWorld.Selects (S : Type) [PeerScoring S] [Preorder S] [DecidableLE S] (cfg : Config) (world : P2pWorld) : Prop :=
  ∀ k peers, ∃ w : SelectionWorld, w.selectProviderCandidates S peers cfg.maxPeersPerDownload = .ok (world.select k peers)

theorem P2pWorld.Selects.subset {S : Type} [PeerScoring S] [Preorder S] [DecidableLE S] {cfg : Config} {world : P2pWorld}
    (h : world.Selects S cfg) (k : Nat) (peers : List PeerId) : world.select k peers ⊆ peers := by
  intro p hp
  obtain ⟨w, hselect⟩ := h k peers
  unfold SelectionWorld.selectProviderCandidates at hselect
  cases hreport : w.selectProviderCandidatesWithReport S peers cfg.maxPeersPerDownload with
  | error e => rw [hreport] at hselect; cases hselect
  | ok selection =>
      rw [hreport] at hselect
      have hpeers : selection.peers = world.select k peers := Except.ok.inj hselect
      rw [← hpeers, SelectionWorld.selected_peers_eq hreport] at hp
      exact List.mem_of_mem_filter (Ranking.mem_ranked.mp (List.mem_of_mem_filter (List.mem_of_mem_take hp)))

section

variable {σ : Type} {S : Type} [PeerScoring S] [Preorder S] [DecidableLE S] {cfg : Config} {world : P2pWorld}
  {narHash : Digest} {storePath hashPart : Text} {narSize providerTimeout : UInt64} {s : σ}
  {handshakes : List PeerHandshake} {needed : Nat}

theorem distinct_firstHandshakes (selected : List PeerId) :
    (handshakePeers (firstHandshakes cfg world narHash selected)).Nodup := by
  unfold firstHandshakes
  split
  · exact (Round.distinct_run _ _ _ _).nodup
  · exact List.nodup_nil

/-- **The handshaked peers are distinct**: the fallback round asks no peer that has answered. -/
theorem nodup_collectHandshakes (hselects : world.Selects S cfg)
    (h : (collectHandshakes cfg world narHash storePath narSize hashPart providerTimeout s).result =
      .ok (handshakes, needed)) : (handshakePeers handshakes).Nodup := by
  unfold collectHandshakes at h
  split at h
  next hfallback =>
    rw [Action.bind_of_ok rfl] at h
    dsimp only at h
    generalize hmore : handshakeWithProviders world.fallbackRound _ narHash cfg.maxPeersPerDownload = more at h
    cases more with
    | nil =>
      obtain ⟨rfl, -⟩ := Prod.mk.inj (Except.ok.inj h)
      exact distinct_firstHandshakes _
    | cons first rest =>
      obtain ⟨rfl, -⟩ := Prod.mk.inj (Except.ok.inj h)
      unfold handshakeWithProviders at hmore
      have hround := Round.distinct_run narHash
        (fallbackCandidates world (selectedProviders cfg world providerTimeout)
          (firstHandshakes cfg world narHash (selectedProviders cfg world providerTimeout)))
        cfg.maxPeersPerDownload world.fallbackRound
      have hanswered := hround.answered
      have hnodup := hround.nodup
      rw [hmore] at hanswered hnodup
      unfold handshakePeers at *
      rw [List.map_append]
      refine List.nodup_append.mpr ⟨distinct_firstHandshakes _, hnodup, fun p hp q hq heq => ?_⟩
      subst heq
      have hcandidate := hselects.subset 2 _ (hanswered p hq).2
      simp only [excludePeers, List.mem_filter, decide_eq_true_eq] at hcandidate
      exact hcandidate.2 hp
  next =>
    obtain ⟨rfl, -⟩ := Prod.mk.inj (Except.ok.inj h)
    exact distinct_firstHandshakes _

end

/-! ### The download and its credit -/

section

variable [Sha256]

/-- The loop of `download_blocks_from_peers`. -/
def downloadLoop (cfg : Config) (world : DownloadWorld) (handshakes : List PeerHandshake) (narSize : UInt64)
    (blockInfo : BlockInfo) (narHash : Text) : Except Panic FetchLoop :=
  let start := BlockDownload.start narHash narSize blockInfo handshakes
  let fetch := if start.SameMaps world.setUp then world.setUp else start
  let timeout := blockDownloadOverallTimeoutSecs cfg.requestTimeoutSecs cfg.stallTimeoutSecs narSize
  FetchLoop.run cfg (afterSecs world.overallAt timeout) world.turns
    { fetch := { fetch with sched := (dispatchBlockRequests fetch.sched world.dispatchAt cfg.fetch.maxInFlight).1 }
      stallDeadline := afterSecs world.stallAt cfg.stallTimeoutSecs }

/-- At least one block of the download was accepted from the peer. -/
def Contributed (cfg : Config) (world : P2pWorld) (narHash : Digest) (narSize : UInt64)
    (handshakes : List PeerHandshake) (peer : PeerId) : Prop :=
  ∃ blockInfo last, p2pBlockInfo cfg narSize handshakes = .ok (.ok blockInfo) ∧
    downloadLoop cfg world.download handshakes narSize blockInfo (Hex.encode narHash.toList) = .ok last ∧
    ∃ i b, last.fetch.download.HoldsFrom peer i b

variable {σ : Type}

/-- `try_p2p_download` with the books it keeps. The rounds of handshakes also charge failures and
attempts, which no counter of bytes depends on. -/
def tryP2pDownloadCredited (cfg : Config) (world : P2pWorld) (narHash : Digest) (storePath : Text) (narSize : UInt64)
    (hashPart : Text) (providerTimeout : UInt64) (clock : PeerId → Instant) (books : PeerBooks) :
    Action σ Effect Panic (Except DownloadFailure Bytes × PeerBooks) := do
  let (handshakes, needed) ← collectHandshakes cfg world narHash storePath narSize hashPart providerTimeout
  if handshakes.length < needed then
    pure (.error (.notEnoughHandshakes handshakes.length needed), books)
  else do
    match ← Action.ofExcept (fetchFromPeers cfg world narHash narSize handshakes) with
    | .error e => pure (.error e, books)
    | .ok nar => pure (.ok nar, creditPeers clock (UInt64.ofNat nar.length) handshakes books)

/-- The credit is the contribution: the counters grow by the length of the NAR in all, and only
those of peers that have sent a block. -/
structure CreditMatches (before after : ReputationTracker) (nar : Bytes) (contributed : PeerId → Prop) : Prop where
  total : before.servedIncrease after = (UInt64.ofNat nar.length).toNat
  earned : ∀ p, after.bytesServed p ≠ before.bytesServed p → contributed p

/-! ### What a successful download leaves -/

variable {cfg : Config} {world : P2pWorld} {narHash : Digest} {storePath hashPart : Text}
  {narSize providerTimeout : UInt64} {clock : PeerId → Instant} {books books' : PeerBooks} {s : σ}
  {handshakes : List PeerHandshake} {needed : Nat} {nar : Bytes}

/-- Keeping books changes nothing of the download itself. -/
theorem result_tryP2pDownloadCredited :
    (tryP2pDownload cfg world narHash storePath narSize hashPart providerTimeout s).result =
      (tryP2pDownloadCredited cfg world narHash storePath narSize hashPart providerTimeout clock books s).result.map
        (·.1) := by
  unfold tryP2pDownload tryP2pDownloadCredited
  cases hcollect : (collectHandshakes cfg world narHash storePath narSize hashPart providerTimeout s).result with
  | error p => rw [Action.bind_of_error hcollect, Action.bind_of_error hcollect]; rfl
  | ok r =>
      rw [Action.bind_of_ok hcollect, Action.bind_of_ok hcollect]
      dsimp only
      split
      · rfl
      · cases hfetch : fetchFromPeers cfg world narHash narSize r.1 with
        | error p => rfl
        | ok r => cases r <;> rfl

theorem fetchFromPeers_of_credited
    (hcollect : (collectHandshakes cfg world narHash storePath narSize hashPart providerTimeout s).result =
      .ok (handshakes, needed))
    (h : (tryP2pDownloadCredited cfg world narHash storePath narSize hashPart providerTimeout clock books s).result =
      .ok (.ok nar, books')) :
    fetchFromPeers cfg world narHash narSize handshakes = .ok (.ok nar) ∧
      books' = creditPeers clock (UInt64.ofNat nar.length) handshakes books := by
  unfold tryP2pDownloadCredited at h
  rw [Action.bind_of_ok hcollect] at h
  dsimp only at h
  split at h
  · cases h
  · cases hfetch : fetchFromPeers cfg world narHash narSize handshakes with
    | error p => rw [hfetch] at h; cases h
    | ok r =>
        rw [hfetch] at h
        cases r with
        | error e => cases h
        | ok nar' =>
            obtain ⟨hnar, hbooks⟩ := Prod.mk.inj (Except.ok.inj h)
            obtain rfl := Except.ok.inj hnar
            exact ⟨rfl, hbooks.symm⟩

omit [Sha256] in
theorem holds_of_findBlock {rs : List DownloadResult} {i : Nat} {b : Bytes}
    (h : ActiveDownload.findBlock rs i = .ok (some b)) : ∃ r ∈ rs, r.blocks[i]? = some (some b) := by
  induction rs with
  | nil => cases h
  | cons r rs ih =>
      rw [ActiveDownload.findBlock] at h
      split at h
      · cases h
      next b' hb =>
        obtain rfl := Option.some.inj (Except.ok.inj h)
        exact ⟨r, List.mem_cons_self, hb⟩
      · obtain ⟨r', hr', hb⟩ := ih h
        exact ⟨r', List.mem_cons_of_mem _ hr', hb⟩

omit [Sha256] in
/-- What is assembled has been received. -/
theorem received_of_assembleLoop {rs : List DownloadResult} {is : List Nat} {acc nar : Bytes}
    (h : ActiveDownload.assembleLoop rs is acc = .ok (.ok nar)) (hne : nar ≠ acc) :
    ∃ r ∈ rs, ∃ (i : Nat) (b : Bytes), r.blocks[i]? = some (some b) := by
  cases is with
  | nil => exact absurd (Except.ok.inj (Except.ok.inj h)).symm hne
  | cons i is =>
      rw [ActiveDownload.assembleLoop] at h
      split at h
      · cases h
      · cases h
      next b hfind =>
        obtain ⟨r, hr, hb⟩ := holds_of_findBlock hfind
        exact ⟨r, hr, i, b, hb⟩

/-- The loop serves the handshaked peers and no others. -/
theorem mem_handshakes_of_downloadLoop {world : DownloadWorld} {blockInfo : BlockInfo} {narHash : Text}
    {last : FetchLoop} (h : downloadLoop cfg world handshakes narSize blockInfo narHash = .ok last) {p : PeerId}
    (hp : p ∈ last.fetch.download.receivers) : p ∈ handshakePeers handshakes := by
  unfold downloadLoop at h
  dsimp only at h
  generalize hfetch : (if (BlockDownload.start narHash narSize blockInfo handshakes).SameMaps world.setUp then
    world.setUp else BlockDownload.start narHash narSize blockInfo handshakes) = fetch at h
  have hstarted : BlockDownload.Started narHash narSize blockInfo handshakes fetch := by
    rw [← hfetch]
    split
    next hsame => exact BlockDownload.started_of_sameMaps hsame
    next => exact BlockDownload.started_of_sameMaps (BlockDownload.SameMaps.refl _)
  obtain ⟨es, hrun⟩ := FetchLoop.reaches_run h
  have hfields : last.fetch.download.blockInfo = blockInfo ∧
      ∀ p, p ∈ last.fetch.download.receivers ↔ ∃ hs ∈ handshakes, hs.peer = p := by
    refine Machine.run_invariant (P := fun u : BlockDownload => u.download.blockInfo = blockInfo ∧
      ∀ p, p ∈ u.download.receivers ↔ ∃ hs ∈ handshakes, hs.peer = p)
      (fun _ _ _ hs hstep => BlockDownload.step_fields hs hstep) ?_ hrun
    exact ⟨hstarted.blockInfo_eq, hstarted.receivers_mem⟩
  obtain ⟨hs, hmem, rfl⟩ := (hfields.2 p).mp hp
  exact List.mem_map_of_mem hmem

theorem downloadBlocksFromPeers_eq (cfg : Config) (world : DownloadWorld) (handshakes : List PeerHandshake)
    (narSize : UInt64) (blockInfo : BlockInfo) (narHash : Text) :
    downloadBlocksFromPeers cfg world handshakes narSize blockInfo narHash =
      match downloadLoop cfg world handshakes narSize blockInfo narHash with
      | .error p => .error p
      | .ok last =>
        match last.fetch.download.isComplete with
        | .error p => .error p
        | .ok false => .ok (.error .incomplete)
        | .ok true =>
          match last.fetch.download.assemble with
          | .error p => .error p
          | .ok (.error e) => .ok (.error e)
          | .ok (.ok nar) => .ok (.ok (nar, "sha256:".toList ++ Hex.encode (Sha256.digest nar).toList)) := rfl

/-- A NAR that is not empty came from somebody. -/
theorem exists_contributed (h : fetchFromPeers cfg world narHash narSize handshakes = .ok (.ok nar)) (hne : nar ≠ []) :
    ∃ p ∈ handshakePeers handshakes, Contributed cfg world narHash narSize handshakes p := by
  unfold fetchFromPeers at h
  split at h
  · cases h
  · cases h
  next blockInfo hinfo =>
    rw [downloadBlocksFromPeers_eq] at h
    cases hlast : downloadLoop cfg world.download handshakes narSize blockInfo (Hex.encode narHash.toList) with
    | error p => rw [hlast] at h; cases h
    | ok last =>
      rw [hlast] at h
      dsimp only at h
      cases hcomplete : last.fetch.download.isComplete with
      | error p => rw [hcomplete] at h; cases h
      | ok complete =>
        rw [hcomplete] at h
        cases complete with
        | false => cases h
        | true =>
          cases hassemble : last.fetch.download.assemble with
          | error p => rw [hassemble] at h; cases h
          | ok r =>
            rw [hassemble] at h
            cases r with
            | error e => cases h
            | ok nar' =>
              obtain rfl := Except.ok.inj (Except.ok.inj h)
              obtain ⟨r, hr, i, b, hb⟩ := received_of_assembleLoop (ActiveDownload.assemble_ok_inv hassemble).1 hne
              obtain ⟨p, hp⟩ := Table.mem_values.mp hr
              refine ⟨p, mem_handshakes_of_downloadLoop hlast (Table.mem_iff_exists_lookup.mpr ⟨r, hp⟩), ?_⟩
              exact ⟨blockInfo, last, hinfo, hlast, i, b, r, hp, hb⟩

/-- **When the credit is the contribution.** After a download that succeeds, the byte counters have
grown by the length of the NAR in all, and only for peers that have sent a block, exactly if the
length is zero or a single peer was shaken hands with. -/
theorem credit_matches_iff {S : Type} [PeerScoring S] [Preorder S] [DecidableLE S] (hselects : world.Selects S cfg)
    (hcollect : (collectHandshakes cfg world narHash storePath narSize hashPart providerTimeout s).result =
      .ok (handshakes, needed))
    (h : (tryP2pDownloadCredited cfg world narHash storePath narSize hashPart providerTimeout clock books s).result =
      .ok (.ok nar, books')) :
    CreditMatches books.tracker books'.tracker nar (Contributed cfg world narHash narSize handshakes) ↔
      UInt64.ofNat nar.length = 0 ∨ handshakes.length = 1 := by
  obtain ⟨hfetch, rfl⟩ := fetchFromPeers_of_credited hcollect h
  have hnodup := nodup_collectHandshakes hselects hcollect
  generalize hbytes : UInt64.ofNat nar.length = bytes
  have hzero : bytes.toNat = 0 ↔ bytes = 0 := by rw [← UInt64.toNat_inj, UInt64.toNat_zero]
  constructor
  · intro h'
    obtain ⟨htotal, -⟩ := h'
    rw [servedIncrease_creditPeers hnodup, hbytes] at htotal
    have hsame : handshakes.length * bytes.toNat = 1 * bytes.toNat := by rw [htotal, Nat.one_mul]
    rw [← hzero, or_comm]
    exact mul_eq_mul_right_iff.mp hsame
  · intro hcond
    refine ⟨?_, fun p hp => ?_⟩
    · rw [servedIncrease_creditPeers hnodup, hbytes]
      rcases hcond with rfl | hone
      · rfl
      · rw [hone, Nat.one_mul]
    · rw [bytesServed_creditPeers hnodup] at hp
      split at hp
      next hmem =>
        have hpos : bytes ≠ 0 := by
          intro h'
          obtain rfl := h'
          exact hp (UInt64.add_zero _)
        have hne : nar ≠ [] := by
          intro h'
          obtain rfl := h'
          exact hpos hbytes.symm
        obtain ⟨q, hq, hcontributed⟩ := exists_contributed hfetch hne
        -- the only handshake is that of the contributor
        obtain ⟨hs, rfl⟩ := List.length_eq_one_iff.mp (hcond.resolve_left hpos)
        rw [handshakePeers, List.map_singleton, List.mem_singleton] at hmem hq
        rwa [hmem, ← hq]
      next => exact absurd rfl hp

end

/-! ### One peer serves, and one watches -/

open AskedLoop (sampleLoopConfig turnAt)

/-- Nobody is known to the reputation, and nobody has been dialled. -/
def unknownWorld : SelectionWorld := ⟨.new 5, ConnectionManager.defaultLimits, .new ⟨60000⟩, fun _ => 0, fun _ => 0⟩

/-- What is selected from some peers. -/
def selectUnknown (peers : List PeerId) : List PeerId :=
  match @SelectionWorld.selectProviderCandidates Nat SelectionWorld.sampleScoring _ _ unknownWorld peers 4 with
  | .ok selected => selected
  | .error _ => []

/-- Some providers that answer a handshake for `sampleNar`; then `peerA` sends its block. -/
def creditWorld (providers : List PeerId) : P2pWorld where
  providers
  refreshed := []
  select _ := selectUnknown
  connected := []
  bootstrap := []
  round := ⟨0, providers.map fun p =>
    ⟨1, .note (.blockResponse p (.handshakeReply [0] 1 4 [(sampleSha256.digest sampleNar).toList])), 1⟩⟩
  fallbackRound := ⟨0, []⟩
  download := ⟨0, 0, 0, sampleDownload, [turnAt 1 (.note (.blockResponse peerA (.blocks [⟨0, sampleNar⟩])))]⟩

theorem creditWorld_selects (providers : List PeerId) :
    @P2pWorld.Selects Nat SelectionWorld.sampleScoring _ _ sampleLoopConfig (creditWorld providers) := by
  intro k peers
  have hreturns : ∃ selection, @SelectionWorld.selectProviderCandidatesWithReport Nat SelectionWorld.sampleScoring _ _
      unknownWorld peers 4 = .ok selection :=
    SelectionWorld.takeCandidates_ok (fun p _ => ⟨true, rfl⟩) _
  obtain ⟨selection, hselection⟩ := hreturns
  have hselected : @SelectionWorld.selectProviderCandidates Nat SelectionWorld.sampleScoring _ _ unknownWorld peers 4 =
      .ok selection.peers := congrArg (Except.map ProviderCandidateSelection.peers) hselection
  refine ⟨unknownWorld, hselected.trans (congrArg Except.ok ?_)⟩
  change selection.peers = selectUnknown peers
  rw [selectUnknown, hselected]

/-- The handshakes and the download of `sampleNar` from some providers, with nothing in the books. -/
def sampleHandshakes (providers : List PeerId) : Except Panic (List PeerHandshake × Nat) :=
  (collectHandshakes sampleLoopConfig (creditWorld providers) (sampleSha256.digest sampleNar) "/gnu/store/a-b".toList 4
    "a".toList 10 ()).result

def emptyBooks : PeerBooks := ⟨.new 5, .new ⟨60000⟩⟩

def creditedDownload (providers : List PeerId) : Except Panic (Except DownloadFailure Bytes × PeerBooks) :=
  (@tryP2pDownloadCredited sampleSha256 Unit sampleLoopConfig (creditWorld providers) (sampleSha256.digest sampleNar)
    "/gnu/store/a-b".toList 4 "a".toList 10 (fun _ => 7) emptyBooks ()).result

/-- The only peer served all. -/
theorem credit_matches_sample :
    ∃ handshakes needed books, sampleHandshakes [peerA] = .ok (handshakes, needed) ∧
      creditedDownload [peerA] = .ok (.ok sampleNar, books) ∧
      CreditMatches emptyBooks.tracker books.tracker sampleNar
        (@Contributed sampleSha256 sampleLoopConfig (creditWorld [peerA]) (sampleSha256.digest sampleNar) 4 handshakes) := by
  refine ⟨[sampleHandshake peerA], 1, _, rfl, rfl, ?_⟩
  exact (@credit_matches_iff sampleSha256 Unit sampleLoopConfig (creditWorld [peerA]) (sampleSha256.digest sampleNar)
    "/gnu/store/a-b".toList "a".toList 4 10 (fun _ => 7) emptyBooks _ () [sampleHandshake peerA] 1 sampleNar Nat
    SelectionWorld.sampleScoring _ _ (creditWorld_selects [peerA]) rfl rfl).mpr (Or.inr rfl)

/-- Two peers are shaken hands with, and `peerA` sends the only block: each is credited four bytes. -/
theorem watcher_is_credited :
    ∃ handshakes needed books, sampleHandshakes [peerA, peerB] = .ok (handshakes, needed) ∧
      creditedDownload [peerA, peerB] = .ok (.ok sampleNar, books) ∧
      books.tracker.bytesServed peerB = 4 ∧ emptyBooks.tracker.servedIncrease books.tracker = 8 ∧
      ¬ CreditMatches emptyBooks.tracker books.tracker sampleNar
        (@Contributed sampleSha256 sampleLoopConfig (creditWorld [peerA, peerB]) (sampleSha256.digest sampleNar) 4
          handshakes) := by
  refine ⟨[sampleHandshake peerA, sampleHandshake peerB], 1, _, rfl, rfl, rfl, rfl, ?_⟩
  intro h
  obtain ⟨htotal, -⟩ := h
  exact absurd htotal (by decide)

end GuixP2p
