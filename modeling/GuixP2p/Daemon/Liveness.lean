import Mathlib.Data.Finset.Max
import Mathlib.Data.Multiset.AddSub
import Mathlib.Data.Multiset.Filter
import Mathlib.Data.Prod.Lex
import GuixP2p.Lib.Fairness
import GuixP2p.Daemon.Dispatch
import GuixP2p.Daemon.HonestSwarm
import GuixP2p.Daemon.P2pDownload

/-!
# GuixP2p.Daemon.Liveness

**A download comes to its end.** The safety results say what a finished download is; here the
download does finish. The loop is put together with the network: its requests are on their way
until the network answers or loses them, in any order, and between the answers anything may
arrive. As long as some request is still answered now and then by its peer, and the two
deadlines are not reached, the loop ends with the NAR.

Blocks may expire and be requested again without bound, so neither the requests nor the answers
without a new block are bounded by the size of the NAR. What goes down is a pair: the blocks
that are missing, and then the requests on their way whose blocks have all arrived by another
way. A dispatch asks for pending blocks only, so it adds none of the latter.
-/

namespace GuixP2p

open GuixP2p.Lib

/-! ### What a provider answers -/

section

variable [Sha256] {store : NarStore} {files : Files} {data : Bytes}

omit [Sha256] in
theorem filterMapPanic_of_forall {α β : Type} {f : α → Except Panic (Option β)} {g : α → β} {l : List α}
    (h : ∀ a ∈ l, f a = .ok (some (g a))) : filterMapPanic f l = .ok (l.map g) := by
  induction l with
  | nil => rfl
  | cons a l ih =>
      rw [List.forall_mem_cons] at h
      simp [filterMapPanic, h.1, ih h.2]

/-- A store that holds the NAR answers a request for some of its blocks with just these. -/
theorem NarStore.HoldsNar.getBlocks (h : store.HoldsNar files data) (hmem : data.length < 2 ^ 63)
    {indices : List UInt32} (hne : indices ≠ [])
    (hlt : ∀ k ∈ indices, k.toNat < chunkCount data.length store.blockSize.toNat) :
    store.handleRequest files (.getBlocks (Sha256.digest data).toList indices) =
      .ok (some (.blocks (indices.map fun k => ⟨k, chunkAt store.blockSize.toNat data k.toNat⟩))) := by
  obtain ⟨entry, hentry, hfile, -⟩ := h.indexed
  have hserve := filterMapPanic_of_forall fun k hk =>
    NarStore.serveBlock_chunkAt h.blockSize_pos hmem (hlt k hk)
  obtain ⟨k, indices, rfl⟩ := List.exists_cons_of_ne_nil hne
  simp only [NarStore.handleRequest, NarStore.serveBlocks, hentry, hfile, hserve, List.map_cons]

end

/-- An honest run before its first event: what the handshakes say. -/
theorem HonestRun.handshaken [Sha256] {ps : Providers} {data : Bytes} {blockSize : UInt64}
    {handshakes : List PeerHandshake} {events : List FetchEvent}
    (h : HonestRun ps data blockSize handshakes events) : HonestRun ps data blockSize handshakes [] :=
  ⟨h.blockSize_eq, h.holds, h.replied, nofun⟩

theorem HonestRun.getBlocks [Sha256] {ps : Providers} {data : Bytes} {blockSize : UInt64}
    {handshakes : List PeerHandshake} {events : List FetchEvent} (h : HonestRun ps data blockSize handshakes events)
    (hmem : data.length < 2 ^ 63) {hs : PeerHandshake} (hhs : hs ∈ handshakes) {indices : List UInt32}
    (hne : indices ≠ []) (hlt : ∀ k ∈ indices, k.toNat < chunkCount data.length blockSize.toNat) :
    (ps.store hs.peer).handleRequest (ps.files hs.peer) (.getBlocks (Sha256.digest data).toList indices) =
      .ok (some (.blocks (indices.map fun k => ⟨k, chunkAt blockSize.toNat data k.toNat⟩))) := by
  rw [← h.blockSize_eq hs hhs] at hlt ⊢
  exact (h.holds hs hhs).getBlocks hmem hne hlt

/-- The peers of a download stay the same. -/
theorem BlockDownload.run_receivers [Sha256] {narHashHex : Text} {narSize : UInt64} {info : BlockInfo}
    {handshakes : List PeerHandshake} {cfg : FetchConfig} {s₀ s : BlockDownload} {events : List FetchEvent}
    (hstarted : Started narHashHex narSize info handshakes s₀)
    (hrun : Machine.run (step cfg) s₀ events = .ok s) (p : PeerId) :
    p ∈ s.download.receivers ↔ ∃ hs ∈ handshakes, hs.peer = p := by
  have hfields := Machine.run_invariant (P := fun s : BlockDownload => s.download.blockInfo = info ∧
    ∀ p, p ∈ s.download.receivers ↔ ∃ hs ∈ handshakes, hs.peer = p) (fun a e b ha hab => step_fields ha hab)
    ⟨hstarted.blockInfo_eq, hstarted.receivers_mem⟩ hrun
  exact hfields.2 p

/-! ### The loop and the network -/

/-- The requests that the dispatch of a turn sends. -/
def FetchLoop.sent (cfg : Config) (narHash : Digest) (s : BlockDownload) (t : Turn) :
    List (PeerId × BlockRequest) :=
  batchRequests narHash.toList
    (dispatchBlockRequests (requeueExpiredBlocks s.sched t.expireAt cfg.fetch.blockTimeout).1
      t.dispatchAt cfg.fetch.maxInFlight).2

/-- The download loop and the requests that are on their way. -/
structure Transfer where
  loop : FetchLoop
  net : Multiset (PeerId × BlockRequest)

/-- A turn of the loop, and the requests that leave the network meanwhile: answered or lost. -/
structure TransferEvent where
  turn : Turn
  gone : Multiset (PeerId × BlockRequest)

namespace Transfer

/-- What is on its way when the turn waits. -/
def outstanding (cfg : Config) (narHash : Digest) (x : Transfer) (t : Turn) :
    Multiset (PeerId × BlockRequest) :=
  x.net + FetchLoop.sent cfg narHash x.loop.fetch t

/-- The loop as `download_blocks_from_peers` enters it, with its first requests. -/
def entered (cfg : Config) (world : DownloadWorld) (handshakes : List PeerHandshake) (narSize : UInt64)
    (blockInfo : BlockInfo) (narHash : Digest) : Transfer :=
  let start := BlockDownload.start (Hex.encode narHash.toList) narSize blockInfo handshakes
  let fetch := if start.SameMaps world.setUp then world.setUp else start
  let dispatched := dispatchBlockRequests fetch.sched world.dispatchAt cfg.fetch.maxInFlight
  { loop :=
      { fetch := { fetch with sched := dispatched.1 }
        stallDeadline := afterSecs world.stallAt cfg.stallTimeoutSecs }
    net := batchRequests narHash.toList dispatched.2 }

/-- When the loop gives up, whatever it has got. -/
def deadline (cfg : Config) (world : DownloadWorld) (narSize : UInt64) : Instant :=
  afterSecs world.overallAt
    (blockDownloadOverallTimeoutSecs cfg.requestTimeoutSecs cfg.stallTimeoutSecs narSize)

variable [Sha256]

/-- One turn; a turn that ends the loop is a fault that carries the loop it ends with. -/
def step (cfg : Config) (overallDeadline : Instant) (narHash : Digest) (x : Transfer)
    (e : TransferEvent) : Except (Panic ⊕ LoopExit × FetchLoop) Transfer :=
  match x.loop.turn cfg overallDeadline e.turn with
  | .error p => .error (.inl p)
  | .ok (loop, some exit) => .error (.inr (exit, loop))
  | .ok (loop, none) => .ok ⟨loop, x.outstanding cfg narHash e.turn - e.gone⟩

/-- The network changes nothing for the loop: it goes through the same turns. -/
theorem run_eq {cfg : Config} {overallDeadline : Instant} {narHash : Digest} {x y : Transfer}
    {es : List TransferEvent} (h : Machine.run (step cfg overallDeadline narHash) x es = .ok y)
    (later : List Turn) :
    FetchLoop.run cfg overallDeadline (es.map TransferEvent.turn ++ later) x.loop =
      FetchLoop.run cfg overallDeadline later y.loop := by
  induction es generalizing x with
  | nil =>
      obtain rfl : x = y := by simpa using h
      rfl
  | cons e es ih =>
      obtain ⟨u, hu, hrun⟩ := Machine.run_cons_inv h
      rw [List.map_cons, List.cons_append, FetchLoop.run, ← ih hrun]
      unfold step at hu
      cases ht : x.loop.turn cfg overallDeadline e.turn with
      | error p => rw [ht] at hu; cases hu
      | ok r =>
          obtain ⟨loop, exit⟩ := r
          rw [ht] at hu
          cases exit with
          | some e => cases hu
          | none =>
              obtain rfl := Except.ok.inj hu
              rfl

/-! ### The environment -/

/-- The turn is in time: no deadline has passed and the channel is open. -/
structure InTime (overallDeadline : Instant) (x : Transfer) (t : Turn) : Prop where
  overall : t.deadlineAt < overallDeadline
  stall : t.stallAt ≤ x.loop.stallDeadline
  channel : t.waited ≠ .closed

/-- No block that arrives differs from a block of `data` and has its digest. -/
def NoCollision (data : Bytes) (blockSize : Nat) (t : Turn) : Prop :=
  ∀ peer blocks, t.waited = .note (.blockResponse peer (.blocks blocks)) → ∀ bd ∈ blocks, ∀ i,
    Sha256.digest bd.data = Sha256.digest (chunkAt blockSize data i) → bd.data = chunkAt blockSize data i

/-- The turn receives what the store of a peer answers to a request that was on its way. -/
def Delivers (ps : Providers) (cfg : Config) (narHash : Digest) (x : Transfer) (e : TransferEvent) : Prop :=
  ∃ peer request response, (peer, request) ∈ x.outstanding cfg narHash e.turn ∧
    (peer, request) ∈ e.gone ∧
    (ps.store peer).handleRequest (ps.files peer) request = .ok (some response) ∧
    e.turn.waited = .note (.blockResponse peer response)

/-- **A fair environment** for a download of `data` that begins in `x`. It stays in time, and
as long as the loop goes on, some request on its way is answered again. All else is up to it:
which request that is, what is lost, what else arrives and from whom. -/
structure Fair (ps : Providers) (cfg : Config) (overallDeadline : Instant) (data : Bytes) (x : Transfer)
    (events : ℕ → TransferEvent) : Prop where
  inTime : ∀ n y,
    Machine.run (step cfg overallDeadline (Sha256.digest data)) x (Machine.upTo events n) = .ok y →
      y.InTime overallDeadline (events n).turn
  noCollision : ∀ n, NoCollision data cfg.blockSize.toNat (events n).turn
  answers : Machine.RunsForever (step cfg overallDeadline (Sha256.digest data)) x events →
    Machine.HelpedAgain (step cfg overallDeadline (Sha256.digest data))
      (Delivers ps cfg (Sha256.digest data)) x events

/-! ### One turn -/

/-- The layout of a download of `data`, from peers that announce all of its blocks. -/
structure Genuine (data : Bytes) (blockSize : Nat) (info : BlockInfo) (handshakes : List PeerHandshake) :
    Prop where
  count_eq : info.blockCount.toNat = chunkCount data.length blockSize
  hashes_eq : info.blockHashes = computeBlockHashes data blockSize
  announced : ∀ hs ∈ handshakes, ∀ i < chunkCount data.length blockSize, UInt32.ofNat i ∈ hs.blocksAvailable
  someone : ∃ hs, hs ∈ handshakes

section

variable {cfg : Config} {overallDeadline : Instant} {data : Bytes} {narHashHex : Text} {narSize : UInt64}
  {info : BlockInfo} {handshakes : List PeerHandshake} {s₀ : BlockDownload} {x : Transfer} {t : Turn}

omit [Sha256] in
/-- A block that nobody could be asked for is one that nobody with a free slot announced. -/
theorem not_eligible_of_pending (cfg : Config) {s : BlockDownload} (hwf : s.WellFormed) (t : Turn) {i : Nat}
    (hi : (FetchLoop.prepare cfg s t).sched.blockStates[i]? = some .pending) (p : PeerId) (st : PeerFetchState) :
    ¬ Eligible (FetchLoop.prepare cfg s t).sched.peerStates cfg.fetch.maxInFlight (UInt32.ofNat i) p st := by
  have hmoves := requeueExpiredBlocks_moves s.sched t.expireAt cfg.fetch.blockTimeout cfg.fetch.maxInFlight
  have hlen : (requeueExpiredBlocks s.sched t.expireAt cfg.fetch.blockTimeout).1.blockStates.length ≤ 2 ^ 32 :=
    Scheduler.Moves.invariant (P := fun u => u.blockStates.length ≤ 2 ^ 32)
      (fun u v hmove hu => hmove.length_eq.trans_le hu) hmoves hwf.length_le
  have hpass := @dispatchedUpTo _ t.dispatchAt cfg.fetch.maxInFlight hlen
    (requeueExpiredBlocks s.sched t.expireAt cfg.fetch.blockTimeout).1.blockStates.length
  refine hpass.conserving i ?_ hi p st
  by_contra hge
  have hlater := hpass.later i (Nat.le_of_not_lt hge)
  rw [List.getElem?_eq_none (Nat.le_of_not_lt hge)] at hlater
  exact absurd (hlater.symm.trans hi) nofun

/-- **The loop never runs out of providers.** After its dispatch a turn has a block in flight,
unless all have arrived. -/
theorem in_flight_of_prepared (hgen : Genuine data cfg.blockSize.toNat info handshakes)
    (hstarted : BlockDownload.Started narHashHex narSize info handshakes s₀)
    {s : BlockDownload} (hreach : FetchLoop.Reaches cfg s₀ s) (t : Turn)
    (hnone : (FetchLoop.prepare cfg s t).sched.inFlightTotal = 0) :
    ∀ st ∈ (FetchLoop.prepare cfg s t).sched.blockStates, st = .complete := by
  obtain ⟨es, hrun⟩ := hreach.trans (FetchLoop.reaches_prepare s t)
  obtain ⟨hwf, hassigned⟩ := BlockDownload.run_assigned hstarted hrun
  have hframe := BlockDownload.run_frame hrun
  obtain ⟨es', hrun'⟩ := hreach
  have hwf' := (BlockDownload.run_assigned hstarted hrun').1
  rw [Scheduler.inFlightTotal_eq_zero_iff] at hnone
  intro st hst
  obtain ⟨i, hlt, hi⟩ := List.mem_iff_getElem.mp hst
  have hget := List.getElem?_eq_getElem hlt
  rw [hi] at hget
  cases st with
  | complete => rfl
  | inFlight p at_ =>
      have hslot := hassigned.slot i p at_ hget
      rw [hnone p] at hslot
      exact absurd hslot (Finset.notMem_empty _)
  | pending =>
      -- some peer announced the block and has all its slots free
      obtain ⟨hs, hhs⟩ := hgen.someone
      have hknown : ((FetchLoop.prepare cfg s t).sched.advertised hs.peer).isSome := by
        rw [hframe.advertised, Scheduler.advertised, Option.isSome_map, AList.lookup_isSome, hstarted.peers_mem]
        exact ⟨hs, hhs, rfl⟩
      obtain ⟨state, hstate⟩ := Scheduler.isSome_advertised.mp hknown
      refine absurd (Eligible.mk hstate ?_ ?_) (not_eligible_of_pending cfg hwf' t hget hs.peer state)
      · rw [← Scheduler.slots_of_lookup hstate, hnone, Finset.card_empty]
        exact Nat.lt_of_lt_of_le Nat.zero_lt_one (Nat.le_max_right _ _)
      · have hadv := hframe.advertised hs.peer
        rw [Scheduler.advertised_of_lookup hstate] at hadv
        obtain ⟨initial, hinitial, hsame⟩ := Option.map_eq_some_iff.mp hadv.symm
        obtain ⟨hs', hhs', -, rfl⟩ := hstarted.peers_initial hs.peer initial hinitial
        have hcount : i < info.blockCount.toNat := by
          rw [hwf.length_eq, hframe.blockInfo, hstarted.blockInfo_eq] at hlt
          exact hlt
        have hsmall : i < 2 ^ 32 := hcount.trans info.blockCount.toNat_lt
        rw [← hsame]
        simp only [BlockDownload.initialPeerState, List.mem_toFinset, List.mem_filter, decide_eq_true_eq,
          UInt32.toNat_ofNat_of_lt' hsmall]
        exact ⟨hgen.announced hs' hhs' i (hgen.count_eq ▸ hcount), hcount⟩

/-- What a turn in time ends with: the loop goes on, or has all blocks. -/
structure TurnDone (data : Bytes) (blockSize : Nat) (t : Turn) (l : FetchLoop) (exit : Option LoopExit) : Prop where
  chunks : l.fetch.HoldsChunks data blockSize
  exits : exit = none ∨ exit = some .complete ∧ l.fetch.download.isComplete = .ok true
  delivered : ∀ peer blocks, t.waited = .note (.blockResponse peer (.blocks blocks)) →
    peer ∈ l.fetch.download.receivers → ∀ bd ∈ blocks, bd.index.toNat < chunkCount data.length blockSize →
      bd.data = chunkAt blockSize data bd.index.toNat →
      l.fetch.sched.blockStates[bd.index.toNat]? = some .complete

/-- A response in a genuine download: no panic, and the chunks it brings are held. -/
theorem onBlocks_done (hgen : Genuine data cfg.blockSize.toNat info handshakes) {l : FetchLoop}
    (hinfo : l.fetch.download.blockInfo = info) (hwf : l.fetch.WellFormed)
    (hagree : l.fetch.CompletionAgrees) (hchunks : l.fetch.HoldsChunks data cfg.blockSize.toNat)
    {peer : PeerId} {blocks : List BlockData} (hw : t.waited = .note (.blockResponse peer (.blocks blocks)))
    (hno : NoCollision data cfg.blockSize.toNat t) :
    ∃ l' exit, l.onBlocks cfg t peer blocks = .ok (l', exit) ∧
      TurnDone data cfg.blockSize.toNat t l' exit := by
  have hcover : BlockDownload.HashesCover l.fetch.download.blockInfo (· ∈ l.fetch.download.receivers)
      (.response peer blocks) := by
    intro _ bd _ hlt
    rw [hinfo, hgen.hashes_eq, length_computeBlockHashes, ← hgen.count_eq, ← hinfo]
    exact hlt
  obtain ⟨fetch, hstep⟩ := (BlockDownload.step_ok_iff hwf cfg.fetch (.response peer blocks)).mpr hcover
  have hstep' := BlockDownload.step_completionAgrees ⟨hwf, hagree⟩ hstep
  rcases BlockDownload.step_cases hstep with ⟨sched, hnot, -, -⟩ |
    ⟨peer', blocks', download, accepted, heq, hrec, rfl⟩
  · exact absurd rfl (hnot peer blocks)
  obtain ⟨rfl, rfl⟩ := FetchEvent.response.inj heq
  obtain ⟨done, hdone, -⟩ := ActiveDownload.isComplete_spec hstep'.1.slotsFit
  have hresult : ∀ (deadline : Instant) (exit : Option LoopExit),
      (exit = none ∨ exit = some .complete ∧ download.isComplete = .ok true) →
      TurnDone data cfg.blockSize.toNat t
        ⟨⟨download, l.fetch.sched.afterResponse peer (decodeBlockData blocks) accepted⟩, deadline⟩ exit := by
    intro deadline exit hexit
    refine ⟨fun p i b hb => ?_, hexit, fun p blocks' hw' hknown bd hbd hlt hdata => ?_⟩
    · rcases ActiveDownload.holdsFrom_of_recordBlocks hrec hb with hold | ⟨idx, hidx, rfl, hmem, hhash⟩
      · exact hchunks p i b hold
      · have hin := BlockDownload.lt_length_of_accepted hwf hrec ⟨idx, hidx, rfl⟩
        rw [hwf.length_eq, hinfo, hgen.count_eq] at hin
        rw [hinfo, hgen.hashes_eq, getElem?_computeBlockHashes hin] at hhash
        exact hno peer blocks hw ⟨idx, b⟩ (mem_decodeBlockData.mp hmem) idx.toNat (Option.some.inj hhash).symm
    · obtain ⟨rfl, rfl⟩ : p = peer ∧ blocks' = blocks := by simpa [hw, eq_comm] using hw'
      have hin : bd.index.toNat < l.fetch.download.blockInfo.blockCount.toNat := by
        rw [hinfo, hgen.count_eq]
        exact hlt
      have hlen : bd.index.toNat < l.fetch.sched.blockStates.length := by
        rw [hwf.length_eq]
        exact hin
      obtain ⟨-, -, -, hkeys⟩ := ActiveDownload.recordBlocks_fields hrec
      obtain ⟨r, hr⟩ := Table.mem_iff_exists_lookup.mp ((hkeys p).mp hknown)
      have hfit := hwf.slotsFit p r hr
      obtain ⟨slot, hslot⟩ : ∃ slot, r.blocks[bd.index.toNat]? = some slot :=
        ⟨_, List.getElem?_eq_getElem (hfit ▸ hin)⟩
      rw [complete_afterResponse_iff]
      cases slot with
      | some b => exact Or.inl ((hagree _).mpr ⟨p, b, r, hr, hslot⟩)
      | none =>
          refine Or.inr ⟨⟨bd.index, (ActiveDownload.mem_accepted_iff hrec _).mpr
            ⟨r, bd.data, hr, mem_decodeBlockData.mpr hbd, ?_, ?_, hslot⟩, rfl⟩, hlen⟩
          · rw [hfit, UInt32.ofNat_toNat, UInt32.lt_iff_toNat_lt]
            exact hin
          · rw [hinfo, hgen.hashes_eq, getElem?_computeBlockHashes hlt, hdata]
  have hrecord : recordBlockResponse l.fetch peer blocks =
      .ok (⟨download, l.fetch.sched.afterResponse peer (decodeBlockData blocks) accepted⟩,
        ⟨accepted.length, emitBlocksReceived peer (decodeBlockData blocks) accepted⟩) := by
    simp only [recordBlockResponse, hrec]
  unfold FetchLoop.onBlocks
  simp only [hrecord]
  rw [show download.isComplete = .ok done from hdone]
  cases done with
  | true => exact ⟨_, _, rfl, hresult _ _ (Or.inr ⟨rfl, hdone⟩)⟩
  | false => exact ⟨_, _, rfl, hresult _ _ (Or.inl rfl)⟩

/-- A wait that brought no blocks only moves the scheduler. -/
theorem onWaited_cases (l : FetchLoop) (t : Turn) (hopen : t.waited ≠ .closed) :
    (∃ peer blocks, t.waited = .note (.blockResponse peer (.blocks blocks)) ∧
      l.onWaited cfg t = l.onBlocks cfg t peer blocks) ∨
    ((∀ peer blocks, t.waited ≠ .note (.blockResponse peer (.blocks blocks))) ∧
      ∃ sched, l.onWaited cfg t = .ok (⟨{ l.fetch with sched }, l.stallDeadline⟩, none)) := by
  unfold FetchLoop.onWaited
  cases hw : t.waited with
  | closed => exact absurd hw hopen
  | elapsed => exact Or.inr ⟨nofun, _, rfl⟩
  | note n =>
      cases n with
      | blockRequestFailed peer => exact Or.inr ⟨nofun, _, rfl⟩
      | providersFound hash peers => exact Or.inr ⟨nofun, _, rfl⟩
      | blockResponse peer response =>
          cases response with
          | blocks data => exact Or.inl ⟨peer, data, rfl, rfl⟩
          | handshakeReply available count size hashes => exact Or.inr ⟨nofun, _, rfl⟩
          | error message => exact Or.inr ⟨nofun, _, rfl⟩

/-- **Step lemma for the loop.** A turn in time of a genuine download goes on or completes it. -/
theorem turn_done (hgen : Genuine data cfg.blockSize.toNat info handshakes)
    (hstarted : BlockDownload.Started narHashHex narSize info handshakes s₀)
    (hreach : FetchLoop.Reaches cfg s₀ x.loop.fetch)
    (hchunks : x.loop.fetch.HoldsChunks data cfg.blockSize.toNat)
    (hin : x.InTime overallDeadline t) (hno : NoCollision data cfg.blockSize.toNat t) :
    ∃ l exit, x.loop.turn cfg overallDeadline t = .ok (l, exit) ∧
      TurnDone data cfg.blockSize.toNat t l exit := by
  obtain ⟨es, hrun⟩ := hreach.trans (FetchLoop.reaches_prepare x.loop.fetch t)
  obtain ⟨hwf, hagree⟩ := BlockDownload.run_completionAgrees hstarted hrun
  have hinfo := (BlockDownload.run_frame hrun).blockInfo.trans hstarted.blockInfo_eq
  have hturn : x.loop.turn cfg overallDeadline t =
      FetchLoop.onWaited cfg { x.loop with fetch := FetchLoop.prepare cfg x.loop.fetch t } t := by
    unfold FetchLoop.turn
    rw [if_neg (Nat.not_le.mpr hin.overall)]
    dsimp only
    rw [if_neg (Nat.not_lt.mpr hin.stall), if_neg]
    intro h
    exact h.2 (List.all_eq_true.mpr fun st hst =>
      decide_eq_true (in_flight_of_prepared hgen hstarted hreach t h.1 st hst))
  rw [hturn]
  rcases @onWaited_cases _ cfg { x.loop with fetch := FetchLoop.prepare cfg x.loop.fetch t } t hin.channel with
    ⟨peer, blocks, hw, heq⟩ | ⟨hnot, sched, heq⟩
  · rw [heq]
    exact onBlocks_done (l := { x.loop with fetch := FetchLoop.prepare cfg x.loop.fetch t })
      hgen hinfo hwf hagree hchunks hw hno
  · exact ⟨_, _, heq, hchunks, Or.inl rfl, fun peer blocks hw => absurd hw (hnot peer blocks)⟩

/-! ### What is left to do -/

/-- The blocks that are missing. -/
def missing (s : Scheduler) : Finset ℕ :=
  (Finset.range s.blockStates.length).filter fun i => s.blockStates[i]? ≠ some .complete

/-- All blocks of the request have arrived. -/
def Settled (s : Scheduler) (q : PeerId × BlockRequest) : Prop :=
  ∀ k ∈ q.2.indices, s.blockStates[k.toNat]? = some .complete

instance (s : Scheduler) : DecidablePred (Settled s) := fun q =>
  inferInstanceAs (Decidable (∀ k ∈ q.2.indices, s.blockStates[k.toNat]? = some .complete))

/-- The missing blocks, then the requests on their way that can bring none of them. -/
def remaining (x : Transfer) : Finset ℕ ×ₗ ℕ :=
  toLex (missing x.loop.fetch.sched, x.net.countP (Settled x.loop.fetch.sched))

omit [Sha256] in
theorem mem_missing {s : Scheduler} {i : ℕ} :
    i ∈ missing s ↔ i < s.blockStates.length ∧ s.blockStates[i]? ≠ some .complete := by
  simp [missing]

omit [Sha256] in
theorem settled_congr {s s' : Scheduler} (h : missing s' = missing s)
    (hlen : s'.blockStates.length = s.blockStates.length) (q : PeerId × BlockRequest) :
    Settled s' q ↔ Settled s q := by
  have hcomplete : ∀ (u : Scheduler) (i : ℕ), u.blockStates[i]? = some .complete ↔
      i < u.blockStates.length ∧ i ∉ missing u := by
    intro u i
    rw [mem_missing]
    constructor
    · intro hi
      exact ⟨(List.getElem?_eq_some_iff.mp hi).1, fun hmem => hmem.2 hi⟩
    · intro hi
      by_contra hne
      exact hi.2 ⟨hi.1, hne⟩
  simp only [Settled, hcomplete, h, hlen]

/-! ### Requests -/

omit [Sha256] in
theorem dispatch_batch_ne_nil (s : Scheduler) (now : Instant) (maxInFlight : Nat) :
    ∀ p l, (dispatchBlockRequests s now maxInFlight).2.lookup p = some l → l ≠ [] := by
  refine List.foldlRecOn _ _ (motive := fun acc : Scheduler × Table PeerId (List UInt32) =>
    ∀ p l, acc.2.lookup p = some l → l ≠ []) ?_ fun acc hacc idx _ => ?_
  · intro p l hl
    rw [AList.lookup_empty] at hl
    cases hl
  · rcases @dispatchBlock_cases now maxInFlight acc idx with
      ⟨-, hsame⟩ | ⟨-, hsame⟩ | ⟨peer, -, -, hnew⟩
    · rwa [hsame]
    · rwa [hsame]
    · rw [hnew]
      intro p l hl
      rw [lookup_pushBatch] at hl
      split at hl
      · obtain rfl := Option.some.inj hl
        simp
      · exact hacc p l hl

/-- The request is for blocks of the NAR, from a peer of the download. -/
structure Asks (narHash : Digest) (count : Nat) (handshakes : List PeerHandshake) (q : PeerId × BlockRequest) :
    Prop where
  known : ∃ hs ∈ handshakes, hs.peer = q.1
  blocks : ∃ indices, q.2 = .getBlocks narHash.toList indices ∧ ∀ k ∈ indices, k.toNat < count

omit [Sha256] in
/-- **What a dispatch sends**: requests for pending blocks, at least one in each. -/
theorem asks_of_dispatch {s : Scheduler} (hlen : s.blockStates.length ≤ 2 ^ 32)
    {now : Instant} {m : Nat} (narHash : Digest)
    (hknown : ∀ p, (s.advertised p).isSome → ∃ hs ∈ handshakes, hs.peer = p) {q : PeerId × BlockRequest}
    (hq : q ∈ batchRequests narHash.toList (dispatchBlockRequests s now m).2) :
    Asks narHash s.blockStates.length handshakes q ∧ ∃ k ∈ q.2.indices, s.blockStates[k.toNat]? = some .pending := by
  obtain ⟨p, request⟩ := q
  obtain ⟨indices, hl, rfl⟩ := mem_batchRequests.mp hq
  have hpass := @dispatchedUpTo _ now m hlen s.blockStates.length
  have htaken : ∀ k ∈ indices, s.blockStates[k.toNat]? = some .pending := fun k hk =>
    ((hpass.requests p k).mp ⟨indices, hl, hk⟩).1.1
  obtain ⟨k, hk⟩ := List.exists_mem_of_ne_nil _ (dispatch_batch_ne_nil s now m p indices hl)
  refine ⟨⟨hknown p ?_, indices, rfl, fun k hk => (List.getElem?_eq_some_iff.mp (htaken k hk)).1⟩, k, hk, htaken k hk⟩
  -- the peer was eligible for the block when it got it
  obtain ⟨p', hp', st, heligible, -⟩ := hpass.taken k.toNat ((hpass.requests p k).mp ⟨indices, hl, hk⟩).1
  have hflight := ((hpass.requests p k).mp ⟨indices, hl, hk⟩).2
  obtain ⟨rfl, -⟩ := BlockFetchState.inFlight.inj (Option.some.inj (hp'.symm.trans hflight))
  have hmoves : Scheduler.Moves m s (dispatchUpTo s now m k.toNat).1 :=
    Scheduler.moves_foldl (dispatchBlock_moves now m) _ (s, ∅)
  have hsame : (dispatchUpTo s now m k.toNat).1.advertised p' = s.advertised p' :=
    Scheduler.Moves.invariant (P := fun u => u.advertised p' = s.advertised p')
      (fun u v hmove hu => (hmove.advertised_eq p').trans hu) hmoves rfl
  rw [← hsame, Scheduler.isSome_advertised]
  exact ⟨st, heligible.lookup⟩

/-- What holds all along a download of `data`. -/
structure Sound (cfg : Config) (data : Bytes) (handshakes : List PeerHandshake) (s₀ : BlockDownload)
    (x : Transfer) : Prop where
  reached : FetchLoop.Reaches cfg s₀ x.loop.fetch
  chunks : x.loop.fetch.HoldsChunks data cfg.blockSize.toNat
  asks : ∀ q ∈ x.net,
    Asks (Sha256.digest data) (chunkCount data.length cfg.blockSize.toNat) handshakes q

/-- The requests of a turn: none of them is for blocks that have all arrived. -/
theorem asks_of_sent (hgen : Genuine data cfg.blockSize.toNat info handshakes)
    (hstarted : BlockDownload.Started narHashHex narSize info handshakes s₀)
    (hreach : FetchLoop.Reaches cfg s₀ x.loop.fetch) {narHash : Digest} {q : PeerId × BlockRequest}
    (hq : q ∈ FetchLoop.sent cfg narHash x.loop.fetch t) :
    Asks narHash (chunkCount data.length cfg.blockSize.toNat) handshakes q ∧
      ¬ Settled x.loop.fetch.sched q := by
  obtain ⟨es, hrun⟩ := hreach
  have hwf := (BlockDownload.run_assigned hstarted hrun).1
  have hframe := BlockDownload.run_frame hrun
  have hmoves := requeueExpiredBlocks_moves x.loop.fetch.sched t.expireAt cfg.fetch.blockTimeout cfg.fetch.maxInFlight
  obtain ⟨hlen, hadv, hcomplete⟩ := Scheduler.Moves.invariant
    (P := fun u => u.blockStates.length = x.loop.fetch.sched.blockStates.length ∧
      (∀ p, u.advertised p = x.loop.fetch.sched.advertised p) ∧
      ∀ i, u.blockStates[i]? = some .complete ↔ x.loop.fetch.sched.blockStates[i]? = some .complete)
    (fun u v hmove hu => ⟨hmove.length_eq.trans hu.1, fun p => (hmove.advertised_eq p).trans (hu.2.1 p),
      fun i => (hmove.complete_iff i).trans (hu.2.2 i)⟩) hmoves ⟨rfl, fun _ => rfl, fun _ => Iff.rfl⟩
  have hsize : (requeueExpiredBlocks x.loop.fetch.sched t.expireAt cfg.fetch.blockTimeout).1.blockStates.length =
      chunkCount data.length cfg.blockSize.toNat := by
    rw [hlen, hwf.length_eq, hframe.blockInfo, hstarted.blockInfo_eq, hgen.count_eq]
  have hknown : ∀ p,
      ((requeueExpiredBlocks x.loop.fetch.sched t.expireAt cfg.fetch.blockTimeout).1.advertised p).isSome →
        ∃ hs ∈ handshakes, hs.peer = p := by
    intro p hp
    rw [hadv, hframe.advertised, Scheduler.advertised, Option.isSome_map, AList.lookup_isSome,
      hstarted.peers_mem] at hp
    exact hp
  obtain ⟨hasks, k, hk, hpending⟩ := asks_of_dispatch (hlen.trans_le hwf.length_le) narHash hknown hq
  rw [hsize] at hasks
  refine ⟨hasks, fun hsettled => ?_⟩
  have hdone := (hcomplete k.toNat).mpr (hsettled k hk)
  cases hdone.symm.trans hpending

/-! ### Progress -/

theorem step_inv {narHash : Digest} {e : TransferEvent} {y : Transfer}
    (h : step cfg overallDeadline narHash x e = .ok y) :
    x.loop.turn cfg overallDeadline e.turn = .ok (y.loop, none) ∧
      y.net = x.outstanding cfg narHash e.turn - e.gone := by
  unfold step at h
  cases ht : x.loop.turn cfg overallDeadline e.turn with
  | error p => rw [ht] at h; cases h
  | ok r =>
      obtain ⟨loop, exit⟩ := r
      rw [ht] at h
      cases exit with
      | some exit => cases h
      | none =>
          obtain rfl := Except.ok.inj h
          exact ⟨rfl, rfl⟩

/-- What a run cannot undo. -/
theorem missing_subset_of_reaches (hstarted : BlockDownload.Started narHashHex narSize info handshakes s₀)
    {s s' : BlockDownload} (hreach : FetchLoop.Reaches cfg s₀ s) (h : FetchLoop.Reaches cfg s s') :
    missing s'.sched ⊆ missing s.sched ∧ s'.sched.blockStates.length = s.sched.blockStates.length := by
  obtain ⟨es, hes⟩ := hreach
  obtain ⟨es', hes'⟩ := h
  have hwf := (BlockDownload.run_assigned hstarted hes).1
  have hwf' := Machine.run_invariant (BlockDownload.step_wellFormed cfg.fetch) hwf hes'
  have hlen : s'.sched.blockStates.length = s.sched.blockStates.length := by
    rw [hwf'.length_eq, hwf.length_eq, (BlockDownload.run_frame hes').blockInfo]
  refine ⟨fun i hi => ?_, hlen⟩
  rw [mem_missing] at hi ⊢
  exact ⟨hlen ▸ hi.1, fun hdone => hi.2 (BlockDownload.run_complete hes' hdone)⟩

variable {e : TransferEvent} {y : Transfer}

theorem asks_of_outstanding (hgen : Genuine data cfg.blockSize.toNat info handshakes)
    (hstarted : BlockDownload.Started narHashHex narSize info handshakes s₀)
    (hreach : FetchLoop.Reaches cfg s₀ x.loop.fetch) {narHash : Digest}
    (hasks : ∀ q ∈ x.net, Asks narHash (chunkCount data.length cfg.blockSize.toNat) handshakes q) :
    ∀ q ∈ x.outstanding cfg narHash t, Asks narHash (chunkCount data.length cfg.blockSize.toNat) handshakes q := by
  intro q hq
  rcases Multiset.mem_add.mp hq with hold | hnew
  · exact hasks q hold
  · exact (asks_of_sent hgen hstarted hreach (Multiset.mem_coe.mp hnew)).1

/-- **Step lemma.** A turn in time keeps the download sound. -/
theorem step_sound (hgen : Genuine data cfg.blockSize.toNat info handshakes)
    (hstarted : BlockDownload.Started narHashHex narSize info handshakes s₀)
    (hx : Sound cfg data handshakes s₀ x) (hin : x.InTime overallDeadline e.turn)
    (hno : NoCollision data cfg.blockSize.toNat e.turn)
    (h : step cfg overallDeadline (Sha256.digest data) x e = .ok y) : Sound cfg data handshakes s₀ y := by
  obtain ⟨hturn, hnet⟩ := step_inv h
  obtain ⟨l, exit, hturn', hdone⟩ := turn_done hgen hstarted hx.reached hx.chunks hin hno
  obtain ⟨rfl, -⟩ := Prod.mk.inj (Except.ok.inj (hturn'.symm.trans hturn))
  refine ⟨hx.reached.trans (FetchLoop.reaches_turn hturn), hdone.chunks, fun q hq => ?_⟩
  rw [hnet] at hq
  exact asks_of_outstanding hgen hstarted hx.reached hx.asks q (Multiset.mem_of_le (Multiset.sub_le_self _ _) hq)

/-- A dispatch sends nothing that is settled already. -/
theorem settled_outstanding (hgen : Genuine data cfg.blockSize.toNat info handshakes)
    (hstarted : BlockDownload.Started narHashHex narSize info handshakes s₀)
    (hreach : FetchLoop.Reaches cfg s₀ x.loop.fetch) (narHash : Digest) (t : Turn) :
    (x.outstanding cfg narHash t).countP (Settled x.loop.fetch.sched) =
      x.net.countP (Settled x.loop.fetch.sched) := by
  rw [outstanding, Multiset.countP_add, Nat.add_eq_left, Multiset.countP_eq_zero]
  exact fun q hq => (asks_of_sent hgen hstarted hreach (Multiset.mem_coe.mp hq)).2

/-- **No turn makes it more.** -/
theorem remaining_le (hgen : Genuine data cfg.blockSize.toNat info handshakes)
    (hstarted : BlockDownload.Started narHashHex narSize info handshakes s₀)
    (hx : Sound cfg data handshakes s₀ x)
    (h : step cfg overallDeadline (Sha256.digest data) x e = .ok y) : remaining y ≤ remaining x := by
  obtain ⟨hturn, hnet⟩ := step_inv h
  obtain ⟨hsub, hlen⟩ := missing_subset_of_reaches hstarted hx.reached (FetchLoop.reaches_turn hturn)
  rw [remaining, remaining, Prod.Lex.toLex_le_toLex]
  rcases eq_or_ssubset_of_subset hsub with heq | hlt
  · refine Or.inr ⟨heq, ?_⟩
    simp only [settled_congr heq hlen]
    rw [hnet, ← settled_outstanding hgen hstarted hx.reached (Sha256.digest data) e.turn]
    exact Multiset.countP_le_of_le _ (Multiset.sub_le_self _ _)
  · exact Or.inl hlt

/-- **A delivery makes it less.** It brings a missing block, or takes a settled request off the way. -/
theorem remaining_lt {ps : Providers} (hgen : Genuine data cfg.blockSize.toNat info handshakes)
    (hstarted : BlockDownload.Started narHashHex narSize info handshakes s₀)
    (hmem : data.length < 2 ^ 63) (hhonest : HonestRun ps data cfg.blockSize handshakes [])
    (hx : Sound cfg data handshakes s₀ x) (hin : x.InTime overallDeadline e.turn)
    (hno : NoCollision data cfg.blockSize.toNat e.turn)
    (hdelivers : x.Delivers ps cfg (Sha256.digest data) e)
    (h : step cfg overallDeadline (Sha256.digest data) x e = .ok y) : remaining y < remaining x := by
  obtain ⟨hturn, hnet⟩ := step_inv h
  obtain ⟨l, exit, hturn', hdone⟩ := turn_done hgen hstarted hx.reached hx.chunks hin hno
  obtain ⟨rfl, -⟩ := Prod.mk.inj (Except.ok.inj (hturn'.symm.trans hturn))
  obtain ⟨hsub, hlen⟩ := missing_subset_of_reaches hstarted hx.reached (FetchLoop.reaches_turn hturn)
  obtain ⟨peer, request, response, hout, hgone, hreply, hw⟩ := hdelivers
  rw [remaining, remaining, Prod.Lex.toLex_lt_toLex]
  rcases eq_or_ssubset_of_subset hsub with heq | hlt
  · refine Or.inr ⟨heq, ?_⟩
    simp only [settled_congr heq hlen]
    -- no block is new, so all blocks of the request were there before
    have hsettled : Settled x.loop.fetch.sched (peer, request) := by
      rw [← settled_congr heq hlen]
      intro k hk
      obtain ⟨⟨hs, hhs, hpeer⟩, indices, hindices, hlt⟩ :
          Asks (Sha256.digest data) (chunkCount data.length cfg.blockSize.toNat) handshakes (peer, request) :=
        asks_of_outstanding hgen hstarted hx.reached hx.asks _ hout
      dsimp only at hpeer hindices
      subst hpeer hindices
      have hne : indices ≠ [] := List.ne_nil_of_mem hk
      rw [hhonest.getBlocks hmem hhs hne hlt] at hreply
      obtain rfl := Option.some.inj (Except.ok.inj hreply)
      refine hdone.delivered hs.peer _ hw ?_ ⟨k, chunkAt cfg.blockSize.toNat data k.toNat⟩
        (List.mem_map_of_mem hk) (hlt k hk) rfl
      obtain ⟨es, hes⟩ := hx.reached.trans (FetchLoop.reaches_turn hturn)
      exact (BlockDownload.run_receivers hstarted hes hs.peer).mpr ⟨hs, hhs, rfl⟩
    rw [hnet, ← settled_outstanding hgen hstarted hx.reached (Sha256.digest data) e.turn]
    have hle : x.outstanding cfg (Sha256.digest data) e.turn - e.gone ≤
        (x.outstanding cfg (Sha256.digest data) e.turn).erase (peer, request) := by
      rw [← Multiset.sub_singleton]
      exact tsub_le_tsub_left (Multiset.singleton_le.mpr hgone) _
    refine (Multiset.countP_le_of_le _ hle).trans_lt ?_
    rw [← Multiset.cons_erase hout]
    rw [Multiset.countP_cons_of_pos _ hsettled]
    simp
  · exact Or.inl hlt

end

/-! ### From the handshakes to the NAR -/

section

variable {ps : Providers} {cfg : Config} {data : Bytes} {narSize : UInt64} {first : PeerHandshake}
  {rest : List PeerHandshake}

/-- The handshakes of honest peers describe the NAR, whichever way the block count is found. -/
theorem genuine_of_honest (hne : data ≠ []) (hmem : data.length < 2 ^ 63) (hb : 0 < cfg.blockSize)
    (hcount : chunkCount data.length cfg.blockSize.toNat < 2 ^ 32)
    (hsize : narSize = UInt64.ofNat data.length ∨ narSize = 0)
    (hhonest : HonestRun ps data cfg.blockSize (first :: rest) []) :
    Genuine data cfg.blockSize.toNat (downloadBlockInfo narSize cfg.blockSize hb first) (first :: rest) := by
  obtain ⟨hhashes, hfirst⟩ := hhonest.handshake_eq hne hmem List.mem_cons_self
  have hlen : (UInt64.ofNat data.length).toNat = data.length :=
    UInt64.toNat_ofNat_of_lt' (show data.length < 2 ^ 64 by omega)
  refine ⟨?_, ?_, fun hs hhs i hi => ?_, first, List.mem_cons_self⟩
  · rw [BlockDownload.blockCount_downloadBlockInfo, BlockDownload.requiredHashes]
    split
    next => rw [hfirst, UInt32.toNat_ofNat_of_lt' hcount]
    next hnonzero =>
      obtain rfl := hsize.resolve_right hnonzero
      rw [hlen, Nat.mod_eq_of_lt hcount]
  · rw [BlockDownload.blockHashes_downloadBlockInfo, hhashes]
  · obtain ⟨r, hr, hof⟩ := hhonest.replied hs hhs
    rw [(hhonest.holds hs hhs).handshake hne hmem] at hr
    obtain rfl := Option.some.inj (Except.ok.inj hr)
    have heq := Option.some.inj hof
    rw [← heq, hhonest.blockSize_eq hs hhs, Nat.mod_eq_of_lt hcount]
    exact List.mem_map_of_mem (List.mem_range.mpr hi)

omit [Sha256] in
theorem p2pBlockInfo_eq (hb : 0 < cfg.blockSize) :
    p2pBlockInfo cfg narSize (first :: rest) = .ok (.ok (downloadBlockInfo narSize cfg.blockSize hb first)) := by
  unfold p2pBlockInfo
  by_cases hzero : narSize = 0
  · simp [hzero, downloadBlockInfo]
  · simp [hzero, hb]

omit [Sha256] in
/-- The loop is entered after one dispatch from the set-up. -/
theorem entered_eq (cfg : Config) (world : DownloadWorld) (handshakes : List PeerHandshake) (narSize : UInt64)
    (info : BlockInfo) (narHash : Digest) :
    ∃ s₀, BlockDownload.Started (Hex.encode narHash.toList) narSize info handshakes s₀ ∧
      entered cfg world handshakes narSize info narHash =
        { loop :=
            { fetch := { s₀ with
                sched := (dispatchBlockRequests s₀.sched world.dispatchAt cfg.fetch.maxInFlight).1 }
              stallDeadline := afterSecs world.stallAt cfg.stallTimeoutSecs }
          net := batchRequests narHash.toList
            (dispatchBlockRequests s₀.sched world.dispatchAt cfg.fetch.maxInFlight).2 } := by
  refine ⟨_, BlockDownload.started_of_sameMaps ?_, rfl⟩
  split
  next hsame => exact hsame
  next => exact BlockDownload.SameMaps.refl _

/-- The loop is entered in a sound state. -/
theorem sound_entered {info : BlockInfo} {handshakes : List PeerHandshake} {s₀ : BlockDownload}
    (dispatchAt stallDeadline : Instant) (hgen : Genuine data cfg.blockSize.toNat info handshakes)
    (hstarted : BlockDownload.Started (Hex.encode (Sha256.digest data).toList) narSize info handshakes s₀) :
    Sound cfg data handshakes s₀
      { loop :=
          { fetch := { s₀ with sched := (dispatchBlockRequests s₀.sched dispatchAt cfg.fetch.maxInFlight).1 }
            stallDeadline }
        net := batchRequests (Sha256.digest data).toList
          (dispatchBlockRequests s₀.sched dispatchAt cfg.fetch.maxInFlight).2 } := by
  refine ⟨⟨[.dispatch dispatchAt], rfl⟩, ?_, fun q hq => ?_⟩
  · intro p i b hb
    obtain ⟨r, hr, hb⟩ := hb
    rw [hstarted.receivers_empty p r hr] at hb
    cases List.eq_of_mem_replicate (List.mem_of_getElem? hb)
  · have hknown : ∀ p, (s₀.sched.advertised p).isSome → ∃ hs ∈ handshakes, hs.peer = p := by
      intro p hp
      rwa [Scheduler.advertised, Option.isSome_map, AList.lookup_isSome, hstarted.peers_mem] at hp
    have hasks := (asks_of_dispatch hstarted.wellFormed.length_le (Sha256.digest data) hknown
      (Multiset.mem_coe.mp hq)).1
    rwa [hstarted.wellFormed.length_eq, hstarted.blockInfo_eq, hgen.count_eq] at hasks

/-- In a fair environment the loop completes, and what it has got is the NAR. -/
theorem download_of_fair (world : DownloadWorld) (hne : data ≠ []) (hmem : data.length < 2 ^ 63)
    (hb : 0 < cfg.blockSize) (hcount : chunkCount data.length cfg.blockSize.toNat < 2 ^ 32)
    (hsize : narSize = UInt64.ofNat data.length ∨ narSize = 0)
    (hhonest : HonestRun ps data cfg.blockSize (first :: rest) []) {events : ℕ → TransferEvent}
    (hfair : Fair ps cfg (deadline cfg world narSize) data
      (entered cfg world (first :: rest) narSize
        (downloadBlockInfo narSize cfg.blockSize hb first) (Sha256.digest data)) events) :
    ∃ n, ∀ later, downloadBlocksFromPeers cfg
      { world with turns := (Machine.upTo events n).map TransferEvent.turn ++ later }
      (first :: rest) narSize (downloadBlockInfo narSize cfg.blockSize hb first)
      (Hex.encode (Sha256.digest data).toList) =
        .ok (.ok (data, "sha256:".toList ++ Hex.encode (Sha256.digest data).toList)) := by
  have hgen := genuine_of_honest hne hmem hb hcount hsize hhonest
  obtain ⟨s₀, hstarted, hentered⟩ := entered_eq cfg world (first :: rest) narSize
    (downloadBlockInfo narSize cfg.blockSize hb first) (Sha256.digest data)
  have hsound := sound_entered world.dispatchAt (afterSecs world.stallAt cfg.stallTimeoutSecs)
    hgen hstarted
  rw [← hentered] at hsound
  obtain ⟨n, x, f, hrun, hx, hend⟩ := Machine.fair_run_ends (μ := remaining)
    (P := Sound cfg data (first :: rest) s₀)
    (A := fun x e => x.InTime (deadline cfg world narSize) e.turn ∧
      NoCollision data cfg.blockSize.toNat e.turn)
    (fun x e y hx he h => step_sound hgen hstarted hx he.1 he.2 h)
    (fun x e y hx _ h => remaining_le hgen hstarted hx h)
    (fun x e y hx he hd h => remaining_lt hgen hstarted hmem hhonest hx he.1 he.2 hd h) hsound
    (fun n y hy => ⟨hfair.inTime n y hy, hfair.noCollision n⟩) hfair.answers
  obtain ⟨l, exit, hturn, hdone⟩ :=
    turn_done hgen hstarted hx.reached hx.chunks (hfair.inTime n x hrun) (hfair.noCollision n)
  -- a turn that ends the loop has completed it
  have hcomplete : exit = some .complete ∧ l.fetch.download.isComplete = .ok true := by
    refine hdone.exits.resolve_left fun hnone => ?_
    subst hnone
    simp [step, hturn] at hend
  obtain ⟨rfl, hcomplete⟩ := hcomplete
  obtain ⟨es, hes⟩ := hx.reached.trans (FetchLoop.reaches_turn hturn)
  have hwf := (BlockDownload.run_assigned hstarted hes).1
  have hframe := BlockDownload.run_frame hes
  have hassemble : l.fetch.download.assemble = .ok (.ok data) := by
    obtain ⟨done, hdone', hall⟩ := ActiveDownload.isComplete_spec hwf.slotsFit
    obtain rfl := Except.ok.inj (hdone'.symm.trans hcomplete)
    have hflat : ((List.range (chunkCount data.length cfg.blockSize.toNat)).map
        (chunkAt cfg.blockSize.toNat data)).flatten = data :=
      flatten_chunks (UInt64.lt_iff_toNat_lt.mp hb) data
    rw [ActiveDownload.assemble_eq hwf.slotsFit (hall.mp rfl) hdone.chunks, hframe.blockInfo,
      hstarted.blockInfo_eq, hgen.count_eq, hflat,
      BlockDownload.checkNar_of_run (by omega) hsize hstarted hframe]
  refine ⟨n + 1, fun later => ?_⟩
  have hloop : FetchLoop.run cfg (deadline cfg world narSize)
      ((Machine.upTo events (n + 1)).map TransferEvent.turn ++ later)
      (entered cfg world (first :: rest) narSize
        (downloadBlockInfo narSize cfg.blockSize hb first) (Sha256.digest data)).loop = .ok l := by
    rw [Machine.upTo_succ, List.map_append, List.append_assoc, run_eq hrun]
    simp only [List.map_cons, List.map_nil, List.cons_append, List.nil_append, FetchLoop.run, hturn]
  simp only [deadline, entered] at hloop
  simp only [downloadBlocksFromPeers, hloop, hcomplete, hassemble]

/-- **Liveness.** A P2P download from peers that hold the NAR returns the NAR after finitely
many turns, in every fair environment: whatever is lost or comes late, however often blocks are
taken back and asked for again, and whatever else arrives. -/
theorem fair_download_succeeds (world : P2pWorld) (hne : data ≠ []) (hmem : data.length < 2 ^ 63)
    (hb : 0 < cfg.blockSize) (hcount : chunkCount data.length cfg.blockSize.toNat < 2 ^ 32)
    (hsize : narSize = UInt64.ofNat data.length ∨ narSize = 0)
    (hhonest : HonestRun ps data cfg.blockSize (first :: rest) []) {events : ℕ → TransferEvent}
    (hfair : Fair ps cfg (deadline cfg world.download narSize) data
      (entered cfg world.download (first :: rest) narSize
        (downloadBlockInfo narSize cfg.blockSize hb first) (Sha256.digest data)) events) :
    ∃ n, ∀ later, fetchFromPeers cfg
      { world with download :=
        { world.download with turns := (Machine.upTo events n).map TransferEvent.turn ++ later } }
      (Sha256.digest data) narSize (first :: rest) = .ok (.ok data) := by
  obtain ⟨n, hn⟩ := download_of_fair world.download hne hmem hb hcount hsize hhonest hfair
  exact ⟨n, fun later => by simp only [fetchFromPeers, p2pBlockInfo_eq hb, hn later]⟩

end

/-! ### A download of two blocks -/

def fetchConfig : Config where
  substituteUrls := []
  substitutePolicy := .p2pFirst
  autoSeedDownloads := .off
  localNarinfoPath := none
  minProviders := 1
  maxPeersPerDownload := 1
  maxInFlightBlocksPerPeer := 8
  requestTimeoutSecs := 30
  stallTimeoutSecs := 30
  blockSize := 4

/-- The maps are in the order that `download_blocks_from_peers` filled them in. -/
def sampleWorld : P2pWorld where
  providers := [peerA]
  refreshed := []
  select _ peers := peers
  connected := []
  bootstrap := []
  round := ⟨0, []⟩
  fallbackRound := ⟨0, []⟩
  download :=
    { overallAt := 0
      stallAt := 0
      dispatchAt := 0
      setUp := BlockDownload.start [] 0 ⟨0, 4, 4, []⟩ []
      turns := [] }

/-- Both blocks are asked for in one request, which the first turn sees answered. -/
def sampleEvent : TransferEvent where
  turn :=
    { deadlineAt := 0
      expireAt := 0
      dispatchAt := 0
      stallAt := 0
      waited := .note (.blockResponse peerA (.blocks [⟨0, sampleNar⟩, ⟨1, sampleTail⟩]))
      rearmAt := 0 }
  gone := {(peerA, .getBlocks (sampleSha256.digest (sampleNar ++ sampleTail)).toList [0, 1])}

/-- The loop when it enters its first turn. -/
def sampleEntered : Transfer :=
  entered fetchConfig sampleWorld.download [BlockDownload.twoBlockHandshake] 8
    (downloadBlockInfo 8 4 BlockInfo.four_pos BlockDownload.twoBlockHandshake)
    (sampleSha256.digest (sampleNar ++ sampleTail))

omit [Sha256] in
theorem sampleEvent_ends :
    ∃ f, @step sampleSha256 fetchConfig (deadline fetchConfig sampleWorld.download 8)
      (sampleSha256.digest (sampleNar ++ sampleTail)) sampleEntered sampleEvent = .error f := by
  have h : (@step sampleSha256 fetchConfig (deadline fetchConfig sampleWorld.download 8)
      (sampleSha256.digest (sampleNar ++ sampleTail)) sampleEntered sampleEvent).toBool = false := by
    decide +kernel
  cases hstep : @step sampleSha256 fetchConfig (deadline fetchConfig sampleWorld.download 8)
      (sampleSha256.digest (sampleNar ++ sampleTail)) sampleEntered sampleEvent with
  | error f => exact ⟨f, rfl⟩
  | ok y => rw [hstep] at h; cases h

omit [Sha256] in
theorem sampleEvent_inTime :
    sampleEntered.InTime (deadline fetchConfig sampleWorld.download 8) sampleEvent.turn :=
  ⟨by decide +kernel, by decide +kernel, by simp [sampleEvent]⟩

omit [Sha256] in
theorem sampleEvent_noCollision :
    @NoCollision sampleSha256 (sampleNar ++ sampleTail) 4 sampleEvent.turn := by
  intro peer blocks hw bd hbd i hdigest
  obtain ⟨-, rfl⟩ : peerA = peer ∧ [⟨0, sampleNar⟩, ⟨1, sampleTail⟩] = blocks := by
    simpa [sampleEvent] using hw
  have hchunk : chunkAt 4 (sampleNar ++ sampleTail) i = sampleNar ∨
      chunkAt 4 (sampleNar ++ sampleTail) i = sampleTail ∨ chunkAt 4 (sampleNar ++ sampleTail) i = [] := by
    rcases i with _ | _ | i
    · exact Or.inl rfl
    · exact Or.inr (Or.inl rfl)
    · refine Or.inr (Or.inr ?_)
      rw [chunkAt, List.drop_eq_nil_of_le (by simp [sampleNar, sampleTail]; omega), List.take_nil]
  have hne : sampleSha256.digest sampleNar ≠ sampleSha256.digest sampleTail ∧
      sampleSha256.digest sampleNar ≠ sampleSha256.digest [] ∧
      sampleSha256.digest sampleTail ≠ sampleSha256.digest [] := by decide
  simp only [List.mem_cons, List.not_mem_nil, or_false] at hbd
  rcases hbd with rfl | rfl
  · rcases hchunk with h | h | h <;> rw [h] at hdigest ⊢
    · exact absurd hdigest hne.1
    · exact absurd hdigest hne.2.1
  · rcases hchunk with h | h | h <;> rw [h] at hdigest ⊢
    · exact absurd hdigest.symm hne.1
    · exact absurd hdigest hne.2.2

/-- An environment is fair if its first turn is in time and ends the loop. -/
theorem fair_of_ends {ps : Providers} {cfg : Config} {overallDeadline : Instant} {data : Bytes} {x : Transfer}
    {e : TransferEvent} (hin : x.InTime overallDeadline e.turn) (hno : NoCollision data cfg.blockSize.toNat e.turn)
    (hends : ∃ f, step cfg overallDeadline (Sha256.digest data) x e = .error f) :
    Fair ps cfg overallDeadline data x fun _ => e := by
  obtain ⟨f, hf⟩ := hends
  have hfirst : ∀ n y, Machine.run (step cfg overallDeadline (Sha256.digest data)) x
      (Machine.upTo (fun _ => e) n) = .ok y → n = 0 := by
    intro n y h
    cases n with
    | zero => rfl
    | succ n =>
        rw [Machine.upTo, List.range_succ_eq_map, List.map_cons, Machine.run, hf] at h
        cases h
  refine ⟨fun n y h => ?_, fun _ => hno, fun hforever => ?_⟩
  · obtain rfl := hfirst n y h
    obtain rfl : x = y := Except.ok.inj h
    exact hin
  · obtain ⟨y, hy⟩ := hforever 1
    exact absurd (hfirst 1 y hy) Nat.one_ne_zero

omit [Sha256] in
theorem fair_download_succeeds_sample :
    ∃ turns, @fetchFromPeers sampleSha256 fetchConfig
      { sampleWorld with download := { sampleWorld.download with turns := turns } }
      (sampleSha256.digest (sampleNar ++ sampleTail)) 8 [BlockDownload.twoBlockHandshake] =
        .ok (.ok (sampleNar ++ sampleTail)) := by
  obtain ⟨n, hn⟩ := @fair_download_succeeds sampleSha256 BlockDownload.sampleProviders fetchConfig
    (sampleNar ++ sampleTail) 8 BlockDownload.twoBlockHandshake [] sampleWorld (by decide) (by decide)
    BlockInfo.four_pos (by decide) (Or.inl rfl) (@HonestRun.handshaken sampleSha256 _ _ _ _ _ BlockDownload.twoBlock_honest) _
    (@fair_of_ends sampleSha256 _ _ _ _ _ _ sampleEvent_inTime sampleEvent_noCollision sampleEvent_ends)
  exact ⟨_, hn []⟩

end Transfer

end GuixP2p
