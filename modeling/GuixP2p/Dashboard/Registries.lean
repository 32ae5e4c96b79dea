import GuixP2p.Connection
import GuixP2p.Lib.Registry
import GuixP2p.Runtime.Uploads

/-!
# GuixP2p.Dashboard.Registries

**What the dashboard shows of the past.** The tasks of the node report what they do on a bus; three
listeners of `src/dashboard.rs` keep the transfers, the catalog and the latest events. A listener that is
too slow loses events. `transfers_evidence` says what the transfers are evidence of all the same, and
`catalog_and_history` what the other two keep.

The event bus is tokio's broadcast channel. Counters are natural numbers.
-/

namespace GuixP2p

open GuixP2p.Lib

/-! ### Events -/

/-- The events that a listener looks into, and the others. -/
inductive DashboardEvent
  | downloadStarted (narHash storePath : Text) (narSize : UInt64)
  | transferPhase (narHash phase : Text) (elapsedMs : UInt64)
  | blockReceived (narHash peerId : Text) (indices : List UInt32) (bytes : Nat)
  | downloadSucceeded (narHash storePath : Text) (size elapsedMs : UInt64) (source : Text)
  | blockServed (narHash peerId : Text) (indices : List UInt32)
  | catalogEntry (hashPart : Text) (storePath : Option Text) (narSize : Option UInt64) (narHash : Option Text)
      (p2pAvailable : Bool)
  | other (type : Text)
  deriving DecidableEq

/-- What `recv` returns, with the time when the listener goes on. -/
inductive Receipt
  | event (e : DashboardEvent) (timestampMs : UInt64)
  | lagged (n : Nat)
  | closed

/-- The channel: events come in the order in which they were sent, but the oldest ones may be lost. -/
inductive Delivers : List DashboardEvent → List Receipt → Prop
  | waiting {sent : List DashboardEvent} : Delivers sent []
  | event {e : DashboardEvent} {sent : List DashboardEvent} {receipts : List Receipt} (now : UInt64)
      (h : Delivers sent receipts) : Delivers (e :: sent) (.event e now :: receipts)
  | lagged {lost sent : List DashboardEvent} {receipts : List Receipt} (h : Delivers sent receipts) :
      Delivers (lost ++ sent) (.lagged lost.length :: receipts)
  | closed {receipts : List Receipt} : Delivers [] (.closed :: receipts)

/-- The loop of a listener. -/
def listen {σ : Type} (step : σ → DashboardEvent → UInt64 → σ) : σ → List Receipt → σ
  | s, [] => s
  | s, .event e now :: receipts => listen step (step s e now) receipts
  | s, .lagged _ :: receipts => listen step s receipts
  | s, .closed :: _ => s

/-- What a listener hears before the channel is closed. -/
def heard : List Receipt → List (DashboardEvent × UInt64)
  | [] => []
  | .event e now :: receipts => (e, now) :: heard receipts
  | .lagged _ :: receipts => heard receipts
  | .closed :: _ => []

theorem listen_eq_foldl {σ : Type} (step : σ → DashboardEvent → UInt64 → σ) (s : σ) (receipts : List Receipt) :
    listen step s receipts = (heard receipts).foldl (fun s e => step s e.1 e.2) s := by
  induction receipts generalizing s with
  | nil => rfl
  | cons receipt receipts ih =>
      cases receipt with
      | event e now => exact ih _
      | lagged n => exact ih _
      | closed => rfl

/-- A listener hears nothing that was not sent. -/
theorem Delivers.sublist {sent : List DashboardEvent} {receipts : List Receipt} (h : Delivers sent receipts) :
    ((heard receipts).map Prod.fst).Sublist sent := by
  induction h with
  | waiting => exact List.nil_sublist _
  | event now _ ih => exact ih.cons_cons _
  | lagged _ ih => exact ih.trans (List.sublist_append_right _ _)
  | closed => exact List.nil_sublist _

/-! ### Transfers -/

structure PeerTransferStats where
  blocks : Nat
  bytes : Nat
  lastIndices : List UInt32
  deriving DecidableEq

def PeerTransferStats.default : PeerTransferStats := ⟨0, 0, []⟩

structure TransferStats where
  narHash : Text
  storePath : Option Text
  narSize : Option UInt64
  source : Option Text
  totalBlocksReceived : Nat
  totalBytesReceived : Nat
  totalBlocksServed : Nat
  downloadPeers : Table Text PeerTransferStats
  servingPeers : Table Text PeerTransferStats
  phasesMs : Table Text UInt64

def TransferStats.fresh (narHash : Text) : TransferStats := ⟨narHash, none, none, none, 0, 0, 0, ∅, ∅, ∅⟩

def recordTransferPeer (peers : Table Text PeerTransferStats) (peerId : Text) (indices : List UInt32) (bytes : Nat) :
    Table Text PeerTransferStats :=
  peers.upsert peerId .default fun peer =>
    { blocks := peer.blocks + indices.length, bytes := peer.bytes + bytes, lastIndices := indices }

def maintainTransfers (transfers : Table Text TransferStats) (event : DashboardEvent) (_ : UInt64) :
    Table Text TransferStats :=
  match event with
  | .downloadStarted narHash storePath narSize =>
    transfers.upsert narHash (.fresh narHash) fun entry =>
      { entry with storePath := some storePath, narSize := some narSize }
  | .blockReceived narHash peerId indices bytes =>
    transfers.upsert narHash (.fresh narHash) fun entry =>
      { entry with
        totalBlocksReceived := entry.totalBlocksReceived + indices.length
        totalBytesReceived := entry.totalBytesReceived + bytes
        downloadPeers := recordTransferPeer entry.downloadPeers peerId indices bytes }
  | .transferPhase narHash phase elapsedMs =>
    transfers.upsert narHash (.fresh narHash) fun entry =>
      { entry with phasesMs := entry.phasesMs.insert phase elapsedMs }
  | .blockServed narHash peerId indices =>
    if indices = [] then transfers
    else transfers.upsert narHash (.fresh narHash) fun entry =>
      { entry with
        totalBlocksServed := entry.totalBlocksServed + indices.length
        servingPeers := recordTransferPeer entry.servingPeers peerId indices 0 }
  | .downloadSucceeded narHash storePath size _ source =>
    transfers.upsert narHash (.fresh narHash) fun entry =>
      { entry with storePath := some storePath, narSize := some size, source := some source }
  | .catalogEntry _ _ _ _ _ | .other _ => transfers

/-! ### What the events say of a transfer -/

namespace DashboardEvent

/-- The transfer that an event is about. -/
def transfer : DashboardEvent → Option Text
  | .downloadStarted narHash _ _ => some narHash
  | .blockReceived narHash _ _ _ => some narHash
  | .transferPhase narHash _ _ => some narHash
  | .blockServed narHash _ indices => if indices = [] then none else some narHash
  | .downloadSucceeded narHash _ _ _ _ => some narHash
  | .catalogEntry _ _ _ _ _ | .other _ => none

def storePath : DashboardEvent → Option Text
  | .downloadStarted _ storePath _ => some storePath
  | .downloadSucceeded _ storePath _ _ _ => some storePath
  | _ => none

def narSize : DashboardEvent → Option UInt64
  | .downloadStarted _ _ narSize => some narSize
  | .downloadSucceeded _ _ size _ _ => some size
  | _ => none

def source : DashboardEvent → Option Text
  | .downloadSucceeded _ _ _ _ source => some source
  | _ => none

/-- Blocks from a peer. -/
def received : DashboardEvent → Option (Text × List UInt32 × Nat)
  | .blockReceived _ peerId indices bytes => some (peerId, indices, bytes)
  | _ => none

/-- Blocks for a peer. -/
def served : DashboardEvent → Option (Text × List UInt32 × Nat)
  | .blockServed _ peerId indices => if indices = [] then none else some (peerId, indices, 0)
  | _ => none

def phase (name : Text) : DashboardEvent → Option UInt64
  | .transferPhase _ phase elapsedMs => if phase = name then some elapsedMs else none
  | _ => none

end DashboardEvent

/-- What the events that bring blocks make of a table of peers. -/
def peerRegistry (blocks : DashboardEvent → Option (Text × List UInt32 × Nat)) :
    Registry DashboardEvent Text PeerTransferStats where
  key e := (blocks e).map (·.1)
  fresh _ := .default
  apply e peer :=
    match blocks e with
    | none => peer
    | some (_, indices, bytes) =>
      { blocks := peer.blocks + indices.length, bytes := peer.bytes + bytes, lastIndices := indices }

def transferRegistry : Registry DashboardEvent Text TransferStats where
  key := DashboardEvent.transfer
  fresh := TransferStats.fresh
  apply e entry :=
    { entry with
      storePath := e.storePath.or entry.storePath
      narSize := e.narSize.or entry.narSize
      source := e.source.or entry.source
      totalBlocksReceived := entry.totalBlocksReceived + (e.received.map (·.2.1.length)).getD 0
      totalBytesReceived := entry.totalBytesReceived + (e.received.map (·.2.2)).getD 0
      totalBlocksServed := entry.totalBlocksServed + (e.served.map (·.2.1.length)).getD 0
      downloadPeers := (peerRegistry DashboardEvent.received).step entry.downloadPeers e
      servingPeers := (peerRegistry DashboardEvent.served).step entry.servingPeers e
      phasesMs :=
        match e with
        | .transferPhase _ phase elapsedMs => entry.phasesMs.insert phase elapsedMs
        | _ => entry.phasesMs }

theorem maintainTransfers_eq_step (transfers : Table Text TransferStats) (e : DashboardEvent) (now : UInt64) :
    maintainTransfers transfers e now = transferRegistry.step transfers e := by
  cases e with
  | downloadStarted narHash storePath narSize => rfl
  | transferPhase narHash phase elapsedMs => rfl
  | blockReceived narHash peerId indices bytes => rfl
  | downloadSucceeded narHash storePath size elapsedMs source => rfl
  | blockServed narHash peerId indices =>
      by_cases hnil : indices = []
      · subst hnil
        rfl
      · simp only [maintainTransfers, if_neg hnil, Registry.step, transferRegistry, DashboardEvent.transfer,
          DashboardEvent.served, peerRegistry, Option.map_some]
        rfl
  | catalogEntry hashPart storePath narSize narHash p2pAvailable => rfl
  | other type => rfl

/-! ### Peers -/

/-- What a peer contributes. -/
def contributions (blocks : DashboardEvent → Option (Text × List UInt32 × Nat)) (peerId : Text)
    (events : List DashboardEvent) : List (List UInt32 × Nat) :=
  ((events.filterMap blocks).filter fun c => decide (c.1 = peerId)).map (·.2)

/-- Everything added up, and the indices that came last. -/
def PeerTransferStats.ofContributions (mine : List (List UInt32 × Nat)) : Option PeerTransferStats :=
  mine.getLast?.map fun last => ⟨(mine.map (·.1.length)).sum, (mine.map (·.2)).sum, last.1⟩

theorem ofContributions_getD (mine : List (List UInt32 × Nat)) :
    ((PeerTransferStats.ofContributions mine).getD .default).blocks = (mine.map (·.1.length)).sum ∧
      ((PeerTransferStats.ofContributions mine).getD .default).bytes = (mine.map (·.2)).sum := by
  unfold PeerTransferStats.ofContributions
  cases hlast : mine.getLast? with
  | none =>
      rw [List.getLast?_eq_none_iff.mp hlast]
      exact ⟨rfl, rfl⟩
  | some last => exact ⟨rfl, rfl⟩

theorem ofContributions_concat (mine : List (List UInt32 × Nat)) (c : List UInt32 × Nat) :
    PeerTransferStats.ofContributions (mine ++ [c]) =
      some ⟨((PeerTransferStats.ofContributions mine).getD .default).blocks + c.1.length,
        ((PeerTransferStats.ofContributions mine).getD .default).bytes + c.2, c.1⟩ := by
  obtain ⟨hblocks, hbytes⟩ := ofContributions_getD mine
  rw [hblocks, hbytes]
  simp [PeerTransferStats.ofContributions]

theorem contributions_append_singleton (blocks : DashboardEvent → Option (Text × List UInt32 × Nat)) (peerId : Text)
    (events : List DashboardEvent) (e : DashboardEvent) :
    contributions blocks peerId (events ++ [e]) =
      contributions blocks peerId events ++ contributions blocks peerId [e] := by
  unfold contributions
  rw [List.filterMap_append, List.filter_append, List.map_append]

theorem lookup_peerRegistry (blocks : DashboardEvent → Option (Text × List UInt32 × Nat)) (events : List DashboardEvent)
    (peerId : Text) :
    ((peerRegistry blocks).run ∅ events).lookup peerId =
      PeerTransferStats.ofContributions (contributions blocks peerId events) := by
  induction events using List.reverseRecOn with
  | nil => rfl
  | append_singleton events e ih =>
      have hrun : (peerRegistry blocks).run ∅ (events ++ [e]) =
          (peerRegistry blocks).step ((peerRegistry blocks).run ∅ events) e := List.foldl_append
      rw [hrun, Registry.lookup_step, ih, contributions_append_singleton]
      cases he : blocks e with
      | none =>
          have hone : contributions blocks peerId [e] = [] := by simp [contributions, he]
          rw [hone, List.append_nil, if_neg (by simp [peerRegistry, he])]
      | some c =>
          by_cases hpeer : c.1 = peerId
          · have hone : contributions blocks peerId [e] = [c.2] := by simp [contributions, he, hpeer]
            rw [hone, ofContributions_concat, if_pos (by simp [peerRegistry, he, hpeer])]
            simp only [peerRegistry, he]
          · have hone : contributions blocks peerId [e] = [] := by simp [contributions, he, hpeer]
            rw [hone, List.append_nil, if_neg (by simp [peerRegistry, he, hpeer])]

/-! ### Summaries -/

/-- How many blocks an event brings. -/
def DashboardEvent.blocksReceived (e : DashboardEvent) : Nat := (e.received.map (·.2.1.length)).getD 0

def DashboardEvent.bytesReceived (e : DashboardEvent) : Nat := (e.received.map (·.2.2)).getD 0

def DashboardEvent.blocksServed (e : DashboardEvent) : Nat := (e.served.map (·.2.1.length)).getD 0

namespace TransferStats

/-- The transfer is what its events say. -/
structure Summarizes (stats : TransferStats) (narHash : Text) (events : List DashboardEvent) : Prop where
  narHash : stats.narHash = narHash
  storePath : stats.storePath = (events.filterMap DashboardEvent.storePath).getLast?
  narSize : stats.narSize = (events.filterMap DashboardEvent.narSize).getLast?
  source : stats.source = (events.filterMap DashboardEvent.source).getLast?
  blocksReceived : stats.totalBlocksReceived = (events.map DashboardEvent.blocksReceived).sum
  bytesReceived : stats.totalBytesReceived = (events.map DashboardEvent.bytesReceived).sum
  blocksServed : stats.totalBlocksServed = (events.map DashboardEvent.blocksServed).sum
  downloadPeers : ∀ peerId, stats.downloadPeers.lookup peerId =
    PeerTransferStats.ofContributions (contributions DashboardEvent.received peerId events)
  servingPeers : ∀ peerId, stats.servingPeers.lookup peerId =
    PeerTransferStats.ofContributions (contributions DashboardEvent.served peerId events)
  phases : ∀ name, stats.phasesMs.lookup name = (events.filterMap (DashboardEvent.phase name)).getLast?

/-- The totals are those of the peers. -/
structure Balanced (stats : TransferStats) : Prop where
  blocksReceived : stats.totalBlocksReceived = (stats.downloadPeers.values.map (·.blocks)).sum
  bytesReceived : stats.totalBytesReceived = (stats.downloadPeers.values.map (·.bytes)).sum
  blocksServed : stats.totalBlocksServed = (stats.servingPeers.values.map (·.blocks)).sum

end TransferStats

/-- What a transfer becomes by its events. -/
def transferOf (narHash : Text) (events : List DashboardEvent) : TransferStats :=
  events.foldl (fun stats e => transferRegistry.apply e stats) (.fresh narHash)

theorem downloadPeers_transferOf (narHash : Text) (events : List DashboardEvent) :
    (transferOf narHash events).downloadPeers = (peerRegistry DashboardEvent.received).run ∅ events :=
  (List.foldl_hom TransferStats.downloadPeers fun _ _ => rfl).symm

theorem servingPeers_transferOf (narHash : Text) (events : List DashboardEvent) :
    (transferOf narHash events).servingPeers = (peerRegistry DashboardEvent.served).run ∅ events :=
  (List.foldl_hom TransferStats.servingPeers fun _ _ => rfl).symm

theorem lookup_phasesMs_apply (e : DashboardEvent) (stats : TransferStats) (name : Text) :
    (transferRegistry.apply e stats).phasesMs.lookup name = (e.phase name).or (stats.phasesMs.lookup name) := by
  cases e with
  | transferPhase narHash phase elapsedMs =>
      simp only [transferRegistry, DashboardEvent.phase]
      by_cases hname : phase = name
      · subst hname
        rw [if_pos rfl, AList.lookup_insert, Option.some_or]
      · rw [if_neg hname, AList.lookup_insert_ne (Ne.symm hname), Option.none_or]
  | downloadStarted narHash storePath narSize => rfl
  | blockReceived narHash peerId indices bytes => rfl
  | downloadSucceeded narHash storePath size elapsedMs source => rfl
  | blockServed narHash peerId indices => rfl
  | catalogEntry hashPart storePath narSize narHash p2pAvailable => rfl
  | other type => rfl

theorem transferOf_summarizes (narHash : Text) (events : List DashboardEvent) :
    (transferOf narHash events).Summarizes narHash events where
  narHash := foldl_part_eq (f := fun stats e => transferRegistry.apply e stats) TransferStats.narHash (fun _ _ => rfl)
    events (.fresh narHash)
  storePath := (foldl_part_last TransferStats.storePath (fun _ _ => rfl) events _).trans (Option.or_none)
  narSize := (foldl_part_last TransferStats.narSize (fun _ _ => rfl) events _).trans (Option.or_none)
  source := (foldl_part_last TransferStats.source (fun _ _ => rfl) events _).trans (Option.or_none)
  blocksReceived := (foldl_part_add TransferStats.totalBlocksReceived (fun _ _ => rfl) events _).trans (Nat.zero_add _)
  bytesReceived := (foldl_part_add TransferStats.totalBytesReceived (fun _ _ => rfl) events _).trans (Nat.zero_add _)
  blocksServed := (foldl_part_add TransferStats.totalBlocksServed (fun _ _ => rfl) events _).trans (Nat.zero_add _)
  downloadPeers peerId := by rw [downloadPeers_transferOf, lookup_peerRegistry]
  servingPeers peerId := by rw [servingPeers_transferOf, lookup_peerRegistry]
  phases name :=
    (foldl_part_last (fun stats : TransferStats => stats.phasesMs.lookup name)
      (fun stats e => lookup_phasesMs_apply e stats name) events _).trans (Option.or_none)

/-- What the peers have together. -/
theorem sum_peerRegistry (blocks : DashboardEvent → Option (Text × List UInt32 × Nat)) (events : List DashboardEvent) :
    (((peerRegistry blocks).run ∅ events).values.map (·.blocks)).sum =
        (events.map fun e => ((blocks e).map (·.2.1.length)).getD 0).sum ∧
      (((peerRegistry blocks).run ∅ events).values.map (·.bytes)).sum =
        (events.map fun e => ((blocks e).map (·.2.2)).getD 0).sum := by
  have hkey : ∀ e, (peerRegistry blocks).key e = none → blocks e = none := fun e h => Option.map_eq_none_iff.mp h
  constructor
  · refine ((peerRegistry blocks).sum_values_run (fun _ => rfl) (fun e peer => ?_) (fun e h => ?_) ∅ events).trans
      (Nat.zero_add _)
    · simp only [peerRegistry]
      cases blocks e with
      | none => rfl
      | some c => rfl
    · rw [hkey e h]
      rfl
  · refine ((peerRegistry blocks).sum_values_run (fun _ => rfl) (fun e peer => ?_) (fun e h => ?_) ∅ events).trans
      (Nat.zero_add _)
    · simp only [peerRegistry]
      cases blocks e with
      | none => rfl
      | some c => rfl
    · rw [hkey e h]
      rfl

theorem transferOf_balanced (narHash : Text) (events : List DashboardEvent) :
    (transferOf narHash events).Balanced := by
  have h := transferOf_summarizes narHash events
  refine ⟨?_, ?_, ?_⟩
  · rw [h.blocksReceived, downloadPeers_transferOf]
    exact (sum_peerRegistry DashboardEvent.received events).1.symm
  · rw [h.bytesReceived, downloadPeers_transferOf]
    exact (sum_peerRegistry DashboardEvent.received events).2.symm
  · rw [h.blocksServed, servingPeers_transferOf]
    exact (sum_peerRegistry DashboardEvent.served events).1.symm

/-- The events about a transfer. -/
def concerning (narHash : Text) (events : List DashboardEvent) : List DashboardEvent :=
  events.filter fun e => decide (e.transfer = some narHash)

theorem lookup_transfers (receipts : List Receipt) (narHash : Text) :
    (listen maintainTransfers ∅ receipts).lookup narHash =
      if concerning narHash ((heard receipts).map Prod.fst) = [] then none
      else some (transferOf narHash (concerning narHash ((heard receipts).map Prod.fst))) := by
  have hrun : listen maintainTransfers ∅ receipts = transferRegistry.run ∅ ((heard receipts).map Prod.fst) := by
    rw [listen_eq_foldl, Registry.run, List.foldl_map]
    exact congrArg (fun f => (heard receipts).foldl f ∅)
      (funext fun t => funext fun e => maintainTransfers_eq_step t e.1 e.2)
  rw [hrun, Registry.lookup_run]
  rfl

/-- **What the transfers are evidence of.** Whatever the tasks report, in any order, and whatever the
listener loses: a transfer is shown if an event about it was heard; it is what the events about it say, those
of other transfers aside; its totals are those of its peers; and they claim no more than was reported, and all
of it if nothing was lost. -/
theorem transfers_evidence {sent : List DashboardEvent} {receipts : List Receipt} (hdelivers : Delivers sent receipts)
    (narHash : Text) :
    let transfers := listen maintainTransfers ∅ receipts
    let mine := concerning narHash ((heard receipts).map Prod.fst)
    let reported := concerning narHash sent
    (transfers.lookup narHash = none ↔ mine = []) ∧
      ∀ stats, transfers.lookup narHash = some stats → stats.Summarizes narHash mine ∧ stats.Balanced ∧
        (stats.totalBlocksReceived ≤ (reported.map DashboardEvent.blocksReceived).sum ∧
          stats.totalBytesReceived ≤ (reported.map DashboardEvent.bytesReceived).sum ∧
          stats.totalBlocksServed ≤ (reported.map DashboardEvent.blocksServed).sum) ∧
        ((heard receipts).map Prod.fst = sent → stats.Summarizes narHash reported) := by
  intro transfers mine reported
  have hlookup := lookup_transfers receipts narHash
  have hsub : mine.Sublist reported := hdelivers.sublist.filter _
  refine ⟨?_, fun stats hstats => ?_⟩
  · rw [hlookup]
    by_cases hmine : mine = []
    · exact iff_of_true (if_pos hmine) hmine
    · exact iff_of_false (by rw [if_neg hmine]; exact Option.some_ne_none _) hmine
  · have hsome : transferOf narHash mine = stats := by
      rw [hlookup] at hstats
      split at hstats
      · cases hstats
      · exact Option.some.inj hstats
    have hsummary : stats.Summarizes narHash mine := hsome ▸ transferOf_summarizes narHash mine
    have hless : ∀ f : DashboardEvent → Nat, (mine.map f).sum ≤ (reported.map f).sum := fun f =>
      (hsub.map f).sum_le_sum fun _ _ => Nat.zero_le _
    refine ⟨hsummary, hsome ▸ transferOf_balanced narHash mine, ⟨?_, ?_, ?_⟩, fun hall => ?_⟩
    · rw [hsummary.blocksReceived]
      exact hless _
    · rw [hsummary.bytesReceived]
      exact hless _
    · rw [hsummary.blocksServed]
      exact hless _
    · have hmine : mine = reported := congrArg (concerning narHash) hall
      rw [← hmine]
      exact hsummary

/-- A transfer in two parts, of which the first is heard. -/
theorem transfers_evidence_sample :
    ((listen maintainTransfers ∅ [.event (.blockReceived "n".toList "p".toList [0, 2] 8) 5]).lookup "n".toList).map
      (·.totalBytesReceived) = some 8 := by
  have hdelivers : Delivers [.blockReceived "n".toList "p".toList [0, 2] 8, .blockReceived "n".toList "q".toList [1] 4]
      [.event (.blockReceived "n".toList "p".toList [0, 2] 8) 5] := .event 5 .waiting
  obtain ⟨hshown, hstats⟩ := transfers_evidence hdelivers "n".toList
  cases hlookup : (listen maintainTransfers ∅
      [.event (.blockReceived "n".toList "p".toList [0, 2] 8) 5]).lookup "n".toList with
  | none => exact absurd (hshown.mp hlookup) (by decide +kernel)
  | some stats =>
      rw [Option.map_some, (hstats stats hlookup).1.bytesReceived]
      decide +kernel

/-! ### What was served -/

/-- The event of a response. -/
def BlockServed.dashboardEvent [PeerIdText] (event : BlockServed) : DashboardEvent :=
  .blockServed event.narHash (PeerIdText.toText event.peer) event.indices

def DashboardEvent.isBlockServed : DashboardEvent → Bool
  | .blockServed _ _ _ => true
  | _ => false

/-- The blocks that a response was asked for. -/
def PendingBlockResponse.blocksFor (narHash : Text) (pending : PendingBlockResponse) : Nat :=
  if pending.event.narHash = narHash then pending.event.indices.length else 0

/-- Leaving out what counts nothing. -/
theorem sum_map_filter {α : Type} {p : α → Bool} {f : α → Nat} (hf : ∀ a, p a = false → f a = 0) (l : List α) :
    ((l.filter p).map f).sum = (l.map f).sum := by
  induction l with
  | nil => rfl
  | cons a l ih =>
      cases hp : p a with
      | true => rw [List.filter_cons_of_pos hp, List.map_cons, List.map_cons, List.sum_cons, List.sum_cons, ih]
      | false =>
          rw [List.filter_cons_of_neg (Bool.eq_false_iff.mp hp), List.map_cons, List.sum_cons, hf a hp, Nat.zero_add,
            ih]

theorem blocksServed_eq_zero {e : DashboardEvent} (h : e.isBlockServed = false) : e.blocksServed = 0 := by
  cases e with
  | blockServed narHash peerId indices => cases h
  | downloadStarted narHash storePath narSize => rfl
  | blockReceived narHash peerId indices bytes => rfl
  | transferPhase narHash phase elapsedMs => rfl
  | downloadSucceeded narHash storePath size elapsedMs source => rfl
  | catalogEntry hashPart storePath narSize narHash p2pAvailable => rfl
  | other type => rfl

/-- Only the events of sent responses count. -/
theorem blocksServed_concerning [PeerIdText] {sent : List DashboardEvent} {responses : List PendingBlockResponse}
    (hsent : sent.filter DashboardEvent.isBlockServed = responses.map fun pending => pending.event.dashboardEvent)
    (narHash : Text) :
    ((concerning narHash sent).map DashboardEvent.blocksServed).sum =
      (responses.map (PendingBlockResponse.blocksFor narHash)).sum := by
  have hmine : (concerning narHash sent).map DashboardEvent.blocksServed = (concerning narHash sent).map fun e =>
      if e.transfer = some narHash then e.blocksServed else 0 :=
    List.map_congr_left fun e he => (if_pos (of_decide_eq_true (List.mem_filter.mp he).2)).symm
  have hothers : ∀ e : DashboardEvent, decide (e.transfer = some narHash) = false →
      (if e.transfer = some narHash then e.blocksServed else 0) = 0 := fun e he => if_neg (of_decide_eq_false he)
  have hserved : ∀ e : DashboardEvent, e.isBlockServed = false →
      (if e.transfer = some narHash then e.blocksServed else 0) = 0 := by
    intro e he
    rw [blocksServed_eq_zero he, ite_self]
  rw [hmine, concerning, sum_map_filter hothers, ← sum_map_filter hserved, hsent, List.map_map]
  refine congrArg List.sum (List.map_congr_left fun pending _ => ?_)
  simp only [Function.comp_apply, BlockServed.dashboardEvent, DashboardEvent.transfer, DashboardEvent.blocksServed,
    DashboardEvent.served, PendingBlockResponse.blocksFor]
  by_cases hnil : pending.event.indices = []
  · simp [hnil]
  · simp [hnil]

/-- **What is shown as served has been sent.** Of every run of the uploads: if the events on the bus that say so
are those of the responses that were sent, among any others, then the transfer of a NAR shows no more
blocks served than were asked for in the requests that the store answered; and it shows them all, once all responses
are sent and if the listener loses nothing. -/
theorem served_evidence [RateLimiterLib] [Sha256] [PeerIdText] {bytesPerSec : Option UInt64} {events : List UploadEvent}
    {s : Uploads} (hrun : Machine.run Uploads.step (Uploads.init bytesPerSec) events = .ok s) {sent : List DashboardEvent}
    (hsent : sent.filter DashboardEvent.isBlockServed = s.sent.map fun pending => pending.event.dashboardEvent)
    {receipts : List Receipt} (hdelivers : Delivers sent receipts) (narHash : Text) :
    let asked := ((events.filterMap Uploads.response?).map (PendingBlockResponse.blocksFor narHash)).sum
    let shown := (((listen maintainTransfers ∅ receipts).lookup narHash).map (·.totalBlocksServed)).getD 0
    shown ≤ asked ∧ ((heard receipts).map Prod.fst = sent → s.tasks = [] → s.queue = [] → shown = asked) := by
  intro asked shown
  have hperm : s.accounted.Perm (events.filterMap Uploads.response?) := Uploads.accounted_run hrun
  have hasked : (s.accounted.map (PendingBlockResponse.blocksFor narHash)).sum = asked := (hperm.map _).sum_eq
  have hshown : shown =
      ((concerning narHash ((heard receipts).map Prod.fst)).map DashboardEvent.blocksServed).sum := by
    have hlookup := lookup_transfers receipts narHash
    by_cases hmine : concerning narHash ((heard receipts).map Prod.fst) = []
    · rw [if_pos hmine] at hlookup
      simp only [shown, hlookup, hmine]
      rfl
    · rw [if_neg hmine] at hlookup
      simp only [shown, hlookup, Option.map_some, Option.getD_some]
      exact (transferOf_summarizes narHash _).blocksServed
  have hbus := blocksServed_concerning hsent narHash
  constructor
  · have hless : ((concerning narHash ((heard receipts).map Prod.fst)).map DashboardEvent.blocksServed).sum ≤
        ((concerning narHash sent).map DashboardEvent.blocksServed).sum :=
      ((hdelivers.sublist.filter _).map _).sum_le_sum fun _ _ => Nat.zero_le _
    rw [hshown, ← hasked, Uploads.accounted, List.map_append, List.map_append, List.sum_append, List.sum_append]
    omega
  · intro hall htasks hqueue
    rw [hshown, hall, hbus, ← hasked, Uploads.accounted, htasks, hqueue]
    simp

def sampleServedEvent : DashboardEvent := .blockServed (Hex.encode [0xab]) "p".toList [0, 1]

theorem served_evidence_sample :
    (((listen maintainTransfers ∅ [.event sampleServedEvent 5]).lookup (Hex.encode [0xab])).map
      (·.totalBlocksServed)).getD 0 =
        ((Uploads.sampleUploadEvents.filterMap (@Uploads.response? sampleSha256)).map
          (PendingBlockResponse.blocksFor (Hex.encode [0xab]))).sum := by
  have hdelivers : Delivers [sampleServedEvent] [.event sampleServedEvent 5] := .event 5 .waiting
  exact (@served_evidence Uploads.sampleLimiterLib sampleSha256 ⟨fun _ => "p".toList⟩ (some 2)
    Uploads.sampleUploadEvents _ Uploads.sampleUploadEvents_run [sampleServedEvent] rfl [.event sampleServedEvent 5] hdelivers
    (Hex.encode [0xab])).2 rfl rfl rfl

/-! ### The catalog -/

structure CatalogItem where
  hashPart : Text
  storePath : Option Text
  narSize : Option UInt64
  narHash : Option Text
  p2pAvailable : Bool
  deriving DecidableEq

def upsertCatalogItem (catalog : Table Text CatalogItem) (hashPart : Text) (storePath : Option Text)
    (narSize : Option UInt64) (narHash : Option Text) (p2pAvailable : Bool) : Table Text CatalogItem :=
  if hashPart ∈ catalog then
    catalog.modify hashPart fun entry =>
      { entry with
        storePath := if storePath.isSome then storePath else entry.storePath
        narSize := if narSize.isSome then narSize else entry.narSize
        narHash := if narHash.isSome then narHash else entry.narHash
        p2pAvailable := entry.p2pAvailable || p2pAvailable }
  else catalog.insert hashPart ⟨hashPart, storePath, narSize, narHash, p2pAvailable⟩

def maintainCatalog (catalog : Table Text CatalogItem) (event : DashboardEvent) (_ : UInt64) : Table Text CatalogItem :=
  match event with
  | .catalogEntry hashPart storePath narSize narHash p2pAvailable =>
    upsertCatalogItem catalog hashPart storePath narSize narHash p2pAvailable
  | _ => catalog

/-! ### The history -/

structure ApiDashboardEvent where
  id : Nat
  timestampMs : UInt64
  event : DashboardEvent
  deriving DecidableEq

structure EventHistory where
  nextId : Nat
  entries : List ApiDashboardEvent

def eventHistoryLimit : Nat := 500

def recordEventHistory (history : EventHistory) (event : DashboardEvent) (timestampMs : UInt64) : EventHistory :=
  let entries := history.entries ++ [⟨history.nextId, timestampMs, event⟩]
  -- from the front, while there are too many
  { nextId := history.nextId + 1, entries := entries.drop (entries.length - eventHistoryLimit) }

/-- An event says it of its catalog item. -/
structure CatalogNews where
  storePath : Option Text
  narSize : Option UInt64
  narHash : Option Text
  p2pAvailable : Bool

def DashboardEvent.catalogNews (hashPart : Text) : DashboardEvent → Option CatalogNews
  | .catalogEntry part storePath narSize narHash p2pAvailable =>
    if part = hashPart then some ⟨storePath, narSize, narHash, p2pAvailable⟩ else none
  | _ => none

/-- The item has what was said last, and is available over P2P if that was ever said. -/
structure CatalogItem.Tells (item : CatalogItem) (hashPart : Text) (news : List CatalogNews) : Prop where
  hashPart : item.hashPart = hashPart
  storePath : item.storePath = (news.filterMap (·.storePath)).getLast?
  narSize : item.narSize = (news.filterMap (·.narSize)).getLast?
  narHash : item.narHash = (news.filterMap (·.narHash)).getLast?
  p2pAvailable : item.p2pAvailable = news.any (·.p2pAvailable)

theorem getLast?_filterMap_concat {α β : Type} (f : α → Option β) (l : List α) (a : α) :
    ((l ++ [a]).filterMap f).getLast? = if (f a).isSome then f a else (l.filterMap f).getLast? := by
  rw [List.filterMap_append]
  cases ha : f a with
  | none => simp [ha]
  | some b => simp [ha]

theorem CatalogItem.Tells.concat {item : CatalogItem} {hashPart : Text} {news : List CatalogNews}
    (h : item.Tells hashPart news) (one : CatalogNews) :
    CatalogItem.Tells
      { item with
        storePath := if one.storePath.isSome then one.storePath else item.storePath
        narSize := if one.narSize.isSome then one.narSize else item.narSize
        narHash := if one.narHash.isSome then one.narHash else item.narHash
        p2pAvailable := item.p2pAvailable || one.p2pAvailable } hashPart (news ++ [one]) where
  hashPart := h.hashPart
  storePath := by rw [getLast?_filterMap_concat, h.storePath]
  narSize := by rw [getLast?_filterMap_concat, h.narSize]
  narHash := by rw [getLast?_filterMap_concat, h.narHash]
  p2pAvailable := by rw [h.p2pAvailable, List.any_append, List.any_cons, List.any_nil, Bool.or_false]

theorem tells_first (hashPart : Text) (one : CatalogNews) :
    CatalogItem.Tells ⟨hashPart, one.storePath, one.narSize, one.narHash, one.p2pAvailable⟩ hashPart [one] where
  hashPart := rfl
  storePath := by cases h : one.storePath <;> simp [h]
  narSize := by cases h : one.narSize <;> simp [h]
  narHash := by cases h : one.narHash <;> simp [h]
  p2pAvailable := by simp

/-- What the catalog has of a store item, given what was said of it. -/
def CatalogTells (catalog : Table Text CatalogItem) (hashPart : Text) (news : List CatalogNews) : Prop :=
  (catalog.lookup hashPart = none ↔ news = []) ∧ ∀ item, catalog.lookup hashPart = some item → item.Tells hashPart news

/-- **Step lemma.** -/
theorem CatalogTells.step {catalog : Table Text CatalogItem} {hashPart : Text} {news : List CatalogNews}
    (h : CatalogTells catalog hashPart news) (e : DashboardEvent) (now : UInt64) :
    CatalogTells (maintainCatalog catalog e now) hashPart (news ++ (e.catalogNews hashPart).toList) := by
  have hquiet : ∀ {catalog' : Table Text CatalogItem}, catalog'.lookup hashPart = catalog.lookup hashPart →
      CatalogTells catalog' hashPart (news ++ []) := by
    intro catalog' hsame
    rw [List.append_nil, CatalogTells, hsame]
    exact h
  cases e with
  | catalogEntry part storePath narSize narHash p2pAvailable =>
      simp only [maintainCatalog, DashboardEvent.catalogNews]
      by_cases hpart : part = hashPart
      · subst hpart
        rw [if_pos rfl]
        unfold upsertCatalogItem
        split
        next hmem =>
          obtain ⟨old, hold⟩ := Table.mem_iff_exists_lookup.mp hmem
          refine ⟨iff_of_false (by rw [Table.lookup_modify_self, hold]; exact Option.some_ne_none _) (by simp), ?_⟩
          intro item hitem
          rw [Table.lookup_modify_self, hold, Option.map_some] at hitem
          obtain rfl := Option.some.inj hitem
          exact (h.2 old hold).concat ⟨storePath, narSize, narHash, p2pAvailable⟩
        next hmem =>
          have hnone : news = [] := h.1.mp (AList.lookup_eq_none.mpr hmem)
          refine ⟨iff_of_false (by rw [AList.lookup_insert]; exact Option.some_ne_none _) (by simp), ?_⟩
          intro item hitem
          rw [AList.lookup_insert] at hitem
          obtain rfl := Option.some.inj hitem
          rw [hnone]
          exact tells_first part ⟨storePath, narSize, narHash, p2pAvailable⟩
      · rw [if_neg hpart]
        refine hquiet ?_
        unfold upsertCatalogItem
        split
        · exact Table.lookup_modify_of_ne (Ne.symm hpart) _ _
        · exact AList.lookup_insert_ne (Ne.symm hpart)
  | downloadStarted narHash storePath narSize => exact hquiet rfl
  | transferPhase narHash phase elapsedMs => exact hquiet rfl
  | blockReceived narHash peerId indices bytes => exact hquiet rfl
  | downloadSucceeded narHash storePath size elapsedMs source => exact hquiet rfl
  | blockServed narHash peerId indices => exact hquiet rfl
  | other type => exact hquiet rfl

/-- **Run lemma.** -/
theorem catalogTells_run (events : List (DashboardEvent × UInt64)) (hashPart : Text) :
    CatalogTells (events.foldl (fun catalog e => maintainCatalog catalog e.1 e.2) ∅) hashPart
      (events.filterMap fun e => e.1.catalogNews hashPart) := by
  induction events using List.reverseRecOn with
  | nil => exact ⟨iff_of_true rfl rfl, fun item hitem => (by cases hitem)⟩
  | append_singleton events e ih =>
      rw [List.foldl_append, List.filterMap_append]
      have hstep := ih.step e.1 e.2
      cases hnews : e.1.catalogNews hashPart with
      | none =>
          rw [hnews] at hstep
          simpa [hnews] using hstep
      | some one =>
          rw [hnews] at hstep
          simpa [hnews] using hstep

/-- The events of a history, numbered. -/
def numbered (events : List (DashboardEvent × UInt64)) : List ApiDashboardEvent :=
  events.zipIdx.map fun e => ⟨e.2, e.1.2, e.1.1⟩

theorem numbered_concat (events : List (DashboardEvent × UInt64)) (e : DashboardEvent × UInt64) :
    numbered (events ++ [e]) = numbered events ++ [⟨events.length, e.2, e.1⟩] := by
  unfold numbered
  rw [List.zipIdx_append, List.map_append, Nat.zero_add]
  rfl

/-- **Run lemma.** -/
theorem history_run (events : List (DashboardEvent × UInt64)) :
    events.foldl (fun history e => recordEventHistory history e.1 e.2) ⟨0, []⟩ =
      ⟨events.length, (numbered events).drop (events.length - eventHistoryLimit)⟩ := by
  induction events using List.reverseRecOn with
  | nil => rfl
  | append_singleton events e ih =>
      have hlength : (numbered events).length = events.length := by simp [numbered]
      rw [List.foldl_append, ih, numbered_concat, List.length_append, List.length_singleton]
      simp only [List.foldl_cons, List.foldl_nil, recordEventHistory, EventHistory.mk.injEq, true_and]
      generalize eventHistoryLimit = limit
      rw [← List.drop_append_of_le_length (by rw [hlength]; exact Nat.sub_le _ _), List.drop_drop, List.length_drop,
        List.length_append, List.length_singleton, hlength]
      congr 1
      omega

/-- **What the catalog and the history keep.** Whatever a listener hears: the catalog has an item for a hash part if
something was said about it, with the last store path, size and hash that were given, and it is available over
P2P from the first time on that an event says so; and the history has the latest 500 events that were heard, in
their order, with the numbers they got when they came. -/
theorem catalog_and_history (receipts : List Receipt) :
    (∀ hashPart, CatalogTells (listen maintainCatalog ∅ receipts) hashPart
      ((heard receipts).filterMap fun e => e.1.catalogNews hashPart)) ∧
    listen recordEventHistory ⟨0, []⟩ receipts =
      ⟨(heard receipts).length, (numbered (heard receipts)).drop ((heard receipts).length - eventHistoryLimit)⟩ := by
  constructor
  · intro hashPart
    rw [listen_eq_foldl]
    exact catalogTells_run (heard receipts) hashPart
  · rw [listen_eq_foldl]
    exact history_run (heard receipts)

end GuixP2p
