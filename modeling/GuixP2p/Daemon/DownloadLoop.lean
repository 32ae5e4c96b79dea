import GuixP2p.Config
import GuixP2p.Daemon.FetchInvariants

/-!
# GuixP2p.Daemon.DownloadLoop

The loop of `download_blocks_from_peers` in `src/daemon.rs`.

Every turn takes back expired blocks, dispatches requests and then waits up to a second
for a notification. A `Turn` is what the loop meets on the way: the clock each time it is
read, and what the wait ended with. The loop ends on its two deadlines, when nothing is in
flight and blocks are missing, when the download is complete, or with the channel.

`reaches_run` ties the loop to the machine of `BlockFetch`: whatever the loop does to the
download is a run of that machine, so its invariants hold here.
-/

namespace GuixP2p

open GuixP2p.Lib

/-! ### Deadlines -/

/-- `u64::saturating_add`. -/
def saturatingAdd (a b : UInt64) : UInt64 :=
  UInt64.ofNat (min (a.toNat + b.toNat) (2 ^ 64 - 1))

def minP2pDownloadBytesPerSec : UInt64 := 1024 * 1024

def blockDownloadOverallTimeoutSecs (requestTimeoutSecs stallTimeoutSecs narSize : UInt64) :
    UInt64 :=
  if narSize = 0 then requestTimeoutSecs
  else
    -- the request timeout is the floor for small NARs
    let transferSecs :=
      saturatingAdd narSize (minP2pDownloadBytesPerSec - 1) / minP2pDownloadBytesPerSec
    max requestTimeoutSecs (saturatingAdd stallTimeoutSecs transferSecs)

/-- The clock after some seconds. -/
def afterSecs (now : Instant) (secs : UInt64) : Instant := now + secs.toNat * 1000

/-! ### Turns -/

/-- What waiting for a notification ends with. -/
inductive Waited
  | note (n : SwarmNotification)
  | elapsed
  /-- The channel is closed, or has dropped notifications. -/
  | closed

/-- What the loop meets in one turn. -/
structure Turn where
  deadlineAt : Instant
  expireAt : Instant
  dispatchAt : Instant
  stallAt : Instant
  waited : Waited
  rearmAt : Instant

inductive LoopExit
  | timedOut
  | stalled
  | noProviders
  | complete
  | closed
  deriving DecidableEq, Repr

structure FetchLoop where
  fetch : BlockDownload
  stallDeadline : Instant

variable [Sha256]

namespace FetchLoop

/-- The requeueing and dispatching at the start of a turn. -/
def prepare (cfg : Config) (s : BlockDownload) (t : Turn) : BlockDownload :=
  let expired := (requeueExpiredBlocks s.sched t.expireAt cfg.fetch.blockTimeout).1
  { s with sched := (dispatchBlockRequests expired t.dispatchAt cfg.fetch.maxInFlight).1 }

/-- A response re-arms the stall deadline if it brought a block, and may complete the
download. -/
def onBlocks (cfg : Config) (l : FetchLoop) (t : Turn) (peer : PeerId) (data : List BlockData) :
    Except Panic (FetchLoop × Option LoopExit) :=
  match recordBlockResponse l.fetch peer data with
  | .error p => .error p
  | .ok (fetch, outcome) =>
    let stallDeadline :=
      if 0 < outcome.newlyAccepted then afterSecs t.rearmAt cfg.stallTimeoutSecs
      else l.stallDeadline
    match fetch.download.isComplete with
    | .error p => .error p
    | .ok true => .ok (⟨fetch, stallDeadline⟩, some .complete)
    | .ok false => .ok (⟨fetch, stallDeadline⟩, none)

/-- What the notification of a turn does. -/
def onWaited (cfg : Config) (l : FetchLoop) (t : Turn) : Except Panic (FetchLoop × Option LoopExit) :=
  match t.waited with
  | .note (.blockResponse peer (.blocks data)) => l.onBlocks cfg t peer data
  | .note (.blockRequestFailed peer) =>
    .ok (⟨{ l.fetch with sched := (requeueInFlightBlocksForPeer l.fetch.sched peer).1 },
      l.stallDeadline⟩, none)
  | .note _ => .ok (l, none)
  | .elapsed => .ok (l, none)
  | .closed => .ok (l, some .closed)

/-- One turn, and how it ends the loop if it does. -/
def turn (cfg : Config) (overallDeadline : Instant) (l : FetchLoop) (t : Turn) :
    Except Panic (FetchLoop × Option LoopExit) :=
  if overallDeadline ≤ t.deadlineAt then .ok (l, some .timedOut)
  else
    let l := { l with fetch := prepare cfg l.fetch t }
    if l.stallDeadline < t.stallAt then .ok (l, some .stalled)
    else if l.fetch.sched.inFlightTotal = 0 ∧
        ¬ l.fetch.sched.blockStates.all fun st => decide (st = .complete) then
      .ok (l, some .noProviders)
    else l.onWaited cfg t

/-- The whole loop. A run that is given no more turns is one that ends with the channel. -/
def run (cfg : Config) (overallDeadline : Instant) : List Turn → FetchLoop → Except Panic FetchLoop
  | [], l => .ok l
  | t :: ts, l =>
    match l.turn cfg overallDeadline t with
    | .error p => .error p
    | .ok (l', some _) => .ok l'
    | .ok (l', none) => run cfg overallDeadline ts l'

end FetchLoop

/-- What a download meets: the clock, the order its hash maps are iterated in (that of
`setUp`, if it is one of theirs) and the turns of the loop. -/
structure DownloadWorld where
  overallAt : Instant
  stallAt : Instant
  dispatchAt : Instant
  setUp : BlockDownload
  turns : List Turn

/-- Orchestrate block downloads from peers; with the NAR comes the text of its digest. -/
def downloadBlocksFromPeers (cfg : Config) (world : DownloadWorld)
    (handshakes : List PeerHandshake) (narSize : UInt64) (blockInfo : BlockInfo) (narHash : Text) :
    Except Panic (Except DownloadError (Bytes × Text)) :=
  let start := BlockDownload.start narHash narSize blockInfo handshakes
  let fetch := if start.SameMaps world.setUp then world.setUp else start
  let timeout :=
    blockDownloadOverallTimeoutSecs cfg.requestTimeoutSecs cfg.stallTimeoutSecs narSize
  let first : FetchLoop :=
    { fetch := { fetch with
        sched := (dispatchBlockRequests fetch.sched world.dispatchAt cfg.fetch.maxInFlight).1 }
      stallDeadline := afterSecs world.stallAt cfg.stallTimeoutSecs }
  match FetchLoop.run cfg (afterSecs world.overallAt timeout) world.turns first with
  | .error p => .error p
  | .ok last =>
    match last.fetch.download.isComplete with
    | .error p => .error p
    | .ok false => .ok (.error .incomplete)
    | .ok true =>
      match last.fetch.download.assemble with
      | .error p => .error p
      | .ok (.error e) => .ok (.error e)
      | .ok (.ok nar) =>
        .ok (.ok (nar, "sha256:".toList ++ Hex.encode (Sha256.digest nar).toList))

/-! ### The loop is a run of the machine -/

namespace FetchLoop

variable {cfg : Config} {overallDeadline : Instant}

/-- Some run of the machine leads from one download to the other. -/
def Reaches (cfg : Config) (s t : BlockDownload) : Prop :=
  ∃ es, Machine.run (BlockDownload.step cfg.fetch) s es = .ok t

theorem Reaches.refl (s : BlockDownload) : Reaches cfg s s := ⟨[], rfl⟩

theorem Reaches.trans {s t u : BlockDownload} (h : Reaches cfg s t) (h' : Reaches cfg t u) :
    Reaches cfg s u := by
  obtain ⟨es, hes⟩ := h
  obtain ⟨es', hes'⟩ := h'
  exact ⟨es ++ es', (Machine.run_append hes).trans hes'⟩

theorem reaches_prepare (s : BlockDownload) (t : Turn) : Reaches cfg s (prepare cfg s t) :=
  ⟨[.expire t.expireAt, .dispatch t.dispatchAt], rfl⟩

theorem reaches_onBlocks {l l' : FetchLoop} {t : Turn} {peer : PeerId} {data : List BlockData}
    {exit : Option LoopExit} (h : l.onBlocks cfg t peer data = .ok (l', exit)) :
    Reaches cfg l.fetch l'.fetch := by
  unfold onBlocks at h
  cases hr : recordBlockResponse l.fetch peer data with
  | error p => rw [hr] at h; cases h
  | ok r =>
      obtain ⟨fetch, outcome⟩ := r
      have hfetch : l'.fetch = fetch := by
        rw [hr] at h
        dsimp only at h
        split at h
        · cases h
        all_goals
          obtain ⟨rfl, -⟩ := Prod.mk.inj (Except.ok.inj h)
          rfl
      rw [hfetch]
      have hstep : BlockDownload.step cfg.fetch l.fetch (.response peer data) = .ok fetch := by
        simp only [BlockDownload.step, hr]
      exact ⟨[.response peer data], by rw [Machine.run_cons_ok hstep, Machine.run_nil]⟩

theorem reaches_onWaited {l l' : FetchLoop} {t : Turn} {exit : Option LoopExit}
    (h : l.onWaited cfg t = .ok (l', exit)) : Reaches cfg l.fetch l'.fetch := by
  unfold onWaited at h
  split at h
  case h_1 peer data _ => exact reaches_onBlocks h
  case h_2 peer _ =>
      obtain ⟨rfl, -⟩ := Prod.mk.inj (Except.ok.inj h)
      exact ⟨[.requestFailed peer], rfl⟩
  all_goals
    obtain ⟨rfl, -⟩ := Prod.mk.inj (Except.ok.inj h)
    exact Reaches.refl _

/-- One turn of the loop is a run of the machine. -/
theorem reaches_turn {l l' : FetchLoop} {t : Turn} {exit : Option LoopExit}
    (h : l.turn cfg overallDeadline t = .ok (l', exit)) : Reaches cfg l.fetch l'.fetch := by
  unfold turn at h
  split at h
  · obtain ⟨rfl, -⟩ := Prod.mk.inj (Except.ok.inj h)
    exact Reaches.refl _
  · refine (reaches_prepare l.fetch t).trans ?_
    dsimp only at h
    split at h
    · obtain ⟨rfl, -⟩ := Prod.mk.inj (Except.ok.inj h)
      exact Reaches.refl _
    · split at h
      · obtain ⟨rfl, -⟩ := Prod.mk.inj (Except.ok.inj h)
        exact Reaches.refl _
      · exact reaches_onWaited h

/-- **The loop is a run of the machine**: whatever it meets, the download it ends with is
one the block scheduler can reach. -/
theorem reaches_run {ts : List Turn} {l l' : FetchLoop} (h : run cfg overallDeadline ts l = .ok l') :
    Reaches cfg l.fetch l'.fetch := by
  induction ts generalizing l with
  | nil =>
      obtain rfl : l = l' := Except.ok.inj h
      exact Reaches.refl _
  | cons t ts ih =>
      unfold run at h
      cases ht : l.turn cfg overallDeadline t with
      | error p => rw [ht] at h; cases h
      | ok r =>
          obtain ⟨l₁, exit⟩ := r
          rw [ht] at h
          cases exit with
          | some e =>
              obtain rfl : l₁ = l' := Except.ok.inj h
              exact reaches_turn ht
          | none => exact (reaches_turn ht).trans (ih h)

end FetchLoop

end GuixP2p
