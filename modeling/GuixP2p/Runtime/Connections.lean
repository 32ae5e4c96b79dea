import GuixP2p.Connection
import GuixP2p.Lib.Folds
import GuixP2p.Lib.Machine

/-!
# GuixP2p.Runtime.Connections

How the daemon drives its connection manager: the connection, identify and dial events of
`run_swarm_task` in `src/runtime.rs`, its pruning timer, and the calls that the handshake
and download tasks of `src/daemon.rs` make.

libp2p keeps any number of connections to one peer and reports each opening and each
closing. `Node.connections` counts them; the manager never sees the count, although
`ConnectionClosed` carries it. `connectedPeers_tracks_iff` says when the manager's flags
are nevertheless the truth: closings must close the last connection, handshake replies must
be handled while a connection is open, and pruning must meet no open connection that has
been quiet for long.
-/

namespace GuixP2p

open GuixP2p.Lib

/-- What reaches the connection manager. -/
inductive ConnectionEvent
  /-- `ConnectionEstablished`, with the address if this node dialled. -/
  | established (peer : PeerId) (dialled : Option Text)
  /-- `ConnectionClosed`: one of the connections to the peer is gone. -/
  | closed (peer : PeerId)
  /-- `identify::Event::Received`, with the public addresses among those it lists. -/
  | identified (peer : PeerId) (addresses : List Text)
  /-- `OutgoingConnectionError`, with the addresses that failed. -/
  | dialFailed (peer : PeerId) (addresses : List Text)
  /-- A block-exchange response. -/
  | responded (peer : PeerId)
  /-- The handshake task sends its first request. -/
  | attempted (peer : PeerId)
  /-- The handshake task accepts a reply. -/
  | handshaked (peer : PeerId)
  /-- A download from these peers has succeeded. -/
  | downloaded (peers : List PeerId)
  /-- The pruning timer. -/
  | pruned

/-- The connection manager beside the connections libp2p holds. -/
structure Node where
  manager : ConnectionManager
  connections : PeerId → Nat

/-- libp2p does not report the closing of a connection that is not open. -/
inductive ConnectionFault
  | notOpen
  deriving DecidableEq

namespace Node

def init (config : ConnectionConfig) : Node :=
  { manager := .new config, connections := fun _ => 0 }

/-- What an event does to the manager. -/
def handle (m : ConnectionManager) (now : Instant) : ConnectionEvent → ConnectionManager
  | .established peer (some address) => m.onConnectedWithAddresses now peer [address]
  | .established peer none => m.onConnected now peer
  | .closed peer => m.onDisconnected now peer
  | .identified peer addresses => addresses.foldl (fun m a => m.addAddress now peer a) m
  | .dialFailed peer addresses => addresses.foldl (fun m a => m.removeAddress now peer a) m
  | .responded peer => m.onActive now peer
  | .attempted peer => m.recordAttempt now peer
  | .handshaked peer => m.onConnected now peer
  | .downloaded peers => peers.foldl (fun m p => m.onActive now p) m
  | .pruned => (m.pruneDead now).1

/-- One event, at the time the manager reads from the clock. -/
def step (n : Node) (e : Instant × ConnectionEvent) : Except ConnectionFault Node :=
  let manager := handle n.manager e.1 e.2
  match e.2 with
  | .established peer _ =>
    .ok { manager, connections := Function.update n.connections peer (n.connections peer + 1) }
  | .closed peer =>
    if n.connections peer = 0 then .error .notOpen
    else .ok { manager, connections := Function.update n.connections peer (n.connections peer - 1) }
  | _ => .ok { manager, connections := n.connections }

/-- The peers the manager reports as connected are those with an open connection. -/
def Tracks [PeerIdText] (n : Node) : Prop :=
  ∀ p, p ∈ n.manager.connectedPeers ↔ 0 < n.connections p

/-- The steps that keep the manager's flags true. -/
def Faithful (n : Node) (e : Instant × ConnectionEvent) : Prop :=
  match e.2 with
  | .closed peer => n.connections peer = 1
  | .handshaked peer => 0 < n.connections peer
  | .pruned => ∀ p st, n.manager.peers.lookup p = some st →
      st.lastActive < e.1 - n.manager.config.healthCheckInterval * 2 → n.connections p = 0
  | _ => True

variable [PeerIdText]

theorem tracks_iff {n : Node} : n.Tracks ↔ ∀ p, n.manager.Connected p ↔ 0 < n.connections p := by
  simp only [Tracks, ConnectionManager.mem_connectedPeers]

theorem tracks_init (config : ConnectionConfig) : (init config).Tracks := by
  rw [tracks_iff]
  intro p
  simp [init]

/-! ### One event -/

/-- A connection opens: its peer is marked, and is connected. -/
theorem tracks_established {n : Node} (h : n.Tracks) (now : Instant) (peer : PeerId)
    (dialled : Option Text) :
    Tracks ⟨handle n.manager now (.established peer dialled),
      Function.update n.connections peer (n.connections peer + 1)⟩ := by
  rw [tracks_iff] at h ⊢
  intro p
  have hflag : (handle n.manager now (.established peer dialled)).Connected p ↔
      p = peer ∨ n.manager.Connected p := by
    cases dialled with
    | none => exact ConnectionManager.connected_onConnected
    | some a => exact ConnectionManager.connected_onConnectedWithAddresses
  dsimp only
  rw [hflag, h p]
  by_cases hp : p = peer
  · subst hp
    simp
  · simp [hp]

/-- A connection closes: its peer is unmarked, so it had better be the last one. -/
theorem tracks_closed_iff {n : Node} (h : n.Tracks) (now : Instant) {peer : PeerId}
    (hopen : n.connections peer ≠ 0) :
    Tracks ⟨n.manager.onDisconnected now peer,
      Function.update n.connections peer (n.connections peer - 1)⟩ ↔ n.connections peer = 1 := by
  rw [tracks_iff] at h ⊢
  simp only [ConnectionManager.connected_onDisconnected]
  constructor
  · intro hall
    have hself := hall peer
    simp only [ne_eq, not_true_eq_false, false_and, Function.update_self, false_iff] at hself
    omega
  · intro hone p
    by_cases hp : p = peer
    · subst hp
      simp [hone]
    · simp [hp, h p]

/-- A handshake reply marks its peer. -/
theorem tracks_handshaked_iff {n : Node} (h : n.Tracks) (now : Instant) (peer : PeerId) :
    Tracks ⟨n.manager.onConnected now peer, n.connections⟩ ↔ 0 < n.connections peer := by
  rw [tracks_iff] at h ⊢
  simp only [ConnectionManager.connected_onConnected]
  constructor
  · intro hall
    exact (hall peer).mp (Or.inl rfl)
  · intro hpos p
    rw [h p]
    constructor
    · intro h'
      rcases h' with rfl | hp
      · exact hpos
      · exact hp
    · exact Or.inr

/-- Pruning unmarks the peers that have been quiet. -/
theorem tracks_pruned_iff {n : Node} (h : n.Tracks) (now : Instant) :
    Tracks ⟨(n.manager.pruneDead now).1, n.connections⟩ ↔ n.Faithful (now, .pruned) := by
  rw [tracks_iff] at h ⊢
  simp only [ConnectionManager.connected_pruneDead, Faithful]
  constructor
  · intro hall p st hlook hstale
    by_contra hopen
    obtain ⟨st', hlook', -, hfresh⟩ := (hall p).mpr (Nat.pos_of_ne_zero hopen)
    obtain rfl : st = st' := Option.some.inj (hlook.symm.trans hlook')
    simp [ConnectionManager.isStale, hstale] at hfresh
  · intro hquiet p
    rw [← h p]
    constructor
    · intro h'
      obtain ⟨st, hlook, hst, -⟩ := h'
      exact ⟨st, hlook, hst⟩
    · intro h'
      obtain ⟨st, hlook, hst⟩ := h'
      refine ⟨st, hlook, hst, ?_⟩
      by_contra hstale
      have hquiet' : st.lastActive < now - n.manager.config.healthCheckInterval * 2 :=
        of_decide_eq_true (Bool.of_not_eq_false hstale)
      have hclosed := hquiet p st hlook hquiet'
      have hopen := (h p).mp ⟨st, hlook, hst⟩
      omega

/-- An event that leaves every flag alone. -/
theorem tracks_of_connected_iff {n : Node} (h : n.Tracks) {m : ConnectionManager}
    (hm : ∀ p, m.Connected p ↔ n.manager.Connected p) : Tracks ⟨m, n.connections⟩ := by
  rw [tracks_iff] at h ⊢
  intro p
  rw [hm p]
  exact h p

/-- **Step lemma.** The guard is exactly what an event needs to keep the flags true. -/
theorem tracks_step_iff {n n' : Node} {e : Instant × ConnectionEvent} (h : n.Tracks)
    (hs : n.step e = .ok n') : n'.Tracks ↔ n.Faithful e := by
  obtain ⟨now, event⟩ := e
  cases event with
  | established peer dialled =>
      obtain rfl := Except.ok.inj hs
      exact iff_of_true (tracks_established h now peer dialled) trivial
  | closed peer =>
      simp only [step] at hs
      split at hs
      next => cases hs
      next hopen =>
        obtain rfl := Except.ok.inj hs
        exact tracks_closed_iff h now hopen
  | identified peer addresses =>
      obtain rfl := Except.ok.inj hs
      refine iff_of_true (tracks_of_connected_iff h fun p => ?_) trivial
      exact foldl_iff_self (P := fun m : ConnectionManager => m.Connected p)
        (fun _ _ => ConnectionManager.connected_addAddress) addresses n.manager
  | dialFailed peer addresses =>
      obtain rfl := Except.ok.inj hs
      refine iff_of_true (tracks_of_connected_iff h fun p => ?_) trivial
      exact foldl_iff_self (P := fun m : ConnectionManager => m.Connected p)
        (fun _ _ => ConnectionManager.connected_removeAddress) addresses n.manager
  | responded peer =>
      obtain rfl := Except.ok.inj hs
      exact iff_of_true
        (tracks_of_connected_iff h fun p => ConnectionManager.connected_onActive) trivial
  | attempted peer =>
      obtain rfl := Except.ok.inj hs
      exact iff_of_true
        (tracks_of_connected_iff h fun p => ConnectionManager.connected_recordAttempt) trivial
  | handshaked peer =>
      obtain rfl := Except.ok.inj hs
      exact tracks_handshaked_iff h now peer
  | downloaded peers =>
      obtain rfl := Except.ok.inj hs
      refine iff_of_true (tracks_of_connected_iff h fun p => ?_) trivial
      exact foldl_iff_self (P := fun m : ConnectionManager => m.Connected p)
        (fun _ _ => ConnectionManager.connected_onActive) peers n.manager
  | pruned =>
      obtain rfl := Except.ok.inj hs
      exact tracks_pruned_iff h now

/-! ### Every run -/

/-- **When `connected_peers` is the truth.** Along a run of any events at any times, the
manager reports exactly the peers with an open connection in every state if and only if
every `ConnectionClosed` closes the last connection to its peer, every handshake reply is
handled while its peer has a connection, and every pruning finds the peers with a
connection active within the health-check window. -/
theorem connectedPeers_tracks_iff {config : ConnectionConfig}
    {events : List (Instant × ConnectionEvent)} {n : Node}
    (hrun : Machine.run step (init config) events = .ok n) :
    (∀ es n', es <+: events → Machine.run step (init config) es = .ok n' → n'.Tracks) ↔
      Machine.Meets step Faithful (init config) events :=
  Machine.forall_states_iff_meets (J := fun _ => True) (fun _ _ _ _ _ => trivial)
    (fun _ _ _ _ h hs => tracks_step_iff h hs) trivial (tracks_init config) hrun

/-! ### Two connections to one peer -/

/-- The sample peers as libp2p prints them. -/
@[reducible] def samplePeerIdText : PeerIdText where
  toText p := if p = ⟨[1]⟩ then ['2'] else if p = ⟨[2]⟩ then ['3'] else []

/-- Both sides dial, and one of the two connections is dropped. -/
def simultaneousDial : List (Instant × ConnectionEvent) :=
  [(0, .established ⟨[1]⟩ (some "/ip4/10.0.0.1/tcp/6881".toList)), (5, .established ⟨[1]⟩ none),
    (9, .closed ⟨[1]⟩)]

omit [PeerIdText] in
/-- A peer with one open connection is not reported. -/
theorem second_connection_forgotten :
    ∃ n, Machine.run step (init ⟨60000⟩) simultaneousDial = .ok n ∧
      n.connections ⟨[1]⟩ = 1 ∧
      ⟨[1]⟩ ∉ @ConnectionManager.connectedPeers samplePeerIdText n.manager ∧
      ¬ @Tracks samplePeerIdText n := by
  refine ⟨_, rfl, rfl, ?_⟩
  rw [← not_or]
  intro h
  rcases h with hmem | htracks
  · rw [@ConnectionManager.mem_connectedPeers samplePeerIdText] at hmem
    exact (ConnectionManager.connected_onDisconnected.mp hmem).1 rfl
  · have hmem := ((@tracks_iff samplePeerIdText _).mp htracks ⟨[1]⟩).mpr Nat.one_pos
    exact (ConnectionManager.connected_onDisconnected.mp hmem).1 rfl

/-- One connection, in use when the timer fires. -/
def oneConnection : List (Instant × ConnectionEvent) :=
  [(0, .established ⟨[1]⟩ none), (70000, .responded ⟨[1]⟩), (150000, .pruned)]

omit [PeerIdText] in
theorem connectedPeers_tracks_oneConnection :
    ∃ n, Machine.run step (init ⟨60000⟩) oneConnection = .ok n ∧ @Tracks samplePeerIdText n := by
  refine ⟨_, rfl, ?_⟩
  refine (@connectedPeers_tracks_iff samplePeerIdText ⟨60000⟩ oneConnection _ rfl).mpr
    ⟨trivial, fun n₁ h₁ => ⟨trivial, fun n₂ h₂ => ⟨fun p st hlook hstale => ?_, fun _ _ => trivial⟩⟩⟩
    oneConnection _ List.prefix_rfl rfl
  obtain rfl := Except.ok.inj h₁
  obtain rfl := Except.ok.inj h₂
  by_cases hp : p = ⟨[1]⟩
  · subst hp
    obtain rfl := Option.some.inj hlook
    exact absurd hstale (by decide)
  · exact Function.update_of_ne hp _ _

end Node

end GuixP2p
