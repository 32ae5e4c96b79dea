import Mathlib.Data.List.Lex
import Mathlib.Data.Char
import Mathlib.Data.List.Sort
import GuixP2p.Basic

/-!
# GuixP2p.Connection

`src/connection.rs`: the connection manager, which keeps one `PeerState` per peer it has
heard of. Every operation reads the clock once; the reading is an argument here.

What the operations do to the connected flags is all that most results need, so each one
has a lemma that says it in terms of `Connected`. The dial limits and the backoff are not
modelled in this module.
-/

namespace GuixP2p

open GuixP2p.Lib

/-- The text form of a peer identity, as libp2p prints it. -/
class PeerIdText where
  toText : PeerId → Text

/-- The limits that the modelled operations read; times are in milliseconds. -/
structure ConnectionConfig where
  healthCheckInterval : Nat
  deriving DecidableEq

structure PeerState where
  retryCount : UInt32
  lastAttempt : Instant
  lastActive : Instant
  connected : Bool
  addresses : Finset Text
  deriving DecidableEq

/-- The state of a peer heard of for the first time. -/
def PeerState.fresh (now : Instant) : PeerState :=
  { retryCount := 0, lastAttempt := now, lastActive := now, connected := false, addresses := ∅ }

structure ConnectionManager where
  config : ConnectionConfig
  peers : Table PeerId PeerState

namespace ConnectionManager

def new (config : ConnectionConfig) : ConnectionManager := { config, peers := ∅ }

/-- Change the state of a peer, which is created if it has none. -/
def updatePeer (m : ConnectionManager) (now : Instant) (peer : PeerId) (f : PeerState → PeerState) :
    ConnectionManager :=
  { m with peers := m.peers.upsert peer (PeerState.fresh now) f }

/-- Change the state of a peer that has one. -/
def modifyPeer (m : ConnectionManager) (peer : PeerId) (f : PeerState → PeerState) :
    ConnectionManager :=
  { m with peers := m.peers.modify peer f }

/-- Mark a peer as connected and merge any dialable addresses learned. -/
def onConnectedWithAddresses (m : ConnectionManager) (now : Instant) (peer : PeerId)
    (addresses : List Text) : ConnectionManager :=
  m.updatePeer now peer fun st =>
    { st with
      retryCount := 0, lastActive := now, connected := true
      addresses := st.addresses ∪ addresses.toFinset }

/-- Mark a peer as connected without adding new address metadata. -/
def onConnected (m : ConnectionManager) (now : Instant) (peer : PeerId) : ConnectionManager :=
  m.onConnectedWithAddresses now peer []

/-- Mark a peer as disconnected while keeping address and retry history. -/
def onDisconnected (m : ConnectionManager) (now : Instant) (peer : PeerId) : ConnectionManager :=
  m.modifyPeer peer fun st => { st with lastActive := now, connected := false }

/-- Mark recent successful peer activity. -/
def onActive (m : ConnectionManager) (now : Instant) (peer : PeerId) : ConnectionManager :=
  m.updatePeer now peer fun st => { st with lastActive := now }

/-- Store a dialable address learned from identify, mDNS, or dialing. -/
def addAddress (m : ConnectionManager) (now : Instant) (peer : PeerId) (address : Text) :
    ConnectionManager :=
  m.updatePeer now peer fun st =>
    { st with addresses := insert address st.addresses, lastActive := now }

/-- Drop a failed address from a peer's in-memory address set. -/
def removeAddress (m : ConnectionManager) (now : Instant) (peer : PeerId) (address : Text) :
    ConnectionManager :=
  m.modifyPeer peer fun st =>
    { st with addresses := st.addresses.erase address, lastActive := now }

/-- Record an outbound dial or handshake attempt. -/
def recordAttempt (m : ConnectionManager) (now : Instant) (peer : PeerId) : ConnectionManager :=
  m.updatePeer now peer fun st => { st with retryCount := st.retryCount + 1, lastAttempt := now }

/-- Has this peer been inactive beyond the health-check window? -/
def isStale (m : ConnectionManager) (now : Instant) (st : PeerState) : Bool :=
  decide (st.lastActive < now - m.config.healthCheckInterval * 2)

/-- Remove peers that have been inactive beyond the health-check window; the result
lists them. -/
def pruneDead (m : ConnectionManager) (now : Instant) : ConnectionManager × List PeerId :=
  ({ m with peers := m.peers.filter fun _ st => !m.isStale now st },
    (m.peers.entries.filter fun e => m.isStale now e.2).map (·.1))

/-- Return connected peer IDs in a stable order for fallback handshakes. -/
def connectedPeers [PeerIdText] (m : ConnectionManager) : List PeerId :=
  (m.peers.entries.filterMap fun e => if e.2.connected then some e.1 else none).mergeSort
    fun p q => decide (PeerIdText.toText p ≤ PeerIdText.toText q)

/-! ### The connected flags -/

/-- The manager holds the peer for connected. -/
def Connected (m : ConnectionManager) (p : PeerId) : Prop :=
  ∃ st, m.peers.lookup p = some st ∧ st.connected = true

@[simp] theorem not_connected_new (config : ConnectionConfig) (p : PeerId) :
    ¬ (new config).Connected p := by
  intro h
  obtain ⟨st, hst, -⟩ := h
  simp [new] at hst

theorem mem_connectedPeers [PeerIdText] {m : ConnectionManager} {p : PeerId} :
    p ∈ m.connectedPeers ↔ m.Connected p := by
  unfold connectedPeers Connected
  rw [List.mem_mergeSort, List.mem_filterMap]
  constructor
  · intro h
    obtain ⟨⟨q, st⟩, hmem, hq⟩ := h
    dsimp only at hq
    split at hq
    next hst =>
      obtain rfl := Option.some.inj hq
      exact ⟨st, AList.mem_lookup_iff.mpr hmem, hst⟩
    next => cases hq
  · intro h
    obtain ⟨st, hlook, hst⟩ := h
    exact ⟨⟨p, st⟩, AList.mem_lookup_iff.mp hlook, by simp [hst]⟩

/-- An update that leaves the flag alone disturbs no peer; a fresh peer is not connected. -/
theorem connected_updatePeer {m : ConnectionManager} {now : Instant} {peer p : PeerId}
    {f : PeerState → PeerState} (hf : ∀ st, (f st).connected = st.connected) :
    (m.updatePeer now peer f).Connected p ↔ m.Connected p := by
  unfold Connected updatePeer
  by_cases hp : p = peer
  · subst hp
    rw [Table.lookup_upsert_self]
    cases hlook : m.peers.lookup p with
    | none => simp [hf, PeerState.fresh]
    | some st => simp [hf]
  · rw [Table.lookup_upsert_of_ne hp]

theorem connected_modifyPeer {m : ConnectionManager} {peer p : PeerId}
    {f : PeerState → PeerState} (hf : ∀ st, (f st).connected = st.connected) :
    (m.modifyPeer peer f).Connected p ↔ m.Connected p := by
  unfold Connected modifyPeer
  by_cases hp : p = peer
  · subst hp
    rw [Table.lookup_modify_self]
    simp [hf]
  · rw [Table.lookup_modify_of_ne hp]

@[simp] theorem connected_onConnectedWithAddresses {m : ConnectionManager} {now : Instant}
    {peer p : PeerId} {addresses : List Text} :
    (m.onConnectedWithAddresses now peer addresses).Connected p ↔ p = peer ∨ m.Connected p := by
  unfold Connected onConnectedWithAddresses updatePeer
  by_cases hp : p = peer
  · subst hp
    simp [Table.lookup_upsert_self]
  · simp [Table.lookup_upsert_of_ne hp, hp]

@[simp] theorem connected_onConnected {m : ConnectionManager} {now : Instant} {peer p : PeerId} :
    (m.onConnected now peer).Connected p ↔ p = peer ∨ m.Connected p :=
  connected_onConnectedWithAddresses

@[simp] theorem connected_onDisconnected {m : ConnectionManager} {now : Instant}
    {peer p : PeerId} :
    (m.onDisconnected now peer).Connected p ↔ p ≠ peer ∧ m.Connected p := by
  unfold Connected onDisconnected modifyPeer
  by_cases hp : p = peer
  · subst hp
    simp [Table.lookup_modify_self]
  · simp [Table.lookup_modify_of_ne hp, hp]

@[simp] theorem connected_onActive {m : ConnectionManager} {now : Instant} {peer p : PeerId} :
    (m.onActive now peer).Connected p ↔ m.Connected p :=
  connected_updatePeer fun _ => rfl

@[simp] theorem connected_addAddress {m : ConnectionManager} {now : Instant} {peer p : PeerId}
    {address : Text} : (m.addAddress now peer address).Connected p ↔ m.Connected p :=
  connected_updatePeer fun _ => rfl

@[simp] theorem connected_removeAddress {m : ConnectionManager} {now : Instant}
    {peer p : PeerId} {address : Text} :
    (m.removeAddress now peer address).Connected p ↔ m.Connected p :=
  connected_modifyPeer fun _ => rfl

@[simp] theorem connected_recordAttempt {m : ConnectionManager} {now : Instant}
    {peer p : PeerId} : (m.recordAttempt now peer).Connected p ↔ m.Connected p :=
  connected_updatePeer fun _ => rfl

/-- Pruning takes the flag from every stale peer, connected or not. -/
theorem connected_pruneDead {m : ConnectionManager} {now : Instant} {p : PeerId} :
    (m.pruneDead now).1.Connected p ↔
      ∃ st, m.peers.lookup p = some st ∧ st.connected = true ∧ m.isStale now st = false := by
  simp only [Connected, pruneDead, Table.lookup_filter_eq_some, Bool.not_eq_true']
  constructor
  · intro h
    obtain ⟨st, ⟨hlook, hfresh⟩, hst⟩ := h
    exact ⟨st, hlook, hst, hfresh⟩
  · intro h
    obtain ⟨st, hlook, hst, hfresh⟩ := h
    exact ⟨st, ⟨hlook, hfresh⟩, hst⟩

end ConnectionManager

end GuixP2p
