import Mathlib.Data.Char
import Mathlib.Data.Finset.Sort
import Mathlib.Data.List.Lex
import GuixP2p.Connection.History
import GuixP2p.Lib.Folds
import GuixP2p.PeerStore.Persistence

/-!
# GuixP2p.Runtime.FailedDials

**Addresses that could not be dialled.** The daemon keeps the addresses of a peer twice: in the
peer store, without the `/p2p/<peer-id>` that may end them, and in the connection manager, as they
were heard. A dial error names addresses in a third spelling, and `remove_failed_dial_addresses`
in `src/runtime.rs` asks both to forget them; the store normalises the address first, the manager
compares texts.

What the two hold after a removal is what they held before, less these texts
(`holds_removeFailed`), so an address that is spelled otherwise survives.
`failed_addresses_disappear_iff` says so for every history of learned addresses, and
`forgotten_of_learned` in terms of how the addresses were spelled when they were learned.
-/

namespace GuixP2p

open GuixP2p.Lib MultiaddrLib

/-! ### What the connection manager shows -/

/-- Read-only view of one peer. -/
structure PeerConnectionSnapshot where
  peer : PeerId
  connected : Bool
  addresses : List Text
  lastActiveSecsAgo : Nat

namespace ConnectionManager

/-- Return a read-only dashboard/API snapshot sorted by each caller as needed. -/
def peerSnapshots (m : ConnectionManager) (now : Instant) : List PeerConnectionSnapshot :=
  m.peers.entries.map fun e =>
    { peer := e.1
      connected := e.2.connected
      addresses := e.2.addresses.sort (· ≤ ·)
      lastActiveSecsAgo := (now - e.2.lastActive) / 1000 }

/-- The manager has this text among the addresses of the peer. -/
def Holds (m : ConnectionManager) (p : PeerId) (text : Text) : Prop :=
  ∃ st, m.peers.lookup p = some st ∧ text ∈ st.addresses

variable {m : ConnectionManager} {now : Instant} {p peer : PeerId} {text address : Text}

theorem exists_snapshot_iff :
    (∃ s ∈ m.peerSnapshots now, s.peer = p ∧ text ∈ s.addresses) ↔ m.Holds p text := by
  unfold Holds peerSnapshots
  constructor
  · intro h
    obtain ⟨s, hs, rfl, htext⟩ := h
    obtain ⟨⟨q, st⟩, hmem, rfl⟩ := List.mem_map.mp hs
    exact ⟨st, AList.mem_lookup_iff.mpr hmem, (Finset.mem_sort _).mp htext⟩
  · intro h
    obtain ⟨st, hlook, htext⟩ := h
    exact ⟨_, List.mem_map_of_mem (AList.mem_lookup_iff.mp hlook), rfl, (Finset.mem_sort _).mpr htext⟩

/-- An update that enters some texts, or none. -/
theorem holds_updatePeer {f : PeerState → PeerState} (entered : Finset Text)
    (hf : ∀ st, (f st).addresses = st.addresses ∪ entered) :
    (m.updatePeer now peer f).Holds p text ↔ m.Holds p text ∨ (p = peer ∧ text ∈ entered) := by
  unfold Holds
  rw [lookup_updatePeer]
  by_cases hp : p = peer
  · rw [if_pos hp]
    cases m.peers.lookup p with
    | none => simp [hf, PeerState.fresh, hp]
    | some st => simp [hf, hp]
  · simp [hp]

theorem holds_modifyPeer {f : PeerState → PeerState} (dropped : Finset Text)
    (hf : ∀ st, (f st).addresses = st.addresses \ dropped) :
    (m.modifyPeer peer f).Holds p text ↔ m.Holds p text ∧ ¬ (p = peer ∧ text ∈ dropped) := by
  unfold Holds
  rw [lookup_modifyPeer]
  by_cases hp : p = peer
  · rw [if_pos hp]
    cases m.peers.lookup p with
    | none => simp
    | some st => simp [hf, hp]
  · simp [hp]

@[simp] theorem holds_onConnectedWithAddresses {addresses : List Text} :
    (m.onConnectedWithAddresses now peer addresses).Holds p text ↔
      m.Holds p text ∨ (p = peer ∧ text ∈ addresses) := by
  rw [onConnectedWithAddresses, holds_updatePeer _ fun _ => rfl, List.mem_toFinset]

@[simp] theorem holds_onConnected : (m.onConnected now peer).Holds p text ↔ m.Holds p text := by
  rw [onConnected, holds_onConnectedWithAddresses]
  simp

@[simp] theorem holds_onDisconnected : (m.onDisconnected now peer).Holds p text ↔ m.Holds p text := by
  rw [onDisconnected, holds_modifyPeer ∅ fun _ => by simp]
  simp

@[simp] theorem holds_onActive : (m.onActive now peer).Holds p text ↔ m.Holds p text := by
  rw [onActive, holds_updatePeer ∅ fun _ => by simp]
  simp

@[simp] theorem holds_recordAttempt : (m.recordAttempt now peer).Holds p text ↔ m.Holds p text := by
  rw [recordAttempt, holds_updatePeer ∅ fun _ => by simp]
  simp

@[simp] theorem holds_addAddress :
    (m.addAddress now peer address).Holds p text ↔ m.Holds p text ∨ (p = peer ∧ text = address) := by
  rw [addAddress, holds_updatePeer {address} fun _ => by simp, Finset.mem_singleton]

@[simp] theorem holds_removeAddress :
    (m.removeAddress now peer address).Holds p text ↔ m.Holds p text ∧ ¬ (p = peer ∧ text = address) := by
  rw [removeAddress, holds_modifyPeer {address} fun _ => by simp [Finset.sdiff_singleton_eq_erase],
    Finset.mem_singleton]

/-- Pruning forgets peers, and learns nothing. -/
theorem Holds.of_pruneDead (h : (m.pruneDead now).1.Holds p text) : m.Holds p text := by
  obtain ⟨st, hlook, htext⟩ := h
  rw [lookup_pruneDead, Option.filter_eq_some_iff] at hlook
  exact ⟨st, hlook.1, htext⟩

end ConnectionManager

/-! ### What the peer store holds -/

theorem cleanPeerAddress_eq_some {localIps : LocalIps} {address addr : Multiaddr}
    (h : cleanPeerAddress localIps address = some addr) : addr = normalizeAddress address := by
  unfold cleanPeerAddress cleanAddress at h
  simp only at h
  split at h
  · cases h
  next clean hclean =>
    split at h
    · cases h
    · split at hclean
      · cases hclean
      · split at hclean
        · cases hclean
        · exact (Option.some.inj h).symm.trans (Option.some.inj hclean).symm

variable [MultiaddrLib]

namespace PeerStore

/-- The store has an entry with this key. -/
def Holds (store : PeerStore) (key : Text × Text) : Prop := ∃ e ∈ store.entries, e.key = key

variable {store : PeerStore} {key : Text × Text} {file : Option Text}

/-- Pruning enters nothing. -/
theorem Holds.of_prune {world : PruneWorld} (h : (prune world store).Holds key) : store.Holds key := by
  obtain ⟨e, he, hkey⟩ := h
  have hsorted := List.mem_of_mem_take he
  rw [List.mem_insertionSort] at hsorted
  exact ⟨e, (retainEntries_sublist world [] store.entries).subset hsorted, hkey⟩

omit [MultiaddrLib] in
theorem mem_touch {touched : Text × Text} {now : UInt64} {entries : List PeerStoreEntry} {e : PeerStoreEntry}
    (h : e ∈ touch touched now entries) : e.key = touched ∨ e ∈ entries := by
  induction entries with
  | nil =>
      rw [touch, List.mem_singleton] at h
      exact Or.inl (h ▸ rfl)
  | cons entry rest ih =>
      rw [touch] at h
      split at h
      next hkey =>
        rcases List.mem_cons.mp h with rfl | h
        · exact Or.inl hkey
        · exact Or.inr (List.mem_cons_of_mem _ h)
      next =>
        rcases List.mem_cons.mp h with rfl | h
        · exact Or.inr List.mem_cons_self
        · exact (ih h).imp_right (List.mem_cons_of_mem _)

variable [PeerStoreFormat]

/-- What is recorded is the address without the peer identity at its end. -/
theorem Holds.of_recordAddress {peer : PeerId} {address : Multiaddr} {world : RecordWorld}
    (h : (recordAddress peer address world store file).1.Holds key) :
    key = (peerIdText peer, multiaddrText (normalizeAddress address)) ∨ store.Holds key := by
  unfold recordAddress at h
  split at h
  next => exact Or.inr h
  next addr hclean =>
    obtain rfl := cleanPeerAddress_eq_some hclean
    obtain ⟨e, he, hkey⟩ := Holds.of_prune h
    rcases mem_touch he with htouched | hold
    · exact Or.inl (hkey.symm.trans htouched)
    · exact Or.inr ⟨e, hold, hkey⟩

/-- So is what is removed. -/
theorem holds_removeAddress {peer : PeerId} {address : Multiaddr} {outcome : SaveOutcome} :
    (removeAddress peer address outcome store file).1.Holds key ↔
      store.Holds key ∧ key ≠ (peerIdText peer, multiaddrText (normalizeAddress address)) := by
  unfold Holds removeAddress
  simp only [List.mem_filter, Bool.not_eq_true', decide_eq_false_iff_not]
  constructor
  · intro h
    obtain ⟨e, ⟨he, hne⟩, rfl⟩ := h
    exact ⟨⟨e, he, rfl⟩, hne⟩
  · intro h
    obtain ⟨⟨e, he, rfl⟩, hne⟩ := h
    exact ⟨e, ⟨he, hne⟩, rfl⟩

end PeerStore

/-! ### The events that teach addresses -/

/-- Return true when an address can be learned as a remote peer address. -/
def isPeerAddress (localIps : LocalIps) (address : Multiaddr) : Bool :=
  (cleanPeerAddress localIps address).isSome

/-- libp2p's dial errors, with the addresses they name. -/
inductive DialError
  | localPeerId (address : Multiaddr)
  | wrongPeerId (obtained : PeerId) (address : Multiaddr)
  | transport (errors : List (Multiaddr × Text))
  | noAddresses
  | dialPeerConditionFalse
  | aborted
  | denied

def failedDialAddresses : DialError → List Multiaddr
  | .localPeerId address => [address]
  | .wrongPeerId _ address => [address]
  | .transport errors => errors.map (·.1)
  | .noAddresses => []
  | .dialPeerConditionFalse => []
  | .aborted => []
  | .denied => []

/-- What an address that was heard of finds around it: the interfaces when it is checked, and then
what the peer store finds. -/
structure LearnWorld where
  localIps : LocalIps
  record : RecordWorld

/-- What happens to the addresses of peers, or to the connections the manager keeps them with. -/
inductive AddressEvent
  /-- `ConnectionEstablished`, with this node as the dialer. -/
  | dialled (peer : PeerId) (address : Multiaddr) (world : RecordWorld)
  /-- `identify::Event::Received`. -/
  | identified (peer : PeerId) (listenAddrs : List (Multiaddr × LearnWorld))
  /-- `mdns::Event::Discovered`. -/
  | discovered (list : List (PeerId × Multiaddr × LearnWorld))
  /-- `OutgoingConnectionError` for a known peer, and how the saves of the peer store go. -/
  | dialFailed (peer : PeerId) (error : DialError) (saves : Multiaddr → SaveOutcome)
  | connected (peer : PeerId)
  | disconnected (peer : PeerId)
  | active (peer : PeerId)
  | attempted (peer : PeerId)
  | pruned

/-- The addresses an event gives the connection manager. -/
def AddressEvent.managerLearns : AddressEvent → List (PeerId × Multiaddr)
  | .dialled peer address _ => [(peer, address)]
  | .identified peer listenAddrs =>
    (listenAddrs.filter fun e => isPublicPeerAddress e.2.localIps e.1).map fun e => (peer, e.1)
  | _ => []

/-- Those it gives the peer store. -/
def AddressEvent.storeLearns : AddressEvent → List (PeerId × Multiaddr)
  | .dialled peer address _ => [(peer, address)]
  | .identified peer listenAddrs =>
    (listenAddrs.filter fun e => isPublicPeerAddress e.2.localIps e.1).map fun e => (peer, e.1)
  | .discovered list => (list.filter fun e => isPeerAddress e.2.2.localIps e.2.1).map fun e => (e.1, e.2.1)
  | _ => []

/-! ### Which addresses are the same -/

/-- Equal up to a `/p2p/<peer-id>` at the end. -/
def SameUpToPeer (a b : Multiaddr) : Prop :=
  ∃ base, (a = base ∨ ∃ q, a = base ++ [.p2p q]) ∧ (b = base ∨ ∃ q, b = base ++ [.p2p q])

omit [MultiaddrLib] in
theorem eq_normalizeAddress (a : Multiaddr) :
    a = normalizeAddress a ∨ ∃ q, a = normalizeAddress a ++ [.p2p q] := by
  unfold normalizeAddress
  split
  next q hlast =>
    refine Or.inr ⟨q, ?_⟩
    obtain ⟨init, rfl⟩ := List.getLast?_eq_some_iff.mp hlast
    simp
  next => exact Or.inl rfl

/-- The text is an address that is the same. -/
def SpellsAddress (text : Text) (address : Multiaddr) : Prop :=
  ∃ a, parseMultiaddr text = some a ∧ SameUpToPeer a address

/-! ### The two places -/

/-- The two places a daemon keeps addresses in. The peer store comes with its file, and may be
switched off. -/
structure AddressBook where
  peerStore : Option (PeerStore × Option Text)
  manager : ConnectionManager

namespace AddressBook

variable [PeerStoreFormat]

def start (peerStore : Option (PruneWorld × Nat × Option Text)) (config : ConnectionConfig) : AddressBook where
  peerStore := peerStore.map fun (world, maxEntries, file) => (PeerStore.load world maxEntries file, file)
  manager := .new config

def recordPeerAddress (book : AddressBook) (peer : PeerId) (address : Multiaddr) (world : RecordWorld) :
    AddressBook :=
  { book with peerStore := book.peerStore.map fun (store, file) => store.recordAddress peer address world file }

/-- One address of an identify message. -/
def learnIdentified (now : Instant) (peer : PeerId) (book : AddressBook) : Multiaddr × LearnWorld → AddressBook
  | (address, world) =>
    if isPublicPeerAddress world.localIps address then
      { book with manager := book.manager.addAddress now peer (multiaddrText address) }.recordPeerAddress peer
        address world.record
    else book

/-- One address found in the local network. The manager is not told. -/
def learnDiscovered (book : AddressBook) : PeerId × Multiaddr × LearnWorld → AddressBook
  | (peer, address, world) =>
    if isPeerAddress world.localIps address then book.recordPeerAddress peer address world.record else book

/-- One address that could not be dialled. -/
def removeFailed (now : Instant) (peer : PeerId) (saves : Multiaddr → SaveOutcome) (book : AddressBook)
    (address : Multiaddr) : AddressBook where
  peerStore := book.peerStore.map fun (store, file) => store.removeAddress peer address (saves address) file
  manager := book.manager.removeAddress now peer (multiaddrText address)

def removeFailedDialAddresses (now : Instant) (peer : PeerId) (error : DialError)
    (saves : Multiaddr → SaveOutcome) (book : AddressBook) : AddressBook :=
  (failedDialAddresses error).foldl (removeFailed now peer saves) book

/-- One event, at the time the manager reads from the clock. -/
def handle (book : AddressBook) (now : Instant) : AddressEvent → AddressBook
  | .dialled peer address world =>
    { book with manager := book.manager.onConnectedWithAddresses now peer [multiaddrText address] }.recordPeerAddress
      peer address world
  | .identified peer listenAddrs => listenAddrs.foldl (learnIdentified now peer) book
  | .discovered list => list.foldl learnDiscovered book
  | .dialFailed peer error saves => removeFailedDialAddresses now peer error saves book
  | .connected peer => { book with manager := book.manager.onConnected now peer }
  | .disconnected peer => { book with manager := book.manager.onDisconnected now peer }
  | .active peer => { book with manager := book.manager.onActive now peer }
  | .attempted peer => { book with manager := book.manager.recordAttempt now peer }
  | .pruned => { book with manager := (book.manager.pruneDead now).1 }

def after (book : AddressBook) (history : List (Instant × AddressEvent)) : AddressBook :=
  history.foldl (fun book e => book.handle e.1 e.2) book

/-! ### What it is to disappear -/

/-- **The address has disappeared**: neither the entries of the peer store nor the manager's
snapshot of the peer have it, in any spelling. -/
structure Forgotten (book : AddressBook) (now : Instant) (peer : PeerId) (address : Multiaddr) : Prop where
  store : ∀ store file, book.peerStore = some (store, file) → ∀ entry ∈ store.entries,
    entry.peerId = peerIdText peer → ¬ SpellsAddress entry.address address
  snapshot : ∀ s ∈ book.manager.peerSnapshots now, s.peer = peer → ∀ text ∈ s.addresses, ¬ SpellsAddress text address

/-- **The spellings that a removal finds**: what is kept of a failed address is the very text it
is removed by, which in the peer store is that of an address without the peer identity. -/
structure SpelledAsFailed (book : AddressBook) (peer : PeerId) (failed : List Multiaddr) : Prop where
  store : ∀ store file, book.peerStore = some (store, file) → ∀ entry ∈ store.entries,
    entry.peerId = peerIdText peer → ∀ address ∈ failed, SpellsAddress entry.address address →
      entry.address ∈ failed.map fun a => multiaddrText (normalizeAddress a)
  manager : ∀ st, book.manager.peers.lookup peer = some st → ∀ text ∈ st.addresses, ∀ address ∈ failed,
    SpellsAddress text address → text ∈ failed.map multiaddrText

/-! ### One removal -/

/-- The peer store, if there is one, has an entry with this key. -/
def StoreHolds (book : AddressBook) (key : Text × Text) : Prop :=
  ∃ store file, book.peerStore = some (store, file) ∧ store.Holds key

variable {book : AddressBook} {now : Instant} {peer p : PeerId} {key : Text × Text} {text : Text}

omit [MultiaddrLib] [PeerStoreFormat] in
theorem storeHolds_iff {s : PeerStore × Option Text} (hsome : book.peerStore = some s) :
    book.StoreHolds key ↔ s.1.Holds key := by
  unfold StoreHolds
  rw [hsome]
  constructor
  · intro h
    obtain ⟨store, file, heq, hholds⟩ := h
    obtain rfl := Option.some.inj heq
    exact hholds
  · intro hholds
    exact ⟨s.1, s.2, rfl, hholds⟩

omit [MultiaddrLib] [PeerStoreFormat] in
theorem not_storeHolds (hnone : book.peerStore = none) : ¬ book.StoreHolds key := by
  intro h
  obtain ⟨store, file, heq, -⟩ := h
  rw [hnone] at heq
  cases heq

omit [PeerStoreFormat] in
theorem forgotten_iff {address : Multiaddr} :
    book.Forgotten now peer address ↔
      (∀ text, book.StoreHolds (peerIdText peer, text) → ¬ SpellsAddress text address) ∧
        ∀ text, book.manager.Holds peer text → ¬ SpellsAddress text address := by
  constructor
  · intro h
    obtain ⟨hstore, hsnapshot⟩ := h
    constructor
    · intro text h
      obtain ⟨store, file, hsome, e, he, hkey⟩ := h
      obtain ⟨hpeer, rfl⟩ := Prod.mk.inj hkey
      exact hstore store file hsome e he hpeer
    · intro text hholds
      obtain ⟨s, hs, hpeer, htext⟩ := ConnectionManager.exists_snapshot_iff.mpr hholds
      exact hsnapshot s hs hpeer text htext
  · intro h
    obtain ⟨hstore, hmanager⟩ := h
    constructor
    · intro store file hsome e he hpeer
      exact hstore e.address ⟨store, file, hsome, e, he, Prod.ext hpeer rfl⟩
    · intro s hs hpeer text htext
      exact hmanager text (ConnectionManager.exists_snapshot_iff.mp ⟨s, hs, hpeer, htext⟩)

omit [PeerStoreFormat] in
theorem spelledAsFailed_iff {failed : List Multiaddr} :
    book.SpelledAsFailed peer failed ↔
      (∀ text, book.StoreHolds (peerIdText peer, text) → ∀ address ∈ failed, SpellsAddress text address →
        text ∈ failed.map fun a => multiaddrText (normalizeAddress a)) ∧
      ∀ text, book.manager.Holds peer text → ∀ address ∈ failed, SpellsAddress text address →
        text ∈ failed.map multiaddrText := by
  constructor
  · intro h
    obtain ⟨hstore, hmanager⟩ := h
    constructor
    · intro text h
      obtain ⟨store, file, hsome, e, he, hkey⟩ := h
      obtain ⟨hpeer, rfl⟩ := Prod.mk.inj hkey
      exact hstore store file hsome e he hpeer
    · intro text h
      obtain ⟨st, hlook, htext⟩ := h
      exact hmanager st hlook text htext
  · intro h
    obtain ⟨hstore, hmanager⟩ := h
    constructor
    · intro store file hsome e he hpeer
      exact hstore e.address ⟨store, file, hsome, e, he, Prod.ext hpeer rfl⟩
    · intro st hlook text htext
      exact hmanager text ⟨st, hlook, htext⟩

/-- One failed address is dropped from both, each in its own spelling. -/
theorem storeHolds_removeFailed {saves : Multiaddr → SaveOutcome} {address : Multiaddr} :
    (removeFailed now peer saves book address).StoreHolds key ↔
      book.StoreHolds key ∧ key ≠ (peerIdText peer, multiaddrText (normalizeAddress address)) := by
  cases hstore : book.peerStore with
  | none =>
      have hnone : (removeFailed now peer saves book address).peerStore = none := by simp [removeFailed, hstore]
      exact iff_of_false (not_storeHolds hnone) fun h => not_storeHolds hstore h.1
  | some s =>
      have hsome : (removeFailed now peer saves book address).peerStore =
          some (s.1.removeAddress peer address (saves address) s.2) := by simp [removeFailed, hstore]
      rw [storeHolds_iff hsome, storeHolds_iff hstore, PeerStore.holds_removeAddress]

/-- **What is left after a dial error** is what there was, less the texts it is removed by. -/
theorem holds_removeFailed {saves : Multiaddr → SaveOutcome} (failed : List Multiaddr) (text : Text) :
    ((failed.foldl (removeFailed now peer saves) book).StoreHolds (peerIdText peer, text) ↔
      book.StoreHolds (peerIdText peer, text) ∧ text ∉ failed.map fun a => multiaddrText (normalizeAddress a)) ∧
    ((failed.foldl (removeFailed now peer saves) book).manager.Holds peer text ↔
      book.manager.Holds peer text ∧ text ∉ failed.map multiaddrText) := by
  constructor
  · refine (foldl_iff_and (f := removeFailed now peer saves)
      (P := fun b : AddressBook => b.StoreHolds (peerIdText peer, text))
      (fun _ _ => storeHolds_removeFailed) failed book).trans ?_
    simp [eq_comm]
  · refine (foldl_iff_and (P := fun b : AddressBook => b.manager.Holds peer text)
      (Q := fun a => text ≠ multiaddrText a) (fun _ _ => by simp [removeFailed]) failed book).trans ?_
    simp [eq_comm]

/-- **Step lemma.** -/
theorem forgotten_removeFailed_iff {later : Instant} {saves : Multiaddr → SaveOutcome} (failed : List Multiaddr) :
    (∀ address ∈ failed, (failed.foldl (removeFailed now peer saves) book).Forgotten later peer address) ↔
      book.SpelledAsFailed peer failed := by
  have hstore := fun text => (@holds_removeFailed _ _ book now peer saves failed text).1
  have hmanager := fun text => (@holds_removeFailed _ _ book now peer saves failed text).2
  simp only [forgotten_iff, spelledAsFailed_iff, hstore, hmanager]
  constructor
  · intro hforgotten
    constructor
    · intro text hholds address haddress hspells
      by_contra hmem
      exact (hforgotten address haddress).1 text ⟨hholds, hmem⟩ hspells
    · intro text hholds address haddress hspells
      by_contra hmem
      exact (hforgotten address haddress).2 text ⟨hholds, hmem⟩ hspells
  · rintro ⟨hs, hm⟩ address haddress
    constructor
    · intro text hholds hspells
      exact hholds.2 (hs text hholds.1 address haddress hspells)
    · intro text hholds hspells
      exact hholds.2 (hm text hholds.1 address haddress hspells)

/-! ### Every history -/

omit [MultiaddrLib] [PeerStoreFormat] in
theorem storeHolds_of_eq {book' : AddressBook} (h : book'.peerStore = book.peerStore) :
    book'.StoreHolds key ↔ book.StoreHolds key := by
  unfold StoreHolds
  rw [h]

theorem storeHolds_of_recordPeerAddress {address : Multiaddr} {world : RecordWorld}
    (h : (book.recordPeerAddress peer address world).StoreHolds key) :
    book.StoreHolds key ∨ key = (peerIdText peer, multiaddrText (normalizeAddress address)) := by
  cases hstore : book.peerStore with
  | none =>
      have hnone : (book.recordPeerAddress peer address world).peerStore = none := by
        simp [recordPeerAddress, hstore]
      exact absurd h (not_storeHolds hnone)
  | some s =>
      have hsome : (book.recordPeerAddress peer address world).peerStore =
          some (s.1.recordAddress peer address world s.2) := by simp [recordPeerAddress, hstore]
      rw [storeHolds_iff hsome] at h
      rw [storeHolds_iff hstore]
      exact (PeerStore.Holds.of_recordAddress h).symm

/-- What the manager holds after an event it held before, or was told. -/
theorem managerHolds_of_handle {e : AddressEvent} (h : (book.handle now e).manager.Holds p text) :
    book.manager.Holds p text ∨ ∃ a, (p, a) ∈ e.managerLearns ∧ text = multiaddrText a := by
  cases e with
  | dialled peer address world =>
      rcases ConnectionManager.holds_onConnectedWithAddresses.mp h with h | ⟨rfl, htext⟩
      · exact Or.inl h
      · exact Or.inr ⟨address, by simp [AddressEvent.managerLearns], List.mem_singleton.mp htext⟩
  | identified peer listenAddrs =>
      have hstep : ∀ (b : AddressBook) (e : Multiaddr × LearnWorld),
          (learnIdentified now peer b e).manager.Holds p text → b.manager.Holds p text ∨
            isPublicPeerAddress e.2.localIps e.1 = true ∧ p = peer ∧ text = multiaddrText e.1 := by
        intro b e h
        rw [learnIdentified] at h
        split at h
        next hpublic => exact (ConnectionManager.holds_addAddress.mp h).imp_right fun hnew => ⟨hpublic, hnew⟩
        next => exact Or.inl h
      refine (of_foldl (fun b : AddressBook => b.manager.Holds p text) hstep h).imp_right ?_
      intro h'
      obtain ⟨e, he, hpublic, rfl, rfl⟩ := h'
      exact ⟨e.1, List.mem_map.mpr ⟨e, List.mem_filter.mpr ⟨he, hpublic⟩, rfl⟩, rfl⟩
  | discovered list =>
      refine Or.inl (of_foldl_of_imp (fun b : AddressBook => b.manager.Holds p text) (fun b e h => ?_) h)
      rw [learnDiscovered] at h
      split at h <;> exact h
  | dialFailed peer error saves =>
      exact Or.inl (of_foldl_of_imp (fun b : AddressBook => b.manager.Holds p text)
        (fun _ _ h => (ConnectionManager.holds_removeAddress.mp h).1) h)
  | connected peer => exact Or.inl (ConnectionManager.holds_onConnected.mp h)
  | disconnected peer => exact Or.inl (ConnectionManager.holds_onDisconnected.mp h)
  | active peer => exact Or.inl (ConnectionManager.holds_onActive.mp h)
  | attempted peer => exact Or.inl (ConnectionManager.holds_recordAttempt.mp h)
  | pruned => exact Or.inl h.of_pruneDead

/-- So does the peer store, in its own spelling. -/
theorem storeHolds_of_handle {e : AddressEvent} (h : (book.handle now e).StoreHolds key) :
    book.StoreHolds key ∨
      ∃ q a, (q, a) ∈ e.storeLearns ∧ key = (peerIdText q, multiaddrText (normalizeAddress a)) := by
  cases e with
  | dialled peer address world =>
      exact (storeHolds_of_recordPeerAddress h).imp_right fun hkey =>
        ⟨peer, address, by simp [AddressEvent.storeLearns], hkey⟩
  | identified peer listenAddrs =>
      have hstep : ∀ (b : AddressBook) (e : Multiaddr × LearnWorld),
          (learnIdentified now peer b e).StoreHolds key → b.StoreHolds key ∨
            isPublicPeerAddress e.2.localIps e.1 = true ∧
              key = (peerIdText peer, multiaddrText (normalizeAddress e.1)) := by
        intro b e h
        rw [learnIdentified] at h
        split at h
        next hpublic => exact (storeHolds_of_recordPeerAddress h).imp_right fun hkey => ⟨hpublic, hkey⟩
        next => exact Or.inl h
      refine (of_foldl (fun b : AddressBook => b.StoreHolds key) hstep h).imp_right ?_
      intro h'
      obtain ⟨e, he, hpublic, hkey⟩ := h'
      exact ⟨peer, e.1, List.mem_map.mpr ⟨e, List.mem_filter.mpr ⟨he, hpublic⟩, rfl⟩, hkey⟩
  | discovered list =>
      have hstep : ∀ (b : AddressBook) (e : PeerId × Multiaddr × LearnWorld),
          (learnDiscovered b e).StoreHolds key → b.StoreHolds key ∨
            isPeerAddress e.2.2.localIps e.2.1 = true ∧
              key = (peerIdText e.1, multiaddrText (normalizeAddress e.2.1)) := by
        intro b e h
        rw [learnDiscovered] at h
        split at h
        next hpeer => exact (storeHolds_of_recordPeerAddress h).imp_right fun hkey => ⟨hpeer, hkey⟩
        next => exact Or.inl h
      refine (of_foldl (fun b : AddressBook => b.StoreHolds key) hstep h).imp_right ?_
      intro h'
      obtain ⟨e, he, hpeer, hkey⟩ := h'
      exact ⟨e.1, e.2.1, List.mem_map.mpr ⟨e, List.mem_filter.mpr ⟨he, hpeer⟩, rfl⟩, hkey⟩
  | dialFailed peer error saves =>
      exact Or.inl (of_foldl_of_imp (fun b : AddressBook => b.StoreHolds key)
        (fun _ _ h => (storeHolds_removeFailed.mp h).1) h)
  | connected peer => exact Or.inl ((storeHolds_of_eq rfl).mp h)
  | disconnected peer => exact Or.inl ((storeHolds_of_eq rfl).mp h)
  | active peer => exact Or.inl ((storeHolds_of_eq rfl).mp h)
  | attempted peer => exact Or.inl ((storeHolds_of_eq rfl).mp h)
  | pruned => exact Or.inl ((storeHolds_of_eq rfl).mp h)

/-- **Run lemma.** What is held after a history was held at its beginning, or learned. -/
theorem managerHolds_of_after {history : List (Instant × AddressEvent)}
    (h : (book.after history).manager.Holds p text) : book.manager.Holds p text ∨
      ∃ e ∈ history, ∃ a, (p, a) ∈ e.2.managerLearns ∧ text = multiaddrText a :=
  of_foldl (fun b : AddressBook => b.manager.Holds p text)
    (f := fun (b : AddressBook) (e : Instant × AddressEvent) => b.handle e.1 e.2)
    (fun _ _ => managerHolds_of_handle) h

theorem storeHolds_of_after {history : List (Instant × AddressEvent)} (h : (book.after history).StoreHolds key) :
    book.StoreHolds key ∨ ∃ e ∈ history, ∃ q a, (q, a) ∈ e.2.storeLearns ∧
      key = (peerIdText q, multiaddrText (normalizeAddress a)) :=
  of_foldl (fun b : AddressBook => b.StoreHolds key)
    (f := fun (b : AddressBook) (e : Instant × AddressEvent) => b.handle e.1 e.2)
    (fun _ _ => storeHolds_of_handle) h

/-- What a peer store that was just loaded holds is in its file. -/
theorem mem_file_of_start {peerStore : Option (PruneWorld × Nat × Option Text)} {config : ConnectionConfig}
    (h : (start peerStore config).StoreHolds key) :
    ∃ world maxEntries file, peerStore = some (world, maxEntries, file) ∧
      ∃ e ∈ PeerStore.fileEntries file, e.key = key := by
  obtain ⟨store, file, hsome, hholds⟩ := h
  obtain ⟨⟨world, maxEntries, file'⟩, rfl, heq⟩ := Option.map_eq_some_iff.mp hsome
  obtain ⟨rfl, rfl⟩ := Prod.mk.inj heq
  exact ⟨world, maxEntries, file', rfl, PeerStore.Holds.of_prune hholds⟩

/-- Addresses that were spelled as they are removed when they were learned, and when they were
written to the file, disappear. -/
theorem forgotten_of_learned {peerStore : Option (PruneWorld × Nat × Option Text)} {config : ConnectionConfig}
    {history : List (Instant × AddressEvent)} {later : Instant} {error : DialError}
    {saves : Multiaddr → SaveOutcome}
    (hfile : ∀ world maxEntries file, peerStore = some (world, maxEntries, file) →
      ∀ e ∈ PeerStore.fileEntries file, e.peerId = peerIdText peer → ∀ address ∈ failedDialAddresses error,
        SpellsAddress e.address address →
          e.address ∈ (failedDialAddresses error).map fun a => multiaddrText (normalizeAddress a))
    (hstore : ∀ e ∈ history, ∀ q a, (q, a) ∈ e.2.storeLearns → ∀ address ∈ failedDialAddresses error,
      SpellsAddress (multiaddrText (normalizeAddress a)) address →
        multiaddrText (normalizeAddress a) ∈
          (failedDialAddresses error).map fun a => multiaddrText (normalizeAddress a))
    (hmanager : ∀ e ∈ history, ∀ a, (peer, a) ∈ e.2.managerLearns → ∀ address ∈ failedDialAddresses error,
      SpellsAddress (multiaddrText a) address → multiaddrText a ∈ (failedDialAddresses error).map multiaddrText) :
    ∀ address ∈ failedDialAddresses error,
      (((start peerStore config).after history).handle now (.dialFailed peer error saves)).Forgotten later peer
        address := by
  refine (forgotten_removeFailed_iff (failedDialAddresses error)).mpr (spelledAsFailed_iff.mpr ⟨?_, ?_⟩)
  · intro text hholds address haddress hspells
    rcases storeHolds_of_after hholds with hstart | ⟨e, he, q, a, hlearned, hkey⟩
    · obtain ⟨world, maxEntries, file, hsome, entry, hentry, hkey⟩ := mem_file_of_start hstart
      obtain ⟨hpeer, rfl⟩ := Prod.mk.inj hkey
      exact hfile world maxEntries file hsome entry hentry hpeer address haddress hspells
    · obtain ⟨-, rfl⟩ := Prod.mk.inj hkey
      exact hstore e he q a hlearned address haddress hspells
  · intro text hholds address haddress hspells
    rcases managerHolds_of_after hholds with ⟨st, hlook, -⟩ | ⟨e, he, a, hlearned, rfl⟩
    · simp [start, ConnectionManager.new] at hlook
    · exact hmanager e he a hlearned address haddress hspells

/-- **When failed addresses disappear everywhere.** After any history and any dial error, no address
of the error is left for its peer, in any spelling, exactly if both places had them in the spelling
that is removed. -/
theorem failed_addresses_disappear_iff (peerStore : Option (PruneWorld × Nat × Option Text))
    (config : ConnectionConfig) (history : List (Instant × AddressEvent)) (now later : Instant) (peer : PeerId)
    (error : DialError) (saves : Multiaddr → SaveOutcome) :
    (∀ address ∈ failedDialAddresses error,
      (((start peerStore config).after history).handle now (.dialFailed peer error saves)).Forgotten later peer
        address) ↔
      ((start peerStore config).after history).SpelledAsFailed peer (failedDialAddresses error) :=
  forgotten_removeFailed_iff (failedDialAddresses error)

/-! ### An address learned without the peer identity -/

def publicAddress : Multiaddr := [.ip4 ⟨(198, 51, 100, 10)⟩, .other "tcp/443".toList]

/-- The libraries on one peer and one address, with and without the peer. -/
@[reducible] def dialMultiaddrLib : MultiaddrLib where
  parseMultiaddr t :=
    if t = "/ip4/198.51.100.10/tcp/443".toList then some publicAddress
    else if t = "/ip4/198.51.100.10/tcp/443/p2p/11".toList then some (publicAddress ++ [.p2p emptyPeer])
    else none
  multiaddrText address :=
    if address = publicAddress then "/ip4/198.51.100.10/tcp/443".toList
    else if address = publicAddress ++ [.p2p emptyPeer] then "/ip4/198.51.100.10/tcp/443/p2p/11".toList
    else []
  parsePeerId t := if t = "11".toList then some emptyPeer else none
  peerIdText peer := if peer = emptyPeer then "11".toList else []

/-- The peer lists its address in an identify message, as peers do. -/
def identifiedOnce : List (Instant × AddressEvent) :=
  [(1000, .identified emptyPeer [(publicAddress, ⟨none, none, 1000, ⟨1000, none⟩, .written⟩)])]

/-- libp2p dials it with the peer identity, and reports it with that. -/
def transportError : DialError :=
  .transport [(publicAddress ++ [.p2p emptyPeer], "connection refused".toList)]

omit [MultiaddrLib] [PeerStoreFormat] in
/-- The peer store forgets the address, the manager does not. -/
theorem failed_address_survives :
    let _ := dialMultiaddrLib
    let _ := samplePeersFormat
    let book := (start (some (⟨1000, none⟩, 8, none)) ⟨60000⟩).after identifiedOnce
    let failed := book.handle 2000 (.dialFailed emptyPeer transportError fun _ => .written)
    (∀ text, ¬ failed.StoreHolds (peerIdText emptyPeer, text)) ∧
      failed.manager.Holds emptyPeer "/ip4/198.51.100.10/tcp/443".toList ∧
      ¬ failed.Forgotten 3000 emptyPeer (publicAddress ++ [.p2p emptyPeer]) := by
  intro _ _ book failed
  have hmanager : failed.manager.Holds emptyPeer "/ip4/198.51.100.10/tcp/443".toList :=
    ConnectionManager.holds_removeAddress.mpr
      ⟨ConnectionManager.holds_addAddress.mpr (Or.inr ⟨rfl, rfl⟩), by decide⟩
  refine ⟨fun text hholds => ?_, hmanager, fun hforgotten => ?_⟩
  · have hremoved : (removeFailed 2000 emptyPeer (fun _ => .written) book
        (publicAddress ++ [.p2p emptyPeer])).StoreHolds (peerIdText emptyPeer, text) := hholds
    obtain ⟨hbook, hne⟩ := storeHolds_removeFailed.mp hremoved
    rcases storeHolds_of_after hbook with hstart | ⟨e, he, q, a, hlearned, hkey⟩
    · obtain ⟨world, maxEntries, file, hsome, entry, hentry, -⟩ := mem_file_of_start hstart
      cases hsome
      cases hentry
    · -- the address is recorded without the peer identity, and removed so
      obtain rfl := List.mem_singleton.mp he
      have hlisted : (q, a) ∈ [(emptyPeer, publicAddress)] := hlearned
      obtain ⟨rfl, rfl⟩ := Prod.mk.inj (List.mem_singleton.mp hlisted)
      exact hne hkey
  · have hspells : SpellsAddress "/ip4/198.51.100.10/tcp/443".toList (publicAddress ++ [.p2p emptyPeer]) :=
      ⟨publicAddress, rfl, publicAddress, Or.inl rfl, Or.inr ⟨emptyPeer, rfl⟩⟩
    exact (forgotten_iff.mp hforgotten).2 _ hmanager hspells

end AddressBook

end GuixP2p
