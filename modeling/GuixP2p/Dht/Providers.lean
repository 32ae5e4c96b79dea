import GuixP2p.Dht.LookupKey
import GuixP2p.Lib.Folds
import GuixP2p.PeerStore.Persistence

/-!
# GuixP2p.Dht.Providers

**Who is found for a NAR hash.** Peers announce the NARs they have (`Announcement`), the Kademlia crate
keeps their provider records and answers queries (`KademliaLib`), and the swarm task passes the answers
on. `KeysAgree` says that nothing gets lost on the way: what is announced for a NAR is found by a
lookup and by a probe for its hash. `keysAgree_iff` says for which hashes that is so.
-/

namespace GuixP2p

open GuixP2p.Lib ProviderProbe

/-! ### The network -/

/-- A peer announces a NAR; `started` is what its `start_providing` returns. -/
structure Announcement where
  peer : PeerId
  narHash : Text
  reason : Text
  started : Except Text Unit

def DhtTask.new : DhtTask := { cache := ∅, activeProviderQueries := ∅ }

/-- The records that the announcements leave in the DHT. -/
def providerRecords (announcements : List Announcement) : List (RecordKey × PeerId) :=
  announcements.flatMap fun a =>
    (DhtTask.new.announceNar a.narHash a.reason a.started).announced.map fun key => (key, a.peer)

/-- The events of a query for the providers of a key, in a network that has these records. -/
class KademliaLib where
  query : List (RecordKey × PeerId) → QueryId → RecordKey → List KadEvent

/-- What the crate promises: the events of a query name the query and the key, and where the network
answers they have the providers of the key. -/
class LawfulKademliaLib [KademliaLib] : Prop where
  query_cases : ∀ {records id key}, ∀ e ∈ KademliaLib.query records id key,
    (∃ providers last, e = .foundProviders id key providers last) ∨
      (∃ last, e = .finishedWithNoAdditionalRecord id last) ∨ ∃ last, e = .getProvidersTimeout id key last
  mem_query : ∀ {records id key peer},
    (∃ providers last, .foundProviders id key providers last ∈ KademliaLib.query records id key ∧
      peer ∈ providers) ↔ (key, peer) ∈ records

/-- The peer has announced the NAR with this digest. -/
def Provides (announcements : List Announcement) (d : Digest) (peer : PeerId) : Prop :=
  ∃ a ∈ announcements, a.peer = peer ∧ a.started = .ok () ∧ Hex.decode a.narHash = some d.toList

theorem announced_announceNar (t : DhtTask) (hash reason : Text) (started : Except Text Unit) :
    (t.announceNar hash reason started).announced =
      match started with
      | .ok () => (Hex.decode hash).toList
      | .error _ => [] := by
  unfold DhtTask.announceNar DhtTask.announceKey
  cases Hex.decode hash <;> rcases started with _ | ⟨⟩ <;> rfl

theorem mem_providerRecords {announcements : List Announcement} {d : Digest} {peer : PeerId} :
    (d.toList, peer) ∈ providerRecords announcements ↔ Provides announcements d peer := by
  have hone : ∀ a : Announcement,
      (d.toList, peer) ∈ (DhtTask.new.announceNar a.narHash a.reason a.started).announced.map (fun key => (key, a.peer)) ↔
        a.peer = peer ∧ a.started = .ok () ∧ Hex.decode a.narHash = some d.toList := by
    intro a
    rw [announced_announceNar, List.mem_map]
    rcases a.started with _ | ⟨⟩ <;> simp [and_comm]
  unfold providerRecords Provides
  rw [List.mem_flatMap]
  exact exists_congr fun a => and_congr_right fun _ => hone a

/-- A provider announces the store key of its NAR, the digest in hexadecimal. -/
theorem announced_storeKey (t : DhtTask) (reason : Text) (d : Digest) :
    (t.announceNar (Hex.encode d.toList) reason (.ok ())).announced = [d.toList] := by
  have hdecode : Hex.decode (Hex.encode d.toList) = some d.toList :=
    Hex.decode_eq_some_iff.mpr (spellsHex_encode d)
  rw [announced_announceNar, hdecode]
  rfl

/-! ### Notifications -/

/-- What an event tells the other tasks. -/
def KadEvent.notifications : KadEvent → List SwarmNotification
  | .foundProviders _ key providers _ => [.providersFound (recordKeyHex key) providers]
  | .getProvidersTimeout _ key _ => [.providersFound (recordKeyHex key) []]
  | _ => []

namespace DhtTask

/-- **Step lemma.** What is told depends on the event alone. -/
theorem notifications_handleKadEvent (t : DhtTask) (e : KadEvent) :
    (t.handleKadEvent e).notifications = e.notifications := by
  cases e with
  | foundProviders id key providers last => rfl
  | finishedWithNoAdditionalRecord id last =>
      simp only [handleKadEvent]
      split <;> rfl
  | getProvidersTimeout id key last => rfl
  | provided key result => rcases result with _ | ⟨⟩ <;> rfl
  | other => rfl

/-- Handle some events, and collect what is told. -/
def handleKadEvents (t : DhtTask) : List KadEvent → DhtTask × List SwarmNotification
  | [] => (t, [])
  | e :: events =>
    let step := t.handleKadEvent e
    let rest := step.task.handleKadEvents events
    (rest.1, step.notifications ++ rest.2)

/-- **Run lemma.** -/
theorem notifications_handleKadEvents (t : DhtTask) (events : List KadEvent) :
    (t.handleKadEvents events).2 = events.flatMap KadEvent.notifications := by
  induction events generalizing t with
  | nil => rfl
  | cons e events ih => rw [handleKadEvents, ih, notifications_handleKadEvent, List.flatMap_cons]

/-- Look a hash up and handle the answers. -/
def lookup [KademliaLib] (t : DhtTask) (id : QueryId) (announcements : List Announcement) (hash : Text) :
    Except Panic (List SwarmNotification) :=
  match t.getProviders id hash with
  | .error p => .error p
  | .ok started =>
    .ok (started.task.handleKadEvents
      (started.lookups.flatMap fun key => KademliaLib.query (providerRecords announcements) id key)).2

end DhtTask

/-! ### Lookups -/

theorem mem_foldl_addProvider {peers providers : List PeerId} {peer : PeerId} :
    peer ∈ peers.foldl DhtTask.addProvider providers ↔ peer ∈ providers ∨ peer ∈ peers := by
  have hstep : ∀ (entry : List PeerId) (q : PeerId), peer ∈ DhtTask.addProvider entry q ↔ peer ∈ entry ∨ q = peer := by
    intro entry q
    unfold DhtTask.addProvider
    split
    next hmem => exact ⟨Or.inl, fun h => h.elim id fun heq => heq ▸ hmem⟩
    next => rw [List.mem_append, List.mem_singleton, eq_comm (a := peer)]
  rw [foldl_iff_or (P := fun entry : List PeerId => peer ∈ entry) hstep]
  simp

theorem mem_collectProviders {key : Text} {notes : List SwarmNotification} {peer : PeerId} :
    peer ∈ collectProviders key notes ↔ ∃ peers, .providersFound key peers ∈ notes ∧ peer ∈ peers := by
  unfold collectProviders
  rw [foldl_iff_or (P := fun entry : List PeerId => peer ∈ entry)
    (Q := fun note => ∃ peers, note = .providersFound key peers ∧ peer ∈ peers)]
  · constructor
    · intro h'
      rcases h' with h | ⟨note, hnote, peers, rfl, hpeer⟩
      · cases h
      · exact ⟨peers, hnote, hpeer⟩
    · intro h'
      obtain ⟨peers, hnote, hpeer⟩ := h'
      exact Or.inr ⟨_, hnote, peers, rfl, hpeer⟩
  · intro entry note
    cases note with
    | providersFound hash peers =>
        simp only [SwarmNotification.providersFound.injEq, and_assoc]
        split
        next hhash =>
          subst hhash
          simp [mem_foldl_addProvider]
        next hhash => simp [hhash]
    | blockResponse q response => simp
    | blockRequestFailed q => simp

section

variable [KademliaLib] [LawfulKademliaLib]

/-- **Spec of a lookup.** It tells of one key, and of the providers of that key. -/
theorem lookup_eq {hash : Text} {key : Digest} (hkey : extractHashBytes hash = .ok key) (t : DhtTask) (id : QueryId)
    (announcements : List Announcement) :
    ∃ notes, t.lookup id announcements hash = .ok notes ∧
      (∀ note ∈ notes, ∃ peers, note = .providersFound (Hex.encode key.toList) peers) ∧
      ∀ peer, peer ∈ collectProviders (Hex.encode key.toList) notes ↔ Provides announcements key peer := by
  let query := KademliaLib.query (providerRecords announcements) id key.toList
  have hlookup : t.lookup id announcements hash = .ok (query.flatMap KadEvent.notifications) := by
    simp only [DhtTask.lookup, DhtTask.getProviders, hkey, DhtTask.notifications_handleKadEvents]
    rw [List.flatMap_singleton]
  have hcases : ∀ e ∈ query, ∀ note ∈ e.notifications, ∃ peers, note = .providersFound (Hex.encode key.toList) peers := by
    intro e he note hnote
    rcases LawfulKademliaLib.query_cases e he with ⟨peers, last, rfl⟩ | ⟨last, rfl⟩ | ⟨last, rfl⟩
    · exact ⟨peers, List.mem_singleton.mp hnote⟩
    · cases hnote
    · exact ⟨[], List.mem_singleton.mp hnote⟩
  refine ⟨_, hlookup, fun note hnote => ?_, fun peer => ?_⟩
  · obtain ⟨e, he, hnote⟩ := List.mem_flatMap.mp hnote
    exact hcases e he note hnote
  · rw [mem_collectProviders, ← mem_providerRecords, ← @LawfulKademliaLib.mem_query _ _ _ id]
    constructor
    · intro h
      obtain ⟨peers, hnote, hpeer⟩ := h
      obtain ⟨e, he, hnote⟩ := List.mem_flatMap.mp hnote
      rcases LawfulKademliaLib.query_cases e he with ⟨peers', last, rfl⟩ | ⟨last, rfl⟩ | ⟨last, rfl⟩
      · obtain ⟨-, rfl⟩ := SwarmNotification.providersFound.inj (List.mem_singleton.mp hnote)
        exact ⟨peers, last, he, hpeer⟩
      · cases hnote
      · obtain ⟨-, rfl⟩ := SwarmNotification.providersFound.inj (List.mem_singleton.mp hnote)
        cases hpeer
    · intro h
      obtain ⟨peers, last, he, hpeer⟩ := h
      exact ⟨peers, List.mem_flatMap.mpr ⟨_, he, List.mem_singleton.mpr rfl⟩, hpeer⟩

/-- A probe looks up the key under which its hash would be looked up. -/
theorem testProviderLookup_eq [MultiaddrLib] {hash : Text} {key : Digest} (hkey : extractHashBytes hash = .ok key)
    (t : DhtTask) (id : QueryId) (announcements : List Announcement) (world : ProbeWorld) :
    ∃ report requests, testProviderLookup world hash = .ok (report, .getProviders (Hex.encode key.toList) :: requests) ∧
      (∀ request ∈ requests, ∃ peer, request = .sendBlockRequest peer (.handshake key.toList)) ∧
      (t.lookup id announcements (Hex.encode key.toList) = .ok world.lookupNotes →
        ∀ text, text ∈ report.dhtProviders ↔
          ∃ peer, Provides announcements key peer ∧ MultiaddrLib.peerIdText peer = text) := by
  unfold testProviderLookup
  rw [hkey]
  refine ⟨_, _, rfl, fun request hrequest => ?_, fun hnotes text => ?_⟩
  · obtain ⟨peer, -, rfl⟩ := List.mem_map.mp hrequest
    exact ⟨peer, rfl⟩
  · have hsame : extractHashBytes (Hex.encode key.toList) = .ok key := by
      refine extractHashBytes_of_spellsHex ?_
      rw [hashText_of_no_colon (colon_not_mem_of_spellsHex (spellsHex_encode key))]
      exact spellsHex_encode key
    obtain ⟨notes, hlookup, -, hfound⟩ := lookup_eq hsame t id announcements
    rw [hlookup] at hnotes
    obtain rfl := Except.ok.inj hnotes
    rw [List.mem_map]
    exact exists_congr fun peer => and_congr_left fun _ => hfound peer

end

/-! ### The keys agree -/

/-- **What the keys are for.** The hash `s` of the NAR with the digest `d` is looked up under the key that
its providers announce, the notifications carry that key, and a lookup and a probe find every provider
there is. -/
structure KeysAgree [MultiaddrLib] [KademliaLib] (s : Text) (d : Digest) : Prop where
  lookup : extractHashBytes s = .ok d
  announced : ∀ (t : DhtTask) reason, (t.announceNar (Hex.encode d.toList) reason (.ok ())).announced = [d.toList]
  found : ∀ (t : DhtTask) id announcements, ∃ notes, t.lookup id announcements s = .ok notes ∧
    (∀ note ∈ notes, ∃ peers, note = .providersFound (Hex.encode d.toList) peers) ∧
    ∀ peer, peer ∈ collectProviders (Hex.encode d.toList) notes ↔ Provides announcements d peer
  probed : ∀ (t : DhtTask) id announcements world, ∃ report requests,
    testProviderLookup world s = .ok (report, .getProviders (Hex.encode d.toList) :: requests) ∧
    (∀ request ∈ requests, ∃ peer, request = .sendBlockRequest peer (.handshake d.toList)) ∧
    (t.lookup id announcements (Hex.encode d.toList) = .ok world.lookupNotes →
      ∀ text, text ∈ report.dhtProviders ↔
        ∃ peer, Provides announcements d peer ∧ MultiaddrLib.peerIdText peer = text)

section

variable [KademliaLib] [LawfulKademliaLib]

/-- Under any other key, nobody is found for the NAR. -/
theorem collectProviders_of_other {s : Text} {key d : Digest} (hkey : extractHashBytes s = .ok key) (hne : key ≠ d)
    {t : DhtTask} {id : QueryId} {announcements : List Announcement} {notes : List SwarmNotification}
    (h : t.lookup id announcements s = .ok notes) : collectProviders (Hex.encode d.toList) notes = [] := by
  obtain ⟨notes', hlookup, hnotes, -⟩ := lookup_eq hkey t id announcements
  rw [h] at hlookup
  obtain rfl := Except.ok.inj hlookup
  refine List.eq_nil_iff_forall_not_mem.mpr fun peer hpeer => ?_
  obtain ⟨peers, hmem, -⟩ := mem_collectProviders.mp hpeer
  obtain ⟨peers', heq⟩ := hnotes _ hmem
  have hhex := (SwarmNotification.providersFound.inj heq).1
  exact hne (Vector.toList_inj.mp (Hex.encode_injective hhex)).symm

/-- **A hash is looked up where it is announced exactly when it is in hexadecimal**, of the hashes that
the daemon accepts. -/
theorem keysAgree_iff [MultiaddrLib] {s : Text} {d : Digest} (h : sha256Bytes s = .ok (some d)) :
    KeysAgree s d ↔ HexText (hashText s) := by
  rw [← extractHashBytes_eq_iff h]
  constructor
  · exact KeysAgree.lookup
  · intro hkey
    exact
      { lookup := hkey
        announced := fun t reason => announced_storeKey t reason d
        found := lookup_eq hkey
        probed := testProviderLookup_eq hkey }

end

/-! ### A network of one record table -/

/-- Every record is found by one answer. -/
@[reducible] def tableKademliaLib : KademliaLib where
  query records id key := [.foundProviders id key ((records.filter fun r => decide (r.1 = key)).map (·.2)) true]

theorem lawful_tableKademliaLib : @LawfulKademliaLib tableKademliaLib := by
  refine @LawfulKademliaLib.mk tableKademliaLib ?_ ?_
  · intro records id key e he
    exact Or.inl ⟨_, _, List.mem_singleton.mp he⟩
  · intro records id key peer
    constructor
    · intro h
      obtain ⟨peers, last, he, hpeer⟩ := h
      obtain ⟨-, -, rfl, -⟩ := KadEvent.foundProviders.inj (List.mem_singleton.mp he)
      obtain ⟨r, hr, rfl⟩ := List.mem_map.mp hpeer
      obtain ⟨hmem, hkey⟩ := List.mem_filter.mp hr
      obtain rfl := of_decide_eq_true hkey
      exact hmem
    · intro hmem
      refine ⟨_, _, List.mem_singleton.mpr rfl, List.mem_map.mpr ⟨_, List.mem_filter.mpr ⟨hmem, ?_⟩, rfl⟩⟩
      exact decide_eq_true rfl

/-- A hash of equal bytes, in hexadecimal capitals. -/
theorem keysAgree_sample :
    let _ := sampleMultiaddrLib
    let _ := tableKademliaLib
    let d : Digest := Vector.replicate 32 0xAA
    KeysAgree ("sha256:".toList ++ (Hex.encode d.toList).map Char.toUpper) d := by
  intro _ lib d
  have hspells : SpellsHex (hashText ("sha256:".toList ++ (Hex.encode d.toList).map Char.toUpper)) d := by
    rw [hashText_of_prefixed]
    exact spellsHex_upper d
  exact (@keysAgree_iff lib lawful_tableKademliaLib _ _ _ (sha256Bytes_of_spellsHex hspells)).mpr
    (digits_of_spellsHex hspells)

/-- The hash that `nar_hash.rs` tests: it is looked up under the bytes of its text, and a peer that
has announced the NAR is not found. -/
theorem base32_is_not_found :
    let _ := tableKademliaLib
    let s := "sha256:0qhasy0w9w9mfv0vacgzymxl4nww8cslyza5x2ci42v7i2b13lyl".toList
    ∃ d notes, sha256Bytes s = .ok (some d) ∧
      Hex.encode d.toList = "d4d3119688670b1299e8457d4f35439c5b427bf5ff31b5c17635f1c481d70a62".toList ∧
      extractHashBytes s ≠ .ok d ∧
      DhtTask.new.lookup 0 [⟨⟨[1]⟩, Hex.encode d.toList, "post-download".toList, .ok ()⟩] s = .ok notes ∧
      collectProviders (Hex.encode d.toList) notes = [] := by
  intro lib s
  let d : Digest := #v[0xd4, 0xd3, 0x11, 0x96, 0x88, 0x67, 0x0b, 0x12, 0x99, 0xe8, 0x45, 0x7d, 0x4f, 0x35, 0x43,
    0x9c, 0x5b, 0x42, 0x7b, 0xf5, 0xff, 0x31, 0xb5, 0xc1, 0x76, 0x35, 0xf1, 0xc4, 0x81, 0xd7, 0x0a, 0x62]
  have hdigest : sha256Bytes s = .ok (some d) := by decide +kernel
  have hkey : extractHashBytes s = .ok (paddedBytes (Text.utf8 (hashText s))) := by decide +kernel
  have hne : extractHashBytes s ≠ .ok d := by
    rw [Ne, extractHashBytes_eq_iff hdigest]
    decide
  have hother : paddedBytes (Text.utf8 (hashText s)) ≠ d := by
    intro heq
    exact hne (hkey.trans (congrArg Except.ok heq))
  obtain ⟨notes, hlookup, -, -⟩ := @lookup_eq lib lawful_tableKademliaLib _ _ hkey .new 0
    [⟨⟨[1]⟩, Hex.encode d.toList, "post-download".toList, .ok ()⟩]
  exact ⟨d, notes, hdigest, by decide +kernel, hne, hlookup,
    @collectProviders_of_other lib lawful_tableKademliaLib _ _ _ hkey hother _ _ _ _ hlookup⟩

end GuixP2p
