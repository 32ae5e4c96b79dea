import GuixP2p.Runtime.FailedDials

/-!
# GuixP2p.Runtime.PublicAddresses

**Which addresses pass for public.** `is_public_peer_address` decides which addresses of an identify
message are learned, and which entries of the peer store are handed out as bootstrap peers. It looks
at every component, but at the IPv6 ones only as IPv6: a private host whose IPv4 address is written
as IPv6 (`::ffff:192.168.1.1`) is accepted. `publicOnly_iff` says that this is the only way.
-/

namespace GuixP2p

open GuixP2p.Lib MultiaddrLib

/-! ### Hosts that are not public -/

/-- An IPv4 host that cannot be reached from everywhere. -/
inductive Ipv4Addr.NonPublic : Ipv4Addr → Prop
  | unspecified : NonPublic ⟨(0, 0, 0, 0)⟩
  | loopback (b c d : UInt8) : NonPublic ⟨(127, b, c, d)⟩
  | private10 (b c d : UInt8) : NonPublic ⟨(10, b, c, d)⟩
  | private172 (b c d : UInt8) (low : 16 ≤ b) (high : b ≤ 31) : NonPublic ⟨(172, b, c, d)⟩
  | private192 (c d : UInt8) : NonPublic ⟨(192, 168, c, d)⟩
  | linkLocal (c d : UInt8) : NonPublic ⟨(169, 254, c, d)⟩

/-- The IPv4 address as an IPv6 address, `::ffff:a.b.c.d`. -/
def Ipv4Addr.toIpv6Mapped (ip : Ipv4Addr) : Ipv6Addr :=
  let (a, b, c, d) := ip.octets
  ⟨#v[0, 0, 0, 0, 0, 0xffff, a.toUInt16 <<< 8 ||| b.toUInt16, c.toUInt16 <<< 8 ||| d.toUInt16]⟩

/-- An IPv6 host that cannot be reached from everywhere. -/
inductive Ipv6Addr.NonPublic : Ipv6Addr → Prop
  | unspecified : NonPublic ⟨#v[0, 0, 0, 0, 0, 0, 0, 0]⟩
  | loopback : NonPublic ⟨#v[0, 0, 0, 0, 0, 0, 0, 1]⟩
  /-- `fc00::/7` -/
  | uniqueLocal (ip : Ipv6Addr) (bits : ip.segments.get 0 &&& 0xfe00 = 0xfc00) : NonPublic ip
  /-- `fe80::/10` -/
  | linkLocal (ip : Ipv6Addr) (bits : ip.segments.get 0 &&& 0xffc0 = 0xfe80) : NonPublic ip
  | mapped (ip : Ipv4Addr) (host : ip.NonPublic) : NonPublic ip.toIpv6Mapped

/-- A component that names such a host. -/
inductive Protocol.NonPublic : Protocol → Prop
  | ip4 {ip : Ipv4Addr} (host : ip.NonPublic) : NonPublic (.ip4 ip)
  | ip6 {ip : Ipv6Addr} (host : ip.NonPublic) : NonPublic (.ip6 ip)

/-- No component, at any position, names a host that is not public. -/
def PublicOnly (address : Multiaddr) : Prop := ∀ c ∈ address, ¬ c.NonPublic

/-- Some component is the IPv6 form of an IPv4 host that is not public. -/
def Disguised (address : Multiaddr) : Prop := ∃ ip : Ipv4Addr, ip.NonPublic ∧ .ip6 ip.toIpv6Mapped ∈ address

/-! ### What the predicates find -/

theorem Ipv4Addr.NonPublic.found {ip : Ipv4Addr} (h : ip.NonPublic) :
    ip.isUnspecified = true ∨ ip.isLoopback = true ∨ (ip.isPrivate || ip.isLinkLocal) = true := by
  cases h with
  | unspecified => exact Or.inl rfl
  | loopback b c d => exact Or.inr (Or.inl rfl)
  | private10 b c d => exact Or.inr (Or.inr rfl)
  | private172 b c d low high =>
      refine Or.inr (Or.inr ?_)
      have hprivate : Ipv4Addr.isPrivate ⟨(172, b, c, d)⟩ = true := decide_eq_true ⟨low, high⟩
      rw [hprivate, Bool.true_or]
  | private192 c d => exact Or.inr (Or.inr rfl)
  | linkLocal c d => exact Or.inr (Or.inr (by simp [Ipv4Addr.isLinkLocal]))

theorem Ipv6Addr.NonPublic.found {ip : Ipv6Addr} (h : ip.NonPublic) :
    (ip.isUnspecified = true ∨ ip.isLoopback = true ∨ (ip.isUniqueLocal || ip.isUnicastLinkLocal) = true) ∨
      ∃ ip4 : Ipv4Addr, ip4.NonPublic ∧ ip = ip4.toIpv6Mapped := by
  cases h with
  | unspecified => exact Or.inl (Or.inl rfl)
  | loopback => exact Or.inl (Or.inr (Or.inl rfl))
  | uniqueLocal ip bits =>
      have hunique : ip.isUniqueLocal = true := decide_eq_true bits
      exact Or.inl (Or.inr (Or.inr (by rw [hunique, Bool.true_or])))
  | linkLocal ip bits =>
      have hlink : ip.isUnicastLinkLocal = true := decide_eq_true bits
      exact Or.inl (Or.inr (Or.inr (by rw [hlink, Bool.or_true])))
  | mapped ip4 host => exact Or.inr ⟨ip4, host, rfl⟩

theorem public_inv {localIps : LocalIps} {address : Multiaddr} (h : isPublicPeerAddress localIps address = true) :
    isUnspecified (normalizeAddress address) = false ∧ isLoopback (normalizeAddress address) = false ∧
      hasPrivateIp (normalizeAddress address) = false := by
  unfold isPublicPeerAddress at h
  split at h
  · cases h
  next addr hclean =>
    obtain rfl := cleanPeerAddress_eq_some hclean
    have hcleaned : cleanAddress address = some (normalizeAddress address) := by
      unfold cleanPeerAddress at hclean
      split at hclean
      · cases hclean
      next addr hcleaned =>
        split at hclean
        · cases hclean
        · rw [hcleaned, hclean]
    unfold cleanAddress at hcleaned
    dsimp only at hcleaned
    split at hcleaned
    · cases hcleaned
    next hunspecified =>
      split at hcleaned
      · cases hcleaned
      next hloopback =>
        exact ⟨by simpa using hunspecified, by simpa using hloopback, by simpa using h⟩

/-- Normalising loses no host. -/
theorem mem_normalizeAddress {address : Multiaddr} {c : Protocol} (hc : c ∈ address) (hhost : c.NonPublic) :
    c ∈ normalizeAddress address := by
  rcases eq_normalizeAddress address with heq | ⟨q, heq⟩
  · exact heq ▸ hc
  · rw [heq, List.mem_append, List.mem_singleton] at hc
    refine hc.resolve_right ?_
    intro h
    obtain rfl := h
    cases hhost

/-- **What is accepted as public** is so, except for IPv4 hosts in disguise. -/
theorem publicOnly_iff {localIps : LocalIps} {address : Multiaddr}
    (h : isPublicPeerAddress localIps address = true) : PublicOnly address ↔ ¬ Disguised address := by
  constructor
  · intro hpublic h'
    obtain ⟨ip, host, hmem⟩ := h'
    exact hpublic _ hmem (.ip6 (.mapped ip host))
  · intro hplain c hc hhost
    have hmem := mem_normalizeAddress hc hhost
    obtain ⟨hunspecified, hloopback, hprivate⟩ := public_inv h
    simp only [isUnspecified, isLoopback, hasPrivateIp, List.any_eq_false] at hunspecified hloopback hprivate
    cases hhost with
    | ip4 host =>
        rcases host.found with hfound | hfound | hfound
        · exact hunspecified _ hmem hfound
        · exact hloopback _ hmem hfound
        · exact hprivate _ hmem hfound
    | ip6 host =>
        rcases host.found with (hfound | hfound | hfound) | ⟨ip4, host4, rfl⟩
        · exact hunspecified _ hmem hfound
        · exact hloopback _ hmem hfound
        · exact hprivate _ hmem hfound
        · exact hplain ⟨ip4, host4, hc⟩

/-! ### What is learned and handed out -/

/-- The addresses of an identify message that are added to the DHT, the connection manager and the
peer store. -/
def identifiedAddresses (listenAddrs : List (Multiaddr × LearnWorld)) : List Multiaddr :=
  (listenAddrs.filter fun e => isPublicPeerAddress e.2.localIps e.1).map (·.1)

theorem learns_identified (peer : PeerId) (listenAddrs : List (Multiaddr × LearnWorld)) :
    (AddressEvent.identified peer listenAddrs).managerLearns = (identifiedAddresses listenAddrs).map (peer, ·) ∧
      (AddressEvent.identified peer listenAddrs).storeLearns = (identifiedAddresses listenAddrs).map (peer, ·) := by
  simp [AddressEvent.managerLearns, AddressEvent.storeLearns, identifiedAddresses]

theorem publicOnly_identified_iff {listenAddrs : List (Multiaddr × LearnWorld)} {address : Multiaddr}
    (h : address ∈ identifiedAddresses listenAddrs) : PublicOnly address ↔ ¬ Disguised address := by
  obtain ⟨e, he, rfl⟩ := List.mem_map.mp h
  exact publicOnly_iff (List.mem_filter.mp he).2

section

variable [MultiaddrLib]

/-- A bootstrap peer is the address of an entry that passes for public, and the peer identity. -/
theorem publicOnly_bootstrap_iff {localIps : LocalIps} {store : PeerStore} {text : Text}
    (h : text ∈ store.bootstrapPeers localIps) :
    ∃ address, text = multiaddrText address ∧ (PublicOnly address ↔ ¬ Disguised address) := by
  obtain ⟨entry, -, hentry⟩ := List.mem_filterMap.mp h
  obtain ⟨full, hfull, rfl⟩ := Option.map_eq_some_iff.mp hentry
  unfold PeerStoreEntry.publicFullMultiaddr at hfull
  split at hfull
  next peer address hpeer haddress =>
    split at hfull
    next hpublic =>
      obtain rfl := Option.some.inj hfull
      refine ⟨_, rfl, ?_⟩
      have hfull : PublicOnly (address ++ [.p2p peer]) ↔ PublicOnly address := by
        constructor
        · exact fun hp c hc => hp c (List.mem_append_left _ hc)
        · intro hp c hc hhost
          rcases List.mem_append.mp hc with hc | hc
          · exact hp c hc hhost
          · obtain rfl := List.mem_singleton.mp hc
            cases hhost
      rw [hfull, publicOnly_iff hpublic]
      simp [Disguised]
    next => cases hfull
  next => cases hfull

/-- **When no non-public address is learned or handed out as public**: of the addresses that pass for
public, of those an identify message of any history adds, and of those that a store hands out after
any history, exactly the ones without a disguised host are public throughout. -/
theorem public_addresses_iff [PeerStoreFormat] (peerStore : Option (PruneWorld × Nat × Option Text))
    (config : ConnectionConfig) (history : List (Instant × AddressEvent)) (localIps : LocalIps) :
    (∀ address, isPublicPeerAddress localIps address = true → (PublicOnly address ↔ ¬ Disguised address)) ∧
      (∀ now peer listenAddrs, (now, .identified peer listenAddrs) ∈ history →
        ∀ address ∈ identifiedAddresses listenAddrs, PublicOnly address ↔ ¬ Disguised address) ∧
      ∀ store file, ((AddressBook.start peerStore config).after history).peerStore = some (store, file) →
        ∀ text ∈ store.bootstrapPeers localIps,
          ∃ address, text = multiaddrText address ∧ (PublicOnly address ↔ ¬ Disguised address) :=
  ⟨fun _ => publicOnly_iff, fun _ _ _ _ _ => publicOnly_identified_iff, fun _ _ _ _ => publicOnly_bootstrap_iff⟩

/-! ### A private host in disguise -/

omit [MultiaddrLib] in
theorem public_addresses_sample : PublicOnly AddressBook.publicAddress := by
  let _ := AddressBook.dialMultiaddrLib
  let _ := samplePeersFormat
  refine ((public_addresses_iff none ⟨60000⟩ [] none).1 AddressBook.publicAddress (by decide)).mpr ?_
  intro h
  obtain ⟨ip, -, hmem⟩ := h
  simp [AddressBook.publicAddress] at hmem

/-- `/ip6/::ffff:192.168.1.1/tcp/6881` -/
def disguisedAddress : Multiaddr := [.ip6 (Ipv4Addr.toIpv6Mapped ⟨(192, 168, 1, 1)⟩), .other "tcp/6881".toList]

omit [MultiaddrLib] in
/-- It passes for public and is learned from an identify message. -/
theorem disguised_is_learned :
    isPublicPeerAddress none disguisedAddress = true ∧
      disguisedAddress ∈ identifiedAddresses [(disguisedAddress, ⟨none, none, 1000, ⟨1000, none⟩, .written⟩)] ∧
      ¬ PublicOnly disguisedAddress := by
  refine ⟨by decide, by simp [identifiedAddresses, show isPublicPeerAddress none disguisedAddress = true by decide], ?_⟩
  exact fun hpublic => hpublic _ List.mem_cons_self (.ip6 (.mapped _ (.private192 1 1)))

end

end GuixP2p
