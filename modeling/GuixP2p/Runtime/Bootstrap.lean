import GuixP2p.Daemon.P2pDownload
import GuixP2p.Dht.Providers
import GuixP2p.Lib.Text
import GuixP2p.PeerStore.Persistence

/-!
# GuixP2p.Runtime.Bootstrap

**How nodes meet.** A node that can be dialled prints its addresses with `--share-info`
(`src/diagnostics.rs`). Another one has the printed line in its config file (`src/config.rs`), and dials
the addresses when it starts, together with those of its peer store (`src/main.rs`, `bootstrap` of
`src/dht.rs`). `share_info_accepted` follows an address all the way.
-/

namespace GuixP2p

open GuixP2p.Lib

/-! ### The config -/

/-- A value of comma-separated parts. -/
def splitCsv (value : Text) : List Text :=
  ((value.splitOn ',').map Text.trim).filter fun part => decide (part ≠ [])

/-- Each value once, where it comes first. -/
def dedupStrings (values : List Text) : List Text :=
  values.foldl (fun out value => if value ∈ out then out else out ++ [value]) []

def defaultBootstrapPeers : List Text := []

/-- The keys of the config file that are about peers. -/
structure ConfigFile where
  bootstrapPeers : Option Text
  enableDefaultBootstrapPeers : Option Bool
  peerStoreEnabled : Option Bool
  peerStoreMaxEntries : Option Nat
  externalAddresses : Option Text
  deriving DecidableEq

def ConfigFile.default : ConfigFile := ⟨none, none, none, none, none⟩

/-- `toml::from_str` on a config file. -/
class ConfigFormat where
  fromStr : Text → Option ConfigFile

/-- Printable ASCII without blanks, commas, quotes and backslashes. -/
def PlainText (t : Text) : Prop :=
  t ≠ [] ∧ ∀ c ∈ t, 0x20 < c.toNat ∧ c.toNat < 0x7f ∧ c ≠ ',' ∧ c ≠ '"' ∧ c ≠ '\\'

/-- A comment says nothing, and a string stands for itself if nothing in it has to be escaped. -/
class LawfulConfigFormat [ConfigFormat] : Prop where
  fromStr_comment : ∀ comment : Text, (∀ c ∈ comment, 0x20 ≤ c.toNat ∧ c.toNat < 0x7f) →
    ConfigFormat.fromStr ('#' :: comment) = some .default
  fromStr_bootstrapPeers : ∀ value : Text,
    (∀ c ∈ value, 0x20 ≤ c.toNat ∧ c.toNat < 0x7f ∧ c ≠ '"' ∧ c ≠ '\\') →
      ConfigFormat.fromStr ("bootstrap_peers = \"".toList ++ value ++ ['"']) =
        some { ConfigFile.default with bootstrapPeers := some value }

/-- A config file that cannot be read or parsed says nothing. -/
def loadConfigFile [ConfigFormat] (content : Option Text) : ConfigFile :=
  (content.bind ConfigFormat.fromStr).getD .default

/-- The settings that are about peers. -/
structure PeerConfig where
  bootstrapPeers : List Text
  peerStoreEnabled : Bool
  peerStoreMaxEntries : Nat
  externalAddresses : List Text

/-- The bootstrap peers of the file and of the command line are put together, other settings of the
command line come instead. -/
def PeerConfig.loadFromFile (file : ConfigFile) (cliBootstrap cliExternalAddresses : Option Text) : PeerConfig where
  bootstrapPeers := dedupStrings
    ((if file.enableDefaultBootstrapPeers.getD true then defaultBootstrapPeers else []) ++
      (file.bootstrapPeers.map splitCsv).getD [] ++ (cliBootstrap.map splitCsv).getD [])
  peerStoreEnabled := file.peerStoreEnabled.getD true
  peerStoreMaxEntries := file.peerStoreMaxEntries.getD 100
  externalAddresses :=
    ((cliExternalAddresses.map splitCsv).or (file.externalAddresses.map splitCsv)).getD []

section

variable [MultiaddrLib]

open MultiaddrLib

/-! ### What a node shares -/

/-- Build dialable addresses users can share with other peers. -/
def shareableAddresses (externalAddresses : List Text) (peerId : Text) : List Text :=
  match parsePeerId peerId with
  | none => []
  | some peer =>
    externalAddresses.filterMap fun address =>
      match parseMultiaddr address with
      | none => none
      | some addr => (cleanAddress addr).map fun addr => multiaddrText (addr ++ [.p2p peer])

def multiaddrHasPrivateIp (value : Text) : Bool :=
  match parseMultiaddr value with
  | none => false
  | some addr =>
    addr.any fun
      | .ip4 ip => ip.isPrivate || ip.isLoopback || ip.isLinkLocal
      | .ip6 ip => ip.isLoopback || ip.isUniqueLocal || ip.isUnicastLinkLocal
      | _ => false

structure ConnectivitySummary where
  state : Text
  detail : Text
  hasBootstrapPeers : Bool
  hasShareableAddresses : Bool
  hasPrivateExternalAddresses : Bool
  shareableAddresses : List Text

/-- Summarize whether this node has enough static configuration to be reachable. -/
def connectivitySummaryFromParts (bootstrapPeers externalAddresses : List Text) (peerId : Text) : ConnectivitySummary :=
  let shareableAddresses := shareableAddresses externalAddresses peerId
  let hasBootstrapPeers := !bootstrapPeers.isEmpty
  let hasShareableAddresses := !shareableAddresses.isEmpty
  let (state, detail) :=
    if hasShareableAddresses && hasBootstrapPeers then
      ("shareable", "bootstrap peers and shareable addresses are configured")
    else if hasShareableAddresses then
      ("shareable-no-bootstrap", "shareable address configured, but no bootstrap peers")
    else if hasBootstrapPeers then
      ("client-only", "bootstrap peers configured; no shareable address for inbound peers")
    else
      ("local-only", "no bootstrap peers or shareable address; LAN mDNS may still work")
  { state := state.toList
    detail := detail.toList
    hasBootstrapPeers
    hasShareableAddresses
    hasPrivateExternalAddresses := externalAddresses.any multiaddrHasPrivateIp
    shareableAddresses }

omit [MultiaddrLib] in
def bootstrapConfigSnippet (bootstrapPeers : List Text) : Text :=
  if bootstrapPeers = [] then "# Set external_addresses first, then run guix-p2p --share-info again.".toList
  else "bootstrap_peers = \"".toList ++ [','].intercalate bootstrapPeers ++ ['"']

structure BootstrapBundle where
  peerId : Text
  connectivity : ConnectivitySummary
  shareableAddresses : List Text
  bootstrapPeers : List Text
  configSnippet : Text

/-- Build the shareable bootstrap bundle for this node. -/
def bootstrapBundle (config : PeerConfig) (peerId : Text) : BootstrapBundle :=
  let connectivity := connectivitySummaryFromParts config.bootstrapPeers config.externalAddresses peerId
  { peerId
    connectivity
    shareableAddresses := connectivity.shareableAddresses
    bootstrapPeers := connectivity.shareableAddresses
    configSnippet := bootstrapConfigSnippet connectivity.shareableAddresses }

/-! ### Diagnostics -/

inductive DiagnosticSeverity
  | ok
  | warning
  | error
  deriving DecidableEq

structure DiagnosticCheck where
  id : Text
  severity : DiagnosticSeverity
  summary : Text
  detail : Text

/-- The texts of the errors of parsing a multiaddr. -/
class MultiaddrErrors where
  parseError : Text → Text

def invalidMultiaddrs [MultiaddrErrors] (values : List Text) : List Text :=
  values.filterMap fun value =>
    match parseMultiaddr value with
    | some _ => none
    | none => some (value ++ ": ".toList ++ MultiaddrErrors.parseError value)

def bootstrapPeersWithoutPeerId (values : List Text) : List Text :=
  values.filterMap fun value =>
    match parseMultiaddr value with
    | none => none
    | some addr =>
      match addr.getLast? with
      | some (.p2p _) => none
      | _ => some value

/-- The check `bootstrap-peers`. -/
def bootstrapPeersCheck [MultiaddrErrors] (bootstrapPeers : List Text) : DiagnosticCheck :=
  let invalid := invalidMultiaddrs bootstrapPeers
  let withoutPeerId := bootstrapPeersWithoutPeerId bootstrapPeers
  if invalid ≠ [] then
    { id := "bootstrap-peers".toList
      severity := .error
      summary := "invalid bootstrap peer address".toList
      detail := ", ".toList.intercalate invalid }
  else if withoutPeerId ≠ [] then
    { id := "bootstrap-peers".toList
      severity := .warning
      summary := "bootstrap peer missing /p2p peer id".toList
      detail := ", ".toList.intercalate withoutPeerId ++ " should end in /p2p/<peer-id>".toList }
  else if bootstrapPeers ≠ [] then
    { id := "bootstrap-peers".toList
      severity := .ok
      summary := "bootstrap peers configured".toList
      detail := Text.ofNat bootstrapPeers.length ++ " bootstrap peer(s)".toList }
  else
    { id := "bootstrap-peers".toList
      severity := .warning
      summary := "no bootstrap peers configured".toList
      detail := "configure bootstrap_peers or rely on LAN mDNS only".toList }

/-! ### The start of a node -/

/-- The configured peers, and those that the peer store remembers. -/
def startPeers (config : PeerConfig) (localIps : LocalIps) : Option PeerStore → List Text
  | none => config.bootstrapPeers
  | some store => dedupStrings (config.bootstrapPeers ++ store.bootstrapPeers localIps)

/-- What `bootstrap` asks of the swarm. -/
inductive BootstrapCall
  | addAddress (peer : PeerId) (address : Multiaddr)
  | dial (address : Multiaddr)
  | kadBootstrap
  deriving DecidableEq

omit [MultiaddrLib] in
def kadPeerAddress (addr : Multiaddr) : Option (PeerId × Multiaddr) :=
  match addr.getLast? with
  | some (.p2p peer) => some (peer, addr.dropLast)
  | _ => none

omit [MultiaddrLib] in
def bootstrapAddress (addr : Multiaddr) : List BootstrapCall :=
  (kadPeerAddress addr).toList.map (fun p => .addAddress p.1 p.2) ++ [.dial addr]

/-- `dialled` says which dials begin. -/
def bootstrap (dialled : Text → Bool) (peers : List Text) : List BootstrapCall :=
  let calls := (peers.filterMap parseMultiaddr).flatMap bootstrapAddress
  let connected := peers.countP fun peer => (parseMultiaddr peer).isSome && dialled peer
  if 0 < connected then calls ++ [.kadBootstrap] else calls

/-! ### Lists of texts -/

omit [MultiaddrLib] in
theorem mem_dedupStrings {values : List Text} {value : Text} : value ∈ dedupStrings values ↔ value ∈ values := by
  have hstep : ∀ out v : _, value ∈ (if v ∈ out then out else out ++ [v] : List Text) ↔ value ∈ out ∨ v = value := by
    intro out v
    split
    next hmem => exact ⟨Or.inl, fun h => h.elim id fun heq => heq ▸ hmem⟩
    next => rw [List.mem_append, List.mem_singleton, eq_comm (a := value)]
  rw [dedupStrings, foldl_iff_or (P := fun out : List Text => value ∈ out) hstep]
  simp

omit [MultiaddrLib] in
theorem dedupStrings_spec (values : List Text) :
    (dedupStrings values).Nodup ∧ (dedupStrings values).length ≤ values.length := by
  have hfold : ∀ out : List Text, out.Nodup →
      (values.foldl (fun out value => if value ∈ out then out else out ++ [value]) out).Nodup ∧
        (values.foldl (fun out value => if value ∈ out then out else out ++ [value]) out).length ≤
          out.length + values.length := by
    induction values with
    | nil => exact fun out hout => ⟨hout, le_refl _⟩
    | cons value values ih =>
        intro out hout
        rw [List.foldl_cons, List.length_cons]
        split
        next =>
          obtain ⟨hnodup, hlength⟩ := ih out hout
          exact ⟨hnodup, hlength.trans (Nat.add_le_add_left (Nat.le_succ _) _)⟩
        next hnot =>
          obtain ⟨hnodup, hlength⟩ := ih (out ++ [value]) (by simpa using hout.concat hnot)
          rw [List.length_append, List.length_singleton] at hlength
          exact ⟨hnodup, hlength.trans (by omega)⟩
  obtain ⟨hnodup, hlength⟩ := hfold [] List.nodup_nil
  rw [List.length_nil, Nat.zero_add] at hlength
  exact ⟨hnodup, hlength⟩

omit [MultiaddrLib] in
theorem PlainText.trim_eq {t : Text} (h : PlainText t) : Text.trim t = t := by
  have hchar : ∀ c ∈ t, Text.isWhitespace c = false := by
    intro c hc
    obtain ⟨hlow, hhigh, -⟩ := h.2 c hc
    simp only [Text.isWhitespace, Bool.or_eq_false_iff, decide_eq_false_iff_not]
    omega
  exact Text.trim_eq_self (fun c hc => hchar c (List.mem_of_head? hc)) fun c hc => hchar c (List.mem_of_getLast? hc)

omit [MultiaddrLib] in
theorem mem_intercalate {sep c : Char} {parts : List Text} (h : c ∈ [sep].intercalate parts) :
    c = sep ∨ ∃ part ∈ parts, c ∈ part := by
  induction parts with
  | nil => cases h
  | cons part parts ih =>
      cases parts with
      | nil =>
          rw [List.intercalate_singleton] at h
          exact Or.inr ⟨part, List.mem_cons_self, h⟩
      | cons next rest =>
          rw [List.intercalate_cons_cons, List.mem_append, List.mem_append, List.mem_singleton] at h
          rcases h with (h | h) | h
          · exact Or.inr ⟨part, List.mem_cons_self, h⟩
          · exact Or.inl h
          · obtain hfirst | ⟨p, hp, hpiece⟩ := ih h
            · exact Or.inl hfirst
            · exact Or.inr ⟨p, List.mem_cons_of_mem _ hp, hpiece⟩

omit [MultiaddrLib] in
/-- **A joined list of plain texts is read back.** -/
theorem splitCsv_intercalate {parts : List Text} (hplain : ∀ part ∈ parts, PlainText part) (hne : parts ≠ []) :
    splitCsv ([','].intercalate parts) = parts := by
  have hcomma : ∀ part ∈ parts, ',' ∉ part := fun part hpart hc => ((hplain part hpart).2 _ hc).2.2.1 rfl
  have htrim : parts.map Text.trim = parts :=
    (List.map_congr_left fun part hpart => (hplain part hpart).trim_eq).trans (List.map_id _)
  rw [splitCsv, List.splitOn_intercalate ',' hcomma hne, htrim]
  exact List.filter_eq_self.mpr fun part hpart => decide_eq_true (hplain part hpart).1

omit [MultiaddrLib] in
/-- What is read of a snippet that another node prints. -/
theorem bootstrapPeers_of_snippet [ConfigFormat] [LawfulConfigFormat] {peers : List Text}
    (hplain : ∀ peer ∈ peers, PlainText peer) (cliBootstrap cliExternalAddresses : Option Text) :
    (PeerConfig.loadFromFile (loadConfigFile (some (bootstrapConfigSnippet peers))) cliBootstrap
      cliExternalAddresses).bootstrapPeers = dedupStrings (peers ++ (cliBootstrap.map splitCsv).getD []) := by
  by_cases hempty : peers = []
  · have hfile : loadConfigFile (some (bootstrapConfigSnippet peers)) = .default := by
      rw [loadConfigFile, bootstrapConfigSnippet, if_pos hempty, Option.bind_some]
      have hascii : " Set external_addresses first, then run guix-p2p --share-info again.".toList.all
          (fun c => decide (0x20 ≤ c.toNat ∧ c.toNat < 0x7f)) = true := by
        decide +kernel
      have hcomment := LawfulConfigFormat.fromStr_comment _ fun c hc =>
        of_decide_eq_true (List.all_eq_true.mp hascii c hc)
      exact congrArg (fun o => o.getD ConfigFile.default) hcomment
    rw [hfile, hempty]
    rfl
  · have hvalue : ∀ c ∈ [','].intercalate peers, 0x20 ≤ c.toNat ∧ c.toNat < 0x7f ∧ c ≠ '"' ∧ c ≠ '\\' := by
      intro c hc
      rcases mem_intercalate hc with rfl | ⟨peer, hpeer, hc⟩
      · decide
      · obtain ⟨hlow, hhigh, -, hquote, hbackslash⟩ := (hplain peer hpeer).2 c hc
        exact ⟨hlow.le, hhigh, hquote, hbackslash⟩
    have hfile : loadConfigFile (some (bootstrapConfigSnippet peers)) =
        { ConfigFile.default with bootstrapPeers := some ([','].intercalate peers) } := by
      rw [loadConfigFile, bootstrapConfigSnippet, if_neg hempty, Option.bind_some,
        LawfulConfigFormat.fromStr_bootstrapPeers _ hvalue]
      rfl
    rw [hfile]
    simp only [PeerConfig.loadFromFile, ConfigFile.default, Option.map_some, Option.getD_some,
      splitCsv_intercalate hplain hempty]
    rfl

/-! ### Addresses -/

/-- What is read of a text is printed so that it can be read again, with a peer identity at its end. -/
class LawfulMultiaddrLib : Prop where
  parsePeerId_text : ∀ peer, parsePeerId (peerIdText peer) = some peer
  parse_with_peer : ∀ t address peer, parseMultiaddr t = some address →
    parseMultiaddr (multiaddrText (normalizeAddress address ++ [.p2p peer])) =
      some (normalizeAddress address ++ [.p2p peer])

omit [MultiaddrLib] in
theorem cleanAddress_eq_some {address addr : Multiaddr} (h : cleanAddress address = some addr) :
    addr = normalizeAddress address := by
  unfold cleanAddress at h
  dsimp only at h
  split at h
  · cases h
  · split at h
    · cases h
    · exact (Option.some.inj h).symm

/-- The addresses of a node that it shares, without its identity. -/
def DialableAt (externalAddresses : List Text) (addr : Multiaddr) : Prop :=
  ∃ text ∈ externalAddresses, ∃ address, parseMultiaddr text = some address ∧ cleanAddress address = some addr

theorem mem_shareableAddresses [LawfulMultiaddrLib] {externalAddresses : List Text} {sharer : PeerId} {text : Text} :
    text ∈ shareableAddresses externalAddresses (peerIdText sharer) ↔
      ∃ addr, DialableAt externalAddresses addr ∧ text = multiaddrText (addr ++ [.p2p sharer]) := by
  simp only [shareableAddresses, LawfulMultiaddrLib.parsePeerId_text, List.mem_filterMap]
  constructor
  · intro h
    obtain ⟨t, ht, hshared⟩ := h
    cases hparse : parseMultiaddr t with
    | none => rw [hparse] at hshared; cases hshared
    | some address =>
        rw [hparse] at hshared
        obtain ⟨addr, hclean, rfl⟩ := Option.map_eq_some_iff.mp hshared
        exact ⟨addr, ⟨t, ht, address, hparse, hclean⟩, rfl⟩
  · intro h
    obtain ⟨addr, ⟨t, ht, address, hparse, hclean⟩, rfl⟩ := h
    refine ⟨t, ht, ?_⟩
    rw [hparse]
    dsimp only
    rw [hclean]
    rfl

theorem parse_shareable [LawfulMultiaddrLib] {externalAddresses : List Text} {addr : Multiaddr}
    (h : DialableAt externalAddresses addr) (sharer : PeerId) :
    parseMultiaddr (multiaddrText (addr ++ [.p2p sharer])) = some (addr ++ [.p2p sharer]) := by
  obtain ⟨t, -, address, hparse, hclean⟩ := h
  obtain rfl := cleanAddress_eq_some hclean
  exact LawfulMultiaddrLib.parse_with_peer t address sharer hparse

/-! ### Calls -/

theorem mem_bootstrap {dialled : Text → Bool} {peers : List Text} {call : BootstrapCall} (h : call ≠ .kadBootstrap) :
    call ∈ bootstrap dialled peers ↔
      ∃ text ∈ peers, ∃ address, parseMultiaddr text = some address ∧ call ∈ bootstrapAddress address := by
  have hcalls : call ∈ bootstrap dialled peers ↔ call ∈ (peers.filterMap parseMultiaddr).flatMap bootstrapAddress := by
    unfold bootstrap
    dsimp only
    split
    · rw [List.mem_append, List.mem_singleton, or_iff_left h]
    · rfl
  rw [hcalls, List.mem_flatMap]
  simp only [List.mem_filterMap]
  constructor
  · intro h
    obtain ⟨address, ⟨text, htext, hparse⟩, hcall⟩ := h
    exact ⟨text, htext, address, hparse, hcall⟩
  · intro h
    obtain ⟨text, htext, address, hparse, hcall⟩ := h
    exact ⟨address, ⟨text, htext, hparse⟩, hcall⟩

omit [MultiaddrLib] in
theorem bootstrapAddress_with_peer (addr : Multiaddr) (peer : PeerId) :
    bootstrapAddress (addr ++ [.p2p peer]) = [.addAddress peer addr, .dial (addr ++ [.p2p peer])] := by
  simp [bootstrapAddress, kadPeerAddress]

/-! ### Main result -/

theorem invalidMultiaddrs_eq_nil [MultiaddrErrors] {values : List Text}
    (h : ∀ value ∈ values, (parseMultiaddr value).isSome = true) : invalidMultiaddrs values = [] := by
  refine List.filterMap_eq_nil_iff.mpr fun value hvalue => ?_
  obtain ⟨addr, haddr⟩ := Option.isSome_iff_exists.mp (h value hvalue)
  rw [haddr]

theorem bootstrapPeersWithoutPeerId_eq_nil {values : List Text}
    (h : ∀ value ∈ values, ∃ addr peer, parseMultiaddr value = some (addr ++ [.p2p peer])) :
    bootstrapPeersWithoutPeerId values = [] := by
  refine List.filterMap_eq_nil_iff.mpr fun value hvalue => ?_
  obtain ⟨addr, peer, hparse⟩ := h value hvalue
  rw [hparse]
  simp

theorem mem_bootstrapPeerIds {addrs : List Text} {peer : PeerId} :
    peer ∈ ProviderProbe.bootstrapPeerIds addrs ↔ ∃ text ∈ addrs, ProviderProbe.bootstrapPeerId text = some peer := by
  rw [ProviderProbe.bootstrapPeerIds, ProviderProbe.mergePeers, mem_foldl_addProvider, List.append_nil,
    List.mem_filterMap]
  exact or_iff_right List.not_mem_nil

/-- What a node shares and what another one makes of it. -/
structure Invited (sharer : PeerId) (externalAddresses : List Text) (config : PeerConfig) : Prop where
  /-- Its addresses become known and are dialled. -/
  dialled : ∀ localIps store dials addr, DialableAt externalAddresses addr →
    .addAddress sharer addr ∈ bootstrap dials (startPeers config localIps store) ∧
      .dial (addr ++ [.p2p sharer]) ∈ bootstrap dials (startPeers config localIps store)
  /-- It is asked for NARs that have too few providers. -/
  candidate : ∀ world : P2pWorld, world.bootstrap = ProviderProbe.bootstrapPeerIds config.bootstrapPeers →
    ∀ addr, DialableAt externalAddresses addr → sharer ∈ fallbackPeerCandidates world

/-- **What a node shares, another one can use.** Let the addresses that a node prints be plain texts, and
let another node read the printed line as its config file, with any bootstrap peers on its command line
besides. Its bootstrap peers are those addresses and the others; at its start it dials the sharer at
every address under which it can be dialled, whatever its peer store has; and the sharer is a candidate for
downloads. With nothing else configured and nothing remembered it dials nobody else, and its diagnostics
do not complain. -/
theorem share_info_accepted [ConfigFormat] [LawfulConfigFormat] [LawfulMultiaddrLib] [MultiaddrErrors]
    (shared : PeerConfig) (sharer : PeerId) (cliBootstrap : Option Text)
    (hplain : ∀ address ∈ (bootstrapBundle shared (peerIdText sharer)).bootstrapPeers, PlainText address) :
    let bundle := bootstrapBundle shared (peerIdText sharer)
    let config := fun cli => PeerConfig.loadFromFile (loadConfigFile (some bundle.configSnippet)) cli none
    (config cliBootstrap).bootstrapPeers =
        dedupStrings (bundle.bootstrapPeers ++ (cliBootstrap.map splitCsv).getD []) ∧
      Invited sharer shared.externalAddresses (config cliBootstrap) ∧
      (∀ localIps dials address, .dial address ∈ bootstrap dials (startPeers (config none) localIps none) →
        ∃ addr, DialableAt shared.externalAddresses addr ∧ address = addr ++ [.p2p sharer]) ∧
      (bundle.bootstrapPeers ≠ [] → (bootstrapPeersCheck (config none).bootstrapPeers).severity = .ok) := by
  intro bundle config
  have hpeers : ∀ cli, (config cli).bootstrapPeers =
      dedupStrings (bundle.bootstrapPeers ++ (cli.map splitCsv).getD []) := fun cli =>
    bootstrapPeers_of_snippet hplain cli none
  have hshared : ∀ {text : Text}, text ∈ bundle.bootstrapPeers ↔
      ∃ addr, DialableAt shared.externalAddresses addr ∧ text = multiaddrText (addr ++ [.p2p sharer]) :=
    mem_shareableAddresses
  have hmem : ∀ cli addr, DialableAt shared.externalAddresses addr →
      multiaddrText (addr ++ [.p2p sharer]) ∈ (config cli).bootstrapPeers := by
    intro cli addr haddr
    rw [hpeers, mem_dedupStrings, List.mem_append]
    exact Or.inl (hshared.mpr ⟨addr, haddr, rfl⟩)
  have honly : ∀ text ∈ (config none).bootstrapPeers,
      ∃ addr, DialableAt shared.externalAddresses addr ∧ parseMultiaddr text = some (addr ++ [.p2p sharer]) := by
    intro text htext
    rw [hpeers, mem_dedupStrings, Option.map_none, Option.getD_none, List.append_nil] at htext
    obtain ⟨addr, haddr, rfl⟩ := hshared.mp htext
    exact ⟨addr, haddr, parse_shareable haddr sharer⟩
  refine ⟨hpeers cliBootstrap, ⟨?_, ?_⟩, ?_, ?_⟩
  · intro localIps store dials addr haddr
    have hstart : multiaddrText (addr ++ [.p2p sharer]) ∈ startPeers (config cliBootstrap) localIps store := by
      cases store with
      | none => exact hmem _ addr haddr
      | some store => exact mem_dedupStrings.mpr (List.mem_append_left _ (hmem _ addr haddr))
    have hparse := parse_shareable haddr sharer
    have hcalls := bootstrapAddress_with_peer addr sharer
    exact ⟨(mem_bootstrap (by simp)).mpr ⟨_, hstart, _, hparse, by rw [hcalls]; exact List.mem_cons_self⟩,
      (mem_bootstrap (by simp)).mpr ⟨_, hstart, _, hparse, by rw [hcalls]; simp⟩⟩
  · intro world hworld addr haddr
    have hpeer : sharer ∈ world.bootstrap := by
      rw [hworld, mem_bootstrapPeerIds]
      refine ⟨_, hmem _ addr haddr, ?_⟩
      rw [ProviderProbe.bootstrapPeerId, parse_shareable haddr sharer]
      simp
    exact List.mem_eraseDups.mpr (List.mem_append_right _ hpeer)
  · intro localIps dials address hdial
    obtain ⟨text, htext, addr', hparse', hcall⟩ := (mem_bootstrap (by simp)).mp hdial
    obtain ⟨addr, haddr, hparse⟩ := honly text htext
    obtain rfl := Option.some.inj (hparse'.symm.trans hparse)
    rw [bootstrapAddress_with_peer] at hcall
    exact ⟨addr, haddr, by simpa using hcall⟩
  · intro hne
    have hnonempty : (config none).bootstrapPeers ≠ [] := by
      obtain ⟨text, htext⟩ := List.exists_mem_of_ne_nil _ hne
      obtain ⟨addr, haddr, -⟩ := hshared.mp htext
      exact List.ne_nil_of_mem (hmem none addr haddr)
    have hvalid : invalidMultiaddrs (config none).bootstrapPeers = [] := by
      refine invalidMultiaddrs_eq_nil fun text htext => ?_
      obtain ⟨addr, -, hparse⟩ := honly text htext
      rw [hparse]
      rfl
    have hcomplete : bootstrapPeersWithoutPeerId (config none).bootstrapPeers = [] :=
      bootstrapPeersWithoutPeerId_eq_nil fun text htext => by
        obtain ⟨addr, -, hparse⟩ := honly text htext
        exact ⟨addr, sharer, hparse⟩
    simp only [bootstrapPeersCheck, hvalid, hcomplete, hnonempty, ne_eq, not_true_eq_false, not_false_eq_true,
      if_true, if_false]

end

/-! ### A node that is dialled -/

/-- Peer identities, with a text for the identity of no bytes that is its own. -/
def samplePeerText (peer : PeerId) : Text :=
  if peer = emptyPeer then "11".toList else 'x' :: Hex.encode peer.multihash

def sampleParsePeer (t : Text) : Option PeerId :=
  if t = "11".toList then some emptyPeer else (Hex.decode t.tail).map PeerId.mk

theorem sampleParsePeer_text (peer : PeerId) : sampleParsePeer (samplePeerText peer) = some peer := by
  unfold samplePeerText
  split
  next heq =>
    rw [heq]
    rfl
  next =>
    have hne : 'x' :: Hex.encode peer.multihash ≠ "11".toList := by
      intro h
      have hhead := congrArg List.head? h
      rw [List.head?_cons] at hhead
      exact absurd hhead (by decide +kernel)
    have hdecode : Hex.decode (Hex.encode peer.multihash) = some peer.multihash := by
      rw [Hex.decode_eq_some_iff, Hex.encode_eq_map, List.map_map]
      exact List.map_congr_left fun n hn => Hex.digitValue_digit (Hex.lt_of_mem_digits hn)
    rw [sampleParsePeer, if_neg hne, List.tail_cons, hdecode]
    rfl

def sampleParseAddress (t : Text) : Option Multiaddr :=
  if t = "/ip4/192.0.2.1".toList then some firstAddress
  else (t.dropPrefix? "/ip4/192.0.2.1/p2p/".toList).bind fun rest =>
    (sampleParsePeer rest).map fun peer => firstAddress ++ [.p2p peer]

def sampleAddressText (address : Multiaddr) : Text :=
  match kadPeerAddress address with
  | none => "/ip4/192.0.2.1".toList
  | some (peer, _) => "/ip4/192.0.2.1/p2p/".toList ++ samplePeerText peer

/-- The library on one host, with or without a peer identity. -/
@[reducible] def sampleShareLib : MultiaddrLib := ⟨sampleParseAddress, sampleAddressText, sampleParsePeer, samplePeerText⟩

theorem normalize_sampleParseAddress {t : Text} {address : Multiaddr} (h : sampleParseAddress t = some address) :
    normalizeAddress address = firstAddress := by
  unfold sampleParseAddress at h
  split at h
  next =>
    obtain rfl := Option.some.inj h
    rfl
  next =>
    obtain ⟨rest, -, h⟩ := Option.bind_eq_some_iff.mp h
    obtain ⟨peer, -, rfl⟩ := Option.map_eq_some_iff.mp h
    rfl

theorem sampleParseAddress_text (peer : PeerId) :
    sampleParseAddress (sampleAddressText (firstAddress ++ [.p2p peer])) = some (firstAddress ++ [.p2p peer]) := by
  have htext : sampleAddressText (firstAddress ++ [.p2p peer]) =
      "/ip4/192.0.2.1/p2p/".toList ++ samplePeerText peer := rfl
  have hne : "/ip4/192.0.2.1/p2p/".toList ++ samplePeerText peer ≠ "/ip4/192.0.2.1".toList := by
    intro h
    have hlength := congrArg List.length h
    rw [List.length_append] at hlength
    have hlong : "/ip4/192.0.2.1/p2p/".toList.length = "/ip4/192.0.2.1".toList.length + 5 := by decide +kernel
    omega
  rw [htext, sampleParseAddress, if_neg hne, Text.dropPrefix?_append_self, Option.bind_some, sampleParsePeer_text]
  rfl

theorem lawful_sampleShareLib : @LawfulMultiaddrLib sampleShareLib := by
  refine @LawfulMultiaddrLib.mk sampleShareLib sampleParsePeer_text fun t address peer hparse => ?_
  rw [normalize_sampleParseAddress hparse]
  exact sampleParseAddress_text peer

def sampleFromStr (t : Text) : Option ConfigFile :=
  if t.head? = some '#' then some .default
  else (t.dropPrefix? "bootstrap_peers = \"".toList).map fun rest =>
    { ConfigFile.default with bootstrapPeers := some rest.dropLast }

@[reducible] def sampleConfigFormat : ConfigFormat := ⟨sampleFromStr⟩

theorem sampleFromStr_snippet (value : Text) :
    sampleFromStr ("bootstrap_peers = \"".toList ++ value ++ ['"']) =
      some { ConfigFile.default with bootstrapPeers := some value } := by
  have hhead : ("bootstrap_peers = \"".toList ++ value ++ ['"']).head? ≠ some '#' := by
    have hfirst : "bootstrap_peers = \"".toList.head? = some 'b' := by decide +kernel
    rw [List.append_assoc, List.head?_append, hfirst, Option.some_or]
    decide
  rw [sampleFromStr, if_neg hhead, List.append_assoc, Text.dropPrefix?_append_self, Option.map_some,
    List.dropLast_concat]

theorem lawful_sampleConfigFormat : @LawfulConfigFormat sampleConfigFormat :=
  @LawfulConfigFormat.mk sampleConfigFormat (fun _ _ => rfl) fun value _ => sampleFromStr_snippet value

@[reducible] def sampleMultiaddrErrors : MultiaddrErrors := ⟨fun _ => "invalid multiaddr".toList⟩

/-- A node with an external address. -/
def sampleSharer : PeerConfig := ⟨[], true, 100, ["/ip4/192.0.2.1".toList]⟩

def sampleBundle : BootstrapBundle := @bootstrapBundle sampleShareLib sampleSharer (samplePeerText emptyPeer)

theorem share_info_accepted_sample :
    @Invited sampleShareLib emptyPeer ["/ip4/192.0.2.1".toList]
      (PeerConfig.loadFromFile (@loadConfigFile sampleConfigFormat (some sampleBundle.configSnippet)) none none) := by
  have hbundle : sampleBundle.bootstrapPeers = ["/ip4/192.0.2.1/p2p/11".toList] := by
    decide +kernel
  have hall : "/ip4/192.0.2.1/p2p/11".toList.all
      (fun c => decide (0x20 < c.toNat ∧ c.toNat < 0x7f ∧ c ≠ ',' ∧ c ≠ '"' ∧ c ≠ '\\')) = true := by
    decide +kernel
  have hplain : ∀ address ∈ sampleBundle.bootstrapPeers, PlainText address := by
    intro address haddress
    rw [hbundle, List.mem_singleton] at haddress
    subst haddress
    exact ⟨by decide +kernel, fun c hc => of_decide_eq_true (List.all_eq_true.mp hall c hc)⟩
  exact (@share_info_accepted sampleShareLib sampleConfigFormat lawful_sampleConfigFormat lawful_sampleShareLib
    sampleMultiaddrErrors sampleSharer emptyPeer none hplain).2.1

end GuixP2p
