import GuixP2p.Daemon.Liveness
import GuixP2p.Dashboard.Removal
import GuixP2p.Dht.Discovery
import GuixP2p.NarStore.FailedSave

/-!
# GuixP2p.Daemon.Announcements

**Every seed can be found.** A node announces its seeds in the DHT when it starts and whenever a peer
connects; in between, whoever puts a NAR into the store has the swarm task announce it, and the health
monitor has it announce again what too few peers are known for. `SeedingNode` has these parts beside
the commands that wait for the swarm task.

A seed can miss its announcement: a save whose sidecar cannot be written puts the NAR into the index
and reports an error (`SeedingNode.Announces` excludes just that). The next connection makes up for it.
-/

namespace GuixP2p

open GuixP2p.Lib ProviderProbe

/-- The command among the effects of a request. -/
def DashboardEffect.command : DashboardEffect → Option SwarmCommand
  | .startProviding hash => some (.startProviding hash)
  | _ => none

/-- A node with its seeds, what it knows of the DHT, the commands that wait for the swarm task, the
seeds that the health monitor is looking up, and the keys that the Kademlia crate has taken. -/
structure SeedingNode where
  seeds : SeedRun
  discovery : Discovery
  commands : List SwarmCommand
  checked : List Text
  announced : List RecordKey

/-- What happens to a node; `started` is what the Kademlia crate returns for an announcement. -/
inductive SeedingEvent
  /-- The store is changed, or the daemon is restarted, which announces all seeds. -/
  | store (e : SeedEvent) (started : Text → Except Text Unit)
  | dht (e : DiscoveryEvent)
  /-- A round of the health monitor, and its end three seconds later. -/
  | tick
  | check
  /-- A peer connects. -/
  | connected (started : Text → Except Text Unit)
  /-- A download looks for providers. -/
  | lookup (key : Digest)
  | request (peer : PeerId) (request : BlockRequest)
  /-- The swarm task takes a command. -/
  | command (id : QueryId) (started : Except Text Unit)

section

variable [Sha256] [MetadataFormat] [TomlLib] (nars : Text → Bytes)

/-- What a change of the store has the swarm task announce. -/
def SeedRun.commands (s : SeedRun) : SeedEvent → List SwarmCommand
  | .seed world requested => (apiSeed nars world requested s.dashboard).trace.filterMap DashboardEffect.command
  | .download world narData storePath =>
    if s.dashboard.disk.store.hasNar (hashHex narData) then []
    else
      match (saveWithStorePath world (hashHex narData) narData (some storePath) s.dashboard.disk).result with
      | .ok true => [.startProviding (hashHex narData)]
      | _ => []
  | _ => []

/-- The sidecar of a hash can be written. -/
def SeedRun.SidecarWritten (s : SeedRun) (h : Text) (outcome : WriteOutcome) : Prop :=
  s.dashboard.disk.files (s.dashboard.disk.store.metadataPath h) ≠ some .dir ∧ outcome = .done

/-- A change of the store that fails neither between the index and the sidecar nor at the channel. -/
def SeedRun.Announces (s : SeedRun) : SeedEvent → Prop
  | .seed world requested =>
    world.announced = true ∧ s.SidecarWritten (hashHex (nars (Text.trim requested))) world.guix.save.sidecar
  | .download world narData _ => s.SidecarWritten (hashHex narData) world.sidecar
  | _ => True

namespace SeedingNode

/-- Announce the seeds of a store that was opened. -/
def announceAtStart (seeds : SeedRun) (started : Text → Except Text Unit) : SeedingNode where
  seeds := seeds
  discovery := .new
  commands := []
  checked := []
  announced := seeds.dashboard.disk.store.seededHashes.filterMap fun hash =>
    match started hash with
    | .ok () => DhtTask.announceKey hash
    | .error _ => none

def dhtTask (s : SeedingNode) : DhtTask := ⟨s.discovery.cache, s.discovery.activeProviderQueries⟩

def announceSeededNars (s : SeedingNode) (reason : Text) (started : Text → Except Text Unit) : SeedingNode :=
  { s with
    announced := s.announced ++ s.seeds.dashboard.disk.store.seededHashes.flatMap fun hash =>
      (s.dhtTask.announceNar hash reason (started hash)).announced }

def handleSwarmCommand (s : SeedingNode) (id : QueryId) (started : Except Text Unit) :
    SwarmCommand → Except Panic SeedingNode
  | .getProviders hash =>
    match s.dhtTask.getProviders id hash with
    | .error p => .error p
    | .ok lookup =>
      .ok { s with discovery :=
        { s.discovery with activeProviderQueries := lookup.task.activeProviderQueries } }
  | .sendBlockRequest _ _ => .ok s
  | .startProviding hash =>
    .ok { s with announced :=
      s.announced ++ (s.dhtTask.announceNar hash "post-download".toList started).announced }

/-- The number of providers that the health monitor finds in the cache. -/
def providerCount (s : SeedingNode) (hash : Text) : Nat := ((s.discovery.cache.lookup hash).map List.length).getD 0

/-- The seeds that the health monitor has announced again. -/
def reannounced (cfg : Config) (s : SeedingNode) : List Text :=
  s.checked.filter fun hash => decide (s.providerCount hash < cfg.minProviders)

def step (cfg : Config) (s : SeedingNode) : SeedingEvent → Except Panic SeedingNode
  | .store (.restart world) started =>
    .ok (announceAtStart { s.seeds with dashboard := s.seeds.dashboard.restart nars world } started)
  | .store e _ =>
    match s.seeds.step nars e with
    | .error p => .error p
    | .ok seeds => .ok { s with seeds, commands := s.commands ++ s.seeds.commands nars e }
  | .dht e => .ok { s with discovery := s.discovery.step e }
  | .tick =>
    -- a round without seeds sends nothing and checks nothing
    let hashes := s.seeds.dashboard.disk.store.seededHashes
    .ok { s with commands := s.commands ++ hashes.map .getProviders, checked := hashes }
  | .check =>
    .ok { s with commands := s.commands ++ (s.reannounced cfg).map .startProviding, checked := [] }
  | .connected started => .ok (s.announceSeededNars "peer-connected".toList started)
  | .lookup key => .ok { s with commands := s.commands ++ [.getProviders (Hex.encode key.toList)] }
  | .request peer request => .ok { s with commands := s.commands ++ [.sendBlockRequest peer request] }
  | .command id started =>
    match s.commands with
    | [] => .ok s
    | c :: commands => handleSwarmCommand { s with commands } id started c

/-- A node that was started. -/
def start (world : StartWorld) (started : Text → Except Text Unit) (dashboard : Dashboard) : SeedingNode :=
  announceAtStart (.start nars world dashboard) started

/-- The node has the NAR of the hash. -/
def Seeds (s : SeedingNode) (h : Text) : Prop := s.seeds.dashboard.disk.store.hasNar h = true

instance (s : SeedingNode) (h : Text) : Decidable (s.Seeds h) := inferInstanceAs (Decidable (_ = true))

def Announced (s : SeedingNode) (h : Text) : Prop := ∃ key, DhtTask.announceKey h = some key ∧ key ∈ s.announced

/-- **Invariant.** What the node has is announced, or about to be. -/
def Tracked (s : SeedingNode) : Prop := ∀ h, s.Seeds h → s.Announced h ∨ .startProviding h ∈ s.commands

/-- Steps at which no seed misses its announcement. -/
def Announces (s : SeedingNode) : SeedingEvent → Prop
  | .store (.restart _) started => ∀ h, started h = .ok ()
  | .store e _ => s.seeds.Announces nars e
  | .command _ started => started = .ok ()
  | _ => True

end SeedingNode

/-- All seeds are announced, and the Kademlia crate takes it. -/
def SeedingEvent.AnnouncesAll : SeedingEvent → Prop
  | .store (.restart _) started => ∀ h, started h = .ok ()
  | .connected started => ∀ h, started h = .ok ()
  | _ => False

/-! ### What enters the store is announced -/

section

variable {nars} {disk : NarDisk} {h : Text}

omit [Sha256] [TomlLib] in
/-- A save that puts a hash into the index succeeds, if its sidecar can be written. -/
theorem result_saveWithSource_of_indexed {h' : Text} {world : SaveWorld} {narData : Bytes} {storePath : Option Text}
    {source : SeedSource}
    (hsidecar : disk.files (disk.store.metadataPath h) ≠ some .dir ∧ world.sidecar = .done)
    (hfree : disk.store.hasNar h' = false)
    (hhas : (saveWithSource world h narData storePath source disk).state.store.hasNar h' = true) :
    h' = h ∧ (saveWithSource world h narData storePath source disk).result = .ok true := by
  have hh : h' = h := by
    by_contra hne
    rw [(NarDisk.sameNar_saveWithSource hne world narData storePath source).indexed, hfree] at hhas
    cases hhas
  refine ⟨hh, ?_⟩
  rw [state_saveWithSource] at hhas
  rw [NarDisk.result_saveWithSource]
  split at hhas
  next hwritten =>
    rw [if_pos hwritten]
    split at hhas
    next hb =>
      have hdir : (disk.writeNar h narData world.nar).files (disk.store.metadataPath h) ≠ some .dir :=
        FileSystem.write_ne_dir hsidecar.1 _ _
      rw [dif_pos hb, hsidecar.2, FileSystem.write_done hdir]
    next => exact absurd (hfree.symm.trans hhas) (by decide)
  next => exact absurd (hfree.symm.trans hhas) (by decide)

omit [Sha256] [TomlLib] in
/-- A store path whose NAR is new is seeded, if its sidecar can be written. -/
theorem result_seedStorePath_of_indexed {h' : Text} {world : SeedWorld} {storePath : Text}
    (hhash : ∀ h'', world.narHashHex = some h'' → h'' = h)
    (hsidecar : disk.files (disk.store.metadataPath h) ≠ some .dir ∧ world.save.sidecar = .done)
    (hfree : disk.store.hasNar h' = false)
    (hhas : (seedStorePath world storePath disk).state.store.hasNar h' = true) :
    h' = h ∧ (seedStorePath world storePath disk).result = .ok (some h) := by
  rcases @state_seedStorePath _ disk world storePath with
    heq | ⟨h'', entry, -, hentry, heq⟩ | ⟨h'', narData, hh, hexported, hlookup, heq⟩ <;> rw [heq] at hhas
  · exact absurd (hfree.symm.trans hhas) (by decide)
  · rw [(NarDisk.sameNar_writeSidecar _ h' h'' _ _).indexed, (NarDisk.sameNar_modifyEntry disk h' h'' _).indexed,
      hfree] at hhas
    cases hhas
  · obtain rfl := hhash h'' hh
    obtain ⟨rfl, hresult⟩ := result_saveWithSource_of_indexed hsidecar hfree hhas
    refine ⟨rfl, ?_⟩
    rw [seedStorePath_of_free hh hlookup, hexported]
    show (Action.bind (saveWithSource _ _ _ _ _) _ disk).result = _
    simp only [Action.bind, hresult]
    rfl

omit [Sha256] [MetadataFormat] in
theorem mem_trace_completeSeedMutation {world : SeedRequestWorld} (hannounced : world.announced = true)
    (storePath : Text) (narSize : UInt64) (dashboard : Dashboard) :
    .startProviding h ∈ (completeSeedMutation world storePath h narSize dashboard).trace := by
  unfold completeSeedMutation
  rw [if_pos hannounced]
  exact Action.mem_trace_bind_left List.mem_cons_self

/-- A seed request announces the NAR that it puts into the store. -/
theorem mem_trace_apiSeed {dashboard : Dashboard} {world : SeedRequestWorld} {requested : Text}
    (hannounced : world.announced = true)
    (hsidecar : dashboard.disk.files (dashboard.disk.store.metadataPath (hashHex (nars (Text.trim requested)))) ≠ some .dir ∧
      world.guix.save.sidecar = .done)
    (hfree : dashboard.disk.store.hasNar h = false)
    (hhas : (apiSeed nars world requested dashboard).state.disk.store.hasNar h = true) :
    .startProviding h ∈ (apiSeed nars world requested dashboard).trace := by
  have hhash : ∀ h'', (world.guix.seedWorld nars (Text.trim requested)).narHashHex = some h'' →
      h'' = hashHex (nars (Text.trim requested)) := by
    intro h'' hh
    simp only [GuixWorld.seedWorld] at hh
    split at hh
    · exact (Option.some.inj hh).symm
    · cases hh
  have hseeded := @state_apiSeed _ _ _ nars dashboard world requested _ rfl
  rcases hseeded with heq | ⟨hdisk, -⟩
  · rw [heq] at hhas
    exact absurd (hfree.symm.trans hhas) (by decide)
  have hhas' := hhas
  rw [hdisk] at hhas'
  obtain ⟨rfl, hresult⟩ := result_seedStorePath_of_indexed hhash hsidecar hfree hhas'
  have hrun : apiSeed nars world requested dashboard = Action.bind Action.get (fun dashboard => _) dashboard := rfl
  rw [hrun] at hhas ⊢
  simp only [Action.bind, Action.get] at hhas ⊢
  split at hhas
  · exact absurd (hfree.symm.trans hhas) (by decide)
  next hallowed =>
  rw [if_neg hallowed]
  split at hhas
  · exact absurd (hfree.symm.trans hhas) (by decide)
  next hprefix =>
  rw [if_neg hprefix]
  split at hhas
  · exact absurd (hfree.symm.trans hhas) (by decide)
  next hexists =>
  rw [if_neg hexists, Action.bind_of_ok rfl]
  dsimp only [Action.set]
  rw [hresult]
  dsimp only
  obtain ⟨entry, hentry⟩ := Option.isSome_iff_exists.mp hhas'
  rw [NarStore.seedInfo, hentry]
  exact List.mem_append_right _ (Action.mem_trace_bind_left (mem_trace_completeSeedMutation hannounced _ _ _))

omit [Sha256] [MetadataFormat] [TomlLib] in
theorem hasNar_of_removeSeed {h' : Text} {world : RemoveWorld}
    (hhas : (removeSeed h' world disk).state.store.hasNar h = true) : disk.store.hasNar h = true := by
  rw [state_removeSeed] at hhas
  cases hentry : disk.store.index.lookup h' with
  | none => rwa [hentry] at hhas
  | some entry =>
      rw [hentry] at hhas
      obtain ⟨entry', hentry'⟩ := Option.isSome_iff_exists.mp hhas
      exact Option.isSome_iff_exists.mpr ⟨entry', (NarDisk.of_lookup_eraseEntry hentry').2⟩

/-- **Step lemma.** A change of the store announces the NAR that it puts there. -/
theorem announced_of_step {s s' : SeedRun} {e : SeedEvent} (hstep : s.step nars e = .ok s')
    (hrestart : ∀ world, e ≠ .restart world) (hguard : s.Announces nars e)
    (hhas : s'.dashboard.disk.store.hasNar h = true) :
    s.dashboard.disk.store.hasNar h = true ∨ .startProviding h ∈ s.commands nars e := by
  rw [or_iff_not_imp_left, Bool.not_eq_true]
  intro hfree
  cases e with
  | seed world requested =>
      obtain rfl := Except.ok.inj hstep
      exact List.mem_filterMap.mpr ⟨_, mem_trace_apiSeed hguard.1 hguard.2 hfree hhas, rfl⟩
  | delete world h' =>
      obtain rfl := Except.ok.inj hstep
      cases hallowed : s.dashboard.seedMutationAllowed with
      | false =>
          rw [apiSeedDelete_of_forbidden hallowed] at hhas
          exact absurd (hfree.symm.trans hhas) (by decide)
      | true =>
          rw [apiSeedDelete_eq hallowed] at hhas
          exact absurd (hfree.symm.trans (hasNar_of_removeSeed hhas)) (by decide)
  | download world narData storePath =>
      obtain rfl := Except.ok.inj hstep
      have hrun : (StoreOp.autoSeed world narData storePath).action s.dashboard.disk =
          Action.bind Action.get (fun disk => _) s.dashboard.disk := rfl
      dsimp only at hhas
      rw [hrun] at hhas
      simp only [Action.bind, Action.get] at hhas
      split at hhas
      · exact absurd (hfree.symm.trans hhas) (by decide)
      next hnew =>
        rw [Action.state_discard] at hhas
        obtain ⟨rfl, hresult⟩ := result_saveWithSource_of_indexed hguard hfree hhas
        have hsaved : (saveWithStorePath world (hashHex narData) narData (some storePath) s.dashboard.disk).result =
          .ok true := hresult
        simp [SeedRun.commands, if_neg hnew, hsaved]
  | annotate world h' storePath =>
      obtain rfl := Except.ok.inj hstep
      have hsame := NarDisk.sameNar_annotateEntry s.dashboard.disk h h' storePath world
      exact absurd (hfree.symm.trans (hsame.indexed.symm.trans hhas)) (by decide)
  | restart world => exact absurd rfl (hrestart world)

/-! ### Runs -/

omit [Sha256] [MetadataFormat] [TomlLib] in
/-- A store key is looked up under its digest. -/
theorem extractHashBytes_encode (d : Digest) : extractHashBytes (Hex.encode d.toList) = .ok d := by
  refine extractHashBytes_of_spellsHex ?_
  rw [hashText_of_no_colon (colon_not_mem_of_spellsHex (spellsHex_encode d))]
  exact spellsHex_encode d

omit [Sha256] [MetadataFormat] [TomlLib] in
theorem announceKey_encode (d : Digest) : DhtTask.announceKey (Hex.encode d.toList) = some d.toList :=
  Hex.decode_eq_some_iff.mpr (spellsHex_encode d)

omit [Sha256] [MetadataFormat] [TomlLib] in
theorem mem_seededHashes {store : NarStore} : h ∈ store.seededHashes ↔ store.hasNar h = true := by
  rw [NarStore.hasNar, AList.lookup_isSome]
  rfl

namespace SeedingNode

variable {cfg : Config} {s s' : SeedingNode} {e : SeedingEvent}

/-- **Invariant.** The index is intact, and what is looked up are store keys. -/
structure Sound (s : SeedingNode) : Prop where
  intact : s.seeds.dashboard.disk.Intact
  lookups : ∀ hash, .getProviders hash ∈ s.commands → ∃ d : Digest, hash = Hex.encode d.toList

omit [MetadataFormat] [TomlLib] in
/-- What an intact node has is called after its digest. -/
theorem Sound.digest (hsound : s.Sound) (hseeds : s.Seeds h) : ∃ d : Digest, h = Hex.encode d.toList := by
  obtain ⟨entry, hentry⟩ := Option.isSome_iff_exists.mp hseeds
  obtain ⟨-, bytes, -, rfl, -⟩ := hsound.intact h entry hentry
  exact ⟨_, rfl⟩

omit [MetadataFormat] [TomlLib] in
theorem sound_announceAtStart {seeds : SeedRun} (hintact : seeds.dashboard.disk.Intact)
    (started : Text → Except Text Unit) : (announceAtStart seeds started).Sound :=
  ⟨hintact, fun _ hmem => absurd hmem List.not_mem_nil⟩

omit [MetadataFormat] [TomlLib] in
/-- More commands, of which the lookups are of store keys. -/
theorem Sound.extend (hsound : s.Sound) {extra : List SwarmCommand}
    (hextra : ∀ hash, .getProviders hash ∈ extra → ∃ d : Digest, hash = Hex.encode d.toList)
    {seeds : SeedRun} (hintact : seeds.dashboard.disk.Intact) (discovery : Discovery) (checked : List Text)
    (announced : List RecordKey) : Sound ⟨seeds, discovery, s.commands ++ extra, checked, announced⟩ := by
  refine ⟨hintact, fun hash hmem => ?_⟩
  rcases List.mem_append.mp hmem with hmem | hmem
  · exact hsound.lookups hash hmem
  · exact hextra hash hmem

/-- A change of the store looks nothing up. -/
theorem startProviding_of_mem_commands {s : SeedRun} {e : SeedEvent} {c : SwarmCommand}
    (hc : c ∈ s.commands nars e) : ∃ h, c = .startProviding h := by
  cases e with
  | seed world requested =>
      obtain ⟨effect, -, hcommand⟩ := List.mem_filterMap.mp hc
      cases effect with
      | startProviding h => exact ⟨h, (Option.some.inj hcommand).symm⟩
      | seedAdded narHash storePath narSize source => cases hcommand
      | seedRemoved narHash storePath => cases hcommand
  | download world narData storePath =>
      simp only [SeedRun.commands] at hc
      split at hc
      · cases hc
      · split at hc
        · exact ⟨_, List.mem_singleton.mp hc⟩
        · cases hc
  | delete world h => cases hc
  | annotate world h storePath => cases hc
  | restart world => cases hc

omit [Sha256] [MetadataFormat] [TomlLib] in
/-- **Spec of a command.** It leaves the store and the other commands alone, and takes back no key. -/
theorem handleSwarmCommand_ok (s : SeedingNode) (id : QueryId) (started : Except Text Unit) {c : SwarmCommand}
    (hkey : ∀ hash, c = .getProviders hash → ∃ d : Digest, hash = Hex.encode d.toList) :
    ∃ s', s.handleSwarmCommand id started c = .ok s' ∧ s'.seeds = s.seeds ∧ s'.commands = s.commands ∧
      s.announced ⊆ s'.announced ∧
      ∀ hash key, c = .startProviding hash → started = .ok () → DhtTask.announceKey hash = some key →
        key ∈ s'.announced := by
  cases c with
  | getProviders hash =>
      obtain ⟨d, rfl⟩ := hkey hash rfl
      have hrun : s.handleSwarmCommand id started (.getProviders (Hex.encode d.toList)) =
          .ok { s with discovery := { s.discovery with
            activeProviderQueries := s.discovery.activeProviderQueries.insert id (Hex.encode d.toList) } } := by
        simp only [handleSwarmCommand, DhtTask.getProviders, extractHashBytes_encode]
        rfl
      refine ⟨_, hrun, rfl, rfl, List.Subset.refl _, fun _ _ heq => ?_⟩
      cases heq
  | sendBlockRequest peer request =>
      refine ⟨s, rfl, rfl, rfl, List.Subset.refl _, fun _ _ heq => ?_⟩
      cases heq
  | startProviding hash =>
      refine ⟨_, rfl, rfl, rfl, List.subset_append_left _ _, fun hash' key heq hstarted hann => ?_⟩
      obtain rfl := SwarmCommand.startProviding.inj heq
      have hdecode : Hex.decode hash = some key := hann
      refine List.mem_append_right _ ?_
      rw [announced_announceNar, hstarted, hdecode]
      exact List.mem_singleton.mpr rfl

/-- A change of the store, and the announcements that it sends. -/
theorem step_store (nars : Text → Bytes) (cfg : Config) (s : SeedingNode) {e : SeedEvent}
    (hrestart : ∀ world, e ≠ .restart world) (started : Text → Except Text Unit) : ∃ seeds, s.seeds.step nars e = .ok seeds ∧
      s.step nars cfg (.store e started) = .ok { s with seeds, commands := s.commands ++ s.seeds.commands nars e } := by
  cases e with
  | seed world requested => exact ⟨_, rfl, rfl⟩
  | delete world h => exact ⟨_, rfl, rfl⟩
  | download world narData storePath => exact ⟨_, rfl, rfl⟩
  | annotate world h storePath => exact ⟨_, rfl, rfl⟩
  | restart world => exact absurd rfl (hrestart world)

/-- **Step lemma.** No command makes the swarm task panic. -/
theorem step_ok (nars : Text → Bytes) (cfg : Config) (hsound : s.Sound) (e : SeedingEvent) :
    ∃ s', s.step nars cfg e = .ok s' ∧ s'.Sound := by
  cases e with
  | store e started =>
      by_cases hrestart : ∃ world, e = .restart world
      · obtain ⟨world, rfl⟩ := hrestart
        exact ⟨_, rfl, sound_announceAtStart (intact_startStore _ world _) started⟩
      · obtain ⟨seeds, hseeds, hstep⟩ := step_store nars cfg s
          (fun world heq => hrestart ⟨world, heq⟩) started
        refine ⟨_, hstep, hsound.extend (fun hash hmem => ?_) (step_seed_intact hsound.intact hseeds) _ _ _⟩
        obtain ⟨h, heq⟩ := startProviding_of_mem_commands hmem
        cases heq
  | dht e => exact ⟨_, rfl, hsound.intact, hsound.lookups⟩
  | tick =>
      refine ⟨_, rfl, hsound.extend (fun hash hmem => ?_) hsound.intact _ _ _⟩
      obtain ⟨h, hh, heq⟩ := List.mem_map.mp hmem
      obtain rfl := SwarmCommand.getProviders.inj heq
      exact hsound.digest (mem_seededHashes.mp hh)
  | check =>
      refine ⟨_, rfl, hsound.extend (fun hash hmem => ?_) hsound.intact _ _ _⟩
      obtain ⟨h, -, heq⟩ := List.mem_map.mp hmem
      cases heq
  | connected started => exact ⟨_, rfl, hsound.intact, hsound.lookups⟩
  | lookup key =>
      refine ⟨_, rfl, hsound.extend (fun hash hmem => ?_) hsound.intact _ _ _⟩
      exact ⟨key, SwarmCommand.getProviders.inj (List.mem_singleton.mp hmem)⟩
  | request peer request =>
      refine ⟨_, rfl, hsound.extend (fun hash hmem => ?_) hsound.intact _ _ _⟩
      cases List.mem_singleton.mp hmem
  | command id started =>
      cases hcommands : s.commands with
      | nil => exact ⟨s, by simp [step, hcommands], hsound⟩
      | cons c commands =>
          have hmem : ∀ hash, .getProviders hash ∈ c :: commands → ∃ d : Digest, hash = Hex.encode d.toList :=
            hcommands ▸ hsound.lookups
          obtain ⟨s', hstep, hseeds, hrest, -⟩ := handleSwarmCommand_ok { s with commands } id started (c := c)
            fun hash hc => hmem hash (hc ▸ List.mem_cons_self)
          refine ⟨s', by simpa only [step, hcommands] using hstep, hseeds ▸ hsound.intact, fun hash hh => ?_⟩
          rw [hrest] at hh
          exact hmem hash (List.mem_cons_of_mem _ hh)

omit [MetadataFormat] [TomlLib] in
/-- What a node has after it has announced all its seeds is announced. -/
theorem tracked_of_announced {started : Text → Except Text Unit} (hstarted : ∀ h, started h = .ok ())
    (hsound : s.Sound)
    (hannounced : ∀ h key, s.Seeds h → started h = .ok () → DhtTask.announceKey h = some key → key ∈ s.announced) :
    s.Tracked := by
  intro h hseeds
  obtain ⟨d, rfl⟩ := hsound.digest hseeds
  exact Or.inl ⟨_, announceKey_encode d, hannounced _ _ hseeds (hstarted _) (announceKey_encode d)⟩

omit [MetadataFormat] [TomlLib] in
theorem tracked_announceAtStart {seeds : SeedRun} (hintact : seeds.dashboard.disk.Intact)
    {started : Text → Except Text Unit} (hstarted : ∀ h, started h = .ok ()) :
    (announceAtStart seeds started).Tracked := by
  refine tracked_of_announced hstarted (sound_announceAtStart hintact started) fun h key hseeds hok hkey => ?_
  refine List.mem_filterMap.mpr ⟨h, mem_seededHashes.mpr hseeds, ?_⟩
  rw [hok]
  exact hkey

omit [MetadataFormat] [TomlLib] in
/-- A connection makes up for every announcement that was missed. -/
theorem tracked_announceSeededNars (hsound : s.Sound) (reason : Text) {started : Text → Except Text Unit}
    (hstarted : ∀ h, started h = .ok ()) : (s.announceSeededNars reason started).Tracked := by
  refine tracked_of_announced hstarted ⟨hsound.intact, hsound.lookups⟩ fun h key hseeds hok hkey => ?_
  refine List.mem_append_right _ (List.mem_flatMap.mpr ⟨h, mem_seededHashes.mpr hseeds, ?_⟩)
  have hdecode : Hex.decode h = some key := hkey
  rw [announced_announceNar, hok, hdecode]
  exact List.mem_singleton.mpr rfl

omit [Sha256] [MetadataFormat] [TomlLib] in
theorem Tracked.mono (htracked : s.Tracked) (hseeds : ∀ h, s'.Seeds h → s.Seeds h ∨ .startProviding h ∈ s'.commands)
    (hannounced : s.announced ⊆ s'.announced) (hcommands : s.commands ⊆ s'.commands) : s'.Tracked := by
  intro h hh
  rcases hseeds h hh with hold | hnew
  · rcases htracked h hold with ⟨key, hkey, hmem⟩ | hqueued
    · exact Or.inl ⟨key, hkey, hannounced hmem⟩
    · exact Or.inr (hcommands hqueued)
  · exact Or.inr hnew

/-- **Step lemma.** -/
theorem Tracked.step (htracked : s.Tracked) (hsound : s.Sound) (hguard : s.Announces nars e)
    (hstep : s.step nars cfg e = .ok s') : s'.Tracked := by
  cases e with
  | store e started =>
      by_cases hrestart : ∃ world, e = .restart world
      · obtain ⟨world, rfl⟩ := hrestart
        obtain rfl := Except.ok.inj hstep
        exact tracked_announceAtStart (intact_startStore _ world _) hguard
      · obtain ⟨seeds, hseeds, hstored⟩ := step_store nars cfg s
          (fun world heq => hrestart ⟨world, heq⟩) started
        obtain rfl := Except.ok.inj (hstored.symm.trans hstep)
        refine htracked.mono (fun h hh => ?_) (List.Subset.refl _) (List.subset_append_left _ _)
        have hguard' : s.seeds.Announces nars e := by
          cases e with
          | restart world => exact absurd ⟨world, rfl⟩ hrestart
          | seed world requested => exact hguard
          | delete world h => exact hguard
          | download world narData storePath => exact hguard
          | annotate world h storePath => exact hguard
        exact (announced_of_step hseeds (fun world heq => hrestart ⟨world, heq⟩) hguard' hh).imp_right
          (List.mem_append_right _)
  | dht e =>
      obtain rfl := Except.ok.inj hstep
      exact htracked
  | tick =>
      obtain rfl := Except.ok.inj hstep
      exact htracked.mono (fun _ hh => Or.inl hh) (List.Subset.refl _) (List.subset_append_left _ _)
  | check =>
      obtain rfl := Except.ok.inj hstep
      exact htracked.mono (fun _ hh => Or.inl hh) (List.Subset.refl _) (List.subset_append_left _ _)
  | connected started =>
      obtain rfl := Except.ok.inj hstep
      exact htracked.mono (fun _ hh => Or.inl hh) (List.subset_append_left _ _) (List.Subset.refl _)
  | lookup key =>
      obtain rfl := Except.ok.inj hstep
      exact htracked.mono (fun _ hh => Or.inl hh) (List.Subset.refl _) (List.subset_append_left _ _)
  | request peer request =>
      obtain rfl := Except.ok.inj hstep
      exact htracked.mono (fun _ hh => Or.inl hh) (List.Subset.refl _) (List.subset_append_left _ _)
  | command id started =>
      cases hcommands : s.commands with
      | nil =>
          have hsame : s.step nars cfg (.command id started) = .ok s := by simp [SeedingNode.step, hcommands]
          obtain rfl := Except.ok.inj (hsame.symm.trans hstep)
          exact htracked
      | cons c commands =>
          have hkey : ∀ hash, c = .getProviders hash → ∃ d : Digest, hash = Hex.encode d.toList :=
            fun hash hc => hsound.lookups hash (hcommands ▸ hc ▸ List.mem_cons_self)
          obtain ⟨t, hrun, hseeds, hrest, hannounced, hprovided⟩ :=
            handleSwarmCommand_ok { s with commands } id started hkey
          have htaken : s.step nars cfg (.command id started) = .ok t := by
            simpa only [SeedingNode.step, hcommands] using hrun
          obtain rfl := Except.ok.inj (htaken.symm.trans hstep)
          intro h hh
          have hold : s.Seeds h := by simpa only [Seeds, hseeds] using hh
          rcases htracked h hold with ⟨key, hkey, hmem⟩ | hqueued
          · exact Or.inl ⟨key, hkey, hannounced hmem⟩
          · rw [hcommands] at hqueued
            rcases List.mem_cons.mp hqueued with heq | hqueued
            · obtain ⟨d, rfl⟩ := hsound.digest hold
              exact Or.inl ⟨_, announceKey_encode d, hprovided _ _ heq.symm hguard (announceKey_encode d)⟩
            · exact Or.inr (hrest ▸ hqueued)

/-- **Run lemma.** -/
theorem run_sound (nars : Text → Bytes) (cfg : Config) (hsound : s.Sound) (events : List SeedingEvent) :
    ∃ s', Machine.run (SeedingNode.step nars cfg) s events = .ok s' ∧ s'.Sound := by
  induction events generalizing s with
  | nil => exact ⟨s, rfl, hsound⟩
  | cons e events ih =>
      obtain ⟨t, hstep, ht⟩ := step_ok nars cfg hsound e
      obtain ⟨s', hrun, hs'⟩ := ih ht
      exact ⟨s', (Machine.run_cons_ok hstep).trans hrun, hs'⟩

theorem tracked_of_announcesAll (hsound : s.Sound) (he : e.AnnouncesAll)
    (hstep : s.step nars cfg e = .ok s') : s'.Tracked := by
  cases e with
  | store e started =>
      cases e with
      | restart world =>
          obtain rfl := Except.ok.inj hstep
          exact tracked_announceAtStart (intact_startStore _ world _) he
      | seed world requested => exact he.elim
      | delete world h => exact he.elim
      | download world narData storePath => exact he.elim
      | annotate world h storePath => exact he.elim
  | connected started =>
      obtain rfl := Except.ok.inj hstep
      exact tracked_announceSeededNars hsound _ he
  | dht e => exact he.elim
  | tick => exact he.elim
  | check => exact he.elim
  | lookup key => exact he.elim
  | request peer request => exact he.elim
  | command id started => exact he.elim

/-- The DHT has what the node has announced. -/
def PublishedBy (s : SeedingNode) (peer : PeerId) (announcements : List Announcement) : Prop :=
  ∀ key ∈ s.announced, ∃ a ∈ announcements, a.peer = peer ∧ a.started = .ok () ∧ DhtTask.announceKey a.narHash = some key

omit [MetadataFormat] [TomlLib] in
/-- What is announced is found under its hash. -/
theorem found_of_announced [KademliaLib] [LawfulKademliaLib] {peer : PeerId} {announcements : List Announcement}
    (hsound : s.Sound) (hseeds : s.Seeds h) (hannounced : s.Announced h) (hpublished : s.PublishedBy peer announcements)
    (t : DhtTask) (id : QueryId) :
    ∃ notes, t.lookup id announcements h = .ok notes ∧ peer ∈ collectProviders h notes := by
  obtain ⟨d, rfl⟩ := hsound.digest hseeds
  obtain ⟨key, hkey, hmem⟩ := hannounced
  obtain rfl := Option.some.inj ((announceKey_encode d).symm.trans hkey)
  obtain ⟨a, ha, hpeer, hstarted, hdecode⟩ := hpublished _ hmem
  obtain ⟨notes, hlookup, -, hfound⟩ := lookup_eq (extractHashBytes_encode d) t id announcements
  exact ⟨notes, hlookup, (hfound peer).mpr ⟨a, ha, hpeer, hstarted, hdecode⟩⟩

/-- **Every seed can be found.** Take any run of a node up to an event that announces all its seeds, a
connection or a restart. From then on, as long as no step misses its announcement, every NAR that the
node has is found under its hash by anybody who looks it up, or its announcement waits for the swarm
task; and the swarm task does not panic. -/
theorem every_seed_is_found [KademliaLib] [LawfulKademliaLib] {world : StartWorld} {started : Text → Except Text Unit}
    {dashboard : Dashboard} {before after : List SeedingEvent} (he : e.AnnouncesAll)
    (hs : Machine.run (SeedingNode.step nars cfg) (start nars world started dashboard) (before ++ [e]) = .ok s)
    (hafter : Machine.Meets (SeedingNode.step nars cfg) (Announces nars) s after) :
    ∃ final, Machine.run (SeedingNode.step nars cfg) s after = .ok final ∧
      ∀ h, final.Seeds h → .startProviding h ∈ final.commands ∨
        ∀ peer announcements, final.PublishedBy peer announcements → ∀ (t : DhtTask) id,
          ∃ notes, t.lookup id announcements h = .ok notes ∧ peer ∈ collectProviders h notes := by
  have hstart : (start nars world started dashboard).Sound :=
    sound_announceAtStart (intact_startStore _ world _) started
  obtain ⟨u, hbefore, hlast⟩ := Machine.run_append_inv hs
  obtain ⟨u', hu', husound⟩ := run_sound nars cfg hstart before
  obtain rfl := Except.ok.inj (hu'.symm.trans hbefore)
  obtain ⟨s', hstep, hnil⟩ := Machine.run_cons_inv hlast
  obtain rfl := Except.ok.inj hnil
  obtain ⟨s'', hstep', hsound⟩ := step_ok nars cfg husound e
  obtain rfl := Except.ok.inj (hstep'.symm.trans hstep)
  obtain ⟨final, hrun, hfinal⟩ := run_sound nars cfg hsound after
  have htracked : final.Sound ∧ final.Tracked := by
    refine Machine.run_guarded_invariant (P := fun s => s.Sound ∧ s.Tracked) (fun s e s' hs hguard hstep => ?_)
      ⟨hsound, tracked_of_announcesAll husound he hstep⟩ hafter hrun
    obtain ⟨t, ht, htsound⟩ := step_ok nars cfg hs.1 e
    obtain rfl := Except.ok.inj (ht.symm.trans hstep)
    exact ⟨htsound, hs.2.step hs.1 hguard hstep⟩
  refine ⟨final, hrun, fun h hseeds => ?_⟩
  rcases htracked.2 h hseeds with hannounced | hqueued
  · exact Or.inr fun peer announcements hpublished t id =>
      found_of_announced hfinal hseeds hannounced hpublished t id
  · exact Or.inl hqueued

end SeedingNode

end

end

/-! ### A node that seeds a store path after a connection -/

/-- Every announcement is taken. -/
def taken (_ : Text) : Except Text Unit := .ok ()

/-- The path is seeded, and the swarm task takes the command. -/
def seedThenAnnounce : List SeedingEvent := [.store (seedMirror mirrorA) taken, .command 0 (.ok ())]

theorem every_seed_is_found_sample :
    let _ := sampleSha256
    let _ := noMetadataFormat
    let _ := seedPathsToml
    let _ := tableKademliaLib
    ∃ s final notes, Machine.run (SeedingNode.step oneNar Transfer.fetchConfig)
        (SeedingNode.start oneNar emptyStart taken newDashboard) [.connected taken] = .ok s ∧
      Machine.run (SeedingNode.step oneNar Transfer.fetchConfig) s seedThenAnnounce = .ok final ∧
      DhtTask.new.lookup 0 [⟨⟨[1]⟩, hashHex sampleNar, "post-download".toList, .ok ()⟩] (hashHex sampleNar) = .ok notes ∧
      ⟨[1]⟩ ∈ collectProviders (hashHex sampleNar) notes := by
  intro _ _ _ lib
  let s : SeedingNode :=
    SeedingNode.announceSeededNars (SeedingNode.start oneNar emptyStart taken newDashboard) "peer-connected".toList taken
  have hs : Machine.run (SeedingNode.step oneNar Transfer.fetchConfig)
      (SeedingNode.start oneNar emptyStart taken newDashboard) ([] ++ [.connected taken]) = .ok s := rfl
  have hafter : Machine.Meets (SeedingNode.step oneNar Transfer.fetchConfig) (SeedingNode.Announces oneNar) s
      seedThenAnnounce := by
    refine ⟨⟨rfl, ?_, rfl⟩, fun s' _ => ⟨rfl, fun _ _ => trivial⟩⟩
    decide +kernel
  have he : SeedingEvent.AnnouncesAll (.connected taken) := fun _ => rfl
  obtain ⟨final, hfinal, hfound⟩ := @SeedingNode.every_seed_is_found _ _ _ oneNar Transfer.fetchConfig s _ lib
    lawful_tableKademliaLib emptyStart taken newDashboard [] seedThenAnnounce he hs hafter
  have hleft : (Machine.run (SeedingNode.step oneNar Transfer.fetchConfig) s seedThenAnnounce).toOption.map
      (fun t => (t.seeds.dashboard.disk.store.hasNar (hashHex sampleNar), t.commands, t.announced)) =
        some (true, [], [(Sha256.digest sampleNar).toList]) := by decide +kernel
  rw [hfinal] at hleft
  obtain ⟨hseeds, hcommands, hannounced⟩ : _ ∧ _ ∧ _ := by simpa [Except.toOption] using hleft
  have hpublished : final.PublishedBy ⟨[1]⟩ [⟨⟨[1]⟩, hashHex sampleNar, "post-download".toList, .ok ()⟩] := by
    intro key hkey
    rw [hannounced, List.mem_singleton] at hkey
    rw [hkey]
    exact ⟨_, List.mem_singleton.mpr rfl, rfl, rfl, announceKey_encode _⟩
  rcases hfound _ hseeds with hqueued | hlookup
  · rw [hcommands] at hqueued
    cases hqueued
  · obtain ⟨notes, hnotes, hpeer⟩ := hlookup _ _ hpublished .new 0
    exact ⟨s, final, notes, hs, hfinal, hnotes, hpeer⟩

end GuixP2p
