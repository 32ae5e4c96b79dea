import GuixP2p.Daemon.Announcements

/-!
# GuixP2p.Daemon.HealthMonitor

**What the health monitor announces again.** A round looks every seed up, waits three seconds and
announces what the provider cache then has too few peers for. The cache only grows, so a round comes
down to which peers the DHT has named since the start, at any time: enough of them, and the seed is
never announced again, whether these peers are still there or not.
-/

namespace GuixP2p

open GuixP2p.Lib

/-- What an event means for the provider cache. -/
def SeedingEvent.discovery : SeedingEvent → Option DiscoveryEvent
  | .dht e => some e
  | _ => none

/-- The daemon is not restarted. -/
def SeedingEvent.Running (e : SeedingEvent) : Prop := ∀ world started, e ≠ .store (.restart world) started

/-- It happens while a round waits for the answers. -/
def SeedingEvent.InRound (e : SeedingEvent) : Prop := e.Running ∧ e ≠ .tick ∧ e ≠ .check

namespace SeedingNode

variable [Sha256] [MetadataFormat] [TomlLib] {nars : Text → Bytes} {cfg : Config} {s s' : SeedingNode}
  {e : SeedingEvent} {h : Text}

/-- **Step lemma.** The provider cache follows the events of the DHT, and a round keeps its list. -/
theorem discovery_step {before : List DiscoveryEvent} (hagrees : Discovery.Agrees before s.discovery)
    (hrunning : e.Running) (hstep : s.step nars cfg e = .ok s') :
    Discovery.Agrees (before ++ e.discovery.toList) s'.discovery ∧
      (e ≠ .tick → e ≠ .check → s'.checked = s.checked) := by
  cases e with
  | store e started =>
      obtain ⟨seeds, -, hstored⟩ := step_store nars cfg s
        (fun world heq => hrunning world started (heq ▸ rfl)) started
      obtain rfl := Except.ok.inj (hstored.symm.trans hstep)
      simpa [SeedingEvent.discovery] using hagrees
  | dht e =>
      obtain rfl := Except.ok.inj hstep
      exact ⟨Discovery.agrees_after hagrees [e], fun _ _ => rfl⟩
  | tick =>
      obtain rfl := Except.ok.inj hstep
      simpa [SeedingEvent.discovery] using hagrees
  | check =>
      obtain rfl := Except.ok.inj hstep
      simpa [SeedingEvent.discovery] using hagrees
  | connected started =>
      obtain rfl := Except.ok.inj hstep
      simpa [SeedingEvent.discovery, announceSeededNars] using hagrees
  | lookup key =>
      obtain rfl := Except.ok.inj hstep
      simpa [SeedingEvent.discovery] using hagrees
  | request peer request =>
      obtain rfl := Except.ok.inj hstep
      simpa [SeedingEvent.discovery] using hagrees
  | command id started =>
      have hnone : SeedingEvent.discovery (.command id started) = none := rfl
      rw [hnone, Option.toList_none, List.append_nil]
      cases hcommands : s.commands with
      | nil =>
          simp only [step, hcommands] at hstep
          obtain rfl := Except.ok.inj hstep
          exact ⟨hagrees, fun _ _ => rfl⟩
      | cons c commands =>
          simp only [step, hcommands] at hstep
          cases c with
          | getProviders hash =>
              simp only [handleSwarmCommand] at hstep
              split at hstep
              · cases hstep
              · obtain rfl := Except.ok.inj hstep
                exact ⟨⟨hagrees.nodup, hagrees.cached, hagrees.told⟩, fun _ _ => rfl⟩
          | sendBlockRequest peer request =>
              obtain rfl := Except.ok.inj hstep
              exact ⟨hagrees, fun _ _ => rfl⟩
          | startProviding hash =>
              obtain rfl := Except.ok.inj hstep
              exact ⟨hagrees, fun _ _ => rfl⟩

/-- **Run lemma.** -/
theorem discovery_run {before : List DiscoveryEvent} {events : List SeedingEvent}
    (hagrees : Discovery.Agrees before s.discovery) (hrunning : ∀ e ∈ events, e.Running)
    (hrun : Machine.run (SeedingNode.step nars cfg) s events = .ok s') :
    Discovery.Agrees (before ++ events.filterMap SeedingEvent.discovery) s'.discovery := by
  induction events generalizing s before with
  | nil =>
      obtain rfl := Except.ok.inj hrun
      simpa using hagrees
  | cons e events ih =>
      rw [List.forall_mem_cons] at hrunning
      obtain ⟨t, hstep, hrest⟩ := Machine.run_cons_inv hrun
      have hfinal := ih (discovery_step hagrees hrunning.1 hstep).1 hrunning.2 hrest
      cases he : e.discovery with
      | none => simpa [List.filterMap_cons, he] using hfinal
      | some d => simpa [List.filterMap_cons, he] using hfinal

/-- **Run lemma.** A round keeps the list of seeds that it began with. -/
theorem checked_run {before : List DiscoveryEvent} {events : List SeedingEvent}
    (hagrees : Discovery.Agrees before s.discovery) (hround : ∀ e ∈ events, e.InRound)
    (hrun : Machine.run (SeedingNode.step nars cfg) s events = .ok s') : s'.checked = s.checked := by
  induction events generalizing s before with
  | nil =>
      obtain rfl := Except.ok.inj hrun
      rfl
  | cons e events ih =>
      rw [List.forall_mem_cons] at hround
      obtain ⟨t, hstep, hrest⟩ := Machine.run_cons_inv hrun
      obtain ⟨ht, hsame⟩ := discovery_step hagrees hround.1.1 hstep
      exact (ih ht hround.2 hrest).trans (hsame hround.1.2.1 hround.1.2.2)

omit [Sha256] [MetadataFormat] [TomlLib] in
/-- The cache has too few peers for a hash when there are too few. -/
theorem providerCount_lt_iff {events : List DiscoveryEvent} (hagrees : Discovery.Agrees events s.discovery)
    (hidle : s.discovery.spawned = []) {n : Nat} : s.providerCount h < n ↔
      ∀ peers : List PeerId, peers.Nodup → (∀ p ∈ peers, Reported events h p) → peers.length < n := by
  have hcount : s.providerCount h = (cachedProviders s.discovery.cache h).length := by
    unfold providerCount cachedProviders
    cases s.discovery.cache.lookup h <;> rfl
  have hmem : ∀ p, Reported events h p ↔ p ∈ cachedProviders s.discovery.cache h := by
    intro p
    rw [← hagrees.cached]
    simp [Discovery.Waiting, hidle]
  rw [hcount]
  constructor
  · intro hlt peers hnodup hreported
    have hsub : peers ⊆ cachedProviders s.discovery.cache h := fun p hp => (hmem p).mp (hreported p hp)
    exact (hnodup.subperm hsub).length_le.trans_lt hlt
  · intro hall
    exact hall _ (hagrees.nodup h) fun p hp => (hmem p).mpr hp

/-- **What a round announces again.** It begins in any state of a node that has not been restarted, other
things may happen while it waits, and at its end no insert waits for the cache. It announces the seeds that
the node had at its beginning and for which the DHT has named too few peers since the start. -/
theorem reannounced_iff {world : StartWorld} {started : Text → Except Text Unit} {dashboard : Dashboard}
    {before during : List SeedingEvent} {t u : SeedingNode} (hbefore : ∀ e ∈ before, e.Running)
    (hround : ∀ e ∈ during, e.InRound)
    (hs : Machine.run (SeedingNode.step nars cfg) (start nars world started dashboard) before = .ok s)
    (ht : Machine.run (SeedingNode.step nars cfg) s (.tick :: during) = .ok t)
    (hidle : t.discovery.spawned = []) (hu : t.step nars cfg .check = .ok u) (h : Text) :
    (∃ extra, u.commands = t.commands ++ extra ∧ .startProviding h ∈ extra) ↔
      s.Seeds h ∧ ∀ peers : List PeerId, peers.Nodup →
        (∀ p ∈ peers, Reported ((before ++ during).filterMap SeedingEvent.discovery) h p) →
          peers.length < cfg.minProviders := by
  have hagrees : Discovery.Agrees ([] ++ before.filterMap SeedingEvent.discovery) s.discovery :=
    discovery_run Discovery.agrees_new hbefore hs
  obtain ⟨s', htick, hduring⟩ := Machine.run_cons_inv ht
  have hbegun : s'.discovery = s.discovery ∧ s'.checked = s.seeds.dashboard.disk.store.seededHashes := by
    obtain rfl := Except.ok.inj htick
    exact ⟨rfl, rfl⟩
  rw [← hbegun.1] at hagrees
  have hagrees' : Discovery.Agrees ((before ++ during).filterMap SeedingEvent.discovery) t.discovery := by
    simpa using discovery_run hagrees (fun e he => (hround e he).1) hduring
  have hchecked := (checked_run hagrees hround hduring).trans hbegun.2
  obtain rfl := Except.ok.inj hu
  rw [← providerCount_lt_iff hagrees' hidle, Seeds, ← mem_seededHashes]
  simp only [List.append_cancel_left_eq, exists_eq_left', List.mem_map, SwarmCommand.startProviding.injEq,
    exists_eq_right, reannounced, List.mem_filter, hchecked, decide_eq_true_eq]

end SeedingNode

/-! ### A seed that one peer is known for -/

/-- The DHT names a provider of the sample NAR, and the peer gets into the cache. -/
def oneAnswer : List SeedingEvent :=
  [.dht (.kad (.foundProviders 0 (@Sha256.digest sampleSha256 sampleNar).toList [⟨[1]⟩] true)), .dht (.lock 0)]

/-- One peer is enough for the sample configuration. -/
theorem reannounced_iff_sample :
    let _ := sampleSha256
    let _ := noMetadataFormat
    let _ := seedPathsToml
    ∃ s t u, Machine.run (SeedingNode.step oneNar Transfer.fetchConfig)
        (SeedingNode.start oneNar emptyStart taken newDashboard) [.store (seedMirror mirrorA) taken] = .ok s ∧
      Machine.run (SeedingNode.step oneNar Transfer.fetchConfig) s (.tick :: oneAnswer) = .ok t ∧
      t.step oneNar Transfer.fetchConfig .check = .ok u ∧ s.Seeds (hashHex sampleNar) ∧
      ¬ ∃ extra, u.commands = t.commands ++ extra ∧ .startProviding (hashHex sampleNar) ∈ extra := by
  intro _ _ _
  have hbefore : ∀ e ∈ [SeedingEvent.store (seedMirror mirrorA) taken], e.Running := by
    simp [SeedingEvent.Running, seedMirror]
  have hround : ∀ e ∈ oneAnswer, e.InRound := by
    simp [oneAnswer, SeedingEvent.InRound, SeedingEvent.Running]
  refine ⟨_, _, _, rfl, rfl, rfl, by decide +kernel, ?_⟩
  rw [SeedingNode.reannounced_iff hbefore hround rfl rfl (by decide +kernel) rfl]
  intro hfew
  refine absurd (hfew.2 [⟨[1]⟩] (List.nodup_singleton _) fun p hp => ?_) (by decide)
  rw [List.mem_singleton.mp hp]
  exact ⟨0, _, _, true, List.mem_cons_self, rfl, List.mem_singleton.mpr rfl⟩

end GuixP2p
