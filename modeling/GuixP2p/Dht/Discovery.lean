import GuixP2p.Dht.Providers

/-!
# GuixP2p.Dht.Discovery

The provider cache of `src/dht.rs` as the tasks of the daemon see it, and the health monitor of
`src/daemon.rs` that reads it.

`handle_kad_event` sends its notification at once and leaves the cache to a task of its own, which
waits for the lock. These tasks get the lock in any order, between any other events; `Discovery` has
them beside the cache. What the cache comes to does not depend on the order (`cache_of_reports`), and
it never forgets a peer.
-/

namespace GuixP2p

open GuixP2p.Lib ProviderProbe

/-- Get the providers that the cache has for a hash. -/
def cachedProviders (cache : Table Text (List PeerId)) (hashPart : Text) : List PeerId :=
  (cache.lookup hashPart).getD []

def hasProviders (cache : Table Text (List PeerId)) (hashPart : Text) : Bool :=
  ((cache.lookup hashPart).map fun v => !v.isEmpty).getD false

/-- A task that adds peers to the cache once it has the lock. -/
structure CacheInsert where
  key : Text
  peers : List PeerId
  deriving DecidableEq

def CacheInsert.run (insert : CacheInsert) (cache : Table Text (List PeerId)) : Table Text (List PeerId) :=
  cache.upsert insert.key [] fun entry => insert.peers.foldl DhtTask.addProvider entry

/-- The task that an event spawns. -/
def KadEvent.inserts : KadEvent → List CacheInsert
  | .foundProviders _ key providers _ => [⟨recordKeyHex key, providers⟩]
  | .getProvidersTimeout _ key _ => [⟨recordKeyHex key, []⟩]
  | _ => []

/-- The cache, the queries, the tasks that wait for the lock of the cache, and what has been told to
the other tasks so far. -/
structure Discovery where
  cache : Table Text (List PeerId)
  activeProviderQueries : Table QueryId Text
  spawned : List CacheInsert
  notified : List SwarmNotification

inductive DiscoveryEvent
  | kad (e : KadEvent)
  /-- One of the waiting tasks gets the lock. -/
  | lock (i : Nat)

namespace Discovery

/-- The daemon at its start. -/
def new : Discovery := { cache := ∅, activeProviderQueries := ∅, spawned := [], notified := [] }

def step (d : Discovery) : DiscoveryEvent → Discovery
  | .kad e =>
    let handled := DhtTask.handleKadEvent ⟨d.cache, d.activeProviderQueries⟩ e
    { d with
      activeProviderQueries := handled.task.activeProviderQueries
      spawned := d.spawned ++ e.inserts
      notified := d.notified ++ handled.notifications }
  | .lock i =>
    match d.spawned[i]? with
    | none => d
    | some insert => { d with cache := insert.run d.cache, spawned := d.spawned.eraseIdx i }

def after (d : Discovery) (events : List DiscoveryEvent) : Discovery := events.foldl step d

end Discovery

/-- The DHT has named the peer as a provider of the key. -/
def Reported (events : List DiscoveryEvent) (key : Text) (peer : PeerId) : Prop :=
  ∃ id k providers last, .kad (.foundProviders id k providers last) ∈ events ∧ recordKeyHex k = key ∧ peer ∈ providers

/-! ### One insert -/

section

variable {cache : Table Text (List PeerId)} {insert : CacheInsert} {key : Text} {peer : PeerId}

theorem hasProviders_iff : hasProviders cache key = true ↔ cachedProviders cache key ≠ [] := by
  unfold hasProviders cachedProviders
  cases cache.lookup key <;> simp

theorem cachedProviders_run : cachedProviders (insert.run cache) key =
    if key = insert.key then insert.peers.foldl DhtTask.addProvider (cachedProviders cache key)
    else cachedProviders cache key := by
  unfold CacheInsert.run cachedProviders
  by_cases hkey : key = insert.key
  · rw [if_pos hkey, hkey, Table.lookup_upsert_self, Option.getD_some]
  · rw [if_neg hkey, Table.lookup_upsert_of_ne hkey]

theorem mem_cachedProviders_run : peer ∈ cachedProviders (insert.run cache) key ↔
    peer ∈ cachedProviders cache key ∨ insert.key = key ∧ peer ∈ insert.peers := by
  rw [cachedProviders_run]
  by_cases hkey : key = insert.key
  · simp [hkey, mem_foldl_addProvider]
  · simp [hkey, eq_comm (a := insert.key)]

/-- The peers of an entry are distinct, and stay in their places. -/
theorem addProvider_spec (peers : List PeerId) {entry : List PeerId} (hentry : entry.Nodup) :
    (peers.foldl DhtTask.addProvider entry).Nodup ∧ entry <+: peers.foldl DhtTask.addProvider entry := by
  induction peers generalizing entry with
  | nil => exact ⟨hentry, List.prefix_refl _⟩
  | cons p peers ih =>
      rw [List.foldl_cons]
      have hone : (DhtTask.addProvider entry p).Nodup ∧ entry <+: DhtTask.addProvider entry p := by
        unfold DhtTask.addProvider
        split
        · exact ⟨hentry, List.prefix_refl _⟩
        next hnot => exact ⟨by simpa using hentry.concat hnot, List.prefix_append _ _⟩
      obtain ⟨hnodup, hprefix⟩ := ih hone.1
      exact ⟨hnodup, hone.2.trans hprefix⟩

theorem cachedProviders_run_spec (hnodup : ∀ k, (cachedProviders cache k).Nodup) (k : Text) :
    (cachedProviders (insert.run cache) k).Nodup ∧ cachedProviders cache k <+: cachedProviders (insert.run cache) k := by
  rw [cachedProviders_run]
  split
  · exact addProvider_spec _ (hnodup k)
  · exact ⟨hnodup k, List.prefix_refl _⟩

end

/-! ### What the DHT has named -/

section

variable {events : List DiscoveryEvent} {e : DiscoveryEvent} {key : Text} {peer : PeerId}

/-- The event names the peer as a provider of the key. -/
def KadEvent.Names (e : KadEvent) (key : Text) (peer : PeerId) : Prop :=
  ∃ id k providers last, e = .foundProviders id k providers last ∧ recordKeyHex k = key ∧ peer ∈ providers

theorem names_iff_inserts {e : KadEvent} :
    e.Names key peer ↔ ∃ insert ∈ e.inserts, insert.key = key ∧ peer ∈ insert.peers := by
  unfold KadEvent.Names
  cases e <;> simp [KadEvent.inserts]

/-- What a listener hears of an event. -/
theorem names_iff_notifications {e : KadEvent} :
    e.Names key peer ↔ ∃ peers, .providersFound key peers ∈ e.notifications ∧ peer ∈ peers := by
  unfold KadEvent.Names
  cases e with
  | foundProviders id k providers last =>
      simp only [KadEvent.foundProviders.injEq, KadEvent.notifications, List.mem_singleton,
        SwarmNotification.providersFound.injEq]
      aesop
  | getProvidersTimeout id k last =>
      simp only [reduceCtorEq, false_and, exists_false, KadEvent.notifications, List.mem_singleton,
        SwarmNotification.providersFound.injEq, false_iff]
      aesop
  | finishedWithNoAdditionalRecord id last => simp [KadEvent.notifications]
  | provided k result => simp [KadEvent.notifications]
  | other => simp [KadEvent.notifications]

theorem reported_iff : Reported events key peer ↔ ∃ e, .kad e ∈ events ∧ e.Names key peer := by
  unfold Reported KadEvent.Names
  constructor
  · intro h
    obtain ⟨id, k, providers, last, hmem, hkey, hpeer⟩ := h
    exact ⟨_, hmem, id, k, providers, last, rfl, hkey, hpeer⟩
  · intro h
    obtain ⟨_, hmem, id, k, providers, last, rfl, hkey, hpeer⟩ := h
    exact ⟨id, k, providers, last, hmem, hkey, hpeer⟩

theorem reported_concat_kad {e : KadEvent} :
    Reported (events ++ [.kad e]) key peer ↔ Reported events key peer ∨ e.Names key peer := by
  simp only [reported_iff, List.mem_append, List.mem_singleton, DiscoveryEvent.kad.injEq, or_and_right, exists_or,
    exists_eq_left]

theorem reported_concat_lock {i : Nat} : Reported (events ++ [.lock i]) key peer ↔ Reported events key peer := by
  simp [reported_iff]

end

/-! ### Runs -/

namespace Discovery

/-- A task that waits for the lock has the peer. -/
def Waiting (d : Discovery) (key : Text) (peer : PeerId) : Prop :=
  ∃ insert ∈ d.spawned, insert.key = key ∧ peer ∈ insert.peers

/-- **Invariant.** What has been named is cached or waits for the lock, and everybody has been told of it. -/
structure Agrees (events : List DiscoveryEvent) (d : Discovery) : Prop where
  nodup : ∀ key, (cachedProviders d.cache key).Nodup
  cached : ∀ key peer, peer ∈ cachedProviders d.cache key ∨ d.Waiting key peer ↔ Reported events key peer
  told : ∀ key peer, peer ∈ collectProviders key d.notified ↔ Reported events key peer

theorem agrees_new : Agrees [] new := by
  refine ⟨fun _ => List.nodup_nil, fun key peer => ?_, fun key peer => ?_⟩
  · simp [Waiting, new, cachedProviders, reported_iff]
  · simp [collectProviders, new, reported_iff]

/-- An event of the DHT leaves a task behind, and the cache alone. -/
theorem Agrees.kad {events : List DiscoveryEvent} {d : Discovery} (h : Agrees events d) (e : KadEvent) :
    Agrees (events ++ [.kad e]) (d.step (.kad e)) := by
  refine ⟨h.nodup, fun key peer => ?_, fun key peer => ?_⟩
  · have hspawned : (d.step (.kad e)).Waiting key peer ↔ d.Waiting key peer ∨ e.Names key peer := by
      rw [names_iff_inserts]
      simp only [Waiting, step, List.mem_append, or_and_right, exists_or]
    rw [reported_concat_kad, ← h.cached, hspawned, or_assoc]
    rfl
  · have hold := h.told key peer
    rw [mem_collectProviders] at hold
    rw [reported_concat_kad, mem_collectProviders, names_iff_notifications, ← hold,
      ← DhtTask.notifications_handleKadEvent ⟨d.cache, d.activeProviderQueries⟩ e]
    simp only [step, List.mem_append, or_and_right, exists_or]

/-- **Step lemma.** The lock goes to a task that waits for it, or to none. -/
theorem step_lock_cases (d : Discovery) (i : Nat) :
    d.step (.lock i) = d ∨ ∃ insert, d.spawned[i]? = some insert ∧
      d.step (.lock i) = { d with cache := insert.run d.cache, spawned := d.spawned.eraseIdx i } := by
  cases hi : d.spawned[i]? with
  | none => exact Or.inl (by simp [step, hi])
  | some insert => exact Or.inr ⟨insert, rfl, by simp [step, hi]⟩

/-- A task that gets the lock brings what it has into the cache. -/
theorem Agrees.lock {events : List DiscoveryEvent} {d : Discovery} (h : Agrees events d) (i : Nat) :
    Agrees (events ++ [.lock i]) (d.step (.lock i)) := by
  rcases d.step_lock_cases i with hstep | ⟨insert, hi, hstep⟩
  · rw [hstep]
    exact ⟨h.nodup, fun key peer => (h.cached key peer).trans reported_concat_lock.symm,
      fun key peer => (h.told key peer).trans reported_concat_lock.symm⟩
  · rw [hstep]
    refine ⟨fun key => (cachedProviders_run_spec h.nodup key).1, fun key peer => ?_,
      fun key peer => (h.told key peer).trans reported_concat_lock.symm⟩
    have hspawned : d.Waiting key peer ↔
        (∃ other ∈ d.spawned.eraseIdx i, other.key = key ∧ peer ∈ other.peers) ∨
          insert.key = key ∧ peer ∈ insert.peers := by
      obtain ⟨hlt, rfl⟩ := List.getElem?_eq_some_iff.mp hi
      have hperm := List.getElem_cons_eraseIdx_perm hlt
      simp only [Waiting, ← hperm.mem_iff, List.mem_cons, or_and_right, exists_or, exists_eq_left]
      exact or_comm
    rw [reported_concat_lock, ← h.cached, mem_cachedProviders_run, hspawned, or_assoc]
    exact or_congr_right or_comm

/-- **Run lemma.** -/
theorem agrees_after {before : List DiscoveryEvent} {d : Discovery} (h : Agrees before d) (events : List DiscoveryEvent) :
    Agrees (before ++ events) (d.after events) := by
  induction events generalizing before d with
  | nil => simpa [after] using h
  | cons e events ih =>
      have hstep : Agrees (before ++ [e]) (d.step e) := by
        cases e with
        | kad e => exact h.kad e
        | lock i => exact h.lock i
      simpa [after] using ih hstep

/-- **Run lemma.** A peer that is cached stays where it is. -/
theorem cachedProviders_after {before : List DiscoveryEvent} {d : Discovery} (h : Agrees before d)
    (events : List DiscoveryEvent) (key : Text) :
    cachedProviders d.cache key <+: cachedProviders (d.after events).cache key := by
  induction events generalizing before d with
  | nil => exact List.prefix_refl _
  | cons e events ih =>
      cases e with
      | kad e => exact ih (h.kad e)
      | lock i =>
          refine List.IsPrefix.trans ?_ (ih (h.lock i))
          rcases d.step_lock_cases i with hstep | ⟨insert, -, hstep⟩ <;> rw [hstep]
          exact (cachedProviders_run_spec h.nodup key).2

/-- A listener collects a peer once. -/
theorem nodup_collectProviders (key : Text) (notes : List SwarmNotification) : (collectProviders key notes).Nodup := by
  refine List.foldlRecOn notes _ List.nodup_nil fun entry hentry note _ => ?_
  cases note with
  | providersFound hash peers =>
      simp only
      split
      · exact (addProvider_spec peers hentry).1
      · exact hentry
  | blockResponse q response => exact hentry
  | blockRequestFailed q => exact hentry

/-- **The cache comes to what has been told**, in whatever order the tasks get the lock: its entries are
the peers that the DHT has named, each once, and a peer that is in stays where it is. -/
theorem cache_of_reports (events : List DiscoveryEvent) (key : Text) :
    (cachedProviders (new.after events).cache key).Nodup ∧
      (∀ peer ∈ cachedProviders (new.after events).cache key, Reported events key peer) ∧
      (∀ peer, Reported events key peer ↔ peer ∈ collectProviders key (new.after events).notified) ∧
      ((new.after events).spawned = [] →
        (cachedProviders (new.after events).cache key).Perm (collectProviders key (new.after events).notified)) ∧
      ∀ later, cachedProviders (new.after events).cache key <+: cachedProviders (new.after (events ++ later)).cache key := by
  have h : Agrees events (new.after events) := agrees_after agrees_new events
  refine ⟨h.nodup key, fun peer hpeer => (h.cached key peer).mp (Or.inl hpeer), fun peer => (h.told key peer).symm,
    fun hidle => ?_, fun later => ?_⟩
  · refine (List.perm_ext_iff_of_nodup (h.nodup key) (nodup_collectProviders key _)).mpr fun peer => ?_
    rw [h.told, ← h.cached]
    simp [Waiting, hidle]
  · have hafter : new.after (events ++ later) = (new.after events).after later := List.foldl_append
    rw [hafter]
    exact cachedProviders_after h later key

end Discovery

end GuixP2p
