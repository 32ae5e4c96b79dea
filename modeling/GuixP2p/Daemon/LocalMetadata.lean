import GuixP2p.Daemon.Binding

/-!
# GuixP2p.Daemon.LocalMetadata

`load_local_narinfos` of `src/main.rs`, and what becomes of its narinfos while the daemon runs.

They enter the cache that fetched narinfos enter, and they leave it like those, after a minute. A
request that insists on peers does not know of local metadata: its `have` goes to the servers for
a path the cache does not hold. `local_metadata_iff` says that these are the only ways in which
local metadata is not the one and lasting source of narinfos.
-/

namespace GuixP2p

open GuixP2p.Lib

/-! ### The file -/

structure LocalNarinfoEntry where
  storePath : Text
  narHash : Text
  narSize : UInt64
  references : List Text
  deriver : Option Text
  downloadSize : UInt64

/-- `serde_json` on a file of local metadata. -/
class LocalNarinfoFormat where
  fromStr : Text → Option (List LocalNarinfoEntry)

def LocalNarinfoEntry.narinfo (entry : LocalNarinfoEntry) : Narinfo where
  storePath := entry.storePath
  narHash := entry.narHash
  narSize := entry.narSize
  references := entry.references
  deriver := entry.deriver
  urls := [⟨"p2p://local-metadata".toList, "none".toList, entry.downloadSize⟩]
  signedPortion := "local narinfo metadata".toList
  signature := none

/-- The narinfos of a file; one that cannot be read or parsed has none. -/
def loadLocalNarinfos [LocalNarinfoFormat] (file : Option Text) : List Narinfo :=
  ((file.bind LocalNarinfoFormat.fromStr).getD []).map LocalNarinfoEntry.narinfo

/-- The last narinfo of a hash part. -/
def localNarinfo (narinfos : List Narinfo) (h : Text) : Option Narinfo :=
  (narinfos.filter fun info => decide (hashPart info.storePath = .ok h)).getLast?

/-- How long a narinfo stays in the cache: 60 s. -/
def narinfoTtl : Instant := (NarinfoCache.new 60).ttl

/-- The cache at start-up. -/
def localCache (now : Instant) (narinfos : List Narinfo) : NarinfoCache :=
  loadLocalNarinfoMetadata now narinfos (NarinfoCache.new 60)

theorem localNarinfo_append (narinfos : List Narinfo) (info : Narinfo) (h : Text) :
    localNarinfo (narinfos ++ [info]) h =
      if hashPart info.storePath = .ok h then some info else localNarinfo narinfos h := by
  unfold localNarinfo
  rw [List.filter_append]
  split
  next hpath => rw [List.filter_cons_of_pos (by simpa using hpath)]; simp
  next hpath => rw [List.filter_cons_of_neg (by simpa using hpath)]; simp

theorem loadLocalNarinfoMetadata_append (now : Instant) (narinfos : List Narinfo) (info : Narinfo)
    (cache : NarinfoCache) :
    loadLocalNarinfoMetadata now (narinfos ++ [info]) cache =
      match hashPart info.storePath with
      | .ok h => (loadLocalNarinfoMetadata now narinfos cache).put now h info
      | .error _ => loadLocalNarinfoMetadata now narinfos cache := by
  unfold loadLocalNarinfoMetadata
  rewrite [List.foldl_append]
  rfl

/-- What loading leaves in the cache. -/
theorem lookup_loadLocalNarinfoMetadata (now : Instant) (narinfos : List Narinfo) (cache : NarinfoCache) :
    (loadLocalNarinfoMetadata now narinfos cache).ttl = cache.ttl ∧
      ∀ h, (loadLocalNarinfoMetadata now narinfos cache).entries.lookup h =
        ((localNarinfo narinfos h).map fun info => (now + cache.ttl, info)).or (cache.entries.lookup h) := by
  induction narinfos using List.reverseRecOn with
  | nil => exact ⟨rfl, fun h => rfl⟩
  | append_singleton narinfos info ih =>
      obtain ⟨httl, hlookup⟩ := ih
      rw [loadLocalNarinfoMetadata_append]
      cases hpath : hashPart info.storePath with
      | error e =>
          refine ⟨httl, fun h => ?_⟩
          dsimp only
          rw [hlookup, localNarinfo_append, hpath, if_neg (by simp)]
      | ok h' =>
          refine ⟨httl, fun h => ?_⟩
          dsimp only
          rw [NarinfoCache.lookup_put, httl, localNarinfo_append, hpath, hlookup]
          by_cases heq : h = h'
          · subst heq
            simp
          · rw [if_neg heq, if_neg fun hok => heq (Except.ok.inj hok).symm]

/-- **The cache at start-up is the file**, for a minute. -/
theorem get_localCache (now : Instant) (narinfos : List Narinfo) (t : Instant) (h : Text) :
    (localCache now narinfos).get t h = if t < now + narinfoTtl then localNarinfo narinfos h else none := by
  have hlookup := (lookup_loadLocalNarinfoMetadata now narinfos (NarinfoCache.new 60)).2 h
  unfold NarinfoCache.get localCache
  rw [hlookup]
  cases localNarinfo narinfos h with
  | none => simp [NarinfoCache.new]
  | some info =>
      simp only [Option.map_some, Option.some_or, ← not_lt, ite_not]
      rfl

/-! ### Requests -/

/-- A `have` that insists on peers. -/
def Event.haveFromPeers (cfg : Config) : Event → Bool
  | .haveQuery p2pOnly _ _ => decide ((cfg.forConnection p2pOnly).substitutePolicy = .p2pOnly)
  | _ => false

/-- When a request reads the cache. -/
def Event.readAt (cfg : Config) (e : Event) : Instant :=
  if e.haveFromPeers cfg then e.world.fetchAt else e.world.lookupAt

theorem localNarinfoPath_config (cfg : Config) (e : Event) :
    (e.config cfg).localNarinfoPath = cfg.localNarinfoPath := by
  unfold Event.config Config.forConnection
  split
  · rfl
  · rfl

/-- With local metadata all other requests leave it at the cache. -/
theorem Event.lookup_of_local {cfg : Config} (hlocal : cfg.localNarinfoPath.isSome = true) (e : Event) :
    e.lookup (e.config cfg) = if e.haveFromPeers cfg then .fetchOnly else .cacheOnly := by
  have hdefault : defaultLookup (e.config cfg) = .cacheOnly := by
    unfold defaultLookup
    rw [localNarinfoPath_config, if_pos hlocal]
  cases e with
  | haveQuery p2pOnly world path =>
      simp only [Event.lookup, Event.haveFromPeers, hdefault, decide_eq_true_eq]
      rfl
  | infoQuery p2pOnly world path =>
      simp only [Event.lookup, Event.haveFromPeers, hdefault, ite_self]
      rfl
  | substitute p2pOnly mode world path dest => exact hdefault

/-! ### The daemon -/

/-- Local metadata has been the only source: the cache is as it was loaded, nothing was fetched, and
every request that was served went on with the last narinfo of the file for its hash part, if there
is one, and asked no server. -/
structure LocalOnly (cfg : Config) (now : Instant) (narinfos : List Narinfo) (s : Service) : Prop where
  cache : s.shared.narinfos = localCache now narinfos
  pending : s.pending = []
  used : ∀ r ∈ s.log, ∀ h, hashPart r.event.path = .ok h →
    infosOf r.trace = (localNarinfo narinfos h).toList.map (Prod.mk h)
  unasked : ∀ r ∈ s.log, ∀ h, hashPart r.event.path = .ok h →
    ¬ (r.event.lookup (r.event.config cfg)).Misses r.event.world h (localCache now narinfos)

/-- A request that is served from local metadata: in the first minute, if the file has its hash
part; and the file has it, if the request is a `have` that insists on peers. -/
def ServedLocally (cfg : Config) (now : Instant) (narinfos : List Narinfo) : Service.Turn → Prop
  | .request e => ∀ h, hashPart e.path = .ok h →
      ((localNarinfo narinfos h).isSome = true → e.readAt cfg < now + narinfoTtl) ∧
        (e.haveFromPeers cfg = true → (localNarinfo narinfos h).isSome = true)
  | .store .. => True

section

variable [MetadataFormat] [Sha256] [SignatureLib] [Decompressors]
  {cfg : Config} {now : Instant} {narinfos : List Narinfo}

omit [MetadataFormat] [Decompressors] in
/-- What a request makes of the cache at start-up. -/
theorem Event.servedLocally_iff (hlocal : cfg.localNarinfoPath.isSome = true) {e : Event} {h : Text}
    (hpath : hashPart e.path = .ok h) :
    ((e.found cfg (localCache now narinfos)).toList = (localNarinfo narinfos h).toList.map (Prod.mk h) ∧
        ¬ (e.lookup (e.config cfg)).Misses e.world h (localCache now narinfos)) ↔
      ((localNarinfo narinfos h).isSome = true → e.readAt cfg < now + narinfoTtl) ∧
        (e.haveFromPeers cfg = true → (localNarinfo narinfos h).isSome = true) := by
  have hcached : (e.lookup (e.config cfg)).cached e.world h (localCache now narinfos) =
      if e.readAt cfg < now + narinfoTtl then localNarinfo narinfos h else none := by
    rw [e.lookup_of_local hlocal, ← get_localCache]
    unfold Event.readAt
    split
    · rfl
    · rfl
  have hmisses : (e.lookup (e.config cfg)).Misses e.world h (localCache now narinfos) ↔
      e.haveFromPeers cfg = true ∧
        (if e.readAt cfg < now + narinfoTtl then localNarinfo narinfos h else none) = none := by
    unfold Lookup.Misses
    rw [hcached, e.lookup_of_local hlocal]
    by_cases hpeers : e.haveFromPeers cfg = true
    · simp [hpeers]
    · simp [hpeers]
  have hfound (hnot : ¬ (e.lookup (e.config cfg)).Misses e.world h (localCache now narinfos)) :
      (e.found cfg (localCache now narinfos)).toList =
        (if e.readAt cfg < now + narinfoTtl then localNarinfo narinfos h else none).toList.map
          (Prod.mk h) := by
    unfold Event.found
    rw [hpath]
    dsimp only
    rw [(Lookup.after_of_not_misses (e.config cfg) hnot).1, hcached]
    cases (if e.readAt cfg < now + narinfoTtl then localNarinfo narinfos h else none) with
    | none => rfl
    | some info => rfl
  constructor
  · intro hboth
    obtain ⟨hused, hnot⟩ := hboth
    rw [hfound hnot] at hused
    rw [hmisses] at hnot
    refine ⟨fun hsome => ?_, fun hpeers => ?_⟩
    · by_contra hlate
      obtain ⟨info, hinfo⟩ := Option.isSome_iff_exists.mp hsome
      rw [if_neg hlate, hinfo] at hused
      cases hused
    · rw [Option.isSome_iff_ne_none]
      intro hnone
      exact hnot ⟨hpeers, by rw [hnone, ite_self]⟩
  · intro hboth
    obtain ⟨htime, hpeers⟩ := hboth
    have hread : (if e.readAt cfg < now + narinfoTtl then localNarinfo narinfos h else none) =
        localNarinfo narinfos h := by
      cases hinfo : localNarinfo narinfos h with
      | none => exact ite_self _
      | some info => exact if_pos (htime (by rw [hinfo]; rfl))
    have hnot : ¬ (e.lookup (e.config cfg)).Misses e.world h (localCache now narinfos) := by
      rw [hmisses, hread]
      intro hmiss
      have hsome := hpeers hmiss.1
      rw [hmiss.2] at hsome
      cases hsome
    exact ⟨by rw [hfound hnot, hread], hnot⟩

/-- **Step lemma.** -/
theorem step_localOnly_iff (hlocal : cfg.localNarinfoPath.isSome = true) {s s' : Service} {t : Service.Turn}
    (hs : LocalOnly cfg now narinfos s) (hstep : Service.step cfg s t = .ok s') :
    LocalOnly cfg now narinfos s' ↔ ServedLocally cfg now narinfos t := by
  cases t with
  | store i at_ =>
      -- nothing is pending
      refine iff_of_true ?_ trivial
      simp only [Service.step, hs.pending, List.getElem?_nil] at hstep
      rw [← Except.ok.inj hstep]
      exact hs
  | request e =>
      obtain rfl := Except.ok.inj hstep
      have htrace := (e.action_frame cfg s.shared).2
      rw [hs.cache] at htrace
      constructor
      · intro hs' h hpath
        refine (e.servedLocally_iff hlocal hpath).mp ⟨?_, ?_⟩
        · have hused := hs'.used _ (List.mem_append_right _ List.mem_cons_self) h hpath
          rwa [htrace] at hused
        · exact hs'.unasked _ (List.mem_append_right _ List.mem_cons_self) h hpath
      · intro hserved
        have hserves : ∀ h, hashPart e.path = .ok h → _ := fun h hpath =>
          (e.servedLocally_iff hlocal hpath).mpr (hserved h hpath)
        have hfetched : e.fetched cfg (localCache now narinfos) = none := by
          unfold Event.fetched
          cases hpath : hashPart e.path with
          | error err => rfl
          | ok h =>
              dsimp only
              unfold Lookup.fetched
              rw [if_neg (hserves h hpath).2]
              rfl
        refine ⟨hs.cache, ?_, ?_, ?_⟩
        · rw [hs.pending, hs.cache, hfetched]
          rfl
        · intro r hr h hpath
          rcases List.mem_append.mp hr with hr | hr
          · exact hs.used r hr h hpath
          · obtain rfl := List.mem_singleton.mp hr
            exact htrace.trans (hserves h hpath).1
        · intro r hr h hpath
          rcases List.mem_append.mp hr with hr | hr
          · exact hs.unasked r hr h hpath
          · obtain rfl := List.mem_singleton.mp hr
            exact (hserves h hpath).2

/-- **Local metadata is the only and a lasting source, for a minute.** When local metadata is
configured, then for every file, policy and run of requests: every request goes on with the file's
last narinfo for its hash part, or with none, and asks no server, exactly when every request for a
hash part of the file is served in the first 60 seconds and no `have` that insists on peers is for
a hash part that the file lacks. -/
theorem local_metadata_iff [LocalNarinfoFormat] (cfg : Config) (hlocal : cfg.localNarinfoPath.isSome = true)
    (now : Instant) (file : Option Text) (disk : NarDisk) (turns : List Service.Turn) :
    (∀ turns' s, turns' <+: turns →
        Machine.run (Service.step cfg) (Service.start cfg now (loadLocalNarinfos file) disk) turns' = .ok s →
        LocalOnly cfg now (loadLocalNarinfos file) s) ↔
      ∀ t ∈ turns, ServedLocally cfg now (loadLocalNarinfos file) t := by
  obtain ⟨final, hrun⟩ := run_service_ok cfg (Service.start cfg now (loadLocalNarinfos file) disk) turns
  have hstart : LocalOnly cfg now (loadLocalNarinfos file)
      (Service.start cfg now (loadLocalNarinfos file) disk) := by
    refine ⟨?_, rfl, fun r hr => absurd hr List.not_mem_nil, fun r hr => absurd hr List.not_mem_nil⟩
    unfold Service.start
    rw [if_pos hlocal]
    rfl
  rw [Machine.forall_states_iff_meets (J := fun _ => True) (fun _ _ _ _ _ => trivial)
    (fun _ _ _ _ hs hstep => step_localOnly_iff hlocal hs hstep) trivial hstart hrun]
  exact Machine.meets_iff_forall hrun

end

/-! ### A request in time, a request too late and a request for peers -/

def offlineConfig : Config := { httpConfig with localNarinfoPath := some "/m.json".toList }

def sampleLocalEntry : LocalNarinfoEntry :=
  ⟨"/gnu/store/a-b".toList, sampleNarinfo.narHash, 4, [], none, 0⟩

def sampleLocalFile : Text :=
  "\x7b\"narinfos\": [\x7b\"store_path\": \"/gnu/store/a-b\", \"nar_hash\": \"".toList ++
    sampleNarinfo.narHash ++ "\", \"nar_size\": 4\x7d]\x7d".toList

/-- `serde_json` on one file. -/
@[reducible] def sampleLocalFormat : LocalNarinfoFormat where
  fromStr t := if t = sampleLocalFile then some [sampleLocalEntry] else none

theorem loadLocalNarinfos_sample :
    @loadLocalNarinfos sampleLocalFormat (some sampleLocalFile) = [sampleLocalEntry.narinfo] := by
  have hread : sampleLocalFormat.fromStr sampleLocalFile = some [sampleLocalEntry] := if_pos rfl
  simp only [loadLocalNarinfos, Option.bind_some, hread, Option.getD_some, List.map_cons, List.map_nil]

/-- A path of a query, with no servers and no peers. -/
def queryAt (now : Instant) : QueryWorld := ⟨⟨now, now, now, none, fun _ _ => .sendError []⟩, [], false⟩

/-- `info` for the path of the file. -/
def localInfo (now : Instant) : Event := .infoQuery false (queryAt now) "/gnu/store/a-b".toList

/-- A `have` that insists on peers, for a path that is not in the file. -/
def strangeHave : Event := .haveQuery true (queryAt 0) "/gnu/store/z-b".toList

theorem localNarinfo_sample : localNarinfo [sampleLocalEntry.narinfo] "a".toList = some sampleLocalEntry.narinfo := by
  decide +kernel

/-- In time the narinfo of the file is used. -/
theorem local_metadata_iff_sample :
    ∃ s, Machine.run (@Service.step noMetadataFormat sampleSha256 forgedLib noDecompressors offlineConfig)
        (Service.start offlineConfig 0 [sampleLocalEntry.narinfo] sampleDisk) [.request (localInfo 59999)] = .ok s ∧
      LocalOnly offlineConfig 0 [sampleLocalEntry.narinfo] s := by
  have hiff := @local_metadata_iff noMetadataFormat sampleSha256 forgedLib noDecompressors sampleLocalFormat
    offlineConfig rfl 0 (some sampleLocalFile) sampleDisk [.request (localInfo 59999)]
  rw [loadLocalNarinfos_sample] at hiff
  refine ⟨_, rfl, hiff.mpr (fun t ht => ?_) [.request (localInfo 59999)] _ (List.prefix_refl _) rfl⟩
  rw [List.mem_singleton.mp ht]
  intro h _
  exact ⟨fun _ => by decide, fun hpeers => nomatch hpeers⟩

/-- **Local metadata vanishes, and servers are asked.** After a minute the daemon knows nothing of
the path in the file; and a `have` that insists on peers goes to the servers for another path. -/
theorem local_metadata_is_lost :
    let narinfos := @loadLocalNarinfos sampleLocalFormat (some sampleLocalFile)
    let step := @Service.step noMetadataFormat sampleSha256 forgedLib noDecompressors offlineConfig
    localNarinfo narinfos "a".toList = some sampleLocalEntry.narinfo ∧
      (∃ s, Machine.run step (Service.start offlineConfig 0 narinfos sampleDisk) [.request (localInfo 60000)] = .ok s ∧
        s.log.map (fun r => infosOf r.trace) = [[]] ∧ ¬ LocalOnly offlineConfig 0 narinfos s) ∧
      ∃ s, Machine.run step (Service.start offlineConfig 0 narinfos sampleDisk) [.request strangeHave] = .ok s ∧
        localNarinfo narinfos "z".toList = none ∧
        (strangeHave.lookup (strangeHave.config offlineConfig)).Misses strangeHave.world "z".toList s.shared.narinfos ∧
        ¬ LocalOnly offlineConfig 0 narinfos s := by
  intro narinfos step
  have hnarinfos : narinfos = [sampleLocalEntry.narinfo] := loadLocalNarinfos_sample
  have hlate : infosOf ((@Event.action noMetadataFormat sampleSha256 forgedLib noDecompressors offlineConfig
      (localInfo 60000) (Service.start offlineConfig 0 [sampleLocalEntry.narinfo] sampleDisk).shared).trace) = [] := by
    decide +kernel
  have hmisses : (strangeHave.lookup (strangeHave.config offlineConfig)).Misses strangeHave.world "z".toList
      (localCache 0 [sampleLocalEntry.narinfo]) := by
    decide +kernel
  rw [hnarinfos]
  refine ⟨localNarinfo_sample, ⟨_, rfl, ?_, fun hs => ?_⟩, ⟨_, rfl, by decide +kernel, hmisses, fun hs => ?_⟩⟩
  · exact congrArg (fun infos => [infos]) hlate
  · have hused := hs.used _ List.mem_cons_self "a".toList (by decide +kernel)
    have hnone := hlate.symm.trans hused
    rw [localNarinfo_sample] at hnone
    cases hnone
  · exact hs.unasked _ List.mem_cons_self "z".toList (by decide +kernel) hmisses

end GuixP2p
