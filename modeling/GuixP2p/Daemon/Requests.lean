import GuixP2p.Daemon.Query
import GuixP2p.Daemon.SubstituteSafety

/-!
# GuixP2p.Daemon.Requests

**What a request does with metadata.** The three requests look their narinfo up in three
ways (`Lookup`). Each yields what the cache has, or else what the servers give, and puts
the latter into the cache; after the lookup a request does not touch the cache again,
whatever else it does and however it ends (`Event.action_triple`).
-/

namespace GuixP2p

open GuixP2p.Lib

/-! ### Requests -/

/-- One path of a `have` or `info` query, or one `substitute` command. Other connections
may be served between two paths of a query. A connection can insist on `p2pOnly`. -/
inductive Event
  | haveQuery (p2pOnly : Bool) (world : QueryWorld) (path : Text)
  | infoQuery (p2pOnly : Bool) (world : QueryWorld) (path : Text)
  | substitute (p2pOnly : Bool) (mode : ReplyMode) (world : SubstituteWorld) (path dest : Text)

/-- The configuration of a connection. -/
def Config.forConnection (cfg : Config) (p2pOnly : Bool) : Config :=
  if p2pOnly then { cfg with substitutePolicy := .p2pOnly } else cfg

namespace Event

def p2pOnly : Event → Bool
  | .haveQuery p2pOnly _ _ => p2pOnly
  | .infoQuery p2pOnly _ _ => p2pOnly
  | .substitute p2pOnly _ _ _ _ => p2pOnly

def config (cfg : Config) (e : Event) : Config := cfg.forConnection e.p2pOnly

def path : Event → Text
  | .haveQuery _ _ path => path
  | .infoQuery _ _ path => path
  | .substitute _ _ _ path _ => path

def world : Event → MetadataWorld
  | .haveQuery _ world _ => world.metadata
  | .infoQuery _ world _ => world.metadata
  | .substitute _ _ world _ _ => world.metadata

end Event

section

variable [MetadataFormat] [Sha256] [SignatureLib] [Decompressors]

/-- What the daemon does for a request. -/
def Event.action (cfg : Config) (e : Event) : Action Shared Effect Panic Unit :=
  match e with
  | .haveQuery _ world path => handleHavePath (e.config cfg) world path
  | .infoQuery _ world path => handleInfoPath (e.config cfg) world path
  | .substitute _ mode world path dest => trySwarmSubstitute (e.config cfg) mode world path dest

/-- Serve requests one after the other. -/
def serveAll (cfg : Config) : List Event → Action Shared Effect Panic Unit
  | [] => pure ()
  | e :: es => do
    e.action cfg
    serveAll cfg es

theorem handlePaths_eq_serveAll (cfg : Config) (event : QueryWorld → Text → Event)
    (paths : List (QueryWorld × Text)) :
    handlePaths (fun world path => (event world path).action cfg) paths =
      serveAll cfg (paths.map fun p => event p.1 p.2) := by
  induction paths with
  | nil => rfl
  | cons p rest ih =>
      show (do (event p.1 p.2).action cfg; handlePaths _ rest) = _
      rw [ih]
      rfl

/-- A `have` query is the requests for its paths. -/
theorem handleHave_eq (cfg : Config) (p2pOnly : Bool) (paths : List (QueryWorld × Text)) :
    handleHave (cfg.forConnection p2pOnly) paths = (do
      serveAll cfg (paths.map fun p => .haveQuery p2pOnly p.1 p.2)
      Action.emit .replyEnd) := by
  rw [← handlePaths_eq_serveAll cfg (.haveQuery p2pOnly)]
  rfl

/-- An `info` query is the requests for its paths. -/
theorem handleInfo_eq (cfg : Config) (p2pOnly : Bool) (paths : List (QueryWorld × Text)) :
    handleInfo (cfg.forConnection p2pOnly) paths = (do
      serveAll cfg (paths.map fun p => .infoQuery p2pOnly p.1 p.2)
      Action.emit .replyEnd) := by
  rw [← handlePaths_eq_serveAll cfg (.infoQuery p2pOnly)]
  rfl

end

/-! ### Lookups -/

/-- How a request looks its narinfo up. -/
inductive Lookup
  | cacheOnly
  | fetchOnly
  | cacheThenFetch
  deriving DecidableEq, Repr

/-- The lookup of the requests that may use HTTP: local metadata rules out the servers. -/
def defaultLookup (cfg : Config) : Lookup :=
  if cfg.localNarinfoPath.isSome then .cacheOnly else .cacheThenFetch

/-- With the configuration of the connection. -/
def Event.lookup (cfg : Config) : Event → Lookup
  | .haveQuery .. => if cfg.substitutePolicy = .p2pOnly then .fetchOnly else defaultLookup cfg
  | .infoQuery .. => if cfg.substitutePolicy = .p2pOnly then .cacheOnly else defaultLookup cfg
  | .substitute .. => defaultLookup cfg

/-- What the cache has for a lookup. `fetch_narinfo` looks again before it asks a server. -/
def Lookup.cached (world : MetadataWorld) (h : Text) (cache : NarinfoCache) :
    Lookup → Option Narinfo
  | .cacheOnly => cache.get world.lookupAt h
  | .fetchOnly => cache.get world.fetchAt h
  | .cacheThenFetch => (cache.get world.lookupAt h).or (cache.get world.fetchAt h)

/-- The lookup goes to the servers. -/
def Lookup.Misses (lookup : Lookup) (world : MetadataWorld) (h : Text) (cache : NarinfoCache) :
    Prop :=
  lookup ≠ .cacheOnly ∧ lookup.cached world h cache = none

instance (lookup : Lookup) (world : MetadataWorld) (h : Text) (cache : NarinfoCache) :
    Decidable (lookup.Misses world h cache) :=
  inferInstanceAs (Decidable (_ ∧ _))

section

variable [SignatureLib] [Sha256]

/-- The narinfo the servers give. -/
def serverNarinfo (cfg : Config) (world : MetadataWorld) (h : Text) : Option Narinfo :=
  match loadAclKeys world.acl with
  | .error _ => none
  | .ok keys =>
    match fetchVerifiedNarinfo world.web h keys cfg.substituteUrls 0 false with
    | .ok (.ok info) => some info
    | _ => none

/-- What a lookup fetches. -/
def Lookup.fetched (lookup : Lookup) (cfg : Config) (world : MetadataWorld) (h : Text)
    (cache : NarinfoCache) : Option Narinfo :=
  if lookup.Misses world h cache then serverNarinfo cfg world h else none

/-- What a lookup yields. -/
def Lookup.found (lookup : Lookup) (cfg : Config) (world : MetadataWorld) (h : Text)
    (cache : NarinfoCache) : Option Narinfo :=
  (lookup.cached world h cache).or (lookup.fetched cfg world h cache)

omit [SignatureLib] [Sha256] in
/-- The cache with what was fetched. -/
def NarinfoCache.store (cache : NarinfoCache) (now : Instant) (h : Text) :
    Option Narinfo → NarinfoCache
  | none => cache
  | some info => cache.put now h info

end

/-! ### Frames -/

/-- The narinfos a trace yields, with the hash parts they were requested under. -/
def infosOf : List Effect → List (Text × Narinfo)
  | [] => []
  | .narinfo h info :: rest => (h, info) :: infosOf rest
  | _ :: rest => infosOf rest

theorem infosOf_append (τ ω : List Effect) : infosOf (τ ++ ω) = infosOf τ ++ infosOf ω := by
  induction τ with
  | nil => rfl
  | cons e τ ih => cases e <;> simp [infosOf, ih]

theorem mem_infosOf {τ : List Effect} {h : Text} {info : Narinfo} :
    (h, info) ∈ infosOf τ ↔ .narinfo h info ∈ τ := by
  induction τ with
  | nil => simp [infosOf]
  | cons e τ ih => cases e <;> simp [infosOf, ih]

/-- The cache, and what was yielded so far. -/
def Frame (cache : NarinfoCache) (infos : List (Text × Narinfo)) (s : Shared) (τ : List Effect) :
    Prop :=
  s.narinfos = cache ∧ infosOf τ = infos

section

variable {cache : NarinfoCache} {infos : List (Text × Narinfo)}

theorem Frame.append {s : Shared} {τ ω : List Effect} (hf : Frame cache infos s τ)
    (hω : infosOf ω = []) : Frame cache infos s (τ ++ ω) :=
  ⟨hf.1, by rw [infosOf_append, hω, List.append_nil, hf.2]⟩

/-- Whatever happens on the disk. -/
theorem Frame.keeps_onDisk {α : Type} (m : Action NarDisk FileWrite Panic α) :
    Action.Keeps (Frame cache infos) (onDisk m) := by
  have hnone : ∀ ws : List FileWrite, infosOf (ws.map Effect.write) = [] := by
    intro ws
    induction ws with
    | nil => rfl
    | cons w ws ih => exact ih
  refine Action.Triple.focus fun s τ hf => ?_
  exact ⟨fun _ ω _ _ _ => (show Frame cache infos { s with disk := _ } τ from hf).append (hnone _),
    fun _ ω _ _ _ => (show Frame cache infos { s with disk := _ } τ from hf).append (hnone _)⟩

theorem Frame.keeps_replyNotFound : Action.Keeps (Frame cache infos) replyNotFound :=
  Action.Keeps.emit fun _ _ hf => hf.append rfl

theorem Frame.keeps_handOver (mode : ReplyMode) (world : DeliveryWorld) (narHashHex dest : Text)
    (nar : Bytes) : Action.Keeps (Frame cache infos) (handOver mode world narHashHex dest nar) := by
  have hnotFound : Action.Keeps (Frame cache infos) (do replyNotFound; pure false) :=
    Action.Keeps.bind Frame.keeps_replyNotFound fun _ => Action.Keeps.pure _
  cases mode with
  | socket writer =>
      cases writer with
      | false => exact hnotFound
      | true =>
          show Action.Keeps (Frame cache infos) (handOverSocket world nar)
          unfold handOverSocket
          split
          · refine Action.Keeps.bind (Action.Keeps.emit fun _ _ hf => hf.append rfl) fun _ => ?_
            refine Action.Keeps.bind (Action.Keeps.emitAll fun _ _ hf => hf.append ?_)
              fun _ => Action.Keeps.pure _
            refine List.eq_nil_iff_forall_not_mem.mpr fun e he => ?_
            rcases mem_narLines (mem_infosOf.mp he) with ⟨chunk, heq⟩ | heq <;> cases heq
          · exact Action.Keeps.pure _
  | direct =>
      refine Action.Keeps.bind (Frame.keeps_onDisk _) fun ok => ?_
      cases ok with
      | false => exact hnotFound
      | true =>
          refine Action.Keeps.bind (Frame.keeps_onDisk _) fun ok => ?_
          refine Action.Keeps.bind (Frame.keeps_onDisk _) fun _ => ?_
          cases ok with
          | true => exact Action.Keeps.pure _
          | false => exact hnotFound

theorem Frame.keeps_autoSeed [MetadataFormat] (cfg : Config) (world : SaveWorld) (narHashHex : Text)
    (nar : Bytes) (storePath : Text) (source : DownloadSource) :
    Action.Keeps (Frame cache infos) (autoSeed cfg world narHashHex nar storePath source) := by
  unfold autoSeed
  split
  · refine Action.Keeps.bind Action.Keeps.get fun s => ?_
    split
    · exact Action.Keeps.pure _
    · refine Action.Keeps.bind (Frame.keeps_onDisk _) fun ok => ?_
      cases ok with
      | true => exact Action.Keeps.emit fun _ _ hf => hf.append rfl
      | false => exact Action.Keeps.pure _
  · exact Action.Keeps.pure _

theorem Frame.keeps_rejectMismatch (world : DeliveryWorld) (dest expected actual : Text) :
    Action.Keeps (Frame cache infos) (rejectMismatch world dest expected actual) := by
  refine Action.Keeps.bind (Frame.keeps_onDisk _) fun _ => ?_
  exact Action.Keeps.bind (Action.Keeps.emit fun _ _ hf => hf.append rfl) fun _ =>
    Action.Keeps.emit fun _ _ hf => hf.append rfl

theorem Frame.keeps_deliver [MetadataFormat] [Sha256] (cfg : Config) (mode : ReplyMode)
    (world : DeliveryWorld) (dest storePath : Text) (narHash : Digest) (nar : DownloadedNar) :
    Action.Keeps (Frame cache infos) (deliver cfg mode world dest storePath narHash nar) := by
  unfold deliver
  dsimp only
  split
  · refine Action.Keeps.bind (Frame.keeps_handOver _ _ _ _ _) fun ok => ?_
    cases ok with
    | false => exact Action.Keeps.pure _
    | true =>
        refine Action.Keeps.bind (Frame.keeps_autoSeed _ _ _ _ _ _) fun _ => ?_
        exact Action.Keeps.bind (Action.Keeps.emit fun _ _ hf => hf.append rfl) fun _ =>
          Action.Keeps.emit fun _ _ hf => hf.append rfl
  · exact Frame.keeps_rejectMismatch _ _ _ _

theorem Frame.keeps_substituteWith [MetadataFormat] [Sha256] [SignatureLib] [Decompressors]
    (cfg : Config) (mode : ReplyMode) (world : SubstituteWorld) (dest h : Text) (info : Narinfo) :
    Action.Keeps (Frame cache infos) (substituteWith cfg mode world dest h info) := by
  have hlog : ∀ texts : List Text, infosOf (texts.map Effect.trace) = [] := by
    intro texts
    induction texts with
    | nil => rfl
    | cons text texts ih => exact ih
  unfold substituteWith
  split
  · exact Action.Keeps.fault _
  · exact Frame.keeps_replyNotFound
  · refine Action.Keeps.bind (keeps_download (fun _ _ texts hf => hf.append (hlog texts)) _ _ _ _ _)
      fun r => ?_
    cases r with
    | ok nar => exact Frame.keeps_deliver _ _ _ _ _ _ _
    | error e => exact Frame.keeps_replyNotFound

end

/-! ### What a lookup does -/

section

variable [SignatureLib] [Sha256] {cfg : Config} {world : MetadataWorld} {h : Text}
  {cache : NarinfoCache}

/-- After a lookup: what it fetched is in the cache, what it found was yielded. -/
def Lookup.After (lookup : Lookup) (cfg : Config) (world : MetadataWorld) (h : Text)
    (cache : NarinfoCache) : Shared → List Effect → Prop :=
  Frame (cache.store world.storeAt h (lookup.fetched cfg world h cache))
    ((lookup.found cfg world h cache).toList.map (Prod.mk h))

/-- The action is this lookup. -/
def Lookup.Does (lookup : Lookup) (cfg : Config) (world : MetadataWorld) (h : Text)
    (m : Action Shared Effect Panic (Option Narinfo)) : Prop :=
  ∀ cache, Action.Triple (Frame cache [])
    (fun r s τ => r = lookup.found cfg world h cache ∧ lookup.After cfg world h cache s τ)
    (lookup.After cfg world h cache) m

/-- A lookup that the cache answers, or that asks no server. -/
theorem Lookup.after_of_not_misses (cfg : Config) {lookup : Lookup} (hmiss : ¬ lookup.Misses world h cache) :
    lookup.found cfg world h cache = lookup.cached world h cache ∧
      lookup.After cfg world h cache =
        Frame cache ((lookup.cached world h cache).toList.map (Prod.mk h)) := by
  have hfetched : lookup.fetched cfg world h cache = none := if_neg hmiss
  have hfound : lookup.found cfg world h cache = lookup.cached world h cache := by
    unfold Lookup.found
    rw [hfetched, Option.or_none]
  refine ⟨hfound, ?_⟩
  unfold Lookup.After
  rw [hfound, hfetched]
  rfl

/-- A lookup that goes to the servers. -/
theorem Lookup.after_of_misses (cfg : Config) {lookup : Lookup} (hmiss : lookup.Misses world h cache) :
    lookup.found cfg world h cache = serverNarinfo cfg world h ∧
      lookup.After cfg world h cache =
        Frame (cache.store world.storeAt h (serverNarinfo cfg world h))
          ((serverNarinfo cfg world h).toList.map (Prod.mk h)) := by
  have hfetched : lookup.fetched cfg world h cache = serverNarinfo cfg world h := if_pos hmiss
  have hfound : lookup.found cfg world h cache = serverNarinfo cfg world h := by
    unfold Lookup.found
    rw [hfetched, hmiss.2, Option.none_or]
  refine ⟨hfound, ?_⟩
  unfold Lookup.After
  rw [hfound, hfetched]

/-- `fetch_narinfo` when the cache has nothing. -/
theorem fetchNarinfo_of_miss (hmiss : cache.get world.fetchAt h = none) :
    (∃ info, serverNarinfo cfg world h = some info ∧
      fetchNarinfo cfg world h cache = .ok (cache.put world.storeAt h info, .ok info)) ∨
    (serverNarinfo cfg world h = none ∧
      ((∃ p, fetchNarinfo cfg world h cache = .error p) ∨
        ∃ e, fetchNarinfo cfg world h cache = .ok (cache, .error e))) := by
  unfold fetchNarinfo serverNarinfo
  rw [hmiss]
  cases hacl : loadAclKeys world.acl with
  | error e => exact Or.inr ⟨rfl, Or.inr ⟨.acl e, rfl⟩⟩
  | ok keys =>
      dsimp only
      cases hfetch : fetchVerifiedNarinfo world.web h keys cfg.substituteUrls 0 false with
      | error p => exact Or.inr ⟨rfl, Or.inl ⟨p, rfl⟩⟩
      | ok r =>
          cases r with
          | error e => exact Or.inr ⟨rfl, Or.inr ⟨e, rfl⟩⟩
          | ok info => exact Or.inl ⟨info, rfl, rfl⟩

omit [SignatureLib] [Sha256] in
theorem cachedNarinfo_frame {F : Shared → List Effect → Prop} :
    Action.Triple (Frame cache [])
      (fun r s τ => r = cache.get world.lookupAt h ∧ Frame cache (r.toList.map (Prod.mk h)) s τ) F
      (cachedNarinfo world h) := by
  refine Action.Triple.bind Action.Triple.get fun s => ?_
  refine Action.Triple.given (p := s.narinfos = cache) (fun t τ ht => ht.1 ▸ ht.2.1) fun hs => ?_
  rw [hs]
  cases hget : cache.get world.lookupAt h with
  | none => exact Action.Triple.pure fun _ _ hf => ⟨rfl, hf.2⟩
  | some info =>
      refine Action.Triple.bind (Q := fun _ => Frame cache [(h, info)])
        (Action.Triple.emit fun t τ hf => ?_) fun _ => Action.Triple.pure fun _ _ hf => ⟨rfl, hf⟩
      exact ⟨hf.2.1, by rw [infosOf_append, hf.2.2]; rfl⟩

theorem cachedNarinfo_does : Lookup.cacheOnly.Does cfg world h (cachedNarinfo world h) := by
  intro cache
  have hnot : ¬ Lookup.cacheOnly.Misses world h cache := fun hmiss => hmiss.1 rfl
  obtain ⟨hfound, hafter⟩ := Lookup.after_of_not_misses cfg hnot
  rw [hfound, hafter]
  exact cachedNarinfo_frame.weaken (fun _ _ hf => hf)
    (fun r _ _ hr => ⟨hr.1, by rw [show Lookup.cacheOnly.cached world h cache = r from hr.1.symm]; exact hr.2⟩)
    fun _ _ hf => hf

/-- What `fetch_narinfo` does to the shared cache is a lookup of any kind that misses when
`fetch_narinfo` does. -/
theorem fetchSharedNarinfo_of_miss {lookup : Lookup} (hmiss : lookup.Misses world h cache)
    (hget : cache.get world.fetchAt h = none) :
    Action.Triple (Frame cache [])
      (fun r s τ => r = lookup.found cfg world h cache ∧ lookup.After cfg world h cache s τ)
      (lookup.After cfg world h cache) (fetchSharedNarinfo cfg world h) := by
  obtain ⟨hfound, hafter⟩ := Lookup.after_of_misses cfg hmiss
  rw [hfound, hafter]
  refine Action.Triple.bind Action.Triple.get fun s => ?_
  refine Action.Triple.given (p := s.narinfos = cache) (fun t τ ht => ht.1 ▸ ht.2.1) fun hs => ?_
  rw [hs]
  rcases fetchNarinfo_of_miss hget with ⟨info, hserver, hfetch⟩ | ⟨hserver, hfetch⟩
  · rw [hserver, hfetch]
    refine Action.Triple.bind (Q := fun _ => Frame (cache.put world.storeAt h info) [])
      (Action.Triple.set fun t τ hf => ⟨rfl, hf.2.2⟩) fun _ => ?_
    refine Action.Triple.bind (Q := fun _ => Frame (cache.put world.storeAt h info) [(h, info)])
      (Action.Triple.emit fun t τ hf => ?_) fun _ => Action.Triple.pure fun _ _ hf => ⟨rfl, hf⟩
    exact ⟨hf.1, by rw [infosOf_append, hf.2]; rfl⟩
  · rw [hserver]
    rcases hfetch with ⟨p, hfetch⟩ | ⟨e, hfetch⟩
    · rw [hfetch]
      exact Action.Triple.fault fun _ _ hf => hf.2
    · rw [hfetch]
      exact Action.Triple.pure fun _ _ hf => ⟨rfl, hf.2⟩

/-- The same where the second look into the cache finds a narinfo. -/
theorem fetchSharedNarinfo_of_hit {info : Narinfo} (hget : cache.get world.fetchAt h = some info) :
    Action.Triple (Frame cache []) (fun r s τ => r = some info ∧ Frame cache [(h, info)] s τ)
      (Frame cache [(h, info)]) (fetchSharedNarinfo cfg world h) := by
  refine Action.Triple.bind Action.Triple.get fun s => ?_
  refine Action.Triple.given (p := s.narinfos = cache) (fun t τ ht => ht.1 ▸ ht.2.1) fun hs => ?_
  have hfetch : fetchNarinfo cfg world h cache = .ok (cache, .ok info) := by
    unfold fetchNarinfo
    rw [hget]
  rw [hs, hfetch]
  refine Action.Triple.bind (Q := fun _ => Frame cache [])
    (Action.Triple.set fun t τ hf => ⟨rfl, hf.2.2⟩) fun _ => ?_
  refine Action.Triple.bind (Q := fun _ => Frame cache [(h, info)])
    (Action.Triple.emit fun t τ hf => ?_) fun _ => Action.Triple.pure fun _ _ hf => ⟨rfl, hf⟩
  exact ⟨hf.1, by rw [infosOf_append, hf.2]; rfl⟩

theorem fetchSharedNarinfo_does :
    Lookup.fetchOnly.Does cfg world h (fetchSharedNarinfo cfg world h) := by
  intro cache
  cases hget : cache.get world.fetchAt h with
  | none => exact fetchSharedNarinfo_of_miss ⟨by decide, hget⟩ hget
  | some info =>
      have hcached : Lookup.fetchOnly.cached world h cache = some info := hget
      have hnot : ¬ Lookup.fetchOnly.Misses world h cache := fun hmiss =>
        nomatch hcached.symm.trans hmiss.2
      obtain ⟨hfound, hafter⟩ := Lookup.after_of_not_misses cfg hnot
      rw [hfound, hafter, hcached]
      exact fetchSharedNarinfo_of_hit hget

/-- With local metadata no server is asked. -/
theorem lookupNarinfo_does_of_local (hlocal : cfg.localNarinfoPath.isSome = true) :
    Lookup.cacheOnly.Does cfg world h (lookupNarinfo cfg world h) := by
  intro cache
  refine Action.Triple.bind (cachedNarinfo_does cache) fun r => ?_
  cases r with
  | some info => exact Action.Triple.pure fun _ _ hr => hr
  | none =>
      dsimp only
      rw [if_pos hlocal]
      exact Action.Triple.pure fun _ _ hr => hr

theorem lookupNarinfo_does_of_remote (hremote : ¬ cfg.localNarinfoPath.isSome = true) :
    Lookup.cacheThenFetch.Does cfg world h (lookupNarinfo cfg world h) := by
  intro cache
  cases hget : cache.get world.lookupAt h with
  | some info =>
      have hcached : Lookup.cacheThenFetch.cached world h cache = some info := by
        show (cache.get world.lookupAt h).or _ = some info
        rw [hget, Option.some_or]
      have hnot : ¬ Lookup.cacheThenFetch.Misses world h cache := fun hmiss =>
        nomatch hcached.symm.trans hmiss.2
      obtain ⟨hfound, hafter⟩ := Lookup.after_of_not_misses cfg hnot
      rw [hfound, hafter, hcached]
      refine Action.Triple.bind cachedNarinfo_frame fun r => ?_
      refine Action.Triple.given (fun _ _ hr => hr.1.trans hget) fun hr => ?_
      subst hr
      exact Action.Triple.pure fun _ _ hf => ⟨rfl, hf.2⟩
  | none =>
      -- the cache is looked at a second time
      have hcached : Lookup.cacheThenFetch.cached world h cache = cache.get world.fetchAt h := by
        show (cache.get world.lookupAt h).or _ = _
        rw [hget, Option.none_or]
      refine Action.Triple.bind cachedNarinfo_frame fun r => ?_
      refine Action.Triple.given (fun _ _ hr => hr.1.trans hget) fun hr => ?_
      subst hr
      dsimp only
      rw [if_neg hremote]
      refine Action.Triple.assume ?_ fun _ _ hf => hf.2
      cases hagain : cache.get world.fetchAt h with
      | none => exact fetchSharedNarinfo_of_miss ⟨by decide, hcached.trans hagain⟩ hagain
      | some info =>
          have hnot : ¬ Lookup.cacheThenFetch.Misses world h cache := fun hmiss =>
            nomatch (hcached.trans hagain).symm.trans hmiss.2
          obtain ⟨hfound, hafter⟩ := Lookup.after_of_not_misses cfg hnot
          rw [hfound, hafter, hcached, hagain]
          exact fetchSharedNarinfo_of_hit hagain

theorem lookupNarinfo_does : (defaultLookup cfg).Does cfg world h (lookupNarinfo cfg world h) := by
  unfold defaultLookup
  split
  next hlocal => exact lookupNarinfo_does_of_local hlocal
  next hremote => exact lookupNarinfo_does_of_remote hremote

/-- What follows a lookup leaves the cache alone. -/
theorem Lookup.Does.then {lookup : Lookup} {m : Action Shared Effect Panic (Option Narinfo)}
    (hm : lookup.Does cfg world h m) {f : Option Narinfo → Action Shared Effect Panic Unit}
    (hf : ∀ r cache infos, Action.Keeps (Frame cache infos) (f r)) (cache : NarinfoCache) :
    Action.Triple (Frame cache []) (fun _ => lookup.After cfg world h cache)
      (lookup.After cfg world h cache) (m >>= f) :=
  Action.Triple.bind (hm cache) fun r => (hf r _ _).assume fun _ _ hr => hr.2

/-! ### What a request does -/

variable {path : Text}

theorem handleHavePath_triple (hpath : hashPart path = .ok h) (world : QueryWorld) (p2pOnly : Bool) :
    Action.Triple (Frame cache [])
      (fun _ => ((Event.haveQuery p2pOnly world path).lookup cfg).After cfg world.metadata h cache)
      (((Event.haveQuery p2pOnly world path).lookup cfg).After cfg world.metadata h cache)
      (handleHavePath cfg world path) := by
  unfold handleHavePath
  rw [hpath]
  dsimp only
  split
  next hpolicy =>
    rw [show (Event.haveQuery p2pOnly world path).lookup cfg = .fetchOnly from if_pos hpolicy]
    refine fetchSharedNarinfo_does.then (fun r cache infos => ?_) cache
    cases r with
    | none => exact Action.Keeps.pure _
    | some info =>
        refine Action.Keeps.bind (Action.Keeps.ofExcept _) fun narHash => ?_
        cases narHash with
        | none => exact Action.Keeps.pure _
        | some narHash =>
            dsimp only
            split
            · exact Action.Keeps.emit fun _ _ hf => hf.append rfl
            · exact Action.Keeps.pure _
  next hpolicy =>
    rw [show (Event.haveQuery p2pOnly world path).lookup cfg = defaultLookup cfg from if_neg hpolicy]
    refine lookupNarinfo_does.then (fun r cache infos => ?_) cache
    cases r with
    | none => exact Action.Keeps.pure _
    | some info =>
        refine Action.Keeps.bind (Action.Keeps.emit fun _ _ hf => hf.append rfl) fun _ => ?_
        split
        · exact Action.Keeps.bind (Action.Keeps.ofExcept _) fun _ => Action.Keeps.pure _
        · exact Action.Keeps.pure _

theorem infoNarinfo_does (world : QueryWorld) (p2pOnly : Bool) :
    ((Event.infoQuery p2pOnly world path).lookup cfg).Does cfg world.metadata h
      (infoNarinfo cfg world.metadata h) := by
  unfold infoNarinfo
  split
  next hpolicy =>
    rw [show (Event.infoQuery p2pOnly world path).lookup cfg = .cacheOnly from if_pos hpolicy]
    exact cachedNarinfo_does
  next hpolicy =>
    rw [show (Event.infoQuery p2pOnly world path).lookup cfg = defaultLookup cfg from if_neg hpolicy]
    exact lookupNarinfo_does

theorem handleInfoPath_triple (hpath : hashPart path = .ok h) (world : QueryWorld) (p2pOnly : Bool) :
    Action.Triple (Frame cache [])
      (fun _ => ((Event.infoQuery p2pOnly world path).lookup cfg).After cfg world.metadata h cache)
      (((Event.infoQuery p2pOnly world path).lookup cfg).After cfg world.metadata h cache)
      (handleInfoPath cfg world path) := by
  have hlines : ∀ lines : List Text, infosOf (lines.map Effect.line) = [] := by
    intro lines
    induction lines with
    | nil => rfl
    | cons line lines ih => exact ih
  unfold handleInfoPath
  rw [hpath]
  refine (infoNarinfo_does world p2pOnly).then (fun r cache infos => ?_) cache
  cases r with
  | none => exact Action.Keeps.pure _
  | some info =>
      refine Action.Keeps.bind (Action.Keeps.ofExcept _) fun narHash => ?_
      cases narHash with
      | none => exact Action.Keeps.pure _
      | some narHash => exact Action.Keeps.emitAll fun _ _ hf => hf.append (hlines _)

variable [MetadataFormat] [Decompressors]

theorem trySwarmSubstitute_frame (hpath : hashPart path = .ok h) (mode : ReplyMode)
    (world : SubstituteWorld) (dest : Text) :
    Action.Triple (Frame cache []) (fun _ => (defaultLookup cfg).After cfg world.metadata h cache)
      ((defaultLookup cfg).After cfg world.metadata h cache)
      (trySwarmSubstitute cfg mode world path dest) := by
  unfold trySwarmSubstitute
  rw [hpath]
  refine lookupNarinfo_does.then (fun r cache infos => ?_) cache
  cases r with
  | none => exact Frame.keeps_replyNotFound
  | some info => exact Frame.keeps_substituteWith _ _ _ _ _ _

omit [MetadataFormat] [Decompressors] in
/-- What a request fetches from the servers. -/
def Event.fetched (cfg : Config) (e : Event) (cache : NarinfoCache) : Option (Text × Narinfo) :=
  match hashPart e.path with
  | .error _ => none
  | .ok h =>
    ((e.lookup (e.config cfg)).fetched (e.config cfg) e.world h cache).map (Prod.mk h)

omit [MetadataFormat] [Decompressors] in
/-- What a request finds. -/
def Event.found (cfg : Config) (e : Event) (cache : NarinfoCache) : Option (Text × Narinfo) :=
  match hashPart e.path with
  | .error _ => none
  | .ok h => ((e.lookup (e.config cfg)).found (e.config cfg) e.world h cache).map (Prod.mk h)

omit [MetadataFormat] [Decompressors] in
/-- The cache after a request that is not overtaken by others. -/
def Event.cacheAfter (cfg : Config) (e : Event) (cache : NarinfoCache) : NarinfoCache :=
  match e.fetched cfg cache with
  | none => cache
  | some p => cache.put e.world.storeAt p.1 p.2

omit [MetadataFormat] [Decompressors] in
/-- The two ways to say what a request with a hash part did. -/
theorem Event.frame_eq_after {e : Event} (hpath : hashPart e.path = .ok h) :
    Frame (e.cacheAfter cfg cache) (e.found cfg cache).toList =
      (e.lookup (e.config cfg)).After (e.config cfg) e.world h cache := by
  unfold Event.cacheAfter Event.fetched Event.found Lookup.After
  rw [hpath]
  dsimp only
  congr 1
  · cases (e.lookup (e.config cfg)).fetched (e.config cfg) e.world h cache with
    | none => rfl
    | some info => rfl
  · cases (e.lookup (e.config cfg)).found (e.config cfg) e.world h cache with
    | none => rfl
    | some info => rfl

omit [MetadataFormat] [Decompressors] in
theorem Event.frame_eq_of_error {e : Event} {err : Text} (hpath : hashPart e.path = .error err) :
    Frame (e.cacheAfter cfg cache) (e.found cfg cache).toList = Frame cache [] := by
  unfold Event.cacheAfter Event.fetched Event.found
  rw [hpath]
  rfl

theorem Event.action_triple (cfg : Config) (e : Event) (cache : NarinfoCache) :
    Action.Triple (Frame cache []) (fun _ => Frame (e.cacheAfter cfg cache) (e.found cfg cache).toList)
      (Frame (e.cacheAfter cfg cache) (e.found cfg cache).toList) (e.action cfg) := by
  cases hpath : hashPart e.path with
  | ok h =>
      rw [e.frame_eq_after hpath]
      cases e with
      | haveQuery p2pOnly world path => exact handleHavePath_triple hpath world p2pOnly
      | infoQuery p2pOnly world path => exact handleInfoPath_triple hpath world p2pOnly
      | substitute p2pOnly mode world path dest => exact trySwarmSubstitute_frame hpath mode world dest
  | error err =>
      rw [e.frame_eq_of_error hpath]
      cases e with
      | haveQuery p2pOnly world path =>
          simp only [Event.path] at hpath
          simp only [Event.action, handleHavePath, hpath]
          exact Action.Triple.pure fun _ _ hf => hf
      | infoQuery p2pOnly world path =>
          simp only [Event.path] at hpath
          simp only [Event.action, handleInfoPath, hpath]
          exact Action.Triple.pure fun _ _ hf => hf
      | substitute p2pOnly mode world path dest =>
          simp only [Event.path] at hpath
          simp only [Event.action, trySwarmSubstitute, hpath]
          exact Frame.keeps_replyNotFound

/-- **A request yields what its lookup finds and stores what it fetches**, whatever else it
does and however it ends. -/
theorem Event.action_frame (cfg : Config) (e : Event) (s : Shared) :
    (e.action cfg s).state.narinfos = e.cacheAfter cfg s.narinfos ∧
      infosOf (e.action cfg s).trace = (e.found cfg s.narinfos).toList :=
  (e.action_triple cfg s.narinfos).ends ⟨rfl, rfl⟩

end

end GuixP2p
