import GuixP2p.Daemon.Requests

/-!
# GuixP2p.Daemon.Advertise

**What `have` advertises, `info` describes and `substitute` can use**, if the narinfo is any good.
The three handlers look the narinfo up and check it each in its own way. As long as no narinfo in
the cache expires, they all go on with the same one: what the cache had at first, or else the first
that the servers gave (`claimedNarinfo`). But `have` looks at its hash only when it insists on
peers, and no handler compares its store path with the path it was asked for.
-/

namespace GuixP2p

open GuixP2p.Lib

/-! ### A cache in which nothing expires -/

/-- No narinfo expires from `start` to `stop`. -/
def NarinfoCache.Steady (start stop : Instant) (cache : NarinfoCache) : Prop :=
  ∀ h expiry info, cache.entries.lookup h = some (expiry, info) → expiry ≤ start ∨ stop < expiry

/-- A lookup that reads the cache from `start` to `stop`, and whose narinfo, if it stores one,
outlasts `stop`. -/
structure MetadataWorld.Within (start stop ttl : Instant) (world : MetadataWorld) : Prop where
  lookupAt : start ≤ world.lookupAt ∧ world.lookupAt ≤ stop
  fetchAt : start ≤ world.fetchAt ∧ world.fetchAt ≤ stop
  storeAt : stop < world.storeAt + ttl

section

variable {start stop : Instant} {cache : NarinfoCache} {world : MetadataWorld} {h : Text}

/-- It does not matter when such a cache is read. -/
theorem NarinfoCache.Steady.get_eq (hsteady : cache.Steady start stop) {t : Instant}
    (ht : start ≤ t ∧ t ≤ stop) (h : Text) : cache.get t h = cache.get start h := by
  unfold NarinfoCache.get
  cases hlookup : cache.entries.lookup h with
  | none => rfl
  | some e =>
      obtain ⟨expiry, info⟩ := e
      dsimp only
      rcases hsteady h expiry info hlookup with hold | hnew
      · rw [if_pos hold, if_pos (hold.trans ht.1)]
      · rw [if_neg (not_le.mpr (ht.2.trans_lt hnew)), if_neg (not_le.mpr ((ht.1.trans ht.2).trans_lt hnew))]

/-- Whatever the kind of the lookup. -/
theorem Lookup.cached_of_steady (hsteady : cache.Steady start stop)
    (hworld : world.Within start stop cache.ttl) (lookup : Lookup) :
    lookup.cached world h cache = cache.get start h := by
  cases lookup with
  | cacheOnly => exact hsteady.get_eq hworld.lookupAt h
  | fetchOnly => exact hsteady.get_eq hworld.fetchAt h
  | cacheThenFetch =>
      show (cache.get world.lookupAt h).or (cache.get world.fetchAt h) = _
      rw [hsteady.get_eq hworld.lookupAt, hsteady.get_eq hworld.fetchAt, Option.or_self]

theorem NarinfoCache.Steady.put (hsteady : cache.Steady start stop)
    (hworld : world.Within start stop cache.ttl) (info : Narinfo) :
    (cache.put world.storeAt h info).Steady start stop := by
  intro h' expiry info' hlookup
  rw [NarinfoCache.lookup_put] at hlookup
  split at hlookup
  · cases hlookup
    exact Or.inr hworld.storeAt
  · exact hsteady h' expiry info' hlookup

theorem NarinfoCache.get_put (hworld : world.Within start stop cache.ttl) (info : Narinfo) (h' : Text) :
    (cache.put world.storeAt h info).get start h' = if h' = h then some info else cache.get start h' := by
  unfold NarinfoCache.get
  rw [NarinfoCache.lookup_put]
  by_cases heq : h' = h
  · have hle : start ≤ stop := hworld.lookupAt.1.trans hworld.lookupAt.2
    rw [if_pos heq, if_pos heq]
    exact if_neg (not_le.mpr (hle.trans_lt hworld.storeAt))
  · rw [if_neg heq, if_neg heq]

end

/-! ### What a `have` finds -/

/-- The `have` of this configuration goes to the servers for a narinfo it does not have. -/
def Config.HaveAsks (cfg : Config) : Prop := cfg.substitutePolicy = .p2pOnly ∨ cfg.localNarinfoPath = none

instance (cfg : Config) : Decidable cfg.HaveAsks := inferInstanceAs (Decidable (_ ∨ _))

theorem lookup_ne_cacheOnly_iff {cfg : Config} {world : QueryWorld} {path : Text} :
    (Event.haveQuery false world path).lookup cfg ≠ .cacheOnly ↔ cfg.HaveAsks := by
  unfold Config.HaveAsks
  simp only [Event.lookup, defaultLookup]
  cases cfg.localNarinfoPath with
  | none => by_cases hpolicy : cfg.substitutePolicy = .p2pOnly <;> simp [hpolicy]
  | some file => by_cases hpolicy : cfg.substitutePolicy = .p2pOnly <;> simp [hpolicy]

section

variable [SignatureLib] [Sha256]

/-- What a path of a `have` query can bring into the cache for a hash part. -/
def fetchedFor (cfg : Config) (h : Text) (p : QueryWorld × Text) : Option Narinfo :=
  if hashPart p.2 = .ok h ∧ cfg.HaveAsks then serverNarinfo cfg p.1.metadata h else none

/-- **The narinfo for a hash part**, for a `have` query with these paths: what the cache has at
first, or else the first that the servers give. -/
def claimedNarinfo (cfg : Config) (start : Instant) (paths : List (QueryWorld × Text)) (cache : NarinfoCache)
    (h : Text) : Option Narinfo :=
  (cache.get start h).or (paths.findSome? (fetchedFor cfg h))

theorem claimedNarinfo_cons {cfg : Config} {start : Instant} {p : QueryWorld × Text}
    {paths : List (QueryWorld × Text)} {cache cache' : NarinfoCache} {h : Text}
    (hget : cache'.get start h = (cache.get start h).or (fetchedFor cfg h p)) :
    claimedNarinfo cfg start (p :: paths) cache h = claimedNarinfo cfg start paths cache' h := by
  unfold claimedNarinfo
  rw [hget, List.findSome?_cons, Option.or_assoc]
  cases fetchedFor cfg h p with
  | none => rfl
  | some info => rfl

variable {cfg : Config} {start stop : Instant} {cache : NarinfoCache} {p : QueryWorld × Text}

/-- What the lookup of a `have` fetches and finds. -/
theorem fetched_have (hsteady : cache.Steady start stop) (hworld : p.1.metadata.Within start stop cache.ttl)
    {h : Text} (hpath : hashPart p.2 = .ok h) :
    ((Event.haveQuery false p.1 p.2).lookup cfg).fetched cfg p.1.metadata h cache =
        (if cache.get start h = none then fetchedFor cfg h p else none) ∧
      ((Event.haveQuery false p.1 p.2).lookup cfg).found cfg p.1.metadata h cache =
        (cache.get start h).or (fetchedFor cfg h p) := by
  have hfetched : ((Event.haveQuery false p.1 p.2).lookup cfg).fetched cfg p.1.metadata h cache =
      if cache.get start h = none then fetchedFor cfg h p else none := by
    unfold Lookup.fetched Lookup.Misses fetchedFor
    simp only [lookup_ne_cacheOnly_iff, Lookup.cached_of_steady hsteady hworld, hpath, true_and]
    by_cases hasks : cfg.HaveAsks
    · simp [hasks]
    · simp [hasks]
  refine ⟨hfetched, ?_⟩
  unfold Lookup.found
  rw [hfetched, Lookup.cached_of_steady hsteady hworld]
  cases cache.get start h with
  | none => rfl
  | some info => rfl

/-- **The cache after a path of a `have`.** What it had it keeps. -/
theorem cacheAfter_have (hsteady : cache.Steady start stop) (hworld : p.1.metadata.Within start stop cache.ttl) :
    let after := (Event.haveQuery false p.1 p.2).cacheAfter cfg cache
    after.ttl = cache.ttl ∧ after.Steady start stop ∧
      ∀ h, after.get start h = (cache.get start h).or (fetchedFor cfg h p) := by
  intro after
  have hother : ∀ h, hashPart p.2 ≠ .ok h → (cache.get start h).or (fetchedFor cfg h p) = cache.get start h := by
    intro h hne
    rw [fetchedFor, if_neg fun hboth => hne hboth.1, Option.or_none]
  cases hpath : hashPart p.2 with
  | error err =>
      have hafter : after = cache := by
        show Event.cacheAfter cfg _ cache = cache
        unfold Event.cacheAfter Event.fetched
        simp only [Event.path, hpath]
      rw [hafter]
      exact ⟨rfl, hsteady, fun h => (hother h (by rw [hpath]; simp)).symm⟩
  | ok h₀ =>
      obtain ⟨hfetched, -⟩ := @fetched_have _ _ cfg _ _ _ _ hsteady hworld h₀ hpath
      have hafter : after = cache.store p.1.metadata.storeAt h₀
          (if cache.get start h₀ = none then fetchedFor cfg h₀ p else none) := by
        rw [← hfetched]
        show Event.cacheAfter cfg (.haveQuery false p.1 p.2) cache = _
        have hevent : (Event.haveQuery false p.1 p.2).fetched cfg cache =
            (((Event.haveQuery false p.1 p.2).lookup cfg).fetched cfg p.1.metadata h₀ cache).map (Prod.mk h₀) := by
          simp only [Event.fetched, Event.path, hpath]
          rfl
        unfold Event.cacheAfter
        rw [hevent]
        cases ((Event.haveQuery false p.1 p.2).lookup cfg).fetched cfg p.1.metadata h₀ cache with
        | none => rfl
        | some info => rfl
      rw [hafter]
      by_cases hget : cache.get start h₀ = none
      · rw [if_pos hget]
        cases hserver : fetchedFor cfg h₀ p with
        | none =>
            refine ⟨rfl, hsteady, fun h => ?_⟩
            by_cases heq : h = h₀
            · rw [heq, hserver, Option.or_none]
              rfl
            · exact (hother h fun hok => heq (Except.ok.inj (hpath.symm.trans hok)).symm).symm
        | some info =>
            refine ⟨rfl, hsteady.put hworld info, fun h => ?_⟩
            show (cache.put p.1.metadata.storeAt h₀ info).get start h = _
            rw [NarinfoCache.get_put hworld]
            by_cases heq : h = h₀
            · rw [if_pos heq, heq, hget, hserver, Option.none_or]
            · rw [if_neg heq]
              exact (hother h fun hok => heq (Except.ok.inj (hpath.symm.trans hok)).symm).symm
      · rw [if_neg hget]
        refine ⟨rfl, hsteady, fun h => ?_⟩
        by_cases heq : h = h₀
        · obtain ⟨info, hinfo⟩ := Option.ne_none_iff_exists'.mp hget
          rw [heq, hinfo, Option.some_or]
          exact hinfo
        · exact (hother h fun hok => heq (Except.ok.inj (hpath.symm.trans hok)).symm).symm

/-! ### What a `have` writes -/

/-- A lookup writes no line: what follows it does. -/
theorem line_mem_then {lookup : Lookup} {world : MetadataWorld} {h P : Text} {s : Shared}
    {m : Action Shared Effect Panic (Option Narinfo)} {f : Option Narinfo → Action Shared Effect Panic Unit}
    (hdoes : lookup.Does cfg world h m)
    (hyields : Action.Triple (fun _ τ => τ = []) (fun r _ τ => τ = [] ++ yielded h r) (fun _ τ => τ = []) m)
    (hline : Effect.line P ∈ ((m >>= f) s).trace) :
    Effect.line P ∈ (f (lookup.found cfg world h s.narinfos) (m s).state).trace := by
  have hsilent : Effect.line P ∉ (m s).trace := by
    cases hr : (m s).result with
    | error e =>
        have htrace := hyields.faults s [] e rfl hr
        rw [List.nil_append] at htrace
        rw [htrace]
        exact List.not_mem_nil
    | ok r =>
        have htrace := hyields.returns s [] r rfl hr
        rw [List.nil_append, List.nil_append] at htrace
        rw [htrace]
        intro hmem
        obtain ⟨info, -, heq⟩ := List.mem_map.mp hmem
        cases heq
  rcases Action.mem_trace_bind hline with hmem | ⟨r, hr, hmem⟩
  · exact absurd hmem hsilent
  · obtain ⟨hfound, -⟩ := (hdoes s.narinfos).returns s [] r ⟨rfl, rfl⟩ hr
    rwa [← hfound]

/-- What a `have` that may use HTTP does with what it found. -/
def advertise (world : QueryWorld) (path : Text) : Option Narinfo → Action Shared Effect Panic Unit
  | none => pure ()
  | some info => do
    Action.emit (.line path)
    if world.dashboard then
      let _ ← Action.ofExcept (sha256Bytes info.narHash)
      pure ()
    else pure ()

theorem handleHavePath_eq_advertise {world : QueryWorld} {path h : Text} (hpath : hashPart path = .ok h)
    (hpolicy : cfg.substitutePolicy ≠ .p2pOnly) :
    handleHavePath cfg world path = lookupNarinfo cfg world.metadata h >>= advertise world path := by
  have hcont : (fun r => match r with
      | none => pure ()
      | some info => do
        Action.emit (.line path)
        if world.dashboard then
          let _ ← Action.ofExcept (sha256Bytes info.narHash)
          pure ()
        else pure ()) = advertise world path := by
    funext r
    cases r <;> rfl
  rw [← hcont, handleHavePath, hpath]
  cases hp : cfg.substitutePolicy with
  | p2pOnly => exact absurd hp hpolicy
  | p2pFirst => rfl
  | httpFirst => rfl

omit [SignatureLib] [Sha256] in
theorem line_mem_advertise {world : QueryWorld} {path P : Text} {r : Option Narinfo} {s : Shared}
    (hline : Effect.line P ∈ (advertise world path r s).trace) : P = path ∧ ∃ info, r = some info := by
  cases r with
  | none => cases hline
  | some info =>
      rcases Action.mem_trace_bind hline with hmem | ⟨u, -, hmem⟩
      · exact ⟨Effect.line.inj (List.mem_singleton.mp hmem), info, rfl⟩
      · split at hmem
        · rcases Action.mem_trace_bind hmem with hmem | ⟨d, -, hmem⟩
          · rw [Action.ofExcept_apply] at hmem
            cases hmem
          · cases hmem
        · cases hmem

/-- A path is advertised when its narinfo was found; only a `have` that insists on peers has
decoded the hash in it. -/
theorem line_mem_handleHavePath {world : QueryWorld} {path P : Text} {s : Shared}
    (hline : Effect.line P ∈ (handleHavePath cfg world path s).trace) :
    P = path ∧ ∃ h info, hashPart path = .ok h ∧
      ((Event.haveQuery false world path).lookup cfg).found cfg world.metadata h s.narinfos = some info ∧
      (cfg.substitutePolicy = .p2pOnly → ∃ d, sha256Bytes info.narHash = .ok (some d)) := by
  cases hpath : hashPart path with
  | error err =>
      rw [handleHavePath, hpath] at hline
      cases hline
  | ok h =>
      by_cases hpolicy : cfg.substitutePolicy = .p2pOnly
      · have hlookup : (Event.haveQuery false world path).lookup cfg = .fetchOnly := if_pos hpolicy
        simp only [handleHavePath, hpath, hpolicy] at hline
        have hrest := line_mem_then fetchSharedNarinfo_does (fetchSharedNarinfo_triple cfg world.metadata) hline
        rw [hlookup]
        cases hfound : Lookup.fetchOnly.found cfg world.metadata h s.narinfos with
        | none =>
            rw [hfound] at hrest
            cases hrest
        | some info =>
            rw [hfound] at hrest
            rcases Action.mem_trace_bind hrest with hmem | ⟨digest, hdigest, hmem⟩
            · rw [Action.ofExcept_apply] at hmem
              cases hmem
            · rw [Action.ofExcept_apply] at hdigest
              cases digest with
              | none => cases hmem
              | some d =>
                  dsimp only at hmem
                  split at hmem
                  · obtain heq := List.mem_singleton.mp hmem
                    exact ⟨Effect.line.inj heq, h, info, rfl, hfound, fun _ => ⟨d, hdigest⟩⟩
                  · cases hmem
      · have hlookup : (Event.haveQuery false world path).lookup cfg = defaultLookup cfg := if_neg hpolicy
        rw [handleHavePath_eq_advertise hpath hpolicy] at hline
        have hrest := line_mem_then lookupNarinfo_does (lookupNarinfo_triple cfg world.metadata) hline
        obtain ⟨rfl, info, hfound⟩ := line_mem_advertise hrest
        rw [hlookup]
        exact ⟨rfl, h, info, rfl, hfound, fun hp => absurd hp hpolicy⟩

/-! ### Runs -/

/-- What a request leaves of the cache before it, in a time when nothing expires. -/
structure Extends (start stop : Instant) (before after : NarinfoCache) : Prop where
  steady : after.Steady start stop
  ttl : after.ttl = before.ttl
  keeps : ∀ h info, before.get start h = some info → after.get start h = some info

omit [SignatureLib] [Sha256] in
theorem Extends.trans {a b c : NarinfoCache} (hab : Extends start stop a b) (hbc : Extends start stop b c) :
    Extends start stop a c :=
  ⟨hbc.steady, hbc.ttl.trans hab.ttl, fun h info hget => hbc.keeps h info (hab.keeps h info hget)⟩

omit [SignatureLib] [Sha256] in
theorem Extends.bind {α β : Type} {m : Action Shared Effect Panic α} {f : α → Action Shared Effect Panic β}
    {s : Shared} {before : NarinfoCache} (hm : Extends start stop before (m s).state.narinfos)
    (hf : ∀ a, Extends start stop (m s).state.narinfos (f a (m s).state).state.narinfos) :
    Extends start stop before ((m >>= f) s).state.narinfos := by
  cases hr : (m s).result with
  | error e =>
      rw [Action.bind_of_error hr]
      exact hm
  | ok a =>
      rw [Action.bind_of_ok hr]
      exact hm.trans (hf a)

/-- **Step lemma.** -/
theorem handleHavePath_extends {s : Shared} (hsteady : s.narinfos.Steady start stop)
    (hworld : p.1.metadata.Within start stop s.narinfos.ttl) :
    Extends start stop s.narinfos (handleHavePath cfg p.1 p.2 s).state.narinfos ∧
      ∀ h, (handleHavePath cfg p.1 p.2 s).state.narinfos.get start h =
        (s.narinfos.get start h).or (fetchedFor cfg h p) := by
  have hstate : (handleHavePath cfg p.1 p.2 s).state.narinfos =
      (Event.haveQuery false p.1 p.2).cacheAfter cfg s.narinfos := by
    cases hpath : hashPart p.2 with
    | ok h =>
        have hafter := (@handleHavePath_triple _ _ cfg h s.narinfos p.2 hpath p.1 false).ends
          (s := s) ⟨rfl, rfl⟩
        have hframe := @Event.frame_eq_after _ _ cfg h s.narinfos (.haveQuery false p.1 p.2) hpath
        exact ((congrFun (congrFun hframe _) _).mpr hafter).1
    | error err =>
        rw [handleHavePath, hpath]
        simp only [Event.cacheAfter, Event.fetched, Event.path, hpath]
        rfl
  obtain ⟨httl, hafter, hget⟩ := @cacheAfter_have _ _ cfg start stop s.narinfos p hsteady hworld
  rw [hstate]
  refine ⟨⟨hafter, httl, fun h info hinfo => ?_⟩, hget⟩
  rw [hget, hinfo, Option.some_or]

theorem handlePaths_extends {paths : List (QueryWorld × Text)} {s : Shared} (hsteady : s.narinfos.Steady start stop)
    (hworlds : ∀ p ∈ paths, p.1.metadata.Within start stop s.narinfos.ttl) :
    Extends start stop s.narinfos (handlePaths (handleHavePath cfg) paths s).state.narinfos := by
  induction paths generalizing s with
  | nil => exact ⟨hsteady, rfl, fun _ _ hget => hget⟩
  | cons p rest ih =>
      rw [List.forall_mem_cons] at hworlds
      obtain ⟨hfirst, -⟩ := @handleHavePath_extends _ _ cfg start stop p s hsteady hworlds.1
      refine Extends.bind hfirst fun _ => ih hfirst.steady fun q hq => ?_
      rw [hfirst.ttl]
      exact hworlds.2 q hq

/-- **Run lemma.** A path that is advertised has the narinfo that the paths of the query claim, and
the cache still has it when the query is done. -/
theorem line_mem_handlePaths {paths : List (QueryWorld × Text)} {s : Shared} {P : Text}
    (hsteady : s.narinfos.Steady start stop)
    (hworlds : ∀ p ∈ paths, p.1.metadata.Within start stop s.narinfos.ttl)
    (hline : Effect.line P ∈ (handlePaths (handleHavePath cfg) paths s).trace) :
    ∃ h info, hashPart P = .ok h ∧ claimedNarinfo cfg start paths s.narinfos h = some info ∧
      (cfg.substitutePolicy = .p2pOnly → ∃ d, sha256Bytes info.narHash = .ok (some d)) ∧
      (handlePaths (handleHavePath cfg) paths s).state.narinfos.get start h = some info := by
  induction paths generalizing s with
  | nil => cases hline
  | cons p rest ih =>
      rw [List.forall_mem_cons] at hworlds
      obtain ⟨hfirst, hget⟩ := @handleHavePath_extends _ _ cfg start stop p s hsteady hworlds.1
      have hrest : ∀ q ∈ rest, q.1.metadata.Within start stop
          (handleHavePath cfg p.1 p.2 s).state.narinfos.ttl := by
        intro q hq
        rw [hfirst.ttl]
        exact hworlds.2 q hq
      rcases Action.mem_trace_bind hline with hmem | ⟨u, hr, hmem⟩
      · -- advertised for this path, and kept while the others are handled
        obtain ⟨rfl, h, info, hpath, hfound, hdecodes⟩ := line_mem_handleHavePath hmem
        rw [(fetched_have hsteady hworlds.1 hpath).2] at hfound
        have hclaimed : claimedNarinfo cfg start (p :: rest) s.narinfos h = some info := by
          rw [claimedNarinfo_cons (hget h), claimedNarinfo, hget, hfound, Option.some_or]
        refine ⟨h, info, hpath, hclaimed, hdecodes, ?_⟩
        have hrefl : Extends start stop (handleHavePath cfg p.1 p.2 s).state.narinfos
            (handleHavePath cfg p.1 p.2 s).state.narinfos :=
          ⟨hfirst.steady, rfl, fun _ _ hkept => hkept⟩
        exact (hrefl.bind fun _ => handlePaths_extends hfirst.steady hrest).keeps h info ((hget h).trans hfound)
      · obtain ⟨h, info, hpath, hclaimed, hdecodes, hafter⟩ := ih hfirst.steady hrest hmem
        refine ⟨h, info, hpath, (claimedNarinfo_cons (hget h)).trans hclaimed, hdecodes, ?_⟩
        show ((handleHavePath cfg p.1 p.2 >>= fun _ => handlePaths (handleHavePath cfg) rest) s).state.narinfos.get
          start h = _
        rw [Action.bind_of_ok hr]
        exact hafter

/-! ### What `info` and `substitute` make of it -/

omit [SignatureLib] [Sha256] in
theorem cachedNarinfo_of_get {world : MetadataWorld} {h : Text} {s : Shared} {info : Narinfo}
    (hget : s.narinfos.get world.lookupAt h = some info) :
    cachedNarinfo world h s = ⟨[.narinfo h info], s, .ok (some info)⟩ := by
  simp [cachedNarinfo, hget, bind, pure, Action.bind, Action.pure, Action.get, Action.emit, Action.emitAll]

theorem lookupNarinfo_of_get {world : MetadataWorld} {h : Text} {s : Shared} {info : Narinfo}
    (hget : s.narinfos.get world.lookupAt h = some info) :
    lookupNarinfo cfg world h s = ⟨[.narinfo h info], s, .ok (some info)⟩ := by
  simp [lookupNarinfo, cachedNarinfo_of_get hget, bind, pure, Action.bind, Action.pure]

/-- The reply lines of a trace. -/
def repliesOf (τ : List Effect) : List Text :=
  τ.filterMap fun
    | .line text => some text
    | _ => none

omit [SignatureLib] [Sha256] in
theorem repliesOf_append (τ ω : List Effect) : repliesOf (τ ++ ω) = repliesOf τ ++ repliesOf ω :=
  List.filterMap_append

omit [SignatureLib] [Sha256] in
theorem repliesOf_lines (lines : List Text) : repliesOf (lines.map Effect.line) = lines := by
  unfold repliesOf
  rw [List.filterMap_map]
  exact List.filterMap_some

/-- The reply is a record of this path. -/
def Describes (path : Text) (lines : List Text) : Prop := ∃ info, info.storePath = path ∧ lines = infoLines info

/-- `info` for a path whose narinfo is in the cache. -/
theorem handleInfoPath_of_get {world : QueryWorld} {path h : Text} {s : Shared} {info : Narinfo}
    (hpath : hashPart path = .ok h) (hget : s.narinfos.get world.metadata.lookupAt h = some info) :
    handleInfoPath cfg world path s =
      match sha256Bytes info.narHash with
      | .error p => ⟨[.narinfo h info], s, .error p⟩
      | .ok none => ⟨[.narinfo h info], s, .ok ()⟩
      | .ok (some _) => ⟨.narinfo h info :: (infoLines info).map .line, s, .ok ()⟩ := by
  have hlookup : infoNarinfo cfg world.metadata h s = ⟨[.narinfo h info], s, .ok (some info)⟩ := by
    unfold infoNarinfo
    cases cfg.substitutePolicy with
    | p2pOnly => exact cachedNarinfo_of_get hget
    | p2pFirst => exact lookupNarinfo_of_get hget
    | httpFirst => exact lookupNarinfo_of_get hget
  rw [handleInfoPath, hpath]
  dsimp only
  rw [Action.bind_of_ok (by rw [hlookup]), hlookup]
  dsimp only
  cases hsha : sha256Bytes info.narHash with
  | error e => rfl
  | ok digest =>
      cases digest with
      | none => rfl
      | some d => rfl

/-- The reply to an `info` query whose narinfo is cached. -/
theorem repliesOf_handleInfo {world : QueryWorld} {path h : Text} {s : Shared} {info : Narinfo}
    (hpath : hashPart path = .ok h) (hget : s.narinfos.get world.metadata.lookupAt h = some info) :
    repliesOf (handleInfo cfg [(world, path)] s).trace =
      match sha256Bytes info.narHash with
      | .ok (some _) => infoLines info
      | _ => [] := by
  simp only [handleInfo, handlePaths, bind, Action.bind, handleInfoPath_of_get hpath hget]
  cases hsha : sha256Bytes info.narHash with
  | error e => rfl
  | ok digest =>
      cases digest with
      | none => rfl
      | some d =>
          show repliesOf ((.narinfo h info :: (infoLines info).map .line ++ []) ++ [.replyEnd]) = _
          rw [List.append_nil, repliesOf_append]
          show repliesOf ((infoLines info).map .line) ++ [] = _
          rw [repliesOf_lines, List.append_nil]

/-- **`info` describes a path** whose narinfo is in the cache if and only if its hash can be decoded
and it is a narinfo of that very path. -/
theorem describes_handleInfo_iff {world : QueryWorld} {path h : Text} {s : Shared} {info : Narinfo}
    (hpath : hashPart path = .ok h) (hget : s.narinfos.get world.metadata.lookupAt h = some info) :
    Describes path (repliesOf (handleInfo cfg [(world, path)] s).trace) ↔
      (∃ d, sha256Bytes info.narHash = .ok (some d)) ∧ info.storePath = path := by
  rw [repliesOf_handleInfo hpath hget]
  cases hsha : sha256Bytes info.narHash with
  | error e =>
      refine iff_of_false (fun hdescribes => ?_) fun hboth => ?_
      · obtain ⟨info', -, hlines⟩ := hdescribes
        cases hlines
      · obtain ⟨⟨d, hd⟩, -⟩ := hboth
        cases hd
  | ok digest =>
      cases digest with
      | none =>
          refine iff_of_false (fun hdescribes => ?_) fun hboth => ?_
          · obtain ⟨info', -, hlines⟩ := hdescribes
            cases hlines
          · obtain ⟨⟨d, hd⟩, -⟩ := hboth
            cases hd
      | some d =>
          constructor
          · intro hdescribes
            obtain ⟨info', hname, hlines⟩ := hdescribes
            exact ⟨⟨d, rfl⟩, (List.cons.inj hlines).1.trans hname⟩
          · exact fun hboth => ⟨info, hboth.2, rfl⟩

variable [MetadataFormat] [Decompressors]

/-- The request goes on to download the NAR that a narinfo names: the metadata is usable, and
nothing has been answered yet. -/
def GoesOn (cfg : Config) (mode : ReplyMode) (world : SubstituteWorld) (path dest : Text) (s : Shared) : Prop :=
  ∃ (h : Text) (info : Narinfo) (d : Digest), sha256Bytes info.narHash = .ok (some d) ∧
    trySwarmSubstitute cfg mode world path dest s = (do
      Action.emit (.narinfo h info)
      match ← download cfg world info d h with
      | .ok nar => deliver cfg mode world.delivery dest info.storePath d nar
      | .error _ => replyNotFound : Action Shared Effect Panic Unit) s

theorem goesOn_of_get {mode : ReplyMode} {world : SubstituteWorld} {path dest h : Text} {s : Shared} {info : Narinfo}
    {d : Digest} (hpath : hashPart path = .ok h) (hget : s.narinfos.get world.metadata.lookupAt h = some info)
    (hsha : sha256Bytes info.narHash = .ok (some d)) : GoesOn cfg mode world path dest s := by
  refine ⟨h, info, d, hsha, ?_⟩
  have hlookup := @lookupNarinfo_of_get _ _ cfg world.metadata h s info hget
  rw [trySwarmSubstitute, hpath]
  dsimp only
  rw [Action.bind_of_ok (by rw [hlookup]), hlookup]
  simp only [substituteWith, hsha]
  rfl

/-- **What `have` claims, `info` describes.** In a time when no narinfo in the cache expires, and for
every policy, cache, server behaviour and list of paths: for a path `P` that `have` advertises, `info`
and `substitute` after it find the narinfo that `have` found. `info` writes a record of `P`, and
`substitute` goes on to the download, exactly when the hash in that narinfo can be decoded and its
store path is `P`. The former always holds if `have` insists on peers. -/
theorem have_claims_iff (cfg : Config) (start stop : Instant) (paths : List (QueryWorld × Text)) (s : Shared)
    (hsteady : s.narinfos.Steady start stop)
    (hworlds : ∀ p ∈ paths, p.1.metadata.Within start stop s.narinfos.ttl)
    (P : Text) (hline : Effect.line P ∈ (handleHave cfg paths s).trace)
    (world : QueryWorld) (hworld : world.metadata.Within start stop s.narinfos.ttl)
    (mode : ReplyMode) (request : SubstituteWorld) (dest : Text)
    (hrequest : request.metadata.Within start stop s.narinfos.ttl) :
    let s' := (handleHave cfg paths s).state
    ∃ h info, hashPart P = .ok h ∧ claimedNarinfo cfg start paths s.narinfos h = some info ∧
      (cfg.substitutePolicy = .p2pOnly → ∃ d, sha256Bytes info.narHash = .ok (some d)) ∧
      (Describes P (repliesOf (handleInfo cfg [(world, P)] s').trace) ∧ GoesOn cfg mode request P dest s' ↔
        (∃ d, sha256Bytes info.narHash = .ok (some d)) ∧ info.storePath = P) := by
  intro s'
  have hpaths : Effect.line P ∈ (handlePaths (handleHavePath cfg) paths s).trace := by
    rcases Action.mem_trace_bind hline with hmem | ⟨u, -, hmem⟩
    · exact hmem
    · cases List.mem_singleton.mp hmem
  have hstate : s' = (handlePaths (handleHavePath cfg) paths s).state := by
    show ((handlePaths (handleHavePath cfg) paths >>= fun _ => Action.emit .replyEnd) s).state = _
    cases hr : (handlePaths (handleHavePath cfg) paths s).result with
    | error e => rw [Action.bind_of_error hr]
    | ok u =>
        rw [Action.bind_of_ok hr]
        rfl
  obtain ⟨h, info, hpath, hclaimed, hdecodes, hget⟩ := line_mem_handlePaths hsteady hworlds hpaths
  have hextends := @handlePaths_extends _ _ cfg start stop paths s hsteady hworlds
  rw [← hstate] at hget hextends
  have hget' : ∀ {t : Instant}, start ≤ t ∧ t ≤ stop → s'.narinfos.get t h = some info := fun ht =>
    (hextends.steady.get_eq ht h).trans hget
  refine ⟨h, info, hpath, hclaimed, hdecodes, ?_⟩
  rw [describes_handleInfo_iff hpath (hget' hworld.lookupAt)]
  refine ⟨And.left, fun hboth => ⟨hboth, ?_⟩⟩
  obtain ⟨⟨d, hsha⟩, -⟩ := hboth
  exact goesOn_of_get hpath (hget' hrequest.lookupAt) hsha

end

/-! ### Narinfos that are good and that are not -/

/-- A path of a query, at time 0 and without servers. -/
def idleQuery : QueryWorld := ⟨⟨0, 0, 0, none, fun _ _ => .sendError []⟩, [], false⟩

/-- A cache with one narinfo, for the hash part `a`. -/
def sharedWith (info : Narinfo) : Shared := ⟨(NarinfoCache.new 60).put 0 "a".toList info, sampleDisk⟩

theorem steady_sharedWith (info : Narinfo) : (sharedWith info).narinfos.Steady 0 1 := by
  intro h expiry info' hlookup
  rw [sharedWith, NarinfoCache.lookup_put] at hlookup
  split at hlookup
  · cases hlookup
    exact Or.inr (by decide)
  · cases hlookup

theorem within_idleQuery (info : Narinfo) :
    idleQuery.metadata.Within 0 1 (sharedWith info).narinfos.ttl :=
  ⟨by decide, by decide, show 1 < 0 + 60 * 1000 by decide⟩

theorem have_claims_iff_sample :
    Describes "/gnu/store/a-b".toList (repliesOf (@handleInfo forgedLib sampleSha256 httpConfig
        [(idleQuery, "/gnu/store/a-b".toList)]
        (@handleHave forgedLib sampleSha256 httpConfig [(idleQuery, "/gnu/store/a-b".toList)]
          (sharedWith sampleNarinfo)).state).trace) := by
  obtain ⟨h, info, hpath, hclaimed, -, hiff⟩ := @have_claims_iff forgedLib sampleSha256 noMetadataFormat noDecompressors
    httpConfig 0 1 [(idleQuery, "/gnu/store/a-b".toList)] (sharedWith sampleNarinfo) (steady_sharedWith _)
    (fun p hp => by rw [List.mem_singleton.mp hp]; exact within_idleQuery _)
    "/gnu/store/a-b".toList (by decide +kernel) idleQuery (within_idleQuery _) (.socket true)
    (servingWorld idleQuery.metadata) "/d".toList (within_idleQuery _)
  have hpart : hashPart "/gnu/store/a-b".toList = .ok "a".toList := by decide +kernel
  obtain rfl : "a".toList = h := Except.ok.inj (hpart.symm.trans hpath)
  have hsample : @claimedNarinfo forgedLib sampleSha256 httpConfig 0 [(idleQuery, "/gnu/store/a-b".toList)]
      (sharedWith sampleNarinfo).narinfos "a".toList = some sampleNarinfo := by
    decide +kernel
  obtain rfl : sampleNarinfo = info := Option.some.inj (hsample.symm.trans hclaimed)
  refine (hiff.mpr ⟨⟨sampleSha256.digest sampleNar, ?_⟩, rfl⟩).1
  decide +kernel

/-- A narinfo with a hash that cannot be decoded. -/
def undecodableNarinfo : Narinfo := { sampleNarinfo with narHash := "sha256:e".toList }

/-- **What `have` claims, `info` may not describe.** `have` advertises `/gnu/store/a-b`, whose hash
cannot be decoded: `info` has nothing to say about it, and `substitute` answers `not-found`. It
advertises `/gnu/store/a-c`, which has the hash part of `/gnu/store/a-b`: `info` describes the
latter. -/
theorem have_claims_undecodable :
    let claims := fun path info => @handleHave forgedLib sampleSha256 httpConfig [(idleQuery, path)] (sharedWith info)
    let describes := fun path s => repliesOf (@handleInfo forgedLib sampleSha256 httpConfig [(idleQuery, path)] s).trace
    (repliesOf (claims "/gnu/store/a-b".toList undecodableNarinfo).trace = ["/gnu/store/a-b".toList] ∧
      describes "/gnu/store/a-b".toList (claims "/gnu/store/a-b".toList undecodableNarinfo).state = [] ∧
      repliesOf (@trySwarmSubstitute noMetadataFormat sampleSha256 forgedLib noDecompressors httpConfig (.socket true)
        (servingWorld idleQuery.metadata) "/gnu/store/a-b".toList "/d".toList
        (claims "/gnu/store/a-b".toList undecodableNarinfo).state).trace = ["not-found".toList]) ∧
    repliesOf (claims "/gnu/store/a-c".toList sampleNarinfo).trace = ["/gnu/store/a-c".toList] ∧
      (describes "/gnu/store/a-c".toList (claims "/gnu/store/a-c".toList sampleNarinfo).state).head? =
        some "/gnu/store/a-b".toList := by
  decide +kernel

end GuixP2p
