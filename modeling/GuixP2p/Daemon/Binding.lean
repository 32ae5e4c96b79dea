import GuixP2p.Daemon.Requests
import GuixP2p.Lib.Machine

/-!
# GuixP2p.Daemon.Binding

**Is the narinfo the one of the requested path?** A narinfo is fetched by the hash part of
the requested path, checked for its signature, and kept in the cache under that hash part.
Nothing compares the store path it names with the one that was asked for.

Over runs of requests, of any number of connections, the binding holds if and only if the
servers keep it (`bound_iff_honest`): the first narinfo with an accepted signature that is
found under `<hash>.narinfo` must be one of that hash part.
-/

namespace GuixP2p

open GuixP2p.Lib

/-! ### The answers of the servers -/

section

variable [SignatureLib] [Sha256]

omit [SignatureLib] [Sha256] in
/-- The answers to a request for the narinfo of a hash part, in the order they are asked
for; `k` requests were made before. -/
def answersFrom (web : Web (Except Text Text)) (h : Text) : List Text → Nat →
    List (HttpAnswer (Except Text Text))
  | [], _ => []
  | baseUrl :: rest, k => web k (narinfoUrl baseUrl h) :: answersFrom web h rest (k + 1)

/-- The answer is a narinfo with an accepted signature. -/
def Accepted (keys : List VerifyingKey) (answer : HttpAnswer (Except Text Text)) (info : Narinfo) :
    Prop :=
  fetchNarinfoFromUrl answer = .ok (.ok info) ∧ verifyNarinfoSignature info keys = true

/-- The answer is passed over: it is an error, or a narinfo without an accepted signature. -/
def PassedOver (keys : List VerifyingKey) (answer : HttpAnswer (Except Text Text)) : Prop :=
  (∃ e, fetchNarinfoFromUrl answer = .ok (.error e)) ∨
    ∃ info, fetchNarinfoFromUrl answer = .ok (.ok info) ∧ verifyNarinfoSignature info keys = false

/-- The first answer that is not passed over is this narinfo, accepted. -/
def FirstAccepted (keys : List VerifyingKey) (answers : List (HttpAnswer (Except Text Text)))
    (info : Narinfo) : Prop :=
  ∃ before answer after, answers = before ++ answer :: after ∧
    (∀ a ∈ before, PassedOver keys a) ∧ Accepted keys answer info

theorem firstAccepted_nil {keys : List VerifyingKey} {info : Narinfo} :
    ¬ FirstAccepted keys [] info := by
  intro h
  obtain ⟨before, answer, after, heq, -, -⟩ := h
  exact List.append_ne_nil_of_right_ne_nil _ (List.cons_ne_nil _ _) heq.symm

theorem firstAccepted_cons {keys : List VerifyingKey} {answer : HttpAnswer (Except Text Text)}
    {answers : List (HttpAnswer (Except Text Text))} {info : Narinfo} :
    FirstAccepted keys (answer :: answers) info ↔
      Accepted keys answer info ∨ PassedOver keys answer ∧ FirstAccepted keys answers info := by
  constructor
  · intro h
    obtain ⟨before, answer', after, heq, hpassed, haccepted⟩ := h
    cases before with
    | nil =>
        obtain ⟨rfl, -⟩ := List.cons.inj heq
        exact Or.inl haccepted
    | cons first before =>
        obtain ⟨rfl, hrest⟩ := List.cons.inj heq
        rw [List.forall_mem_cons] at hpassed
        exact Or.inr ⟨hpassed.1, before, answer', after, hrest, hpassed.2, haccepted⟩
  · intro h
    rcases h with haccepted | ⟨hpassed, before, answer', after, rfl, hbefore, haccepted⟩
    · exact ⟨[], answer, answers, rfl, fun _ ha => absurd ha List.not_mem_nil, haccepted⟩
    · exact ⟨answer :: before, answer', after, rfl, List.forall_mem_cons.mpr ⟨hpassed, hbefore⟩,
        haccepted⟩

theorem PassedOver.verify_eq_false {keys : List VerifyingKey} {info : Narinfo}
    {answer : HttpAnswer (Except Text Text)} (hpassed : PassedOver keys answer)
    (hanswer : fetchNarinfoFromUrl answer = .ok (.ok info)) :
    ¬ verifyNarinfoSignature info keys = true := by
  rcases hpassed with ⟨e, herror⟩ | ⟨info', hinfo, hfalse⟩
  · cases hanswer.symm.trans herror
  · cases hanswer.symm.trans hinfo
    rw [hfalse]
    exact Bool.false_ne_true

/-- **What the loop over the servers returns** is the first accepted answer. -/
theorem fetchVerifiedNarinfo_eq_ok_iff {web : Web (Except Text Text)} {h : Text}
    {keys : List VerifyingKey} {urls : List Text} {k : Nat} (saw : Bool) {info : Narinfo} :
    fetchVerifiedNarinfo web h keys urls k saw = .ok (.ok info) ↔
      FirstAccepted keys (answersFrom web h urls k) info := by
  induction urls generalizing k saw with
  | nil =>
      refine iff_of_false ?_ firstAccepted_nil
      simp [fetchVerifiedNarinfo]
  | cons baseUrl rest ih =>
      rw [answersFrom, firstAccepted_cons, fetchVerifiedNarinfo]
      cases hanswer : fetchNarinfoFromUrl (web k (narinfoUrl baseUrl h)) with
      | error p => simp [Accepted, PassedOver, hanswer]
      | ok r =>
          cases r with
          | error e => simp [Accepted, PassedOver, hanswer, ih]
          | ok info' =>
              dsimp only
              by_cases hverify : verifyNarinfoSignature info' keys = true
              · rw [if_pos hverify]
                refine ⟨fun heq => ?_, fun hfirst => ?_⟩
                · obtain rfl : info' = info := by simpa using heq
                  exact Or.inl ⟨hanswer, hverify⟩
                · rcases hfirst with hacc | ⟨hpassed, -⟩
                  · rw [← hanswer, hacc.1]
                  · exact absurd hverify (hpassed.verify_eq_false hanswer)
              · rw [if_neg hverify, ih]
                refine ⟨fun hrest => Or.inr ⟨Or.inr ⟨info', hanswer, ?_⟩, hrest⟩, fun hfirst => ?_⟩
                · simpa using hverify
                · rcases hfirst with hacc | ⟨-, hrest⟩
                  · obtain rfl : info' = info := by simpa [hanswer] using hacc.1
                    exact absurd hacc.2 hverify
                  · exact hrest

/-- What the servers give, in terms of their answers. -/
theorem serverNarinfo_eq_some_iff {cfg : Config} {world : MetadataWorld} {h : Text} {info : Narinfo} :
    serverNarinfo cfg world h = some info ↔
      ∃ keys, loadAclKeys world.acl = .ok keys ∧
        FirstAccepted keys (answersFrom world.web h cfg.substituteUrls 0) info := by
  unfold serverNarinfo
  cases hacl : loadAclKeys world.acl with
  | error e => simp
  | ok keys =>
      simp only [Except.ok.injEq, exists_eq_left']
      rw [← fetchVerifiedNarinfo_eq_ok_iff false]
      split
      next heq => simp [heq]
      next hne =>
        refine iff_of_false (fun h => nomatch h) fun heq => hne _ heq

end

/-! ### Runs of requests -/

/-- A request that was served, with what it did. -/
structure Served where
  event : Event
  trace : List Effect

/-- The daemon while it serves requests. A fetched narinfo is stored after its request has
looked at the cache, and other requests may come in between: until then it is `pending`. -/
structure Service where
  shared : Shared
  pending : List (Text × Narinfo)
  log : List Served

namespace Service

inductive Turn
  | request (e : Event)
  /-- The task with the `i`-th pending narinfo stores it. -/
  | store (i : Nat) (now : Instant)

/-- The daemon after it has read its local metadata, if it is configured to. -/
def start (cfg : Config) (now : Instant) (narinfos : List Narinfo) (disk : NarDisk) : Service where
  shared :=
    { narinfos :=
        if cfg.localNarinfoPath.isSome then loadLocalNarinfoMetadata now narinfos (NarinfoCache.new 60)
        else NarinfoCache.new 60
      disk }
  pending := []
  log := []

variable [MetadataFormat] [Sha256] [SignatureLib] [Decompressors]

/-- A panic of a request ends its connection, not the daemon. -/
def step (cfg : Config) (s : Service) : Turn → Except Panic Service
  | .request e =>
    let outcome := e.action cfg s.shared
    .ok {
      shared := { outcome.state with narinfos := s.shared.narinfos }
      pending := s.pending ++ (e.fetched cfg s.shared.narinfos).toList
      log := s.log ++ [⟨e, outcome.trace⟩] }
  | .store i now =>
    match s.pending[i]? with
    | none => .ok s
    | some (h, info) =>
      .ok { s with
        shared := { s.shared with narinfos := s.shared.narinfos.put now h info }
        pending := s.pending.eraseIdx i }

/-- A request that is not overtaken by others does to the shared state what its action
does. -/
theorem run_request_store (cfg : Config) (s : Service) (e : Event) :
    Machine.run (step cfg) s [.request e, .store s.pending.length e.world.storeAt] =
      .ok ⟨(e.action cfg s.shared).state, s.pending,
        s.log ++ [⟨e, (e.action cfg s.shared).trace⟩]⟩ := by
  have hcache := (e.action_frame cfg s.shared).1
  unfold Event.cacheAfter at hcache
  simp only [Machine.run, step]
  cases hfetched : e.fetched cfg s.shared.narinfos with
  | none =>
      rw [hfetched] at hcache
      rw [Option.toList_none, List.append_nil, List.getElem?_eq_none le_rfl]
      dsimp only at hcache ⊢
      rw [← hcache]
  | some p =>
      rw [hfetched] at hcache
      have hlast : (s.pending ++ [p])[s.pending.length]? = some p := by simp
      have herase : (s.pending ++ [p]).eraseIdx s.pending.length = s.pending := by
        simp [List.eraseIdx_append_of_length_le]
      rw [Option.toList_some, hlast, herase]
      dsimp only at hcache ⊢
      rw [← hcache]

end Service

/-! ### The binding -/

/-- The narinfo is one of the hash part. -/
def Narinfo.Names (h : Text) (info : Narinfo) : Prop := hashPart info.storePath = .ok h

instance (h : Text) (info : Narinfo) : Decidable (info.Names h) :=
  inferInstanceAs (Decidable (_ = _))

/-- Every entry of the cache is one of the hash part it is kept under. -/
def NarinfoCache.Bound (cache : NarinfoCache) : Prop :=
  ∀ h entry, cache.entries.lookup h = some entry → entry.2.Names h

namespace NarinfoCache

variable {cache : NarinfoCache} {now : Instant} {h : Text} {info : Narinfo}

theorem Bound.put (hbound : cache.Bound) (hnames : info.Names h) : (cache.put now h info).Bound := by
  intro h' entry hentry
  rw [lookup_put] at hentry
  split at hentry
  next heq =>
    obtain rfl := Option.some.inj hentry
    rw [heq]
    exact hnames
  next => exact hbound h' entry hentry

theorem Bound.get (hbound : cache.Bound) (hget : cache.get now h = some info) : info.Names h := by
  obtain ⟨expiry, hlookup⟩ := lookup_of_get hget
  exact hbound h _ hlookup

theorem bound_new (ttlSecs : Nat) : (NarinfoCache.new ttlSecs).Bound := by
  intro h entry hentry
  cases hentry

/-- Local metadata is kept under its own hash parts. -/
theorem Bound.loadLocalNarinfoMetadata (hbound : cache.Bound) (narinfos : List Narinfo) :
    (loadLocalNarinfoMetadata now narinfos cache).Bound := by
  induction narinfos generalizing cache with
  | nil => exact hbound
  | cons info rest ih =>
      refine ih ?_
      dsimp only
      split
      next h hpath => exact hbound.put hpath
      next => exact hbound

/-- What a lookup finds in the cache. -/
theorem Bound.cached (hbound : cache.Bound) {world : MetadataWorld} {lookup : Lookup}
    (hcached : lookup.cached world h cache = some info) : info.Names h := by
  cases lookup with
  | cacheOnly => exact hbound.get hcached
  | fetchOnly => exact hbound.get hcached
  | cacheThenFetch =>
      rcases Option.or_eq_some_iff.mp hcached with hget | ⟨-, hget⟩
      · exact hbound.get hget
      · exact hbound.get hget

end NarinfoCache

section

variable [Sha256]

/-- A success that a substitute request claims is about a NAR that the narinfo of the
requested hash part names, and that was handed over before. -/
def SuccessBound : Event → List Effect → Prop
  | .substitute _ mode _ path dest, τ =>
    ∀ pre text post, τ = pre ++ .line text :: post → ClaimsSuccess text →
      ∃ h info nar, hashPart path = .ok h ∧ .narinfo h info ∈ τ ∧ info.Names h ∧
        sha256Bytes info.narHash = .ok (some (Sha256.digest nar)) ∧ HandedOver mode dest nar pre
  | _, _ => True

/-- Every narinfo a request yields is one of the requested hash part. -/
def YieldsBound (e : Event) (τ : List Effect) : Prop :=
  ∀ h info, .narinfo h info ∈ τ → hashPart e.path = .ok h ∧ info.Names h

/-- **The binding between requested paths and narinfos.** -/
structure Bound (s : Service) : Prop where
  cache : s.shared.narinfos.Bound
  pending : ∀ p ∈ s.pending, p.2.Names p.1
  yields : ∀ r ∈ s.log, YieldsBound r.event r.trace
  success : ∀ r ∈ s.log, SuccessBound r.event r.trace

theorem bound_start (cfg : Config) (now : Instant) (narinfos : List Narinfo) (disk : NarDisk) :
    Bound (Service.start cfg now narinfos disk) where
  cache := by
    unfold Service.start
    dsimp only
    split
    · exact (NarinfoCache.bound_new 60).loadLocalNarinfoMetadata narinfos
    · exact NarinfoCache.bound_new 60
  pending _ hp := absurd hp List.not_mem_nil
  yields _ hr := absurd hr List.not_mem_nil
  success _ hr := absurd hr List.not_mem_nil

variable [SignatureLib]

/-- Where the request goes to the servers, the first accepted answer is one of the
requested hash part. -/
def Honest (cfg : Config) (s : Service) : Service.Turn → Prop
  | .request e => ∀ h, hashPart e.path = .ok h →
      (e.lookup (e.config cfg)).Misses e.world h s.shared.narinfos →
      ∀ keys info, loadAclKeys e.world.acl = .ok keys →
        FirstAccepted keys (answersFrom e.world.web h cfg.substituteUrls 0) info → info.Names h
  | .store .. => True

variable {cfg : Config}

omit [Sha256] [SignatureLib] in
@[simp] theorem substituteUrls_config (cfg : Config) (e : Event) :
    (e.config cfg).substituteUrls = cfg.substituteUrls := by
  unfold Event.config Config.forConnection
  split <;> rfl

/-- What a request fetches, in terms of the answers of the servers. -/
theorem Event.fetched_eq_some_iff {e : Event} {cache : NarinfoCache} {h : Text} {info : Narinfo} :
    e.fetched cfg cache = some (h, info) ↔
      hashPart e.path = .ok h ∧ (e.lookup (e.config cfg)).Misses e.world h cache ∧
        ∃ keys, loadAclKeys e.world.acl = .ok keys ∧
          FirstAccepted keys (answersFrom e.world.web h cfg.substituteUrls 0) info := by
  unfold Event.fetched
  cases hpath : hashPart e.path with
  | error err => simp
  | ok h' =>
      simp only [Option.map_eq_some_iff, Prod.mk.injEq, Except.ok.injEq, Lookup.fetched]
      rw [← substituteUrls_config cfg e, ← serverNarinfo_eq_some_iff]
      constructor
      · intro hall
        obtain ⟨info', hinfo, rfl, rfl⟩ := hall
        split at hinfo
        next hmiss => exact ⟨rfl, hmiss, hinfo⟩
        next => cases hinfo
      · intro hall
        obtain ⟨rfl, hmiss, hinfo⟩ := hall
        exact ⟨info, by rw [if_pos hmiss, hinfo], rfl, rfl⟩

/-- An honest turn fetches only narinfos of the requested hash part. -/
theorem honest_request_iff {s : Service} {e : Event} :
    Honest cfg s (.request e) ↔
      ∀ h info, e.fetched cfg s.shared.narinfos = some (h, info) → info.Names h := by
  constructor
  · intro hhonest h info hfetched
    obtain ⟨hpath, hmiss, keys, hacl, hfirst⟩ := Event.fetched_eq_some_iff.mp hfetched
    exact hhonest h hpath hmiss keys info hacl hfirst
  · intro hfetched h hpath hmiss keys info hacl hfirst
    exact hfetched h info (Event.fetched_eq_some_iff.mpr ⟨hpath, hmiss, keys, hacl, hfirst⟩)

/-- What a request finds is in the cache or fetched. -/
theorem Event.found_cases {e : Event} {cache : NarinfoCache} {h : Text} {info : Narinfo}
    (hfound : e.found cfg cache = some (h, info)) :
    hashPart e.path = .ok h ∧ ((e.lookup (e.config cfg)).cached e.world h cache = some info ∨
      e.fetched cfg cache = some (h, info)) := by
  unfold Event.found at hfound
  unfold Event.fetched
  cases hpath : hashPart e.path with
  | error err =>
      rw [hpath] at hfound
      cases hfound
  | ok h' =>
      rw [hpath] at hfound
      obtain ⟨info', hinfo, heq⟩ := Option.map_eq_some_iff.mp hfound
      obtain ⟨rfl, rfl⟩ := Prod.mk.inj heq
      refine ⟨rfl, ?_⟩
      rcases Option.or_eq_some_iff.mp hinfo with hcached | ⟨-, hfetched⟩
      · exact Or.inl hcached
      · exact Or.inr (by dsimp only; rw [hfetched]; rfl)

end

section

variable [MetadataFormat] [Sha256] [SignatureLib] [Decompressors] {cfg : Config}

/-- What an honest request yields. -/
theorem yieldsBound_request {s : Service} {e : Event} (hbound : s.shared.narinfos.Bound)
    (hhonest : Honest cfg s (.request e)) : YieldsBound e (e.action cfg s.shared).trace := by
  intro h info hmem
  rw [← mem_infosOf, (e.action_frame cfg s.shared).2, Option.mem_toList] at hmem
  obtain ⟨hpath, hcached | hfetched⟩ := Event.found_cases hmem
  · exact ⟨hpath, hbound.cached hcached⟩
  · exact ⟨hpath, honest_request_iff.mp hhonest h info hfetched⟩

/-- A success is about the narinfo that was yielded. -/
theorem successBound_request {s : Service} {e : Event}
    (hyields : YieldsBound e (e.action cfg s.shared).trace) :
    SuccessBound e (e.action cfg s.shared).trace := by
  cases e with
  | haveQuery p2pOnly world path => trivial
  | infoQuery p2pOnly world path => trivial
  | substitute p2pOnly mode world path dest =>
      intro pre text post heq hclaim
      have hverified : Verified mode path dest
          (trySwarmSubstitute (cfg.forConnection p2pOnly) mode world path dest s.shared).trace :=
        (trySwarmSubstitute_triple _ mode world path dest).ends rfl
      rcases hverified with hquiet | ⟨h, info, nar, hpath, hhash, hsafe⟩
      · refine absurd hclaim (hquiet (.line text) ?_)
        exact heq ▸ List.mem_append_cons_self
      · exact ⟨h, info, nar, hpath, hsafe.used, (hyields h info hsafe.used).2, hhash,
          (hsafe.success pre text post heq hclaim).2⟩

/-- A request keeps the binding if and only if the servers do. -/
theorem step_request_bound_iff {s s' : Service} {e : Event} (hbound : Bound s)
    (hstep : Service.step cfg s (.request e) = .ok s') :
    Bound s' ↔ Honest cfg s (.request e) := by
  obtain rfl := Except.ok.inj hstep
  constructor
  · intro hafter
    refine honest_request_iff.mpr fun h info hfetched => ?_
    exact hafter.pending (h, info) (List.mem_append_right _ (Option.mem_toList.mpr hfetched))
  · intro hhonest
    have hyields := yieldsBound_request hbound.cache hhonest
    have hsuccess := successBound_request hyields
    refine ⟨hbound.cache, fun p hp => ?_, fun r hr => ?_, fun r hr => ?_⟩
    · rcases List.mem_append.mp hp with hold | hnew
      · exact hbound.pending p hold
      · exact honest_request_iff.mp hhonest p.1 p.2 (Option.mem_toList.mp hnew)
    · rcases List.mem_append.mp hr with hold | hnew
      · exact hbound.yields r hold
      · obtain rfl := List.mem_singleton.mp hnew
        exact hyields
    · rcases List.mem_append.mp hr with hold | hnew
      · exact hbound.success r hold
      · obtain rfl := List.mem_singleton.mp hnew
        exact hsuccess

/-- Storing a pending narinfo keeps the binding. -/
theorem step_store_bound {s s' : Service} {i : Nat} {now : Instant} (hbound : Bound s)
    (hstep : Service.step cfg s (.store i now) = .ok s') : Bound s' := by
  simp only [Service.step] at hstep
  cases hpending : s.pending[i]? with
  | none =>
      rw [hpending] at hstep
      obtain rfl := Except.ok.inj hstep
      exact hbound
  | some p =>
      rw [hpending] at hstep
      obtain rfl := Except.ok.inj hstep
      have hnames := hbound.pending p (List.mem_of_getElem? hpending)
      exact ⟨hbound.cache.put hnames, fun q hq => hbound.pending q (List.mem_of_mem_eraseIdx hq),
        hbound.yields, hbound.success⟩

theorem step_bound_iff {s s' : Service} {t : Service.Turn} (hbound : Bound s)
    (hstep : Service.step cfg s t = .ok s') : Bound s' ↔ Honest cfg s t := by
  cases t with
  | request e => exact step_request_bound_iff hbound hstep
  | store i now => exact iff_of_true (step_store_bound hbound hstep) trivial

/-- No turn faults, so every run goes through. -/
theorem run_service_ok (cfg : Config) (s : Service) (turns : List Service.Turn) :
    ∃ t, Machine.run (Service.step cfg) s turns = .ok t := by
  have hstep : ∀ s t, True → ((∃ s', Service.step cfg s t = .ok s') ↔ True) := by
    intro s t _
    refine iff_of_true ?_ trivial
    cases t with
    | request e => exact ⟨_, rfl⟩
    | store i now =>
        simp only [Service.step]
        cases s.pending[i]? with
        | none => exact ⟨_, rfl⟩
        | some p => exact ⟨_, rfl⟩
  exact (Machine.run_ok_iff (J := fun _ => True) (fun _ _ _ _ _ => trivial) hstep trivial).mpr
    fun _ _ => trivial

/-- **The binding holds if and only if the servers keep it.** In every run of requests, of
all kinds and any number of connections, from any local metadata: every narinfo in the
cache and every narinfo a request yields is one of the requested hash part, and every
success is about a NAR such a narinfo names, exactly when at every request that misses in
the cache the first accepted answer of the servers is a narinfo of the requested hash part.
The daemon itself never compares the two. -/
theorem bound_iff_honest (cfg : Config) (now : Instant) (narinfos : List Narinfo) (disk : NarDisk)
    (turns : List Service.Turn) :
    (∀ turns' s, turns' <+: turns →
        Machine.run (Service.step cfg) (Service.start cfg now narinfos disk) turns' = .ok s →
        Bound s) ↔
      Machine.Meets (Service.step cfg) (Honest cfg) (Service.start cfg now narinfos disk) turns := by
  obtain ⟨t, hrun⟩ := run_service_ok cfg (Service.start cfg now narinfos disk) turns
  exact Machine.forall_states_iff_meets (J := fun _ => True) (fun _ _ _ _ _ => trivial)
    (fun _ _ _ _ hbound hstep => step_bound_iff hbound hstep) trivial
    (bound_start cfg now narinfos disk) hrun

end

/-! ### A narinfo under a foreign name -/

/-- The key of the substitute server. -/
def signerBytes : Digest :=
  #v[0xbb, 0xbd, 0x89, 0x89, 0xb6, 0x36, 0x41, 0xe2, 0xa2, 0x58, 0x73, 0xfb, 0x6b, 0x97, 0x5d, 0x79,
     0x14, 0xd8, 0x7d, 0x91, 0xa1, 0x43, 0x39, 0x3c, 0x6a, 0xee, 0xdd, 0xa0, 0x5a, 0xab, 0xac, 0xe8]

/-- What the server signed about another store item, whose NAR is `sampleNar`, and its
SHA-256 digest. -/
def swappedPortion : Text :=
  "StorePath: /gnu/store/x-y\n".toList ++ "NarHash: sha256:".toList ++
    Hex.encode (sampleSha256.digest sampleNar).toList ++ "\nNarSize: 4\n".toList

def swappedDigest : Digest :=
  #v[0x2c, 0x5c, 0xb2, 0xdf, 0x39, 0x59, 0x1f, 0x74, 0xbe, 0x41, 0x61, 0x28, 0x2c, 0x7a, 0xc3, 0x36,
     0xc2, 0xe1, 0x36, 0xb6, 0x54, 0x41, 0x3d, 0xfe, 0xb9, 0xeb, 0x00, 0x25, 0xaf, 0x90, 0x58, 0x86]

/-- The server's signature. -/
def swappedR : Digest :=
  #v[0x08, 0x15, 0xf4, 0x7e, 0xd5, 0xff, 0x45, 0xa9, 0xd8, 0x33, 0x5c, 0xe1, 0x8e, 0xed, 0xcb, 0x86,
     0xa8, 0xe1, 0x87, 0xb3, 0x64, 0x01, 0x65, 0xdf, 0x3a, 0xa4, 0x36, 0x4c, 0x12, 0xf2, 0xb5, 0xcb]

def swappedS : Digest :=
  #v[0x03, 0xad, 0x06, 0x03, 0x2e, 0x81, 0x35, 0x1b, 0x92, 0x16, 0x18, 0x49, 0x4b, 0x48, 0xbd, 0x18,
     0x3f, 0x73, 0x24, 0x62, 0x7d, 0xc2, 0x50, 0xc7, 0x67, 0xfd, 0xff, 0xc2, 0x92, 0x87, 0x99, 0x0d]

def swappedSexp : Sexp :=
  guixSignature (Text.utf8 "rfc6979".toList) swappedDigest.toList swappedR.toList swappedS.toList
    (Text.utf8 "Ed25519".toList) signerBytes.toList

/-- The text of the expression, and its base64 form. -/
@[irreducible] def swappedText : Text :=
  ["(signature (data", " (flags rfc6979)", " (hash sha256 #2", "C5CB2DF39591F74B",
    "E4161282C7AC336C", "2E136B654413DFEB", "9EB0025AF905886#", ")) (sig-val (ecd",
    "sa (r #0815F47ED", "5FF45A9D8335CE18", "EEDCB86A8E187B36", "40165DF3AA4364C1",
    "2F2B5CB#) (s #03", "AD06032E81351B92", "1618494B48BD183F", "7324627DC250C767",
    "FDFFC29287990D#)", ")) (public-key (", "ecc (curve Ed255", "19) (q #BBBD8989",
    "B63641E2A25873FB", "6B975D7914D87D91", "A143393C6AEEDDA0", "5AABACE8#))))"].flatMap String.toList

def swappedBase64 : Text :=
  ["KHNpZ25hdHVyZSAo", "ZGF0YSAoZmxhZ3Mg", "cmZjNjk3OSkgKGhh", "c2ggc2hhMjU2ICMy",
    "QzVDQjJERjM5NTkx", "Rjc0QkU0MTYxMjgy", "QzdBQzMzNkMyRTEz", "NkI2NTQ0MTNERkVC",
    "OUVCMDAyNUFGOTA1", "ODg2IykpIChzaWct", "dmFsIChlY2RzYSAo", "ciAjMDgxNUY0N0VE",
    "NUZGNDVBOUQ4MzM1", "Q0UxOEVFRENCODZB", "OEUxODdCMzY0MDE2", "NURGM0FBNDM2NEMx",
    "MkYyQjVDQiMpIChz", "ICMwM0FEMDYwMzJF", "ODEzNTFCOTIxNjE4", "NDk0QjQ4QkQxODNG",
    "NzMyNDYyN0RDMjUw", "Qzc2N0ZERkZDMjky", "ODc5OTBEIykpKSAo", "cHVibGljLWtleSAo",
    "ZWNjIChjdXJ2ZSBF", "ZDI1NTE5KSAocSAj", "QkJCRDg5ODlCNjM2", "NDFFMkEyNTg3M0ZC",
    "NkI5NzVENzkxNEQ4", "N0Q5MUExNDMzOTND", "NkFFRUREQTA1QUFC", "QUNFOCMpKSkp"].flatMap String.toList

/-- The libraries on this narinfo: the signature is valid under the server's key. -/
@[reducible] def swappedLib : SignatureLib where
  base64Decode t := if t = swappedBase64 then some (Text.utf8 swappedText) else none
  sexpNew bytes := if bytes = Text.utf8 swappedText then some swappedSexp else none
  pkVerify sigVal data publicKey :=
    decide (signedHash (.list data) = some swappedDigest.toList) &&
      decide (signedKey (.list publicKey) = some signerBytes.toList) &&
      decide ((findToken (.list sigVal) "r").bind (Sexp.nthData · 1) = some swappedR.toList) &&
      decide ((findToken (.list sigVal) "s").bind (Sexp.nthData · 1) = some swappedS.toList)
  validKey bytes := decide (bytes = signerBytes)

@[reducible] def swappedSha256 : Sha256 where
  digest data :=
    if data = Text.utf8 swappedPortion then swappedDigest else sampleSha256.digest data

/-- What the server sends under `a.narinfo`: its signed narinfo of `/gnu/store/x-y`. -/
def swappedAnswer : Text :=
  swappedPortion ++ "Signature: 1;s;".toList ++ swappedBase64 ++
    "\nURL: n\nCompression: none\n".toList

def swappedNarinfo : Narinfo where
  storePath := "/gnu/store/x-y".toList
  narHash := "sha256:".toList ++ Hex.encode (sampleSha256.digest sampleNar).toList
  narSize := 4
  references := []
  deriver := none
  urls := [⟨"n".toList, "none".toList, 0⟩]
  signedPortion := swappedPortion
  signature := some ("1;s;".toList ++ swappedBase64)

/-- The server's key in the access control list. -/
def swappedAcl : Text := "(q #".toList ++ Hex.encode signerBytes.toList ++ "#)".toList

def swappedMetadata : MetadataWorld where
  lookupAt := 0
  fetchAt := 0
  storeAt := 0
  acl := some swappedAcl
  web _ _ := .response 200 [] (.ok swappedAnswer)

/-- Guix asks for `/gnu/store/a-b`. -/
def swappedRequest : Event :=
  .substitute false (.socket true) (servingWorld swappedMetadata) "/gnu/store/a-b".toList "/d".toList

theorem parseNarinfo_swapped : parseNarinfo swappedAnswer = swappedNarinfo := by
  decide +kernel

def signerKey : @VerifyingKey swappedLib := @VerifyingKey.mk swappedLib signerBytes rfl

theorem loadAclKeys_swapped : @loadAclKeys swappedLib (some swappedAcl) = .ok [signerKey] := by
  decide +kernel

/-- The signature is a valid one, of an authorized key. -/
theorem verifyNarinfoSignature_swapped :
    @verifyNarinfoSignature swappedLib swappedSha256 swappedNarinfo [signerKey] = true := by
  have hparts : Text.splitN 3 ';' ("1;s;".toList ++ swappedBase64) =
      ["1".toList, "s".toList, swappedBase64] := rfl
  have hsexp : @signatureSexp swappedLib swappedNarinfo = some swappedSexp :=
    @signatureSexp_eq swappedLib _ _ _ _ _ _ rfl hparts (if_pos rfl) (if_pos rfl)
  have hhash : @expectedHash swappedSha256 swappedNarinfo = swappedDigest := by
    show (if Text.utf8 swappedPortion = Text.utf8 swappedPortion then swappedDigest
      else sampleSha256.digest (Text.utf8 swappedPortion)) = swappedDigest
    exact if_pos rfl
  exact (@verifyNarinfoSignature_eq_true_iff swappedLib swappedSha256 _ _).mpr
    ⟨swappedSexp, hsexp, by rw [hhash]; rfl, ⟨signerKey, List.mem_cons_self, rfl⟩,
      by decide +kernel⟩

theorem accepted_swapped :
    @Accepted swappedLib swappedSha256 [signerKey] (.response 200 [] (.ok swappedAnswer))
      swappedNarinfo := by
  refine ⟨?_, verifyNarinfoSignature_swapped⟩
  show Except.ok (Except.ok (parseNarinfo swappedAnswer)) = _
  rw [parseNarinfo_swapped]

theorem serverNarinfo_swapped :
    @serverNarinfo swappedLib swappedSha256 httpConfig swappedMetadata "a".toList =
      some swappedNarinfo := by
  refine (@serverNarinfo_eq_some_iff swappedLib swappedSha256 _ _ _ _).mpr
    ⟨[signerKey], loadAclKeys_swapped, ?_⟩
  exact ⟨[], _, [], rfl, fun _ ha => absurd ha List.not_mem_nil, accepted_swapped⟩

section

variable [MetadataFormat] [Sha256] [SignatureLib] [Decompressors]

omit [MetadataFormat] [Decompressors] in
/-- A lookup that has to go to the servers and succeeds. -/
theorem lookupNarinfo_of_server {cfg : Config} {world : MetadataWorld} {h : Text} {s : Shared}
    {info : Narinfo} (hlocal : cfg.localNarinfoPath = none)
    (hlookup : s.narinfos.get world.lookupAt h = none)
    (hfetch : s.narinfos.get world.fetchAt h = none)
    (hserver : serverNarinfo cfg world h = some info) :
    lookupNarinfo cfg world h s = ⟨[.narinfo h info],
      { s with narinfos := s.narinfos.put world.storeAt h info }, .ok (some info)⟩ := by
  have hnarinfo : fetchNarinfo cfg world h s.narinfos =
      .ok (s.narinfos.put world.storeAt h info, .ok info) := by
    rcases fetchNarinfo_of_miss hfetch with ⟨info', hserver', hok⟩ | ⟨hserver', -⟩
    · obtain rfl := Option.some.inj (hserver.symm.trans hserver')
      exact hok
    · cases hserver.symm.trans hserver'
  simp [lookupNarinfo, cachedNarinfo, fetchSharedNarinfo, hlocal, hlookup, hnarinfo, bind, pure,
    Action.bind, Action.pure, Action.get, Action.set, Action.emit, Action.emitAll]

/-- What such a request does. -/
theorem Event.action_of_server {cfg : Config} {p2pOnly : Bool} {mode : ReplyMode}
    {world : SubstituteWorld} {path dest h : Text} {s : Shared} {info : Narinfo}
    (hpath : hashPart path = .ok h)
    (hlookup : lookupNarinfo (cfg.forConnection p2pOnly) world.metadata h s = ⟨[.narinfo h info],
      { s with narinfos := s.narinfos.put world.metadata.storeAt h info }, .ok (some info)⟩) :
    ((Event.substitute p2pOnly mode world path dest).action cfg s).trace = .narinfo h info ::
      (substituteWith (cfg.forConnection p2pOnly) mode world dest h info
        { s with narinfos := s.narinfos.put world.metadata.storeAt h info }).trace := by
  show (trySwarmSubstitute (cfg.forConnection p2pOnly) mode world path dest s).trace = _
  simp [trySwarmSubstitute, hpath, hlookup, bind, Action.bind]

end

/-- What the daemon does for the request. -/
def swappedServed : Served where
  event := swappedRequest
  trace := (@Event.action noMetadataFormat swappedSha256 swappedLib noDecompressors httpConfig
    swappedRequest ⟨NarinfoCache.new 60, sampleDisk⟩).trace

theorem swappedServed_trace :
    swappedServed.trace = .narinfo "a".toList swappedNarinfo ::
      (@substituteWith noMetadataFormat swappedSha256 noDecompressors
        (httpConfig.forConnection false) (.socket true) (servingWorld swappedMetadata) "/d".toList
        "a".toList swappedNarinfo
        ⟨(NarinfoCache.new 60).put 0 "a".toList swappedNarinfo, sampleDisk⟩).trace := by
  have hpath : hashPart "/gnu/store/a-b".toList = .ok "a".toList := by decide +kernel
  have hlookup := @lookupNarinfo_of_server swappedSha256 swappedLib (httpConfig.forConnection false)
    swappedMetadata "a".toList ⟨NarinfoCache.new 60, sampleDisk⟩ swappedNarinfo rfl rfl rfl
    serverNarinfo_swapped
  have htrace := @Event.action_of_server noMetadataFormat swappedSha256 swappedLib noDecompressors
    httpConfig false (.socket true) (servingWorld swappedMetadata) "/gnu/store/a-b".toList
    "/d".toList "a".toList ⟨NarinfoCache.new 60, sampleDisk⟩ swappedNarinfo hpath hlookup
  unfold swappedServed swappedRequest
  dsimp only
  rw [htrace]
  rfl

/-- A request for `/gnu/store/a-b` succeeds with the NAR of `/gnu/store/x-y`: the server
answers with the narinfo it has signed for the latter. -/
theorem foreign_narinfo_succeeds :
    ∃ s, Machine.run (@Service.step noMetadataFormat swappedSha256 swappedLib noDecompressors
        httpConfig) (Service.start httpConfig 0 [] sampleDisk) [.request swappedRequest] = .ok s ∧
      s.log = [swappedServed] ∧ .narinfo "a".toList swappedNarinfo ∈ swappedServed.trace ∧
      .line (successLine (Hex.encode (sampleSha256.digest sampleNar).toList) 4) ∈
        swappedServed.trace ∧
      hashPart swappedNarinfo.storePath = .ok "x".toList ∧ ¬ @Bound swappedSha256 s := by
  have hused : .narinfo "a".toList swappedNarinfo ∈ swappedServed.trace := by
    rw [swappedServed_trace]
    exact List.mem_cons_self
  refine ⟨_, rfl, rfl, hused, ?_, by decide +kernel, fun hbound => ?_⟩
  · rw [swappedServed_trace]
    refine List.mem_cons_of_mem _ (List.mem_of_getLast? ?_)
    decide +kernel
  · have hyields := @Bound.yields swappedSha256 _ hbound swappedServed List.mem_cons_self
    have hnames := (hyields "a".toList swappedNarinfo hused).2
    exact absurd hnames (by decide +kernel)

end GuixP2p
