import GuixP2p.Daemon.Protocol
import GuixP2p.HttpClient
import GuixP2p.StorePath

/-!
# GuixP2p.Daemon.Metadata

Where the request handlers of `src/daemon.rs` get the narinfo of a store path from: the
cache, filled at start-up from a local file or later by `fetch_narinfo`.

All handlers share one cache. It is keyed by the hash part of the *requested* path.
-/

namespace GuixP2p

open GuixP2p.Lib

/-- What the handlers of all connections share. -/
structure Shared where
  narinfos : NarinfoCache
  disk : NarDisk

/-- The narinfos of a local metadata file enter the cache under their own hash parts; one
without a hash part is skipped. -/
def loadLocalNarinfoMetadata (now : Instant) (narinfos : List Narinfo) (cache : NarinfoCache) :
    NarinfoCache :=
  narinfos.foldl (fun cache info =>
    match hashPart info.storePath with
    | .ok h => cache.put now h info
    | .error _ => cache) cache

/-- The cache lookup of a handler. -/
def cachedNarinfo (world : MetadataWorld) (hashPart : Text) :
    Action Shared Effect Panic (Option Narinfo) := do
  let s ← Action.get
  match s.narinfos.get world.lookupAt hashPart with
  | some info =>
    Action.emit (.narinfo hashPart info)
    pure (some info)
  | none => pure none

variable [SignatureLib] [Sha256]

/-- `fetch_narinfo` on the shared cache. -/
def fetchSharedNarinfo (cfg : Config) (world : MetadataWorld) (hashPart : Text) :
    Action Shared Effect Panic (Option Narinfo) := do
  let s ← Action.get
  match fetchNarinfo cfg world hashPart s.narinfos with
  | .error p => Action.fault p
  | .ok (_, .error _) => pure none
  | .ok (narinfos, .ok info) =>
    Action.set { s with narinfos }
    Action.emit (.narinfo hashPart info)
    pure (some info)

/-- The lookup of `substitute`, and of `have` and `info` where HTTP is allowed: a daemon
with local metadata asks no server. -/
def lookupNarinfo (cfg : Config) (world : MetadataWorld) (hashPart : Text) :
    Action Shared Effect Panic (Option Narinfo) := do
  match ← cachedNarinfo world hashPart with
  | some info => pure (some info)
  | none =>
    if cfg.localNarinfoPath.isSome then pure none
    else fetchSharedNarinfo cfg world hashPart

/-! ### What a lookup emits -/

section

variable {h : Text} {τ₀ : List Effect}

/-- The narinfo a lookup yields, if any, as the effect that records it. -/
def yielded (h : Text) (r : Option Narinfo) : List Effect := r.toList.map (Effect.narinfo h)

omit [SignatureLib] [Sha256] in
theorem cachedNarinfo_triple (world : MetadataWorld) :
    Action.Triple (fun _ τ => τ = τ₀) (fun r _ τ => τ = τ₀ ++ yielded h r) (fun _ τ => τ = τ₀)
      (cachedNarinfo world h) := by
  refine Action.Triple.bind Action.Triple.get fun s => ?_
  split
  next info hget =>
    refine Action.Triple.bind (Q := fun _ _ τ => τ = τ₀ ++ yielded h (some info))
      (Action.Triple.emit fun _ τ hτ => ?_) fun _ => Action.Triple.pure fun _ _ hτ => hτ
    rw [hτ.2]
    rfl
  next => exact Action.Triple.pure fun _ τ hτ => hτ.2.trans (List.append_nil τ₀).symm

theorem fetchSharedNarinfo_triple (cfg : Config) (world : MetadataWorld) :
    Action.Triple (fun _ τ => τ = τ₀) (fun r _ τ => τ = τ₀ ++ yielded h r) (fun _ τ => τ = τ₀)
      (fetchSharedNarinfo cfg world h) := by
  refine Action.Triple.bind Action.Triple.get fun s => ?_
  split
  · exact Action.Triple.fault fun _ _ hτ => hτ.2
  · exact Action.Triple.pure fun _ τ hτ => hτ.2.trans (List.append_nil τ₀).symm
  next narinfos info hfetch =>
    refine Action.Triple.bind (Q := fun _ _ τ => τ = τ₀) (Action.Triple.set fun _ _ hτ => hτ.2)
      fun _ => ?_
    refine Action.Triple.bind (Q := fun _ _ τ => τ = τ₀ ++ yielded h (some info))
      (Action.Triple.emit fun _ τ hτ => ?_) fun _ => Action.Triple.pure fun _ _ hτ => hτ
    rw [hτ]
    rfl

theorem lookupNarinfo_triple (cfg : Config) (world : MetadataWorld) :
    Action.Triple (fun _ τ => τ = τ₀) (fun r _ τ => τ = τ₀ ++ yielded h r) (fun _ τ => τ = τ₀)
      (lookupNarinfo cfg world h) := by
  refine Action.Triple.bind (cachedNarinfo_triple world) fun r => ?_
  cases r with
  | some info => exact Action.Triple.pure fun _ _ hτ => hτ
  | none =>
      dsimp only
      split
      · exact Action.Triple.pure fun _ _ hτ => hτ
      · exact (fetchSharedNarinfo_triple cfg world).assume fun _ _ hτ =>
          hτ.trans (List.append_nil τ₀)

end

end GuixP2p
