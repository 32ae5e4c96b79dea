import GuixP2p.Daemon.Substitute

/-!
# GuixP2p.Daemon.Query

`handle_have` and `handle_info` of `src/daemon.rs`: which of some store paths can be
substituted, and what is known about them. Both handle one path after the other and end
with an empty line.

With the policy `p2pOnly` the two differ: `have` fetches a missing narinfo, `info` does not.
-/

namespace GuixP2p

open GuixP2p.Lib

/-- What handling one path of a query meets. -/
structure QueryWorld where
  metadata : MetadataWorld
  /-- The providers the DHT finds in time. -/
  providers : List PeerId
  /-- The dashboard listens. -/
  dashboard : Bool

/-- Handle the paths of a query one by one. -/
def handlePaths (handle : QueryWorld → Text → Action Shared Effect Panic Unit) :
    List (QueryWorld × Text) → Action Shared Effect Panic Unit
  | [] => pure ()
  | (world, path) :: rest => do
    handle world path
    handlePaths handle rest

/-- The reply of `info` for one path. -/
def infoLines (info : Narinfo) : List Text :=
  [info.storePath, (info.deriver.map fromNarinfoPath).getD [], Text.ofNat info.references.length] ++
    info.references.map fromNarinfoPath ++
    [Text.ofNat ((info.urls.head?.map fun u => u.fileSize.toNat).getD 0),
      Text.ofNat info.narSize.toNat]

variable [SignatureLib] [Sha256]

/-- `have` for one path. A narinfo must be available, and with `p2pOnly` enough providers. -/
def handleHavePath (cfg : Config) (world : QueryWorld) (path : Text) :
    Action Shared Effect Panic Unit :=
  match hashPart path with
  | .error _ => pure ()
  | .ok h =>
    match cfg.substitutePolicy with
    | .p2pOnly => do
      match ← fetchSharedNarinfo cfg world.metadata h with
      | none => pure ()
      | some info =>
        match ← Action.ofExcept (sha256Bytes info.narHash) with
        | none => pure ()
        | some _ =>
          if cfg.minProviders ≤ world.providers.length then Action.emit (.line path) else pure ()
    | _ => do
      match ← lookupNarinfo cfg world.metadata h with
      | none => pure ()
      | some info =>
        Action.emit (.line path)
        -- the dashboard is told the digest
        if world.dashboard then
          let _ ← Action.ofExcept (sha256Bytes info.narHash)
          pure ()
        else pure ()

def handleHave (cfg : Config) (paths : List (QueryWorld × Text)) : Action Shared Effect Panic Unit := do
  handlePaths (handleHavePath cfg) paths
  Action.emit .replyEnd

/-- The lookup of `info`. -/
def infoNarinfo (cfg : Config) (world : MetadataWorld) (h : Text) :
    Action Shared Effect Panic (Option Narinfo) :=
  match cfg.substitutePolicy with
  | .p2pOnly => cachedNarinfo world h
  | _ => lookupNarinfo cfg world h

/-- `info` for one path. -/
def handleInfoPath (cfg : Config) (world : QueryWorld) (path : Text) :
    Action Shared Effect Panic Unit :=
  match hashPart path with
  | .error _ => pure ()
  | .ok h => do
    match ← infoNarinfo cfg world.metadata h with
    | none => pure ()
    | some info =>
      match ← Action.ofExcept (sha256Bytes info.narHash) with
      | none => pure ()
      | some _ => Action.emitAll ((infoLines info).map .line)

def handleInfo (cfg : Config) (paths : List (QueryWorld × Text)) : Action Shared Effect Panic Unit := do
  handlePaths (handleInfoPath cfg) paths
  Action.emit .replyEnd

end GuixP2p
