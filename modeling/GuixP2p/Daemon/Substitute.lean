import GuixP2p.Daemon.Metadata
import GuixP2p.Daemon.P2pDownload

/-!
# GuixP2p.Daemon.Substitute

`try_swarm_substitute` of `src/daemon.rs`: a `substitute` request from its store path to
its reply. The policy decides which of the two sources is tried first and whether the
other is the fallback. Whatever they return is checked against the narinfo once, in
`deliver`; after that the NAR goes to the socket or to the destination file, and maybe to
the NAR store.

A `SubstituteWorld` is everything the request meets: servers, peers, clocks and how each
operation on files and sockets goes.
-/

namespace GuixP2p

open GuixP2p.Lib

/-! ### Worlds -/

/-- What writing the destination meets. -/
structure DestinationWorld where
  /-- `symlink_metadata` fails for another reason than a missing file. -/
  unreadable : Bool
  /-- What survives of a directory that could not be removed. -/
  removeDir : Option (Text → Bool)
  removeFile : Bool
  copy : WriteOutcome

/-- What handing over a NAR meets. -/
structure DeliveryWorld where
  removeMismatched : Bool
  /-- The buffered replies could be flushed. -/
  flushed : Bool
  stream : StreamOutcome
  tempDir : Text
  processId : Nat
  temporary : WriteOutcome
  destination : DestinationWorld
  removeTemporary : Bool
  save : SaveWorld

structure SubstituteWorld where
  metadata : MetadataWorld
  p2p : P2pWorld
  web : Web Body
  delivery : DeliveryWorld

/-! ### Downloading -/

inductive DownloadSource
  | p2p
  | http
  deriving DecidableEq, Repr

structure DownloadedNar where
  data : Bytes
  traceUrl : Text
  source : DownloadSource

def smallNarFastFallbackBytes : UInt64 := 1024 * 1024

def smallNarProviderLookupSecs : UInt64 := 2

/-- How long to wait for providers, in seconds. -/
def providerLookupTimeout (cfg : Config) (narSize : UInt64) (fastSmallNarFallback : Bool) : UInt64 :=
  if fastSmallNarFallback ∧ narSize ≤ smallNarFastFallbackBytes then
    min cfg.requestTimeoutSecs smallNarProviderLookupSecs
  else cfg.requestTimeoutSecs

def httpTraceUrl (cfg : Config) (narinfo : Narinfo) : Text :=
  match firstNarDownloadUrl cfg narinfo with
  | .ok (some url) => url
  | _ => "https://fallback".toList

def emitStarted (narinfo : Narinfo) (url : Text) : Action Shared Effect Panic Unit :=
  Action.emit (.trace (formatTraceStarted narinfo.storePath url narinfo.narSize.toNat))

section

variable [Decompressors] [Sha256]

/-- Attempt HTTP nar download from substitute servers. -/
def tryHttpDownload (cfg : Config) (web : Web Body) (narinfo : Narinfo) :
    Action Shared Effect Panic (Except DownloadFailure DownloadedNar) := do
  let progress (p : Progress) : Effect :=
    .trace (formatTraceProgress narinfo.storePath p.sourceUrl p.total p.transferred)
  match ← downloadNarHttp progress cfg narinfo web with
  | .ok download => pure (.ok ⟨download.data, download.sourceUrl, .http⟩)
  | .error e => pure (.error (.http e))

omit [Decompressors] in
/-- The P2P download of a request, after its first line in the build log. -/
def p2pDownload (cfg : Config) (world : P2pWorld) (narinfo : Narinfo) (narHash : Digest)
    (hashPart : Text) (fastSmallNarFallback : Bool) :
    Action Shared Effect Panic (Except DownloadFailure DownloadedNar) := do
  emitStarted narinfo (p2pTraceUrl hashPart)
  match ← tryP2pDownload cfg world narHash narinfo.storePath narinfo.narSize hashPart
      (providerLookupTimeout cfg narinfo.narSize fastSmallNarFallback) with
  | .ok data => pure (.ok ⟨data, p2pTraceUrl hashPart, .p2p⟩)
  | .error e => pure (.error e)

/-- The HTTP download of a request, after its first line in the build log. -/
def httpDownload (cfg : Config) (web : Web Body) (narinfo : Narinfo) :
    Action Shared Effect Panic (Except DownloadFailure DownloadedNar) := do
  emitStarted narinfo (httpTraceUrl cfg narinfo)
  tryHttpDownload cfg web narinfo

/-- Full substitute download according to the configured policy. -/
def download (cfg : Config) (world : SubstituteWorld) (narinfo : Narinfo) (narHash : Digest)
    (hashPart : Text) : Action Shared Effect Panic (Except DownloadFailure DownloadedNar) :=
  match cfg.substitutePolicy with
  | .p2pOnly => p2pDownload cfg world.p2p narinfo narHash hashPart false
  | .p2pFirst => do
    match ← p2pDownload cfg world.p2p narinfo narHash hashPart true with
    | .ok nar => pure (.ok nar)
    | .error _ => httpDownload cfg world.web narinfo
  | .httpFirst => do
    match ← httpDownload cfg world.web narinfo with
    | .ok nar => pure (.ok nar)
    | .error _ => p2pDownload cfg world.p2p narinfo narHash hashPart false

/-- The lines that a request writes to the build log satisfy `T`, and the URLs in them `U`. -/
structure LogTexts (cfg : Config) (narinfo : Narinfo) (hashPart : Text) (T U : Text → Prop) :
    Prop where
  started : ∀ url, U url → T (formatTraceStarted narinfo.storePath url narinfo.narSize.toNat)
  progress : ∀ url total transferred, U url →
    T (formatTraceProgress narinfo.storePath url total transferred)
  p2p : U (p2pTraceUrl hashPart)
  fallback : U (fallbackTraceUrl hashPart)
  http : U (httpTraceUrl cfg narinfo)
  candidates : ∀ downloads, downloadCandidates narinfo = .ok downloads →
    ∀ candidate ∈ candidateUrls cfg downloads, U candidate.2

section

variable {I : Shared → List Effect → Prop} {cfg : Config} {narinfo : Narinfo} {hashPart : Text}
  {T U : Text → Prop} (htexts : LogTexts cfg narinfo hashPart T U)
  (hI : ∀ s τ (texts : List Text), (∀ text ∈ texts, T text) → I s τ → I s (τ ++ texts.map .trace))

include htexts hI

omit [Decompressors] in
theorem p2pDownload_triple (world : P2pWorld) (narHash : Digest) (fast : Bool) :
    Action.Triple I (fun r s τ => I s τ ∧ ∀ nar, r = .ok nar → U nar.traceUrl) I
      (p2pDownload cfg world narinfo narHash hashPart fast) := by
  have hline : ∀ text, T text → ∀ s τ, I s τ → I s (τ ++ [.trace text]) := by
    intro text htext s τ
    exact hI s τ [text] fun t ht => List.mem_singleton.mp ht ▸ htext
  refine Action.Triple.bind (Action.Keeps.emit (hline _ (htexts.started _ htexts.p2p))) fun _ => ?_
  refine Action.Triple.bind
    (keeps_tryP2pDownload (hline _ (htexts.started _ htexts.fallback)) _ _ _) fun r => ?_
  cases r with
  | ok data =>
      refine Action.Triple.pure fun s τ hs => ⟨hs, fun nar hnar => ?_⟩
      rw [← Except.ok.inj hnar]
      exact htexts.p2p
  | error e => exact Action.Triple.pure fun s τ hs => ⟨hs, by simp⟩

theorem httpDownload_triple (web : Web Body) :
    Action.Triple I (fun r s τ => I s τ ∧ ∀ nar, r = .ok nar → U nar.traceUrl) I
      (httpDownload cfg web narinfo) := by
  refine Action.Triple.bind (Action.Keeps.emit fun s τ => hI s τ [_] fun t ht => ?_) fun _ => ?_
  · rw [List.mem_singleton.mp ht]
    exact htexts.started _ htexts.http
  refine Action.Triple.bind (downloadNarHttp_triple (U := U) (fun s τ reports hreports hs => ?_) cfg
    htexts.candidates web) fun r => ?_
  · have hlog := hI s τ (reports.map fun p =>
      formatTraceProgress narinfo.storePath p.sourceUrl p.total p.transferred) (fun text htext => ?_) hs
    · rwa [List.map_map] at hlog
    · obtain ⟨p, hp, rfl⟩ := List.mem_map.mp htext
      exact htexts.progress _ _ _ (hreports p hp)
  · cases r with
    | ok download =>
        refine Action.Triple.pure fun s τ hs => ⟨hs.1, fun nar hnar => ?_⟩
        rw [← Except.ok.inj hnar]
        exact hs.2 download rfl
    | error e => exact Action.Triple.pure fun s τ hs => ⟨hs.1, by simp⟩

/-- **A download only writes to the build log**, whatever the policy. -/
theorem download_triple (world : SubstituteWorld) (narHash : Digest) :
    Action.Triple I (fun r s τ => I s τ ∧ ∀ nar, r = .ok nar → U nar.traceUrl) I
      (download cfg world narinfo narHash hashPart) := by
  unfold download
  split
  · exact p2pDownload_triple htexts hI _ _ _
  · refine Action.Triple.bind (p2pDownload_triple htexts hI _ _ _) fun r => ?_
    cases r with
    | ok nar => exact Action.Triple.pure fun s τ hs => hs
    | error e => exact (httpDownload_triple htexts hI _).assume fun s τ hs => hs.1
  · refine Action.Triple.bind (httpDownload_triple htexts hI _) fun r => ?_
    cases r with
    | ok nar => exact Action.Triple.pure fun s τ hs => hs
    | error e => exact (p2pDownload_triple htexts hI _ _ _).assume fun s τ hs => hs.1

end

/-- What no line of the build log can break, a download keeps. -/
theorem keeps_download {I : Shared → List Effect → Prop}
    (hI : ∀ s τ (texts : List Text), I s τ → I s (τ ++ texts.map .trace)) (cfg : Config)
    (world : SubstituteWorld) (narinfo : Narinfo) (narHash : Digest) (hashPart : Text) :
    Action.Keeps I (download cfg world narinfo narHash hashPart) := by
  have htexts : LogTexts cfg narinfo hashPart (fun _ => True) (fun _ => True) := by
    constructor <;> simp
  exact (download_triple htexts (fun s τ texts _ => hI s τ texts) world narHash).weaken
    (fun _ _ hs => hs) (fun _ _ _ hs => hs.1) fun _ _ hs => hs

end

/-! ### Handing over -/

def onDisk {α : Type} (m : Action NarDisk FileWrite Panic α) : Action Shared Effect Panic α :=
  Action.focus Shared.disk (fun s disk => { s with disk }) .write m

def removeDirAll (path : Text) (survives : Option (Text → Bool)) :
    Action NarDisk FileWrite Panic Bool := fun disk =>
  let (files, ok) := disk.files.removeDirAll path survives
  ⟨[], { disk with files }, .ok ok⟩

/-- Make room at the destination. -/
def clearDestination (dest : Text) (world : DestinationWorld) :
    Action NarDisk FileWrite Panic Bool := do
  let disk ← Action.get
  if world.unreadable then pure false
  else
    match disk.files dest with
    | some .dir => removeDirAll dest world.removeDir
    | some (.file _) => removeFile dest world.removeFile
    | none => pure true

/-- `fs::copy` to the destination: what is written is what the source file holds. -/
def copyToDestination (narPath dest : Text) (outcome : WriteOutcome) :
    Action NarDisk FileWrite Panic Bool := do
  let disk ← Action.get
  match disk.files.read narPath with
  | none => pure false
  | some data => writeFile .destination dest data outcome

/-- Write a NAR to the destination path requested by Guix. -/
def writeNarToDestination (narPath dest : Text) (world : DestinationWorld) :
    Action NarDisk FileWrite Panic Bool := do
  if ← clearDestination dest world then copyToDestination narPath dest world.copy
  else pure false

def temporaryPath (world : DeliveryWorld) (narHashHex : Text) : Text :=
  world.tempDir ++ "/guix-p2p-direct-".toList ++ Text.ofNat world.processId ++ "-".toList ++
    narHashHex ++ ".nar".toList

def replyNotFound : Action Shared Effect Panic Unit := Action.emit (.line notFoundLine)

/-- The direct mode: through a temporary file to the destination. -/
def handOverDirect (world : DeliveryWorld) (narHashHex dest : Text) (narData : Bytes) :
    Action Shared Effect Panic Bool := do
  let temp := temporaryPath world narHashHex
  if ← onDisk (writeFile .temporary temp narData world.temporary) then
    let ok ← onDisk (writeNarToDestination temp dest world.destination)
    let _ ← onDisk (removeFile temp world.removeTemporary)
    if ok then pure true
    else do
      replyNotFound
      pure false
  else do
    replyNotFound
    pure false

/-- The socket mode: the lines so far, then the NAR. -/
def handOverSocket (world : DeliveryWorld) (narData : Bytes) : Action Shared Effect Panic Bool := do
  if world.flushed then
    Action.emit .flush
    writeNarDataToSocket narData world.stream
  else pure false

/-- Hand over the NAR; `false` ends the request. -/
def handOver (mode : ReplyMode) (world : DeliveryWorld) (narHashHex dest : Text) (narData : Bytes) :
    Action Shared Effect Panic Bool :=
  match mode with
  | .socket false => do
    replyNotFound
    pure false
  | .socket true => handOverSocket world narData
  | .direct => handOverDirect world narHashHex dest narData

def shouldAutoSeed (cfg : Config) : DownloadSource → Bool
  | .p2p => cfg.autoSeedDownloads.shouldSeedP2p
  | .http => cfg.autoSeedDownloads.shouldSeedHttp

/-- Keep the NAR for other peers. A failed save is only logged. -/
def autoSeed [MetadataFormat] (cfg : Config) (world : SaveWorld) (narHashHex : Text)
    (narData : Bytes) (storePath : Text) (source : DownloadSource) :
    Action Shared Effect Panic Unit := do
  if shouldAutoSeed cfg source then
    let s ← Action.get
    if s.disk.store.hasNar narHashHex then pure ()
    else if ← onDisk (saveWithStorePath world narHashHex narData (some storePath)) then
      Action.emit (.startProviding narHashHex)
    else pure ()
  else pure ()

/-- `eq_ignore_ascii_case`. -/
def eqIgnoreAsciiCase (a b : Text) : Bool := decide (a.map Char.toLower = b.map Char.toLower)

/-- A NAR with the wrong hash: nothing of it is kept. -/
def rejectMismatch (world : DeliveryWorld) (dest expected actual : Text) :
    Action Shared Effect Panic Unit := do
  let _ ← onDisk (removeFile dest world.removeMismatched)
  Action.emit (.removeDestination dest)
  Action.emit (.line (hashMismatchLine expected actual))

section

variable [MetadataFormat] [Sha256]

/-- From a downloaded NAR to the reply. -/
def deliver (cfg : Config) (mode : ReplyMode) (world : DeliveryWorld) (dest : Text)
    (storePath : Text) (narHash : Digest) (nar : DownloadedNar) :
    Action Shared Effect Panic Unit := do
  let expected := Hex.encode narHash.toList
  let actual := Hex.encode (Sha256.digest nar.data).toList
  if eqIgnoreAsciiCase expected actual then
    if ← handOver mode world expected dest nar.data then
      autoSeed cfg world.save expected nar.data storePath nar.source
      Action.emit (.trace (formatTraceSucceeded storePath nar.traceUrl nar.data.length))
      Action.emit (.line (successLine expected nar.data.length))
    else pure ()
  else rejectMismatch world dest expected actual

variable [SignatureLib] [Decompressors]

/-- A request whose narinfo is known. -/
def substituteWith (cfg : Config) (mode : ReplyMode) (world : SubstituteWorld) (dest hashPart : Text)
    (narinfo : Narinfo) : Action Shared Effect Panic Unit :=
  match sha256Bytes narinfo.narHash with
  | .error p => Action.fault p
  | .ok none => replyNotFound
  | .ok (some narHash) => do
    match ← download cfg world narinfo narHash hashPart with
    | .ok nar => deliver cfg mode world.delivery dest narinfo.storePath narHash nar
    | .error _ => replyNotFound

def trySwarmSubstitute (cfg : Config) (mode : ReplyMode) (world : SubstituteWorld)
    (path dest : Text) : Action Shared Effect Panic Unit :=
  match hashPart path with
  | .error _ => replyNotFound
  | .ok h => do
    match ← lookupNarinfo cfg world.metadata h with
    | some narinfo => substituteWith cfg mode world dest h narinfo
    | none => replyNotFound

end

end GuixP2p
