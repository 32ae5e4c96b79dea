import GuixP2p.Config
import GuixP2p.Lib.Action
import GuixP2p.NarHash
import GuixP2p.Narinfo.Signature

/-!
# GuixP2p.HttpClient

`src/http_client.rs`: fetching narinfos and NARs from the substitute servers.

The servers are not part of the program. A `Web` is what they answer: the `k`-th request of
a call is answered as it says, so a result that holds for every `Web` holds whatever the
servers do, also when they answer the same request differently the next time.

A status that is neither a success nor an error makes the client panic: it takes every
response that is not a success for an error, and unwraps it.
-/

namespace GuixP2p

open GuixP2p.Lib

/-- A server's answer; `message` is the text of the client's own error for it. -/
inductive HttpAnswer (β : Type)
  | sendError (message : Text)
  | response (status : Nat) (message : Text) (body : β)

/-- The answer to the `k`-th request of a call. -/
abbrev Web (β : Type) := Nat → Text → HttpAnswer β

inductive HttpClientError
  | http (message : Text)
  | notFound
  | badSignature
  | decompression (message : Text)
  /-- All candidates failed; with the last error. -/
  | candidatesFailed (last : HttpClientError)
  /-- `Other`, for an access control list that cannot be loaded. -/
  | acl (error : AclError)
  /-- `Other`, for a NAR hash that cannot be decoded. -/
  | invalidNarHash (narHash : Text)

def isSuccess (status : Nat) : Bool := decide (200 ≤ status ∧ status < 300)

/-- `response.error_for_status().unwrap_err()`. -/
def statusError (status : Nat) (message : Text) : Except Panic HttpClientError :=
  if 400 ≤ status ∧ status < 600 then .ok (.http message) else .error .unwrapFailed

def trimSlashes (baseUrl : Text) : Text := Text.dropEndWhile (fun c => decide (c = '/')) baseUrl

/-! ### Narinfos -/

def narinfoUrl (baseUrl hashPart : Text) : Text :=
  trimSlashes baseUrl ++ "/".toList ++ hashPart ++ ".narinfo".toList

/-- What the client makes of an answer; the text of a body that could not be read is an
error. -/
def fetchNarinfoFromUrl :
    HttpAnswer (Except Text Text) → Except Panic (Except HttpClientError Narinfo)
  | .sendError message => .ok (.error (.http message))
  | .response status message body =>
    if isSuccess status then
      match body with
      | .error e => .ok (.error (.http e))
      | .ok text => .ok (.ok (parseNarinfo text))
    else
      match statusError status message with
      | .error p => .error p
      | .ok e => .ok (.error e)

/-- What one metadata lookup finds around it: the clock at each access of the cache, the
access control list and the servers. -/
structure MetadataWorld where
  lookupAt : Instant
  fetchAt : Instant
  storeAt : Instant
  acl : Option Text
  web : Web (Except Text Text)

section

variable [SignatureLib] [Sha256]

/-- The loop over the substitute servers, with the number of requests made so far. -/
def fetchVerifiedNarinfo (web : Web (Except Text Text)) (hashPart : Text)
    (keys : List VerifyingKey) :
    List Text → Nat → Bool → Except Panic (Except HttpClientError Narinfo)
  | [], _, sawBadSignature => .ok (.error (if sawBadSignature then .badSignature else .notFound))
  | baseUrl :: rest, k, sawBadSignature =>
    match fetchNarinfoFromUrl (web k (narinfoUrl baseUrl hashPart)) with
    | .error p => .error p
    | .ok (.ok info) =>
      if verifyNarinfoSignature info keys then .ok (.ok info)
      else fetchVerifiedNarinfo web hashPart keys rest (k + 1) true
    | .ok (.error _) => fetchVerifiedNarinfo web hashPart keys rest (k + 1) sawBadSignature

/-- A panic happens before the cache is written. -/
def fetchNarinfo (cfg : Config) (world : MetadataWorld) (hashPart : Text)
    (cache : NarinfoCache) : Except Panic (NarinfoCache × Except HttpClientError Narinfo) :=
  match cache.get world.fetchAt hashPart with
  | some cached => .ok (cache, .ok cached)
  | none =>
    match loadAclKeys world.acl with
    | .error e => .ok (cache, .error (.acl e))
    | .ok keys =>
      match fetchVerifiedNarinfo world.web hashPart keys cfg.substituteUrls 0 false with
      | .error p => .error p
      | .ok (.error e) => .ok (cache, .error e)
      | .ok (.ok info) => .ok (cache.put world.storeAt hashPart info, .ok info)

end

/-! ### NAR candidates -/

inductive NarCompression
  | zstd
  | gzip
  | lzip
  | none
  deriving DecidableEq, Repr

namespace NarCompression

def preference : List NarCompression := [.zstd, .gzip, .lzip, .none]

def fromStr (value : Text) : Except HttpClientError NarCompression :=
  if value = "zstd".toList then .ok .zstd
  else if value = "gzip".toList then .ok .gzip
  else if value = "lzip".toList then .ok .lzip
  else if value = "none".toList ∨ value = [] then .ok .none
  else .error (.decompression ("unsupported compression: ".toList ++ value))

def fromNarUrl (url : NarUrl) : Except HttpClientError NarCompression := fromStr url.compression

end NarCompression

structure NarDownload where
  url : Text
  compression : NarCompression

/-- The entries of one compression, in the order of the narinfo. -/
def candidatesOf (narinfo : Narinfo) (pref : NarCompression) : List NarDownload :=
  narinfo.urls.filterMap fun entry =>
    match NarCompression.fromNarUrl entry with
    | .ok compression => if compression = pref then some ⟨entry.url, compression⟩ else none
    | .error _ => none

/-- Build nar download candidates based on compression preference. Entries with an
unsupported compression matter only if there are no others. -/
def downloadCandidates (narinfo : Narinfo) : Except HttpClientError (List NarDownload) :=
  let candidates := NarCompression.preference.flatMap (candidatesOf narinfo)
  let unsupported := narinfo.urls.findSome? fun entry =>
    match NarCompression.fromNarUrl entry with
    | .ok _ => none
    | .error e => some e
  match candidates, unsupported with
  | [], some e => .error e
  | _, _ => .ok candidates

def downloadUrlsFromBases (baseUrls : List Text) (narUrl : Text) : List Text :=
  if "http://".toList.isPrefixOf narUrl ∨ "https://".toList.isPrefixOf narUrl then [narUrl]
  else
    baseUrls.map fun baseUrl =>
      trimSlashes baseUrl ++ "/".toList ++ narUrl.dropWhile fun c => decide (c = '/')

def downloadUrls (cfg : Config) (narUrl : Text) : List Text :=
  downloadUrlsFromBases cfg.substituteUrls narUrl

/-- Every URL of every candidate, in the order they are tried. -/
def candidateUrls (cfg : Config) (downloads : List NarDownload) : List (NarCompression × Text) :=
  downloads.flatMap fun download =>
    (downloadUrls cfg download.url).map fun url => (download.compression, url)

def firstNarDownloadUrl (cfg : Config) (narinfo : Narinfo) : Except HttpClientError (Option Text) :=
  match downloadCandidates narinfo with
  | .error e => .error e
  | .ok [] => .ok none
  | .ok (download :: _) => .ok (downloadUrls cfg download.url).head?

/-! ### NAR downloads -/

/-- What the decompression crates compute. -/
class Decompressors where
  /-- `zstd::Decoder::new` fails with this message. -/
  zstdInit : Bytes → Option Text
  zstd : Bytes → Except Text Bytes
  gzip : Bytes → Except Text Bytes
  lzip : Bytes → Except Text Bytes

/-- Decompressors that fail. -/
@[reducible] def noDecompressors : Decompressors :=
  ⟨fun _ => some [], fun _ => .error [], fun _ => .error [], fun _ => .error []⟩

def withMessage (label : String) : Except Text Bytes → Except HttpClientError Bytes
  | .ok output => .ok output
  | .error e => .error (.decompression (label.toList ++ e))

section

variable [Decompressors]

def decompressZstd (data : Bytes) : Except HttpClientError Bytes :=
  match Decompressors.zstdInit data with
  | some e => .error (.decompression ("zstd init: ".toList ++ e))
  | none => withMessage "zstd: " (Decompressors.zstd data)

def decompressLzip (data : Bytes) : Except HttpClientError Bytes :=
  if (Text.utf8 "LZIP".toList).isPrefixOf data then withMessage "lzip: " (Decompressors.lzip data)
  else .error (.decompression "lzip: bad magic".toList)

def NarCompression.decompress (compression : NarCompression) (data : Bytes) :
    Except HttpClientError Bytes :=
  match compression with
  | .zstd => decompressZstd data
  | .gzip => withMessage "gzip: " (Decompressors.gzip data)
  | .lzip => decompressLzip data
  | .none => .ok data

end

/-- A response body as it arrives: its announced length, the chunks, and the error that
ended it early, if any. -/
structure Body where
  contentLength : Option Nat
  chunks : List Bytes
  failure : Option Text

structure HttpNarDownload where
  data : Bytes
  sourceUrl : Text
  verified : Bool

/-- One call of the progress callback. -/
structure Progress where
  sourceUrl : Text
  total : Nat
  transferred : Nat

/-- The callback runs after every chunk, with the bytes so far. -/
def progressOf (sourceUrl : Text) (total : Nat) : Nat → List Bytes → List Progress
  | _, [] => []
  | transferred, chunk :: rest =>
    ⟨sourceUrl, total, transferred + chunk.length⟩ ::
      progressOf sourceUrl total (transferred + chunk.length) rest

section

-- the callback: what a caller makes of a report
variable {σ ε : Type} (progress : Progress → ε)

def readResponseBody (sourceUrl : Text) (body : Body) :
    Action σ ε Panic (Except HttpClientError Bytes) := do
  Action.emitAll ((progressOf sourceUrl (body.contentLength.getD 0) 0 body.chunks).map progress)
  match body.failure with
  | some message => pure (.error (.http message))
  | none => pure (.ok body.chunks.flatten)

def narHashMatches [Sha256] (expectedNarHash : Text) (narData : Bytes) :
    Except Panic (Except HttpClientError Bool) :=
  match sha256Bytes expectedNarHash with
  | .error p => .error p
  | .ok none => .ok (.error (.invalidNarHash expectedNarHash))
  | .ok (some expected) => .ok (.ok (decide (Sha256.digest narData = expected)))

/-- How one candidate ends. -/
inductive Attempt
  /-- It failed and the next one is tried. -/
  | failed (e : HttpClientError)
  /-- It had the wrong hash and the next one is tried. -/
  | mismatched (download : HttpNarDownload)
  | accepted (download : HttpNarDownload)
  /-- It failed and no other is tried: the body could not be read. -/
  | aborted (e : HttpClientError)

variable [Decompressors] [Sha256]

/-- One turn of the loop of `download_nar_http`. -/
def attempt (narinfo : Narinfo) (compression : NarCompression) (fullUrl : Text)
    (answer : HttpAnswer Body) : Action σ ε Panic Attempt :=
  match answer with
  | .sendError message => pure (.failed (.http message))
  | .response status message body =>
    if isSuccess status then do
      match ← readResponseBody progress fullUrl body with
      | .error e => pure (.aborted e)
      | .ok compressed =>
        match compression.decompress compressed with
        | .error e => pure (.failed e)
        | .ok narData =>
          match narHashMatches narinfo.narHash narData with
          | .error p => Action.fault p
          | .ok (.error e) => pure (.aborted e)
          | .ok (.ok false) => pure (.mismatched ⟨narData, fullUrl, false⟩)
          | .ok (.ok true) => pure (.accepted ⟨narData, fullUrl, true⟩)
    else do
      let e ← Action.ofExcept (statusError status message)
      pure (.failed e)

/-- The loop over the candidates, with the number of requests made so far. A download with
the wrong hash is kept for the end. -/
def attemptAll (narinfo : Narinfo) (web : Web Body) :
    List (NarCompression × Text) → Nat → Option HttpClientError → Option HttpNarDownload →
      Action σ ε Panic (Except HttpClientError HttpNarDownload)
  | [], _, _, some mismatched => pure (.ok mismatched)
  | [], _, some e, none => pure (.error (.candidatesFailed e))
  | [], _, none, none => pure (.error .notFound)
  | (compression, url) :: rest, k, lastError, lastMismatched => do
    match ← attempt progress narinfo compression url (web k url) with
    | .failed e => attemptAll narinfo web rest (k + 1) (some e) lastMismatched
    | .mismatched download => attemptAll narinfo web rest (k + 1) lastError (some download)
    | .accepted download => pure (.ok download)
    | .aborted e => pure (.error e)

/-- Download a compressed nar from a substitute server and decompress it. -/
def downloadNarHttp (cfg : Config) (narinfo : Narinfo) (web : Web Body) :
    Action σ ε Panic (Except HttpClientError HttpNarDownload) :=
  match downloadCandidates narinfo with
  | .error e => pure (.error e)
  | .ok [] => pure (.error .notFound)
  | .ok downloads => attemptAll progress narinfo web (candidateUrls cfg downloads) 0 none none

/-! ### What a download does

A download reports progress from the URLs of its candidates, and does nothing else. -/

section

variable {progress} {I : σ → List ε → Prop} {U : Text → Prop}
  (hI : ∀ s τ (reports : List Progress), (∀ p ∈ reports, U p.sourceUrl) → I s τ →
    I s (τ ++ reports.map progress))

omit [Decompressors] [Sha256] in
theorem sourceUrl_progressOf {sourceUrl : Text} {total transferred : Nat} {chunks : List Bytes} :
    ∀ p ∈ progressOf sourceUrl total transferred chunks, p.sourceUrl = sourceUrl := by
  induction chunks generalizing transferred with
  | nil => simp [progressOf]
  | cons chunk chunks ih =>
      intro p hp
      rw [progressOf, List.mem_cons] at hp
      rcases hp with rfl | hp
      · rfl
      · exact ih p hp

include hI

omit [Decompressors] [Sha256] in
theorem keeps_readResponseBody {sourceUrl : Text} (hurl : U sourceUrl) (body : Body) :
    Action.Keeps I (readResponseBody progress sourceUrl body) := by
  refine Action.Keeps.bind (Action.Keeps.emitAll fun s τ => hI s τ _ fun p hp => ?_) fun _ => ?_
  · rwa [sourceUrl_progressOf p hp]
  · cases body.failure with
    | none => exact Action.Keeps.pure _
    | some message => exact Action.Keeps.pure _

/-- The NAR of a candidate comes from its URL. -/
theorem attempt_triple (narinfo : Narinfo) (compression : NarCompression) {fullUrl : Text}
    (hurl : U fullUrl) (answer : HttpAnswer Body) :
    Action.Triple I (fun r s τ => I s τ ∧
        ∀ d, r = .mismatched d ∨ r = .accepted d → U d.sourceUrl) I
      (attempt progress narinfo compression fullUrl answer) := by
  unfold attempt
  cases answer with
  | sendError message => exact Action.Triple.pure fun s τ hs => ⟨hs, by simp⟩
  | response status message body =>
      dsimp only
      split
      · refine Action.Triple.bind (keeps_readResponseBody hI hurl body) fun r => ?_
        cases r with
        | error e => exact Action.Triple.pure fun s τ hs => ⟨hs, by simp⟩
        | ok compressed =>
            dsimp only
            split
            · exact Action.Triple.pure fun s τ hs => ⟨hs, by simp⟩
            · split
              · exact Action.Triple.fault fun _ _ hs => hs
              all_goals exact Action.Triple.pure fun s τ hs => ⟨hs, by simp [hurl]⟩
      · exact Action.Triple.bind (Action.Keeps.ofExcept _)
          fun e => Action.Triple.pure fun s τ hs => ⟨hs, by simp⟩

theorem attemptAll_triple (narinfo : Narinfo) (web : Web Body) {urls : List (NarCompression × Text)}
    (hurls : ∀ candidate ∈ urls, U candidate.2) (k : Nat) (lastError : Option HttpClientError)
    {lastMismatched : Option HttpNarDownload} (hlast : ∀ d ∈ lastMismatched, U d.sourceUrl) :
    Action.Triple I (fun r s τ => I s τ ∧ ∀ d, r = .ok d → U d.sourceUrl) I
      (attemptAll progress narinfo web urls k lastError lastMismatched) := by
  induction urls generalizing k lastError lastMismatched with
  | nil =>
      cases lastMismatched with
      | some download =>
          refine Action.Triple.pure fun s τ hs => ⟨hs, fun d hd => ?_⟩
          rw [← Except.ok.inj hd]
          exact hlast download rfl
      | none =>
          cases lastError with
          | some e => exact Action.Triple.pure fun s τ hs => ⟨hs, by simp⟩
          | none => exact Action.Triple.pure fun s τ hs => ⟨hs, by simp⟩
  | cons candidate rest ih =>
      rw [List.forall_mem_cons] at hurls
      refine Action.Triple.bind (attempt_triple hI narinfo candidate.1 hurls.1 _) fun r => ?_
      cases r with
      | failed e => exact (ih hurls.2 (k + 1) (some e) hlast).assume fun s τ hs => hs.1
      | mismatched download =>
          refine Action.Triple.given (fun s τ hs => hs.2 download (Or.inl rfl)) fun hdownload => ?_
          refine (ih hurls.2 (k + 1) lastError ?_).assume fun s τ hs => hs.1
          intro d hd
          rw [← Option.some.inj hd]
          exact hdownload
      | accepted download =>
          refine Action.Triple.pure fun s τ hs => ⟨hs.1, fun d hd => ?_⟩
          rw [← Except.ok.inj hd]
          exact hs.2 download (Or.inr rfl)
      | aborted e => exact Action.Triple.pure fun s τ hs => ⟨hs.1, by simp⟩

/-- **A download only reports progress**: what its reports do not break, it keeps. -/
theorem downloadNarHttp_triple (cfg : Config) {narinfo : Narinfo}
    (hurls : ∀ downloads, downloadCandidates narinfo = .ok downloads →
      ∀ candidate ∈ candidateUrls cfg downloads, U candidate.2) (web : Web Body) :
    Action.Triple I (fun r s τ => I s τ ∧ ∀ d, r = .ok d → U d.sourceUrl) I
      (downloadNarHttp progress cfg narinfo web) := by
  unfold downloadNarHttp
  split
  · exact Action.Triple.pure fun s τ hs => ⟨hs, by simp⟩
  · exact Action.Triple.pure fun s τ hs => ⟨hs, by simp⟩
  next hcandidates => exact attemptAll_triple hI narinfo web (hurls _ hcandidates) 0 none (by simp)

end

end

end GuixP2p
