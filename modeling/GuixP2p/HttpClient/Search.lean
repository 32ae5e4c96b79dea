import GuixP2p.HttpClient
import GuixP2p.Lib.Search
import GuixP2p.Swarm.Block

/-!
# GuixP2p.HttpClient.Search

**Which candidate a download ends with.** `download_nar_http` tries every URL of every supported
entry of a narinfo until one has the right hash; what it returns depends on the outcome of each
trial only. A trial that fails is passed over, with one exception: a body that cannot be read to
its end makes the whole download fail (`await?` in the loop).
-/

namespace GuixP2p

open GuixP2p.Lib

/-! ### The candidates -/

/-- The entries with a supported compression, in the order of the narinfo. -/
def supportedEntries (narinfo : Narinfo) : List NarDownload :=
  narinfo.urls.filterMap fun entry =>
    match NarCompression.fromNarUrl entry with
    | .ok compression => some ⟨entry.url, compression⟩
    | .error _ => none

/-- All candidates, in the order they are tried. -/
def candidates (narinfo : Narinfo) : List NarDownload :=
  NarCompression.preference.flatMap (candidatesOf narinfo)

def NarCompression.rank (compression : NarCompression) : Nat := preference.idxOf compression

/-- `ordered` has the entries exactly once, by preference, and equally preferred ones as they
come. -/
structure Preferred (entries ordered : List NarDownload) : Prop where
  perm : ordered.Perm entries
  sorted : ordered.Pairwise fun a b => a.compression.rank ≤ b.compression.rank
  stable : ∀ compression, (ordered.filter fun d => decide (d.compression = compression)) =
    entries.filter fun d => decide (d.compression = compression)

theorem candidatesOf_eq_filter (narinfo : Narinfo) (pref : NarCompression) :
    candidatesOf narinfo pref =
      (supportedEntries narinfo).filter fun d => decide (d.compression = pref) := by
  unfold candidatesOf supportedEntries
  rw [List.filter_filterMap]
  refine List.filterMap_congr fun entry _ => ?_
  cases NarCompression.fromNarUrl entry with
  | error e => rfl
  | ok compression => simp [Option.filter]

theorem candidates_eq (narinfo : Narinfo) :
    candidates narinfo =
      byPreference NarDownload.compression NarCompression.preference (supportedEntries narinfo) :=
  List.flatMap_congr fun pref _ => candidatesOf_eq_filter narinfo pref

theorem candidates_preferred (narinfo : Narinfo) :
    Preferred (supportedEntries narinfo) (candidates narinfo) := by
  have hnodup : NarCompression.preference.Nodup := by decide
  have hall : ∀ compression, compression ∈ NarCompression.preference := by
    intro compression
    cases compression <;> decide
  rw [candidates_eq]
  exact ⟨byPreference_perm _ hnodup fun d _ => hall _, pairwise_byPreference _ hnodup _,
    fun compression => filter_byPreference _ hnodup (hall compression) _⟩

/-! ### Trials -/

/-- How the request for one URL ends. -/
inductive PairOutcome
  | connectionError (message : Text)
  | badStatus (status : Nat) (message : Text)
  /-- The body could not be read to its end. -/
  | unreadBody (message : Text)
  | undecompressable (e : HttpClientError)
  | decompressed (nar : Bytes)

/-- A URL that is tried. -/
structure Trial where
  url : Text
  outcome : PairOutcome

section

variable [Decompressors]

def pairOutcome (compression : NarCompression) : HttpAnswer Body → PairOutcome
  | .sendError message => .connectionError message
  | .response status message body =>
    if isSuccess status then
      match body.failure with
      | some e => .unreadBody e
      | none =>
        match compression.decompress body.chunks.flatten with
        | .error e => .undecompressable e
        | .ok nar => .decompressed nar
    else .badStatus status message

/-- The trials of some URLs, when `k` requests have been made. -/
def trialsFrom (web : Web Body) : List (NarCompression × Text) → Nat → List Trial
  | [], _ => []
  | (compression, url) :: rest, k => ⟨url, pairOutcome compression (web k url)⟩ :: trialsFrom web rest (k + 1)

/-- Every trial of a download that is not ended before. -/
def trials (cfg : Config) (narinfo : Narinfo) (web : Web Body) : List Trial :=
  trialsFrom web (candidateUrls cfg (candidates narinfo)) 0

end

namespace Trial

variable [Sha256] (narinfo : Narinfo) (t : Trial)

def Decompressed : Prop := ∃ nar, t.outcome = .decompressed nar

/-- The decompressed bytes match the narinfo's hash. -/
def Matches : Prop :=
  ∃ nar, t.outcome = .decompressed nar ∧ sha256Bytes narinfo.narHash = .ok (some (Sha256.digest nar))

/-- The trial is over and the next URL is tried. -/
def PassedOver : Prop :=
  match t.outcome with
  | .connectionError _ => True
  | .badStatus status _ => 400 ≤ status ∧ status < 600
  | .unreadBody _ => False
  | .undecompressable _ => True
  | .decompressed nar => ∃ d, sha256Bytes narinfo.narHash = .ok (some d) ∧ Sha256.digest nar ≠ d

end Trial

/-! ### The search -/

section

variable [Sha256] (narinfo : Narinfo)

/-- What `attempt` makes of an outcome. -/
def tryOutcome (url : Text) : PairOutcome → Except Panic Attempt
  | .connectionError message => .ok (.failed (.http message))
  | .badStatus status message =>
    match statusError status message with
    | .error p => .error p
    | .ok e => .ok (.failed e)
  | .unreadBody message => .ok (.aborted (.http message))
  | .undecompressable e => .ok (.failed e)
  | .decompressed nar =>
    match narHashMatches narinfo.narHash nar with
    | .error p => .error p
    | .ok (.error e) => .ok (.aborted e)
    | .ok (.ok false) => .ok (.mismatched ⟨nar, url, false⟩)
    | .ok (.ok true) => .ok (.accepted ⟨nar, url, true⟩)

/-- What `attemptAll` makes of the outcomes. -/
def search : List Trial → Option HttpClientError → Option HttpNarDownload →
    Except Panic (Except HttpClientError HttpNarDownload)
  | [], _, some mismatched => .ok (.ok mismatched)
  | [], some e, none => .ok (.error (.candidatesFailed e))
  | [], none, none => .ok (.error .notFound)
  | t :: ts, lastError, lastMismatched =>
    match tryOutcome narinfo t.url t.outcome with
    | .error p => .error p
    | .ok (.failed e) => search ts (some e) lastMismatched
    | .ok (.mismatched download) => search ts lastError (some download)
    | .ok (.accepted download) => .ok (.ok download)
    | .ok (.aborted e) => .ok (.error e)

variable [Decompressors] {σ ε : Type} (progress : Progress → ε)

omit [Sha256] [Decompressors] in
theorem readResponseBody_result (url : Text) (body : Body) (s : σ) :
    (readResponseBody progress url body s).result =
      .ok (match body.failure with
        | some message => .error (.http message)
        | none => .ok body.chunks.flatten) := by
  unfold readResponseBody
  cases body.failure with
  | none => rfl
  | some message => rfl

theorem attempt_result (compression : NarCompression) (url : Text) (answer : HttpAnswer Body) (s : σ) :
    (attempt progress narinfo compression url answer s).result =
      tryOutcome narinfo url (pairOutcome compression answer) := by
  cases answer with
  | sendError message => rfl
  | response status message body =>
      unfold attempt pairOutcome
      dsimp only
      split
      · have hbody := readResponseBody_result progress url body s
        rw [Action.bind_of_ok hbody]
        cases body.failure with
        | some e => rfl
        | none =>
            dsimp only
            cases compression.decompress body.chunks.flatten with
            | error e => rfl
            | ok nar =>
                dsimp only [tryOutcome]
                cases narHashMatches narinfo.narHash nar with
                | error p => rfl
                | ok result =>
                    cases result with
                    | error e => rfl
                    | ok same =>
                        cases same with
                        | false => rfl
                        | true => rfl
      · unfold tryOutcome
        dsimp only
        cases statusError status message with
        | error p => rfl
        | ok e => rfl

/-- **Refinement.** What a download returns is a function of the outcomes. -/
theorem attemptAll_result (web : Web Body) (urls : List (NarCompression × Text)) (k : Nat)
    (lastError : Option HttpClientError) (lastMismatched : Option HttpNarDownload) (s : σ) :
    (attemptAll progress narinfo web urls k lastError lastMismatched s).result =
      search narinfo (trialsFrom web urls k) lastError lastMismatched := by
  induction urls generalizing k lastError lastMismatched s with
  | nil =>
      cases lastMismatched with
      | some download => rfl
      | none =>
          cases lastError with
          | some e => rfl
          | none => rfl
  | cons candidate rest ih =>
      obtain ⟨compression, url⟩ := candidate
      have hattempt := attempt_result narinfo progress compression url (web k url) s
      rw [attemptAll, trialsFrom, search]
      cases htry : tryOutcome narinfo url (pairOutcome compression (web k url)) with
      | error p =>
          rw [htry] at hattempt
          rw [Action.bind_of_error hattempt]
      | ok result =>
          rw [htry] at hattempt
          rw [Action.bind_of_ok hattempt]
          cases result with
          | failed e => exact ih _ _ _ _
          | mismatched download => exact ih _ _ _ _
          | accepted download => rfl
          | aborted e => rfl

omit [Sha256] [Decompressors] in
theorem downloadCandidates_cases :
    downloadCandidates narinfo = .ok (candidates narinfo) ∨
      candidates narinfo = [] ∧ ∃ e, downloadCandidates narinfo = .error e := by
  unfold downloadCandidates
  dsimp only
  split
  next e hnone hsome => exact Or.inr ⟨hnone, e, rfl⟩
  next => exact Or.inl rfl

theorem downloadNarHttp_result (cfg : Config) (web : Web Body) (s : σ) :
    (downloadNarHttp progress cfg narinfo web s).result =
        search narinfo (trials cfg narinfo web) none none ∨
      trials cfg narinfo web = [] ∧ ∃ e, (downloadNarHttp progress cfg narinfo web s).result = .ok (.error e) := by
  unfold downloadNarHttp
  rcases downloadCandidates_cases narinfo with hok | ⟨hnone, e, herror⟩
  · refine Or.inl ?_
    rw [hok]
    unfold trials
    cases candidates narinfo with
    | nil => rfl
    | cons d ds => exact attemptAll_result narinfo progress web _ 0 none none s
  · refine Or.inr ⟨?_, e, ?_⟩
    · rw [trials, hnone]
      rfl
    · rw [herror]
      rfl

end

/-! ### Exhaustive search -/

section

variable [Sha256] {narinfo : Narinfo}

/-- The result is the first trial with the right hash; if there is none, one with the wrong
hash; if nothing could be decompressed, an error. -/
structure Exhaustive (narinfo : Narinfo) (ts : List Trial)
    (result : Except Panic (Except HttpClientError HttpNarDownload)) : Prop where
  first : ∀ pre t post, First (Trial.Matches narinfo) ts pre t post →
    ∃ nar, t.outcome = .decompressed nar ∧ result = .ok (.ok ⟨nar, t.url, true⟩)
  mismatched : (∀ t ∈ ts, ¬ t.Matches narinfo) → (∃ t ∈ ts, t.Decompressed) →
    ∃ t ∈ ts, ∃ nar, t.outcome = .decompressed nar ∧ result = .ok (.ok ⟨nar, t.url, false⟩)
  failed : (∀ t ∈ ts, ¬ t.Decompressed) → ∃ e, result = .ok (.error e)

/-- A trial that ends the search, where it should go on or return a download: its body cannot be
read and some trial decompresses, its status is neither a success nor an error, or it
decompresses and the narinfo's hash is none. -/
def Trial.CutsShort (narinfo : Narinfo) (ts : List Trial) (t : Trial) : Prop :=
  match t.outcome with
  | .connectionError _ => False
  | .badStatus status _ => ¬ (400 ≤ status ∧ status < 600)
  | .unreadBody _ => ∃ t' ∈ ts, t'.Decompressed
  | .undecompressable _ => False
  | .decompressed _ => ∀ d, sha256Bytes narinfo.narHash ≠ .ok (some d)

/-- A search that is cut short: a trial that is reached does it. -/
def CutShort (narinfo : Narinfo) (ts : List Trial) : Prop :=
  ∃ pre t post, First (fun t => ¬ t.PassedOver narinfo) ts pre t post ∧ t.CutsShort narinfo ts

theorem Trial.Matches.not_passedOver {t : Trial} (h : t.Matches narinfo) : ¬ t.PassedOver narinfo := by
  obtain ⟨nar, houtcome, hhash⟩ := h
  unfold PassedOver
  rw [houtcome]
  intro h'
  obtain ⟨d, hd, hne⟩ := h'
  rw [hhash] at hd
  exact hne (Option.some.inj (Except.ok.inj hd))

/-- What a trial that is passed over leaves. -/
theorem tryOutcome_of_passedOver {t : Trial} (h : t.PassedOver narinfo) :
    (∃ e, tryOutcome narinfo t.url t.outcome = .ok (.failed e) ∧ ¬ t.Decompressed) ∨
      ∃ nar, t.outcome = .decompressed nar ∧
        tryOutcome narinfo t.url t.outcome = .ok (.mismatched ⟨nar, t.url, false⟩) := by
  unfold Trial.PassedOver at h
  unfold Trial.Decompressed
  cases houtcome : t.outcome with
  | connectionError message => exact Or.inl ⟨_, rfl, by simp⟩
  | badStatus status message =>
      rw [houtcome] at h
      exact Or.inl ⟨.http message, by simp only [tryOutcome, statusError, if_pos h], by simp⟩
  | unreadBody message =>
      rw [houtcome] at h
      exact h.elim
  | undecompressable e => exact Or.inl ⟨_, rfl, by simp⟩
  | decompressed nar =>
      rw [houtcome] at h
      obtain ⟨d, hd, hne⟩ := h
      exact Or.inr ⟨nar, rfl, by simp only [tryOutcome, narHashMatches, hd, decide_eq_false hne]⟩

/-- **Step lemma, over any number of steps.** Trials that are passed over leave an error or the
last download with the wrong hash. -/
theorem search_passedOver {pre : List Trial} (hpre : ∀ t ∈ pre, t.PassedOver narinfo) (rest : List Trial)
    (lastError : Option HttpClientError) (lastMismatched : Option HttpNarDownload) :
    ∃ lastError' lastMismatched',
      search narinfo (pre ++ rest) lastError lastMismatched = search narinfo rest lastError' lastMismatched' ∧
      ((∀ t ∈ pre, ¬ t.Decompressed) ∧ lastMismatched' = lastMismatched ∨
        ∃ t ∈ pre, ∃ nar, t.outcome = .decompressed nar ∧ lastMismatched' = some ⟨nar, t.url, false⟩) := by
  induction pre generalizing lastError lastMismatched with
  | nil => exact ⟨lastError, lastMismatched, rfl, Or.inl ⟨by simp, rfl⟩⟩
  | cons t pre ih =>
      rw [List.forall_mem_cons] at hpre
      rcases tryOutcome_of_passedOver hpre.1 with ⟨e, htry, hnot⟩ | ⟨nar, houtcome, htry⟩
      · obtain ⟨lastError', lastMismatched', hsearch, hleft⟩ := ih hpre.2 (some e) lastMismatched
        refine ⟨lastError', lastMismatched', ?_, ?_⟩
        · rw [List.cons_append, search, htry]
          exact hsearch
        · rcases hleft with ⟨hnone, hkept⟩ | ⟨t', ht', hlast⟩
          · exact Or.inl ⟨List.forall_mem_cons.mpr ⟨hnot, hnone⟩, hkept⟩
          · exact Or.inr ⟨t', List.mem_cons_of_mem t ht', hlast⟩
      · obtain ⟨lastError', lastMismatched', hsearch, hleft⟩ := ih hpre.2 lastError (some ⟨nar, t.url, false⟩)
        refine ⟨lastError', lastMismatched', ?_, Or.inr ?_⟩
        · rw [List.cons_append, search, htry]
          exact hsearch
        · rcases hleft with ⟨-, hkept⟩ | ⟨t', ht', hlast⟩
          · exact ⟨t, List.mem_cons_self, nar, houtcome, hkept⟩
          · exact ⟨t', List.mem_cons_of_mem t ht', hlast⟩

namespace Exhaustive

variable {ts : List Trial} {result : Except Panic (Except HttpClientError HttpNarDownload)}

/-- If something could be decompressed, there is a download. -/
theorem ok_of_decompressed (h : Exhaustive narinfo ts result) (hsome : ∃ t ∈ ts, t.Decompressed) :
    ∃ download, result = .ok (.ok download) := by
  rcases First.exists_or_forall_not (Trial.Matches narinfo) ts with ⟨pre, t, post, hfirst⟩ | hnone
  · obtain ⟨nar, -, hresult⟩ := h.first pre t post hfirst
    exact ⟨_, hresult⟩
  · obtain ⟨t, -, nar, -, hresult⟩ := h.mismatched hnone hsome
    exact ⟨_, hresult⟩

theorem not_of_panic {p : Panic} (h : Exhaustive narinfo ts (.error p)) : False := by
  by_cases hsome : ∃ t ∈ ts, t.Decompressed
  · obtain ⟨download, hresult⟩ := h.ok_of_decompressed hsome
    cases hresult
  · obtain ⟨e, hresult⟩ := h.failed fun t ht hdecompressed => hsome ⟨t, ht, hdecompressed⟩
    cases hresult

theorem not_of_error {e : HttpClientError} (h : Exhaustive narinfo ts (.ok (.error e)))
    (hsome : ∃ t ∈ ts, t.Decompressed) : False := by
  obtain ⟨download, hresult⟩ := h.ok_of_decompressed hsome
  cases hresult

/-- If nothing could be decompressed, any error will do. -/
theorem of_error {e : HttpClientError} (hnone : ¬ ∃ t ∈ ts, t.Decompressed) :
    Exhaustive narinfo ts (.ok (.error e)) where
  first pre t post hfirst := by
    obtain ⟨nar, houtcome, -⟩ := hfirst.holds
    exact absurd ⟨t, hfirst.mem, nar, houtcome⟩ hnone
  mismatched _ hsome := absurd hsome hnone
  failed _ := ⟨e, rfl⟩

end Exhaustive

/-- All trials are passed over. -/
theorem search_all_passedOver {ts : List Trial} (hts : ∀ t ∈ ts, t.PassedOver narinfo) :
    Exhaustive narinfo ts (search narinfo ts none none) := by
  obtain ⟨lastError, lastMismatched, hsearch, hleft⟩ := search_passedOver hts [] none none
  rw [List.append_nil] at hsearch
  rw [hsearch]
  have hunmatched : ∀ t ∈ ts, ¬ t.Matches narinfo := fun t ht hm => hm.not_passedOver (hts t ht)
  rcases hleft with ⟨hnone, rfl⟩ | ⟨t, ht, nar, houtcome, rfl⟩
  · have hno : ¬ ∃ t ∈ ts, t.Decompressed := fun ⟨t, ht, hsome⟩ => hnone t ht hsome
    cases lastError with
    | none => exact Exhaustive.of_error hno
    | some e => exact Exhaustive.of_error hno
  · exact
      { first := fun pre t' post hfirst => absurd hfirst.holds (hunmatched t' hfirst.mem)
        mismatched := fun _ _ => ⟨t, ht, nar, houtcome, rfl⟩
        failed := fun hnone => absurd ⟨nar, houtcome⟩ (hnone t ht) }

/-- **The search is exhaustive exactly when it is not cut short.** -/
theorem search_exhaustive_iff (ts : List Trial) :
    Exhaustive narinfo ts (search narinfo ts none none) ↔ ¬ CutShort narinfo ts := by
  rcases First.exists_or_forall_not (fun t => ¬ Trial.PassedOver narinfo t) ts with
    ⟨pre, t, post, hfirst⟩ | hall
  · have hpre : ∀ t ∈ pre, t.PassedOver narinfo := fun t ht => not_not.mp (hfirst.passed t ht)
    obtain ⟨lastError, lastMismatched, hsearch, -⟩ := search_passedOver hpre (t :: post) none none
    rw [← hfirst.split] at hsearch
    have hcut : CutShort narinfo ts ↔ t.CutsShort narinfo ts := by
      constructor
      · intro h'
        obtain ⟨pre', t', post', hfirst', hcuts⟩ := h'
        rwa [hfirst.unique hfirst']
      · intro hcuts
        exact ⟨pre, t, post, hfirst, hcuts⟩
    have hstop := hfirst.holds
    rw [hcut, hsearch, search]
    unfold Trial.CutsShort
    unfold Trial.PassedOver at hstop
    -- the trial that was not passed over
    cases houtcome : t.outcome with
    | connectionError message =>
        rw [houtcome] at hstop
        exact absurd trivial hstop
    | undecompressable e =>
        rw [houtcome] at hstop
        exact absurd trivial hstop
    | badStatus status message =>
        rw [houtcome] at hstop
        simp only [tryOutcome, statusError, if_neg hstop]
        exact iff_of_false (fun h => h.not_of_panic) fun h => h hstop
    | unreadBody message =>
        simp only [tryOutcome]
        exact ⟨fun h hsome => h.not_of_error hsome, fun hnone => Exhaustive.of_error hnone⟩
    | decompressed nar =>
        rw [houtcome] at hstop
        have hsome : ∃ t ∈ ts, t.Decompressed := ⟨t, hfirst.mem, nar, houtcome⟩
        cases hhash : sha256Bytes narinfo.narHash with
        | error p =>
            simp only [tryOutcome, narHashMatches, hhash]
            exact iff_of_false (fun h => h.not_of_panic) fun h => h (by simp)
        | ok expected =>
            cases expected with
            | none =>
                simp only [tryOutcome, narHashMatches, hhash]
                exact iff_of_false (fun h => h.not_of_error hsome) fun h => h (by simp)
            | some d =>
                have hsame : Sha256.digest nar = d := by
                  by_contra hne
                  exact hstop ⟨d, hhash, hne⟩
                have hmatch : First (Trial.Matches narinfo) ts pre t post :=
                  ⟨hfirst.split, fun t' ht' hm => hm.not_passedOver (hpre t' ht'),
                    nar, houtcome, by rw [hhash, hsame]⟩
                simp only [tryOutcome, narHashMatches, hhash, decide_eq_true hsame]
                refine iff_of_true ⟨fun pre' t' post' hfirst' => ?_, fun hnone _ => ?_, fun hnone => ?_⟩ ?_
                · rw [← hmatch.unique hfirst']
                  exact ⟨nar, houtcome, rfl⟩
                · exact absurd hmatch.holds (hnone t hfirst.mem)
                · exact absurd ⟨nar, houtcome⟩ (hnone t hfirst.mem)
                · intro h
                  exact h d rfl
  · have hts : ∀ t ∈ ts, t.PassedOver narinfo := fun t ht => not_not.mp (hall t ht)
    refine iff_of_true (search_all_passedOver hts) ?_
    intro h'
    obtain ⟨pre, t, post, hfirst, -⟩ := h'
    exact hfirst.holds (hts t hfirst.mem)

variable [Decompressors] {σ ε : Type}

/-- **HTTP candidates are tried exhaustively, unless the search is cut short.** For every
narinfo, configuration and web: the candidates are the supported entries by preference, each
once, and the download is the one an exhaustive search finds, if and only if no trial that is
reached cuts the search short. -/
theorem downloadNarHttp_exhaustive (progress : Progress → ε) (cfg : Config) (narinfo : Narinfo)
    (web : Web Body) (s : σ) :
    Preferred (supportedEntries narinfo) (candidates narinfo) ∧
      (Exhaustive narinfo (trials cfg narinfo web) (downloadNarHttp progress cfg narinfo web s).result ↔
        ¬ CutShort narinfo (trials cfg narinfo web)) := by
  refine ⟨candidates_preferred narinfo, ?_⟩
  rcases downloadNarHttp_result narinfo progress cfg web s with hresult | ⟨hnil, e, hresult⟩
  · rw [hresult]
    exact search_exhaustive_iff _
  · rw [hresult, hnil]
    refine iff_of_true (Exhaustive.of_error (by simp)) ?_
    intro h
    obtain ⟨pre, t, post, hfirst, -⟩ := h
    exact List.not_mem_nil hfirst.mem

end

/-! ### A body that is not read to its end -/

def twoServers : Config where
  substituteUrls := ["s".toList, "t".toList]
  substitutePolicy := .httpFirst
  autoSeedDownloads := .off
  localNarinfoPath := none
  minProviders := 1
  maxPeersPerDownload := 1
  maxInFlightBlocksPerPeer := 1
  requestTimeoutSecs := 30
  stallTimeoutSecs := 30
  blockSize := 4

def mirroredNarinfo : Narinfo where
  storePath := "/gnu/store/a-b".toList
  narHash := Hex.encode (sampleSha256.digest sampleNar).toList
  narSize := 4
  references := []
  deriver := none
  urls := [⟨"n".toList, "none".toList, 4⟩]
  signedPortion := []
  signature := none

/-- Both servers have the NAR, and the connection to the first one breaks. -/
def brokenConnection : Web Body := fun k _ =>
  .response 200 [] ⟨none, [sampleNar], if k = 0 then some "connection reset".toList else none⟩

/-- The second server is never asked. -/
theorem broken_body_ends_search :
    ¬ @Exhaustive sampleSha256 mirroredNarinfo
      (@trials noDecompressors twoServers mirroredNarinfo brokenConnection)
      (@downloadNarHttp Unit Progress id noDecompressors sampleSha256 twoServers mirroredNarinfo
        brokenConnection ()).result := by
  intro h
  have htrials : @trials noDecompressors twoServers mirroredNarinfo brokenConnection =
      [⟨"s/n".toList, .unreadBody "connection reset".toList⟩, ⟨"t/n".toList, .decompressed sampleNar⟩] := by
    rfl
  have hresult : (@downloadNarHttp Unit Progress id noDecompressors sampleSha256 twoServers mirroredNarinfo
      brokenConnection ()).result = .ok (.error (.http "connection reset".toList)) := by
    rfl
  rw [hresult] at h
  refine @Exhaustive.not_of_error sampleSha256 _ _ _ h ?_
  rw [htrials]
  exact ⟨_, List.mem_cons_of_mem _ List.mem_cons_self, sampleNar, rfl⟩

end GuixP2p
