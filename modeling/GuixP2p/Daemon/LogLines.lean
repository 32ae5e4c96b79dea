import GuixP2p.Daemon.Query

/-!
# GuixP2p.Daemon.LogLines

**What a request writes to the build log is one line each time**, as far as its narinfo and
the servers of the configuration are. A store path, a URL or a base URL with a newline in it
gets into the log as it is, and the framing of the socket protocol does not survive that.

A narinfo that was fetched has no newlines (`parseNarinfo_oneLine`); one from the local
metadata file can have them.
-/

namespace GuixP2p

open GuixP2p.Lib

/-! ### Narinfos -/

/-- The parts of a narinfo that get into the build log have no newlines. -/
structure Narinfo.OneLine (info : Narinfo) : Prop where
  storePath : '\n' ∉ info.storePath
  urls : ∀ entry ∈ info.urls, '\n' ∉ entry.url

/-- The value of a line has no newline. -/
theorem newline_not_mem_keyValue {line key value : Text} (hline : '\n' ∉ line)
    (h : keyValue (Text.trim line) = some (key, value)) : '\n' ∉ value := by
  obtain ⟨⟨a, b⟩, hsplit, heq⟩ := Option.map_eq_some_iff.mp h
  obtain ⟨-, rfl⟩ := Prod.mk.inj heq
  intro hmem
  exact hline (Text.mem_of_mem_trim (Text.mem_of_splitOnce hsplit (Or.inr (Text.mem_of_mem_trim hmem))))

theorem newline_not_mem_signedFields {signedPortion key value : Text}
    (h : (signedFields signedPortion).lookup key = some value) : '\n' ∉ value := by
  obtain ⟨line, hline, hvalue⟩ := List.mem_filterMap.mp (Table.mem_of_lookup_ofPairs h)
  exact newline_not_mem_keyValue (Text.newline_not_mem_lines hline) hvalue

theorem newline_not_mem_unsignedFields {remainder : Text} {field : Text × Text}
    (h : field ∈ unsignedFields remainder) : '\n' ∉ field.2 := by
  obtain ⟨line, hline, hfield⟩ := List.mem_filterMap.mp h
  dsimp only at hfield
  split at hfield
  · cases hfield
  · exact newline_not_mem_keyValue (Text.newline_not_mem_lines hline) hfield

theorem newline_not_mem_narUrls {fields : List (Text × Text)} (hfields : ∀ field ∈ fields, '\n' ∉ field.2) :
    ∀ entry ∈ narUrls fields, '\n' ∉ entry.url := by
  intro entry hentry
  obtain ⟨⟨url, i⟩, hmem, rfl⟩ := List.mem_map.mp hentry
  have hurl : url ∈ valuesOf "URL" fields := List.fst_mem_of_mem_zipIdx hmem
  obtain ⟨field, hfield, rfl⟩ := List.mem_map.mp hurl
  exact hfields field (List.mem_filter.mp hfield).1

/-- **A narinfo that was parsed has no newlines.** -/
theorem parseNarinfo_oneLine (input : Text) : (parseNarinfo input).OneLine where
  storePath := by
    unfold parseNarinfo
    dsimp only
    cases hlookup : (signedFields _).lookup "StorePath".toList with
    | none => exact List.not_mem_nil
    | some value => exact newline_not_mem_signedFields hlookup
  urls := by
    unfold parseNarinfo
    dsimp only
    refine newline_not_mem_narUrls fun field hfield => ?_
    cases hsplit : Text.splitAtFirst "Signature:".toList input with
    | none =>
        rw [hsplit] at hfield
        cases hfield
    | some split =>
        rw [hsplit] at hfield
        exact newline_not_mem_unsignedFields hfield

/-! ### The cache -/

def NarinfoCache.OneLine (cache : NarinfoCache) : Prop :=
  ∀ h expiry info, cache.entries.lookup h = some (expiry, info) → info.OneLine

/-- No text that a request reads from the configuration or the cache breaks a line. -/
structure OneLineTexts (cfg : Config) (s : Shared) : Prop where
  servers : ∀ url ∈ cfg.substituteUrls, '\n' ∉ url
  narinfos : s.narinfos.OneLine

section

variable [SignatureLib] [Sha256]

/-- The narinfos that a lookup can yield: those in the cache, and those a server answers with. -/
inductive Known (world : MetadataWorld) (s : Shared) : Narinfo → Prop
  | cached {h : Text} {expiry : Instant} {info : Narinfo}
      (hlookup : s.narinfos.entries.lookup h = some (expiry, info)) : Known world s info
  | served {k : Nat} {url message text : Text} {status : Nat}
      (hanswer : world.web k url = .response status message (.ok text)) : Known world s (parseNarinfo text)

omit [SignatureLib] [Sha256] in
theorem Known.oneLine {world : MetadataWorld} {s : Shared} {info : Narinfo} (h : Known world s info)
    (hcache : s.narinfos.OneLine) : info.OneLine := by
  cases h with
  | cached hlookup => exact hcache _ _ _ hlookup
  | served hanswer => exact parseNarinfo_oneLine _

omit [SignatureLib] [Sha256] in
theorem Known.of_get {world : MetadataWorld} {s : Shared} {now : Instant} {h : Text} {info : Narinfo}
    (hget : s.narinfos.get now h = some info) : Known world s info := by
  obtain ⟨expiry, hlookup⟩ := NarinfoCache.lookup_of_get hget
  exact .cached hlookup

theorem fetchVerifiedNarinfo_known {world : MetadataWorld} {s : Shared} {h : Text}
    {keys : List VerifyingKey} {urls : List Text} {k : Nat} {saw : Bool} {info : Narinfo}
    (hfetch : fetchVerifiedNarinfo world.web h keys urls k saw = .ok (.ok info)) : Known world s info := by
  induction urls generalizing k saw with
  | nil => cases hfetch
  | cons url urls ih =>
      unfold fetchVerifiedNarinfo at hfetch
      split at hfetch
      · cases hfetch
      next fetched hanswer =>
        split at hfetch
        · cases hfetch
          unfold fetchNarinfoFromUrl at hanswer
          split at hanswer
          · cases hanswer
          next status message body hresponse =>
            split at hanswer
            · split at hanswer
              · cases hanswer
              · cases hanswer
                exact .served hresponse
            · split at hanswer <;> cases hanswer
        · exact ih hfetch
      · exact ih hfetch

theorem fetchNarinfo_known {cfg : Config} {world : MetadataWorld} {h : Text} {s : Shared}
    {cache : NarinfoCache} {info : Narinfo}
    (hfetch : fetchNarinfo cfg world h s.narinfos = .ok (cache, .ok info)) : Known world s info := by
  unfold fetchNarinfo at hfetch
  split at hfetch
  next cached hget =>
    cases hfetch
    exact .of_get hget
  next =>
    split at hfetch
    · cases hfetch
    · split at hfetch
      · cases hfetch
      · cases hfetch
      next hverified =>
        cases hfetch
        exact fetchVerifiedNarinfo_known hverified

/-- **A request goes on with a narinfo that is known.** -/
theorem lookupNarinfo_known {s₀ : Shared} {τ₀ : List Effect} (cfg : Config) (world : MetadataWorld)
    (h : Text) :
    Action.Triple (fun s τ => s = s₀ ∧ τ = τ₀)
      (fun r _ τ => τ = τ₀ ++ yielded h r ∧ ∀ info ∈ r, Known world s₀ info) (fun _ τ => τ = τ₀)
      (lookupNarinfo cfg world h) := by
  have hcached : Action.Triple (fun s τ => s = s₀ ∧ τ = τ₀)
      (fun r s τ => s = s₀ ∧ τ = τ₀ ++ yielded h r ∧ ∀ info ∈ r, Known world s₀ info)
      (fun _ τ => τ = τ₀) (cachedNarinfo world h) := by
    refine Action.Triple.bind Action.Triple.get fun s => ?_
    split
    next info hget =>
      refine Action.Triple.bind (Q := fun _ s' τ => s' = s₀ ∧
        τ = τ₀ ++ yielded h (some info) ∧ ∀ i ∈ some info, Known world s₀ i)
        (Action.Triple.emit fun s' τ hs => ?_) fun _ => Action.Triple.pure fun _ _ hs => hs
      obtain ⟨rfl, rfl, rfl⟩ := hs
      refine ⟨rfl, rfl, fun i hi => ?_⟩
      rw [← Option.some.inj hi]
      exact .of_get hget
    next =>
      refine Action.Triple.pure fun s' τ hs => ?_
      obtain ⟨rfl, rfl, rfl⟩ := hs
      exact ⟨rfl, (List.append_nil τ).symm, by simp⟩
  refine Action.Triple.bind hcached fun r => ?_
  cases r with
  | some info => exact Action.Triple.pure fun _ _ hs => hs.2
  | none =>
      dsimp only
      split
      · exact Action.Triple.pure fun _ _ hs => hs.2
      · refine Action.Triple.bind Action.Triple.get fun s => ?_
        split
        · refine Action.Triple.fault fun _ τ hs => ?_
          rw [hs.2.2.1]
          exact List.append_nil τ₀
        · exact Action.Triple.pure fun _ τ hs => hs.2.2
        next narinfos info hfetch =>
          refine Action.Triple.given (p := Known world s₀ info) (fun s' τ hs => ?_) fun hinfo => ?_
          · obtain ⟨rfl, rfl, -⟩ := hs
            exact fetchNarinfo_known hfetch
          refine Action.Triple.bind (Q := fun _ _ τ => τ = τ₀)
            (Action.Triple.set fun _ τ hs => hs.2.2.1.trans (List.append_nil τ₀)) fun _ => ?_
          refine Action.Triple.bind (Q := fun _ _ τ => τ = τ₀ ++ yielded h (some info))
            (Action.Triple.emit fun _ τ hτ => ?_) fun _ => Action.Triple.pure fun _ _ hτ => ⟨hτ, ?_⟩
          · rw [hτ]
            rfl
          · intro i hi
            rw [← Option.some.inj hi]
            exact hinfo

end

/-! ### Lines -/

theorem newline_not_mem_append {a b : Text} (ha : '\n' ∉ a) (hb : '\n' ∉ b) : '\n' ∉ a ++ b := by
  simp [ha, hb]

theorem newline_not_mem_unwords {words : List Text} (h : ∀ word ∈ words, '\n' ∉ word) :
    '\n' ∉ unwords words := by
  induction words with
  | nil => exact List.not_mem_nil
  | cons word words ih =>
      rw [List.forall_mem_cons] at h
      cases words with
      | nil => exact h.1
      | cons next words =>
          have hcons : unwords (word :: next :: words) = word ++ ' ' :: unwords (next :: words) := rfl
          rw [hcons, List.mem_append, List.mem_cons, not_or, not_or]
          exact ⟨h.1, by decide, ih h.2⟩

theorem newline_not_mem_hashPart {path h : Text} (hpath : '\n' ∉ path) (hpart : hashPart path = .ok h) :
    '\n' ∉ h := by
  unfold hashPart at hpart
  split at hpart
  · cases hpart
  next rest hrest =>
    split at hpart
    · cases hpart
    next hash name hsplit =>
      cases hpart
      obtain ⟨start, rfl, -⟩ := List.dropPrefix?_eq_some_iff.mp hrest
      intro hmem
      exact hpath (List.mem_append_right start (Text.mem_of_splitOnce hsplit (Or.inl hmem)))

section

variable {cfg : Config} {s : Shared} {info : Narinfo}

theorem newline_not_mem_downloadUrls (hservers : ∀ url ∈ cfg.substituteUrls, '\n' ∉ url) {narUrl : Text}
    (hurl : '\n' ∉ narUrl) : ∀ url ∈ downloadUrls cfg narUrl, '\n' ∉ url := by
  intro url hmem
  unfold downloadUrls downloadUrlsFromBases at hmem
  split at hmem
  · rwa [List.mem_singleton.mp hmem]
  · obtain ⟨base, hbase, rfl⟩ := List.mem_map.mp hmem
    simp only [List.mem_append, not_or]
    refine ⟨⟨fun h => hservers base hbase (Text.mem_of_mem_dropEndWhile h), by decide⟩, fun h => ?_⟩
    exact hurl (Text.mem_of_mem_dropWhile h)

theorem newline_not_mem_downloadCandidates (hinfo : info.OneLine) {downloads : List NarDownload}
    (h : downloadCandidates info = .ok downloads) : ∀ download ∈ downloads, '\n' ∉ download.url := by
  intro download hmem
  have hcandidates : download ∈ NarCompression.preference.flatMap (candidatesOf info) := by
    unfold downloadCandidates at h
    dsimp only at h
    split at h
    · cases h
    · cases h
      exact hmem
  obtain ⟨pref, -, hpref⟩ := List.mem_flatMap.mp hcandidates
  obtain ⟨entry, hentry, hsome⟩ := List.mem_filterMap.mp hpref
  split at hsome
  · split at hsome
    · cases hsome
      exact hinfo.urls entry hentry
    · cases hsome
  · cases hsome

theorem newline_not_mem_httpTraceUrl (hservers : ∀ url ∈ cfg.substituteUrls, '\n' ∉ url)
    (hinfo : info.OneLine) : '\n' ∉ httpTraceUrl cfg info := by
  have hfallback : '\n' ∉ "https://fallback".toList := by decide
  unfold httpTraceUrl firstNarDownloadUrl
  cases hcandidates : downloadCandidates info with
  | error e => exact hfallback
  | ok downloads =>
      cases downloads with
      | nil => exact hfallback
      | cons download downloads =>
          have hdownload := newline_not_mem_downloadCandidates hinfo hcandidates download List.mem_cons_self
          dsimp only
          cases hhead : (downloadUrls cfg download.url).head? with
          | none => exact hfallback
          | some url =>
              exact newline_not_mem_downloadUrls hservers hdownload url (List.mem_of_head? hhead)

/-- **The build log of a request has one line for each text.** -/
theorem LogTexts.oneLine (hservers : ∀ url ∈ cfg.substituteUrls, '\n' ∉ url) (hinfo : info.OneLine)
    {h : Text} (hpart : '\n' ∉ h) : LogTexts cfg info h (fun text => '\n' ∉ text) fun url => '\n' ∉ url where
  started url hurl := newline_not_mem_unwords (by
    simp [hinfo.storePath, hurl, Text.newline_not_mem_ofNat])
  progress url total transferred hurl := newline_not_mem_unwords (by
    simp [hinfo.storePath, hurl, Text.newline_not_mem_ofNat])
  p2p := newline_not_mem_append (by decide) hpart
  fallback := newline_not_mem_append (by decide) hpart
  http := newline_not_mem_httpTraceUrl hservers hinfo
  candidates downloads hdownloads candidate hcandidate := by
    obtain ⟨download, hdownload, hmem⟩ := List.mem_flatMap.mp hcandidate
    obtain ⟨url, hurl, rfl⟩ := List.mem_map.mp hmem
    exact newline_not_mem_downloadUrls hservers
      (newline_not_mem_downloadCandidates hinfo hdownloads download hdownload) url hurl

end

end GuixP2p
