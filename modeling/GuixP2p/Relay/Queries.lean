import GuixP2p.Daemon.QueryStream
import GuixP2p.Relay.Transparent

/-!
# GuixP2p.Relay.Queries

**A session of queries looks the same through a relay.** `guix-p2p query` can answer `have` and `info`
in its own process (`run_query_mode` of `src/daemon.rs`), or hand its whole input on to the daemon
(`handle_socket_connection`) and print what comes back.

Both read the input line by line and stop at a line that is not UTF-8, and they write the same replies.
They differ in one case: the daemon tells its dashboard the digest of a narinfo, and a digest that cannot
be decoded takes the connection down with the reply that was being written. Guix then sees the replies
before that one.
-/

namespace GuixP2p

open GuixP2p.Lib

/-! ### The two loops -/

/-- The handlers of the daemon tell the dashboard what they know; those of the program itself have none. -/
def QueryWorld.told (world : QueryWorld) (dashboard : Bool) : QueryWorld := { world with dashboard }

section

variable [SignatureLib] [Sha256]

/-- One turn of the loop of `run_query_mode`. -/
def runQueryCommand (cfg : Config) (worlds : Nat → QueryWorld) (line : Text) : Action Shared Effect Panic Unit :=
  match parseCommandLine (Text.trim line) with
  | .haves paths => handleHave cfg (paths.mapIdx fun k path => ((worlds k).told false, path))
  | .info paths => handleInfo cfg (paths.mapIdx fun k path => ((worlds k).told false, path))
  | .substitute _ _ => pure ()

/-- The loop of `run_query_mode`, over the lines of standard input. -/
def runQueryLines (cfg : Config) (worlds : Nat → Nat → QueryWorld) :
    Nat → List Bytes → Action Shared Effect Panic Unit
  | _, [] => pure ()
  | k, raw :: rest =>
    match Text.fromUtf8 raw with
    -- `read_line` fails, which ends the loop
    | none => pure ()
    | some line => do
      runQueryCommand cfg (worlds k) line
      runQueryLines cfg worlds (k + 1) rest

def runQueryMode (cfg : Config) (worlds : Nat → Nat → QueryWorld) (stdin : Bytes) : Action Shared Effect Panic Unit :=
  runQueryLines cfg worlds 0 (splitInclusive 10 stdin)

end

/-! ### A connection of the daemon -/

inductive ConnectionFailure
  | closedBeforeHeader
  | readFailed
  | unknownMode (mode : Text)
  | panicked (p : Panic)
  deriving DecidableEq

/-- What a connection has sent when it is over. -/
structure SocketConnection where
  sent : Bytes
  state : Shared
  result : Except ConnectionFailure Unit

/-- The loop over the commands of a connection. Each has a writer of its own, which is flushed before the
next command is read. -/
def serveLines (serve : Nat → Text → Action Shared Effect Panic Unit) : Nat → List Bytes → Shared → SocketConnection
  | _, [], s => ⟨[], s, .ok ()⟩
  | k, raw :: rest, s =>
    match Text.fromUtf8 raw with
    | none => ⟨[], s, .error .readFailed⟩
    | some line =>
      let o := serve k line s
      match o.result with
      | .error p => ⟨sentBytes o, o.state, .error (.panicked p)⟩
      | .ok _ =>
        let later := serveLines serve (k + 1) rest o.state
        ⟨sentBytes o ++ later.sent, later.state, later.result⟩

section

variable [MetadataFormat] [SignatureLib] [Sha256] [Decompressors]

/-- `handle_socket_connection` on everything a relay sends. -/
def handleSocketConnection (cfg : Config) (queries : Nat → Nat → QueryWorld) (substitutes : Nat → SubstituteWorld)
    (received : Bytes) (s : Shared) : SocketConnection :=
  match splitInclusive 10 received with
  | [] => ⟨[], s, .error .closedBeforeHeader⟩
  | header :: lines =>
    match Text.fromUtf8 header with
    | none => ⟨[], s, .error .readFailed⟩
    | some modeLine =>
      let mode := Text.trim modeLine
      let requestConfig := cfg.forConnection (forceP2pOnly mode)
      if mode = "mode: query".toList ∨ mode = "mode: query-p2p-only".toList then
        serveLines (fun k => serveQuery cfg (fun j => (queries k j).told true) modeLine) 0 lines s
      else if mode = "mode: substitute".toList ∨ mode = "mode: substitute-p2p-only".toList then
        serveLines (fun k => serveSubstitute requestConfig (substitutes k)) 0 lines s
      else ⟨[], s, .error (.unknownMode mode)⟩

end

/-- The mode header of a relay. -/
def RelayMode.header : RelayMode → Text
  | .query => "mode: query\n".toList
  | .substitute => "mode: substitute\n".toList

/-! ### Replies as frames -/

/-- The frame of an effect of a query. -/
def Effect.frame? : Effect → Option ReplyFrame
  | .line [] => some .fd4Empty
  | .line text => some (.fd4 text)
  | .replyEnd => some (.fd4 [])
  | _ => none

/-- An effect of a query; its lines are lines. -/
def Effect.Replies : Effect → Prop
  | .line text => '\n' ∉ text
  | .replyEnd => True
  | .narinfo _ _ => True
  | _ => False

/-- The writer buffers the frames. -/
theorem foldl_perform_frames {τ : List Effect} (hτ : ∀ e ∈ τ, e.Replies) (w : SocketWriter) :
    τ.foldl SocketWriter.perform w = { w with buf := w.buf ++ sendFrames (τ.filterMap Effect.frame?) } := by
  induction τ generalizing w with
  | nil => simp
  | cons e τ ih =>
      rw [List.forall_mem_cons] at hτ
      rw [List.foldl_cons, ih hτ.2]
      have hbuffered : ∀ (f : ReplyFrame) (line start : Text), f.text = start ++ line → e.frame? = some f →
          w.perform e = { w with buf := writeBufferedLine w.buf line start } →
          { w.perform e with buf := (w.perform e).buf ++ sendFrames (τ.filterMap Effect.frame?) } =
            { w with buf := w.buf ++ sendFrames ((e :: τ).filterMap Effect.frame?) } := by
        intro f line start hf hframe hperform
        rw [hperform, List.filterMap_cons_some hframe, writeBufferedLine_eq hf]
        simp only [List.append_assoc, ← sendFrames_append, List.singleton_append]
      cases e with
      | line text =>
          cases text with
          | nil => exact hbuffered .fd4Empty [] fd4EmptyLine (List.append_nil _).symm rfl rfl
          | cons c text => exact hbuffered (.fd4 (c :: text)) (c :: text) fd4Prefix rfl rfl rfl
      | replyEnd => exact hbuffered (.fd4 []) [] fd4Prefix rfl rfl rfl
      | narinfo h info => rfl
      | _ => exact absurd hτ.1 id

/-- A query is answered as a whole or not at all. -/
theorem sentBytes_frames {o : Outcome Shared Effect Panic Unit} (hτ : ∀ e ∈ o.trace, e.Replies) :
    sentBytes o = match o.result with
      | .ok _ => sendFrames (o.trace.filterMap Effect.frame?)
      | .error _ => [] := by
  unfold sentBytes
  dsimp only
  rw [foldl_perform_frames hτ]
  cases o.result with
  | ok u => simp [SocketWriter.flushSocket, SocketWriter.new]
  | error p => rfl

theorem Effect.Replies.oneLine {e : Effect} (h : e.Replies) {f : ReplyFrame} (hf : e.frame? = some f) :
    f.OneLine ∧ f.Plain := by
  have hfd4 : ∀ line : Text, '\n' ∉ line → (ReplyFrame.fd4 line).OneLine ∧ (ReplyFrame.fd4 line).Plain :=
    fun line hline => ⟨newline_not_mem_append (by decide) hline, trivial⟩
  cases e with
  | line text =>
      cases text with
      | nil =>
          obtain rfl : ReplyFrame.fd4Empty = f := Option.some.inj hf
          exact ⟨by unfold ReplyFrame.OneLine; decide, trivial⟩
      | cons c text =>
          obtain rfl : ReplyFrame.fd4 (c :: text) = f := Option.some.inj hf
          exact hfd4 _ h
  | replyEnd =>
      obtain rfl : ReplyFrame.fd4 [] = f := Option.some.inj hf
      exact hfd4 _ List.not_mem_nil
  | _ => cases hf

/-- The relay prints what the program itself prints. -/
theorem visible_frames {settings : RelaySettings} {dest : Text} {τ : List Effect} (hτ : ∀ e ∈ τ, e.Replies) :
    (allEffects settings none dest (τ.filterMap Effect.frame?)).filterMap RelayEffect.visible? =
      τ.filterMap Effect.visible? := by
  induction τ with
  | nil => rfl
  | cons e τ ih =>
      rw [List.forall_mem_cons] at hτ
      have hshown : ∀ (f : ReplyFrame) (shown : Visible), e.frame? = some f → e.visible? = some shown →
          (f.effects dest (relayTemporaryPath settings 1) none).filterMap RelayEffect.visible? = [shown] →
          (allEffects settings none dest ((e :: τ).filterMap Effect.frame?)).filterMap RelayEffect.visible? =
            (e :: τ).filterMap Effect.visible? := by
        intro f shown hframe hvisible heffects
        rw [List.filterMap_cons_some hframe, List.filterMap_cons_some hvisible, allEffects_cons, List.filterMap_append,
          heffects, ih hτ.2]
        rfl
      cases e with
      | line text =>
          cases text with
          | nil =>
              refine hshown .fd4Empty _ rfl rfl ?_
              rw [ReplyFrame.effects, ← utf8_newline]
              rfl
          | cons c text => exact hshown (.fd4 (c :: text)) _ rfl rfl rfl
      | replyEnd =>
          refine hshown (.fd4 []) _ rfl rfl ?_
          rw [ReplyFrame.effects, ← utf8_newline]
          rfl
      | narinfo h info => exact ih hτ.2
      | _ => exact absurd hτ.1 id

/-! ### Texts of a reply -/

/-- A line of the input has no newline once it is trimmed. -/
theorem newline_not_mem_trim {stdin raw : Bytes} (hraw : raw ∈ splitInclusive 10 stdin) {line : Text}
    (hline : Text.fromUtf8 raw = some line) : '\n' ∉ Text.trim line := by
  intro hmem
  obtain ⟨before, after, rfl, hbefore⟩ := List.eq_append_cons_of_mem (Text.mem_of_mem_trim hmem)
  obtain ⟨piece, hpiece, hcut⟩ := line_of_mem_splitInclusive hraw
  have hbytes : raw = Text.utf8 before ++ 10 :: Text.utf8 after := by
    rw [← Text.utf8_of_fromUtf8 hline, Text.utf8_append, ← List.singleton_append, Text.utf8_append, utf8_newline]
    rfl
  rcases hcut with rfl | rfl
  · exact hpiece (by rw [hbytes]; simp)
  · -- the newline is the last character
    obtain ⟨-, -, hafter⟩ := (List.append_cons_inj_of_notMem hpiece List.not_mem_nil).mp hbytes
    have hprefix : Text.utf8 after <+: Text.utf8 [] := by
      rw [← hafter]
      exact List.nil_prefix
    obtain rfl := List.prefix_nil.mp (Text.prefix_of_utf8_prefix hprefix)
    rw [trim_newline] at hmem
    exact hbefore (Text.mem_of_mem_trim hmem)

/-- No line that `info` writes about it breaks. -/
def Narinfo.Reportable (info : Narinfo) : Prop := ∀ line ∈ infoLines info, '\n' ∉ line

def NarinfoCache.Reportable (cache : NarinfoCache) : Prop :=
  ∀ h expiry info, cache.entries.lookup h = some (expiry, info) → info.Reportable

theorem newline_not_mem_fromNarinfoPath {path : Text} (h : '\n' ∉ path) : '\n' ∉ fromNarinfoPath path := by
  unfold fromNarinfoPath
  split
  · exact List.not_mem_nil
  · split
    · exact h
    · exact newline_not_mem_append (by decide) h

theorem newline_not_mem_word {word t : Text} (h : word ∈ Text.splitWhitespace t) : '\n' ∉ word := by
  intro hmem
  have hnewline := Text.isWhitespace_of_mem_splitWhitespace h '\n' hmem
  revert hnewline
  decide

/-- The paths of a `have` are words, or the whole line for an old client. -/
theorem newline_not_mem_haves {line : Text} {paths : List Text} (hline : '\n' ∉ line)
    (hparse : parseCommandLine line = .haves paths) : ∀ path ∈ paths, '\n' ∉ path := by
  intro path hpath
  unfold parseCommandLine at hparse
  split at hparse
  · cases hparse
    exact newline_not_mem_word hpath
  · split at hparse
    · cases hparse
    · split at hparse
      · cases hparse
      · cases hparse
        rwa [List.mem_singleton.mp hpath]

/-- **A narinfo that was parsed can be reported.** -/
theorem parseNarinfo_reportable (input : Text) : (parseNarinfo input).Reportable := by
  have hstorePath := (parseNarinfo_oneLine input).storePath
  have hderiver : '\n' ∉ ((parseNarinfo input).deriver.map fromNarinfoPath).getD [] := by
    unfold parseNarinfo
    dsimp only
    cases hlookup : (signedFields _).lookup "Deriver".toList with
    | none => exact List.not_mem_nil
    | some value => exact newline_not_mem_fromNarinfoPath (newline_not_mem_signedFields hlookup)
  have hreferences : ∀ line ∈ (parseNarinfo input).references.map fromNarinfoPath, '\n' ∉ line := by
    intro line hline
    obtain ⟨reference, hreference, rfl⟩ := List.mem_map.mp hline
    refine newline_not_mem_fromNarinfoPath ?_
    unfold parseNarinfo at hreference
    dsimp only at hreference
    cases hlookup : (signedFields ((Text.splitAtFirst "Signature:".toList input).map Prod.fst |>.getD
        (Text.trim input))).lookup "References".toList with
    | none =>
        rw [hlookup] at hreference
        cases hreference
    | some value =>
        rw [hlookup] at hreference
        exact newline_not_mem_word hreference
  intro line hline
  rw [infoLines, List.mem_append, List.mem_append] at hline
  rcases hline with (hline | hline) | hline
  · rcases List.mem_cons.mp hline with rfl | hline
    · exact hstorePath
    rcases List.mem_cons.mp hline with rfl | hline
    · exact hderiver
    rw [List.mem_singleton.mp hline]
    exact Text.newline_not_mem_ofNat _
  · exact hreferences line hline
  · rcases List.mem_cons.mp hline with rfl | hline
    · exact Text.newline_not_mem_ofNat _
    rw [List.mem_singleton.mp hline]
    exact Text.newline_not_mem_ofNat _

/-! ### What a handler writes -/

section

variable [SignatureLib] [Sha256] {cfg : Config} {s : Shared}

/-- The cache can be reported, and so is all that was written. -/
def Reporting (s : Shared) (τ : List Effect) : Prop := s.narinfos.Reportable ∧ ∀ e ∈ τ, e.Replies

omit [SignatureLib] [Sha256] in
theorem Reporting.append {τ ω : List Effect} (h : Reporting s τ) (hω : ∀ e ∈ ω, e.Replies) : Reporting s (τ ++ ω) :=
  ⟨h.1, fun e he => (List.mem_append.mp he).elim (h.2 e) (hω e)⟩

omit [SignatureLib] [Sha256] in
theorem Known.reportable {world : MetadataWorld} {info : Narinfo} (h : Known world s info)
    (hcache : s.narinfos.Reportable) : info.Reportable := by
  cases h with
  | cached hlookup => exact hcache _ _ _ hlookup
  | served hanswer => exact parseNarinfo_reportable _

omit [SignatureLib] [Sha256] in
theorem NarinfoCache.Reportable.put {cache : NarinfoCache} (h : cache.Reportable) {info : Narinfo}
    (hinfo : info.Reportable) (now : Instant) (key : Text) : (cache.put now key info).Reportable := by
  intro key' expiry info' hlookup
  rw [NarinfoCache.lookup_put] at hlookup
  split at hlookup
  · obtain rfl := (Prod.mk.inj (Option.some.inj hlookup)).2
    exact hinfo
  · exact h _ _ _ hlookup

/-- A lookup that may ask the servers. -/
theorem fetchNarinfo_reportable {world : MetadataWorld} {h : Text} {cache : NarinfoCache} {info : Narinfo}
    (hs : s.narinfos.Reportable) (hfetch : fetchNarinfo cfg world h s.narinfos = .ok (cache, .ok info)) :
    cache.Reportable ∧ info.Reportable := by
  have hinfo := (fetchNarinfo_known hfetch).reportable hs
  refine ⟨?_, hinfo⟩
  unfold fetchNarinfo at hfetch
  split at hfetch
  · cases hfetch
    exact hs
  · split at hfetch
    · cases hfetch
    · split at hfetch
      · cases hfetch
      · cases hfetch
      · cases hfetch
        exact hs.put hinfo _ _

/-- What a lookup yields can be reported. -/
def Yields (r : Option Narinfo) (s : Shared) (τ : List Effect) : Prop :=
  Reporting s τ ∧ ∀ info ∈ r, info.Reportable

omit [SignatureLib] [Sha256] in
theorem cachedNarinfo_yields (world : MetadataWorld) (h : Text) :
    Action.Triple Reporting Yields Reporting (cachedNarinfo world h) := by
  refine Action.Triple.bind Action.Triple.get fun s => ?_
  split
  next info hget =>
    refine Action.Triple.given (p := s.narinfos.Reportable) (fun _ _ hs => hs.1 ▸ hs.2.1) fun hs => ?_
    have hinfo : info.Reportable := (@Known.of_get world _ _ _ _ hget).reportable hs
    refine Action.Triple.bind (Q := fun _ => Reporting) (Action.Triple.emit fun _ τ hτ => hτ.2.append ?_) fun _ => ?_
    · intro e he
      rw [List.mem_singleton.mp he]
      trivial
    · exact Action.Triple.pure fun _ _ hτ => ⟨hτ, fun i hi => Option.some.inj hi ▸ hinfo⟩
  next => exact Action.Triple.pure fun _ _ hτ => ⟨hτ.2, by simp⟩

theorem fetchSharedNarinfo_yields (world : MetadataWorld) (h : Text) :
    Action.Triple Reporting Yields Reporting (fetchSharedNarinfo cfg world h) := by
  refine Action.Triple.bind Action.Triple.get fun s => ?_
  split
  · exact Action.Triple.fault fun _ _ hτ => hτ.2
  · exact Action.Triple.pure fun _ _ hτ => ⟨hτ.2, by simp⟩
  next narinfos info hfetch =>
    refine Action.Triple.given (p := s.narinfos.Reportable) (fun _ _ hs => hs.1 ▸ hs.2.1) fun hs => ?_
    obtain ⟨hcache, hinfo⟩ := fetchNarinfo_reportable hs hfetch
    refine Action.Triple.bind (Q := fun _ => Reporting) (Action.Triple.set fun _ _ hτ => ⟨hcache, hτ.2.2⟩) fun _ => ?_
    refine Action.Triple.bind (Q := fun _ => Reporting) (Action.Triple.emit fun _ τ hτ => hτ.append ?_) fun _ => ?_
    · intro e he
      rw [List.mem_singleton.mp he]
      trivial
    · exact Action.Triple.pure fun _ _ hτ => ⟨hτ, fun i hi => Option.some.inj hi ▸ hinfo⟩

theorem lookupNarinfo_yields (world : MetadataWorld) (h : Text) :
    Action.Triple Reporting Yields Reporting (lookupNarinfo cfg world h) := by
  refine Action.Triple.bind (cachedNarinfo_yields world h) fun r => ?_
  cases r with
  | some info => exact Action.Triple.pure fun _ _ hτ => hτ
  | none =>
      dsimp only
      split
      · exact Action.Triple.pure fun _ _ hτ => hτ
      · exact (fetchSharedNarinfo_yields world h).assume fun _ _ hτ => hτ.1

/-- `have` writes the path or nothing. -/
theorem keeps_handleHavePath (world : QueryWorld) {path : Text} (hpath : '\n' ∉ path) :
    Action.Keeps Reporting (handleHavePath cfg world path) := by
  have hline : Action.Keeps (φ := Panic) Reporting (Action.emit (.line path)) :=
    Action.Keeps.emit fun _ _ hτ => hτ.append fun e he => List.mem_singleton.mp he ▸ hpath
  unfold handleHavePath
  split
  · exact Action.Keeps.pure _
  · split
    · refine Action.Triple.bind (fetchSharedNarinfo_yields world.metadata _) fun r => ?_
      cases r with
      | none => exact Action.Triple.pure fun _ _ hτ => hτ.1
      | some info =>
          refine (Action.Keeps.bind (Action.Keeps.ofExcept _) fun digest => ?_).assume fun _ _ hτ => hτ.1
          cases digest with
          | none => exact Action.Keeps.pure _
          | some d =>
              dsimp only
              split
              · exact hline
              · exact Action.Keeps.pure _
    · refine Action.Triple.bind (lookupNarinfo_yields world.metadata _) fun r => ?_
      cases r with
      | none => exact Action.Triple.pure fun _ _ hτ => hτ.1
      | some info =>
          refine (Action.Keeps.bind hline fun _ => ?_).assume fun _ _ hτ => hτ.1
          split
          · exact Action.Keeps.bind (Action.Keeps.ofExcept _) fun _ => Action.Keeps.pure _
          · exact Action.Keeps.pure _

/-- `info` writes the lines of a narinfo that it has looked up. -/
theorem keeps_handleInfoPath (world : QueryWorld) (path : Text) :
    Action.Keeps Reporting (handleInfoPath cfg world path) := by
  have hlookup : ∀ h, Action.Triple Reporting Yields Reporting (infoNarinfo cfg world.metadata h) := by
    intro h
    unfold infoNarinfo
    split
    · exact cachedNarinfo_yields _ _
    · exact lookupNarinfo_yields _ _
  unfold handleInfoPath
  split
  · exact Action.Keeps.pure _
  · refine Action.Triple.bind (hlookup _) fun r => ?_
    cases r with
    | none => exact Action.Triple.pure fun _ _ hτ => hτ.1
    | some info =>
        refine Action.Triple.given (fun _ _ hτ => hτ.2 info rfl) fun hinfo => ?_
        refine (Action.Keeps.bind (Action.Keeps.ofExcept _) fun digest => ?_).assume fun _ _ hτ => hτ.1
        cases digest with
        | none => exact Action.Keeps.pure _
        | some d =>
            refine Action.Keeps.emitAll fun _ _ hτ => hτ.append fun e he => ?_
            obtain ⟨line, hline, rfl⟩ := List.mem_map.mp he
            exact hinfo line hline

omit [SignatureLib] [Sha256] in
theorem keeps_handlePaths {handle : QueryWorld → Text → Action Shared Effect Panic Unit}
    {paths : List (QueryWorld × Text)} (hhandle : ∀ p ∈ paths, Action.Keeps Reporting (handle p.1 p.2)) :
    Action.Keeps Reporting (handlePaths handle paths) := by
  induction paths with
  | nil => exact Action.Keeps.pure _
  | cons p paths ih =>
      rw [List.forall_mem_cons] at hhandle
      exact Action.Keeps.bind hhandle.1 fun _ => ih hhandle.2

/-- **Step lemma.** A command of a connection writes whole lines. -/
theorem keeps_serveQuery (worlds : Nat → QueryWorld) (modeLine : Text) {line : Text} (hline : '\n' ∉ Text.trim line) :
    Action.Keeps Reporting (serveQuery cfg worlds modeLine line) := by
  have hend : Action.Keeps (φ := Panic) Reporting (Action.emit .replyEnd) :=
    Action.Keeps.emit fun _ _ hτ => hτ.append fun e he => by rw [List.mem_singleton.mp he]; trivial
  unfold serveQuery
  dsimp only
  cases hparse : parseCommandLine (Text.trim line) with
  | haves paths =>
      refine Action.Keeps.bind (keeps_handlePaths fun p hp => keeps_handleHavePath p.1 ?_) fun _ => hend
      obtain ⟨k, hk, rfl⟩ := List.mem_mapIdx.mp hp
      exact newline_not_mem_haves hline hparse _ (List.getElem_mem hk)
  | info paths => exact Action.Keeps.bind (keeps_handlePaths fun p _ => keeps_handleInfoPath p.1 p.2) fun _ => hend
  | substitute path dest => exact Action.Keeps.pure _

/-! ### The dashboard -/

/-- The dashboard changes nothing, unless what it is told cannot be decoded. -/
theorem follows_handleHavePath (world : QueryWorld) (path : Text) :
    Action.Follows (handleHavePath cfg (world.told false) path) (handleHavePath cfg (world.told true) path) := by
  cases hpath : hashPart path with
  | error e =>
      simp only [handleHavePath, hpath]
      exact Action.Follows.refl _
  | ok h =>
      by_cases hpolicy : cfg.substitutePolicy = .p2pOnly
      · simp only [handleHavePath, hpath, hpolicy]
        exact Action.Follows.refl _
      · rw [handleHavePath_eq_advertise hpath hpolicy, handleHavePath_eq_advertise hpath hpolicy]
        refine Action.Follows.bind (.refl _) fun r => ?_
        cases r with
        | none => exact .refl _
        | some info => exact Action.Follows.bind (.refl _) fun _ => Action.Follows.ofExcept _

omit [SignatureLib] [Sha256] in
theorem follows_handlePaths {handle : QueryWorld → Text → Action Shared Effect Panic Unit}
    (hhandle : ∀ (world : QueryWorld) path,
      Action.Follows (handle (world.told false) path) (handle (world.told true) path))
    (paths : List (QueryWorld × Text)) :
    Action.Follows (handlePaths handle (paths.map fun p => (p.1.told false, p.2)))
      (handlePaths handle (paths.map fun p => (p.1.told true, p.2))) := by
  induction paths with
  | nil => exact .refl _
  | cons p paths ih => exact Action.Follows.bind (hhandle p.1 p.2) fun _ => ih

omit [SignatureLib] [Sha256] in
theorem mapIdx_told (worlds : Nat → QueryWorld) (dashboard : Bool) (paths : List Text) :
    paths.mapIdx (fun k path => ((worlds k).told dashboard, path)) =
      (paths.mapIdx fun k path => (worlds k, path)).map fun p => (p.1.told dashboard, p.2) := by
  rw [List.mapIdx_eq_zipIdx_map, List.mapIdx_eq_zipIdx_map, List.map_map]
  rfl

/-- **A command is answered the same way** by the program and by the daemon. -/
theorem follows_runQueryCommand (worlds : Nat → QueryWorld) {modeLine : Text}
    (hmode : Text.trim modeLine = "mode: query".toList) (line : Text) :
    Action.Follows (runQueryCommand cfg worlds line)
      (serveQuery cfg (fun k => (worlds k).told true) modeLine line) := by
  have hconfig : cfg.forConnection (forceP2pOnly (Text.trim modeLine)) = cfg := by
    rw [hmode]
    rfl
  unfold runQueryCommand serveQuery
  dsimp only
  rw [hconfig]
  cases parseCommandLine (Text.trim line) with
  | haves paths =>
      simp only [mapIdx_told]
      exact Action.Follows.bind (follows_handlePaths follows_handleHavePath _) fun _ => .refl _
  | info paths =>
      simp only [mapIdx_told]
      exact Action.Follows.bind (follows_handlePaths (fun _ _ => .refl _) _) fun _ => .refl _
  | substitute path dest => exact .refl _

/-! ### Sessions -/

/-- A session through the daemon and the same session in the program itself. The daemon's replies are the
beginning of the program's, and all of them unless its connection panics. -/
structure SameSession (connection : SocketConnection) (direct : Outcome Shared Effect Panic Unit) (τ : List Effect) :
    Prop where
  replies : ∀ e ∈ τ, e.Replies
  sent : connection.sent = sendFrames (τ.filterMap Effect.frame?)
  replied : τ <+: direct.trace
  whole : (∀ p, connection.result ≠ .error (.panicked p)) →
    τ = direct.trace ∧ direct.result = .ok () ∧ direct.state = connection.state

/-- **Run lemma.** -/
theorem sameSession_lines (worlds : Nat → Nat → QueryWorld) {modeLine : Text}
    (hmode : Text.trim modeLine = "mode: query".toList) {lines : List Bytes}
    (hlines : ∀ raw ∈ lines, ∀ line, Text.fromUtf8 raw = some line → '\n' ∉ Text.trim line)
    (hs : s.narinfos.Reportable) (k : Nat) :
    ∃ τ, SameSession (serveLines (fun k => serveQuery cfg (fun j => (worlds k j).told true) modeLine) k lines s)
      (runQueryLines cfg worlds k lines s) τ := by
  induction lines generalizing s k with
  | nil => exact ⟨[], by simp, rfl, List.nil_prefix, fun _ => ⟨rfl, rfl, rfl⟩⟩
  | cons raw lines ih =>
      rw [List.forall_mem_cons] at hlines
      cases hraw : Text.fromUtf8 raw with
      | none =>
          -- neither goes on
          simp only [serveLines, runQueryLines, hraw]
          exact ⟨[], by simp, rfl, List.nil_prefix, fun _ => ⟨rfl, rfl, rfl⟩⟩
      | some line =>
          have hfollows := @follows_runQueryCommand _ _ cfg (worlds k) modeLine hmode line
          have hreporting := (@keeps_serveQuery _ _ cfg (fun j => (worlds k j).told true) modeLine line
            (hlines.1 line hraw)).ends (s := s) ⟨hs, by simp⟩
          have hsent := sentBytes_frames hreporting.2
          simp only [serveLines, runQueryLines, hraw]
          cases hr : (serveQuery cfg (fun j => (worlds k j).told true) modeLine line s).result with
          | error p =>
              -- the writer goes down with the connection, and the reply with it
              rw [hr] at hsent
              exact ⟨[], by simp, hsent, List.nil_prefix, fun hno => absurd rfl (hno p)⟩
          | ok u =>
              -- both go on from the same state
              rw [hr] at hsent
              have hsame := hfollows s u hr
              obtain ⟨τ, hrest⟩ := ih hlines.2 hreporting.1 (k + 1)
              rw [Action.bind_of_ok (hsame ▸ hr), hsame]
              refine ⟨(serveQuery cfg (fun j => (worlds k j).told true) modeLine line s).trace ++ τ,
                fun e he => ?_, ?_, ?_, fun hno => ?_⟩
              · exact (List.mem_append.mp he).elim (hreporting.2 e) (hrest.replies e)
              · rw [List.filterMap_append, sendFrames_append]
                exact congrArg₂ _ hsent hrest.sent
              · exact List.prefix_append_right_inj _ |>.mpr hrest.replied
              · obtain ⟨hτ, hresult, hstate⟩ := hrest.whole hno
                exact ⟨congrArg _ hτ, hresult, hstate⟩

omit [SignatureLib] [Sha256] in
/-- A relay in query mode hands on the frames of its daemon, and ends well. -/
theorem forward_queries {settings : RelaySettings} {relay : RelayWorld} {files : FileSystem}
    (hrelay : relay.Done settings none [] files) {τ : List Effect} (hτ : ∀ e ∈ τ, e.Replies) :
    let relayed := forward .query settings relay none files (sendFrames (τ.filterMap Effect.frame?))
    relayed.result = .ok () ∧ relayed.trace.filterMap RelayEffect.visible? = τ.filterMap Effect.visible? := by
  intro relayed
  have hframes : ∀ f ∈ τ.filterMap Effect.frame?, f.OneLine ∧ f.Plain := by
    intro f hf
    obtain ⟨e, he, hframe⟩ := List.mem_filterMap.mp hf
    exact (hτ e he).oneLine hframe
  -- a query needs no terminal reply
  obtain ⟨s', hrun, -⟩ := @forwardReplies_whole settings none [] files .query relay hrelay _
    (fun f hf => (hframes f hf).1) (startRelay .query [] files)
    (.start (fun f hf => (hframes f hf).2) fun hnone => absurd rfl hnone) rfl
  have hrelayed : relayed = ⟨allEffects settings none [] (τ.filterMap Effect.frame?), s', .ok ()⟩ := hrun
  rw [hrelayed]
  exact ⟨rfl, visible_frames hτ⟩

variable [MetadataFormat] [Decompressors] {settings : RelaySettings} {relay : RelayWorld} {files : FileSystem}

/-- **Queries look the same through a relay.** Whatever the input, a relay that can write prints a beginning of what
the program itself prints, and ends well. Unless the connection panics it prints all of it, and both leave the same
narinfos in the cache. -/
theorem query_relay_is_transparent (cfg : Config) (worlds : Nat → Nat → QueryWorld)
    (substitutes : Nat → SubstituteWorld) (stdin : Bytes) (s : Shared) (hs : s.narinfos.Reportable)
    (hrelay : relay.Done settings none [] files) :
    let direct := runQueryMode cfg worlds stdin s
    let connection := handleSocketConnection cfg worlds substitutes (Text.utf8 RelayMode.query.header ++ stdin) s
    let relayed := forward .query settings relay none files connection.sent
    relayed.result = .ok () ∧
      relayed.trace.filterMap RelayEffect.visible? <+: direct.trace.filterMap Effect.visible? ∧
      ((∀ p, connection.result ≠ .error (.panicked p)) → direct.result = .ok () ∧ direct.state = connection.state ∧
        relayed.trace.filterMap RelayEffect.visible? = direct.trace.filterMap Effect.visible?) := by
  intro direct connection relayed
  have hsplit : splitInclusive 10 (Text.utf8 RelayMode.query.header ++ stdin) =
      Text.utf8 RelayMode.query.header :: splitInclusive 10 stdin := by
    have hheader : Text.utf8 RelayMode.query.header = Text.utf8 "mode: query".toList ++ [10] := by decide
    rw [hheader, List.append_assoc, List.singleton_append, splitInclusive_line (Text.newline_not_mem_utf8 (by decide))]
  have hmode : Text.trim RelayMode.query.header = "mode: query".toList := by decide
  have hconnection : connection =
      serveLines (fun k => serveQuery cfg (fun j => (worlds k j).told true) RelayMode.query.header) 0
        (splitInclusive 10 stdin) s := by
    show handleSocketConnection _ _ _ _ _ = _
    unfold handleSocketConnection
    simp only [hsplit, Text.fromUtf8_utf8, hmode, true_or, if_true]
  obtain ⟨τ, hsame⟩ := @sameSession_lines _ _ cfg s worlds _ hmode (splitInclusive 10 stdin)
    (fun raw hraw line hline => newline_not_mem_trim hraw hline) hs 0
  rw [← hconnection] at hsame
  obtain ⟨hresult, hvisible⟩ := forward_queries hrelay hsame.replies
  rw [← hsame.sent] at hresult hvisible
  refine ⟨hresult, ?_, fun hno => ?_⟩
  · obtain ⟨rest, hrest⟩ := hsame.replied
    exact ⟨rest.filterMap Effect.visible?, by rw [hvisible, ← List.filterMap_append, hrest]; rfl⟩
  · obtain ⟨hτ, hdirect, hstate⟩ := hsame.whole hno
    exact ⟨hdirect, hstate, by rw [hvisible, hτ]; rfl⟩

end

/-! ### A session -/

theorem sampleShared_reportable : sampleShared.narinfos.Reportable := by
  intro h expiry info hlookup
  rw [sampleShared, NarinfoCache.lookup_put] at hlookup
  split at hlookup
  · cases hlookup
    unfold Narinfo.Reportable
    decide
  · cases hlookup

/-- Two queries, and bytes that are no text. -/
def sampleQueries : Bytes :=
  Text.utf8 "have /gnu/store/a-b /gnu/store/c-d\ninfo /gnu/store/a-b\n".toList ++ [255]

theorem query_relay_is_transparent_sample :
    (forward .query ⟨"/tmp".toList, 7⟩ sampleRelayWorld none (fun _ => none)
      (@handleSocketConnection noMetadataFormat forgedLib sampleSha256 noDecompressors httpConfig (fun _ _ => idleQuery)
        (fun _ => servingWorld silentMetadata) (Text.utf8 RelayMode.query.header ++ sampleQueries)
        sampleShared).sent).trace.filterMap RelayEffect.visible? =
      ["/gnu/store/a-b\n", "\n", "/gnu/store/a-b\n", "\n", "0\n", "4\n", "4\n", "\n"].map
        fun line => .fd4 (Text.utf8 line.toList) := by
  obtain ⟨-, -, hwhole⟩ := @query_relay_is_transparent forgedLib sampleSha256 noMetadataFormat noDecompressors
    ⟨"/tmp".toList, 7⟩ sampleRelayWorld (fun _ => none) httpConfig (fun _ _ => idleQuery)
    (fun _ => servingWorld silentMetadata) sampleQueries sampleShared sampleShared_reportable
    ⟨rfl, sampleRelayWorld_done.lines, ⟨fun h => absurd rfl h, fun h => absurd rfl h, by simp⟩⟩
  have hread : (@handleSocketConnection noMetadataFormat forgedLib sampleSha256 noDecompressors httpConfig
      (fun _ _ => idleQuery) (fun _ => servingWorld silentMetadata) (Text.utf8 RelayMode.query.header ++ sampleQueries)
      sampleShared).result = .error .readFailed := by
    decide +kernel
  obtain ⟨-, -, hvisible⟩ := hwhole fun p hp => by cases hread.symm.trans hp
  exact hvisible.trans (by decide +kernel)

end GuixP2p
