import GuixP2p.Daemon.QueryStream
import GuixP2p.Extension.Socket

/-!
# GuixP2p.Extension.BuiltinFirst

The query mode of `guix/extensions/substitute.scm` in which Guix's own substituter is asked first
and the daemon for the rest: `handle-builtin-first-query-line`.

The reply to `info` is a list of records without marks. How long a record is, its third line says,
and any other line of it may be empty, as the end of the reply is. `info-present-paths` walks over
the records; it stays aligned because the only thing it looks at is that third line.
-/

namespace GuixP2p

open GuixP2p.Lib

/-! ### Guile -/

/-- What `string->number` reads: a length, or some other number. -/
inductive SchemeNumber
  | index (n : Nat)
  | other

/-- What the extension uses of Guile: `char-set:graphic` and `string->number`. -/
class GuileLib where
  graphic : Char → Bool
  stringToNumber : Text → Option SchemeNumber

/-- White space is not graphic, and a decimal numeral is read as its number. -/
class LawfulGuileLib [GuileLib] : Prop where
  isWhitespace_of_graphic : ∀ c, GuileLib.graphic c = true → Text.isWhitespace c = false
  stringToNumber_ofNat : ∀ n, GuileLib.stringToNumber (Text.ofNat n) = some (.index n)

section

variable [GuileLib]

/-- `string-tokenize`, with the current token so far in reverse. -/
def tokensGo : Text → Text → List Text
  | acc, [] => if acc = [] then [] else [acc.reverse]
  | acc, c :: cs =>
    if GuileLib.graphic c then tokensGo (c :: acc) cs
    else if acc = [] then tokensGo [] cs
    else acc.reverse :: tokensGo [] cs

/-- The runs of graphic characters. -/
def stringTokenize (text : Text) : List Text := tokensGo [] text

/-! ### Query lines -/

def queryCommand (line : Text) : Option Text := (stringTokenize line).head?

def queryPaths (line : Text) : List Text := (stringTokenize line).tail

def missingPaths (requested present : List Text) : List Text :=
  requested.filter fun path => decide (path ∉ present)

def dropFinalEmptyLine (lines : List Text) : List Text :=
  if lines.getLast? = some [] then lines.dropLast else lines

/-- Query replies end with a blank line, but `info` records may contain an empty deriver field. Drop
only the final terminator. -/
def queryDataLines (text : Text) : List Text := dropFinalEmptyLine (portLines text)

/-- `(or (string->number ref-count) 0)`, if it is an index for `drop`. -/
def refCountOf (refCount : Text) : Option Nat :=
  match GuileLib.stringToNumber refCount with
  | none => some 0
  | some (.index n) => some n
  | some .other => none

/-- The store paths of the records, or an error: a record that is cut short before its third line,
or in its references. -/
def infoPresentPaths : List Text → Option (List Text)
  | [] => some []
  | path :: _ :: refCount :: rest =>
    match refCountOf refCount with
    | none => none
    | some count =>
      if rest.length < count then none
      else
        match _hrest : rest.drop count with
        | _ :: _ :: tail => (infoPresentPaths tail).map (path :: ·)
        -- the sizes are missing
        | _ => some [path]
  | _ => none
termination_by lines => lines.length
decreasing_by
  have hlen := congrArg List.length _hrest
  simp only [List.length_drop, List.length_cons] at hlen ⊢
  omega

/-! ### Asking both -/

def haveCommand : Text := "have".toList

def infoCommand : Text := "info".toList

def queryP2pOnlyMode : Text := "mode: query-p2p-only".toList

/-- What Guix gets for a query, and what the daemon was asked for it: the mode and the query. -/
structure MergedReply where
  asked : Option (Text × Text)
  replies : List Text
  traces : List Text

/-- The paths that the built-in substituter has; for an unknown command there is nothing to ask. -/
def presentPaths (command : Option Text) (requested builtinLines : List Text) : Option (List Text) :=
  if command = some haveCommand then some builtinLines
  else if command = some infoCommand then infoPresentPaths builtinLines
  else some requested

/-- The query for the daemon. -/
def p2pQuery (command : Option Text) (missing : List Text) : Option Text :=
  match command with
  | none => none
  | some command =>
    if missing = [] ∨ ¬ (command = haveCommand ∨ command = infoCommand) then none
    else some (command ++ ' ' :: unwords missing)

/-- Answer a query with what the built-in substituter says and, where there is a socket, with what
the daemon says about the rest. A socket yields lines for a mode and a query. -/
def handleBuiltinFirstQueryLine (builtin : Text → Text) (socket : Option (Text → Text → List Text))
    (line : Text) : Option MergedReply :=
  let builtinLines := queryDataLines (builtin (line ++ ['\n']))
  match presentPaths (queryCommand line) (queryPaths line) builtinLines with
  | none => none
  | some present =>
    match socket, p2pQuery (queryCommand line) (missingPaths (queryPaths line) present) with
    | some ask, some query =>
      let p2p := socketQueryLines (ask queryP2pOnlyMode query)
      some ⟨some (queryP2pOnlyMode, query), builtinLines ++ p2p.replies ++ [[]], p2p.traces⟩
    | _, _ => some ⟨none, builtinLines ++ [[]], []⟩

/-! ### Records -/

/-- What `info` says about a store path. -/
structure InfoRecord where
  storePath : Text
  deriver : Text
  references : List Text
  downloadSize : Nat
  narSize : Nat
  deriving DecidableEq

/-- The lines of a record, as `handle_info` writes them. -/
def InfoRecord.lines (r : InfoRecord) : List Text :=
  [r.storePath, r.deriver, Text.ofNat r.references.length] ++ r.references ++
    [Text.ofNat r.downloadSize, Text.ofNat r.narSize]

def Narinfo.record (info : Narinfo) : InfoRecord where
  storePath := info.storePath
  deriver := (info.deriver.map fromNarinfoPath).getD []
  references := info.references.map fromNarinfoPath
  downloadSize := (info.urls.head?.map fun u => u.fileSize.toNat).getD 0
  narSize := info.narSize.toNat

omit [GuileLib] in
theorem infoLines_eq_record (info : Narinfo) : infoLines info = info.record.lines := by
  simp [infoLines, InfoRecord.lines, Narinfo.record]

variable [LawfulGuileLib]

/-- **The walk over the records stays aligned**, whatever is in their lines. -/
theorem infoPresentPaths_records (records : List InfoRecord) :
    infoPresentPaths (records.flatMap InfoRecord.lines) = some (records.map InfoRecord.storePath) := by
  induction records with
  | nil => rw [List.flatMap_nil, infoPresentPaths]; rfl
  | cons r records ih =>
      have hlines : (r :: records).flatMap InfoRecord.lines =
          r.storePath :: r.deriver :: Text.ofNat r.references.length ::
            (r.references ++ Text.ofNat r.downloadSize :: Text.ofNat r.narSize ::
              records.flatMap InfoRecord.lines) := by
        simp [InfoRecord.lines]
      have hcount : refCountOf (Text.ofNat r.references.length) = some r.references.length := by
        rw [refCountOf, LawfulGuileLib.stringToNumber_ofNat]
      have hdrop : (r.references ++ Text.ofNat r.downloadSize :: Text.ofNat r.narSize ::
          records.flatMap InfoRecord.lines).drop r.references.length =
          Text.ofNat r.downloadSize :: Text.ofNat r.narSize :: records.flatMap InfoRecord.lines := List.drop_left
      rw [hlines, infoPresentPaths, hcount]
      dsimp only
      rw [if_neg (by simp)]
      split
      next hrest =>
        rw [hdrop] at hrest
        cases hrest
        rw [ih]
        rfl
      next hrest => exact absurd hdrop (hrest _ _ _)

end

/-! ### Texts -/

/-- A reply: its lines and the blank line at the end. -/
def replyText (lines : List Text) : Text := joinLines '\n' (lines ++ [[]])

theorem portLines_joinLines {lines : List Text} (h : ∀ line ∈ lines, '\n' ∉ line) :
    portLines (joinLines '\n' lines) = lines := by
  rw [portLines, splitInclusive_joinLines h, List.map_map]
  refine (List.map_congr_left fun line _ => ?_).trans (List.map_id _)
  simp

/-- Empty lines in a reply are kept. -/
theorem queryDataLines_replyText {lines : List Text} (h : ∀ line ∈ lines, '\n' ∉ line) :
    queryDataLines (replyText lines) = lines := by
  have hall : ∀ line ∈ lines ++ [[]], '\n' ∉ line := by
    intro line hline
    rcases List.mem_append.mp hline with hline | hline
    · exact h line hline
    · rw [List.mem_singleton.mp hline]
      exact List.not_mem_nil
  rw [queryDataLines, replyText, portLines_joinLines hall, dropFinalEmptyLine]
  simp

theorem splitWhitespace_unwords {words : List Text}
    (hwords : ∀ word ∈ words, word ≠ [] ∧ ∀ c ∈ word, Text.isWhitespace c = false) :
    Text.splitWhitespace (unwords words) = words := by
  induction words with
  | nil => rfl
  | cons word words ih =>
      rw [List.forall_mem_cons] at hwords
      cases words with
      | nil => exact Text.splitWhitespace_word hwords.1.1 hwords.1.2
      | cons next words =>
          rw [unwords, Text.splitWhitespace_append hwords.1.1 hwords.1.2, ih hwords.2]
          intro hnil
          cases hnil

/-- The last word of a line. -/
theorem getLast?_unwords {words : List Text} (hne : words ≠ []) (hwords : ∀ word ∈ words, word ≠ []) :
    ∃ word ∈ words, (unwords words).getLast? = word.getLast? ∧ unwords words ≠ [] := by
  induction words with
  | nil => exact absurd rfl hne
  | cons word words ih =>
      rw [List.forall_mem_cons] at hwords
      cases words with
      | nil => exact ⟨word, List.mem_cons_self, rfl, hwords.1⟩
      | cons next words =>
          obtain ⟨last, hmem, hlast, hne'⟩ := ih (List.cons_ne_nil _ _) hwords.2
          refine ⟨last, List.mem_cons_of_mem _ hmem, ?_, ?_⟩
          · rw [unwords, List.getLast?_append_of_ne_nil _ (List.cons_ne_nil _ _), List.getLast?_cons_of_ne_nil hne', hlast]
            intro hnil
            cases hnil
          · rw [unwords]
            · simp
            · intro hnil
              cases hnil

section

variable [GuileLib]

theorem mem_tokensGo {acc text token : Text} (hacc : ∀ c ∈ acc, GuileLib.graphic c = true)
    (h : token ∈ tokensGo acc text) : token ≠ [] ∧ ∀ c ∈ token, GuileLib.graphic c = true := by
  have hreverse : acc ≠ [] → acc.reverse ≠ [] ∧ ∀ c ∈ acc.reverse, GuileLib.graphic c = true := fun hne =>
    ⟨List.reverse_ne_nil_iff.mpr hne, fun c hc => hacc c (List.mem_reverse.mp hc)⟩
  induction text generalizing acc with
  | nil =>
      rw [tokensGo] at h
      split at h
      · cases h
      next hne =>
        rw [List.mem_singleton.mp h]
        exact hreverse hne
  | cons c text ih =>
      have hnil : token ∈ tokensGo [] text → token ≠ [] ∧ ∀ c ∈ token, GuileLib.graphic c = true := fun hmem =>
        ih (fun d hd => absurd hd List.not_mem_nil) hmem (fun hne => absurd rfl hne)
      rw [tokensGo] at h
      split at h
      next hgraphic =>
        have hacc' : ∀ d ∈ c :: acc, GuileLib.graphic d = true := List.forall_mem_cons.mpr ⟨hgraphic, hacc⟩
        exact ih hacc' h fun hne =>
          ⟨List.reverse_ne_nil_iff.mpr hne, fun d hd => hacc' d (List.mem_reverse.mp hd)⟩
      · split at h
        · exact hnil h
        next hne =>
          rcases List.mem_cons.mp h with rfl | h
          · exact hreverse hne
          · exact hnil h

variable [LawfulGuileLib]

/-- Requested paths are words. -/
theorem word_of_mem_queryPaths {line path : Text} (h : path ∈ queryPaths line) :
    path ≠ [] ∧ ∀ c ∈ path, Text.isWhitespace c = false := by
  obtain ⟨hne, hgraphic⟩ := @mem_tokensGo _ [] line path (fun c hc => absurd hc List.not_mem_nil) (List.mem_of_mem_tail h)
  exact ⟨hne, fun c hc => LawfulGuileLib.isWhitespace_of_graphic c (hgraphic c hc)⟩

theorem newline_not_mem_queryPaths {line path : Text} (h : path ∈ queryPaths line) : '\n' ∉ path := fun hmem =>
  nomatch (word_of_mem_queryPaths h).2 '\n' hmem

end

/-- **The query for the daemon** is read as the paths it was made of. -/
theorem parseCommandLine_p2pQuery {command : Text} (hcommand : command = haveCommand ∨ command = infoCommand)
    {missing : List Text} (hne : missing ≠ [])
    (hwords : ∀ word ∈ missing, word ≠ [] ∧ ∀ c ∈ word, Text.isWhitespace c = false) :
    parseCommandLine (Text.trim (command ++ ' ' :: unwords missing ++ ['\n'])) =
      if command = haveCommand then .haves missing else .info missing := by
  obtain ⟨word, hmem, hlast, hne'⟩ := getLast?_unwords hne fun word hmem => (hwords word hmem).1
  have htrim : Text.trim (command ++ ' ' :: unwords missing ++ ['\n']) = command ++ ' ' :: unwords missing := by
    refine (Text.trim_append (fun c hc => ?_) (by simp) (fun c hc => ?_) _).trans ?_
    · rcases hcommand with rfl | rfl
      · cases hc
        rfl
      · cases hc
        rfl
    · rw [List.getLast?_append_of_ne_nil _ (List.cons_ne_nil _ _), List.getLast?_cons_of_ne_nil hne', hlast] at hc
      exact (hwords word hmem).2 c (List.mem_of_getLast? hc)
    · rw [show Text.trimEnd ['\n'] = [] by decide, List.append_nil]
  have hsplit : ∀ start : Text, start ++ ' ' :: unwords missing = (start ++ [' ']) ++ unwords missing := by simp
  rw [htrim, parseCommandLine, hsplit]
  rcases hcommand with rfl | rfl
  · rw [show "have ".toList = haveCommand ++ [' '] by decide, Text.dropPrefix?_append_self, if_pos rfl]
    dsimp only
    rw [splitWhitespace_unwords hwords]
  · have hnot : ¬ "have ".toList <+: infoCommand ++ [' '] ++ unwords missing := by
      intro hpre
      obtain ⟨rest, hrest⟩ := hpre
      exact absurd (List.cons.inj hrest).1 (by decide)
    rw [Text.dropPrefix?_eq_none hnot]
    dsimp only
    rw [show "info ".toList = infoCommand ++ [' '] by decide, Text.dropPrefix?_append_self, if_neg (by decide)]
    dsimp only
    rw [splitWhitespace_unwords hwords]

/-! ### The daemon's side -/

/-- The lines that a port on the socket yields; what the daemon sends is text. -/
def socketLines (bytes : Bytes) : List Text := ((Text.fromUtf8 bytes).map portLines).getD []

/-- **A reply is read as it was written**, and a query that panics as an empty reply. -/
theorem socketQueryLines_reply {m : Action Shared Effect Panic Unit} {s : Shared}
    (hm : ∀ e ∈ (m s).trace, e.InReply) (hlines : ∀ line ∈ repliedLines (m s), '\n' ∉ line) :
    socketQueryLines (socketLines (sentBytes ((m >>= fun _ => Action.emit .replyEnd) s))) =
      ⟨repliedLines (m s), [], true, []⟩ := by
  rw [sentBytes_reply hm]
  cases hr : (m s).result with
  | error e =>
      have hnone : repliedLines (m s) = [] := by
        rw [repliedLines, hr]
      rw [hnone]
      rfl
  | ok u =>
      have hreply : ∀ query ∈ [(repliedLines (m s)).map SocketCall.writeLine], ∀ call ∈ query, call.InReply := by
        intro query hquery call hcall
        rw [List.mem_singleton.mp hquery] at hcall
        obtain ⟨line, -, rfl⟩ := List.mem_map.mp hcall
        trivial
      have hone : ∀ query ∈ [(repliedLines (m s)).map SocketCall.writeLine], ∀ call ∈ query, call.OneLine := by
        intro query hquery call hcall
        rw [List.mem_singleton.mp hquery] at hcall
        obtain ⟨line, hline, rfl⟩ := List.mem_map.mp hcall
        exact hlines line hline
      obtain ⟨text, htext, hport⟩ := portLines_producedReplies hreply hone
      have hproduced : producedReplies [(repliedLines (m s)).map SocketCall.writeLine] =
          produced ((repliedLines (m s)).map SocketCall.writeLine ++ [.writeEnd]) := List.append_nil _
      rw [hproduced] at htext
      dsimp only
      rw [socketLines, htext, Option.map_some, Option.getD_some, hport]
      have hread := @readReply_frames true [] [] _ (hreply _ List.mem_cons_self)
      have hfd4 : ((repliedLines (m s)).map SocketCall.writeLine).flatMap SocketCall.fd4Lines = repliedLines (m s) := by
        rw [List.flatMap_map]
        exact List.flatMap_singleton' _
      have htraces : ((repliedLines (m s)).map SocketCall.writeLine).flatMap SocketCall.traceLines = [] := by
        rw [List.flatMap_map]
        exact List.flatMap_eq_nil_iff.mpr fun _ _ => rfl
      rw [hfd4, htraces, List.append_nil (repliedLines (m s))] at hread
      rw [replyLines, List.flatMap_cons, List.flatMap_nil]
      exact hread

section

variable [SignatureLib] [Sha256]

/-- The daemon on its socket, for a connection with one query. -/
def daemonSocket (cfg : Config) (worlds : Nat → QueryWorld) (s : Shared) (mode query : Text) : List Text :=
  socketLines (sentBytes (serveQuery cfg worlds (mode ++ ['\n']) (query ++ ['\n']) s))

/-- The paths of a query, each with what handling it meets. -/
def withWorlds (worlds : Nat → QueryWorld) (paths : List Text) : List (QueryWorld × Text) :=
  paths.mapIdx fun k path => (worlds k, path)

omit [SignatureLib] [Sha256] in
theorem map_snd_withWorlds (worlds : Nat → QueryWorld) (paths : List Text) :
    (withWorlds worlds paths).map Prod.snd = paths := by
  refine List.ext_getElem? fun k => ?_
  rw [withWorlds, List.getElem?_map, List.getElem?_mapIdx, Option.map_map]
  exact Option.map_id'

/-- What the daemon answers to `have` for some paths, on a connection that insists on peers. -/
def haveAnswers (cfg : Config) (worlds : Nat → QueryWorld) (s : Shared) (paths : List Text) : List Text :=
  repliedLines (handlePaths (handleHavePath (cfg.forConnection true)) (withWorlds worlds paths) s)

/-- The records that the daemon answers to `info` with; none if it panics. -/
def infoRecords (worlds : Nat → QueryWorld) (s : Shared) (paths : List Text) : List InfoRecord :=
  match infoAnswers s (withWorlds worlds paths) with
  | .ok infos => infos.map Narinfo.record
  | .error _ => []

theorem haveAnswers_sublist (cfg : Config) (worlds : Nat → QueryWorld) (s : Shared) (paths : List Text) :
    (haveAnswers cfg worlds s paths).Sublist paths := by
  obtain ⟨-, hlines⟩ := @handlePaths_have _ _ (cfg.forConnection true) (withWorlds worlds paths) s
  rw [map_snd_withWorlds] at hlines
  unfold haveAnswers repliedLines
  split
  · exact hlines
  · exact List.nil_sublist _

/-- The daemon is asked for some paths, as the extension asks it. -/
theorem socketQueryLines_have (cfg : Config) (worlds : Nat → QueryWorld) (s : Shared) {missing : List Text}
    (hne : missing ≠ []) (hwords : ∀ word ∈ missing, word ≠ [] ∧ ∀ c ∈ word, Text.isWhitespace c = false) :
    socketQueryLines (daemonSocket cfg worlds s queryP2pOnlyMode (haveCommand ++ ' ' :: unwords missing)) =
      ⟨haveAnswers cfg worlds s missing, [], true, []⟩ := by
  obtain ⟨hreply, -⟩ := @handlePaths_have _ _ (cfg.forConnection true) (withWorlds worlds missing) s
  have hserve : serveQuery cfg worlds (queryP2pOnlyMode ++ ['\n']) (haveCommand ++ ' ' :: unwords missing ++ ['\n']) =
      handlePaths (handleHavePath (cfg.forConnection true)) (withWorlds worlds missing) >>=
        fun _ => Action.emit .replyEnd := by
    have hmode : forceP2pOnly (Text.trim (queryP2pOnlyMode ++ ['\n'])) = true := by decide +kernel
    rw [serveQuery, parseCommandLine_p2pQuery (Or.inl rfl) hne hwords, hmode, if_pos rfl]
    rfl
  rw [daemonSocket, hserve]
  refine socketQueryLines_reply hreply fun line hline hmem => ?_
  exact nomatch (hwords line ((haveAnswers_sublist cfg worlds s missing).subset hline)).2 '\n' hmem

theorem socketQueryLines_info (cfg : Config) (worlds : Nat → QueryWorld) (s : Shared) {missing : List Text}
    (hne : missing ≠ []) (hwords : ∀ word ∈ missing, word ≠ [] ∧ ∀ c ∈ word, Text.isWhitespace c = false)
    (hlines : ∀ r ∈ infoRecords worlds s missing, ∀ line ∈ r.lines, '\n' ∉ line) :
    socketQueryLines (daemonSocket cfg worlds s queryP2pOnlyMode (infoCommand ++ ' ' :: unwords missing)) =
      ⟨(infoRecords worlds s missing).flatMap InfoRecord.lines, [], true, []⟩ := by
  have hpolicy : (cfg.forConnection true).substitutePolicy = .p2pOnly := rfl
  obtain ⟨hreply, hanswers⟩ := handlePaths_info hpolicy (withWorlds worlds missing) s
  have hreplied : repliedLines (handlePaths (handleInfoPath (cfg.forConnection true)) (withWorlds worlds missing) s) =
      (infoRecords worlds s missing).flatMap InfoRecord.lines := by
    unfold infoRecords repliedLines
    cases hinfos : infoAnswers s (withWorlds worlds missing) with
    | error e =>
        rw [hinfos] at hanswers
        rw [hanswers]
        rfl
    | ok infos =>
        rw [hinfos] at hanswers
        rw [hanswers.1]
        dsimp only
        rw [hanswers.2, List.flatMap_map]
        exact congrArg (fun f => infos.flatMap f) (funext infoLines_eq_record)
  have hserve : serveQuery cfg worlds (queryP2pOnlyMode ++ ['\n']) (infoCommand ++ ' ' :: unwords missing ++ ['\n']) =
      handlePaths (handleInfoPath (cfg.forConnection true)) (withWorlds worlds missing) >>=
        fun _ => Action.emit .replyEnd := by
    have hmode : forceP2pOnly (Text.trim (queryP2pOnlyMode ++ ['\n'])) = true := by decide +kernel
    rw [serveQuery, parseCommandLine_p2pQuery (Or.inr rfl) hne hwords, hmode, if_neg (by decide)]
    rfl
  rw [daemonSocket, hserve, ← hreplied]
  refine socketQueryLines_reply hreply fun line hline => ?_
  rw [hreplied] at hline
  obtain ⟨r, hr, hline⟩ := List.mem_flatMap.mp hline
  exact hlines r hr line hline

/-! ### The merged reply -/

/-- Each path that was asked for is answered at most once, and nothing else is answered. -/
structure AnswersOnce (asked answered : List Text) : Prop where
  nodup : answered.Nodup
  asked : ∀ path ∈ answered, path ∈ asked

omit [SignatureLib] [Sha256] in
/-- What the two sides answer, if the second is asked for what the first lacks. -/
theorem AnswersOnce.append {requested first second : List Text} (hfirst : AnswersOnce requested first)
    (hsecond : AnswersOnce (missingPaths requested first) second) : AnswersOnce requested (first ++ second) := by
  have hmissing : ∀ path ∈ second, path ∈ requested ∧ path ∉ first := by
    intro path hpath
    have hmem := List.mem_filter.mp (hsecond.asked path hpath)
    exact ⟨hmem.1, of_decide_eq_true hmem.2⟩
  refine ⟨List.nodup_append.mpr ⟨hfirst.nodup, hsecond.nodup, ?_⟩, fun path hpath => ?_⟩
  · intro a ha b hb heq
    exact (hmissing b hb).2 (heq ▸ ha)
  · rcases List.mem_append.mp hpath with hpath | hpath
    · exact hfirst.asked path hpath
    · exact (hmissing path hpath).1

omit [SignatureLib] [Sha256] in
/-- The daemon is asked for these paths and no others, in one line, and only if there are any. -/
structure AsksFor (command : List Text → DaemonCommand) (missing : List Text) (asked : Option (Text × Text)) :
    Prop where
  none_iff : asked = none ↔ missing = []
  query : ∀ mode query, asked = some (mode, query) → mode = queryP2pOnlyMode ∧ '\n' ∉ query ∧
    parseCommandLine (Text.trim (query ++ ['\n'])) = command missing

variable [GuileLib]

omit [SignatureLib] [Sha256] in
/-- What comes of a query whose built-in reply is understood. -/
theorem handleBuiltinFirstQueryLine_eq {builtin : Text → Text} {ask : Text → Text → List Text} {line command : Text}
    {builtinLines present : List Text} (hcommand : queryCommand line = some command)
    (hknown : command = haveCommand ∨ command = infoCommand)
    (hlines : queryDataLines (builtin (line ++ ['\n'])) = builtinLines)
    (hpresent : presentPaths (some command) (queryPaths line) builtinLines = some present) {answers : List Text}
    (hanswers : missingPaths (queryPaths line) present ≠ [] →
      socketQueryLines (ask queryP2pOnlyMode (command ++ ' ' :: unwords (missingPaths (queryPaths line) present))) =
        ⟨answers, [], true, []⟩)
    (hnothing : missingPaths (queryPaths line) present = [] → answers = []) :
    handleBuiltinFirstQueryLine builtin (some ask) line =
      some ⟨if missingPaths (queryPaths line) present = [] then none
          else some (queryP2pOnlyMode, command ++ ' ' :: unwords (missingPaths (queryPaths line) present)),
        builtinLines ++ answers ++ [[]], []⟩ := by
  simp only [handleBuiltinFirstQueryLine, hcommand, hlines, hpresent, p2pQuery]
  by_cases hmissing : missingPaths (queryPaths line) present = []
  · simp [hmissing, hnothing hmissing]
  · simp [hmissing, hknown, hanswers hmissing]

variable [LawfulGuileLib]

omit [SignatureLib] [Sha256] in
theorem word_of_mem_missingPaths {line path : Text} {present : List Text}
    (h : path ∈ missingPaths (queryPaths line) present) :
    path ≠ [] ∧ ∀ c ∈ path, Text.isWhitespace c = false :=
  word_of_mem_queryPaths (List.mem_of_mem_filter h)

omit [SignatureLib] [Sha256] in
theorem asksFor_missingPaths {line command : Text} {present : List Text}
    (hknown : command = haveCommand ∨ command = infoCommand) :
    AsksFor (fun paths => if command = haveCommand then .haves paths else .info paths)
      (missingPaths (queryPaths line) present)
      (if missingPaths (queryPaths line) present = [] then none
        else some (queryP2pOnlyMode, command ++ ' ' :: unwords (missingPaths (queryPaths line) present))) := by
  by_cases hmissing : missingPaths (queryPaths line) present = []
  · rw [if_pos hmissing]
    exact ⟨iff_of_true rfl hmissing, fun mode query hasked => nomatch hasked⟩
  · rw [if_neg hmissing]
    refine ⟨iff_of_false (fun hnone => nomatch hnone) hmissing, fun mode query hasked => ?_⟩
    obtain ⟨rfl, rfl⟩ := Prod.mk.inj (Option.some.inj hasked)
    refine ⟨rfl, ?_, parseCommandLine_p2pQuery hknown hmissing fun word hword => word_of_mem_missingPaths hword⟩
    refine newline_not_mem_append ?_ fun hmem => ?_
    · rcases hknown with rfl | rfl
      · decide
      · decide
    · rcases List.mem_cons.mp hmem with heq | hmem
      · cases heq
      · refine newline_not_mem_unwords (fun word hword => ?_) hmem
        exact newline_not_mem_queryPaths (List.mem_of_mem_filter hword)

/-- `have`. -/
theorem builtinFirst_have (cfg : Config) (worlds : Nat → QueryWorld) (s : Shared) {builtin : Text → Text}
    {line : Text} (hnodup : (queryPaths line).Nodup) {haves : List Text}
    (hcommand : queryCommand line = some haveCommand) (hbuiltin : builtin (line ++ ['\n']) = replyText haves)
    (honce : AnswersOnce (queryPaths line) haves) :
    let missing := missingPaths (queryPaths line) haves
    ∃ reply, handleBuiltinFirstQueryLine builtin (some (daemonSocket cfg worlds s)) line = some reply ∧
      AsksFor .haves missing reply.asked ∧
      reply.replies = haves ++ haveAnswers cfg worlds s missing ++ [[]] ∧
      AnswersOnce (queryPaths line) (haves ++ haveAnswers cfg worlds s missing) := by
  intro missing
  have hlines : queryDataLines (builtin (line ++ ['\n'])) = haves := by
    rw [hbuiltin, queryDataLines_replyText]
    exact fun path hpath => newline_not_mem_queryPaths (honce.asked path hpath)
  have hanswers : missing ≠ [] →
      socketQueryLines (daemonSocket cfg worlds s queryP2pOnlyMode (haveCommand ++ ' ' :: unwords missing)) =
        ⟨haveAnswers cfg worlds s missing, [], true, []⟩ := fun hne =>
    socketQueryLines_have cfg worlds s hne fun word hword => word_of_mem_missingPaths hword
  have hsub := haveAnswers_sublist cfg worlds s missing
  have hnothing : missing = [] → haveAnswers cfg worlds s missing = [] := fun hnil =>
    List.eq_nil_of_sublist_nil (hnil ▸ hsub)
  refine ⟨_, handleBuiltinFirstQueryLine_eq hcommand (Or.inl rfl) hlines (if_pos rfl) hanswers hnothing,
    asksFor_missingPaths (Or.inl rfl), rfl, honce.append ⟨?_, fun path hpath => hsub.subset hpath⟩⟩
  exact (hnodup.filter _).sublist hsub

/-- `info`. -/
theorem builtinFirst_info (cfg : Config) (worlds : Nat → QueryWorld) (s : Shared) {builtin : Text → Text}
    {line : Text} {records : List InfoRecord} (hcommand : queryCommand line = some infoCommand)
    (hbuiltin : builtin (line ++ ['\n']) = replyText (records.flatMap InfoRecord.lines))
    (hrecords : ∀ r ∈ records, ∀ l ∈ r.lines, '\n' ∉ l)
    (honce : AnswersOnce (queryPaths line) (records.map InfoRecord.storePath)) :
    let missing := missingPaths (queryPaths line) (records.map InfoRecord.storePath)
    (∀ r ∈ infoRecords worlds s missing, ∀ l ∈ r.lines, '\n' ∉ l) →
    AnswersOnce missing ((infoRecords worlds s missing).map InfoRecord.storePath) →
    infoPresentPaths (queryDataLines (builtin (line ++ ['\n']))) = some (records.map InfoRecord.storePath) ∧
    ∃ reply, handleBuiltinFirstQueryLine builtin (some (daemonSocket cfg worlds s)) line = some reply ∧
      AsksFor .info missing reply.asked ∧
      reply.replies = (records ++ infoRecords worlds s missing).flatMap InfoRecord.lines ++ [[]] ∧
      AnswersOnce (queryPaths line) ((records ++ infoRecords worlds s missing).map InfoRecord.storePath) := by
  intro missing hdaemon hdaemonOnce
  have hlines : queryDataLines (builtin (line ++ ['\n'])) = records.flatMap InfoRecord.lines := by
    rw [hbuiltin, queryDataLines_replyText]
    intro l hl
    obtain ⟨r, hr, hl⟩ := List.mem_flatMap.mp hl
    exact hrecords r hr l hl
  have hpresent : presentPaths (some infoCommand) (queryPaths line) (records.flatMap InfoRecord.lines) =
      some (records.map InfoRecord.storePath) := by
    rw [presentPaths, if_neg (by decide), if_pos rfl, infoPresentPaths_records]
  have hanswers : missing ≠ [] →
      socketQueryLines (daemonSocket cfg worlds s queryP2pOnlyMode (infoCommand ++ ' ' :: unwords missing)) =
        ⟨(infoRecords worlds s missing).flatMap InfoRecord.lines, [], true, []⟩ := fun hne =>
    socketQueryLines_info cfg worlds s hne (fun word hword => word_of_mem_missingPaths hword) hdaemon
  have hnothing : missing = [] → (infoRecords worlds s missing).flatMap InfoRecord.lines = [] := by
    intro hnil
    rw [hnil]
    rfl
  refine ⟨by rw [hlines, infoPresentPaths_records], _,
    handleBuiltinFirstQueryLine_eq hcommand (Or.inr rfl) hlines hpresent hanswers hnothing,
    asksFor_missingPaths (Or.inr rfl), ?_, ?_⟩
  · rw [List.flatMap_append]
  · rw [List.map_append]
    exact honce.append hdaemonOnce

/-- **Builtin-first merging answers each path once.** For every query with distinct paths and every
reply of the built-in substituter that answers some of them, each once: the records of an `info` reply
are told apart, whatever their lines; the daemon is asked for the paths that the reply lacks; and the
merged reply is the built-in lines, the daemon's lines and one blank line, with no path in it twice
and none that either side answered left out. -/
theorem builtin_first_answers_once (cfg : Config) (worlds : Nat → QueryWorld) (s : Shared)
    (builtin : Text → Text) (line : Text) (hnodup : (queryPaths line).Nodup) :
    (∀ haves, queryCommand line = some haveCommand → builtin (line ++ ['\n']) = replyText haves →
      AnswersOnce (queryPaths line) haves →
      let missing := missingPaths (queryPaths line) haves
      ∃ reply, handleBuiltinFirstQueryLine builtin (some (daemonSocket cfg worlds s)) line = some reply ∧
        AsksFor .haves missing reply.asked ∧
        reply.replies = haves ++ haveAnswers cfg worlds s missing ++ [[]] ∧
        AnswersOnce (queryPaths line) (haves ++ haveAnswers cfg worlds s missing)) ∧
    (∀ records, queryCommand line = some infoCommand →
      builtin (line ++ ['\n']) = replyText (records.flatMap InfoRecord.lines) →
      (∀ r ∈ records, ∀ l ∈ r.lines, '\n' ∉ l) →
      AnswersOnce (queryPaths line) (records.map InfoRecord.storePath) →
      let missing := missingPaths (queryPaths line) (records.map InfoRecord.storePath)
      (∀ r ∈ infoRecords worlds s missing, ∀ l ∈ r.lines, '\n' ∉ l) →
      AnswersOnce missing ((infoRecords worlds s missing).map InfoRecord.storePath) →
      infoPresentPaths (queryDataLines (builtin (line ++ ['\n']))) = some (records.map InfoRecord.storePath) ∧
      ∃ reply, handleBuiltinFirstQueryLine builtin (some (daemonSocket cfg worlds s)) line = some reply ∧
        AsksFor .info missing reply.asked ∧
        reply.replies = (records ++ infoRecords worlds s missing).flatMap InfoRecord.lines ++ [[]] ∧
        AnswersOnce (queryPaths line) ((records ++ infoRecords worlds s missing).map InfoRecord.storePath)) :=
  ⟨fun _ hcommand hbuiltin honce => builtinFirst_have cfg worlds s hnodup hcommand hbuiltin honce,
    fun _ hcommand hbuiltin hrecords honce => builtinFirst_info cfg worlds s hcommand hbuiltin hrecords honce⟩

end

/-! ### A query for two paths -/

/-- Guile on ASCII. -/
@[reducible] def sampleGuileLib : GuileLib where
  graphic c := decide (33 ≤ c.toNat ∧ c.toNat ≤ 126)
  stringToNumber t := if t ≠ [] ∧ t.all Char.isDigit then some (.index (Nat.ofDigitChars 10 t 0)) else none

theorem lawful_sampleGuileLib : @LawfulGuileLib sampleGuileLib := by
  refine @LawfulGuileLib.mk sampleGuileLib (fun c hgraphic => ?_) fun n => ?_
  · have hrange : 33 ≤ c.toNat ∧ c.toNat ≤ 126 := of_decide_eq_true hgraphic
    by_contra hwhite
    rw [Bool.not_eq_false] at hwhite
    simp only [Text.isWhitespace, Bool.or_eq_true, decide_eq_true_eq] at hwhite
    omega
  · have hdigits : (Text.ofNat n).all Char.isDigit = true :=
      List.all_eq_true.mpr fun c hc => Nat.isDigit_of_mem_toDigits (by decide) (by decide) hc
    have hvalue : Nat.ofDigitChars 10 (Text.ofNat n) 0 = n := Nat.ofDigitChars_ten_toDigits
    show (if Text.ofNat n ≠ [] ∧ (Text.ofNat n).all Char.isDigit = true then _ else _) = _
    rw [if_pos ⟨Nat.toDigits_ne_nil, hdigits⟩, hvalue]

def twoPathsLine : Text := "info /gnu/store/a-b /gnu/store/c-d".toList

/-- What the built-in substituter says about the first path. -/
def firstRecord : InfoRecord := ⟨"/gnu/store/a-b".toList, [], [], 0, 4⟩

def sampleBuiltin (query : Text) : Text :=
  if query = twoPathsLine ++ ['\n'] then replyText firstRecord.lines else []

/-- What the daemon knows about the second path. -/
def secondNarinfo : Narinfo := { sampleNarinfo with storePath := "/gnu/store/c-d".toList }

def secondShared : Shared := ⟨(NarinfoCache.new 60).put 0 "c".toList secondNarinfo, sampleDisk⟩

theorem infoRecords_second :
    infoRecords (fun _ => idleQuery) secondShared ["/gnu/store/c-d".toList] =
      [secondNarinfo.record] := by
  decide +kernel

/-- The first record has an empty line, and the second path is found after it. -/
theorem builtin_first_answers_once_sample :
    ∃ reply, @handleBuiltinFirstQueryLine sampleGuileLib sampleBuiltin
        (some (@daemonSocket forgedLib sampleSha256 httpConfig (fun _ => idleQuery) secondShared)) twoPathsLine =
          some reply ∧
      reply.replies = ["/gnu/store/a-b", "", "0", "0", "4", "/gnu/store/c-d", "", "0", "4", "4", ""].map String.toList := by
  have hpaths : @queryPaths sampleGuileLib twoPathsLine = ["/gnu/store/a-b".toList, "/gnu/store/c-d".toList] := by
    decide +kernel
  have hmissing : missingPaths ["/gnu/store/a-b".toList, "/gnu/store/c-d".toList]
      ([firstRecord].map InfoRecord.storePath) = ["/gnu/store/c-d".toList] := by
    decide +kernel
  obtain ⟨-, hinfo⟩ := @builtin_first_answers_once forgedLib sampleSha256 sampleGuileLib lawful_sampleGuileLib
    httpConfig (fun _ => idleQuery) secondShared sampleBuiltin twoPathsLine (by rw [hpaths]; decide +kernel)
  have hfirst := hinfo [firstRecord] (by decide +kernel) (if_pos rfl) (by decide +kernel)
  rw [hpaths] at hfirst
  dsimp only at hfirst
  rw [hmissing, infoRecords_second] at hfirst
  obtain ⟨-, reply, hreply, -, hreplies, -⟩ := hfirst ⟨by decide +kernel, by decide +kernel⟩ (by decide +kernel)
    ⟨by decide +kernel, by decide +kernel⟩
  refine ⟨reply, hreply, hreplies.trans ?_⟩
  decide +kernel

end GuixP2p
