import GuixP2p.Daemon.Credit
import GuixP2p.Extension.BuiltinFirst
import GuixP2p.Extension.CutSocket

/-!
# GuixP2p.Extension.SubstituteFirst

The default way of a substitute session: Guix's own substituter is asked for every command, and the
daemon only for what that reports as not found (`handle-builtin-first-substitute-line`). Each command
for the daemon goes over a socket of its own, which may close early.

`substitute_first_session` is about sessions of any length: what Guix is told for each command, when
the daemon is asked, and that the session ends at the first command whose socket fails.
-/

namespace GuixP2p

open GuixP2p.Lib

namespace BuiltinFirst

/-! ### The extension -/

section

variable [GuileLib]

def substituteCommand : Text := "substitute".toList

def substituteP2pOnlyMode : Text := "mode: substitute-p2p-only".toList

/-- The destination, if the line is a command and two words. -/
def substituteDestination (line : Text) : Option Text :=
  match stringTokenize line with
  | [command, _, destination] => if command = substituteCommand then some destination else none
  | _ => none

omit [GuileLib] in
def nonEmptyLines (text : Text) : List Text := (portLines text).filter fun line => decide (line ≠ [])

omit [GuileLib] in
def substituteTerminalLine (lines : List Text) : Option Text := lines.find? terminalSubstituteReply

omit [GuileLib] in
def notFoundReply : Option Text → Bool
  | none => false
  | some line => decide (Text.trim line = notFoundLine)

/-- Why a session ends early. -/
inductive SessionFailure
  | connectFailed
  | invalidSubstituteCommand (line : Text)
  | relayFailed (failure : ExtensionFailure)
  deriving DecidableEq

/-- What comes of a command: the mode and the line for the daemon, if it is asked, the lines for Guix
and for the build log, the NARs that were restored, and how it ended. -/
structure SubstituteReply where
  asked : Option (Text × Text)
  replies : List Text
  traces : List Text
  restored : List (Text × Bytes)
  result : Except SessionFailure Unit

/-- A socket for one command. It yields the lines for a mode and a line, or the connection fails. -/
def relaySingleSubstituteThroughSocket (restores : Text → Bytes → Bool) (ask : Text → Text → Option (List Text))
    (line : Text) : SubstituteReply :=
  let asked := some (substituteP2pOnlyMode, line)
  match ask substituteP2pOnlyMode line with
  | none => ⟨asked, [], [], [], .error .connectFailed⟩
  | some lines =>
    match substituteDestination line with
    | none => ⟨asked, [], [], [], .error (.invalidSubstituteCommand line)⟩
    | some destination =>
      let r := handleRelayOutput restores [destination] lines
      ⟨asked, r.replies, r.traces, r.restored, r.result.mapError .relayFailed⟩

def handleBuiltinFirstSubstituteLine (restores : Text → Bytes → Bool) (builtin : Text → Text)
    (socket : Option (Text → Text → Option (List Text))) (line : Text) : SubstituteReply :=
  let builtinLines := nonEmptyLines (builtin (line ++ ['\n']))
  match socket, notFoundReply (substituteTerminalLine builtinLines) with
  | some ask, true => relaySingleSubstituteThroughSocket restores ask line
  | _, _ => ⟨none, builtinLines, [], [], .ok ()⟩

/-- A command of a session, with what the built-in substituter and the daemon say to it. -/
structure SubstituteTurn where
  line : Text
  builtin : Text → Text
  ask : Text → Text → Option (List Text)

/-- The loop of `builtin-first-through-socket`, with or without a socket; an error ends it. -/
def builtinFirstThroughSocket (restores : Text → Bytes → Bool) (socketPath : Bool) :
    List SubstituteTurn → List SubstituteReply
  | [] => []
  | turn :: turns =>
    let r := handleBuiltinFirstSubstituteLine restores turn.builtin (if socketPath then some turn.ask else none)
      turn.line
    match r.result with
    | .error _ => [r]
    | .ok _ => r :: builtinFirstThroughSocket restores socketPath turns

/-! ### Words -/

theorem tokensGo_word {word : Text} (hword : ∀ c ∈ word, GuileLib.graphic c = true) (acc rest : Text) :
    tokensGo acc (word ++ rest) = tokensGo (word.reverse ++ acc) rest := by
  induction word generalizing acc with
  | nil => rfl
  | cons c word ih =>
      rw [List.forall_mem_cons] at hword
      rw [List.cons_append, tokensGo, if_pos hword.1, ih hword.2, List.reverse_cons, List.append_assoc]
      rfl

theorem stringTokenize_unwords [LawfulGuileLib] {words : List Text}
    (hwords : ∀ word ∈ words, word ≠ [] ∧ ∀ c ∈ word, GuileLib.graphic c = true) :
    stringTokenize (unwords words) = words := by
  have hspace : ¬ GuileLib.graphic ' ' = true := fun hgraphic =>
    absurd (LawfulGuileLib.isWhitespace_of_graphic ' ' hgraphic) (by decide)
  induction words with
  | nil => rfl
  | cons word words ih =>
      rw [List.forall_mem_cons] at hwords
      have hne : word.reverse ≠ [] := fun hnil => hwords.1.1 (List.reverse_eq_nil_iff.mp hnil)
      cases words with
      | nil =>
          have hgo := tokensGo_word hwords.1.2 [] []
          rw [List.append_nil, List.append_nil] at hgo
          rw [unwords, stringTokenize, hgo, tokensGo, if_neg hne, List.reverse_reverse]
      | cons next words =>
          have hunwords : unwords (word :: next :: words) = word ++ ' ' :: unwords (next :: words) := rfl
          rw [hunwords, stringTokenize, tokensGo_word hwords.1.2, List.append_nil, tokensGo, if_neg hspace,
            if_neg hne, List.reverse_reverse]
          exact congrArg (word :: ·) (ih hwords.2)

/-! ### The daemon -/

omit [GuileLib] in
theorem unwords_command (path dest : Text) :
    unwords [substituteCommand, path, dest] = "substitute ".toList ++ (path ++ ' ' :: dest) := rfl

omit [GuileLib] in
theorem trim_line {path dest : Text} (hne : dest ≠ []) (hdest : ∀ c ∈ dest, Text.isWhitespace c = false) :
    Text.trim (unwords [substituteCommand, path, dest] ++ ['\n']) = unwords [substituteCommand, path, dest] := by
  have hlast : (unwords [substituteCommand, path, dest]).getLast? = dest.getLast? := by
    rw [unwords_command, List.getLast?_append_of_ne_nil _ (by simp), List.getLast?_append_of_ne_nil _ (by simp),
      List.getLast?_cons_of_ne_nil hne]
  refine (Text.trim_append (fun c hc => ?_) (by simp [unwords_command]) (fun c hc => ?_) _).trans ?_
  · cases hc
    rfl
  · rw [hlast] at hc
    exact hdest c (List.mem_of_getLast? hc)
  · rw [show Text.trimEnd ['\n'] = [] by decide, List.append_nil]

omit [GuileLib] in
/-- The daemon reads the command as it was meant. -/
theorem parseCommandLine_command {path dest : Text} (hpath : ∀ c ∈ path, Text.isWhitespace c = false)
    (hne : dest ≠ []) (hdest : ∀ c ∈ dest, Text.isWhitespace c = false) :
    parseCommandLine (Text.trim (unwords [substituteCommand, path, dest] ++ ['\n'])) = .substitute path dest := by
  have hspace : ' ' ∉ path := fun hmem => absurd (hpath ' ' hmem) (by decide)
  have hsplit : Text.splitN 2 ' ' (path ++ ' ' :: dest) = [path, dest] := by
    rw [Text.splitN, Text.splitOnce_append hspace]
    rfl
  rw [trim_line hne hdest, unwords_command, parseCommandLine_substitute, substituteArguments, hsplit]
  rfl

end

section

variable [Sha256] [MetadataFormat] [SignatureLib] [Decompressors]

/-- One turn of the loop of `handle_socket_connection`, in a substitute mode. -/
def serveSubstituteMode (cfg : Config) (world : SubstituteWorld) (modeLine line : Text) :
    Action Shared Effect Panic Unit :=
  serveSubstitute (cfg.forConnection (forceP2pOnly (Text.trim modeLine))) world line

end

/-- A command that Guix gives, what the built-in substituter says to it, how a socket for it does, and
what the daemon meets when it serves it. -/
structure FirstCommand where
  path : Text
  dest : Text
  builtin : Text → Text
  ask : Text → Text → Option (List Text)
  world : SubstituteWorld
  before : Shared

namespace FirstCommand

def line (c : FirstCommand) : Text := unwords [substituteCommand, c.path, c.dest]

def turn (c : FirstCommand) : SubstituteTurn := ⟨c.line, c.builtin, c.ask⟩

/-- The command as the daemon gets it. -/
def atDaemon (c : FirstCommand) : SubstituteCommand := ⟨c.line ++ ['\n'], c.path, c.dest, c.world, c.before⟩

def builtinLines (c : FirstCommand) : List Text := nonEmptyLines (c.builtin (c.line ++ ['\n']))

/-- The built-in substituter reports the path as not found, and there is a socket. -/
def Falls (socketPath : Bool) (c : FirstCommand) : Prop :=
  socketPath = true ∧ notFoundReply (substituteTerminalLine c.builtinLines) = true

section

variable [Sha256] [MetadataFormat] [SignatureLib] [Decompressors]

def serve (cfg : Config) (c : FirstCommand) : Outcome Shared Effect Panic Unit :=
  serveSubstituteMode cfg c.world (substituteP2pOnlyMode ++ ['\n']) (c.line ++ ['\n']) c.before

/-- The mode makes the daemon insist on peers. -/
theorem serve_eq (cfg : Config) (c : FirstCommand) : c.serve cfg = c.atDaemon.serve (cfg.forConnection true) := by
  have hmode : forceP2pOnly (Text.trim (substituteP2pOnlyMode ++ ['\n'])) = true := by decide +kernel
  rw [serve, serveSubstituteMode, hmode]
  rfl

variable [GuileLib]

/-- Graphic words, a daemon that frames its lines, and a socket that yields the beginning of what it sends. -/
structure WellFormed (cfg : Config) (c : FirstCommand) : Prop where
  words : ∀ word ∈ [substituteCommand, c.path, c.dest], word ≠ [] ∧ ∀ ch ∈ word, GuileLib.graphic ch = true
  flushed : c.world.delivery.flushed = true
  stream : c.world.delivery.stream = .done
  framed : c.atDaemon.Framed (cfg.forConnection true)
  socket : ∀ lines, c.ask substituteP2pOnlyMode c.line = some lines →
    ∃ cut, Text.utf8 cut <+: sentBytes (c.serve cfg) ∧ lines = portLines cut

omit [GuileLib] in
/-- The request returns, and all of what the daemon sends for it arrives. -/
structure Arrives (cfg : Config) (c : FirstCommand) : Prop where
  returns : (c.serve cfg).result = .ok ()
  socket : ∃ text, Text.utf8 text = sentBytes (c.serve cfg) ∧
    c.ask substituteP2pOnlyMode c.line = some (portLines text)

end

end FirstCommand

theorem mem_dropLast_cons {α : Type} {a b : α} {l : List α} (h : b ∈ (a :: l).dropLast) : b = a ∨ b ∈ l.dropLast := by
  cases l with
  | nil => exact absurd h List.not_mem_nil
  | cons c l => exact List.mem_cons.mp h

theorem exists_of_mem_right {α β : Type} {R : α → β → Prop} {as : List α} {bs : List β} (h : List.Forall₂ R as bs)
    {b : β} (hb : b ∈ bs) : ∃ a ∈ as, R a b := by
  induction h with
  | nil => cases hb
  | @cons a b' as bs hr _ ih =>
      rcases List.mem_cons.mp hb with rfl | hb
      · exact ⟨a, List.mem_cons_self, hr⟩
      · obtain ⟨a', ha', hr'⟩ := ih hb
        exact ⟨a', List.mem_cons_of_mem a ha', hr'⟩

/-! ### Sessions -/

section

variable [Sha256]

/-- What Guix gets to see of a command that the daemon serves to the end: a refusal, or the NAR at the
destination and its digest. -/
inductive Completed (dest : Text) (r : SubstituteReply) : Prop
  | refused {reply : Text} (hreply : Refusal reply) (replies : r.replies = [reply]) (restored : r.restored = [])
  | succeeded {narData : Bytes} (restored : r.restored = [(dest, narData)])
      (replies : r.replies = [successLine (Hex.encode (Sha256.digest narData).toList) narData.length])

theorem completed_transcript {nar : Option Bytes} {frames : List ReplyFrame} (h : Transcript nar frames) (dest : Text)
    (asked : Option (Text × Text)) (traces : List Text) (result : Except SessionFailure Unit) :
    Completed dest ⟨asked, frames.filterMap ReplyFrame.fd4Line, traces,
      nar.toList.map fun narData => (dest, narData), result⟩ := by
  have hout : ∀ log : List Text, (log.map ReplyFrame.out).filterMap ReplyFrame.fd4Line = [] := by
    intro log
    simp [List.filterMap_map, Function.comp_def, ReplyFrame.fd4Line]
  cases h with
  | @refused log reply hlog hreply =>
      refine .refused hreply ?_ rfl
      rw [List.filterMap_append, hout]
      rfl
  | @succeeded log log' narData hlog hlog' =>
      refine @Completed.succeeded _ _ _ narData rfl ?_
      rw [List.filterMap_append, List.filterMap_append, List.filterMap_append, hout, hout, filterMap_fd4Line_narFrames]
      rfl

variable [MetadataFormat] [SignatureLib] [Decompressors]

/-- What becomes of a command. -/
structure Handled (cfg : Config) (restores : Text → Bytes → Bool) (socketPath : Bool) (c : FirstCommand)
    (r : SubstituteReply) : Prop where
  /-- The daemon is asked for the same command. -/
  asked : c.Falls socketPath → r.asked = some (substituteP2pOnlyMode, c.line)
  /-- Everything else is passed on. -/
  passed : ¬ c.Falls socketPath → r = ⟨none, c.builtinLines, [], [], .ok ()⟩
  /-- A whole NAR that a narinfo names, or nothing. -/
  restored : r.restored = [] ∨
    ∃ narData, Named c.world.metadata c.before (Sha256.digest narData) ∧ r.restored = [(c.dest, narData)]
  /-- No success without the NAR. -/
  success : c.Falls socketPath → ∀ line ∈ r.replies, successStart <+: line → r.restored ≠ []
  /-- One terminal reply. -/
  terminal : c.Falls socketPath → r.result = .ok () →
    ∃ line, r.replies = [line] ∧ terminalSubstituteReply line = true
  completed : c.Falls socketPath → c.Arrives cfg → (∀ narData, restores c.dest narData = true) →
    r.result = .ok () ∧ Completed c.dest r

variable [GuileLib] [LawfulGuileLib]

namespace FirstCommand.WellFormed

variable {cfg : Config} {c : FirstCommand}

theorem substituteDestination_line (h : c.WellFormed cfg) : substituteDestination c.line = some c.dest := by
  rw [substituteDestination, FirstCommand.line, stringTokenize_unwords h.words]
  exact if_pos rfl

theorem word (h : c.WellFormed cfg) {word : Text} (hmem : word ∈ [substituteCommand, c.path, c.dest]) :
    ∀ ch ∈ word, Text.isWhitespace ch = false := fun ch hch =>
  LawfulGuileLib.isWhitespace_of_graphic ch ((h.words word hmem).2 ch hch)

theorem parses (h : c.WellFormed cfg) : parseCommandLine (Text.trim c.atDaemon.line) = .substitute c.path c.dest :=
  parseCommandLine_command (h.word (by simp)) (h.words c.dest (by simp)).1 (h.word (by simp))

theorem newline_not_mem_path (h : c.WellFormed cfg) : '\n' ∉ c.path := fun hmem =>
  absurd (h.word (by simp) '\n' hmem) (by decide)

theorem served (h : c.WellFormed cfg) (hreturns : (c.serve cfg).result = .ok ()) :
    c.atDaemon.Served (cfg.forConnection true) where
  parses := h.parses
  oneLine := by
    have hline : Text.trim c.atDaemon.line = c.line := trim_line (h.words c.dest (by simp)).1 (h.word (by simp))
    rw [hline]
    refine newline_not_mem_unwords fun word hword => fun hmem => ?_
    exact absurd (h.word hword '\n' hmem) (by decide)
  flushed := h.flushed
  stream := h.stream
  returns := by rw [← FirstCommand.serve_eq, hreturns]

/-- All of what the daemon sends is read. -/
theorem completed (h : c.WellFormed cfg) (hreturns : (c.serve cfg).result = .ok ()) {text : Text}
    (htext : Text.utf8 text = sentBytes (c.serve cfg)) {restores : Text → Bytes → Bool}
    (hrestores : ∀ narData, restores c.dest narData = true) (asked : Option (Text × Text)) :
    let r := handleRelayOutput restores [c.dest] (portLines text)
    r.result = .ok () ∧ Completed c.dest ⟨asked, r.replies, r.traces, r.restored, r.result.mapError .relayFailed⟩ := by
  obtain ⟨out, hsends, htranscript, hne⟩ := (h.served hreturns).sends h.framed
  rw [FirstCommand.serve_eq, hsends.bytes] at htext
  obtain ⟨body, last, hframes, hsealed⟩ := htranscript.sealed
  have hlines := portLines_of_sendFrames (fun f hf => hsealed.oneLine f (hframes ▸ hf)) htext
  have hread := handleRelayOutput_transcript htranscript hne (fun narData _ => hrestores narData) []
  rw [List.append_nil, ← hlines] at hread
  intro r
  have hr : r = _ := hread
  rw [hr]
  exact ⟨rfl, completed_transcript htranscript c.dest asked _ _⟩

end FirstCommand.WellFormed

omit [Sha256] [MetadataFormat] [SignatureLib] [Decompressors] [LawfulGuileLib] in
theorem handle_of_falls {restores : Text → Bytes → Bool} {socketPath : Bool} {c : FirstCommand}
    (h : c.Falls socketPath) :
    handleBuiltinFirstSubstituteLine restores c.builtin (if socketPath then some c.ask else none) c.line =
      relaySingleSubstituteThroughSocket restores c.ask c.line := by
  obtain ⟨rfl, hnotFound⟩ := h
  have hfound : notFoundReply (substituteTerminalLine (nonEmptyLines (c.builtin (c.line ++ ['\n'])))) = true :=
    hnotFound
  simp only [handleBuiltinFirstSubstituteLine, if_true, hfound]

omit [Sha256] [MetadataFormat] [SignatureLib] [Decompressors] [LawfulGuileLib] in
theorem handle_of_not_falls {restores : Text → Bytes → Bool} {socketPath : Bool} {c : FirstCommand}
    (h : ¬ c.Falls socketPath) :
    handleBuiltinFirstSubstituteLine restores c.builtin (if socketPath then some c.ask else none) c.line =
      ⟨none, c.builtinLines, [], [], .ok ()⟩ := by
  unfold handleBuiltinFirstSubstituteLine
  cases socketPath with
  | false => rfl
  | true =>
      have hnot : notFoundReply (substituteTerminalLine (nonEmptyLines (c.builtin (c.line ++ ['\n'])))) = false :=
        Bool.eq_false_iff.mpr fun hnotFound => h ⟨rfl, hnotFound⟩
      simp only [if_true, hnot]
      rfl

/-- **One command.** -/
theorem handled_turn {cfg : Config} {c : FirstCommand} (h : c.WellFormed cfg) (restores : Text → Bytes → Bool)
    (socketPath : Bool) :
    Handled cfg restores socketPath c (handleBuiltinFirstSubstituteLine restores c.builtin
      (if socketPath then some c.ask else none) c.line) := by
  by_cases hfalls : c.Falls socketPath
  · rw [handle_of_falls hfalls]
    unfold relaySingleSubstituteThroughSocket
    dsimp only
    cases hask : c.ask substituteP2pOnlyMode c.line with
    | none =>
        refine ⟨fun _ => rfl, fun hnot => absurd hfalls hnot, Or.inl rfl,
          fun _ line hline => absurd hline List.not_mem_nil, fun _ hok => (by cases hok), fun _ harrives _ => ?_⟩
        obtain ⟨text, -, hsome⟩ := harrives.socket
        rw [hask] at hsome
        cases hsome
    | some lines =>
        rw [h.substituteDestination_line]
        obtain ⟨cut, hcut, rfl⟩ := h.socket lines hask
        rw [FirstCommand.serve_eq] at hcut
        have hsafe := extension_cut_safe (cfg.forConnection true) c.atDaemon h.parses h.newline_not_mem_path h.flushed
          h.stream h.framed hcut restores
        refine ⟨fun _ => rfl, fun hnot => absurd hfalls hnot, hsafe.restored, fun _ => hsafe.success, fun _ hok => ?_,
          fun _ harrives hrestores => ?_⟩
        · refine hsafe.terminal ?_
          dsimp only at hok
          cases hresult : (handleRelayOutput restores [c.atDaemon.dest] (portLines cut)).result with
          | error failure =>
              rw [show c.dest = c.atDaemon.dest from rfl, hresult] at hok
              cases hok
          | ok u => rfl
        · obtain ⟨text, htext, hsome⟩ := harrives.socket
          rw [hask] at hsome
          have hcut : portLines cut = portLines text := Option.some.inj hsome
          obtain ⟨hok, hcompleted⟩ := h.completed harrives.returns htext hrestores
            (some (substituteP2pOnlyMode, c.line))
          rw [hcut]
          refine ⟨?_, hcompleted⟩
          dsimp only
          rw [hok]
          rfl
  · rw [handle_of_not_falls hfalls]
    exact ⟨fun hf => absurd hf hfalls, fun _ => rfl, Or.inl rfl, fun hf => absurd hf hfalls, fun hf => absurd hf hfalls,
      fun hf => absurd hf hfalls⟩

omit [Sha256] [MetadataFormat] [SignatureLib] [Decompressors] [LawfulGuileLib] in
theorem builtinFirstThroughSocket_cons (restores : Text → Bytes → Bool) (socketPath : Bool) (turn : SubstituteTurn)
    (turns : List SubstituteTurn) :
    let r := handleBuiltinFirstSubstituteLine restores turn.builtin (if socketPath then some turn.ask else none)
      turn.line
    (r.result = .ok () ∧ builtinFirstThroughSocket restores socketPath (turn :: turns) =
        r :: builtinFirstThroughSocket restores socketPath turns) ∨
      (r.result ≠ .ok () ∧ builtinFirstThroughSocket restores socketPath (turn :: turns) = [r]) := by
  intro r
  rw [builtinFirstThroughSocket]
  cases hresult : r.result with
  | ok u =>
      exact Or.inl ⟨rfl, rfl⟩
  | error failure =>
      exact Or.inr ⟨fun hok => (by cases hok), rfl⟩

/-- **Run lemma.** -/
theorem handled_session {cfg : Config} {commands : List FirstCommand} (hcommands : ∀ c ∈ commands, c.WellFormed cfg)
    (restores : Text → Bytes → Bool) (socketPath : Bool) {replies : List SubstituteReply}
    (hreplies : builtinFirstThroughSocket restores socketPath (commands.map FirstCommand.turn) = replies) :
    List.Forall₂ (Handled cfg restores socketPath) (commands.take replies.length) replies ∧
      (∀ r ∈ replies.dropLast, r.result = .ok ()) ∧
      ((∀ r ∈ replies, r.result = .ok ()) → replies.length = commands.length) := by
  induction commands generalizing replies with
  | nil =>
      obtain rfl : [] = replies := hreplies
      exact ⟨.nil, fun r hr => absurd hr List.not_mem_nil, fun _ => rfl⟩
  | cons c commands ih =>
      rw [List.forall_mem_cons] at hcommands
      obtain ⟨hall, hdone, hlength⟩ := ih hcommands.2 rfl
      have hturn := handled_turn hcommands.1 restores socketPath
      rcases builtinFirstThroughSocket_cons restores socketPath c.turn (commands.map FirstCommand.turn) with
        ⟨hok, hrun⟩ | ⟨hfailed, hrun⟩
      · rw [List.map_cons, hrun] at hreplies
        subst hreplies
        refine ⟨.cons hturn hall, fun r hr => ?_, fun hoks => ?_⟩
        · rcases mem_dropLast_cons hr with rfl | hmem
          · exact hok
          · exact hdone r hmem
        · rw [List.forall_mem_cons] at hoks
          rw [List.length_cons, List.length_cons, hlength hoks.2]
      · rw [List.map_cons, hrun] at hreplies
        subst hreplies
        exact ⟨.cons hturn .nil, fun r hr => absurd hr List.not_mem_nil,
          fun hoks => absurd (hoks _ (List.mem_singleton_self _)) hfailed⟩

/-- **A session in which Guix's own substituter goes first.** Of every session of well-formed commands,
with sockets that close anywhere: the commands are handled one after the other, each as `Handled` says,
up to the first that fails; and if all requests return and all their output arrives, none fails and
every command is handled. -/
theorem substitute_first_session (cfg : Config) (restores : Text → Bytes → Bool) (socketPath : Bool)
    (commands : List FirstCommand) (hcommands : ∀ c ∈ commands, c.WellFormed cfg) :
    let replies := builtinFirstThroughSocket restores socketPath (commands.map FirstCommand.turn)
    List.Forall₂ (Handled cfg restores socketPath) (commands.take replies.length) replies ∧
      (∀ r ∈ replies.dropLast, r.result = .ok ()) ∧
      ((∀ r ∈ replies, r.result = .ok ()) → replies.length = commands.length) ∧
      ((∀ c ∈ commands, c.Falls socketPath → c.Arrives cfg ∧ ∀ narData, restores c.dest narData = true) →
        ∀ r ∈ replies, r.result = .ok ()) := by
  intro replies
  obtain ⟨hall, hdone, hlength⟩ := handled_session hcommands restores socketPath rfl
  refine ⟨hall, hdone, hlength, fun hserved r hr => ?_⟩
  obtain ⟨c, hc, hhandled⟩ := exists_of_mem_right hall hr
  by_cases hfalls : c.Falls socketPath
  · obtain ⟨harrives, hrestores⟩ := hserved c (List.mem_of_mem_take hc) hfalls
    exact (hhandled.completed hfalls harrives hrestores).1
  · rw [hhandled.passed hfalls]

end

/-! ### One command for the built-in substituter, and one for a peer -/

def peerWorld : SubstituteWorld := { servingWorld silentMetadata with p2p := creditWorld [peerA] }

/-- What the daemon sends when `peerA` has the NAR. -/
def peerOutput : Text :=
  ("out:@ download-started /gnu/store/a-b p2p://a 4\nnar:YWJjZA==\nnar-end\n" ++
    "out:@ download-succeeded /gnu/store/a-b p2p://a 4\n" ++
    "fd4:success sha256:88d4266fd4e6338d13b845fcf289579d209c897823b9217da3e161936f031589 4\n").toList

/-- The built-in substituter prints `reply`. -/
def sampleFirst (reply : Text) : FirstCommand :=
  ⟨"/gnu/store/a-b".toList, "/d".toList, fun _ => reply ++ ['\n'], fun _ _ => some (portLines peerOutput), peerWorld,
    sampleShared⟩

theorem utf8_peerOutput (reply : Text) :
    Text.utf8 peerOutput = sentBytes (@FirstCommand.serve sampleSha256 noMetadataFormat forgedLib noDecompressors httpConfig
      (sampleFirst reply)) := by
  have hsent : Text.utf8 peerOutput = sentBytes (@FirstCommand.serve sampleSha256 noMetadataFormat forgedLib
      noDecompressors httpConfig (sampleFirst [])) := by
    decide +kernel
  exact hsent

theorem sampleFirst_wellFormed (reply : Text) :
    @FirstCommand.WellFormed sampleSha256 noMetadataFormat forgedLib noDecompressors sampleGuileLib httpConfig
      (sampleFirst reply) := by
  refine @FirstCommand.WellFormed.mk sampleSha256 noMetadataFormat forgedLib noDecompressors sampleGuileLib _ _
    ?_ rfl rfl ?_ fun lines hlines => ?_
  · have hgraphic : [substituteCommand, "/gnu/store/a-b".toList, "/d".toList].all
        (fun word => !word.isEmpty && word.all sampleGuileLib.graphic) = true := by
      decide +kernel
    intro word hword
    have hone := List.all_eq_true.mp hgraphic word hword
    rw [Bool.and_eq_true, Bool.not_eq_true', List.isEmpty_eq_false_iff, List.all_eq_true] at hone
    exact hone
  · refine @SubstituteCommand.Framed.mk sampleSha256 _ _
      ⟨sampleShared_oneLine.servers, sampleShared_oneLine.narinfos⟩ fun info hknown => ?_
    exact (@SubstituteCommand.Framed.nonempty sampleSha256 _ _ sampleCommand_framed) info hknown
  · exact ⟨peerOutput, utf8_peerOutput reply ▸ List.prefix_refl _, (Option.some.inj hlines).symm⟩

theorem sampleFirst_arrives (reply : Text) :
    @FirstCommand.Arrives sampleSha256 noMetadataFormat forgedLib noDecompressors httpConfig (sampleFirst reply) := by
  refine @FirstCommand.Arrives.mk sampleSha256 noMetadataFormat forgedLib noDecompressors _ _ ?_
    ⟨peerOutput, utf8_peerOutput reply, rfl⟩
  have hreturns : (@FirstCommand.serve sampleSha256 noMetadataFormat forgedLib noDecompressors httpConfig
      (sampleFirst [])).result = .ok () := by
    decide +kernel
  exact hreturns

/-- The second command is not found, so the daemon is asked for it; the session goes on to its end. -/
theorem substitute_first_session_sample :
    let replies := @builtinFirstThroughSocket sampleGuileLib (fun _ _ => true) true
      ([sampleFirst "success x 4".toList, sampleFirst notFoundLine].map FirstCommand.turn)
    replies.length = 2 ∧ ∀ r ∈ replies, r.result = .ok () := by
  obtain ⟨-, -, hlength, hok⟩ := @substitute_first_session sampleSha256 noMetadataFormat forgedLib noDecompressors
    sampleGuileLib lawful_sampleGuileLib httpConfig (fun _ _ => true) true
    [sampleFirst "success x 4".toList, sampleFirst notFoundLine]
    (by simp only [List.forall_mem_cons, sampleFirst_wellFormed, List.not_mem_nil, false_imp_iff, implies_true,
      and_self])
  have hoks := hok (by
    simp only [List.forall_mem_cons, sampleFirst_arrives, List.not_mem_nil, false_imp_iff, implies_true, and_self])
  exact ⟨hlength hoks, hoks⟩

end BuiltinFirst

end GuixP2p
