import GuixP2p.Relay.CutDaemon

/-!
# GuixP2p.Extension.Session

**A session of substitute requests stays in step.** The extension in
`guix/extensions/substitute.scm` keeps one connection for all requests. It sends a command and
reads what the daemon sends for it up to the terminal reply (`handle-relay-output`); whatever
it left unread would be taken for the output of the next command.

`replies_in_step` is about sessions of any length. It needs that no text breaks a line, and
that no narinfo names the digest of the empty string: an empty NAR is sent as `nar-end` alone,
and the extension takes that for an error.
-/

namespace GuixP2p

open GuixP2p.Lib

/-! ### Reading a reply -/

inductive ExtensionFailure
  | closedBeforeNarEnd (dest : Text)
  | closedBeforeTerminalReply
  | narWithoutDestination
  | narEndWithoutDestination
  | decodeFailed
  | restoreFailed (dest : Text)
  deriving DecidableEq

/-- What handling the output for some requests leaves: the lines for Guix, the lines for the
build log, the NARs that were restored, how it ended, and what is left on the port. -/
structure RelayOutput where
  replies : List Text
  traces : List Text
  restored : List (Text × Bytes)
  result : Except ExtensionFailure Unit
  rest : List Text

namespace RelayOutput

def failed (failure : ExtensionFailure) (rest : List Text) : RelayOutput := ⟨[], [], [], .error failure, rest⟩

def reply (line : Text) (r : RelayOutput) : RelayOutput := { r with replies := line :: r.replies }

def trace (line : Text) (r : RelayOutput) : RelayOutput := { r with traces := line :: r.traces }

def restore (dest : Text) (nar : Bytes) (r : RelayOutput) : RelayOutput :=
  { r with restored := (dest, nar) :: r.restored }

end RelayOutput

/-- `terminal-substitute-reply?`, the same in both readers. -/
def terminalSubstituteReply (line : Text) : Bool := isSubstituteTerminalReply line

/-- The NAR that is open, or a new one for the next destination. -/
def openNarDestination : Option (Text × Bytes) → List Text → Option ((Text × Bytes) × List Text)
  | some nar, destinations => some (nar, destinations)
  | none, [] => none
  | none, dest :: destinations => some ((dest, []), destinations)

/-- The loop of `handle-relay-output`. A NAR that is open comes with its destination and what
its temporary file holds; `restores` says whether `restore-file` succeeds. -/
def handleRelayLines (restores : Text → Bytes → Bool) (expected : Nat) :
    List Text → List Text → Option (Text × Bytes) → Nat → RelayOutput
  | [], _, some (dest, _), _ => .failed (.closedBeforeNarEnd dest) []
  | [], _, none, terminalReplies =>
    if terminalReplies < expected then .failed .closedBeforeTerminalReply [] else ⟨[], [], [], .ok (), []⟩
  | line :: lines, destinations, nar, terminalReplies =>
    if line = fd4EmptyLine then
      (handleRelayLines restores expected lines destinations nar terminalReplies).reply []
    else
      match line.dropPrefix? fd4Prefix with
      | some data =>
        let terminalReplies := if terminalSubstituteReply data then terminalReplies + 1 else terminalReplies
        if 0 < expected ∧ expected ≤ terminalReplies ∧ nar = none then ⟨[data], [], [], .ok (), lines⟩
        else (handleRelayLines restores expected lines destinations nar terminalReplies).reply data
      | none =>
        match line.dropPrefix? outPrefix with
        | some data => (handleRelayLines restores expected lines destinations nar terminalReplies).trace data
        | none =>
          match line.dropPrefix? narPrefix with
          | some data =>
            match openNarDestination nar destinations with
            | none => .failed .narWithoutDestination lines
            | some ((dest, bytes), destinations) =>
              match Base64.decode data with
              | none => .failed .decodeFailed lines
              | some chunk =>
                handleRelayLines restores expected lines destinations (some (dest, bytes ++ chunk))
                  terminalReplies
          | none =>
            if line = narEndLine then
              match nar with
              | none => .failed .narEndWithoutDestination lines
              | some (dest, bytes) =>
                if restores dest bytes then
                  (handleRelayLines restores expected lines destinations none terminalReplies).restore dest bytes
                else .failed (.restoreFailed dest) lines
            else
              -- an old daemon's line
              (handleRelayLines restores expected lines destinations nar
                (if terminalSubstituteReply line then terminalReplies + 1 else terminalReplies)).reply line

def handleRelayOutput (restores : Text → Bytes → Bool) (destinations : List Text) (lines : List Text) :
    RelayOutput :=
  handleRelayLines restores destinations.length lines destinations none 0

/-- The loop of `relay-substitute-through-socket`: one request after the other. -/
def handleSession (restores : Text → Bytes → Bool) : List Text → List Text → List RelayOutput
  | [], _ => []
  | dest :: destinations, lines =>
    let r := handleRelayOutput restores [dest] lines
    r :: handleSession restores destinations r.rest

/-! ### One line -/

section

variable {restores : Text → Bytes → Bool} {expected n : Nat} {lines dests : List Text}
  {nar : Option (Text × Bytes)}

theorem handleRelayLines_out (data : Text) :
    handleRelayLines restores expected ((outPrefix ++ data) :: lines) dests nar n =
      (handleRelayLines restores expected lines dests nar n).trace data := by
  have hne : outPrefix ++ data ≠ fd4EmptyLine := by
    rw [outPrefix_eq, fd4EmptyLine_eq]
    simp
  rw [handleRelayLines.eq_def]
  simp only [if_neg hne]
  rw [Text.dropPrefix?_eq_none (by simp [fd4Prefix_eq, outPrefix_eq]), Text.dropPrefix?_append_self]

theorem handleRelayLines_fd4 (data : Text) :
    handleRelayLines restores expected ((fd4Prefix ++ data) :: lines) dests nar n =
      let m := if terminalSubstituteReply data then n + 1 else n
      if 0 < expected ∧ expected ≤ m ∧ nar = none then ⟨[data], [], [], .ok (), lines⟩
      else (handleRelayLines restores expected lines dests nar m).reply data := by
  have hne : fd4Prefix ++ data ≠ fd4EmptyLine := by
    have h := fd4EmptyLine_ne_fd4 data []
    rwa [List.append_nil] at h
  rw [handleRelayLines.eq_def]
  simp only [if_neg hne]
  rw [Text.dropPrefix?_append_self]

theorem handleRelayLines_nar {dest : Text} {bytes chunk : Bytes} {dests' : List Text}
    (hopen : openNarDestination nar dests = some ((dest, bytes), dests')) :
    handleRelayLines restores expected ((ReplyFrame.nar chunk).text :: lines) dests nar n =
      handleRelayLines restores expected lines dests' (some (dest, bytes ++ chunk)) n := by
  have hne : (ReplyFrame.nar chunk).text ≠ fd4EmptyLine := by
    rw [ReplyFrame.text, narPrefix_eq, fd4EmptyLine_eq]
    simp
  rw [handleRelayLines.eq_def]
  simp only [if_neg hne]
  rw [ReplyFrame.text, Text.dropPrefix?_eq_none (by simp [fd4Prefix_eq, narPrefix_eq]),
    Text.dropPrefix?_eq_none (by simp [outPrefix_eq, narPrefix_eq]), Text.dropPrefix?_append_self]
  simp only [hopen, Base64.decode_encode]

theorem handleRelayLines_narEnd {dest : Text} {bytes : Bytes} (hrestores : restores dest bytes = true) :
    handleRelayLines restores expected (narEndLine :: lines) dests (some (dest, bytes)) n =
      (handleRelayLines restores expected lines dests none n).restore dest bytes := by
  rw [handleRelayLines.eq_def]
  have hne : narEndLine ≠ fd4EmptyLine := by decide
  simp only [if_neg hne]
  rw [Text.dropPrefix?_eq_none (by decide), Text.dropPrefix?_eq_none (by decide),
    Text.dropPrefix?_eq_none (by decide)]
  simp only [if_true, hrestores]

/-! ### The frames of a request -/

/-- Lines of the build log. -/
theorem handleRelayLines_log (log : List Text) :
    handleRelayLines restores expected ((log.map ReplyFrame.out).map ReplyFrame.text ++ lines) dests nar n =
      log.foldr RelayOutput.trace (handleRelayLines restores expected lines dests nar n) := by
  induction log with
  | nil => rfl
  | cons line log ih =>
      rw [List.foldr_cons, ← ih]
      exact handleRelayLines_out line

/-- Chunks of a NAR that is open. -/
theorem handleRelayLines_chunks {dest : Text} {bytes : Bytes} (chunks : List Bytes) :
    handleRelayLines restores expected ((chunks.map ReplyFrame.nar).map ReplyFrame.text ++ lines) dests
        (some (dest, bytes)) n =
      handleRelayLines restores expected lines dests (some (dest, bytes ++ chunks.flatten)) n := by
  induction chunks generalizing bytes with
  | nil => simp
  | cons chunk chunks ih =>
      rw [List.flatten_cons, ← List.append_assoc, ← ih]
      exact handleRelayLines_nar rfl

/-- A NAR that is not empty is restored at the next destination. -/
theorem handleRelayLines_narFrames {dest : Text} {narData : Bytes} (hne : narData ≠ [])
    (hrestores : restores dest narData = true) :
    handleRelayLines restores expected ((narFrames narData).map ReplyFrame.text ++ lines) (dest :: dests)
        none n =
      (handleRelayLines restores expected lines dests none n).restore dest narData := by
  have hall : (narChunks narData).flatten = narData := flatten_chunks (by decide) narData
  cases hchunks : narChunks narData with
  | nil =>
      rw [hchunks] at hall
      exact absurd hall.symm hne
  | cons chunk chunks =>
      rw [hchunks] at hall
      have hframes : (narFrames narData).map ReplyFrame.text ++ lines =
          (ReplyFrame.nar chunk).text ::
            ((chunks.map ReplyFrame.nar).map ReplyFrame.text ++ narEndLine :: lines) := by
        rw [narFrames, hchunks]
        simp [ReplyFrame.text]
      have hopen : openNarDestination none (dest :: dests) = some ((dest, []), dests) := rfl
      rw [hframes, handleRelayLines_nar hopen, handleRelayLines_chunks, List.nil_append,
        ← List.flatten_cons, hall, handleRelayLines_narEnd hrestores]

/-- The terminal reply ends it. -/
theorem handleRelayLines_terminal {reply : Text} (h : terminalSubstituteReply reply = true) :
    handleRelayLines restores 1 ((ReplyFrame.fd4 reply).text :: lines) dests none 0 =
      ⟨[reply], [], [], .ok (), lines⟩ := by
  rw [ReplyFrame.text, handleRelayLines_fd4]
  simp [h]

theorem foldr_trace (log : List Text) (r : RelayOutput) :
    log.foldr RelayOutput.trace r = { r with traces := log ++ r.traces } := by
  induction log with
  | nil => rfl
  | cons line log ih => rw [List.foldr_cons, ih]; rfl

end

/-! ### Terminal replies -/

theorem isWhitespace_of_hex {c : Char} {bytes : Bytes} (h : c ∈ Hex.encode bytes) :
    Text.isWhitespace c = false := by
  by_contra hwhite
  have hdigit : Hex.digitValue c = none := by
    rw [Bool.not_eq_false] at hwhite
    simp only [Text.isWhitespace, Bool.or_eq_true, decide_eq_true_eq] at hwhite
    simp only [Hex.digitValue]
    rw [if_neg (by omega), if_neg (by omega), if_neg (by omega)]
  exact Hex.not_mem_encode hdigit h

theorem isWhitespace_of_ofNat {c : Char} {k : Nat} (h : c ∈ Text.ofNat k) : Text.isWhitespace c = false := by
  have hdigit := Nat.isDigit_of_mem_toDigits (by decide) (by decide) h
  by_contra hwhite
  rw [Bool.not_eq_false] at hwhite
  simp only [Text.isWhitespace, Bool.or_eq_true, decide_eq_true_eq] at hwhite
  simp only [Char.isDigit, Bool.and_eq_true, decide_eq_true_eq, UInt32.le_iff_toNat_le] at hdigit
  have hval : c.toNat = c.val.toNat := rfl
  have h48 : ('0' : Char).val.toNat = 48 := rfl
  have h57 : ('9' : Char).val.toNat = 57 := rfl
  omega

/-- A reply whose last word has no white space in it. -/
theorem terminal_of_words {start middle word : Text}
    (hstart : start ++ [' '] = successStart ∨ start ++ [' '] = hashMismatchStart) (hne : word ≠ [])
    (hword : ∀ c ∈ word, Text.isWhitespace c = false) :
    isSubstituteTerminalReply (start ++ ' ' :: (middle ++ word)) = true := by
  have hassoc : start ++ ' ' :: (middle ++ word) = (start ++ [' ']) ++ (middle ++ word) := by simp
  have htrim : Text.trim (start ++ ' ' :: (middle ++ word)) = start ++ ' ' :: (middle ++ word) := by
    refine Text.trim_eq_self (fun c hc => ?_) fun c hc => ?_
    · rw [hassoc] at hc
      rcases hstart with heq | heq
      · rw [heq] at hc
        have hhead : some 's' = some c := hc
        cases hhead
        decide +kernel
      · rw [heq] at hc
        have hhead : some 'h' = some c := hc
        cases hhead
        decide +kernel
    · rw [hassoc, ← List.append_assoc, List.getLast?_append, List.getLast?_eq_some_getLast hne,
        Option.some_or] at hc
      rw [← Option.some.inj hc]
      exact hword _ (List.getLast_mem hne)
  have hprefix : (start ++ [' ']).isPrefixOf (start ++ ' ' :: (middle ++ word)) = true := by
    rw [hassoc]
    exact List.isPrefixOf_iff_prefix.mpr (List.prefix_append _ _)
  unfold isSubstituteTerminalReply
  rw [htrim]
  rcases hstart with heq | heq
  · rw [heq] at hprefix
    simp [ hprefix]
  · rw [heq] at hprefix
    simp [ hprefix]

theorem unwords_three (a b c : Text) : unwords [a, b, c] = a ++ ' ' :: ((b ++ [' ']) ++ c) := by
  simp [unwords]

theorem unwords_four (a b c d : Text) :
    unwords [a, b, c, d] = a ++ ' ' :: ((b ++ ' ' :: (c ++ [' '])) ++ d) := by
  simp [unwords]

theorem Refusal.terminal {reply : Text} (h : Refusal reply) : isSubstituteTerminalReply reply = true := by
  rcases h with rfl | ⟨expected, actual, rfl⟩
  · decide
  · have hstart : ∀ c ∈ "sha256:".toList, Text.isWhitespace c = false := by simp [Text.isWhitespace]
    rw [hashMismatchLine, unwords_four]
    refine terminal_of_words (Or.inr (by decide)) (fun hnil => ?_) fun c hc => ?_
    · have hhead : some 's' = none := congrArg List.head? hnil
      cases hhead
    · rcases List.mem_append.mp hc with hc | hc
      · exact hstart c hc
      · exact isWhitespace_of_hex hc

theorem terminal_successLine (bytes : Bytes) (size : Nat) :
    isSubstituteTerminalReply (successLine (Hex.encode bytes) size) = true := by
  rw [successLine, unwords_three]
  exact terminal_of_words (Or.inl (by decide)) Nat.toDigits_ne_nil fun c hc => isWhitespace_of_ofNat hc

/-! ### Sessions -/

/-- A `substitute` command of a session, with what it meets: the world, and the shared state at
the time it is served. -/
structure SubstituteCommand where
  line : Text
  path : Text
  dest : Text
  world : SubstituteWorld
  before : Shared

/-- The lines of some outputs, one after the other. -/
def outputLines (outputs : List (Option Bytes × List ReplyFrame)) : List Text :=
  outputs.flatMap fun out => out.2.map ReplyFrame.text

section

variable [Sha256]

/-- **A transcript is read up to its end**, whatever comes after it. -/
theorem handleRelayOutput_transcript {restores : Text → Bytes → Bool} {nar : Option Bytes}
    {frames : List ReplyFrame} (h : Transcript nar frames) (hne : nar ≠ some []) {dest : Text}
    (hrestores : ∀ narData, nar = some narData → restores dest narData = true) (later : List Text) :
    handleRelayOutput restores [dest] (frames.map ReplyFrame.text ++ later) =
      ⟨frames.filterMap ReplyFrame.fd4Line, frames.filterMap ReplyFrame.outLine,
        nar.toList.map fun narData => (dest, narData), .ok (), later⟩ := by
  have hfd4 : ∀ log : List Text, (log.map ReplyFrame.out).filterMap ReplyFrame.fd4Line = [] := by
    intro log
    simp [List.filterMap_map, Function.comp_def, ReplyFrame.fd4Line]
  have hout : ∀ log : List Text, (log.map ReplyFrame.out).filterMap ReplyFrame.outLine = log := by
    intro log
    simp [List.filterMap_map, Function.comp_def, ReplyFrame.outLine]
  have hreplyFd4 : ∀ reply, [ReplyFrame.fd4 reply].filterMap ReplyFrame.fd4Line = [reply] := fun _ => rfl
  have hreplyOut : ∀ reply, [ReplyFrame.fd4 reply].filterMap ReplyFrame.outLine = [] := fun _ => rfl
  unfold handleRelayOutput
  cases h with
  | @refused log reply hlog hreply =>
      rw [List.map_append, List.append_assoc, handleRelayLines_log]
      have hend := @handleRelayLines_terminal restores later [dest] reply hreply.terminal
      simp only [List.length_singleton, List.map_cons, List.map_nil, List.cons_append, List.nil_append, hend,
        foldr_trace, List.filterMap_append, hfd4, hout, hreplyFd4, hreplyOut]
      rfl
  | @succeeded log log' narData hlog hlog' =>
      have hnonempty : narData ≠ [] := fun heq => hne (by rw [heq])
      rw [List.map_append, List.map_append, List.map_append, List.append_assoc, List.append_assoc,
        List.append_assoc, handleRelayLines_log, handleRelayLines_narFrames hnonempty (hrestores narData rfl),
        handleRelayLines_log]
      have hend := @handleRelayLines_terminal restores later [] _
        (terminal_successLine (Sha256.digest narData).toList narData.length)
      simp only [List.length_singleton, List.map_cons, List.map_nil, List.cons_append, List.nil_append, hend,
        foldr_trace, List.filterMap_append, hfd4, hout, filterMap_fd4Line_narFrames,
        filterMap_outLine_narFrames, hreplyFd4, hreplyOut, RelayOutput.restore, List.append_nil]
      rfl

/-- **Run lemma.** The outputs of a session are read one by one. -/
theorem handleSession_outputs {restores : Text → Bytes → Bool} (hrestores : ∀ dest nar, restores dest nar = true)
    {dests : List Text} {outputs : List (Option Bytes × List ReplyFrame)}
    (hlen : dests.length = outputs.length)
    (houtputs : ∀ out ∈ outputs, Transcript out.1 out.2 ∧ out.1 ≠ some []) :
    handleSession restores dests (outputLines outputs) =
      (dests.zip outputs).mapIdx fun k entry => ⟨entry.2.2.filterMap ReplyFrame.fd4Line,
        entry.2.2.filterMap ReplyFrame.outLine, entry.2.1.toList.map fun narData => (entry.1, narData), .ok (),
        outputLines (outputs.drop (k + 1))⟩ := by
  induction dests generalizing outputs with
  | nil => rfl
  | cons dest dests ih =>
      cases outputs with
      | nil => cases hlen
      | cons out outputs =>
          rw [List.forall_mem_cons] at houtputs
          have hfirst := handleRelayOutput_transcript houtputs.1.1 houtputs.1.2
            (fun narData _ => hrestores dest narData) (outputLines outputs)
          rw [handleSession, List.zip_cons_cons, List.mapIdx_cons]
          have hlines : outputLines (out :: outputs) = out.2.map ReplyFrame.text ++ outputLines outputs := rfl
          simp only [hlines, hfirst, List.drop_succ_cons, List.drop_zero]
          exact congrArg _ (ih (Nat.succ.inj hlen) houtputs.2)

variable [MetadataFormat] [SignatureLib] [Decompressors]

namespace SubstituteCommand

def serve (cfg : Config) (c : SubstituteCommand) : Outcome Shared Effect Panic Unit :=
  serveSubstitute cfg c.world c.line c.before

/-- The command is served: it is read as a line, the request returns, and the socket takes what
is written. -/
structure Served (cfg : Config) (c : SubstituteCommand) : Prop where
  parses : parseCommandLine (Text.trim c.line) = .substitute c.path c.dest
  oneLine : '\n' ∉ Text.trim c.line
  flushed : c.world.delivery.flushed = true
  stream : c.world.delivery.stream = .done
  returns : (c.serve cfg).result = .ok ()

omit [MetadataFormat] [SignatureLib] [Decompressors] in
/-- No text breaks a line, and no narinfo that the lookup can yield names the empty NAR. -/
structure Framed (cfg : Config) (c : SubstituteCommand) : Prop where
  texts : OneLineTexts cfg c.before
  nonempty : ∀ info, Known c.world.metadata c.before info →
    sha256Bytes info.narHash ≠ .ok (some (Sha256.digest []))

/-- What is sent for a command. -/
structure Sends (cfg : Config) (c : SubstituteCommand) (out : Option Bytes × List ReplyFrame) : Prop where
  bytes : sentBytes (c.serve cfg) = sendFrames out.2
  /-- The last frame is a terminal reply, the only one; a success comes after the whole NAR. -/
  terminal : ∃ body reply, out.2 = body ++ [.fd4 reply] ∧ isSubstituteTerminalReply reply = true ∧
    (∀ f ∈ body, f.fd4Line = none) ∧
    (successStart <+: reply → ∃ (log : List Text) (nar : Bytes) (log' : List Text), out.1 = some nar ∧
      body = log.map .out ++ narFrames nar ++ log'.map .out)

/-- The path of a command that is one line has no newline. -/
theorem Served.newline_not_mem_path {cfg : Config} {c : SubstituteCommand} (h : c.Served cfg) :
    '\n' ∉ c.path := by
  have hparse := h.parses
  unfold parseCommandLine at hparse
  split at hparse
  · cases hparse
  · split at hparse
    · cases hparse
    · split at hparse
      next rest hrest =>
        obtain ⟨hpath, -⟩ := DaemonCommand.substitute.inj hparse
        obtain ⟨start, hstart, -⟩ := List.dropPrefix?_eq_some_iff.mp hrest
        intro hmem
        rw [← hpath] at hmem
        refine h.oneLine ?_
        rw [hstart]
        exact List.mem_append_right _ (mem_of_mem_substituteArguments hmem)
      · cases hparse

/-- **One command.** -/
theorem Served.sends {cfg : Config} {c : SubstituteCommand} (h : c.Served cfg) (hframed : c.Framed cfg) :
    ∃ out, c.Sends cfg out ∧ Transcript out.1 out.2 ∧ out.1 ≠ some [] := by
  have hserve : c.serve cfg = trySwarmSubstitute cfg (.socket true) c.world c.path c.dest c.before := by
    unfold serve serveSubstitute
    rw [h.parses]
  obtain ⟨nar, frames, htranscript, hnamed, -, hall⟩ :=
    sentBytes_transcript h.flushed h.stream hframed.texts h.newline_not_mem_path c.dest
  rw [← hserve] at hall
  refine ⟨(nar, frames), ⟨hall h.returns, ?_⟩, htranscript, fun hempty => ?_⟩
  · cases htranscript with
    | @refused log reply hlog hreply =>
        exact ⟨log.map .out, reply, rfl, hreply.terminal, fun f hf => (oneLine_log hlog f hf).2.2,
          fun hstart => absurd hstart hreply.not_success⟩
    | @succeeded log log' narData hlog hlog' =>
        refine ⟨log.map .out ++ narFrames narData ++ log'.map .out, _, rfl, terminal_successLine _ _,
          fun f hf => ?_, fun _ => ⟨log, narData, log', rfl, rfl⟩⟩
        rcases List.mem_append.mp hf with hf | hf
        · rcases List.mem_append.mp hf with hf | hf
          · exact (oneLine_log hlog f hf).2.2
          · exact (oneLine_narFrames f hf).2
        · exact (oneLine_log hlog' f hf).2.2
  · obtain ⟨info, hknown, hdigest⟩ := hnamed [] hempty
    exact hframed.nonempty info hknown hdigest

end SubstituteCommand

omit [MetadataFormat] [SignatureLib] [Decompressors] in
/-- The bytes of some outputs are text, and its lines are theirs. -/
theorem portLines_outputs {outputs : List (Option Bytes × List ReplyFrame)}
    (houtputs : ∀ out ∈ outputs, Transcript out.1 out.2) :
    ∃ text, Text.fromUtf8 (outputs.flatMap fun out => sendFrames out.2) = some text ∧
      portLines text = outputLines outputs := by
  have hone : ∀ f ∈ outputs.flatMap fun out => out.2, f.OneLine := by
    intro f hf
    obtain ⟨out, hout, hf⟩ := List.mem_flatMap.mp hf
    obtain ⟨body, reply, hframes, hsealed⟩ := (houtputs out hout).sealed
    rw [hframes] at hf
    exact hsealed.oneLine f hf
  have hbytes : (outputs.flatMap fun out => sendFrames out.2) = sendFrames (outputs.flatMap fun out => out.2) := by
    clear hone houtputs
    induction outputs with
    | nil => rfl
    | cons out outputs ih => rw [List.flatMap_cons, List.flatMap_cons, sendFrames_append, ih]
  refine ⟨joinLines '\n' ((outputs.flatMap fun out => out.2).map ReplyFrame.text), ?_, ?_⟩
  · rw [hbytes, sendFrames, ← utf8_joinLines, Text.fromUtf8_utf8]
  · rw [portLines_of_sendFrames hone (utf8_joinLines _), List.map_flatMap]
    rfl

/-- **Exactly one terminal reply, in step.** For every session of substitute commands whose
requests return and whose texts break no line: the output for each command ends with its only
terminal reply, and the extension's handling of the `k`-th output reads exactly that output. -/
theorem replies_in_step (cfg : Config) (commands : List SubstituteCommand)
    (hserved : ∀ c ∈ commands, c.Served cfg) (hframed : ∀ c ∈ commands, c.Framed cfg)
    (restores : Text → Bytes → Bool) (hrestores : ∀ dest nar, restores dest nar = true) :
    ∃ outputs : List (Option Bytes × List ReplyFrame),
      List.Forall₂ (fun c out => c.Sends cfg out) commands outputs ∧
      ∃ text, Text.fromUtf8 (commands.flatMap fun c => sentBytes (c.serve cfg)) = some text ∧
        portLines text = outputLines outputs ∧
        handleSession restores (commands.map (·.dest)) (portLines text) =
          ((commands.map (·.dest)).zip outputs).mapIdx fun k entry =>
            ⟨entry.2.2.filterMap ReplyFrame.fd4Line, entry.2.2.filterMap ReplyFrame.outLine,
              entry.2.1.toList.map fun narData => (entry.1, narData), .ok (),
              outputLines (outputs.drop (k + 1))⟩ := by
  have houtputs : ∃ outputs : List (Option Bytes × List ReplyFrame),
      List.Forall₂ (fun c out => c.Sends cfg out) commands outputs ∧
      (∀ out ∈ outputs, Transcript out.1 out.2 ∧ out.1 ≠ some []) := by
    induction commands with
    | nil => exact ⟨[], .nil, by simp⟩
    | cons c commands ih =>
        rw [List.forall_mem_cons] at hserved hframed
        obtain ⟨out, hsends, htranscript⟩ := hserved.1.sends hframed.1
        obtain ⟨outputs, hall, htranscripts⟩ := ih hserved.2 hframed.2
        exact ⟨out :: outputs, .cons hsends hall, List.forall_mem_cons.mpr ⟨htranscript, htranscripts⟩⟩
  obtain ⟨outputs, hsends, htranscripts⟩ := houtputs
  have hbytes : (commands.flatMap fun c => sentBytes (c.serve cfg)) =
      outputs.flatMap fun out => sendFrames out.2 := by
    clear htranscripts hserved hframed
    induction hsends with
    | nil => rfl
    | cons hsend hsends ih => rw [List.flatMap_cons, List.flatMap_cons, hsend.bytes, ih]
  obtain ⟨text, htext, hlines⟩ := portLines_outputs fun out hout => (htranscripts out hout).1
  refine ⟨outputs, hsends, text, by rw [hbytes, htext], hlines, ?_⟩
  rw [hlines]
  exact handleSession_outputs hrestores (by rw [List.length_map]; exact hsends.length_eq) htranscripts

end

/-! ### Two commands, and a command that breaks a line -/

def sampleCommand : SubstituteCommand :=
  ⟨sampleRelayRequest, "/gnu/store/a-b".toList, "/d".toList, servingWorld silentMetadata, sampleShared⟩

theorem sampleCommand_served :
    @SubstituteCommand.Served sampleSha256 noMetadataFormat forgedLib noDecompressors httpConfig sampleCommand := by
  refine @SubstituteCommand.Served.mk sampleSha256 noMetadataFormat forgedLib noDecompressors _ _
    ?_ ?_ rfl rfl ?_
  · decide +kernel
  · decide +kernel
  · decide +kernel

theorem sampleCommand_framed : @SubstituteCommand.Framed sampleSha256 httpConfig sampleCommand := by
  refine @SubstituteCommand.Framed.mk sampleSha256 _ _ sampleShared_oneLine fun info hknown => ?_
  cases hknown with
  | cached hlookup =>
      rw [sampleCommand, sampleShared, NarinfoCache.lookup_put] at hlookup
      split at hlookup
      · cases hlookup
        decide +kernel
      · cases hlookup
  | served hanswer => cases hanswer

/-- Two commands in a row: each is answered by one output, and the last one leaves nothing. -/
theorem replies_in_step_sample :
    ∃ (outputs : List (Option Bytes × List ReplyFrame)) (text : Text), outputs.length = 2 ∧
      portLines text = outputLines outputs ∧
      (handleSession (fun _ _ => true) ([sampleCommand, sampleCommand].map (·.dest)) (portLines text)).map
        RelayOutput.rest = [outputLines (outputs.drop 1), []] := by
  have hsame : ∀ c ∈ [sampleCommand, sampleCommand], c = sampleCommand := by
    intro c hc
    exact List.eq_of_mem_replicate (n := 2) hc
  obtain ⟨outputs, hsends, text, -, hlines, hsession⟩ :=
    @replies_in_step sampleSha256 noMetadataFormat forgedLib noDecompressors httpConfig
      [sampleCommand, sampleCommand] (fun c hc => (hsame c hc).symm ▸ sampleCommand_served)
      (fun c hc => (hsame c hc).symm ▸ sampleCommand_framed) (fun _ _ => true) (fun _ _ => rfl)
  cases hsends with
  | cons _ htail =>
      cases htail with
      | cons _ hnil =>
          cases hnil
          refine ⟨_, text, rfl, hlines, ?_⟩
          rw [hsession]
          simp only [List.map_cons, List.map_nil, List.zip_cons_cons, List.zip_nil_right, List.mapIdx_cons,
            List.mapIdx_nil, List.drop_succ_cons, List.drop_nil, List.drop_zero]
          rfl

/-- **A line too many.** What is left on the port is taken for the output of the next command. -/
theorem broken_line_desynchronises :
    ∃ text, Text.fromUtf8 (sentBytes (@serveSubstitute sampleSha256 noMetadataFormat noDecompressors forgedLib
        localConfig (servingWorld silentMetadata) sampleRelayRequest brokenShared)) = some text ∧
      (handleRelayOutput (fun _ _ => true) ["/d".toList] (portLines text)).rest =
        ["fd4:not-found".toList] := by
  refine ⟨joinLines '\n' (brokenFrames.map ReplyFrame.text), ?_, ?_⟩
  · rw [sentBytes_brokenShared, sendFrames, ← utf8_joinLines, Text.fromUtf8_utf8]
  · decide +kernel

end GuixP2p
