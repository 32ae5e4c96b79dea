import GuixP2p.Daemon.LogLines
import GuixP2p.Daemon.SocketWriter
import GuixP2p.Daemon.SubstituteSafety

/-!
# GuixP2p.Daemon.Stream

**What a relay gets to read for a substitute request.** The effects of a request are turned
into the bytes on its socket (`sentBytes`). If no text breaks a line, these are the frames of
a `Transcript`: log lines and one terminal reply, which is the last frame, with the frames of
the NAR between the log lines if it says `success`. A request that panics has sent a
beginning of such a stream.
-/

namespace GuixP2p

open GuixP2p.Lib

/-! ### From effects to bytes -/

/-- What an effect does to the writer of a request. -/
def SocketWriter.perform (w : SocketWriter) : Effect → SocketWriter
  | .line text => w.writeLine text
  | .replyEnd => w.writeEnd
  | .trace text => w.writeTrace text
  | .flush => w.flushSocket
  | .nar chunk => { w with sent := w.sent ++ narLineBytes chunk }
  | .narEnd => { w with sent := w.sent ++ narEndBytes }
  -- the rest does not concern the socket
  | .write _ => w
  | .removeDestination _ => w
  | .startProviding _ => w
  | .narinfo _ _ => w

/-- The bytes on the socket when a request is over. The connection's task flushes the writer
at the end; a panic takes the task down before that. -/
def sentBytes (o : Outcome Shared Effect Panic Unit) : Bytes :=
  let w := o.trace.foldl SocketWriter.perform .new
  match o.result with
  | .ok _ => w.flushSocket.sent
  | .error _ => w.sent

/-- A line for the build log, or nothing that concerns the socket. -/
def Effect.Logs : Effect → Prop
  | .trace text => '\n' ∉ text
  | .write _ => True
  | .removeDestination _ => True
  | .startProviding _ => True
  | .narinfo _ _ => True
  | _ => False

section

variable {w : SocketWriter}

/-- Lines for the build log are buffered. -/
theorem foldl_perform_logs {τ : List Effect} (hτ : ∀ e ∈ τ, e.Logs) :
    ∃ lines : List Text, (∀ line ∈ lines, '\n' ∉ line) ∧
      τ.foldl SocketWriter.perform w = { w with buf := w.buf ++ sendFrames (lines.map .out) } := by
  induction τ generalizing w with
  | nil => exact ⟨[], by simp, by simp⟩
  | cons e τ ih =>
      rw [List.forall_mem_cons] at hτ
      cases e with
      | trace text =>
          obtain ⟨lines, hlines, hrun⟩ := @ih (w.writeTrace text) hτ.2
          refine ⟨text :: lines, List.forall_mem_cons.mpr ⟨hτ.1, hlines⟩, ?_⟩
          rw [List.foldl_cons, SocketWriter.perform, hrun, SocketWriter.writeTrace,
            writeBufferedLine_eq (f := .out text) rfl]
          simp only [List.map_cons, List.append_assoc]
          rw [← sendFrames_append]
          rfl
      | write w' => exact ih hτ.2
      | removeDestination path => exact ih hτ.2
      | startProviding hash => exact ih hτ.2
      | narinfo h info => exact ih hτ.2
      | line text => exact absurd hτ.1 id
      | replyEnd => exact absurd hτ.1 id
      | flush => exact absurd hτ.1 id
      | nar chunk => exact absurd hτ.1 id
      | narEnd => exact absurd hτ.1 id

/-- The lines of a NAR go past the buffer. -/
theorem foldl_perform_narLines (nar : Bytes) :
    (narLines nar .done).foldl SocketWriter.perform w = w.writeNarDataToSocket nar := by
  have hchunks : ∀ (chunks : List Bytes) (w : SocketWriter),
      (chunks.map Effect.nar).foldl SocketWriter.perform w =
        { w with sent := w.sent ++ chunks.flatMap narLineBytes } := by
    intro chunks
    induction chunks with
    | nil => simp
    | cons chunk chunks ih =>
        intro w
        rw [List.map_cons, List.foldl_cons, ih, SocketWriter.perform]
        simp
  rw [narLines, List.foldl_append, hchunks]
  simp [SocketWriter.perform, SocketWriter.writeNarDataToSocket, narDataBytes]

end

/-! ### Transcripts -/

/-- A terminal reply without a NAR. -/
def Refusal (reply : Text) : Prop :=
  reply = notFoundLine ∨ ∃ expected actual : Digest,
    reply = hashMismatchLine (Hex.encode expected.toList) (Hex.encode actual.toList)

section

variable [Sha256]

/-- The frames of a request, with the NAR among them. -/
inductive Transcript : Option Bytes → List ReplyFrame → Prop
  | refused {log : List Text} {reply : Text} (hlog : ∀ line ∈ log, '\n' ∉ line)
      (hreply : Refusal reply) :
      Transcript none (log.map .out ++ [.fd4 reply])
  | succeeded {log log' : List Text} {nar : Bytes} (hlog : ∀ line ∈ log, '\n' ∉ line)
      (hlog' : ∀ line ∈ log', '\n' ∉ line) :
      Transcript (some nar) (log.map .out ++ narFrames nar ++ log'.map .out ++
        [.fd4 (successLine (Hex.encode (Sha256.digest nar).toList) nar.length)])

/-- The log of a request that hands over no NAR. -/
def Logged (τ : List Effect) : Prop := ∀ e ∈ τ, e.Logs

/-- The NAR has been sent, after what was buffered before it. -/
def NarSent (nar : Bytes) (τ : List Effect) : Prop :=
  ∃ ω ω', τ = ω ++ .flush :: narLines nar .done ++ ω' ∧ Logged ω ∧ Logged ω'

/-- All effects of a request that returns; the digest of its NAR satisfies `D`. -/
inductive Answered (D : Digest → Prop) : List Effect → Prop
  | refused {τ : List Effect} {reply : Text} (logged : Logged τ)
      (hreply : Refusal reply) :
      Answered D (τ ++ [.line reply])
  | succeeded {τ : List Effect} {nar : Bytes} (sent : NarSent nar τ) (digest : D (Sha256.digest nar)) :
      Answered D (τ ++ [.line (successLine (Hex.encode (Sha256.digest nar).toList) nar.length)])

omit [Sha256] in
theorem Logged.append {τ ω : List Effect} (h : Logged τ) (hω : Logged ω) : Logged (τ ++ ω) := by
  intro e he
  rcases List.mem_append.mp he with he | he
  · exact h e he
  · exact hω e he

omit [Sha256] in
theorem NarSent.append {nar : Bytes} {τ ω : List Effect} (h : NarSent nar τ) (hω : Logged ω) :
    NarSent nar (τ ++ ω) := by
  obtain ⟨before, after, rfl, hbefore, hafter⟩ := h
  exact ⟨before, after ++ ω, List.append_assoc _ _ _, hbefore, hafter.append hω⟩

omit [Sha256] in
/-- What was sent and what is buffered after the NAR. -/
theorem NarSent.foldl_perform {nar : Bytes} {τ : List Effect} (h : NarSent nar τ) :
    ∃ log log' : List Text, (∀ line ∈ log, '\n' ∉ line) ∧ (∀ line ∈ log', '\n' ∉ line) ∧
      τ.foldl SocketWriter.perform .new =
        ⟨sendFrames (log'.map .out), sendFrames (log.map .out ++ narFrames nar)⟩ := by
  obtain ⟨before, after, rfl, hbefore, hafter⟩ := h
  obtain ⟨log, hlog, hrun⟩ := @foldl_perform_logs .new before hbefore
  obtain ⟨log', hlog', hrun'⟩ := @foldl_perform_logs
    ⟨[], sendFrames (log.map .out ++ narFrames nar)⟩ after hafter
  refine ⟨log, log', hlog, hlog', ?_⟩
  rw [List.append_assoc, List.foldl_append, List.cons_append, List.foldl_cons, List.foldl_append,
    foldl_perform_narLines, hrun]
  have hsent : ((SocketWriter.mk (SocketWriter.new.buf ++ sendFrames (log.map .out))
      SocketWriter.new.sent).perform .flush).writeNarDataToSocket nar =
      ⟨[], sendFrames (log.map .out ++ narFrames nar)⟩ := by
    simp [SocketWriter.perform, SocketWriter.flushSocket, SocketWriter.writeNarDataToSocket,
      SocketWriter.new, narDataBytes_eq]
  exact (congrArg (after.foldl SocketWriter.perform) hsent).trans hrun'

omit [Sha256] in
theorem perform_line {reply : Text} (hne : reply ≠ []) (w : SocketWriter) :
    (w.perform (.line reply)).flushSocket.sent = w.sent ++ w.buf ++ sendFrames [.fd4 reply] := by
  simp only [SocketWriter.perform, SocketWriter.writeLine, if_neg hne, SocketWriter.flushSocket]
  rw [writeBufferedLine_eq (f := .fd4 reply) rfl, List.append_assoc]

omit [Sha256] in
theorem Refusal.ne_nil {reply : Text} (hreply : Refusal reply) : reply ≠ [] := by
  rcases hreply with rfl | ⟨expected, actual, rfl⟩
  · decide
  · intro h
    cases h

/-- **A request that returns** has sent the frames of a transcript. -/
theorem Answered.transcript {D : Digest → Prop} {τ : List Effect} (h : Answered D τ) :
    ∃ nar frames, Transcript nar frames ∧ (∀ narData, nar = some narData → D (Sha256.digest narData)) ∧
      (τ.foldl SocketWriter.perform .new).flushSocket.sent = sendFrames frames := by
  cases h with
  | @refused ω reply logged hreply =>
      obtain ⟨log, hlog, hrun⟩ := @foldl_perform_logs .new ω logged
      refine ⟨none, _, .refused hlog hreply, by simp, ?_⟩
      rw [List.foldl_append, hrun]
      exact (perform_line hreply.ne_nil _).trans (by simp [SocketWriter.new])
  | @succeeded ω nar sent digest =>
      obtain ⟨log, log', hlog, hlog', hrun⟩ := sent.foldl_perform
      refine ⟨some nar, _, .succeeded hlog hlog', fun narData hnar => ?_, ?_⟩
      · rwa [← Option.some.inj hnar]
      have hne : successLine (Hex.encode (Sha256.digest nar).toList) nar.length ≠ [] := by
        intro h
        cases h
      rw [List.foldl_append, hrun]
      exact (perform_line hne _).trans (by simp)

/-- A request that does not return has sent nothing, or the NAR and what was before it. -/
theorem sent_of_interrupted {D : Digest → Prop} {τ : List Effect}
    (h : Logged τ ∨ ∃ nar, NarSent nar τ ∧ D (Sha256.digest nar)) :
    ∃ nar frames, Transcript nar frames ∧ (∀ narData, nar = some narData → D (Sha256.digest narData)) ∧
      (τ.foldl SocketWriter.perform .new).sent <+: sendFrames frames := by
  rcases h with hlogged | ⟨nar, hsent, hdigest⟩
  · obtain ⟨log, hlog, hrun⟩ := @foldl_perform_logs .new τ hlogged
    refine ⟨none, _, .refused hlog (Or.inl rfl), by simp, ?_⟩
    rw [hrun]
    exact List.nil_prefix
  · obtain ⟨log, log', hlog, hlog', hrun⟩ := hsent.foldl_perform
    refine ⟨some nar, _, .succeeded hlog hlog', fun narData hnar => ?_, ?_⟩
    · rwa [← Option.some.inj hnar]
    rw [hrun, List.append_assoc (_ ++ _), sendFrames_append (log.map ReplyFrame.out ++ narFrames nar)]
    exact List.prefix_append _ _

/-! ### Requests -/

omit [Sha256] in
theorem keeps_onDisk_logs {α : Type} {m : Action NarDisk FileWrite Panic α} {I : List Effect → Prop}
    (hI : ∀ τ ω, Logged ω → I τ → I (τ ++ ω)) : Action.Keeps (fun _ τ => I τ) (onDisk m) := by
  have hwrites : ∀ ws : List FileWrite, Logged (ws.map .write) := by
    intro ws e he
    obtain ⟨w, -, rfl⟩ := List.mem_map.mp he
    exact trivial
  exact ⟨fun s τ _ hs _ => hI τ _ (hwrites _) hs, fun s τ _ hs _ => hI τ _ (hwrites _) hs⟩

omit [Sha256] in
/-- Seeding concerns no socket. -/
theorem keeps_autoSeed_logs [MetadataFormat] {I : List Effect → Prop}
    (hI : ∀ τ ω, Logged ω → I τ → I (τ ++ ω)) (cfg : Config) (world : SaveWorld) (narHashHex : Text)
    (nar : Bytes) (storePath : Text) (source : DownloadSource) :
    Action.Keeps (fun _ τ => I τ) (autoSeed cfg world narHashHex nar storePath source) := by
  unfold autoSeed
  split
  · refine Action.Keeps.bind Action.Keeps.get fun s => ?_
    split
    · exact Action.Keeps.pure _
    · refine Action.Keeps.bind (keeps_onDisk_logs hI) fun ok => ?_
      cases ok with
      | true =>
          refine Action.Keeps.emit fun _ τ hs => hI τ _ (fun e he => ?_) hs
          rw [List.mem_singleton.mp he]
          exact trivial
      | false => exact Action.Keeps.pure _
  · exact Action.Keeps.pure _

omit [Sha256] in
/-- A socket that takes everything gets the buffered lines and the NAR. -/
theorem handOverSocket_sent {world : DeliveryWorld} (hflushed : world.flushed = true)
    (hstream : world.stream = .done) (nar : Bytes) :
    Action.Triple (fun _ τ => Logged τ) (fun ok _ τ => ok = true ∧ NarSent nar τ) (fun _ _ => False)
      (handOverSocket world nar) := by
  unfold handOverSocket
  rw [if_pos hflushed, hstream]
  refine Action.Triple.bind (Q := fun _ _ τ => ∃ ω, τ = ω ++ [.flush] ∧ Logged ω)
    (Action.Triple.emit fun _ τ hτ => ⟨τ, rfl, hτ⟩) fun _ => ?_
  refine Action.Triple.bind (Q := fun _ _ τ => NarSent nar τ) (Action.Triple.emitAll fun _ τ hτ => ?_)
    fun _ => Action.Triple.pure fun _ _ hτ => ⟨rfl, hτ⟩
  obtain ⟨ω, rfl, hω⟩ := hτ
  exact ⟨ω, [], by simp, hω, fun e he => absurd he List.not_mem_nil⟩

/-- Where a request on a socket that takes everything can be when a panic ends it. -/
def Interrupted (D : Digest → Prop) (τ : List Effect) : Prop :=
  Logged τ ∨ ∃ nar, NarSent nar τ ∧ D (Sha256.digest nar)

variable [MetadataFormat]

/-- **From a downloaded NAR to the reply.** -/
theorem deliver_answered {world : DeliveryWorld} (hflushed : world.flushed = true)
    (hstream : world.stream = .done) (cfg : Config) (dest : Text) {storePath : Text}
    (hpath : '\n' ∉ storePath) {D : Digest → Prop} {narHash : Digest} (hdigest : D narHash)
    {nar : DownloadedNar} (hurl : '\n' ∉ nar.traceUrl) :
    Action.Triple (fun _ τ => Logged τ) (fun _ _ τ => Answered D τ) (fun _ τ => Interrupted D τ)
      (deliver cfg (.socket true) world dest storePath narHash nar) := by
  unfold deliver
  dsimp only
  split
  next heq =>
    obtain rfl := digest_eq_of_hex heq
    refine Action.Triple.bind ((handOverSocket_sent hflushed hstream nar.data).weaken
      (fun _ _ hτ => hτ) (fun _ _ _ hτ => hτ) fun _ _ hτ => absurd hτ id) fun ok => ?_
    refine Action.Triple.given (fun _ _ hτ => hτ.1) fun hok => ?_
    rw [if_pos hok]
    refine Action.Triple.bind (Q := fun _ _ τ => NarSent nar.data τ)
      ((keeps_autoSeed_logs (fun τ ω hω hτ => hτ.append hω) cfg world.save _ nar.data storePath
        nar.source).weaken (fun _ _ hτ => hτ.2) (fun _ _ _ hτ => hτ)
        fun _ _ hτ => Or.inr ⟨nar.data, hτ, hdigest⟩) fun _ => ?_
    refine Action.Triple.bind (Q := fun _ _ τ => NarSent nar.data τ)
      (Action.Triple.emit fun _ τ hτ => hτ.append fun e he => ?_) fun _ => ?_
    · rw [List.mem_singleton.mp he]
      exact newline_not_mem_unwords (by simp [hpath, hurl, Text.newline_not_mem_ofNat])
    · exact Action.Triple.emit fun _ τ hτ => .succeeded hτ hdigest
  next =>
    refine Action.Triple.bind (Q := fun _ _ τ => Logged τ)
      ((keeps_onDisk_logs fun τ ω hω (hτ : Logged τ) => hτ.append hω).weaken (fun _ _ hτ => hτ)
        (fun _ _ _ hτ => hτ) fun _ _ hτ => Or.inl hτ) fun _ => ?_
    refine Action.Triple.bind (Q := fun _ _ τ => Logged τ)
      (Action.Triple.emit fun _ τ hτ => hτ.append fun e he => ?_) fun _ => ?_
    · rw [List.mem_singleton.mp he]
      exact trivial
    · exact Action.Triple.emit fun _ τ hτ => .refused hτ (Or.inr ⟨_, _, rfl⟩)

omit [MetadataFormat] in
theorem replyNotFound_answered {D : Digest → Prop} :
    Action.Triple (fun _ τ => Logged τ) (fun _ _ τ => Answered D τ) (fun _ τ => Interrupted D τ)
      replyNotFound :=
  Action.Triple.emit fun _ _ hτ => .refused hτ (Or.inl rfl)

variable [Decompressors]

theorem substituteWith_answered {world : SubstituteWorld} (hflushed : world.delivery.flushed = true)
    (hstream : world.delivery.stream = .done) {cfg : Config}
    (hservers : ∀ url ∈ cfg.substituteUrls, '\n' ∉ url) {info : Narinfo} (hinfo : info.OneLine)
    {h : Text} (hpart : '\n' ∉ h) (dest : Text) {D : Digest → Prop}
    (hdigest : ∀ narHash, sha256Bytes info.narHash = .ok (some narHash) → D narHash) :
    Action.Triple (fun _ τ => Logged τ) (fun _ _ τ => Answered D τ) (fun _ τ => Interrupted D τ)
      (substituteWith cfg (.socket true) world dest h info) := by
  unfold substituteWith
  split
  · exact Action.Triple.fault fun _ _ hτ => Or.inl hτ
  · exact replyNotFound_answered
  next narHash hhash =>
    refine Action.Triple.bind ((download_triple (I := fun _ τ => Logged τ)
      (LogTexts.oneLine hservers hinfo hpart) (fun _ τ texts htexts hτ => ?_) world narHash).weaken
      (fun _ _ hτ => hτ) (fun _ _ _ hτ => hτ) fun _ _ hτ => Or.inl hτ) fun r => ?_
    · refine hτ.append fun e he => ?_
      obtain ⟨text, htext, rfl⟩ := List.mem_map.mp he
      exact htexts text htext
    · cases r with
      | ok nar =>
          refine Action.Triple.given (fun _ _ hτ => hτ.2 nar rfl) fun hurl => ?_
          exact (deliver_answered hflushed hstream cfg dest hinfo.storePath (hdigest narHash hhash)
            hurl).assume fun _ _ hτ => hτ.1
      | error e => exact replyNotFound_answered.assume fun _ _ hτ => hτ.1

variable [SignatureLib]

/-- A digest that a known narinfo names. -/
def Named (world : MetadataWorld) (s : Shared) (d : Digest) : Prop :=
  ∃ info, Known world s info ∧ sha256Bytes info.narHash = .ok (some d)

theorem trySwarmSubstitute_answered {world : SubstituteWorld} 
    (hflushed : world.delivery.flushed = true) (hstream : world.delivery.stream = .done) {cfg : Config}
    {s₀ : Shared} (htexts : OneLineTexts cfg s₀) {path : Text} (hpath : '\n' ∉ path) (dest : Text) :
    Action.Triple (fun s τ => s = s₀ ∧ τ = []) (fun _ _ τ => Answered (Named world.metadata s₀) τ)
      (fun _ τ => Interrupted (Named world.metadata s₀) τ)
      (trySwarmSubstitute cfg (.socket true) world path dest) := by
  have hnil : Logged [] := fun e he => absurd he List.not_mem_nil
  unfold trySwarmSubstitute
  cases hhash : hashPart path with
  | error e => exact replyNotFound_answered.assume fun _ τ hτ => hτ.2 ▸ hnil
  | ok h =>
      refine Action.Triple.bind ((lookupNarinfo_known cfg world.metadata h).weaken
        (fun _ _ hτ => hτ) (fun _ _ _ hτ => hτ) fun _ τ hτ => Or.inl (hτ ▸ hnil)) fun r => ?_
      cases r with
      | none => exact replyNotFound_answered.assume fun _ τ hτ => hτ.1 ▸ hnil
      | some info =>
          refine Action.Triple.given (fun _ _ hτ => hτ.2 info rfl) fun hinfo => ?_
          refine (substituteWith_answered hflushed hstream htexts.servers (hinfo.oneLine htexts.narinfos)
            (newline_not_mem_hashPart hpath hhash) dest
            fun narHash hnarHash => ⟨info, hinfo, hnarHash⟩).assume fun _ τ hτ => ?_
          rw [hτ.1]
          intro e he
          rw [List.mem_singleton.mp he]
          exact trivial

/-- **The stream of a request**, on a socket that takes everything: if no text breaks a line,
it is a transcript if the request returns, and the beginning of one if it panics. The NAR in it
is one that a narinfo names. -/
theorem sentBytes_transcript {world : SubstituteWorld} (hflushed : world.delivery.flushed = true)
    (hstream : world.delivery.stream = .done) {cfg : Config} {s : Shared}
    (htexts : OneLineTexts cfg s) {path : Text} (hpath : '\n' ∉ path) (dest : Text) :
    let o := trySwarmSubstitute cfg (.socket true) world path dest s
    ∃ nar frames, Transcript nar frames ∧
      (∀ narData, nar = some narData → Named world.metadata s (Sha256.digest narData)) ∧
      sentBytes o <+: sendFrames frames ∧ (o.result = .ok () → sentBytes o = sendFrames frames) := by
  intro o
  have htriple := trySwarmSubstitute_answered hflushed hstream htexts hpath dest
  cases hr : o.result with
  | ok _ =>
      obtain ⟨nar, frames, htranscript, hnamed, hsent⟩ :=
        (htriple.returns s [] () ⟨rfl, rfl⟩ hr).transcript
      have hbytes : sentBytes o = sendFrames frames := by
        rw [sentBytes, hr]
        exact hsent
      exact ⟨nar, frames, htranscript, hnamed, hbytes ▸ List.prefix_refl _, fun _ => hbytes⟩
  | error e =>
      obtain ⟨nar, frames, htranscript, hnamed, hsent⟩ :=
        sent_of_interrupted (htriple.faults s [] e ⟨rfl, rfl⟩ hr)
      refine ⟨nar, frames, htranscript, hnamed, ?_, by simp⟩
      rw [sentBytes, hr]
      exact hsent

/-! ### Connections -/

/-- One turn of the loop of `handle_socket_connection`, in substitute mode: other commands are
skipped. -/
def serveSubstitute (cfg : Config) (world : SubstituteWorld) (line : Text) :
    Action Shared Effect Panic Unit :=
  match parseCommandLine (Text.trim line) with
  | .substitute path dest => trySwarmSubstitute cfg (.socket true) world path dest
  | _ => pure ()

end

end GuixP2p
