import GuixP2p.Extension.Session

/-!
# GuixP2p.Extension.CutSocket

**A socket that closes early never looks like success to the extension either.** The daemon, or the
connection, may break off anywhere in the output for a request. `read-line` then yields some whole
lines and maybe a part of the next, which `handle-relay-output` handles like a line: a part that has
lost its tag is even passed on to Guix, as a line of an old daemon.

`CutOutput` is what Guix may get to see. `Coming` says what is to come of the output, so that its
cases are those of the loop.
-/

namespace GuixP2p

open GuixP2p.Lib

/-! ### What arrives -/

/-- The lines that are read of some frames when the socket closes early. -/
inductive Torn : List ReplyFrame → List Text → Prop
  | closed {frames : List ReplyFrame} : Torn frames []
  | part {f : ReplyFrame} {rest : List ReplyFrame} {p : Text} (hpart : p <+: f.text) (hne : p ≠ f.text) :
      Torn (f :: rest) [p]
  | line {f : ReplyFrame} {rest : List ReplyFrame} {lines : List Text} (h : Torn rest lines) :
      Torn (f :: rest) (f.text :: lines)

theorem Torn.whole_lines {arrived rest : List ReplyFrame} {lines : List Text} (h : Torn rest lines) :
    Torn (arrived ++ rest) (arrived.map ReplyFrame.text ++ lines) := by
  induction arrived with
  | nil => exact h
  | cons f arrived ih => exact .line ih

/-- Every cut of the output is of that kind. -/
theorem torn_portLines {frames : List ReplyFrame} (hlines : ∀ f ∈ frames, f.OneLine) {cut : Text}
    (hcut : cut <+: joinLines '\n' (frames.map ReplyFrame.text)) : Torn frames (portLines cut) := by
  have hnewline : ∀ line ∈ frames.map ReplyFrame.text, '\n' ∉ line := by
    intro line hline
    obtain ⟨f, hf, rfl⟩ := List.mem_map.mp hline
    exact hlines f hf
  obtain ⟨arrivedLines, restLines, hsplit, hcase⟩ := splitInclusive_prefix hnewline hcut
  obtain ⟨arrived, rest, rfl, rfl, rfl⟩ := List.map_eq_append_iff.mp hsplit
  have hchomp : ((arrived.map ReplyFrame.text).map (· ++ ['\n'])).map
      (fun line => if line.getLast? = some '\n' then line.dropLast else line) = arrived.map ReplyFrame.text := by
    rw [List.map_map]
    refine (List.map_congr_left fun line _ => ?_).trans (List.map_id _)
    simp
  unfold portLines
  rcases hcase with hwhole | ⟨line, rest', part, hrest, hpart, hinside⟩
  · rw [hwhole, hchomp]
    have harrived := @Torn.whole_lines arrived rest [] Torn.closed
    rwa [List.append_nil] at harrived
  · obtain ⟨f, rest', rfl, rfl, rfl⟩ := List.map_eq_cons_iff.mp hrest
    have hkept : part.getLast? ≠ some '\n' := fun hlast =>
      hlines f (by simp) (hpart.mem (List.mem_of_getLast? hlast))
    rw [hinside, List.map_append, hchomp, List.map_singleton, if_neg hkept]
    refine Torn.whole_lines ?_
    by_cases heq : part = f.text
    · rw [heq]
      exact .line .closed
    · exact .part hpart heq

/-! ### What is to come -/

/-- The frames to come end with `reply`: with a NAR to be restored before it (`whole`), of which some
bytes may be there (`opened`). -/
inductive Coming (reply : Text) : Option Bytes → Option Bytes → List ReplyFrame → Prop
  | reply : Coming reply none none [.fd4 reply]
  | log {whole opened : Option Bytes} {line : Text} {rest : List ReplyFrame} (h : Coming reply whole opened rest) :
      Coming reply whole opened (.out line :: rest)
  | chunk {bytes chunk : Bytes} {opened : Option Bytes} {rest : List ReplyFrame}
      (h : Coming reply (some bytes) (some (opened.getD [] ++ chunk)) rest) :
      Coming reply (some bytes) opened (.nar chunk :: rest)
  | narEnd {bytes : Bytes} {rest : List ReplyFrame} (h : Coming reply none none rest) :
      Coming reply (some bytes) (some bytes) (.narEnd :: rest)

theorem Coming.after_log {reply : Text} {whole opened : Option Bytes} {rest : List ReplyFrame}
    (h : Coming reply whole opened rest) (log : List Text) :
    Coming reply whole opened (log.map .out ++ rest) := by
  induction log with
  | nil => exact h
  | cons line log ih => exact .log ih

theorem Coming.of_chunks {reply : Text} {rest : List ReplyFrame} (h : Coming reply none none rest)
    (chunks : List Bytes) (start : Bytes) :
    Coming reply (some (start ++ chunks.flatten)) (some start) (chunks.map .nar ++ .narEnd :: rest) := by
  induction chunks generalizing start with
  | nil =>
      rw [List.flatten_nil, List.append_nil]
      exact .narEnd h
  | cons chunk chunks ih =>
      rw [List.flatten_cons, ← List.append_assoc]
      exact .chunk (ih (start ++ chunk))

theorem Coming.of_narFrames {reply : Text} {rest : List ReplyFrame} (h : Coming reply none none rest)
    {narData : Bytes} (hne : narData ≠ []) : Coming reply (some narData) none (narFrames narData ++ rest) := by
  have hall : (narChunks narData).flatten = narData := flatten_chunks (by decide) narData
  cases hchunks : narChunks narData with
  | nil =>
      rw [hchunks] at hall
      exact absurd hall.symm hne
  | cons chunk chunks =>
      rw [hchunks, List.flatten_cons] at hall
      have hframes : narFrames narData ++ rest = .nar chunk :: (chunks.map .nar ++ .narEnd :: rest) := by
        rw [narFrames, hchunks]
        simp
      rw [hframes, ← hall]
      exact .chunk (h.of_chunks chunks chunk)

/-- What is to come of a transcript. -/
theorem Transcript.coming [Sha256] {nar : Option Bytes} {frames : List ReplyFrame} (h : Transcript nar frames)
    (hne : nar ≠ some []) :
    ∃ reply, isSubstituteTerminalReply reply = true ∧ (successStart <+: reply → nar ≠ none) ∧
      Coming reply nar none frames := by
  cases h with
  | @refused log reply hlog hreply =>
      exact ⟨reply, hreply.terminal, fun hstart => absurd hstart hreply.not_success, Coming.reply.after_log log⟩
  | @succeeded log log' narData hlog hlog' =>
      refine ⟨_, terminal_successLine (Sha256.digest narData).toList narData.length, fun _ hnone => ?_, ?_⟩
      · cases hnone
      · rw [List.append_assoc, List.append_assoc]
        exact ((Coming.reply.after_log log').of_narFrames fun hnil => hne (by rw [hnil])).after_log log

/-! ### The loop -/

/-- What comes of an output with these frames to come. -/
structure Survives (dest reply : Text) (whole : Option Bytes) (r : RelayOutput) : Prop where
  restored : r.restored = [] ∨ ∃ narData, whole = some narData ∧ r.restored = [(dest, narData)]
  success : ∀ line ∈ r.replies, successStart <+: line →
    successStart <+: reply ∧ (whole ≠ none → r.restored ≠ [])
  terminal : r.result = .ok () → ∃ line, r.replies = [line] ∧ terminalSubstituteReply line = true

section

variable {restores : Text → Bytes → Bool} {dest reply : Text} {whole : Option Bytes} {dests : List Text}
  {opened : Option (Text × Bytes)}

theorem Survives.failed (failure : ExtensionFailure) (rest : List Text) :
    Survives dest reply whole (.failed failure rest) :=
  ⟨Or.inl rfl, fun line hline => absurd hline List.not_mem_nil, fun hok => by cases hok⟩

theorem Survives.closed (bytes : Option (Text × Bytes)) :
    Survives dest reply whole (handleRelayLines restores 1 [] dests bytes 0) := by
  cases bytes with
  | none => exact .failed .closedBeforeTerminalReply []
  | some nar => exact .failed (.closedBeforeNarEnd nar.1) []

theorem Survives.trace {r : RelayOutput} (h : Survives dest reply whole r) (line : Text) :
    Survives dest reply whole (r.trace line) := ⟨h.restored, h.success, h.terminal⟩

/-- Nothing comes after the NAR but the reply. -/
theorem Survives.restore {r : RelayOutput} (h : Survives dest reply none r) (bytes : Bytes) :
    Survives dest reply (some bytes) (r.restore dest bytes) := by
  have hnone : r.restored = [] := by
    rcases h.restored with hnil | ⟨narData, hnone, -⟩
    · exact hnil
    · cases hnone
  refine ⟨Or.inr ⟨bytes, rfl, ?_⟩, fun line hline hstart => ⟨(h.success line hline hstart).1, fun _ hnil => ?_⟩,
    h.terminal⟩
  · rw [RelayOutput.restore, hnone]
  · cases hnil

theorem handleRelayLines_restoreFailed {bytes : Bytes} {lines : List Text} {n : Nat}
    (hfails : ¬ restores dest bytes = true) :
    handleRelayLines restores 1 (narEndLine :: lines) dests (some (dest, bytes)) n =
      .failed (.restoreFailed dest) lines := by
  rw [handleRelayLines.eq_def]
  have hne : narEndLine ≠ fd4EmptyLine := by decide
  simp only [if_neg hne]
  rw [Text.dropPrefix?_eq_none (by decide), Text.dropPrefix?_eq_none (by decide),
    Text.dropPrefix?_eq_none (by decide)]
  simp only [if_true, if_neg hfails]

/-- The socket is closed. -/
theorem handleRelayLines_closed (n : Nat) :
    ∃ result, handleRelayLines restores 1 [] dests opened n = ⟨[], [], [], result, []⟩ ∧
      (result = .ok () → 0 < n) := by
  cases opened with
  | none =>
      cases n with
      | zero => exact ⟨_, if_pos Nat.one_pos, fun hok => by cases hok⟩
      | succ n => exact ⟨_, if_neg (by omega), fun _ => n.succ_pos⟩
  | some nar => exact ⟨_, rfl, fun hok => by cases hok⟩

/-- What comes of a last line that is not the end of a NAR: what it says to Guix is the line itself or
comes from an `fd4:` line. -/
structure LastOutput (p : Text) (r : RelayOutput) : Prop where
  restored : r.restored = []
  said : ∀ line ∈ r.replies, line = [] ∨ p = fd4Prefix ++ line ∨ line = p
  terminal : r.result = .ok () → ∃ line, r.replies = [line] ∧ terminalSubstituteReply line = true

theorem LastOutput.of_closed {p line : Text} (hsaid : line = [] ∨ p = fd4Prefix ++ line ∨ line = p) {n : Nat}
    (hn : 0 < n → terminalSubstituteReply line = true) :
    LastOutput p ((handleRelayLines restores 1 [] dests opened n).reply line) := by
  obtain ⟨result, hclosed, hok⟩ := @handleRelayLines_closed restores dests opened n
  rw [hclosed]
  refine ⟨rfl, fun line' hline => ?_, fun h => ⟨line, rfl, hn (hok h)⟩⟩
  rw [List.mem_singleton.mp hline]
  exact hsaid

theorem LastOutput.failed {p : Text} (failure : ExtensionFailure) (rest : List Text) :
    LastOutput p (.failed failure rest) :=
  ⟨rfl, fun line hline => absurd hline List.not_mem_nil, fun hok => by cases hok⟩

theorem LastOutput.trace {p : Text} {r : RelayOutput} (h : LastOutput p r) (line : Text) :
    LastOutput p (r.trace line) := ⟨h.restored, h.said, h.terminal⟩

theorem LastOutput.closed (p : Text) : LastOutput p (handleRelayLines restores 1 [] dests opened 0) := by
  obtain ⟨result, hclosed, hok⟩ := @handleRelayLines_closed restores dests opened 0
  rw [hclosed]
  exact ⟨rfl, fun line hline => absurd hline List.not_mem_nil, fun h => absurd (hok h) (Nat.lt_irrefl 0)⟩

theorem handleRelayLines_last {p : Text} (hp : p ≠ narEndLine) :
    LastOutput p (handleRelayLines restores 1 [p] dests opened 0) := by
  rw [handleRelayLines.eq_def]
  dsimp only
  split
  · exact .of_closed (Or.inl rfl) fun h => absurd h (Nat.lt_irrefl 0)
  split
  next data hdata =>
    obtain ⟨start, hsplit, hstart⟩ := List.dropPrefix?_eq_some_iff.mp hdata
    rw [eq_of_beq hstart] at hsplit
    split
    next hterminal =>
      split
      · refine ⟨rfl, fun line hline => Or.inr (Or.inl ?_), fun _ => ⟨data, rfl, hterminal⟩⟩
        rw [List.mem_singleton.mp hline, hsplit]
      · exact .of_closed (Or.inr (Or.inl hsplit)) fun _ => hterminal
    · exact .of_closed (Or.inr (Or.inl hsplit)) fun h => absurd h (Nat.lt_irrefl 0)
  split
  next data _ => exact (LastOutput.closed p).trace data
  split
  · split
    · exact .failed _ _
    · split
      · exact .failed _ _
      · exact .closed p
  · refine .of_closed (Or.inr (Or.inr rfl)) fun hn => ?_
    by_contra hnot
    rw [if_neg hnot] at hn
    exact Nat.lt_irrefl 0 hn

/-- No tag begins like `success`. -/
theorem ReplyFrame.not_success_text (f : ReplyFrame) : ¬ successStart <+: f.text := by
  intro hstart
  obtain ⟨rest, hrest⟩ := hstart
  have hhead : f.text.head? = some 's' := by
    rw [← hrest]
    rfl
  cases f with
  | fd4 line => exact absurd (show some 'f' = some 's' from hhead) (by decide)
  | fd4Empty => exact absurd hhead (by decide)
  | out line => exact absurd (show some 'o' = some 's' from hhead) (by decide)
  | nar chunk => exact absurd (show some 'n' = some 's' from hhead) (by decide)
  | narEnd => exact absurd hhead (by decide)

/-- A part of a frame's line. -/
theorem Survives.of_part {f : ReplyFrame} {p : Text} (hpart : p <+: f.text) (hne : p ≠ f.text) (hfull : f ≠ .fd4Empty)
    (hfd4 : ∀ line, f = .fd4 line → line = reply ∧ whole = none) :
    Survives dest reply whole (handleRelayLines restores 1 [p] dests opened 0) := by
  have hnarEnd : p ≠ narEndLine := by
    intro heq
    subst heq
    cases f with
    | narEnd => exact hne rfl
    | fd4Empty => exact hfull rfl
    | fd4 line => simp [ReplyFrame.text, narEndLine_eq, fd4Prefix_eq] at hpart
    | out line => simp [ReplyFrame.text, narEndLine_eq, outPrefix_eq] at hpart
    | nar chunk => simp [ReplyFrame.text, narEndLine_eq, narPrefix_eq] at hpart
  have hlast := @handleRelayLines_last restores dests opened p hnarEnd
  refine ⟨Or.inl hlast.restored, fun line hline hstart => ?_, hlast.terminal⟩
  rcases hlast.said line hline with rfl | rfl | rfl
  · exact absurd hstart (by decide)
  · cases f with
    | fd4 data =>
        obtain ⟨rfl, hnone⟩ := hfd4 data rfl
        exact ⟨hstart.trans ((List.prefix_append_right_inj _).mp hpart), fun hsome => absurd hnone hsome⟩
    | fd4Empty => exact absurd rfl hfull
    | out data => simp [ReplyFrame.text, fd4Prefix_eq, outPrefix_eq] at hpart
    | nar chunk => simp [ReplyFrame.text, fd4Prefix_eq, narPrefix_eq] at hpart
    | narEnd => simp [ReplyFrame.text, fd4Prefix_eq, narEndLine_eq] at hpart
  · exact absurd (hstart.trans hpart) f.not_success_text

/-- **Run lemma.** Wherever the socket closes. -/
theorem Coming.survives {bytes : Option Bytes} {frames : List ReplyFrame} (h : Coming reply whole bytes frames)
    (hreply : isSubstituteTerminalReply reply = true) {lines : List Text} (htorn : Torn frames lines)
    (hdests : whole ≠ none → bytes = none → dests = [dest]) :
    Survives dest reply whole (handleRelayLines restores 1 lines dests (bytes.map (dest, ·)) 0) := by
  induction h generalizing lines dests with
  | reply =>
      cases htorn with
      | closed => exact .closed _
      | part hpart hne => 
          refine .of_part hpart hne (fun heq => by cases heq) fun line heq => ?_
          exact ⟨(ReplyFrame.fd4.inj heq).symm, rfl⟩
      | line htorn =>
          rw [Option.map_none, handleRelayLines_terminal hreply]
          refine ⟨Or.inl rfl, fun line hline hstart => ?_, fun _ => ⟨reply, rfl, hreply⟩⟩
          rw [List.mem_singleton.mp hline] at hstart
          exact ⟨hstart, fun hsome => absurd rfl hsome⟩
  | @log whole bytes line rest hcoming ih =>
      cases htorn with
      | closed => exact .closed _
      | part hpart hne => exact .of_part hpart hne (fun heq => by cases heq) fun line heq => by cases heq
      | line htorn =>
          rw [ReplyFrame.text, handleRelayLines_out]
          exact (ih htorn hdests).trace line
  | @chunk whole chunk bytes rest hcoming ih =>
      cases htorn with
      | closed => exact .closed _
      | part hpart hne => exact .of_part hpart hne (fun heq => by cases heq) fun line heq => by cases heq
      | line htorn =>
          have hopen : openNarDestination (bytes.map (dest, ·)) dests =
              some ((dest, bytes.getD []), if bytes = none then [] else dests) := by
            cases bytes with
            | none =>
                rw [hdests (Option.some_ne_none whole) rfl]
                rfl
            | some bytes => rfl
          rw [handleRelayLines_nar hopen]
          exact ih htorn fun _ hnone => by cases hnone
  | @narEnd whole rest hcoming ih =>
      cases htorn with
      | closed => exact .closed _
      | part hpart hne => exact .of_part hpart hne (fun heq => by cases heq) fun line heq => by cases heq
      | line htorn =>
          rw [ReplyFrame.text, Option.map_some]
          by_cases hrestores : restores dest whole = true
          · rw [handleRelayLines_narEnd hrestores]
            exact (ih htorn fun hsome => absurd rfl hsome).restore whole
          · rw [handleRelayLines_restoreFailed hrestores]
            exact .failed _ _

end

/-! ### Requests that are cut off -/

/-- What Guix may get to see of the output for a request: the whole NAR at its destination or nothing,
`success` only with the NAR, and no clean end without the one terminal reply. -/
structure CutOutput (dest : Text) (hands : Bytes → Prop) (r : RelayOutput) : Prop where
  restored : r.restored = [] ∨ ∃ narData, hands narData ∧ r.restored = [(dest, narData)]
  success : ∀ line ∈ r.replies, successStart <+: line → r.restored ≠ []
  terminal : r.result = .ok () → ∃ line, r.replies = [line] ∧ terminalSubstituteReply line = true

section

variable [Sha256]

theorem Transcript.cutOutput {nar : Option Bytes} {frames : List ReplyFrame} (h : Transcript nar frames)
    (hne : nar ≠ some []) {cut : Text} (hcut : Text.utf8 cut <+: sendFrames frames) (restores : Text → Bytes → Bool)
    (dest : Text) :
    CutOutput dest (fun narData => nar = some narData) (handleRelayOutput restores [dest] (portLines cut)) := by
  obtain ⟨body, last, hframes, hsealed⟩ := h.sealed
  have htorn : Torn frames (portLines cut) := by
    refine torn_portLines (fun f hf => hsealed.oneLine f (hframes ▸ hf)) (Text.prefix_of_utf8_prefix ?_)
    rwa [utf8_joinLines]
  obtain ⟨reply, hreply, hsuccess, hcoming⟩ := h.coming hne
  have hsurvives := @Coming.survives restores dest reply nar [dest] none frames hcoming hreply _ htorn fun _ _ => rfl
  refine ⟨hsurvives.restored, fun line hline hstart => ?_, hsurvives.terminal⟩
  obtain ⟨hlast, hrestored⟩ := hsurvives.success line hline hstart
  exact hrestored (hsuccess hlast)

variable [MetadataFormat] [SignatureLib] [Decompressors]

/-- **No part of a NAR, and no false success.** Wherever the socket closes in what the daemon sends for a
request, and whether or not the request returns: the extension restores nothing or a whole NAR with a
digest that the narinfo names, tells Guix `success` only if it has restored it, and ends cleanly only
after exactly one terminal reply. -/
theorem extension_cut_safe (cfg : Config) (c : SubstituteCommand)
    (hparses : parseCommandLine (Text.trim c.line) = .substitute c.path c.dest) (hpath : '\n' ∉ c.path)
    (hflushed : c.world.delivery.flushed = true) (hstream : c.world.delivery.stream = .done)
    (hframed : c.Framed cfg) {cut : Text} (hcut : Text.utf8 cut <+: sentBytes (c.serve cfg))
    (restores : Text → Bytes → Bool) :
    CutOutput c.dest (fun narData => Named c.world.metadata c.before (Sha256.digest narData))
      (handleRelayOutput restores [c.dest] (portLines cut)) := by
  have hserve : c.serve cfg = trySwarmSubstitute cfg (.socket true) c.world c.path c.dest c.before := by
    unfold SubstituteCommand.serve serveSubstitute
    rw [hparses]
  obtain ⟨nar, frames, htranscript, hnamed, hprefix, -⟩ :=
    sentBytes_transcript hflushed hstream hframed.texts hpath c.dest
  rw [hserve] at hcut
  have hnonempty : nar ≠ some [] := by
    intro hempty
    obtain ⟨info, hknown, hdigest⟩ := hnamed [] hempty
    exact hframed.nonempty info hknown hdigest
  have hsafe := htranscript.cutOutput hnonempty (hcut.trans hprefix) restores c.dest
  refine ⟨hsafe.restored.imp_right fun hwhole => ?_, hsafe.success, hsafe.terminal⟩
  obtain ⟨narData, heq, hrestored⟩ := hwhole
  exact ⟨narData, hnamed narData heq, hrestored⟩

end

/-! ### A reply that arrives in part -/

/-- The last line lacks most of the digest, and the size. -/
def cutReply : Text :=
  ("out:@ download-started /gnu/store/a-b s/n 4\nout:@ download-progress /gnu/store/a-b s/n 0 4\n" ++
    "nar:YWJjZA==\nnar-end\nout:@ download-succeeded /gnu/store/a-b s/n 4\nfd4:success sha256:88d4").toList

/-- The NAR is there all the same. -/
theorem extension_cut_safe_sample :
    (handleRelayOutput (fun _ _ => true) ["/d".toList] (portLines cutReply)).restored ≠ [] := by
  have hcut : Text.utf8 cutReply <+: sentBytes (@SubstituteCommand.serve sampleSha256 noMetadataFormat forgedLib
      noDecompressors httpConfig sampleCommand) := by
    decide +kernel
  have hsafe := @extension_cut_safe sampleSha256 noMetadataFormat forgedLib noDecompressors httpConfig sampleCommand
    (by decide +kernel) (by decide +kernel) rfl rfl sampleCommand_framed _ hcut fun _ _ => true
  exact hsafe.success "success sha256:88d4".toList (by decide +kernel) (by decide +kernel)

end GuixP2p
