import GuixP2p.Daemon.Stream
import GuixP2p.Relay.RoundTrip

/-!
# GuixP2p.Relay.Cut

**A daemon that is cut off never looks like success.** The socket may close at any byte of a
request's stream; the relay then gets some whole lines and maybe a part of the next, which it
handles like a line. `CutSafe` is what the relay may do: nothing that looks like `success`
before the NAR is at its destination, no clean exit before a terminal reply, and no part of a
NAR at the destination.

`forward_cut` is about any stream that ends with its only reply (`Sealed`); the daemon's
streams are of that kind as long as no text breaks a line.
-/

namespace GuixP2p

open GuixP2p.Lib

/-! ### Streams -/

/-- A stream of a log and a NAR, in one place, that ends with a reply; the reply is no success
without the NAR. -/
structure Sealed (nar : Option Bytes) (body : List ReplyFrame) (reply : Text) : Prop where
  layout : Layout nar body
  quiet : ∀ f ∈ body, f.fd4Line = none
  success : successStart <+: reply → nar ≠ none
  oneLine : ∀ f ∈ body ++ [.fd4 reply], f.OneLine

section

variable {settings : RelaySettings} {nar : Option Bytes} {dest : Text} {frames : List ReplyFrame}

/-- The only write to the destination is that of the NAR. -/
theorem destination_of_mem_allEffects {w : FileWrite} (h : .write w ∈ allEffects settings nar dest frames)
    (hw : w.target = .destination) : ReplyFrame.narEnd ∈ frames ∧ w = ⟨.destination, dest, nar.getD [], true⟩ := by
  obtain ⟨f, hf, hmem⟩ := List.mem_flatMap.mp h
  cases f with
  | narEnd =>
      have heq := List.mem_singleton.mp hmem
      cases heq
      exact ⟨hf, rfl⟩
  | nar chunk =>
      have heq := List.mem_singleton.mp hmem
      cases heq
      cases hw
  | fd4 line => cases List.mem_singleton.mp hmem
  | fd4Empty => cases List.mem_singleton.mp hmem
  | out line => cases List.mem_singleton.mp hmem

/-- A chunk is on the stream only if there is a NAR. -/
theorem Layout.ne_none_of_nar (h : Layout nar frames) {chunk : Bytes} (hmem : .nar chunk ∈ frames) :
    nar ≠ none := by
  intro h'
  obtain rfl := h'
  exact absurd (h _ hmem) id

end

/-! ### What is safe -/

/-- What a relay for a request with this NAR may do when the stream ends, wherever it does;
`sound` says that copying a file does not stop half-way. -/
structure CutSafe (nar : Option Bytes) (dest : Text) (files : FileSystem) (sound : Prop)
    (o : Outcome RelayState RelayEffect RelayFailure Unit) : Prop where
  /-- Whenever `success` has been written, the NAR has been copied to the destination, which
  holds it. -/
  success : ∀ τ b τ', o.trace = τ ++ .fd4 b :: τ' → Text.utf8 successStart <+: b →
    ∃ narData, nar = some narData ∧ .write ⟨.destination, dest, narData, true⟩ ∈ τ ∧
      o.state.files.read dest = some narData
  /-- A clean exit comes after a terminal reply, and no NAR is half received. -/
  ok : o.result = .ok () →
    (∃ reply, isSubstituteTerminalReply reply = true ∧ .fd4 (Text.utf8 reply) ∈ o.trace) ∧
      o.state.narDest = none ∧
      ((∃ w, .write w ∈ o.trace) → ∃ narData, nar = some narData ∧
        .write ⟨.destination, dest, narData, true⟩ ∈ o.trace ∧
        o.state.files.read dest = some narData)
  /-- Anything else is an error, and the relay does not hang. -/
  returns : o.result ≠ .error .waits
  /-- The destination gets the whole NAR or nothing. -/
  destination : sound → (∀ w, .write w ∈ o.trace → w.target = .destination → nar = some w.bytes) ∧
    (o.state.files.read dest = files.read dest ∨ o.state.files.read dest = none ∨
      ∃ narData, nar = some narData ∧ o.state.files.read dest = some narData)

section

variable {settings : RelaySettings} {nar : Option Bytes} {dest : Text} {files : FileSystem}
  {sound : Prop} {o : Outcome RelayState RelayEffect RelayFailure Unit}

/-- A relay that gives up, and has written nothing like `success`. -/
theorem CutSafe.of_error (hresult : ∃ e, e ≠ RelayFailure.waits ∧ o.result = .error e)
    (hquiet : ∀ b, .fd4 b ∈ o.trace → ¬ Text.utf8 successStart <+: b)
    (hdest : sound → (∀ w, .write w ∈ o.trace → w.target = .destination → nar = some w.bytes) ∧
      (o.state.files.read dest = files.read dest ∨ o.state.files.read dest = none ∨
        ∃ narData, nar = some narData ∧ o.state.files.read dest = some narData)) :
    CutSafe nar dest files sound o := by
  obtain ⟨e, hwaits, hresult⟩ := hresult
  refine ⟨fun τ b τ' htrace hsuccess => ?_, fun hok => ?_, fun h => ?_, hdest⟩
  · exact absurd hsuccess (hquiet b (by rw [htrace]; simp))
  · rw [hresult] at hok
    cases hok
  · rw [hresult] at h
    exact hwaits (Except.error.inj h)

end

/-! ### The part of a frame -/

section

variable {settings : RelaySettings} {nar : Option Bytes} {dest : Text} {files : FileSystem}
  {s : RelayState}

/-- A line that was no reply: nothing like `success` was written, the destination was left
alone, and the relay gives up or goes on. -/
structure Harmless (settings : RelaySettings) (s : RelayState)
    (o : Outcome RelayState RelayEffect RelayFailure Unit) : Prop where
  result : (∃ e, e ≠ RelayFailure.waits ∧ o.result = .error e) ∨ o.result = .ok ()
  quiet : ∀ b, .fd4 b ∈ o.trace → ¬ Text.utf8 successStart <+: b
  writes : ∀ w, .write w ∈ o.trace → w.target ≠ .destination
  files : ∀ path, path ≠ relayTemporaryPath settings 1 → o.state.files path = s.files path
  saw : o.result = .ok () → o.state.sawSubstituteTerminalReply = s.sawSubstituteTerminalReply
  temp : o.state.narDest ≠ none → o.state.narTempPath = some (relayTemporaryPath settings 1)

/-- The temporary file of a NAR that is on its way. -/
theorem Stage.temp {rest : List ReplyFrame} (h : Stage settings nar dest files rest s) :
    s.narDest ≠ none → s.narTempPath = some (relayTemporaryPath settings 1) := by
  intro hne
  cases h with
  | before narFile narDest narIndex hfiles dests layout => exact absurd narDest hne
  | collecting hnar hcollecting hcollected hplain hfiles hdests => exact hcollecting.narTempPath
  | delivered hnar hdelivered hdests hplain => exact absurd hdelivered.narDest hne

theorem Harmless.writeFd {rest : List ReplyFrame} (h : Stage settings nar dest files rest s)
    {channel : Bytes → RelayEffect} {failure : RelayFailure} {buf : Bytes} (written : Bool)
    (hwaits : failure ≠ .waits) (hquiet : ∀ b, channel buf = .fd4 b → ¬ Text.utf8 successStart <+: b)
    (hwrites : ∀ w, channel buf ≠ .write w) :
    Harmless settings s (writeFd channel failure buf written s) := by
  rw [writeFd_eq]
  cases written with
  | true =>
      refine ⟨Or.inr rfl, fun b hb => hquiet b (List.mem_singleton.mp hb).symm, fun w hw => ?_,
        fun _ _ => rfl, fun _ => rfl, h.temp⟩
      exact absurd (List.mem_singleton.mp hw).symm (hwrites w)
  | false =>
      exact ⟨Or.inl ⟨failure, hwaits, rfl⟩, fun b hb => absurd hb List.not_mem_nil,
        fun w hw => absurd hw List.not_mem_nil, fun _ _ => rfl, fun _ => rfl, h.temp⟩

/-- A part of a chunk may decode to something, but it only gets to the temporary file. -/
theorem Harmless.appendChunk {bytes : Bytes} {s' : RelayState}
    (hcollecting : Collecting s' dest (relayTemporaryPath settings 1) bytes)
    (hfiles : ∀ path, path ≠ relayTemporaryPath settings 1 → s'.files path = s.files path)
    (hsaw : s'.sawSubstituteTerminalReply = s.sawSubstituteTerminalReply) (append : WriteOutcome)
    (data : Text) : Harmless settings s (appendChunk append data s') := by
  have htemp : s'.narDest ≠ none → s'.narTempPath = some (relayTemporaryPath settings 1) :=
    fun _ => hcollecting.narTempPath
  cases hdecode : Base64.decode (Text.trimEnd data) with
  | none =>
      rw [appendChunk_of_malformed append hdecode]
      exact ⟨Or.inl ⟨_, by simp, rfl⟩, fun b hb => absurd hb List.not_mem_nil,
        fun w hw => absurd hw List.not_mem_nil, hfiles, fun _ => hsaw, htemp⟩
  | some chunk =>
      obtain ⟨files', hfiles', hcase⟩ := appendChunk_of_collecting hcollecting append hdecode
      have hsame : ∀ path, path ≠ relayTemporaryPath settings 1 → files' path = s.files path :=
        fun path hne => (hfiles' path hne).trans (hfiles path hne)
      rcases hcase with ⟨hfailed, -⟩ | ⟨-, hdone⟩
      · rw [hfailed]
        exact ⟨Or.inl ⟨_, by simp, rfl⟩, fun b hb => absurd hb List.not_mem_nil,
          fun w hw => absurd hw List.not_mem_nil, hsame, fun _ => hsaw, htemp⟩
      · rw [hdone]
        refine ⟨Or.inr rfl, fun b hb => ?_, fun w hw => ?_, hsame, fun _ => hsaw, htemp⟩
        · cases List.mem_singleton.mp hb
        · cases List.mem_singleton.mp hw
          simp

/-- A chunk, or a part of it, where a chunk is next. -/
theorem Harmless.receiveChunk {chunk : Bytes} {rest : List ReplyFrame}
    (h : Stage settings nar dest files (.nar chunk :: rest) s) (world : LineWorld) (data : Text) :
    Harmless settings s (receiveChunk settings world data s) := by
  generalize hframes : ReplyFrame.nar chunk :: rest = frames at h
  cases h with
  | before narFile narDest narIndex hfiles dests layout =>
      subst hframes
      have hdests := dests (layout.ne_none_of_nar List.mem_cons_self)
      rcases openNar_of_dests narFile hdests world.opened with
        ⟨hfailed, -⟩ | ⟨s', hopen, hcollecting, -, hsaw, hsame⟩
      · have hrun : GuixP2p.receiveChunk settings world data s =
            ⟨[], s, .error (.openTemporaryFailed (relayTemporaryPath settings (s.narIndex + 1)))⟩ := by
          unfold GuixP2p.receiveChunk
          rw [Action.bind_of_error (by rw [hfailed]), hfailed]
        rw [hrun]
        exact ⟨Or.inl ⟨_, by simp, rfl⟩, fun b hb => absurd hb List.not_mem_nil,
          fun w hw => absurd hw List.not_mem_nil, fun _ _ => rfl, fun _ => rfl,
            fun hne => absurd narDest hne⟩
      · rw [receiveChunk_of_opened hopen]
        rw [narIndex] at hcollecting hsame
        exact .appendChunk hcollecting hsame hsaw _ _
  | collecting hnar hcollecting hcollected hplain hfiles hdests =>
      rw [receiveChunk_of_opened (openNar_of_collecting hcollecting _)]
      exact .appendChunk hcollecting (fun _ _ => rfl) rfl _ _
  | delivered hnar hdelivered hdests hplain =>
      subst hframes
      exact absurd (hplain _ List.mem_cons_self) id

section

variable {body : List ReplyFrame} {reply : Text}

/-- The frames that come before the reply. -/
theorem prefix_of_before {done tail : List ReplyFrame} (heq : body ++ [.fd4 reply] = done ++ tail)
    (htail : tail ≠ []) : done <+: body := by
  rcases List.append_eq_append_iff.mp heq with ⟨as, hdone, htail'⟩ | ⟨as, hbody, -⟩
  · cases as with
    | nil => exact ⟨[], by rw [hdone, List.append_nil, List.append_nil]⟩
    | cons a as =>
        have hlen := congrArg List.length htail'
        simp at hlen
        exact absurd hlen.2 htail
  · exact ⟨as, hbody.symm⟩

/-- They are no replies, and write nothing but the NAR to the destination. -/
theorem Sealed.before (hsealed : Sealed nar body reply) {done tail : List ReplyFrame}
    (heq : body ++ [.fd4 reply] = done ++ tail) (htail : tail ≠ []) :
    (∀ f ∈ done, f.fd4Line = none) ∧
      ∀ w, .write w ∈ allEffects settings nar dest done → w.target = .destination → nar = some w.bytes := by
  have hbody := prefix_of_before heq htail
  refine ⟨fun f hf => hsealed.quiet f (hbody.mem hf), fun w hw htarget => ?_⟩
  obtain ⟨hend, rfl⟩ := destination_of_mem_allEffects hw htarget
  obtain ⟨narData, hnar⟩ := Option.ne_none_iff_exists'.mp
    (hsealed.layout.narEnd_mem_iff.mp (hbody.mem hend))
  rw [hnar]
  rfl

/-- The reply is the last frame. -/
theorem Sealed.last (hsealed : Sealed nar body reply) {arrived rest : List ReplyFrame} {line : Text}
    (heq : body ++ [.fd4 reply] = arrived ++ .fd4 line :: rest) :
    arrived = body ∧ line = reply ∧ rest = [] := by
  cases rest with
  | nil =>
      obtain ⟨rfl, hline⟩ := List.append_inj' heq rfl
      exact ⟨rfl, (ReplyFrame.fd4.inj (List.cons.inj hline).1).symm, rfl⟩
  | cons f rest =>
      have hsplit : body ++ [.fd4 reply] = (arrived ++ [.fd4 line]) ++ (f :: rest) := by
        rw [heq, List.append_assoc]
        rfl
      have hbody := prefix_of_before hsplit (List.cons_ne_nil f rest)
      cases hsealed.quiet (.fd4 line) (hbody.mem (by simp))

end

end

end GuixP2p
