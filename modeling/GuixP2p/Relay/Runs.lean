import Mathlib.Data.List.TakeWhile
import GuixP2p.Relay.Steps

/-!
# GuixP2p.Relay.Runs

**What the relay does with a stream of frames.** A stream has at most one NAR in it
(`Layout`), so the relay is before the NAR, collects it, or has delivered it; `Stage` says
what that means for its state. `Stage.step` is the step lemma: a frame has exactly its
effects and leads to the next stage, or the relay gives up. `Stage.run` is the run lemma.
-/

namespace GuixP2p

open GuixP2p.Lib

/-! ### Frames -/

namespace ReplyFrame

/-- What the relay does for a frame. -/
def effects (dest temp : Text) (nar : Option Bytes) : ReplyFrame → List RelayEffect
  | .fd4 line => [.fd4 (Text.utf8 (line ++ ['\n']))]
  | .fd4Empty => [.fd4 [10]]
  | .out line => [.stdout (Text.utf8 (line ++ ['\n']))]
  | .nar chunk => [.write ⟨.temporary, temp, chunk, true⟩]
  | .narEnd => [.write ⟨.destination, dest, nar.getD [], true⟩]

/-- The frame carries a terminal reply. -/
def terminal : ReplyFrame → Bool
  | .fd4 line => isSubstituteTerminalReply (line ++ ['\n'])
  | _ => false

/-- The line of a frame, as it is sent. -/
def bytes (f : ReplyFrame) : Bytes := Text.utf8 (f.text ++ ['\n'])

end ReplyFrame

/-- The frames after the first: it is plain, or the NAR begins. -/
theorem Layout.cons_cases {nar : Option Bytes} {f : ReplyFrame} {rest : List ReplyFrame}
    (h : Layout nar (f :: rest)) :
    (f.Plain ∧ Layout nar rest) ∨
      ∃ narData post, nar = some narData ∧ f :: rest = narFrames narData ++ post ∧
        ∀ g ∈ post, g.Plain := by
  cases nar with
  | none =>
      exact Or.inl ⟨h f List.mem_cons_self, fun g hg => h g (List.mem_cons_of_mem f hg)⟩
  | some narData =>
      obtain ⟨before, after, heq, hbefore, hafter⟩ := h
      cases before with
      | nil => exact Or.inr ⟨narData, after, rfl, heq, hafter⟩
      | cons g before =>
          rw [List.cons_append, List.cons_append, List.cons.injEq] at heq
          rw [List.forall_mem_cons] at hbefore
          obtain ⟨rfl, heq⟩ := heq
          exact Or.inl ⟨hbefore.1, before, after, heq, hbefore.2, hafter⟩

/-- White space is no base64 digit, and no padding. -/
theorem not_mem_base64_of_isWhitespace {c : Char} (hc : Text.isWhitespace c = true) (chunk : Bytes) :
    c ∉ Base64.encode chunk := by
  have hplus : c ≠ '+' := by
    intro h
    obtain rfl := h
    exact absurd hc (by decide)
  have hslash : c ≠ '/' := by
    intro h
    obtain rfl := h
    exact absurd hc (by decide)
  have hpad : c ≠ '=' := by
    intro h
    obtain rfl := h
    exact absurd hc (by decide)
  refine Base64.not_mem_encode ?_ hpad chunk
  simp only [Text.isWhitespace, Bool.or_eq_true, decide_eq_true_eq] at hc
  simp only [Base64.digitValue, hplus, hslash, if_false]
  rw [if_neg (by omega), if_neg (by omega), if_neg (by omega)]

theorem decode_chunk (chunk : Bytes) :
    Base64.decode (Text.trimEnd (Base64.encode chunk ++ ['\n'])) = some chunk := by
  have htrim : Text.trimEnd (Base64.encode chunk ++ ['\n']) = Base64.encode chunk := by
    have hnewline : Text.isWhitespace '\n' = true := by decide
    have hkeep : (Base64.encode chunk).reverse.dropWhile Text.isWhitespace =
        (Base64.encode chunk).reverse := by
      rw [List.dropWhile_eq_self_iff]
      intro hlen hwhite
      refine not_mem_base64_of_isWhitespace hwhite chunk ?_
      exact List.mem_reverse.mp (List.getElem_mem _)
    rw [Text.trimEnd, Text.dropEndWhile, List.reverse_append, List.reverse_singleton,
      List.singleton_append, List.dropWhile_cons, if_pos hnewline, hkeep, List.reverse_reverse]
  rw [htrim, Base64.decode_encode]

/-! ### Stages -/

variable {mode : RelayMode} {settings : RelaySettings} {nar : Option Bytes} {dest : Text}
  {files₀ : FileSystem}

/-- Where the relay is, with these frames to come. -/
inductive Stage (settings : RelaySettings) (nar : Option Bytes) (dest : Text) (files₀ : FileSystem) :
    List ReplyFrame → RelayState → Prop
  | before {rest : List ReplyFrame} {s : RelayState} (narFile : s.narFile = none)
      (narDest : s.narDest = none) (narIndex : s.narIndex = 0) (files : s.files = files₀)
      (dests : nar ≠ none → s.dests = [dest]) (layout : Layout nar rest) :
      Stage settings nar dest files₀ rest s
  | collecting {s : RelayState} {narData bytes : Bytes} {chunks : List Bytes}
      {post : List ReplyFrame} (hnar : nar = some narData)
      (collecting : Collecting s dest (relayTemporaryPath settings 1) bytes)
      (collected : bytes ++ chunks.flatten = narData) (plain : ∀ f ∈ post, f.Plain)
      (files : ∀ path, path ≠ relayTemporaryPath settings 1 → s.files path = files₀ path)
      (dests : s.dests = []) :
      Stage settings nar dest files₀ (chunks.map .nar ++ .narEnd :: post) s
  | delivered {rest : List ReplyFrame} {s : RelayState} {narData : Bytes} (hnar : nar = some narData)
      (delivered : Delivered s dest narData) (dests : s.dests = []) (plain : ∀ f ∈ rest, f.Plain) :
      Stage settings nar dest files₀ rest s

/-- The relay can deliver the NAR, if there is one: the temporary file can be made and is not
at or below the destination, and there is something to write. -/
structure Deliverable (settings : RelaySettings) (nar : Option Bytes) (dest : Text)
    (files₀ : FileSystem) : Prop where
  temporary : nar ≠ none → files₀ (relayTemporaryPath settings 1) ≠ some .dir
  outside : nar ≠ none → FileSystem.inside dest (relayTemporaryPath settings 1) = false
  nonempty : nar ≠ some []

/-- The relay gives up at a frame. -/
structure StepFailed (settings : RelaySettings) (nar : Option Bytes) (dest : Text)
    (files₀ : FileSystem) (world : LineWorld) (s : RelayState)
    (o : Outcome RelayState RelayEffect RelayFailure Unit) : Prop where
  result : ∃ failure, failure ≠ .waits ∧ o.result = .error failure
  notDone : ¬ (world.Done ∧ Deliverable settings nar dest files₀)
  trace : ∀ e ∈ o.trace, ∃ part n, world.destination.copy = .cut n ∧ part <+: nar.getD [] ∧
    e = .write ⟨.destination, dest, part, false⟩
  delivered : s.narDest = none → s.dests = [] → o.state.files = s.files
  read : dest ≠ relayTemporaryPath settings 1 → (∀ n, world.destination.copy ≠ .cut n) →
    o.state.files.read dest = s.files.read dest ∨ o.state.files.read dest = none

/-- A frame has been handled. -/
structure StepDone (mode : RelayMode) (settings : RelaySettings) (nar : Option Bytes) (dest : Text)
    (f : ReplyFrame) (s : RelayState) (o : Outcome RelayState RelayEffect RelayFailure Unit) : Prop where
  result : o.result = .ok ()
  trace : o.trace = f.effects dest (relayTemporaryPath settings 1) nar
  saw : o.state.sawSubstituteTerminalReply =
    (s.sawSubstituteTerminalReply || decide (mode = .substitute) && f.terminal)

/-- The line of a frame is decoded again. -/
theorem forwardLine_bytes (world : LineWorld) (f : ReplyFrame) :
    forwardLine mode settings world f.bytes = handleLine mode settings world (f.text ++ ['\n']) := by
  unfold forwardLine ReplyFrame.bytes
  rw [Text.fromUtf8_utf8]

/-- A write to a file descriptor changes nothing else. -/
theorem writeFd_eq (channel : Bytes → RelayEffect) (failure : RelayFailure) (buf : Bytes)
    (written : Bool) (s : RelayState) :
    writeFd channel failure buf written s =
      if written = true then ⟨[channel buf], s, .ok ()⟩ else ⟨[], s, .error failure⟩ := by
  cases written with
  | true => rfl
  | false => rfl

/-- A reply line for file descriptor 4. -/
theorem handleLine_fd4_eq (world : LineWorld) (data : Text) (s : RelayState) :
    handleLine mode settings world (fd4Prefix ++ data) s =
      writeFd .fd4 .fd4WriteFailed (Text.utf8 data) world.written { s with
        sawSubstituteTerminalReply := s.sawSubstituteTerminalReply ||
          decide (mode = .substitute) && isSubstituteTerminalReply data } := by
  rw [handleLine_fd4]
  by_cases hseen : mode = .substitute ∧ isSubstituteTerminalReply data = true
  · simp only [hseen.1, hseen.2, decide_true, Bool.and_self, Bool.or_true]
    rfl
  · have hnot : (decide (mode = .substitute) && isSubstituteTerminalReply data) = false := by
      rw [Bool.and_eq_false_iff, decide_eq_false_iff_not]
      by_cases hmode : mode = .substitute
      · exact Or.inr (by simpa [hmode] using hseen)
      · exact Or.inl hmode
    simp only [if_neg hseen, hnot, Bool.or_false]

/-- A plain frame. -/
theorem forwardLine_plain {f : ReplyFrame} (hplain : f.Plain) (world : LineWorld) (s : RelayState) :
    ∃ channel failure buf, failure ≠ .waits ∧
      [channel buf] = f.effects dest (relayTemporaryPath settings 1) nar ∧
      forwardLine mode settings world f.bytes s =
        writeFd channel failure buf world.written { s with
          sawSubstituteTerminalReply := s.sawSubstituteTerminalReply ||
            decide (mode = .substitute) && f.terminal } := by
  rw [forwardLine_bytes]
  cases f with
  | fd4 line =>
      refine ⟨.fd4, .fd4WriteFailed, _, by simp, rfl, ?_⟩
      rw [ReplyFrame.text, List.append_assoc, handleLine_fd4_eq]
      rfl
  | fd4Empty =>
      refine ⟨.fd4, .fd4WriteFailed, _, by simp, rfl, ?_⟩
      rw [ReplyFrame.text, handleLine_fd4Empty]
      simp [ReplyFrame.terminal]
  | out line =>
      refine ⟨.stdout, .stdoutWriteFailed, _, by simp, rfl, ?_⟩
      rw [ReplyFrame.text, List.append_assoc, handleLine_out]
      simp [ReplyFrame.terminal]
  | nar chunk => exact absurd hplain id
  | narEnd => exact absurd hplain id

/-! ### One frame -/

section

variable {rest : List ReplyFrame} {f : ReplyFrame} {s : RelayState} {world : LineWorld}

/-- The stage does not depend on the replies that were seen. -/
theorem Stage.with_saw (h : Stage settings nar dest files₀ rest s) (saw : Bool) :
    Stage settings nar dest files₀ rest { s with sawSubstituteTerminalReply := saw } := by
  cases h with
  | before narFile narDest narIndex files dests layout =>
      exact .before narFile narDest narIndex files dests layout
  | collecting hnar hcollecting hcollected hplain hfiles hdests =>
      exact .collecting hnar ⟨hcollecting.narFile, hcollecting.narDest, hcollecting.narTempPath,
        hcollecting.read⟩ hcollected hplain hfiles hdests
  | delivered hnar hdelivered hdests hplain =>
      exact .delivered hnar ⟨hdelivered.narFile, hdelivered.narDest, hdelivered.read⟩ hdests hplain

theorem step_plain (hplain : f.Plain) (hrest : Stage settings nar dest files₀ rest s) :
    StepFailed settings nar dest files₀ world s (forwardLine mode settings world f.bytes s) ∨
      StepDone mode settings nar dest f s (forwardLine mode settings world f.bytes s) ∧
        Stage settings nar dest files₀ rest (forwardLine mode settings world f.bytes s).state := by
  obtain ⟨channel, failure, buf, hwaits, heffects, hrun⟩ :=
    @forwardLine_plain mode settings nar dest f hplain world s
  rw [hrun, writeFd_eq]
  cases hwritten : world.written with
  | true => exact Or.inr ⟨⟨rfl, heffects, rfl⟩, hrest.with_saw _⟩
  | false =>
      refine Or.inl ⟨⟨failure, hwaits, rfl⟩, ?_, fun e he => absurd he List.not_mem_nil,
        fun _ _ => rfl, fun _ _ => Or.inl rfl⟩
      intro hdone
      cases hwritten.symm.trans hdone.1.written

/-- A chunk for a file that is open. -/
theorem step_chunk {narData bytes chunk : Bytes} {chunks : List Bytes} {post : List ReplyFrame}
    {s' : RelayState} (hnar : nar = some narData)
    (hcollecting : Collecting s' dest (relayTemporaryPath settings 1) bytes)
    (hcollected : bytes ++ (chunk :: chunks).flatten = narData) (hplain : ∀ g ∈ post, g.Plain)
    (hfiles : ∀ path, path ≠ relayTemporaryPath settings 1 → s'.files path = files₀ path)
    (hsame : ∀ path, path ≠ relayTemporaryPath settings 1 → s'.files path = s.files path)
    (hdests : s'.dests = []) (hsaw : s'.sawSubstituteTerminalReply = s.sawSubstituteTerminalReply)
    (hbusy : s.narDest = none → s.dests = [] → False)
    (hrun : forwardLine mode settings world (ReplyFrame.nar chunk).bytes s =
      appendChunk world.append (Base64.encode chunk ++ ['\n']) s') :
    StepFailed settings nar dest files₀ world s
        (forwardLine mode settings world (ReplyFrame.nar chunk).bytes s) ∨
      StepDone mode settings nar dest (.nar chunk) s
          (forwardLine mode settings world (ReplyFrame.nar chunk).bytes s) ∧
        Stage settings nar dest files₀ (chunks.map .nar ++ .narEnd :: post)
          (forwardLine mode settings world (ReplyFrame.nar chunk).bytes s).state := by
  obtain ⟨files', hfiles', hcase⟩ :=
    appendChunk_of_collecting hcollecting world.append (decode_chunk chunk)
  rw [hrun]
  rcases hcase with ⟨hfailed, hcut⟩ | ⟨hread, hdone⟩
  · rw [hfailed]
    refine Or.inl ⟨⟨.temporaryWriteFailed, by simp, rfl⟩, fun hall => hcut hall.1.append,
      fun e he => absurd he List.not_mem_nil, fun h h' => absurd (hbusy h h') id, fun hne _ => Or.inl ?_⟩
    exact FileSystem.read_congr ((hfiles' dest hne).trans (hsame dest hne))
  · rw [hdone]
    refine Or.inr ⟨⟨rfl, rfl, ?_⟩, .collecting hnar ⟨hcollecting.narFile, hcollecting.narDest,
      hcollecting.narTempPath, hread⟩ ?_ hplain (fun path hne => (hfiles' path hne).trans (hfiles path hne))
      hdests⟩
    · simp [ReplyFrame.terminal, hsaw]
    · rw [List.append_assoc]
      exact hcollected

theorem forwardLine_nar (chunk : Bytes) :
    forwardLine mode settings world (ReplyFrame.nar chunk).bytes =
      receiveChunk settings world (Base64.encode chunk ++ ['\n']) := by
  rw [forwardLine_bytes, ReplyFrame.text, List.append_assoc, handleLine_nar]

theorem receiveChunk_of_opened {data : Text} {s' : RelayState}
    (hopen : openNar settings world.opened s = ⟨[], s', .ok ()⟩) :
    receiveChunk settings world data s = appendChunk world.append data s' := by
  have hok : (openNar settings world.opened s).result = .ok () := by rw [hopen]
  unfold receiveChunk
  rw [Action.bind_of_ok hok, hopen]
  rfl

/-- The end of a NAR that has been collected. -/
theorem step_narEnd {narData : Bytes} (hnar : nar = some narData)
    (hcollecting : Collecting s dest (relayTemporaryPath settings 1) narData)
    (hdests : s.dests = []) (hplain : ∀ g ∈ rest, g.Plain) :
    StepFailed settings nar dest files₀ world s
        (forwardLine mode settings world ReplyFrame.narEnd.bytes s) ∨
      StepDone mode settings nar dest .narEnd s
          (forwardLine mode settings world ReplyFrame.narEnd.bytes s) ∧
        Stage settings nar dest files₀ rest
          (forwardLine mode settings world ReplyFrame.narEnd.bytes s).state := by
  rw [forwardLine_bytes, ReplyFrame.text, handleLine_narEnd]
  rcases finishNar_of_collecting hcollecting world with hfailed | hdone
  · refine Or.inl ⟨hfailed.result, fun hall => hfailed.notDone ⟨hall.1, hall.2.outside (by rw [hnar]; simp)⟩,
      ?_,
      fun h _ => absurd (hcollecting.narDest.symm.trans h) (by simp), fun _ => hfailed.read⟩
    rw [hnar]
    exact hfailed.trace
  · refine Or.inr ⟨⟨hdone.result, ?_, ?_⟩,
      .delivered hnar hdone.delivered (hdone.dests.trans hdests) hplain⟩
    · rw [hdone.trace, hnar]
      rfl
    · rw [hdone.saw]
      simp [ReplyFrame.terminal]

/-- The end of an empty NAR: no chunk has opened a file. -/
theorem step_emptyNar (hnar : nar = some []) (hfile : s.narFile = none) (hdest : s.narDest = none) :
    StepFailed settings nar dest files₀ world s
      (forwardLine mode settings world ReplyFrame.narEnd.bytes s) := by
  have hrun : finishNar world s = ⟨[], s, .error .narEndWithoutDestination⟩ := by
    have hget : finishNar world s = Action.bind Action.get (fun s => _) s := rfl
    rw [hget]
    simp only [Action.bind, Action.get, hfile, hdest]
    rfl
  rw [forwardLine_bytes, ReplyFrame.text, handleLine_narEnd, hrun]
  refine ⟨⟨_, by simp, rfl⟩, fun hall => hall.2.nonempty hnar,
    fun e he => absurd he List.not_mem_nil, fun _ _ => rfl, fun _ _ => Or.inl rfl⟩

/-- **Step lemma.** -/
theorem Stage.step (h : Stage settings nar dest files₀ (f :: rest) s) :
    StepFailed settings nar dest files₀ world s (forwardLine mode settings world f.bytes s) ∨
      StepDone mode settings nar dest f s (forwardLine mode settings world f.bytes s) ∧
        Stage settings nar dest files₀ rest (forwardLine mode settings world f.bytes s).state := by
  generalize hframes : f :: rest = frames at h
  cases h with
  | before narFile narDest narIndex files dests layout =>
      subst hframes
      rcases layout.cons_cases with ⟨hplain, hrest⟩ | ⟨narData, post, hnar, hstart, hpost⟩
      · exact step_plain hplain (.before narFile narDest narIndex files dests hrest)
      · have hdests : s.dests = [dest] := dests (by rw [hnar]; simp)
        have hall : (narChunks narData).flatten = narData := flatten_chunks (by decide) narData
        rw [narFrames] at hstart
        cases hchunks : narChunks narData with
        | nil =>
            rw [hchunks] at hstart hall
            obtain ⟨rfl, rfl⟩ := List.cons.inj hstart
            obtain rfl : [] = narData := hall
            exact Or.inl (step_emptyNar hnar narFile narDest)
        | cons chunk chunks =>
            rw [hchunks] at hstart hall
            obtain ⟨rfl, hrest⟩ := List.cons.inj hstart
            obtain rfl : rest = chunks.map .nar ++ .narEnd :: post :=
              hrest.trans (List.append_assoc (chunks.map .nar) [.narEnd] post)
            rcases openNar_of_dests narFile hdests world.opened with
              ⟨hfailed, hnot⟩ | ⟨s', hopen, hcollecting, hdests', hsaw, hsame⟩
            · have hrun : receiveChunk settings world (Base64.encode chunk ++ ['\n']) s =
                  ⟨[], s, .error (.openTemporaryFailed (relayTemporaryPath settings (s.narIndex + 1)))⟩ := by
                unfold receiveChunk
                rw [Action.bind_of_error (by rw [hfailed]), hfailed]
              rw [forwardLine_nar, hrun]
              refine Or.inl ⟨⟨_, by simp, rfl⟩, fun hdone => hnot ⟨hdone.1.opened, ?_⟩,
                fun e he => absurd he List.not_mem_nil, fun _ _ => rfl, fun _ _ => Or.inl rfl⟩
              rw [narIndex, files]
              exact hdone.2.temporary (by rw [hnar]; simp)
            · rw [narIndex] at hcollecting hsame
              refine step_chunk hnar hcollecting hall hpost ?_ hsame hdests' hsaw ?_ ?_
              · intro path hne
                rw [hsame path hne, files]
              · intro _ hempty
                rw [hdests] at hempty
                cases hempty
              · rw [forwardLine_nar, receiveChunk_of_opened hopen]
  | @collecting _ narData bytes chunks post hnar hcollecting hcollected hplain hfiles hdests =>
      cases chunks with
      | nil =>
          obtain ⟨rfl, rfl⟩ := List.cons.inj hframes
          rw [List.flatten_nil, List.append_nil] at hcollected
          subst hcollected
          exact step_narEnd hnar hcollecting hdests hplain
      | cons chunk chunks =>
          obtain ⟨rfl, rfl⟩ := List.cons.inj hframes
          refine step_chunk hnar hcollecting hcollected hplain hfiles (fun _ _ => rfl) hdests rfl ?_ ?_
          · intro hnone _
            cases hcollecting.narDest.symm.trans hnone
          · rw [forwardLine_nar, receiveChunk_of_opened (openNar_of_collecting hcollecting _)]
  | delivered hnar hdelivered hdests hplain =>
      subst hframes
      rw [List.forall_mem_cons] at hplain
      exact step_plain hplain.1 (.delivered hnar hdelivered hdests hplain.2)

end

/-! ### A stream of frames -/

/-- The effects of frames that were all handled. -/
def allEffects (settings : RelaySettings) (nar : Option Bytes) (dest : Text) (frames : List ReplyFrame) :
    List RelayEffect :=
  frames.flatMap fun f => f.effects dest (relayTemporaryPath settings 1) nar

/-- **Run lemma.** The relay handles all frames, or it gives up at one of them. -/
theorem Stage.run {frames rest : List ReplyFrame} {s : RelayState}
    (h : Stage settings nar dest files₀ (frames ++ rest) s) (worlds : Nat → LineWorld) (n : Nat)
    (more : List Bytes) :
    (∃ done f todo k s' o, frames = done ++ f :: todo ∧
        Stage settings nar dest files₀ (f :: todo ++ rest) s' ∧
        StepFailed settings nar dest files₀ (worlds k) s' o ∧
        forwardLoop mode settings worlds n (frames.map ReplyFrame.bytes ++ more) s =
          ⟨allEffects settings nar dest done ++ o.trace, o.state, o.result⟩) ∨
      ∃ s', Stage settings nar dest files₀ rest s' ∧
        s'.sawSubstituteTerminalReply = (s.sawSubstituteTerminalReply ||
          decide (mode = .substitute) && frames.any ReplyFrame.terminal) ∧
        forwardLoop mode settings worlds n (frames.map ReplyFrame.bytes ++ more) s =
          ⟨allEffects settings nar dest frames ++
              (forwardLoop mode settings worlds (n + frames.length) more s').trace,
            (forwardLoop mode settings worlds (n + frames.length) more s').state,
            (forwardLoop mode settings worlds (n + frames.length) more s').result⟩ := by
  induction frames generalizing s n with
  | nil =>
      refine Or.inr ⟨s, h, by simp, ?_⟩
      rfl
  | cons f frames ih =>
      have hloop : forwardLoop mode settings worlds n ((f :: frames).map ReplyFrame.bytes ++ more) s =
          Action.bind (forwardLine mode settings (worlds n) f.bytes) (fun _ =>
            forwardLoop mode settings worlds (n + 1) (frames.map ReplyFrame.bytes ++ more)) s := rfl
      rw [hloop]
      rcases @Stage.step mode settings nar dest files₀ (frames ++ rest) f s (worlds n) h with hfailed | ⟨hdone, hnext⟩
      · refine Or.inl ⟨[], f, frames, n, s, _, rfl, h, hfailed, ?_⟩
        obtain ⟨failure, -, hresult⟩ := hfailed.result
        simp only [Action.bind, hresult]
        rfl
      · simp only [Action.bind, hdone.result]
        rcases ih hnext (n + 1) with
          ⟨done, g, todo, k, s', o, hsplit, hstage, hfailed, hrun⟩ | ⟨s', hstage, hsaw, hrun⟩
        · refine Or.inl ⟨f :: done, g, todo, k, s', o, by rw [hsplit]; rfl, hstage, hfailed, ?_⟩
          rw [hrun, hdone.trace, ← List.append_assoc]
          rfl
        · refine Or.inr ⟨s', hstage, ?_, ?_⟩
          · rw [hsaw, hdone.saw, List.any_cons, Bool.and_or_distrib_left, Bool.or_assoc]
          · rw [hrun, hdone.trace, ← List.append_assoc, List.length_cons, Nat.add_assoc n 1,
              Nat.add_comm 1]
            rfl

end GuixP2p
