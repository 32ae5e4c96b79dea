import GuixP2p.Extension.Socket

/-!
# GuixP2p.Relay.RoundTrip

**Framing round-trips.** Whatever calls a socket writer gets, both readers of its stream
see what was written: the relay puts each line and the NAR where they belong, and the
extension reads each reply to a query up to its end (`framing_round_trip`).
-/

namespace GuixP2p

open GuixP2p.Lib

/-! ### Channels -/

namespace RelayEffect

def fd4? : RelayEffect → Option Bytes
  | .fd4 bytes => some bytes
  | _ => none

def stdout? : RelayEffect → Option Bytes
  | .stdout bytes => some bytes
  | _ => none

/-- Bytes that were collected in the temporary file. -/
def collected? : RelayEffect → Option Bytes
  | .write ⟨.temporary, _, bytes, _⟩ => some bytes
  | _ => none

end RelayEffect

section

variable {settings : RelaySettings} {nar : Option Bytes} {dest : Text}

theorem allEffects_cons (f : ReplyFrame) (frames : List ReplyFrame) :
    allEffects settings nar dest (f :: frames) =
      f.effects dest (relayTemporaryPath settings 1) nar ++ allEffects settings nar dest frames := rfl

theorem allEffects_append (frames frames' : List ReplyFrame) :
    allEffects settings nar dest (frames ++ frames') =
      allEffects settings nar dest frames ++ allEffects settings nar dest frames' :=
  List.flatMap_append

theorem fd4_allEffects (frames : List ReplyFrame) :
    (allEffects settings nar dest frames).filterMap RelayEffect.fd4? =
      (frames.filterMap ReplyFrame.fd4Line).map fun line => Text.utf8 (line ++ ['\n']) := by
  induction frames with
  | nil => rfl
  | cons f frames ih =>
      rw [allEffects_cons, List.filterMap_append, ih]
      cases f with
      | fd4Empty =>
          rw [ReplyFrame.effects, ← utf8_newline]
          rfl
      | _ => rfl

theorem stdout_allEffects (frames : List ReplyFrame) :
    (allEffects settings nar dest frames).filterMap RelayEffect.stdout? =
      (frames.filterMap ReplyFrame.outLine).map fun line => Text.utf8 (line ++ ['\n']) := by
  induction frames with
  | nil => rfl
  | cons f frames ih =>
      rw [allEffects_cons, List.filterMap_append, ih]
      cases f with
      | _ => rfl

theorem collected_of_plain {frames : List ReplyFrame} (h : ∀ f ∈ frames, f.Plain) :
    (allEffects settings nar dest frames).filterMap RelayEffect.collected? = [] := by
  induction frames with
  | nil => rfl
  | cons f frames ih =>
      rw [List.forall_mem_cons] at h
      rw [allEffects_cons, List.filterMap_append, ih h.2, List.append_nil]
      cases f with
      | nar chunk => exact absurd h.1 id
      | narEnd => exact absurd h.1 id
      | _ => rfl

theorem collected_narFrames (narData : Bytes) :
    ((allEffects settings nar dest (narFrames narData)).filterMap RelayEffect.collected?).flatten =
      narData := by
  have hchunks : ∀ chunks : List Bytes,
      (allEffects settings nar dest (chunks.map .nar)).filterMap RelayEffect.collected? = chunks := by
    intro chunks
    induction chunks with
    | nil => rfl
    | cons chunk chunks ih =>
        rw [List.map_cons, allEffects_cons, List.filterMap_append, ih]
        rfl
  have hend : (allEffects settings nar dest [.narEnd]).filterMap RelayEffect.collected? = [] := rfl
  rw [narFrames, allEffects_append, List.filterMap_append, hchunks, hend, List.append_nil]
  exact flatten_chunks (by decide) narData

/-- The chunks on the stream are the NAR. -/
theorem collected_of_layout {frames : List ReplyFrame} (h : Layout nar frames) :
    ((allEffects settings nar dest frames).filterMap RelayEffect.collected?).flatten = nar.getD [] := by
  cases nar with
  | none => rw [collected_of_plain h]; rfl
  | some narData =>
      obtain ⟨before, after, rfl, hbefore, hafter⟩ := h
      rw [allEffects_append, allEffects_append, List.filterMap_append, List.filterMap_append,
        collected_of_plain hbefore, collected_of_plain hafter, List.nil_append, List.append_nil,
        collected_narFrames]
      rfl

end

/-! ### The relay -/

section

variable {mode : RelayMode} {settings : RelaySettings} {nar : Option Bytes} {dest : Text}
  {files : FileSystem} {frames : List ReplyFrame}

/-- The bytes of frames are taken apart into their lines. -/
theorem splitInclusive_sendFrames (h : ∀ f ∈ frames, f.OneLine) :
    splitInclusive 10 (sendFrames frames) = frames.map ReplyFrame.bytes := by
  have hlines : ∀ line ∈ (frames.map ReplyFrame.text).map Text.utf8, 10 ∉ line := by
    intro line hline
    rw [List.map_map] at hline
    obtain ⟨f, hf, rfl⟩ := List.mem_map.mp hline
    exact Text.newline_not_mem_utf8 (h f hf)
  rw [sendFrames, Text.sendLines, splitInclusive_joinLines hlines, List.map_map, List.map_map]
  refine List.map_congr_left fun f _ => ?_
  simp [ReplyFrame.bytes, utf8_newline]

/-- The end of a NAR is on the stream exactly if there is one. -/
theorem Layout.narEnd_mem_iff (h : Layout nar frames) : ReplyFrame.narEnd ∈ frames ↔ nar ≠ none := by
  cases nar with
  | none =>
      constructor
      · intro hmem
        exact absurd (h _ hmem) id
      · intro hne
        exact absurd rfl hne
  | some narData =>
      obtain ⟨before, after, rfl, -, -⟩ := h
      simp [narFrames]

/-- When the end of a NAR cannot come any more, none is on its way, and the one that was is
delivered. -/
theorem Stage.settled {s : RelayState} (h : Stage settings nar dest files frames s)
    (hframes : ReplyFrame.narEnd ∉ frames) :
    s.narDest = none ∧ ∀ narData, nar = some narData → s.files.read dest = some narData := by
  cases h with
  | before narFile narDest narIndex hfiles dests layout =>
      refine ⟨narDest, fun narData hnar => ?_⟩
      exact absurd (layout.narEnd_mem_iff.mpr (by simp [hnar])) hframes
  | collecting => simp at hframes
  | delivered hnar hdelivered =>
      refine ⟨hdelivered.narDest, fun narData hnar' => ?_⟩
      rw [hnar] at hnar'
      rw [← Option.some.inj hnar']
      exact hdelivered.read

/-- The checks at the end, when no NAR is on its way. -/
theorem finishRelay_of_narDest {s : RelayState} (h : s.narDest = none) (removeTemporary : Bool) :
    finishRelay removeTemporary s = ⟨[], s,
      if s.sawSubstituteTerminalReply = true then .ok () else .error .closedBeforeTerminalReply⟩ := by
  have hrun : finishRelay removeTemporary s = Action.bind Action.get (fun s => _) s := rfl
  rw [hrun]
  simp only [Action.bind, Action.get, h]
  cases hsaw : s.sawSubstituteTerminalReply with
  | true => rfl
  | false => rfl

/-- Everything goes well for the relay: the connection does not break, what it writes is
written, and it can deliver the NAR, if there is one. -/
structure RelayWorld.Done (world : RelayWorld) (settings : RelaySettings) (nar : Option Bytes)
    (dest : Text) (files : FileSystem) : Prop where
  broken : world.broken = false
  lines : ∀ n, (world.lines n).Done
  deliverable : Deliverable settings nar dest files

/-- **The relay handles a whole stream.** -/
theorem forwardReplies_frames {world : RelayWorld} (hworld : world.Done settings nar dest files)
    (hlines : ∀ f ∈ frames, f.OneLine) {s : RelayState} (h : Stage settings nar dest files frames s) :
    ∃ s', forwardReplies mode settings world (sendFrames frames) s =
        ⟨allEffects settings nar dest frames, s', if s'.sawSubstituteTerminalReply = true then .ok ()
          else .error .closedBeforeTerminalReply⟩ ∧
      ∀ narData, nar = some narData → s'.files.read dest = some narData := by
  have hreceived : receivedLines world (sendFrames frames) = frames.map ReplyFrame.bytes ++ [] := by
    simp [receivedLines, hworld.broken, splitInclusive_sendFrames hlines]
  have hrun : forwardReplies mode settings world (sendFrames frames) s =
      Action.bind (forwardLoop mode settings world.lines 0 (receivedLines world (sendFrames frames)))
        (fun _ => if world.broken then Action.fault .readFailed
          else finishRelay world.removeTemporary) s := rfl
  rw [hrun, hreceived]
  have hstart : Stage settings nar dest files (frames ++ []) s := by rwa [List.append_nil]
  rcases @Stage.run mode settings nar dest files frames [] s hstart world.lines 0 [] with
    ⟨done, f, todo, k, s', o, -, -, hfailed, -⟩ | ⟨s', hend, -, hloop⟩
  · exact absurd ⟨hworld.lines k, hworld.deliverable⟩ hfailed.notDone
  · obtain ⟨hnarDest, hread⟩ := hend.settled List.not_mem_nil
    refine ⟨s', ?_, hread⟩
    have hnil : forwardLoop mode settings world.lines (0 + frames.length) [] s' = ⟨[], s', .ok ()⟩ := rfl
    rw [hnil] at hloop
    have hfinish := finishRelay_of_narDest hnarDest world.removeTemporary
    rw [Action.bind, hloop]
    simp only [hworld.broken, Bool.false_eq_true, if_false, hfinish, List.append_nil]

end

/-- Where the relay starts. -/
theorem Stage.start {mode : RelayMode} {settings : RelaySettings} {nar : Option Bytes} {dest stdin : Text}
    {files : FileSystem} {frames : List ReplyFrame} (hlayout : Layout nar frames)
    (hdest : nar ≠ none → mode = .substitute ∧
      substituteDestination (Text.trimEnd stdin) = some dest) :
    Stage settings nar dest files frames (startRelay mode stdin files) := by
  refine .before rfl rfl rfl rfl (fun hnar => ?_) hlayout
  obtain ⟨rfl, hsome⟩ := hdest hnar
  simp [startRelay, hsome]

/-- **Framing round-trips.** The relay hands on exactly the lines and the NAR that the calls
wrote, each on its channel and in order, and the NAR gets to its destination; the extension
reads from the replies to some queries the lines of each, up to the end of the reply. -/
theorem framing_round_trip :
    (∀ (calls : List SocketCall) (nar : Option Bytes), (∀ call ∈ calls, call.OneLine) →
      calls.filterMap SocketCall.nar? = nar.toList →
      ∀ (mode : RelayMode) (settings : RelaySettings) (world : RelayWorld) (stdin dest : Text)
        (files : FileSystem), world.Done settings nar dest files →
        (nar ≠ none → mode = .substitute ∧
          substituteDestination (Text.trimEnd stdin) = some dest) →
        let o := forward mode settings world (some stdin) files (produced calls)
        o.trace.filterMap RelayEffect.fd4? =
            (calls.flatMap SocketCall.fd4Lines).map (fun line => Text.utf8 (line ++ ['\n'])) ∧
          o.trace.filterMap RelayEffect.stdout? =
            (calls.flatMap SocketCall.traceLines).map (fun line => Text.utf8 (line ++ ['\n'])) ∧
          (o.trace.filterMap RelayEffect.collected?).flatten = nar.getD [] ∧
          (∀ narData, nar = some narData → o.state.files.read dest = some narData) ∧
          (o.result = .ok () ∨ o.result = .error .closedBeforeTerminalReply)) ∧
    ∀ queries : List (List SocketCall),
      (∀ query ∈ queries, ∀ call ∈ query, call.InReply ∧ call.OneLine) →
      ∃ text, Text.fromUtf8 (producedReplies queries) = some text ∧
        handleQueryReplies queries.length (portLines text) =
          queries.mapIdx (fun k query => ⟨query.flatMap SocketCall.fd4Lines ++ [[]],
            query.flatMap SocketCall.traceLines, true, replyLines (queries.drop (k + 1))⟩) ∧
        ∀ query later, queries = query :: later →
          socketQueryLines (portLines text) = ⟨query.flatMap SocketCall.fd4Lines,
            query.flatMap SocketCall.traceLines, true, replyLines later⟩ := by
  constructor
  · intro calls nar hlines hnar mode settings world stdin dest files hworld hdest
    obtain ⟨frames, hbytes, hlayout, hone, hfd4, hout⟩ := produced_frames hlines hnar
    obtain ⟨s', hrun, hread⟩ := @forwardReplies_frames mode settings nar dest files frames world
      hworld hone _ (@Stage.start mode settings nar dest stdin files frames hlayout hdest)
    have hforward : forward mode settings world (some stdin) files (produced calls) =
        forwardReplies mode settings world (sendFrames frames) (startRelay mode stdin files) := by
      rw [hbytes]
      cases mode with
      | query => rfl
      | substitute => rfl
    rw [hforward, hrun]
    refine ⟨?_, ?_, collected_of_layout hlayout, hread, ?_⟩
    · rw [fd4_allEffects, hfd4]
    · rw [stdout_allEffects, hout]
    · by_cases hsaw : s'.sawSubstituteTerminalReply = true
      · exact Or.inl (if_pos hsaw)
      · exact Or.inr (if_neg hsaw)
  · intro queries hqueries
    have hreply : ∀ query ∈ queries, ∀ call ∈ query, call.InReply :=
      fun query hquery call hcall => (hqueries query hquery call hcall).1
    obtain ⟨text, htext, hlines⟩ := portLines_producedReplies hreply
      fun query hquery call hcall => (hqueries query hquery call hcall).2
    refine ⟨text, htext, ?_, fun query later heq => ?_⟩
    · rw [hlines, handleQueryReplies_eq hreply]
    · subst heq
      rw [List.forall_mem_cons] at hreply
      have hfirst := @readReply_frames true [] (replyLines later) query hreply.1
      rw [List.append_nil] at hfirst
      rw [hlines]
      exact hfirst

/-- A relay for which everything goes well. -/
def sampleRelayWorld : RelayWorld where
  lines := fun _ =>
    { written := true
      opened := true
      append := .done
      flushed := true
      destination := ⟨false, none, true, .done⟩
      removeTemporary := true }
  broken := false
  removeTemporary := true

def sampleRelayRequest : Text := "substitute /gnu/store/a-b /d".toList

/-- Lines, an empty one among them, and a NAR past the buffer. -/
def sampleCalls : List SocketCall :=
  [.writeTrace "@ t".toList, .writeLine [], .flushSocket, .writeNarDataToSocket [1, 2, 3],
    .writeLine "success x".toList, .writeEnd]

theorem sampleRelayWorld_done :
    sampleRelayWorld.Done ⟨"/tmp".toList, 7⟩ (some [1, 2, 3]) "/d".toList (fun _ => none) :=
  ⟨rfl, fun _ => ⟨rfl, rfl, rfl, rfl, ⟨rfl, rfl, rfl, rfl⟩⟩,
    ⟨fun _ => by decide, fun _ => by decide, by decide⟩⟩

theorem framing_round_trip_sampleCalls :
    ((forward .substitute ⟨"/tmp".toList, 7⟩ sampleRelayWorld (some sampleRelayRequest) (fun _ => none)
        (produced sampleCalls)).trace.filterMap RelayEffect.fd4? =
      [[10], Text.utf8 "success x\n".toList, [10]]) ∧
    ∃ text, Text.fromUtf8 (producedReplies [[.writeLine "/p".toList, .writeLine []], []]) = some text ∧
      socketQueryLines (portLines text) = ⟨["/p".toList, []], [], true, [fd4Prefix]⟩ := by
  constructor
  · have h := (framing_round_trip.1 sampleCalls (some [1, 2, 3]) (by simp [sampleCalls, SocketCall.OneLine])
      rfl .substitute ⟨"/tmp".toList, 7⟩ sampleRelayWorld sampleRelayRequest "/d".toList (fun _ => none)
      sampleRelayWorld_done fun _ => ⟨rfl, by decide⟩).1
    exact h
  · obtain ⟨text, htext, -, hfirst⟩ := framing_round_trip.2 [[.writeLine "/p".toList, .writeLine []], []]
      (by simp [SocketCall.InReply, SocketCall.OneLine])
    exact ⟨text, htext, hfirst _ _ rfl⟩

end GuixP2p
