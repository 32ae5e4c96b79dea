import GuixP2p.Lib.Base64
import GuixP2p.Lib.Lines
import GuixP2p.Daemon.Protocol

/-!
# GuixP2p.Daemon.SocketWriter

`ReplyWriter::Socket` of `src/daemon/protocol.rs`, down to the bytes. Replies for file
descriptor 4, lines for the build log and NAR data share one stream of lines, told apart by
their beginnings. Lines go through a buffer; NAR data may go past it.

A `ReplyFrame` is a line of the stream for what it says. `produced_frames` is the encoder's
specification: the frames on the stream, channel by channel in the order of the calls, with
the frames of a NAR next to each other.
-/

namespace GuixP2p

open GuixP2p.Lib

/-! ### Line beginnings -/

def fd4Prefix : Text := "fd4:".toList

def fd4EmptyLine : Text := "fd4-empty:".toList

def outPrefix : Text := "out:".toList

def narPrefix : Text := "nar:".toList

def narEndLine : Text := "nar-end".toList

theorem fd4Prefix_eq : fd4Prefix = ['f', 'd', '4', ':'] := by decide

theorem fd4EmptyLine_eq : fd4EmptyLine = ['f', 'd', '4', '-', 'e', 'm', 'p', 't', 'y', ':'] := by
  decide

theorem outPrefix_eq : outPrefix = ['o', 'u', 't', ':'] := by decide

theorem narPrefix_eq : narPrefix = ['n', 'a', 'r', ':'] := by decide

theorem narEndLine_eq : narEndLine = ['n', 'a', 'r', '-', 'e', 'n', 'd'] := by decide

/-! ### The writer -/

/-- A reply writer for a socket whose writes succeed: what is buffered, and what was sent. -/
structure SocketWriter where
  buf : Bytes
  sent : Bytes

def writeBufferedLine (buf : Bytes) (line start : Text) : Bytes :=
  buf ++ Text.utf8 start ++ Text.utf8 line ++ [10]

/-- The `nar:` line of a chunk. -/
def narLineBytes (chunk : Bytes) : Bytes :=
  Text.utf8 narPrefix ++ Text.utf8 (Base64.encode chunk) ++ [10]

def narEndBytes : Bytes := Text.utf8 narEndLine ++ [10]

/-- A NAR in lines. -/
def narDataBytes (narData : Bytes) : Bytes := (narChunks narData).flatMap narLineBytes ++ narEndBytes

namespace SocketWriter

def new : SocketWriter := ⟨[], []⟩

/-- Write a structured reply line. An empty one is spelled out, to tell it from the end of
a reply. -/
def writeLine (w : SocketWriter) (line : Text) : SocketWriter :=
  if line = [] then { w with buf := writeBufferedLine w.buf [] fd4EmptyLine }
  else { w with buf := writeBufferedLine w.buf line fd4Prefix }

/-- Write a trace output line. -/
def writeTrace (w : SocketWriter) (line : Text) : SocketWriter :=
  { w with buf := writeBufferedLine w.buf line outPrefix }

def writeEnd (w : SocketWriter) : SocketWriter :=
  { w with buf := writeBufferedLine w.buf [] fd4Prefix }

/-- Send raw NAR bytes to a socket relay. -/
def writeNarData (w : SocketWriter) (narData : Bytes) : SocketWriter :=
  { w with buf := w.buf ++ narDataBytes narData }

/-- Stream raw NAR bytes to a socket relay, past the buffer. -/
def writeNarDataToSocket (w : SocketWriter) (narData : Bytes) : SocketWriter :=
  { w with sent := w.sent ++ narDataBytes narData }

def flushSocket (w : SocketWriter) : SocketWriter := ⟨[], w.sent ++ w.buf⟩

end SocketWriter

inductive SocketCall
  | writeLine (line : Text)
  | writeTrace (line : Text)
  | writeEnd
  | writeNarData (narData : Bytes)
  | writeNarDataToSocket (narData : Bytes)
  | flushSocket
  deriving DecidableEq

namespace SocketCall

def run (w : SocketWriter) : SocketCall → SocketWriter
  | .writeLine line => w.writeLine line
  | .writeTrace line => w.writeTrace line
  | .writeEnd => w.writeEnd
  | .writeNarData narData => w.writeNarData narData
  | .writeNarDataToSocket narData => w.writeNarDataToSocket narData
  | .flushSocket => w.flushSocket

/-- The reply lines of a call; the end of a reply is an empty line. -/
def fd4Lines : SocketCall → List Text
  | .writeLine line => [line]
  | .writeEnd => [[]]
  | _ => []

def traceLines : SocketCall → List Text
  | .writeTrace line => [line]
  | _ => []

def nar? : SocketCall → Option Bytes
  | .writeNarData narData => some narData
  | .writeNarDataToSocket narData => some narData
  | _ => none

/-- The line of a call has no newline. -/
def OneLine : SocketCall → Prop
  | .writeLine line => '\n' ∉ line
  | .writeTrace line => '\n' ∉ line
  | _ => True

end SocketCall

/-- The bytes on the socket after some calls and a final flush. -/
def produced (calls : List SocketCall) : Bytes :=
  (calls.foldl SocketCall.run .new).flushSocket.sent

/-! ### Frames -/

/-- A line of the stream. -/
inductive ReplyFrame
  /-- `fd4:` and a line, which is empty at the end of a reply. -/
  | fd4 (line : Text)
  | fd4Empty
  | out (line : Text)
  | nar (chunk : Bytes)
  | narEnd
  deriving DecidableEq

namespace ReplyFrame

def text : ReplyFrame → Text
  | .fd4 line => fd4Prefix ++ line
  | .fd4Empty => fd4EmptyLine
  | .out line => outPrefix ++ line
  | .nar chunk => narPrefix ++ Base64.encode chunk
  | .narEnd => narEndLine

def fd4Line : ReplyFrame → Option Text
  | .fd4 line => some line
  | .fd4Empty => some []
  | _ => none

def outLine : ReplyFrame → Option Text
  | .out line => some line
  | _ => none

/-- Not part of a NAR. -/
def Plain : ReplyFrame → Prop
  | .nar _ => False
  | .narEnd => False
  | _ => True

def OneLine (f : ReplyFrame) : Prop := '\n' ∉ f.text

end ReplyFrame

/-- Frames as they are sent. -/
def sendFrames (frames : List ReplyFrame) : Bytes := Text.sendLines (frames.map ReplyFrame.text)

@[simp] theorem sendFrames_nil : sendFrames [] = [] := rfl

@[simp] theorem sendFrames_append (frames frames' : List ReplyFrame) :
    sendFrames (frames ++ frames') = sendFrames frames ++ sendFrames frames' := by
  simp [sendFrames]

theorem sendFrames_cons (f : ReplyFrame) (frames : List ReplyFrame) :
    sendFrames (f :: frames) = Text.utf8 (f.text ++ ['\n']) ++ sendFrames frames := by
  rw [sendFrames, List.map_cons, Text.sendLines_cons]
  rfl

theorem utf8_newline : Text.utf8 ['\n'] = [10] := by decide

theorem writeBufferedLine_eq {f : ReplyFrame} {line start : Text} (h : f.text = start ++ line) (buf : Bytes) :
    writeBufferedLine buf line start = buf ++ sendFrames [f] := by
  rw [sendFrames_cons, h]
  simp only [writeBufferedLine, Text.utf8_append, utf8_newline, sendFrames_nil, List.append_nil,
    List.append_assoc]

/-- The frames of a NAR. -/
def narFrames (narData : Bytes) : List ReplyFrame := (narChunks narData).map .nar ++ [.narEnd]

theorem narDataBytes_eq (narData : Bytes) : narDataBytes narData = sendFrames (narFrames narData) := by
  have hend : narEndBytes = sendFrames [.narEnd] := by
    rw [sendFrames_cons, sendFrames_nil, List.append_nil, Text.utf8_append, utf8_newline]
    rfl
  have hchunks : ∀ chunks : List Bytes, chunks.flatMap narLineBytes = sendFrames (chunks.map .nar) := by
    intro chunks
    induction chunks with
    | nil => rfl
    | cons chunk chunks ih =>
        rw [List.flatMap_cons, List.map_cons, sendFrames_cons, ih]
        simp only [narLineBytes, ReplyFrame.text, Text.utf8_append, utf8_newline]
  rw [narDataBytes, narFrames, sendFrames_append, hchunks, hend]

theorem newline_not_mem_base64 (chunk : Bytes) : '\n' ∉ Base64.encode chunk :=
  Base64.not_mem_encode (by decide) (by decide) chunk

/-- Only the line of a frame can break it. -/
theorem ReplyFrame.oneLine_of_lines {f : ReplyFrame} (hfd4 : ∀ line ∈ f.fd4Line, '\n' ∉ line)
    (hout : ∀ line ∈ f.outLine, '\n' ∉ line) : f.OneLine := by
  unfold OneLine text
  cases f with
  | fd4 line => simp [hfd4 line rfl, fd4Prefix_eq]
  | fd4Empty => decide
  | out line => simp [hout line rfl, outPrefix_eq]
  | nar chunk => simp [newline_not_mem_base64, narPrefix_eq]
  | narEnd => decide

/-! ### In order -/

namespace SocketCall

/-- The frames of a call. -/
def frames : SocketCall → List ReplyFrame
  | .writeLine line => [if line = [] then .fd4Empty else .fd4 line]
  | .writeTrace line => [.out line]
  | .writeEnd => [.fd4 []]
  | .writeNarData narData => narFrames narData
  | .writeNarDataToSocket narData => narFrames narData
  | .flushSocket => []

/-- A line of a query's reply. -/
def InReply : SocketCall → Prop
  | .writeLine _ => True
  | .writeTrace _ => True
  | _ => False

theorem oneLine_frames {call : SocketCall} (h : call.OneLine) : ∀ f ∈ call.frames, f.OneLine := by
  intro f hf
  refine ReplyFrame.oneLine_of_lines (fun line hline => ?_) fun line hline => ?_
  · cases call <;> simp_all [frames, OneLine, narFrames]
    all_goals grind [ReplyFrame.fd4Line]
  · cases call <;> simp_all [frames, OneLine, narFrames]
    all_goals grind [ReplyFrame.outLine]

/-- A call that does not go past the buffer adds its frames at the end. -/
theorem run_inReply {call : SocketCall} (h : call.InReply ∨ call = .writeEnd) (w : SocketWriter) :
    (call.run w).sent ++ (call.run w).buf = w.sent ++ w.buf ++ sendFrames call.frames := by
  have hline : ∀ (f : ReplyFrame) (line start : Text), f.text = start ++ line →
      w.sent ++ writeBufferedLine w.buf line start = w.sent ++ w.buf ++ sendFrames [f] := by
    intro f line start hf
    rw [writeBufferedLine_eq hf, List.append_assoc]
  cases call with
  | writeLine line =>
      by_cases hempty : line = []
      · simp only [run, SocketWriter.writeLine, frames, if_pos hempty]
        exact hline .fd4Empty [] fd4EmptyLine (List.append_nil _).symm
      · simp only [run, SocketWriter.writeLine, frames, if_neg hempty]
        exact hline (.fd4 line) line fd4Prefix rfl
  | writeTrace line => exact hline (.out line) line outPrefix rfl
  | writeEnd => exact hline (.fd4 []) [] fd4Prefix rfl
  | writeNarData narData => simp [InReply] at h
  | writeNarDataToSocket narData => simp [InReply] at h
  | flushSocket => simp [InReply] at h

end SocketCall

/-- The reply to a query is sent as its lines and the end of the reply. -/
theorem produced_reply {query : List SocketCall} (h : ∀ call ∈ query, call.InReply) :
    produced (query ++ [.writeEnd]) = sendFrames (query.flatMap SocketCall.frames ++ [.fd4 []]) := by
  have hrun : ∀ (calls : List SocketCall) (w : SocketWriter),
      (∀ call ∈ calls, call.InReply ∨ call = .writeEnd) →
      (calls.foldl SocketCall.run w).sent ++ (calls.foldl SocketCall.run w).buf =
        w.sent ++ w.buf ++ sendFrames (calls.flatMap SocketCall.frames) := by
    intro calls
    induction calls with
    | nil => simp
    | cons call calls ih =>
        intro w hcalls
        rw [List.forall_mem_cons] at hcalls
        rw [List.foldl_cons, ih _ hcalls.2, SocketCall.run_inReply hcalls.1, List.flatMap_cons,
          sendFrames_append, List.append_assoc]
  have hcalls : ∀ call ∈ query ++ [.writeEnd], call.InReply ∨ call = .writeEnd := by
    intro call hcall
    rcases List.mem_append.mp hcall with hmem | hend
    · exact Or.inl (h call hmem)
    · exact Or.inr (List.mem_singleton.mp hend)
  rw [produced, SocketWriter.flushSocket, hrun _ _ hcalls, List.flatMap_append]
  rfl

/-! ### The specification of the encoder -/

/-- The place of a NAR among the frames, if there is one. -/
def Layout (nar : Option Bytes) (frames : List ReplyFrame) : Prop :=
  match nar with
  | none => ∀ f ∈ frames, f.Plain
  | some narData => ∃ before after, frames = before ++ narFrames narData ++ after ∧
      (∀ f ∈ before, f.Plain) ∧ ∀ f ∈ after, f.Plain

theorem Layout.append_plain {nar : Option Bytes} {frames : List ReplyFrame} (h : Layout nar frames)
    {f : ReplyFrame} (hf : f.Plain) : Layout nar (frames ++ [f]) := by
  cases nar with
  | none =>
      intro g hg
      rcases List.mem_append.mp hg with hg | hg
      · exact h g hg
      · rw [List.mem_singleton.mp hg]
        exact hf
  | some narData =>
      obtain ⟨before, after, heq, hbefore, hafter⟩ := h
      refine ⟨before, after ++ [f], by rw [heq, List.append_assoc], hbefore, fun g hg => ?_⟩
      rcases List.mem_append.mp hg with hg | hg
      · exact hafter g hg
      · rw [List.mem_singleton.mp hg]
        exact hf

theorem filterMap_fd4Line_narFrames (narData : Bytes) :
    (narFrames narData).filterMap ReplyFrame.fd4Line = [] := by
  simp [narFrames, ReplyFrame.fd4Line, List.filterMap_map, Function.comp_def]

theorem filterMap_outLine_narFrames (narData : Bytes) :
    (narFrames narData).filterMap ReplyFrame.outLine = [] := by
  simp [narFrames, ReplyFrame.outLine, List.filterMap_map, Function.comp_def]

/-- What a writer has produced so far, sent or buffered. -/
structure Produces (w : SocketWriter) (sent buffered : List ReplyFrame) : Prop where
  sent : w.sent = sendFrames sent
  buf : w.buf = sendFrames buffered

theorem Produces.buffer {w : SocketWriter} {sent buffered : List ReplyFrame}
    (h : Produces w sent buffered) {f : ReplyFrame} {line start : Text} (hf : f.text = start ++ line) :
    Produces { w with buf := writeBufferedLine w.buf line start } sent (buffered ++ [f]) :=
  ⟨h.sent, by rw [writeBufferedLine_eq hf, h.buf, sendFrames_append]⟩

/-- What is on its way: a NAR, reply lines and trace lines. -/
def Carries (w : SocketWriter) (nar : Option Bytes) (fd4 out : List Text) : Prop :=
  ∃ sent buffered, Produces w sent buffered ∧ Layout nar (sent ++ buffered) ∧
    (sent ++ buffered).filterMap ReplyFrame.fd4Line = fd4 ∧
    (sent ++ buffered).filterMap ReplyFrame.outLine = out

namespace Carries

variable {w w' : SocketWriter} {nar : Option Bytes} {fd4 out : List Text}

theorem new : Carries .new none [] [] :=
  ⟨[], [], ⟨rfl, rfl⟩, fun _ hf => absurd hf List.not_mem_nil, rfl, rfl⟩

theorem line (h : Carries w nar fd4 out) {f : ReplyFrame} (hplain : f.Plain)
    (hrun : ∀ sent buffered, Produces w sent buffered → Produces w' sent (buffered ++ [f])) :
    Carries w' nar (fd4 ++ f.fd4Line.toList) (out ++ f.outLine.toList) := by
  obtain ⟨sent, buffered, hproduces, hlayout, rfl, rfl⟩ := h
  refine ⟨sent, buffered ++ [f], hrun _ _ hproduces, ?_, ?_, ?_⟩
  · rw [← List.append_assoc]
    exact hlayout.append_plain hplain
  · rw [← List.append_assoc, List.filterMap_append]
    cases hf : f.fd4Line <;> simp [hf]
  · rw [← List.append_assoc, List.filterMap_append]
    cases hf : f.outLine <;> simp [hf]

theorem writeLine (h : Carries w nar fd4 out) (text : Text) :
    Carries (w.writeLine text) nar (fd4 ++ [text]) out := by
  rw [← List.append_nil out]
  by_cases hempty : text = []
  · rw [SocketWriter.writeLine, if_pos hempty, hempty]
    exact h.line (f := .fd4Empty) trivial fun _ _ hp => hp.buffer (List.append_nil _).symm
  · rw [SocketWriter.writeLine, if_neg hempty]
    exact h.line (f := .fd4 text) trivial fun _ _ hp => hp.buffer rfl

theorem writeTrace (h : Carries w nar fd4 out) (text : Text) :
    Carries (w.writeTrace text) nar fd4 (out ++ [text]) := by
  rw [← List.append_nil fd4]
  exact h.line (f := .out text) trivial fun _ _ hp => hp.buffer rfl

theorem writeEnd (h : Carries w nar fd4 out) : Carries w.writeEnd nar (fd4 ++ [[]]) out := by
  rw [← List.append_nil out]
  exact h.line (f := .fd4 []) trivial fun _ _ hp => hp.buffer rfl

theorem flushSocket (h : Carries w nar fd4 out) : Carries w.flushSocket nar fd4 out := by
  obtain ⟨sent, buffered, hproduces, hlayout, hfd4, hout⟩ := h
  refine ⟨sent ++ buffered, [], ⟨?_, rfl⟩, ?_, ?_, ?_⟩
  · rw [SocketWriter.flushSocket, hproduces.sent, hproduces.buf, sendFrames_append]
  all_goals rwa [List.append_nil]

/-- The frames of a NAR, between others or at their end. -/
theorem insert_nar {before after : List ReplyFrame} (hplain : Layout none (before ++ after))
    (narData : Bytes) : Layout (some narData) (before ++ narFrames narData ++ after) :=
  ⟨before, after, rfl, fun f hf => hplain f (List.mem_append_left _ hf),
    fun f hf => hplain f (List.mem_append_right _ hf)⟩

theorem writeNarData (h : Carries w none fd4 out) (narData : Bytes) :
    Carries (w.writeNarData narData) (some narData) fd4 out := by
  obtain ⟨sent, buffered, hproduces, hlayout, hfd4, hout⟩ := h
  refine ⟨sent, buffered ++ narFrames narData, ⟨hproduces.sent, ?_⟩, ?_, ?_, ?_⟩
  · rw [SocketWriter.writeNarData, hproduces.buf, narDataBytes_eq, sendFrames_append]
  · have hend := @insert_nar (sent ++ buffered) [] (by rwa [List.append_nil]) narData
    rwa [List.append_nil, List.append_assoc] at hend
  · rw [← List.append_assoc, List.filterMap_append, filterMap_fd4Line_narFrames, List.append_nil, hfd4]
  · rw [← List.append_assoc, List.filterMap_append, filterMap_outLine_narFrames, List.append_nil, hout]

theorem writeNarDataToSocket (h : Carries w none fd4 out) (narData : Bytes) :
    Carries (w.writeNarDataToSocket narData) (some narData) fd4 out := by
  obtain ⟨sent, buffered, hproduces, hlayout, hfd4, hout⟩ := h
  refine ⟨sent ++ narFrames narData, buffered, ⟨?_, hproduces.buf⟩, insert_nar hlayout narData, ?_, ?_⟩
  · rw [SocketWriter.writeNarDataToSocket, hproduces.sent, narDataBytes_eq, sendFrames_append]
  · rw [List.filterMap_append, List.filterMap_append, filterMap_fd4Line_narFrames, List.append_nil,
      ← List.filterMap_append, hfd4]
  · rw [List.filterMap_append, List.filterMap_append, filterMap_outLine_narFrames, List.append_nil,
      ← List.filterMap_append, hout]

/-- **Run lemma.** The NAR of all calls is the one that is on its way, or still to come. -/
theorem foldl {final : Option Bytes} {calls : List SocketCall} (h : Carries w nar fd4 out)
    (hnar : nar.toList ++ calls.filterMap SocketCall.nar? = final.toList) :
    Carries (calls.foldl SocketCall.run w) final (fd4 ++ calls.flatMap SocketCall.fd4Lines)
      (out ++ calls.flatMap SocketCall.traceLines) := by
  induction calls generalizing w nar fd4 out with
  | nil =>
      have hsame : nar = final := by cases nar <;> cases final <;> simp_all
      rw [List.flatMap_nil, List.flatMap_nil, List.append_nil, List.append_nil, ← hsame]
      exact h
  | cons call calls ih =>
      rw [List.flatMap_cons, List.flatMap_cons, ← List.append_assoc, ← List.append_assoc,
        List.foldl_cons]
      -- a NAR on its way leaves no room for another
      have hfirst : ∀ narData, call.nar? = some narData → nar = none ∧
          (some narData).toList ++ calls.filterMap SocketCall.nar? = final.toList := by
        intro narData hcall
        rw [List.filterMap_cons_some hcall] at hnar
        cases nar with
        | none => exact ⟨rfl, hnar⟩
        | some _ =>
            have hlen := congrArg List.length hnar
            cases final with
            | none => cases hlen
            | some _ => simp at hlen
      cases call with
      | writeLine text =>
          simp only [SocketCall.traceLines, List.append_nil]
          exact ih (h.writeLine text) hnar
      | writeTrace text =>
          simp only [SocketCall.fd4Lines, List.append_nil]
          exact ih (h.writeTrace text) hnar
      | writeEnd =>
          simp only [SocketCall.traceLines, List.append_nil]
          exact ih h.writeEnd hnar
      | flushSocket =>
          simp only [SocketCall.traceLines, SocketCall.fd4Lines, List.append_nil]
          exact ih h.flushSocket hnar
      | writeNarData narData =>
          obtain ⟨rfl, hnar'⟩ := hfirst narData rfl
          simp only [SocketCall.traceLines, SocketCall.fd4Lines, List.append_nil]
          exact ih (h.writeNarData narData) hnar'
      | writeNarDataToSocket narData =>
          obtain ⟨rfl, hnar'⟩ := hfirst narData rfl
          simp only [SocketCall.traceLines, SocketCall.fd4Lines, List.append_nil]
          exact ih (h.writeNarDataToSocket narData) hnar'

end Carries

/-- **The encoder.** Every stream is a list of frames with the lines of the calls on their
channels, in order, and with the NAR in one place. -/
theorem produced_frames {calls : List SocketCall} {nar : Option Bytes}
    (hlines : ∀ call ∈ calls, call.OneLine)
    (hnar : calls.filterMap SocketCall.nar? = nar.toList) :
    ∃ frames, produced calls = sendFrames frames ∧ Layout nar frames ∧
      (∀ f ∈ frames, f.OneLine) ∧
      frames.filterMap ReplyFrame.fd4Line = calls.flatMap SocketCall.fd4Lines ∧
      frames.filterMap ReplyFrame.outLine = calls.flatMap SocketCall.traceLines := by
  obtain ⟨sent, buffered, hproduces, hlayout, hfd4, hout⟩ :=
    @Carries.foldl .new none [] [] nar calls Carries.new hnar
  rw [List.nil_append] at hfd4 hout
  have hfd4Line : ∀ line ∈ calls.flatMap SocketCall.fd4Lines, '\n' ∉ line := by
    intro line hline
    obtain ⟨call, hcall, hmem⟩ := List.mem_flatMap.mp hline
    have hone := hlines call hcall
    cases call <;> simp_all [SocketCall.fd4Lines, SocketCall.OneLine]
  have houtLine : ∀ line ∈ calls.flatMap SocketCall.traceLines, '\n' ∉ line := by
    intro line hline
    obtain ⟨call, hcall, hmem⟩ := List.mem_flatMap.mp hline
    have hone := hlines call hcall
    cases call <;> simp_all [SocketCall.traceLines, SocketCall.OneLine]
  refine ⟨sent ++ buffered, ?_, hlayout, fun f hf => ?_, hfd4, hout⟩
  · rw [produced, SocketWriter.flushSocket, hproduces.sent, hproduces.buf, sendFrames_append]
  · refine ReplyFrame.oneLine_of_lines (fun line hline => ?_) fun line hline => ?_
    · exact hfd4Line line (hfd4 ▸ List.mem_filterMap.mpr ⟨f, hf, hline⟩)
    · exact houtLine line (hout ▸ List.mem_filterMap.mpr ⟨f, hf, hline⟩)

end GuixP2p
