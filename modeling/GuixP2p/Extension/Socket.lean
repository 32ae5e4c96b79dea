import GuixP2p.Relay.Runs

/-!
# GuixP2p.Extension.Socket

The other reader of the socket protocol, `guix/extensions/substitute.scm`: Guix's own
substituter with an extension in Scheme. A port is what is still to be read of it, line by
line; `read-line` drops the newline, and what follows the last newline is a line too.

A reply to a query ends with an empty `fd4:` line; a request for a substitute ends with the
terminal reply, as many of them as there are destinations.
-/

namespace GuixP2p

open GuixP2p.Lib

/-- The lines that `read-line` yields. -/
def portLines (text : Text) : List Text :=
  (splitInclusive '\n' text).map fun line => if line.getLast? = some '\n' then line.dropLast else line

/-! ### Queries -/

/-- What handling a reply to a query leaves: the lines for Guix, the lines for the build log,
whether the reply was complete, and what is left on the port. -/
structure QueryReply where
  replies : List Text
  traces : List Text
  completed : Bool
  rest : List Text
  deriving DecidableEq

namespace QueryReply

def reply (line : Text) (r : QueryReply) : QueryReply := { r with replies := line :: r.replies }

def trace (line : Text) (r : QueryReply) : QueryReply := { r with traces := line :: r.traces }

end QueryReply

/-- The loop that reads a reply, with what the end of the socket means and what the end of
the reply adds to it. -/
def readReply (closed : Bool) (ending : List Text) : List Text → QueryReply
  | [] => ⟨[], [], closed, []⟩
  | line :: lines =>
    if line = fd4EmptyLine then (readReply closed ending lines).reply []
    else
      match line.dropPrefix? fd4Prefix with
      | some data =>
        if data = [] then ⟨ending, [], true, lines⟩ else (readReply closed ending lines).reply data
      | none =>
        match line.dropPrefix? outPrefix with
        | some data => (readReply closed ending lines).trace data
        | none =>
          -- an old daemon's line
          if line = [] then ⟨ending, [], true, lines⟩
          else (readReply closed ending lines).reply line

/-- `handle-query-reply`: the empty line at the end is for Guix too, and a socket that is
closed before it is an error. -/
def handleQueryReply : List Text → QueryReply := readReply false [[]]

/-- The loop of `relay-query-through-socket`, for some queries: one reply after the other. -/
def handleQueryReplies : Nat → List Text → List QueryReply
  | 0, _ => []
  | n + 1, lines =>
    let r := handleQueryReply lines
    r :: handleQueryReplies n r.rest

/-- The loop of `socket-query-lines`: the end of the socket ends the reply too. -/
def socketQueryLines : List Text → QueryReply := readReply true []

/-! ### What the readers see -/

/-- Frames are sent as the text of their lines. -/
theorem utf8_joinLines (lines : List Text) :
    Text.utf8 (joinLines '\n' lines) = Text.sendLines lines := by
  induction lines with
  | nil => rfl
  | cons line lines ih =>
      rw [joinLines_cons, Text.sendLines_cons, ← ih, ← Text.utf8_append]
      simp

/-- The reader of a text that was sent as frames sees their lines. -/
theorem portLines_of_sendFrames {frames : List ReplyFrame} (hlines : ∀ f ∈ frames, f.OneLine)
    {text : Text} (htext : Text.utf8 text = sendFrames frames) :
    portLines text = frames.map ReplyFrame.text := by
  have hjoin : text = joinLines '\n' (frames.map ReplyFrame.text) := by
    have hsome : some text = some (joinLines '\n' (frames.map ReplyFrame.text)) := by
      rw [← Text.fromUtf8_utf8, ← Text.fromUtf8_utf8 (joinLines _ _), utf8_joinLines, htext]
      rfl
    exact Option.some.inj hsome
  have hsplit : ∀ line ∈ frames.map ReplyFrame.text, '\n' ∉ line := by
    intro line hline
    obtain ⟨f, hf, rfl⟩ := List.mem_map.mp hline
    exact hlines f hf
  rw [hjoin, portLines, splitInclusive_joinLines hsplit, List.map_map, List.map_map]
  refine List.map_congr_left fun f _ => ?_
  simp

/-! ### Replies to queries -/

section

variable {closed : Bool} {ending lines : List Text}

theorem readReply_fd4Empty :
    readReply closed ending (fd4EmptyLine :: lines) = (readReply closed ending lines).reply [] := by
  rw [readReply, if_pos rfl]

theorem readReply_fd4 (data : Text) :
    readReply closed ending ((fd4Prefix ++ data) :: lines) =
      if data = [] then ⟨ending, [], true, lines⟩ else (readReply closed ending lines).reply data := by
  have hne : fd4Prefix ++ data ≠ fd4EmptyLine := by
    have h := fd4EmptyLine_ne_fd4 data []
    rwa [List.append_nil] at h
  rw [readReply, if_neg hne, Text.dropPrefix?_append_self]

theorem readReply_out (data : Text) :
    readReply closed ending ((outPrefix ++ data) :: lines) =
      (readReply closed ending lines).trace data := by
  have hne : outPrefix ++ data ≠ fd4EmptyLine := by
    rw [outPrefix_eq, fd4EmptyLine_eq]
    simp
  rw [readReply, if_neg hne, Text.dropPrefix?_eq_none (by simp [fd4Prefix_eq, outPrefix_eq]),
    Text.dropPrefix?_append_self]

/-- **A reply is read up to its end**, whatever comes after it; an empty line in it is not
its end. -/
theorem readReply_frames {query : List SocketCall} (h : ∀ call ∈ query, call.InReply) :
    readReply closed ending
        ((query.flatMap SocketCall.frames ++ [ReplyFrame.fd4 []]).map ReplyFrame.text ++ lines) =
      ⟨query.flatMap SocketCall.fd4Lines ++ ending, query.flatMap SocketCall.traceLines, true,
        lines⟩ := by
  induction query with
  | nil =>
      have hend := @readReply_fd4 closed ending lines []
      rw [if_pos rfl] at hend
      exact hend
  | cons call query ih =>
      rw [List.forall_mem_cons] at h
      rw [List.flatMap_cons, List.flatMap_cons, List.flatMap_cons, List.append_assoc, List.map_append,
        List.append_assoc]
      cases call with
      | writeLine line =>
          simp only [SocketCall.frames, SocketCall.fd4Lines, SocketCall.traceLines]
          by_cases hempty : line = []
          · rw [if_pos hempty, hempty]
            have hline := @readReply_fd4Empty closed ending
              ((query.flatMap SocketCall.frames ++ [ReplyFrame.fd4 []]).map ReplyFrame.text ++ lines)
            rw [ih h.2] at hline
            exact hline
          · rw [if_neg hempty]
            have hline := @readReply_fd4 closed ending
              ((query.flatMap SocketCall.frames ++ [ReplyFrame.fd4 []]).map ReplyFrame.text ++ lines) line
            rw [if_neg hempty, ih h.2] at hline
            exact hline
      | writeTrace line =>
          have hline := @readReply_out closed ending
            ((query.flatMap SocketCall.frames ++ [ReplyFrame.fd4 []]).map ReplyFrame.text ++ lines) line
          rw [ih h.2] at hline
          exact hline
      | writeEnd => exact absurd h.1 id
      | writeNarData narData => exact absurd h.1 id
      | writeNarDataToSocket narData => exact absurd h.1 id
      | flushSocket => exact absurd h.1 id

end

/-- The frames of a reply, of lines without newlines. -/
theorem oneLine_reply {query : List SocketCall} (h : ∀ call ∈ query, call.OneLine) :
    ∀ f ∈ query.flatMap SocketCall.frames ++ [ReplyFrame.fd4 []], f.OneLine := by
  intro f hf
  rcases List.mem_append.mp hf with hf | hf
  · obtain ⟨call, hcall, hf⟩ := List.mem_flatMap.mp hf
    exact SocketCall.oneLine_frames (h call hcall) f hf
  · rw [List.mem_singleton.mp hf]
    exact @SocketCall.oneLine_frames .writeEnd trivial _ (List.mem_singleton.mpr rfl)

/-- What is sent for some queries, each with a writer of its own. -/
def producedReplies (queries : List (List SocketCall)) : Bytes :=
  queries.flatMap fun query => produced (query ++ [.writeEnd])

/-- The lines of the replies to some queries. -/
def replyLines (queries : List (List SocketCall)) : List Text :=
  queries.flatMap fun query => (query.flatMap SocketCall.frames ++ [ReplyFrame.fd4 []]).map ReplyFrame.text

/-- What is sent for some queries is text, and its lines are those of the replies. -/
theorem portLines_producedReplies {queries : List (List SocketCall)}
    (hreply : ∀ query ∈ queries, ∀ call ∈ query, call.InReply)
    (hlines : ∀ query ∈ queries, ∀ call ∈ query, call.OneLine) :
    ∃ text, Text.fromUtf8 (producedReplies queries) = some text ∧ portLines text = replyLines queries := by
  have hbytes : producedReplies queries =
      sendFrames (queries.flatMap fun query => query.flatMap SocketCall.frames ++ [.fd4 []]) := by
    induction queries with
    | nil => rfl
    | cons query queries ih =>
        rw [List.forall_mem_cons] at hreply hlines
        rw [List.flatMap_cons, sendFrames_append, ← ih hreply.2 hlines.2, ← produced_reply hreply.1]
        rfl
  have hone : ∀ f ∈ queries.flatMap fun query => query.flatMap SocketCall.frames ++ [ReplyFrame.fd4 []],
      f.OneLine := by
    intro f hf
    obtain ⟨query, hquery, hf⟩ := List.mem_flatMap.mp hf
    exact oneLine_reply (hlines query hquery) f hf
  refine ⟨joinLines '\n' ((queries.flatMap fun query =>
    query.flatMap SocketCall.frames ++ [.fd4 []]).map ReplyFrame.text), ?_, ?_⟩
  · rw [hbytes, sendFrames, ← utf8_joinLines, Text.fromUtf8_utf8]
  · rw [portLines_of_sendFrames hone (utf8_joinLines _), List.map_flatMap]
    rfl

/-- **Run lemma.** The replies to some queries are read one by one, each up to the beginning
of the next. -/
theorem handleQueryReplies_eq {queries : List (List SocketCall)}
    (hreply : ∀ query ∈ queries, ∀ call ∈ query, call.InReply) :
    handleQueryReplies queries.length (replyLines queries) =
      queries.mapIdx fun k query => ⟨query.flatMap SocketCall.fd4Lines ++ [[]],
        query.flatMap SocketCall.traceLines, true, replyLines (queries.drop (k + 1))⟩ := by
  induction queries with
  | nil => rfl
  | cons query queries ih =>
      rw [List.forall_mem_cons] at hreply
      rw [replyLines, List.flatMap_cons, List.length_cons, handleQueryReplies, List.mapIdx_cons]
      simp only [handleQueryReply, readReply_frames hreply.1, List.drop_succ_cons, List.drop_zero]
      exact congrArg _ (ih hreply.2)

end GuixP2p
