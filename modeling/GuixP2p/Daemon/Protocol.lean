import GuixP2p.Lib.Chunks
import GuixP2p.NarStore.Save
import GuixP2p.Narinfo

/-!
# GuixP2p.Daemon.Protocol

`src/daemon/protocol.rs`: how the daemon answers. A reply goes to file descriptors of the
process (`direct`) or, framed, to a relay's socket (`socket`); there the lines are buffered
until they are flushed and the NAR follows as `nar:` lines.

An `Effect` is something the daemon does that is visible outside: the trace of a request
lists them in order.
-/

namespace GuixP2p

open GuixP2p.Lib

inductive ReplyMode
  /-- `Fd4` or `Buffer`. -/
  | direct
  /-- `Socket`, with or without the socket's writer at hand. -/
  | socket (writer : Bool)
  deriving DecidableEq, Repr

inductive Effect
  /-- A reply line. -/
  | line (text : Text)
  /-- The end of a query's reply. -/
  | replyEnd
  /-- A line for the build log. -/
  | trace (text : Text)
  /-- The buffered lines are sent to the socket. -/
  | flush
  /-- A `nar:` line with this chunk, or with as much of it as was written. -/
  | nar (chunk : Bytes)
  | narEnd
  | write (w : FileWrite)
  /-- The destination is deleted. -/
  | removeDestination (path : Text)
  /-- The swarm task is told to announce a seed. -/
  | startProviding (hash : Text)
  /-- The narinfo a request for this hash part goes on with; no code reads it. -/
  | narinfo (hashPart : Text) (info : Narinfo)
  deriving DecidableEq

/-! ### Commands -/

inductive DaemonCommand
  | haves (paths : List Text)
  | info (paths : List Text)
  | substitute (path dest : Text)
  deriving DecidableEq

/-- What is left of `rest` after a space: the store path and the destination. -/
def substituteArguments (rest : Text) : Text × Text :=
  let parts := Text.splitN 2 ' ' rest
  (parts[0]?.getD [], parts[1]?.getD [])

def parseCommandLine (line : Text) : DaemonCommand :=
  match line.dropPrefix? "have ".toList with
  | some rest => .haves (Text.splitWhitespace rest)
  | none =>
    match line.dropPrefix? "info ".toList with
    | some rest => .info (Text.splitWhitespace rest)
    | none =>
      match line.dropPrefix? "substitute ".toList with
      | some rest => .substitute (substituteArguments rest).1 (substituteArguments rest).2
      -- an old client's command
      | none => .haves [line]

/-! ### Texts -/

/-- The words of a line, separated by spaces. -/
def unwords : List Text → Text
  | [] => []
  | [w] => w
  | w :: ws => w ++ ' ' :: unwords ws

def formatTraceStarted (storePath url : Text) (size : Nat) : Text :=
  unwords ["@".toList, "download-started".toList, storePath, url, Text.ofNat size]

def formatTraceProgress (storePath url : Text) (total transferred : Nat) : Text :=
  unwords ["@".toList, "download-progress".toList, storePath, url, Text.ofNat total,
    Text.ofNat transferred]

def formatTraceSucceeded (storePath url : Text) (size : Nat) : Text :=
  unwords ["@".toList, "download-succeeded".toList, storePath, url, Text.ofNat size]

def notFoundLine : Text := "not-found".toList

def successLine (narHashHex : Text) (size : Nat) : Text :=
  unwords ["success".toList, "sha256:".toList ++ narHashHex, Text.ofNat size]

def hashMismatchLine (expected actual : Text) : Text :=
  unwords ["hash-mismatch".toList, "sha256".toList, "sha256:".toList ++ expected,
    "sha256:".toList ++ actual]

/-! ### Streaming -/

/-- The length of a `nar:` line's data. -/
def narChunkSize : Nat := 48 * 1024

def narChunks (narData : Bytes) : List Bytes := chunks narChunkSize narData

/-- How streaming a NAR to a socket goes. -/
inductive StreamOutcome
  | done
  /-- An error after some whole lines, with part of the next. -/
  | cut (lines : Nat) (part : Nat)
  /-- All lines were written and the final flush failed. -/
  | flushFailed
  deriving DecidableEq, Repr

/-- The `nar:` lines that were written. -/
def narLines (narData : Bytes) : StreamOutcome → List Effect
  | .done => (narChunks narData).map .nar ++ [.narEnd]
  | .cut lines part =>
    ((narChunks narData).take lines).map .nar ++
      (narChunks narData)[lines]?.toList.map fun chunk => .nar (chunk.take part)
  | .flushFailed => (narChunks narData).map .nar ++ [.narEnd]

variable {σ : Type}

/-- Stream raw NAR bytes to a socket relay; the result says whether that succeeded. -/
def writeNarDataToSocket (narData : Bytes) (outcome : StreamOutcome) :
    Action σ Effect Panic Bool := do
  Action.emitAll (narLines narData outcome)
  pure (decide (outcome = .done))

/-- The bytes in the `nar:` lines of a trace. -/
def streamed : List Effect → Bytes
  | [] => []
  | .nar chunk :: rest => chunk ++ streamed rest
  | _ :: rest => streamed rest

@[simp] theorem streamed_nil : streamed [] = [] := rfl

@[simp] theorem streamed_append (τ ω : List Effect) :
    streamed (τ ++ ω) = streamed τ ++ streamed ω := by
  induction τ with
  | nil => rfl
  | cons e τ ih => cases e <;> simp [streamed, ih]

@[simp] theorem streamed_map_nar (bss : List Bytes) : streamed (bss.map .nar) = bss.flatten := by
  induction bss with
  | nil => rfl
  | cons bs bss ih => simp [streamed, ih]

@[simp] theorem streamed_map_write (ws : List FileWrite) : streamed (ws.map .write) = [] := by
  induction ws with
  | nil => rfl
  | cons w ws ih => simp [streamed, ih]

/-- All lines together hold the NAR. -/
theorem streamed_narLines_done (narData : Bytes) : streamed (narLines narData .done) = narData := by
  have hpos : 0 < narChunkSize := by decide
  simp [narLines, narChunks, flatten_chunks hpos, streamed]

/-- Whatever was written is the beginning of the NAR. -/
theorem streamed_narLines_prefix (narData : Bytes) (outcome : StreamOutcome) :
    streamed (narLines narData outcome) <+: narData := by
  have hpos : 0 < narChunkSize := by decide
  have hall : (narChunks narData).flatten = narData := flatten_chunks hpos narData
  cases outcome with
  | done => rw [streamed_narLines_done]
  | flushFailed => rw [show narLines narData .flushFailed = narLines narData .done from rfl,
      streamed_narLines_done]
  | cut lines part =>
      have hsplit : ((narChunks narData).take lines).flatten ++
          ((narChunks narData).drop lines).flatten = narData := by
        rw [← List.flatten_append, List.take_append_drop, hall]
      have hnext : streamed ((narChunks narData)[lines]?.toList.map
          fun chunk => .nar (chunk.take part)) <+: ((narChunks narData).drop lines).flatten := by
        cases hget : (narChunks narData)[lines]? with
        | none => simp
        | some chunk =>
            have hdrop : (narChunks narData).drop lines =
                chunk :: (narChunks narData).drop (lines + 1) := by
              obtain ⟨hlt, heq⟩ := List.getElem?_eq_some_iff.mp hget
              rw [List.drop_eq_getElem_cons hlt, heq]
            rw [hdrop]
            simp only [Option.toList_some, List.map_cons, List.map_nil, streamed, List.append_nil,
              List.flatten_cons]
            exact (List.take_prefix part chunk).trans (List.prefix_append _ _)
      conv_rhs => rw [← hsplit]
      rw [narLines, streamed_append, streamed_map_nar]
      exact (List.prefix_append_right_inj _).mpr hnext

end GuixP2p
