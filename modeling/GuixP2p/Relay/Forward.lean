import GuixP2p.Daemon.SocketWriter
import GuixP2p.Daemon.Substitute

/-!
# GuixP2p.Relay.Forward

`forward` of `src/relay.rs`: the process that guix-daemon starts. It hands the daemon's
lines on to file descriptor 4 and to the build log, collects NAR data in a temporary file
and copies that to the destination of the request.

The daemon's bytes are taken apart into lines before they are looked at; each line meets a
`LineWorld`, which says how its file operations go. Connecting and sending the request are
left out: an error there ends the relay before it reads anything.
-/

namespace GuixP2p

open GuixP2p.Lib

/-! ### Worlds -/

inductive RelayMode
  | query
  | substitute
  deriving DecidableEq, Repr

/-- Why the relay returns an error; `waits` is where it does not return. -/
inductive RelayFailure
  /-- The standard input ended before the command. -/
  | stdinClosed
  /-- The socket broke, or a line is not UTF-8. -/
  | readFailed
  | fd4WriteFailed
  | stdoutWriteFailed
  /-- NAR data came without a destination: the channel stays open and empty. -/
  | waits
  | openTemporaryFailed (path : Text)
  | decodeFailed
  | temporaryWriteFailed
  | flushFailed
  | narEndWithoutDestination
  | narEndWithoutTemporary
  | destinationFailed (dest : Text)
  | closedBeforeNarEnd (dest : Text)
  | closedBeforeTerminalReply
  | panic (p : Panic)
  deriving DecidableEq

/-- How the operations for one line go. -/
structure LineWorld where
  /-- The write to file descriptor 4 or 1. -/
  written : Bool
  opened : Bool
  append : WriteOutcome
  flushed : Bool
  destination : DestinationWorld
  removeTemporary : Bool

structure RelayWorld where
  lines : Nat → LineWorld
  /-- The connection ends with an error; what was read of the last line is lost. -/
  broken : Bool
  removeTemporary : Bool

structure RelaySettings where
  tempDir : Text
  processId : Nat

inductive RelayEffect
  | fd4 (bytes : Bytes)
  | stdout (bytes : Bytes)
  | write (w : FileWrite)
  deriving DecidableEq

structure RelayState where
  files : FileSystem
  /-- What waits in the channel for destinations. -/
  dests : List Text
  narDest : Option Text
  /-- The path of the open temporary file. -/
  narFile : Option Text
  narTempPath : Option Text
  narIndex : Nat
  sawSubstituteTerminalReply : Bool

abbrev Relay := Action RelayState RelayEffect RelayFailure

/-! ### Texts -/

def successStart : Text := "success ".toList

def hashMismatchStart : Text := "hash-mismatch ".toList

def isSubstituteTerminalReply (line : Text) : Bool :=
  let trimmed := Text.trim line
  decide (trimmed = notFoundLine) || successStart.isPrefixOf trimmed ||
    hashMismatchStart.isPrefixOf trimmed

def substituteDestination (line : Text) : Option Text :=
  match line.dropPrefix? "substitute ".toList with
  | none => none
  | some rest => ((Text.splitN 2 ' ' rest)[1]?).filter fun dest => dest ≠ []

def relayTemporaryPath (settings : RelaySettings) (index : Nat) : Text :=
  settings.tempDir ++ "/guix-p2p-relay-".toList ++ Text.ofNat settings.processId ++ "-".toList ++
    Text.ofNat index ++ ".nar".toList

/-! ### One line -/

/-- Run an action on the files; it does not touch the NAR store. -/
def onFiles {α : Type} (m : Action NarDisk FileWrite Panic α) : Relay α := fun s =>
  let inner := m ⟨⟨[], 0, ∅⟩, s.files⟩
  ⟨inner.trace.map .write, { s with files := inner.state.files },
    match inner.result with
    | .ok a => .ok a
    | .error p => .error (.panic p)⟩

def writeFd (channel : Bytes → RelayEffect) (failure : RelayFailure) (buf : Bytes) (written : Bool) :
    Relay Unit :=
  if written then Action.emit (channel buf) else Action.fault failure

/-- Open a temporary file for a NAR, unless one is open. -/
def openNar (settings : RelaySettings) (opened : Bool) : Relay Unit := do
  let s ← Action.get
  if s.narFile.isSome then pure ()
  else
    match s.dests with
    | [] => Action.fault .waits
    | dest :: dests =>
      let temp := relayTemporaryPath settings (s.narIndex + 1)
      let (files, ok) := s.files.write temp [] (if opened then .done else .refused)
      if ok then
        Action.set
          { s with
            files, dests
            narIndex := s.narIndex + 1
            narDest := some dest
            narTempPath := some temp
            narFile := some temp }
      else Action.fault (.openTemporaryFailed temp)

/-- Decode a chunk and write it to the open file. -/
def appendChunk (append : WriteOutcome) (data : Text) : Relay Unit :=
  match Base64.decode (Text.trimEnd data) with
  | none => Action.fault .decodeFailed
  | some decoded => do
    let s ← Action.get
    match s.narFile with
    | none => pure ()
    | some path =>
      let (files, ok) := s.files.append path decoded append
      Action.set { s with files }
      if ok then Action.emit (.write ⟨.temporary, path, decoded, true⟩)
      else Action.fault .temporaryWriteFailed

/-- A chunk of a NAR goes to the temporary file. -/
def receiveChunk (settings : RelaySettings) (world : LineWorld) (data : Text) : Relay Unit := do
  openNar settings world.opened
  appendChunk world.append data

/-- Copy the temporary file to the destination and remove it. -/
def copyNar (world : LineWorld) (temp dest : Text) : Relay Unit := do
  if ← onFiles (writeNarToDestination temp dest world.destination) then
    let _ ← onFiles (removeFile temp world.removeTemporary)
    pure ()
  else Action.fault (.destinationFailed dest)

/-- The NAR is complete: it goes to the destination. -/
def finishNar (world : LineWorld) : Relay Unit := do
  let s ← Action.get
  if s.narFile.isSome && !world.flushed then Action.fault .flushFailed
  else
    match s.narDest with
    | none => Action.fault .narEndWithoutDestination
    | some dest =>
      match s.narTempPath with
      | none => Action.fault .narEndWithoutTemporary
      | some temp => do
        Action.set { s with narFile := none, narDest := none, narTempPath := none }
        copyNar world temp dest

/-- The loop of the relay, for one line with its line ending. -/
def handleLine (mode : RelayMode) (settings : RelaySettings) (world : LineWorld) (line : Text) :
    Relay Unit :=
  if line = fd4EmptyLine ++ ['\n'] ∨ line = fd4EmptyLine ++ ['\r', '\n'] then
    writeFd .fd4 .fd4WriteFailed [10] world.written
  else
    match line.dropPrefix? fd4Prefix with
    | some data => do
      if mode = .substitute ∧ isSubstituteTerminalReply data then
        let s ← Action.get
        Action.set { s with sawSubstituteTerminalReply := true }
      writeFd .fd4 .fd4WriteFailed (Text.utf8 data) world.written
    | none =>
      match line.dropPrefix? outPrefix with
      | some data => writeFd .stdout .stdoutWriteFailed (Text.utf8 data) world.written
      | none =>
        match line.dropPrefix? narPrefix with
        | some data => receiveChunk settings world data
        | none =>
          if line = narEndLine ++ ['\n'] ∨ line = narEndLine ++ ['\r', '\n'] then finishNar world
          -- a line without prefix is an old daemon's
          else writeFd .fd4 .fd4WriteFailed (Text.utf8 line) world.written

/-- `read_line` and what is done with the line. -/
def forwardLine (mode : RelayMode) (settings : RelaySettings) (world : LineWorld) (raw : Bytes) :
    Relay Unit :=
  match Text.fromUtf8 raw with
  | none => Action.fault .readFailed
  | some line => handleLine mode settings world line

/-! ### All lines -/

def forwardLoop (mode : RelayMode) (settings : RelaySettings) (worlds : Nat → LineWorld) :
    Nat → List Bytes → Relay Unit
  | _, [] => pure ()
  | n, raw :: rest => do
    forwardLine mode settings (worlds n) raw
    forwardLoop mode settings worlds (n + 1) rest

/-- The checks after the last line. -/
def finishRelay (removeTemporary : Bool) : Relay Unit := do
  let s ← Action.get
  match s.narDest with
  | some dest =>
    match s.narTempPath with
    | some temp => do
      let _ ← onFiles (removeFile temp removeTemporary)
      Action.fault (.closedBeforeNarEnd dest)
    | none => Action.fault (.closedBeforeNarEnd dest)
  | none =>
    if s.sawSubstituteTerminalReply then pure () else Action.fault .closedBeforeTerminalReply

/-- The lines that are handed over. -/
def receivedLines (world : RelayWorld) (replies : Bytes) : List Bytes :=
  let lines := splitInclusive 10 replies
  if world.broken then lines.filter fun line => line.getLast? = some 10 else lines

/-- Where the relay starts, with the destination of the request in the channel. -/
def startRelay (mode : RelayMode) (stdin : Text) (files : FileSystem) : RelayState where
  files := files
  dests := if mode = .substitute then (substituteDestination (Text.trimEnd stdin)).toList else []
  narDest := none
  narFile := none
  narTempPath := none
  narIndex := 0
  sawSubstituteTerminalReply := decide (mode ≠ .substitute)

/-- Read the daemon's replies and route them. In substitute mode `stdin` is the command. -/
def forwardReplies (mode : RelayMode) (settings : RelaySettings) (world : RelayWorld)
    (replies : Bytes) : Relay Unit := do
  forwardLoop mode settings world.lines 0 (receivedLines world replies)
  if world.broken then Action.fault .readFailed else finishRelay world.removeTemporary

def forward (mode : RelayMode) (settings : RelaySettings) (world : RelayWorld) (stdin : Option Text)
    (files : FileSystem) (replies : Bytes) : Outcome RelayState RelayEffect RelayFailure Unit :=
  match mode, stdin with
  | .substitute, none => ⟨[], startRelay mode [] files, .error .stdinClosed⟩
  | mode, stdin => forwardReplies mode settings world replies (startRelay mode (stdin.getD []) files)

end GuixP2p
