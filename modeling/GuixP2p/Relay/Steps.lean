import GuixP2p.Relay.Forward

/-!
# GuixP2p.Relay.Steps

**What the relay does with a line.** One equation for each kind of line; for a line that was
cut off, the kinds that a part of a frame can be (`handleLine_part`). Then what a chunk and
the end of a NAR do to the files. The runs are put together from these.
-/

namespace GuixP2p

open GuixP2p.Lib

variable {mode : RelayMode} {settings : RelaySettings} {world : LineWorld}

/-! ### Kinds of lines -/

section

theorem fd4EmptyLine_ne_fd4 (data rest : Text) : fd4Prefix ++ data ≠ fd4EmptyLine ++ rest := by
  intro h
  rw [fd4Prefix_eq, fd4EmptyLine_eq] at h
  simp at h

theorem handleLine_fd4Empty :
    handleLine mode settings world (fd4EmptyLine ++ ['\n']) =
      writeFd .fd4 .fd4WriteFailed [10] world.written := by
  unfold handleLine
  rw [if_pos (Or.inl rfl)]

theorem handleLine_fd4 (data : Text) :
    handleLine mode settings world (fd4Prefix ++ data) = (do
      if mode = .substitute ∧ isSubstituteTerminalReply data then
        let s ← Action.get
        Action.set { s with sawSubstituteTerminalReply := true }
      writeFd .fd4 .fd4WriteFailed (Text.utf8 data) world.written) := by
  unfold handleLine
  rw [if_neg (not_or.mpr ⟨fd4EmptyLine_ne_fd4 _ _, fd4EmptyLine_ne_fd4 _ _⟩),
    Text.dropPrefix?_append_self]

/-- The lines that are not for file descriptor 4 by their beginning. -/
theorem handleLine_of_not_fd4 {line : Text} (hfd4 : ¬ fd4Prefix <+: line)
    (hempty : ∀ rest, line ≠ fd4EmptyLine ++ '\r' :: rest ∧ line ≠ fd4EmptyLine ++ '\n' :: rest) :
    handleLine mode settings world line =
      match line.dropPrefix? outPrefix with
      | some data => writeFd .stdout .stdoutWriteFailed (Text.utf8 data) world.written
      | none =>
        match line.dropPrefix? narPrefix with
        | some data => receiveChunk settings world data
        | none =>
          if line = narEndLine ++ ['\n'] ∨ line = narEndLine ++ ['\r', '\n'] then finishNar world
          else writeFd .fd4 .fd4WriteFailed (Text.utf8 line) world.written := by
  unfold handleLine
  rewrite [if_neg (not_or.mpr ⟨(hempty []).2, (hempty ['\n']).1⟩), Text.dropPrefix?_eq_none hfd4]
  rfl

theorem handleLine_out (data : Text) :
    handleLine mode settings world (outPrefix ++ data) =
      writeFd .stdout .stdoutWriteFailed (Text.utf8 data) world.written := by
  rw [handleLine_of_not_fd4 (by simp [fd4Prefix_eq, outPrefix_eq]) (by simp [fd4EmptyLine_eq, outPrefix_eq]),
    Text.dropPrefix?_append_self]

theorem handleLine_nar (data : Text) :
    handleLine mode settings world (narPrefix ++ data) = receiveChunk settings world data := by
  rw [handleLine_of_not_fd4 (by simp [fd4Prefix_eq, narPrefix_eq]) (by simp [fd4EmptyLine_eq, narPrefix_eq]),
    Text.dropPrefix?_eq_none (by simp [outPrefix_eq, narPrefix_eq]), Text.dropPrefix?_append_self]

theorem handleLine_narEnd :
    handleLine mode settings world (narEndLine ++ ['\n']) = finishNar world := by
  rw [handleLine_of_not_fd4 (by simp [fd4Prefix_eq, narEndLine_eq]) (by simp [fd4EmptyLine_eq, narEndLine_eq]),
    Text.dropPrefix?_eq_none (by simp [outPrefix_eq, narEndLine_eq]),
    Text.dropPrefix?_eq_none (by simp [narPrefix_eq, narEndLine_eq])]
  simp only [true_or, if_true]

end

/-! ### The destination -/

section

variable {temp dest : Text} {disk : NarDisk}

/-- All operations on the destination succeed. -/
structure DestinationWorld.Done (world : DestinationWorld) : Prop where
  unreadable : world.unreadable = false
  removeDir : world.removeDir = none
  removeFile : world.removeFile = true
  copy : world.copy = .done

/-- Making room at the destination removes what is there, and nothing else. -/
theorem clearDestination_spec (world : DestinationWorld) :
    ∃ ok files', clearDestination dest world disk = ⟨[], ⟨disk.store, files'⟩, .ok ok⟩ ∧
      FileSystem.Removes disk.files files' ∧
      (∀ path, FileSystem.inside dest path = false → files' path = disk.files path) ∧
      (ok = true → files' dest = none) ∧ (world.Done → ok = true) := by
  have hrun : clearDestination dest world disk = Action.bind Action.get (fun disk => _) disk := rfl
  rw [hrun]
  simp only [Action.bind, Action.get]
  have hinside : FileSystem.inside dest dest = true := by simp [FileSystem.inside]
  split
  next hunreadable =>
    refine ⟨false, disk.files, rfl, FileSystem.Removes.refl _, fun _ _ => rfl, fun h => ?_, fun h => ?_⟩
    · cases h
    · rw [h.unreadable] at hunreadable
      cases hunreadable
  next =>
    cases hentry : disk.files dest with
    | none =>
        exact ⟨true, disk.files, rfl, FileSystem.Removes.refl _, fun _ _ => rfl, fun _ => hentry,
          fun _ => rfl⟩
    | some entry =>
        cases entry with
        | dir =>
            refine ⟨_, _, rfl, FileSystem.removes_removeDirAll _ _, fun path hpath => ?_,
              fun hok => ?_, fun h => ?_⟩
            · split <;> simp [hpath]
            · split at hok
              next => simp [hinside]
              next => cases hok
            · simp [h.removeDir]
        | file bytes =>
            refine ⟨_, _, rfl, FileSystem.removes_removeFile _ _, fun path hpath => ?_,
              fun hok => ?_, fun h => ?_⟩
            · refine FileSystem.removeFile_apply_of_ne (fun heq => ?_) _
              rw [heq, hinside] at hpath
              cases hpath
            · simp only [hentry] at hok ⊢
              split at hok
              next hallowed => simp [hallowed]
              next => cases hok
            · simp [h.removeFile, hentry]

theorem copyToDestination_eq (outcome : WriteOutcome) :
    copyToDestination temp dest outcome disk =
      match disk.files.read temp with
      | none => ⟨[], disk, .ok false⟩
      | some data => writeFile .destination dest data outcome disk := by
  have hrun : copyToDestination temp dest outcome disk = Action.bind Action.get (fun disk => _) disk :=
    rfl
  rw [hrun]
  simp only [Action.bind, Action.get]
  cases disk.files.read temp with
  | none => rfl
  | some data => rfl

/-- Everything `write_nar_to_destination` can do: give up after making room or without, or
copy what the file holds. -/
theorem writeNarToDestination_cases (world : DestinationWorld) :
    ∃ files', FileSystem.Removes disk.files files' ∧
      (∀ path, FileSystem.inside dest path = false → files' path = disk.files path) ∧
      ((writeNarToDestination temp dest world disk = ⟨[], ⟨disk.store, files'⟩, .ok false⟩ ∧
          (world.Done → files'.read temp = none)) ∨
        ∃ data, files'.read temp = some data ∧ files' dest = none ∧
          writeNarToDestination temp dest world disk =
            writeFile .destination dest data world.copy ⟨disk.store, files'⟩) := by
  obtain ⟨ok, files', hclear, hremoves, hsame, hroom, hdone⟩ := @clearDestination_spec dest disk world
  refine ⟨files', hremoves, hsame, ?_⟩
  have hrun : writeNarToDestination temp dest world disk =
      Action.bind (clearDestination dest world) (fun ok => _) disk := rfl
  rw [hrun]
  simp only [Action.bind, hclear]
  cases ok with
  | false => exact Or.inl ⟨rfl, fun h => absurd (hdone h) (by decide)⟩
  | true =>
      simp only [if_true, List.nil_append, copyToDestination_eq]
      cases hread : files'.read temp with
      | none => exact Or.inl ⟨rfl, fun _ => rfl⟩
      | some data => exact Or.inr ⟨data, rfl, hroom rfl, rfl⟩

end

/-! ### NAR data -/

/-- A NAR is on its way to `dest`, and the temporary file holds what has arrived. -/
structure Collecting (s : RelayState) (dest temp : Text) (bytes : Bytes) : Prop where
  narFile : s.narFile = some temp
  narDest : s.narDest = some dest
  narTempPath : s.narTempPath = some temp
  read : s.files.read temp = some bytes

section

variable {s : RelayState} {dest temp : Text} {bytes : Bytes}

/-- A file that is open stays so. -/
theorem openNar_of_collecting (h : Collecting s dest temp bytes) (opened : Bool) :
    openNar settings opened s = ⟨[], s, .ok ()⟩ := by
  have hrun : openNar settings opened s = Action.bind Action.get (fun s => _) s := rfl
  rw [hrun]
  simp only [Action.bind, Action.get, h.narFile, Option.isSome_some, if_true]
  rfl

/-- The first chunk opens a temporary file for the destination in the channel. -/
theorem openNar_of_dests (hfile : s.narFile = none) {dests : List Text} (hdests : s.dests = dest :: dests)
    (opened : Bool) :
    let temp := relayTemporaryPath settings (s.narIndex + 1)
    (openNar settings opened s = ⟨[], s, .error (.openTemporaryFailed temp)⟩ ∧
        ¬ (opened = true ∧ s.files temp ≠ some .dir)) ∨
      ∃ s', openNar settings opened s = ⟨[], s', .ok ()⟩ ∧ Collecting s' dest temp [] ∧
        s'.dests = dests ∧ s'.sawSubstituteTerminalReply = s.sawSubstituteTerminalReply ∧
        ∀ path, path ≠ temp → s'.files path = s.files path := by
  intro temp
  have hrun : openNar settings opened s = Action.bind Action.get (fun s => _) s := rfl
  rw [hrun]
  simp only [Action.bind, Action.get, hfile, hdests, Option.isSome_none]
  by_cases hdir : s.files temp = some .dir
  · have hwrite : s.files.write temp [] (if opened = true then .done else .refused) = (s.files, false) := by
      unfold FileSystem.write
      rw [if_pos hdir]
    refine Or.inl ⟨?_, fun h => h.2 hdir⟩
    rw [hwrite]
    rfl
  · cases opened with
    | false =>
        have hwrite : s.files.write temp [] (if false = true then .done else .refused) =
            (s.files, false) := by
          unfold FileSystem.write
          rw [if_neg hdir]
          rfl
        refine Or.inl ⟨?_, fun h => absurd h.1 (by decide)⟩
        rw [hwrite]
        rfl
    | true =>
        have hwrite : s.files.write temp [] (if true = true then .done else .refused) =
            (Function.update s.files temp (some (.file [])), true) := FileSystem.write_done hdir []
        refine Or.inr ⟨{ s with
            files := Function.update s.files temp (some (.file []))
            dests := dests
            narIndex := s.narIndex + 1
            narDest := some dest
            narTempPath := some temp
            narFile := some temp }, ?_, ⟨rfl, rfl, rfl, ?_⟩, rfl, rfl, fun path hne => ?_⟩
        · rw [hwrite]
          rfl
        · simp [FileSystem.read]
        · simp [hne]

/-- What a chunk does to an open file. -/
theorem appendChunk_of_collecting (h : Collecting s dest temp bytes) (append : WriteOutcome)
    {data : Text} {chunk : Bytes} (hdecode : Base64.decode (Text.trimEnd data) = some chunk) :
    ∃ files', (∀ path, path ≠ temp → files' path = s.files path) ∧
      ((appendChunk append data s = ⟨[], { s with files := files' }, .error .temporaryWriteFailed⟩ ∧
          append ≠ .done) ∨
        (files'.read temp = some (bytes ++ chunk) ∧
          appendChunk append data s = ⟨[.write ⟨.temporary, temp, chunk, true⟩],
            { s with files := files' }, .ok ()⟩)) := by
  obtain ⟨hsame, hread, hdone⟩ := FileSystem.append_spec h.read chunk append
  refine ⟨(s.files.append temp chunk append).1, hsame, ?_⟩
  unfold appendChunk
  rw [hdecode]
  simp only
  have hrun : ∀ m : RelayState → Relay Unit, (do let s ← Action.get; m s : Relay Unit) s = m s s := by
    intro m
    rfl
  rw [hrun]
  simp only [h.narFile]
  cases hok : (s.files.append temp chunk append).2 with
  | true => exact Or.inr ⟨hread hok, rfl⟩
  | false =>
      refine Or.inl ⟨rfl, fun heq => ?_⟩
      rw [hdone heq] at hok
      cases hok

theorem appendChunk_of_malformed (append : WriteOutcome) {data : Text}
    (hdecode : Base64.decode (Text.trimEnd data) = none) :
    appendChunk append data s = ⟨[], s, .error .decodeFailed⟩ := by
  unfold appendChunk
  rw [hdecode]
  rfl

/-- All operations for a line succeed. -/
structure LineWorld.Done (world : LineWorld) : Prop where
  written : world.written = true
  opened : world.opened = true
  append : world.append = .done
  flushed : world.flushed = true
  destination : world.destination.Done

/-- A NAR has been copied to its destination. -/
structure Delivered (s : RelayState) (dest : Text) (nar : Bytes) : Prop where
  narFile : s.narFile = none
  narDest : s.narDest = none
  read : s.files.read dest = some nar

/-- How a NAR that is complete gets to its destination. If that fails, nothing was written
there, unless the copy stopped half-way. -/
structure CopyFailed (world : LineWorld) (s : RelayState) (dest temp : Text) (bytes : Bytes)
    (o : Outcome RelayState RelayEffect RelayFailure Unit) : Prop where
  result : ∃ failure, failure ≠ .waits ∧ o.result = .error failure
  notDone : ¬ (world.Done ∧ FileSystem.inside dest temp = false)
  trace : ∀ e ∈ o.trace, ∃ part n, world.destination.copy = .cut n ∧ part <+: bytes ∧
    e = .write ⟨.destination, dest, part, false⟩
  read : (∀ n, world.destination.copy ≠ .cut n) →
    o.state.files.read dest = s.files.read dest ∨ o.state.files.read dest = none

structure CopyDone (s : RelayState) (dest : Text) (bytes : Bytes)
    (o : Outcome RelayState RelayEffect RelayFailure Unit) : Prop where
  result : o.result = .ok ()
  trace : o.trace = [.write ⟨.destination, dest, bytes, true⟩]
  delivered : Delivered o.state dest bytes
  dests : o.state.dests = s.dests
  saw : o.state.sawSubstituteTerminalReply = s.sawSubstituteTerminalReply

theorem copyNar_of_failed {world : LineWorld} {ws : List FileWrite} {disk' : NarDisk}
    (h : writeNarToDestination temp dest world.destination ⟨⟨[], 0, ∅⟩, s.files⟩ =
      ⟨ws, disk', .ok false⟩) :
    copyNar world temp dest s = ⟨ws.map .write, { s with files := disk'.files },
      .error (.destinationFailed dest)⟩ := by
  have hrun : copyNar world temp dest s =
      Action.bind (onFiles (writeNarToDestination temp dest world.destination)) (fun ok => _) s := rfl
  rw [hrun]
  simp only [Action.bind, onFiles, h]
  simp [Action.fault]

theorem copyNar_of_copied {world : LineWorld} {ws : List FileWrite} {disk' : NarDisk}
    (h : writeNarToDestination temp dest world.destination ⟨⟨[], 0, ∅⟩, s.files⟩ =
      ⟨ws, disk', .ok true⟩) :
    copyNar world temp dest s = ⟨ws.map .write, { s with
      files := (disk'.files.removeFile temp world.removeTemporary).1 }, .ok ()⟩ := by
  have hrun : copyNar world temp dest s =
      Action.bind (onFiles (writeNarToDestination temp dest world.destination)) (fun ok => _) s := rfl
  rw [hrun]
  simp only [Action.bind, onFiles, h, if_true]
  exact congrArg (fun τ => (⟨τ, _, _⟩ : Outcome RelayState RelayEffect RelayFailure Unit))
    (List.append_nil _)

theorem copyNar_cases (hread : s.files.read temp = some bytes) (hfile : s.narFile = none)
    (hdest : s.narDest = none) (world : LineWorld) :
    CopyFailed world s dest temp bytes (copyNar world temp dest s) ∨
      CopyDone s dest bytes (copyNar world temp dest s) := by
  obtain ⟨files', hremoves, hsame, hcase⟩ :=
    @writeNarToDestination_cases temp dest ⟨⟨[], 0, ∅⟩, s.files⟩ world.destination
  -- what is left at the destination was there before
  have hleft : files'.read dest = s.files.read dest ∨ files'.read dest = none := by
    cases hold : files'.read dest with
    | none => exact Or.inr rfl
    | some old => exact Or.inl (hremoves.read hold).symm
  rcases hcase with ⟨hwnd, hnone⟩ | ⟨data, hdata, hfree, hwnd⟩
  · rw [copyNar_of_failed hwnd]
    refine Or.inl ⟨⟨.destinationFailed dest, by simp, rfl⟩, ?_,
      fun e he => absurd he List.not_mem_nil, fun _ => hleft⟩
    intro h
    obtain ⟨hdone, houtside⟩ := h
    have hkept := (FileSystem.read_congr (hsame temp houtside)).trans hread
    rw [hnone hdone.destination] at hkept
    cases hkept
  · obtain rfl : data = bytes := Option.some.inj ((hremoves.read hdata).symm.trans hread)
    have hdir : files' dest ≠ some .dir := by rw [hfree]; simp
    cases hcopy : world.destination.copy with
    | refused =>
        have hwrite : writeFile .destination dest data .refused ⟨⟨[], 0, ∅⟩, files'⟩ =
            ⟨[], ⟨⟨[], 0, ∅⟩, files'⟩, .ok false⟩ := by
          simp [writeFile, FileSystem.write, FileSystem.written, hfree]
        rw [hcopy, hwrite] at hwnd
        rw [copyNar_of_failed hwnd]
        refine Or.inl ⟨⟨.destinationFailed dest, by simp, rfl⟩, ?_,
          fun e he => absurd he List.not_mem_nil, fun _ => hleft⟩
        intro h
        obtain ⟨hdone, -⟩ := h
        cases hcopy.symm.trans hdone.destination.copy
    | cut n =>
        have hwrite : writeFile .destination dest data (.cut n) ⟨⟨[], 0, ∅⟩, files'⟩ =
            ⟨[⟨.destination, dest, data.take n, false⟩],
              ⟨⟨[], 0, ∅⟩, Function.update files' dest (some (.file (data.take n)))⟩, .ok false⟩ := by
          simp [writeFile, FileSystem.write, FileSystem.written, hfree]
        rw [hcopy, hwrite] at hwnd
        rw [copyNar_of_failed hwnd]
        refine Or.inl ⟨⟨.destinationFailed dest, by simp, rfl⟩, ?_, fun e he => ?_,
          fun hnot => absurd hcopy (hnot n)⟩
        · intro h
          obtain ⟨hdone, -⟩ := h
          cases hcopy.symm.trans hdone.destination.copy
        · exact ⟨data.take n, n, hcopy, List.take_prefix n data, List.mem_singleton.mp he⟩
    | done =>
        have hwrite : writeFile .destination dest data .done ⟨⟨[], 0, ∅⟩, files'⟩ =
            ⟨[⟨.destination, dest, data, true⟩],
              ⟨⟨[], 0, ∅⟩, Function.update files' dest (some (.file data))⟩, .ok true⟩ := by
          simp [writeFile, FileSystem.write, FileSystem.written, hfree]
        rw [hcopy, hwrite] at hwnd
        rw [copyNar_of_copied hwnd]
        refine Or.inr ⟨rfl, rfl, ⟨hfile, hdest, ?_⟩, rfl, rfl⟩
        -- the destination was free, so it is not the temporary file
        have hne : dest ≠ temp := by
          intro h
          obtain rfl := h
          rw [FileSystem.read, hfree] at hdata
          cases hdata
        rw [FileSystem.read_congr (FileSystem.removeFile_apply_of_ne hne _)]
        simp [FileSystem.read]

/-- The end of a NAR. -/
theorem finishNar_of_collecting (h : Collecting s dest temp bytes) (world : LineWorld) :
    CopyFailed world s dest temp bytes (finishNar world s) ∨ CopyDone s dest bytes (finishNar world s) := by
  have hrun : finishNar world s = Action.bind Action.get (fun s => _) s := rfl
  cases hflushed : world.flushed with
  | false =>
      rw [hrun]
      simp only [Action.bind, Action.get, h.narFile, Option.isSome_some, hflushed]
      refine Or.inl ⟨⟨.flushFailed, by simp, rfl⟩, ?_, fun e he => absurd he List.not_mem_nil,
        fun _ => Or.inl rfl⟩
      intro h'
      obtain ⟨hdone, -⟩ := h'
      cases hflushed.symm.trans hdone.flushed
  | true =>
      have hcopy : finishNar world s = copyNar world temp dest
          { s with narFile := none, narDest := none, narTempPath := none } := by
        rw [hrun]
        simp only [Action.bind, Action.get, h.narFile, h.narDest, h.narTempPath, Option.isSome_some,
          hflushed]
        rfl
      rw [hcopy]
      rcases @copyNar_cases { s with narFile := none, narDest := none, narTempPath := none }
        dest temp bytes h.read rfl rfl world with hfailed | hdone
      · exact Or.inl ⟨hfailed.result, hfailed.notDone, hfailed.trace, hfailed.read⟩
      · exact Or.inr ⟨hdone.result, hdone.trace, hdone.delivered, hdone.dests, hdone.saw⟩

end

end GuixP2p
