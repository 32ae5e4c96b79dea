import GuixP2p.Extension.Session

/-!
# GuixP2p.Relay.Transparent

**guix-daemon cannot tell a relay from the program itself.** `guix-p2p substitute` can answer a request
in its own process, or be started as a relay that leaves the request to the daemon. guix-daemon sees the
same of both: the same lines on file descriptor 4 and in the build log and the same NAR at the
destination, in the same order, and a process that ends well in both cases or in none.

The two ways part where the NAR is handed over (`Alike`). From there on the disks differ, but what is
saved for other peers shows nothing of itself.
-/

namespace GuixP2p

open GuixP2p.Lib

/-! ### What guix-daemon sees -/

inductive Visible
  | fd4 (bytes : Bytes)
  | stdout (bytes : Bytes)
  | destination (w : FileWrite)
  deriving DecidableEq

def FileWrite.visible? (w : FileWrite) : Option Visible :=
  if w.target = .destination then some (.destination w) else none

/-- `ReplyWriter::Fd4` writes each line at once. -/
def Effect.visible? : Effect → Option Visible
  | .line text => some (.fd4 (Text.utf8 (text ++ ['\n'])))
  | .replyEnd => some (.fd4 [10])
  | .trace text => some (.stdout (Text.utf8 (text ++ ['\n'])))
  | .write w => w.visible?
  | _ => none

def RelayEffect.visible? : RelayEffect → Option Visible
  | .fd4 bytes => some (.fd4 bytes)
  | .stdout bytes => some (.stdout bytes)
  | .write w => w.visible?

def Effect.trace? : Effect → Option Text
  | .trace text => some text
  | _ => none

/-- An effect of a request that has handed over nothing so far. -/
def Effect.Unhanded : Effect → Prop
  | .nar _ => False
  | .narEnd => False
  | .write _ => False
  | _ => True

/-- An effect of saving a NAR for other peers. -/
def Effect.Kept : Effect → Prop
  | .write w => w.target ≠ .destination
  | .startProviding _ => True
  | _ => False

theorem visible_kept {τ : List Effect} (h : ∀ e ∈ τ, e.Kept) : τ.filterMap Effect.visible? = [] := by
  refine List.filterMap_eq_nil_iff.mpr fun e he => ?_
  have hkept := h e he
  cases e with
  | write w => exact if_neg hkept
  | startProviding hash => rfl
  | _ => exact absurd hkept id

theorem Effect.Kept.logs {e : Effect} (h : e.Kept) : e.Logs := by
  cases e with
  | write w => trivial
  | startProviding hash => trivial
  | _ => exact absurd h id

theorem Effect.Kept.trace? {e : Effect} (h : e.Kept) : e.trace? = none := by
  cases e with
  | trace text => exact absurd h id
  | _ => rfl

/-! ### Handing over -/

/-- Everything goes well where the direct mode hands over a NAR: the temporary file can be made and is
not at or below the destination. -/
structure DeliveryWorld.Done (world : DeliveryWorld) (files : FileSystem) (dest narHashHex : Text) : Prop where
  temporary : world.temporary = .done
  free : files (temporaryPath world narHashHex) ≠ some .dir
  outside : FileSystem.inside dest (temporaryPath world narHashHex) = false
  destination : world.destination.Done

theorem handOverDirect_done {world : DeliveryWorld} {s : Shared} {dest narHashHex : Text}
    (h : world.Done s.disk.files dest narHashHex) (nar : Bytes) :
    ∃ files, handOverDirect world narHashHex dest nar s =
      ⟨[.write ⟨.temporary, temporaryPath world narHashHex, nar, true⟩, .write ⟨.destination, dest, nar, true⟩],
        { s with disk := { s.disk with files } }, .ok true⟩ := by
  have hwrite := FileSystem.write_done h.free nar
  have hwritten : s.disk.files.written (temporaryPath world narHashHex) nar .done = some nar := by
    unfold FileSystem.written
    rw [if_neg h.free]
  have htemp : onDisk (writeFile .temporary (temporaryPath world narHashHex) nar world.temporary) s =
      ⟨[.write ⟨.temporary, temporaryPath world narHashHex, nar, true⟩],
        { s with disk := { s.disk with
          files := Function.update s.disk.files (temporaryPath world narHashHex) (some (.file nar)) } },
        .ok true⟩ := by
    simp only [onDisk, Action.focus, writeFile, h.temporary, hwrite, hwritten]
    rfl
  obtain ⟨files', -, hsame, hcases⟩ := @writeNarToDestination_cases (temporaryPath world narHashHex) dest
    { s.disk with files := Function.update s.disk.files (temporaryPath world narHashHex) (some (.file nar)) }
    world.destination
  have hread : files'.read (temporaryPath world narHashHex) = some nar := by
    rw [FileSystem.read_congr (hsame _ h.outside)]
    simp [FileSystem.read]
  have hcopy : writeNarToDestination (temporaryPath world narHashHex) dest world.destination
      { s.disk with files := Function.update s.disk.files (temporaryPath world narHashHex) (some (.file nar)) } =
      ⟨[⟨.destination, dest, nar, true⟩], ⟨s.disk.store, Function.update files' dest (some (.file nar))⟩,
        .ok true⟩ := by
    rcases hcases with ⟨-, hnone⟩ | ⟨data, hdata, hroom, hcopied⟩
    · rw [hnone h.destination] at hread
      cases hread
    · obtain rfl := Option.some.inj (hread.symm.trans hdata)
      have hfree : files' dest ≠ some .dir := by simp [hroom]
      have hstored : files'.written dest nar .done = some nar := by
        unfold FileSystem.written
        rw [if_neg hfree]
      rw [hcopied]
      simp only [writeFile, h.destination.copy, FileSystem.write_done hfree, hstored]
      rfl
  have hok :
      (onDisk (writeFile .temporary (temporaryPath world narHashHex) nar world.temporary) s).result = .ok true := by
    rw [htemp]
  unfold handOverDirect
  dsimp only
  rw [Action.bind_of_ok hok, htemp]
  simp only [if_true]
  have hok' : (onDisk (writeNarToDestination (temporaryPath world narHashHex) dest world.destination)
      { s with disk := { s.disk with
        files := Function.update s.disk.files (temporaryPath world narHashHex) (some (.file nar)) } }).result =
      .ok true := by
    simp only [onDisk, Action.focus, hcopy]
  rw [Action.bind_of_ok hok']
  simp only [onDisk, Action.focus, hcopy]
  exact ⟨_, rfl⟩

theorem handOverSocket_done {world : DeliveryWorld} (hflushed : world.flushed = true)
    (hstream : world.stream = .done) (nar : Bytes) (s : Shared) :
    handOverSocket world nar s = ⟨.flush :: narLines nar .done, s, .ok true⟩ := by
  unfold handOverSocket
  rw [if_pos hflushed, hstream]
  show Outcome.mk (Effect.flush :: (narLines nar .done ++ [])) s _ = _
  rw [List.append_nil]
  rfl

/-! ### After the NAR -/

section

variable [MetadataFormat]

omit [MetadataFormat] in
/-- A file elsewhere. -/
theorem writeFile_elsewhere {store : NarStore} {target : Target} (htarget : target ≠ .destination) (path : Text)
    (data : Bytes) (outcome : WriteOutcome) :
    Action.Triple (fun d (τ : List FileWrite) => d.store = store ∧ ∀ w ∈ τ, w.target ≠ .destination)
      (fun _ d τ => d.store = store ∧ ∀ w ∈ τ, w.target ≠ .destination) (fun _ _ => False)
      (writeFile target path data outcome) := by
  refine ⟨fun d τ ok h _ => ⟨h.1, fun w hw => ?_⟩, fun d τ e _ hr => ?_⟩
  · rcases List.mem_append.mp hw with hw | hw
    · exact h.2 w hw
    · obtain ⟨bytes, -, rfl⟩ := List.mem_map.mp hw
      exact htarget
  · cases hr

/-- A save writes to no destination, and it fails an assertion only for a block size of zero. -/
theorem saveWithSource_elsewhere {store : NarStore} (hb : 0 < store.blockSize) (world : SaveWorld) (narHashHex : Text)
    (nar : Bytes) (storePath : Option Text) (source : SeedSource) :
    Action.Triple (fun d (τ : List FileWrite) => d.store = store ∧ ∀ w ∈ τ, w.target ≠ .destination)
      (fun _ _ τ => ∀ w ∈ τ, w.target ≠ .destination) (fun _ _ => False)
      (saveWithSource world narHashHex nar storePath source) := by
  refine Action.Triple.bind Action.Triple.get fun d => ?_
  refine Action.Triple.bind ((writeFile_elsewhere (by simp) _ nar world.nar).assume fun _ _ h => h.2) fun ok => ?_
  cases ok with
  | false => exact Action.Triple.pure fun _ _ h => h.2
  | true =>
      refine Action.Triple.bind Action.Triple.get fun d' => ?_
      refine Action.Triple.given (fun _ _ h => congrArg NarStore.blockSize (h.1 ▸ h.2.1)) fun hsize => ?_
      rw [dif_pos (hsize ▸ hb)]
      refine Action.Triple.bind (Q := fun _ _ τ => ∀ w ∈ τ, w.target ≠ .destination)
        (Action.Triple.set fun _ _ h => h.2.2) fun _ => ?_
      refine Action.Triple.bind Action.Triple.get fun d'' => ?_
      exact ((@writeFile_elsewhere d''.store _ (by simp) _ _ world.sidecar).weaken
        (fun _ _ h => ⟨h.1 ▸ rfl, h.2⟩) (fun _ _ _ h => h.2) fun _ _ h => h)

/-- Saving a NAR for other peers shows nothing of itself. -/
theorem autoSeed_kept {store : NarStore} (hb : 0 < store.blockSize) (cfg : Config) (world : SaveWorld)
    (narHashHex : Text) (nar : Bytes) (storePath : Text) (source : DownloadSource) :
    Action.Triple (fun s τ => s.disk.store = store ∧ τ = []) (fun _ _ τ => ∀ e ∈ τ, e.Kept) (fun _ _ => False)
      (autoSeed cfg world narHashHex nar storePath source) := by
  have hnil : ∀ s : Shared, ∀ τ : List Effect, s.disk.store = store ∧ τ = [] → ∀ e ∈ τ, e.Kept := by
    intro s τ h
    simp [h.2]
  unfold autoSeed
  split
  · refine Action.Triple.bind Action.Triple.get fun s => ?_
    split
    · exact Action.Triple.pure fun _ τ h => hnil _ τ h.2
    · refine Action.Triple.bind (Q := fun _ _ τ => ∀ e ∈ τ, e.Kept) (Action.Triple.focus fun s' τ h => ?_)
        fun ok => ?_
      · refine (saveWithSource_elsewhere hb world narHashHex nar (some storePath) .downloaded).weaken
          (fun _ _ hd => ⟨hd.1 ▸ h.2.1, by simp [hd.2]⟩) (fun _ _ ω hω e he => ?_) fun _ _ h => h
        rw [h.2.2, List.nil_append] at he
        obtain ⟨w, hw, rfl⟩ := List.mem_map.mp he
        exact hω w hw
      · cases ok with
        | false => exact Action.Triple.pure fun _ _ h => h
        | true =>
            refine Action.Triple.emit fun _ τ h e he => ?_
            rcases List.mem_append.mp he with he | he
            · exact h e he
            · rw [List.mem_singleton.mp he]
              trivial
  · exact Action.Triple.pure hnil

end

/-! ### Two ways of one request -/

/-- A request that is answered directly, and the same request on a socket. They do the same, or they part
where a NAR is handed over. -/
inductive Alike [Sha256] (dest : Text) (o o' : Outcome Shared Effect Panic Unit) : Prop
  | same (trace : o.trace = o'.trace) (result : o.result = o'.result) (unhanded : ∀ e ∈ o.trace, e.Unhanded)
  | handed (ω κ κ' : List Effect) (nar : Bytes) (temp done : Text) (unhanded : ∀ e ∈ ω, e.Unhanded)
      (kept : ∀ e ∈ κ, e.Kept) (kept' : ∀ e ∈ κ', e.Kept)
      (direct : o.trace = ω ++ [.write ⟨.temporary, temp, nar, true⟩, .write ⟨.destination, dest, nar, true⟩] ++
        κ ++ [.trace done, .line (successLine (Hex.encode (Sha256.digest nar).toList) nar.length)])
      (socket : o'.trace = ω ++ .flush :: narLines nar .done ++ κ' ++
        [.trace done, .line (successLine (Hex.encode (Sha256.digest nar).toList) nar.length)])
      (result : o.result = .ok ()) (result' : o'.result = .ok ())

/-- Requests that are alike are alike after a common beginning. -/
theorem Alike.bind [Sha256] {α : Type} {dest : Text} {m : Action Shared Effect Panic α}
    {f f' : α → Action Shared Effect Panic Unit} {s : Shared} (hm : ∀ e ∈ (m s).trace, e.Unhanded)
    (hf : ∀ a, (m s).result = .ok a → Alike dest (f a (m s).state) (f' a (m s).state)) :
    Alike dest ((m >>= f) s) ((m >>= f') s) := by
  cases hr : (m s).result with
  | error e =>
      rw [Action.bind_of_error hr, Action.bind_of_error hr]
      exact .same rfl rfl hm
  | ok a =>
      rw [Action.bind_of_ok hr, Action.bind_of_ok hr]
      cases hf a hr with
      | same trace result unhanded =>
          refine .same (congrArg ((m s).trace ++ ·) trace) result fun e he => ?_
          rcases List.mem_append.mp he with he | he
          · exact hm e he
          · exact unhanded e he
      | handed ω κ κ' nar temp done unhanded hkept hkept' direct socket result result' =>
          refine .handed ((m s).trace ++ ω) κ κ' nar temp done (fun e he => ?_) hkept hkept' ?_ ?_ result result'
          · rcases List.mem_append.mp he with he | he
            · exact hm e he
            · exact unhanded e he
          · simp [direct]
          · simp [socket]

/-- Requests that are refused in the same way. -/
theorem Alike.refl [Sha256] {dest : Text} {o : Outcome Shared Effect Panic Unit} (h : ∀ e ∈ o.trace, e.Unhanded) :
    Alike dest o o := .same rfl rfl h

section

variable [MetadataFormat] [Sha256] {cfg : Config} {dest : Text} {s : Shared}

omit [Sha256] in
/-- The end of a request after the NAR. -/
theorem closing_spec (hb : 0 < s.disk.store.blockSize) (world : SaveWorld) (narHashHex : Text) (nar : Bytes)
    (storePath : Text) (source : DownloadSource) (done reply : Text) :
    ∃ kept s', (∀ e ∈ kept, e.Kept) ∧ (do
      autoSeed cfg world narHashHex nar storePath source
      Action.emit (.trace done)
      Action.emit (.line reply) : Action Shared Effect Panic Unit) s =
        ⟨kept ++ [.trace done, .line reply], s', .ok ()⟩ := by
  have htriple := autoSeed_kept hb cfg world narHashHex nar storePath source
  cases hr : (autoSeed cfg world narHashHex nar storePath source s).result with
  | error p => exact absurd (htriple.faults s [] p ⟨rfl, rfl⟩ hr) id
  | ok u =>
      refine ⟨_, (autoSeed cfg world narHashHex nar storePath source s).state,
        htriple.returns s [] u ⟨rfl, rfl⟩ hr, ?_⟩
      rw [Action.bind_of_ok hr]
      rfl

theorem deliver_alike {world : DeliveryWorld} (hflushed : world.flushed = true) (hstream : world.stream = .done)
    (hdone : ∀ d : Digest, world.Done s.disk.files dest (Hex.encode d.toList)) (hb : 0 < s.disk.store.blockSize)
    (storePath : Text) (narHash : Digest) (nar : DownloadedNar) :
    Alike dest (deliver cfg .direct world dest storePath narHash nar s)
      (deliver cfg (.socket true) world dest storePath narHash nar s) := by
  unfold deliver
  by_cases heq : eqIgnoreAsciiCase (Hex.encode narHash.toList) (Hex.encode (Sha256.digest nar.data).toList) = true
  · rw [if_pos heq, if_pos heq]
    obtain rfl := digest_eq_of_hex heq
    obtain ⟨files, hdirect⟩ := handOverDirect_done (hdone (Sha256.digest nar.data)) nar.data
    have hsocket := handOverSocket_done hflushed hstream nar.data s
    obtain ⟨kept, t, hkept, hclose⟩ := @closing_spec _ cfg { s with disk := { s.disk with files } } hb world.save
      (Hex.encode (Sha256.digest nar.data).toList) nar.data storePath nar.source
      (formatTraceSucceeded storePath nar.traceUrl nar.data.length)
      (successLine (Hex.encode (Sha256.digest nar.data).toList) nar.data.length)
    obtain ⟨kept', t', hkept', hclose'⟩ := @closing_spec _ cfg s hb world.save
      (Hex.encode (Sha256.digest nar.data).toList) nar.data storePath nar.source
      (formatTraceSucceeded storePath nar.traceUrl nar.data.length)
      (successLine (Hex.encode (Sha256.digest nar.data).toList) nar.data.length)
    have hok : (handOver .direct world (Hex.encode (Sha256.digest nar.data).toList) dest nar.data s).result = .ok true := by
      simp only [handOver, hdirect]
    have hok' : (handOver (.socket true) world (Hex.encode (Sha256.digest nar.data).toList) dest nar.data s).result =
        .ok true := by
      simp only [handOver, hsocket]
    rw [Action.bind_of_ok hok, Action.bind_of_ok hok']
    simp only [if_true, handOver, hdirect, hsocket, hclose, hclose']
    exact .handed [] kept kept' nar.data _ _ (by simp) hkept hkept' rfl (by simp) rfl rfl
  · rw [if_neg heq, if_neg heq]
    refine .refl fun e he => ?_
    rcases List.mem_cons.mp he with rfl | he
    · trivial
    · rw [List.mem_singleton.mp he]
      trivial

/-- What a request has done before a NAR is there: no file was touched. -/
def Untouched (disk : NarDisk) (s : Shared) (τ : List Effect) : Prop := s.disk = disk ∧ ∀ e ∈ τ, e.Unhanded

omit [MetadataFormat] [Sha256] in
theorem Untouched.append {disk : NarDisk} {τ ω : List Effect} (h : Untouched disk s τ) (hω : ∀ e ∈ ω, e.Unhanded) :
    Untouched disk s (τ ++ ω) := by
  refine ⟨h.1, fun e he => ?_⟩
  rcases List.mem_append.mp he with he | he
  · exact h.2 e he
  · exact hω e he

variable [SignatureLib]

omit [MetadataFormat] in
theorem keeps_lookupNarinfo_untouched (cfg : Config) (world : MetadataWorld) (h : Text) (disk : NarDisk) :
    Action.Keeps (Untouched disk) (lookupNarinfo cfg world h) := by
  have hemit : ∀ info, Action.Keeps (φ := Panic) (Untouched disk) (Action.emit (.narinfo h info)) := by
    intro info
    exact Action.Keeps.emit fun _ _ hs => hs.append (by simp [Effect.Unhanded])
  refine Action.Keeps.bind (Action.Keeps.bind Action.Keeps.get fun s => ?_) fun r => ?_
  · split
    · exact Action.Keeps.bind (hemit _) fun _ => Action.Keeps.pure _
    · exact Action.Keeps.pure _
  · cases r with
    | some info => exact Action.Keeps.pure _
    | none =>
        dsimp only
        split
        · exact Action.Keeps.pure _
        · refine Action.Triple.bind Action.Triple.get fun s => ?_
          split
          · exact Action.Triple.fault fun _ _ hs => hs.2
          · exact Action.Triple.pure fun _ _ hs => hs.2
          · refine Action.Triple.bind (Q := fun _ => Untouched disk)
              (Action.Triple.set fun _ _ hs => ⟨hs.1 ▸ hs.2.1, hs.2.2⟩) fun _ => ?_
            exact Action.Keeps.bind (hemit _) fun _ => Action.Keeps.pure _

variable [Decompressors]

omit [SignatureLib] in
theorem substituteWith_alike {world : SubstituteWorld} (hflushed : world.delivery.flushed = true)
    (hstream : world.delivery.stream = .done)
    (hdone : ∀ d : Digest, world.delivery.Done s.disk.files dest (Hex.encode d.toList))
    (hb : 0 < s.disk.store.blockSize) (h : Text) (info : Narinfo) :
    Alike dest (substituteWith cfg .direct world dest h info s) (substituteWith cfg (.socket true) world dest h info s) := by
  have hrefused : Alike dest (replyNotFound s) (replyNotFound s) :=
    .refl fun e he => by rw [List.mem_singleton.mp he]; trivial
  unfold substituteWith
  cases sha256Bytes info.narHash with
  | error p => exact .refl (by simp [Action.fault])
  | ok found =>
    obtain _ | narHash := found
    · exact hrefused
    have hkeeps : Action.Keeps (Untouched s.disk) (download cfg world info narHash h) :=
      keeps_download (fun _ _ texts hs => hs.append (by simp [Effect.Unhanded])) cfg world info narHash h
    have hends : Untouched s.disk (download cfg world info narHash h s).state (download cfg world info narHash h s).trace :=
      hkeeps.ends ⟨rfl, by simp⟩
    refine .bind hends.2 fun r hr => ?_
    cases r with
    | ok nar =>
        rw [← hends.1] at hdone hb
        exact deliver_alike hflushed hstream hdone hb _ _ _
    | error e =>
        refine .refl fun e he => ?_
        rw [List.mem_singleton.mp he]
        trivial

/-- **The two ways part where the NAR is handed over**, and nowhere else. -/
theorem trySwarmSubstitute_alike {world : SubstituteWorld} (hflushed : world.delivery.flushed = true)
    (hstream : world.delivery.stream = .done)
    (hdone : ∀ d : Digest, world.delivery.Done s.disk.files dest (Hex.encode d.toList))
    (hb : 0 < s.disk.store.blockSize) (path : Text) :
    Alike dest (trySwarmSubstitute cfg .direct world path dest s)
      (trySwarmSubstitute cfg (.socket true) world path dest s) := by
  unfold trySwarmSubstitute
  cases hashPart path with
  | error e => exact .refl fun e he => by rw [List.mem_singleton.mp he]; trivial
  | ok h =>
    have hends : Untouched s.disk (lookupNarinfo cfg world.metadata h s).state
        (lookupNarinfo cfg world.metadata h s).trace :=
      (keeps_lookupNarinfo_untouched cfg world.metadata h s.disk).ends ⟨rfl, by simp⟩
    refine .bind hends.2 fun r hr => ?_
    rw [← hends.1] at hdone hb
    cases r with
    | some info => exact substituteWith_alike hflushed hstream hdone hb h info
    | none => exact .refl fun e he => by rw [List.mem_singleton.mp he]; trivial

end

/-! ### What a relay makes of a request -/

/-- The lines of a log, buffered. -/
theorem foldl_perform_log {τ : List Effect} (hτ : ∀ e ∈ τ, e.Logs) (w : SocketWriter) :
    τ.foldl SocketWriter.perform w =
      { w with buf := w.buf ++ sendFrames ((τ.filterMap Effect.trace?).map .out) } := by
  induction τ generalizing w with
  | nil => simp
  | cons e τ ih =>
      rw [List.forall_mem_cons] at hτ
      rw [List.foldl_cons, ih hτ.2]
      cases e with
      | trace text =>
          simp only [SocketWriter.perform, SocketWriter.writeTrace, writeBufferedLine_eq (f := .out text) rfl,
            List.append_assoc, ← sendFrames_append]
          rfl
      | line text => exact absurd hτ.1 id
      | replyEnd => exact absurd hτ.1 id
      | flush => exact absurd hτ.1 id
      | nar chunk => exact absurd hτ.1 id
      | narEnd => exact absurd hτ.1 id
      | _ => rfl

/-- The lines around a NAR: those before it are flushed with it. -/
theorem foldl_perform_handed {ω ω' : List Effect} (hω : Logged ω) (hω' : Logged ω') (nar : Bytes) :
    (ω ++ .flush :: narLines nar .done ++ ω').foldl SocketWriter.perform .new =
      ⟨sendFrames ((ω'.filterMap Effect.trace?).map .out),
        sendFrames ((ω.filterMap Effect.trace?).map .out ++ narFrames nar)⟩ := by
  rw [List.append_assoc, List.foldl_append, List.cons_append, List.foldl_cons, List.foldl_append,
    foldl_perform_narLines, foldl_perform_log hω, foldl_perform_log hω']
  simp [SocketWriter.perform, SocketWriter.flushSocket, SocketWriter.writeNarDataToSocket, SocketWriter.new,
    narDataBytes_eq]

theorem visible_log {τ : List Effect} (hlogs : ∀ e ∈ τ, e.Logs) (hunhanded : ∀ e ∈ τ, e.Unhanded) :
    τ.filterMap Effect.visible? = (τ.filterMap Effect.trace?).map fun line => .stdout (Text.utf8 (line ++ ['\n'])) := by
  induction τ with
  | nil => rfl
  | cons e τ ih =>
      rw [List.forall_mem_cons] at hlogs hunhanded
      have htail := ih hlogs.2 hunhanded.2
      cases e with
      | trace text => simpa [Effect.visible?, Effect.trace?] using htail
      | line text => exact absurd hlogs.1 id
      | replyEnd => exact absurd hlogs.1 id
      | write w => exact absurd hunhanded.1 id
      | _ => exact htail

theorem newline_not_mem_log {τ : List Effect} (hτ : ∀ e ∈ τ, e.Logs) :
    ∀ line ∈ τ.filterMap Effect.trace?, '\n' ∉ line := by
  intro line hline
  obtain ⟨e, he, htrace⟩ := List.mem_filterMap.mp hline
  cases e with
  | trace text =>
      obtain rfl : text = line := Option.some.inj htrace
      exact hτ _ he
  | _ => cases htrace

section

variable {settings : RelaySettings} {nar : Option Bytes} {dest reply : Text} {files : FileSystem}
  {body : List ReplyFrame}

theorem visible_out (log : List Text) :
    (allEffects settings nar dest (log.map .out)).filterMap RelayEffect.visible? =
      log.map fun line => .stdout (Text.utf8 (line ++ ['\n'])) := by
  induction log with
  | nil => rfl
  | cons line log ih =>
      rw [List.map_cons, allEffects_cons, List.filterMap_append, ih]
      rfl

theorem visible_narFrames (narData : Bytes) :
    (allEffects settings (some narData) dest (narFrames narData)).filterMap RelayEffect.visible? =
      [.destination ⟨.destination, dest, narData, true⟩] := by
  have hchunks : ∀ chunks : List Bytes,
      (allEffects settings (some narData) dest (chunks.map .nar)).filterMap RelayEffect.visible? = [] := by
    intro chunks
    induction chunks with
    | nil => rfl
    | cons chunk chunks ih =>
        rw [List.map_cons, allEffects_cons, List.filterMap_append, ih]
        rfl
  rw [narFrames, allEffects_append, List.filterMap_append, hchunks]
  rfl

theorem trim_newline (t : Text) : Text.trim (t ++ ['\n']) = Text.trim t := by
  have hnewline : Text.isWhitespace '\n' = true := by decide
  rw [Text.trim, Text.trim, List.dropWhile_append]
  split
  next hnil => rw [List.isEmpty_iff.mp hnil, List.dropWhile_cons_of_pos hnewline, List.dropWhile_nil]
  next => simp [Text.dropEndWhile, List.dropWhile_cons_of_pos hnewline]

/-- **The relay hands on a whole stream**, and ends well if it needs no terminal reply or has seen one. -/
theorem forwardReplies_whole {mode : RelayMode} {relay : RelayWorld} (hrelay : relay.Done settings nar dest files)
    {frames : List ReplyFrame} (hlines : ∀ f ∈ frames, f.OneLine) {s : RelayState}
    (hstage : Stage settings nar dest files frames s)
    (hterminal : (s.sawSubstituteTerminalReply ||
      decide (mode = .substitute) && frames.any ReplyFrame.terminal) = true) :
    ∃ s', forwardReplies mode settings relay (sendFrames frames) s = ⟨allEffects settings nar dest frames, s', .ok ()⟩ ∧
      ∀ narData, nar = some narData → s'.files.read dest = some narData := by
  have hreceived : receivedLines relay (sendFrames frames) = frames.map ReplyFrame.bytes ++ [] := by
    simp only [receivedLines, hrelay.broken, splitInclusive_sendFrames hlines, List.append_nil, Bool.false_eq_true,
      if_false]
  have hrun : forwardReplies mode settings relay (sendFrames frames) s =
      Action.bind (forwardLoop mode settings relay.lines 0 (receivedLines relay (sendFrames frames)))
        (fun _ => if relay.broken then Action.fault .readFailed else finishRelay relay.removeTemporary) s := rfl
  have hstart : Stage settings nar dest files (frames ++ []) s := by
    rwa [List.append_nil]
  rw [hrun, hreceived]
  rcases @Stage.run mode settings nar dest files frames [] s hstart relay.lines 0 [] with
    ⟨done, f, todo, k, s', o, -, -, hfailed, -⟩ | ⟨s', hend, hsaw, hloop⟩
  · exact absurd ⟨hrelay.lines k, hrelay.deliverable⟩ hfailed.notDone
  · obtain ⟨hnarDest, hread⟩ := hend.settled List.not_mem_nil
    refine ⟨s', ?_, hread⟩
    have hnil : forwardLoop mode settings relay.lines (0 + frames.length) [] s' = ⟨[], s', .ok ()⟩ := rfl
    rw [hnil] at hloop
    rw [Action.bind, hloop]
    simp only [hrelay.broken, Bool.false_eq_true, if_false, finishRelay_of_narDest hnarDest, hsaw.trans hterminal,
      if_true, List.append_nil]

/-- The relay hands on a whole stream that ends with a terminal reply. -/
theorem forward_sealed {relay : RelayWorld} (hrelay : relay.Done settings nar dest files)
    (hsealed : Sealed nar body reply) (hterminal : isSubstituteTerminalReply reply = true) {request : Text}
    (hdest : substituteDestination (Text.trimEnd request) = some dest) :
    ∃ s', forward .substitute settings relay (some request) files (sendFrames (body ++ [.fd4 reply])) =
        ⟨allEffects settings nar dest (body ++ [.fd4 reply]), s', .ok ()⟩ ∧
      ∀ narData, nar = some narData → s'.files.read dest = some narData := by
  have hlayout : Layout nar (body ++ [ReplyFrame.fd4 reply]) :=
    hsealed.layout.append_plain trivial
  have hlast : ReplyFrame.terminal (.fd4 reply) = true := by
    simpa only [ReplyFrame.terminal, isSubstituteTerminalReply, trim_newline] using hterminal
  exact forwardReplies_whole hrelay hsealed.oneLine (.start hlayout fun _ => ⟨rfl, hdest⟩) (by simp [hlast])

/-- A daemon that sends nothing leaves the relay without a terminal reply. -/
theorem forward_nothing {relay : RelayWorld} (hbroken : relay.broken = false) (request : Text) :
    (forward .substitute settings relay (some request) files []).result = .error .closedBeforeTerminalReply := by
  have hrun : forward .substitute settings relay (some request) files [] =
      Action.bind (forwardLoop .substitute settings relay.lines 0 (receivedLines relay []))
        (fun _ => if relay.broken then Action.fault .readFailed else finishRelay relay.removeTemporary)
        (startRelay .substitute request files) := rfl
  have hreceived : receivedLines relay [] = [] := by
    simp [receivedLines, hbroken, splitInclusive]
  rw [hrun, hreceived]
  simp only [Action.bind, hbroken, Bool.false_eq_true, if_false]
  rfl

end

/-! ### The two ways -/

/-- guix-daemon sees the same of a request that is answered directly and of a relay. -/
structure Indistinguishable (dest : Text) (direct : Outcome Shared Effect Panic Unit)
    (relayed : Outcome RelayState RelayEffect RelayFailure Unit) : Prop where
  result : relayed.result = .ok () ↔ direct.result = .ok ()
  visible : direct.result = .ok () →
    relayed.trace.filterMap RelayEffect.visible? = direct.trace.filterMap Effect.visible?
  nar : direct.result = .ok () → ∀ w, .destination w ∈ direct.trace.filterMap Effect.visible? →
    relayed.state.files.read dest = some w.bytes

theorem sentBytes_log {o : Outcome Shared Effect Panic Unit} (hr : o.result = .ok ()) {ω : List Effect} {reply : Text}
    (hτ : o.trace = ω ++ [.line reply]) (hω : Logged ω) (hne : reply ≠ []) :
    sentBytes o = sendFrames ((ω.filterMap Effect.trace?).map .out ++ [.fd4 reply]) := by
  rw [sentBytes, hr, hτ, List.foldl_append, foldl_perform_log hω]
  exact (perform_line hne _).trans (by simp [SocketWriter.new])

theorem sentBytes_handed {o : Outcome Shared Effect Panic Unit} (hr : o.result = .ok ()) {ω ω' : List Effect}
    {nar : Bytes} {reply : Text} (hτ : o.trace = ω ++ .flush :: narLines nar .done ++ ω' ++ [.line reply])
    (hω : Logged ω) (hω' : Logged ω') (hne : reply ≠ []) :
    sentBytes o = sendFrames ((ω.filterMap Effect.trace?).map .out ++ narFrames nar ++
      (ω'.filterMap Effect.trace?).map .out ++ [.fd4 reply]) := by
  rw [sentBytes, hr, hτ, List.foldl_append, foldl_perform_handed hω hω']
  exact (perform_line hne _).trans (by simp)

section

variable [Sha256]

/-- What a request that has returned has done. -/
theorem Answered.inv {D : Digest → Prop} {τ : List Effect} (h : Answered D τ) :
    (∃ ω reply, τ = ω ++ [.line reply] ∧ Logged ω ∧ Refusal reply) ∨
      ∃ ω nar, τ = ω ++ [.line (successLine (Hex.encode (Sha256.digest nar).toList) nar.length)] ∧ NarSent nar ω ∧
        D (Sha256.digest nar) := by
  cases h with
  | refused logged hreply => exact Or.inl ⟨_, _, rfl, logged, hreply⟩
  | succeeded sent digest => exact Or.inr ⟨_, _, rfl, sent, digest⟩

omit [Sha256] in
/-- A NAR is in one place of a trace. -/
theorem narSent_unique {ω ω' τ τ' : List Effect} {nar nar' : Bytes} (hω : Logged ω) (hω' : Logged ω')
    (h : ω ++ .flush :: narLines nar .done ++ ω' = τ ++ .flush :: narLines nar' .done ++ τ') :
    ω = τ ∧ nar = nar' ∧ ω' = τ' := by
  have hflush : Effect.flush ∉ narLines nar .done ++ ω' := by
    intro hmem
    rcases List.mem_append.mp hmem with hmem | hmem
    · simp [narLines] at hmem
    · exact hω' _ hmem
  rw [List.append_assoc, List.cons_append, List.append_assoc, List.cons_append,
    List.append_cons_inj_of_notMem (show Effect.flush ∉ ω from fun hmem => hω _ hmem) hflush] at h
  obtain ⟨rfl, -, h⟩ := h
  rw [narLines, narLines, List.append_assoc, List.append_assoc, List.singleton_append, List.singleton_append,
    List.append_cons_inj_of_notMem (by simp) (show Effect.narEnd ∉ ω' from fun hmem => hω' _ hmem)] at h
  obtain ⟨hchunks, -, rfl⟩ := h
  refine ⟨rfl, ?_, rfl⟩
  have hstreamed := congrArg streamed hchunks
  rw [streamed_map_nar, streamed_map_nar] at hstreamed
  simpa [narChunks, flatten_chunks (by decide : 0 < narChunkSize)] using hstreamed

theorem sealed_log {ω : List Effect} {reply : Text} (hω : Logged ω) (hreply : Refusal reply) :
    Sealed none ((ω.filterMap Effect.trace?).map .out) reply := by
  obtain ⟨body, reply', heq, hsealed⟩ := (Transcript.refused (newline_not_mem_log hω) hreply).sealed
  obtain ⟨rfl, hlast⟩ := List.append_inj' heq rfl
  obtain rfl := ReplyFrame.fd4.inj (List.cons.inj hlast).1
  exact hsealed

theorem sealed_handed {log log' : List Text} (nar : Bytes) (hlog : ∀ line ∈ log, '\n' ∉ line)
    (hlog' : ∀ line ∈ log', '\n' ∉ line) :
    Sealed (some nar) (log.map .out ++ narFrames nar ++ log'.map .out)
      (successLine (Hex.encode (Sha256.digest nar).toList) nar.length) := by
  obtain ⟨body, reply', heq, hsealed⟩ := (@Transcript.succeeded _ log log' nar hlog hlog').sealed
  obtain ⟨rfl, hlast⟩ := List.append_inj' heq rfl
  obtain rfl := ReplyFrame.fd4.inj (List.cons.inj hlast).1
  exact hsealed

variable {dest request : Text} {direct socket : Outcome Shared Effect Panic Unit} {settings : RelaySettings}
  {relay : RelayWorld} {files : FileSystem} {D : Digest → Prop}

/-- A request that hands over no NAR. -/
theorem indistinguishable_same (hrelay : relay.Done settings none dest files)
    (hdest : substituteDestination (Text.trimEnd request) = some dest)
    (hreturns : socket.result = .ok () → Answered D socket.trace)
    (hfaults : ∀ e, socket.result = .error e → Interrupted D socket.trace)
    (htrace : direct.trace = socket.trace) (hresult : direct.result = socket.result)
    (hunhanded : ∀ e ∈ socket.trace, e.Unhanded) :
    Indistinguishable dest direct (forward .substitute settings relay (some request) files (sentBytes socket)) := by
  have hno : .narEnd ∉ socket.trace := fun hmem => hunhanded _ hmem
  cases hr : socket.result with
  | ok u =>
      rcases (hreturns hr).inv with
        ⟨ω, reply, hτ, hlogged, hreply⟩ | ⟨ω, nar, hτ, ⟨before, after, rfl, -⟩, -⟩
      · obtain ⟨s', hrun, -⟩ := forward_sealed hrelay (sealed_log hlogged hreply) hreply.terminal hdest
        have hseen : direct.trace.filterMap Effect.visible? = (ω.filterMap Effect.trace?).map
            (fun line => Visible.stdout (Text.utf8 (line ++ ['\n']))) ++ [.fd4 (Text.utf8 (reply ++ ['\n']))] := by
          rw [htrace, hτ, List.filterMap_append,
            visible_log hlogged fun e he => hunhanded e (hτ ▸ List.mem_append_left _ he)]
          rfl
        rw [sentBytes_log hr hτ hlogged hreply.ne_nil, hrun]
        refine ⟨by simp [hresult, hr], fun _ => ?_, fun _ w hw => ?_⟩
        · rw [hseen, allEffects_append, List.filterMap_append, visible_out]
          rfl
        · simp [hseen] at hw
      · exact absurd (by rw [hτ]; simp [narLines]) hno
  | error p =>
      have hlogged : Logged socket.trace := by
        rcases hfaults p hr with hlogged | ⟨nar, ⟨ω, ω', heq, -⟩, -⟩
        · exact hlogged
        · exact absurd (by rw [heq]; simp [narLines]) hno
      have hsent : sentBytes socket = [] := by
        rw [sentBytes, hr, foldl_perform_log hlogged]
        rfl
      have hfails := @forward_nothing settings files relay hrelay.broken request
      rw [hsent]
      constructor <;> simp [hfails, hresult, hr]

/-- A request that hands over a NAR. -/
theorem indistinguishable_handed {ω κ κ' : List Effect} {nar : Bytes} {temp done : Text}
    (hrelay : relay.Done settings (some nar) dest files)
    (hdest : substituteDestination (Text.trimEnd request) = some dest) (hω : Logged ω) (hdone : '\n' ∉ done)
    (hunhanded : ∀ e ∈ ω, e.Unhanded) (hκ : ∀ e ∈ κ, e.Kept) (hκ' : ∀ e ∈ κ', e.Kept)
    (hdirect : direct.trace = ω ++ [.write ⟨.temporary, temp, nar, true⟩, .write ⟨.destination, dest, nar, true⟩] ++
      κ ++ [.trace done, .line (successLine (Hex.encode (Sha256.digest nar).toList) nar.length)])
    (hsocket : socket.trace = ω ++ .flush :: narLines nar .done ++ (κ' ++ [.trace done]) ++
      [.line (successLine (Hex.encode (Sha256.digest nar).toList) nar.length)])
    (hresult : direct.result = .ok ()) (hresult' : socket.result = .ok ()) :
    Indistinguishable dest direct (forward .substitute settings relay (some request) files (sentBytes socket)) := by
  have hafter : Logged (κ' ++ [.trace done]) := by
    intro e he
    rcases List.mem_append.mp he with he | he
    · exact (hκ' e he).logs
    · rw [List.mem_singleton.mp he]
      exact hdone
  have hlog : (κ' ++ [Effect.trace done]).filterMap Effect.trace? = [done] := by
    rw [List.filterMap_append, List.filterMap_eq_nil_iff.mpr fun e he => (hκ' e he).trace?]
    rfl
  have hsent := sentBytes_handed hresult' hsocket hω hafter fun h => by cases h
  have hsealed := sealed_handed nar (newline_not_mem_log hω) (newline_not_mem_log hafter)
  rw [hlog] at hsent hsealed
  obtain ⟨s', hrun, hread⟩ := forward_sealed hrelay hsealed (terminal_successLine _ _) hdest
  have hseen : direct.trace.filterMap Effect.visible? =
      (ω.filterMap Effect.trace?).map (fun line => Visible.stdout (Text.utf8 (line ++ ['\n']))) ++
        [.destination ⟨.destination, dest, nar, true⟩] ++ [.stdout (Text.utf8 (done ++ ['\n']))] ++
        [.fd4 (Text.utf8 (successLine (Hex.encode (Sha256.digest nar).toList) nar.length ++ ['\n']))] := by
    rw [hdirect, List.filterMap_append, List.filterMap_append, List.filterMap_append, visible_kept hκ,
      visible_log hω hunhanded]
    simp [Effect.visible?, FileWrite.visible?]
  rw [hsent, hrun]
  refine ⟨by simp [hresult], fun _ => ?_, fun _ w hw => ?_⟩
  · rw [hseen, allEffects_append, allEffects_append, allEffects_append, List.filterMap_append,
      List.filterMap_append, List.filterMap_append, visible_out, visible_narFrames, visible_out]
    rfl
  · obtain rfl : w = ⟨.destination, dest, nar, true⟩ := by simpa [hseen] using hw
    exact hread nar rfl

variable [MetadataFormat] [SignatureLib] [Decompressors]

/-- One turn of the loop of `run_substitute_mode`: a request that is answered directly. Other commands
are skipped. -/
def runSubstituteMode (cfg : Config) (world : SubstituteWorld) (line : Text) : Action Shared Effect Panic Unit :=
  match parseCommandLine (Text.trim line) with
  | .substitute path dest => trySwarmSubstitute cfg .direct world path dest
  | _ => pure ()

/-- **guix-daemon cannot tell the two ways apart.** If files and sockets work and no narinfo names the
digest of the empty NAR, a relay and its daemon print the same lines as the program itself and put the
same NAR at the destination, all in the same order, and both processes end well or none does. -/
theorem relay_is_transparent (cfg : Config) (world : SubstituteWorld) (s : Shared)
    (hline : '\n' ∉ Text.trimEnd request) (hdest : substituteDestination (Text.trimEnd request) = some dest)
    (hflushed : world.delivery.flushed = true) (hstream : world.delivery.stream = .done)
    (htexts : OneLineTexts cfg s) (hempty : ¬ Named world.metadata s (Sha256.digest []))
    (hdone : ∀ d : Digest, world.delivery.Done s.disk.files dest (Hex.encode d.toList))
    (hb : 0 < s.disk.store.blockSize) (hrelay : ∀ nar, nar ≠ [] → relay.Done settings (some nar) dest files) :
    Indistinguishable dest (runSubstituteMode cfg world request s)
      (forward .substitute settings relay (some request) files (sentBytes (serveSubstitute cfg world request s))) := by
  obtain ⟨path, hparse, hpath⟩ := parse_request hline hdest
  have hdirect : runSubstituteMode cfg world request s = trySwarmSubstitute cfg .direct world path dest s := by
    unfold runSubstituteMode
    rw [hparse]
  have hsocket : serveSubstitute cfg world request s = trySwarmSubstitute cfg (.socket true) world path dest s := by
    unfold serveSubstitute
    rw [hparse]
  have htriple := trySwarmSubstitute_answered hflushed hstream htexts hpath dest
  have hreturns : (trySwarmSubstitute cfg (.socket true) world path dest s).result = .ok () →
      Answered (Named world.metadata s) (trySwarmSubstitute cfg (.socket true) world path dest s).trace :=
    htriple.returns s [] () ⟨rfl, rfl⟩
  have hnone : relay.Done settings none dest files :=
    ⟨(hrelay [0] (by simp)).broken, (hrelay [0] (by simp)).lines,
      ⟨fun h => absurd rfl h, fun h => absurd rfl h, by simp⟩⟩
  rw [hdirect, hsocket]
  cases @trySwarmSubstitute_alike _ _ cfg dest s _ _ world hflushed hstream hdone hb path with
  | same htrace hresult hunhanded =>
      exact indistinguishable_same hnone hdest hreturns (fun e => htriple.faults s [] e ⟨rfl, rfl⟩) htrace hresult
        (htrace ▸ hunhanded)
  | handed ω κ κ' nar temp done hunhanded hκ hκ' htrace htrace' hresult hresult' =>
      have hlast : (trySwarmSubstitute cfg (.socket true) world path dest s).trace =
          ω ++ .flush :: narLines nar .done ++ (κ' ++ [.trace done]) ++
            [.line (successLine (Hex.encode (Sha256.digest nar).toList) nar.length)] := by
        rw [htrace']
        simp
      rcases (hreturns hresult').inv with
        ⟨ω', reply, hτ, hlogged, -⟩ | ⟨ω', nar', hτ, ⟨before, after, rfl, hbefore, hafter⟩, hnamed⟩
      · -- the reply to a NAR is no refusal
        obtain ⟨rfl, -⟩ := List.append_inj' (hτ.symm.trans hlast) rfl
        exact absurd (hlogged .narEnd (by simp [narLines])) id
      · obtain ⟨rfl, rfl, rfl⟩ := narSent_unique hbefore hafter (List.append_inj' (hτ.symm.trans hlast) rfl).1
        have hne : nar' ≠ [] := by
          intro hnil
          subst hnil
          exact hempty hnamed
        exact indistinguishable_handed (hrelay nar' hne) hdest hbefore (hafter (.trace done) (by simp)) hunhanded hκ hκ'
          htrace hlast hresult hresult'

end

/-! ### A NAR that goes through a relay -/

theorem sampleShared_not_empty : ¬ Named silentMetadata sampleShared (@Sha256.digest sampleSha256 []) := by
  intro hnamed
  obtain ⟨info, hknown, hhash⟩ := hnamed
  cases hknown with
  | @cached h expiry info hlookup =>
      rw [sampleShared, NarinfoCache.lookup_put] at hlookup
      split at hlookup
      · obtain rfl : sampleNarinfo = info := congrArg Prod.snd (Option.some.inj hlookup)
        have hother : sha256Bytes sampleNarinfo.narHash ≠ .ok (some (@Sha256.digest sampleSha256 [])) := by
          decide +kernel
        exact hother hhash
      · cases hlookup
  | served hanswer => cases hanswer

theorem relay_is_transparent_sample :
    (forward .substitute ⟨"/tmp".toList, 7⟩ sampleRelayWorld (some sampleRelayRequest) (fun _ => none)
      (sentBytes (@serveSubstitute sampleSha256 noMetadataFormat noDecompressors forgedLib httpConfig
        (servingWorld silentMetadata) sampleRelayRequest sampleShared))).state.files.read "/d".toList = some sampleNar := by
  have hresult : (@runSubstituteMode sampleSha256 noMetadataFormat forgedLib noDecompressors httpConfig
      (servingWorld silentMetadata) sampleRelayRequest sampleShared).result.toOption = some () := by
    decide +kernel
  have hwritten : .destination ⟨.destination, "/d".toList, sampleNar, true⟩ ∈
      (@runSubstituteMode sampleSha256 noMetadataFormat forgedLib noDecompressors httpConfig
        (servingWorld silentMetadata) sampleRelayRequest sampleShared).trace.filterMap Effect.visible? := by
    decide +kernel
  have h := @relay_is_transparent sampleSha256 "/d".toList sampleRelayRequest ⟨"/tmp".toList, 7⟩ sampleRelayWorld
    (fun _ => none) noMetadataFormat forgedLib noDecompressors httpConfig (servingWorld silentMetadata) sampleShared
    (by decide) (by decide) rfl rfl sampleShared_oneLine sampleShared_not_empty
    (fun d => ⟨rfl, by simp [sampleShared, sampleDisk], rfl, ⟨rfl, rfl, rfl, rfl⟩⟩)
    (by decide)
    (fun nar hne => ⟨rfl, sampleRelayWorld_done.lines, ⟨fun _ => by simp, fun _ => by decide, by simpa using hne⟩⟩)
  cases hr : (@runSubstituteMode sampleSha256 noMetadataFormat forgedLib noDecompressors httpConfig
      (servingWorld silentMetadata) sampleRelayRequest sampleShared).result with
  | error e => rw [hr] at hresult; cases hresult
  | ok u => exact h.nar hr _ hwritten

end GuixP2p
