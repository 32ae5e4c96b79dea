import GuixP2p.Daemon.FetchSafety
import GuixP2p.Daemon.Substitute

/-!
# GuixP2p.Daemon.SubstituteSafety

**No unverified bytes.** Whatever servers and peers do, a substitute request streams,
writes and saves only bytes of one NAR, whose digest is the one its narinfo names, and
claims success only after that NAR was handed over completely.

The policies and their fallbacks do not matter for this: until `deliver` has compared the
digests a request writes nothing but the build log (`Quiet`), and from then on everything
it does is about the NAR that passed the comparison (`Safe`).
-/

namespace GuixP2p

open GuixP2p.Lib

/-! ### Traces -/

/-- A reply line that claims success. -/
def ClaimsSuccess (text : Text) : Prop := "success ".toList <+: text

instance (text : Text) : Decidable (ClaimsSuccess text) :=
  inferInstanceAs (Decidable ("success ".toList <+: text))

/-- An effect that carries no bytes of a NAR and claims no success. -/
def Effect.Quiet : Effect → Prop
  | .nar _ => False
  | .narEnd => False
  | .write _ => False
  | .line text => ¬ ClaimsSuccess text
  | _ => True

section

variable [Sha256]

/-- The file write carries bytes of the NAR, all of them if it is complete. Sidecars carry
none; a seed is filed under the NAR's digest. -/
def FileWrite.Fits (nar : Bytes) (w : FileWrite) : Prop :=
  match w.target with
  | .metadata _ => True
  | .seed key => key = Hex.encode (Sha256.digest nar).toList ∧ w.bytes <+: nar ∧
      (w.complete = true → w.bytes = nar)
  | _ => w.bytes <+: nar ∧ (w.complete = true → w.bytes = nar)

omit [Sha256] in
/-- The NAR has been handed over completely. -/
def HandedOver (mode : ReplyMode) (dest : Text) (nar : Bytes) (τ : List Effect) : Prop :=
  match mode with
  | .socket _ => streamed τ = nar ∧ .narEnd ∈ τ
  | .direct => .write ⟨.destination, dest, nar, true⟩ ∈ τ

/-- What a request that uses this narinfo may have done with this NAR. -/
structure Safe (mode : ReplyMode) (dest h : Text) (info : Narinfo) (nar : Bytes)
    (τ : List Effect) : Prop where
  used : .narinfo h info ∈ τ
  only : ∀ h' info', .narinfo h' info' ∈ τ → h' = h ∧ info' = info
  streamed : streamed τ <+: nar
  ended : .narEnd ∈ τ → GuixP2p.streamed τ = nar
  writes : ∀ w, .write w ∈ τ → w.Fits nar
  success : ∀ pre text post, τ = pre ++ .line text :: post → ClaimsSuccess text →
    text = successLine (Hex.encode (Sha256.digest nar).toList) nar.length ∧
      HandedOver mode dest nar pre

section

variable {mode : ReplyMode} {dest h : Text} {info : Narinfo} {nar : Bytes} {τ ω : List Effect}

omit [Sha256] in
theorem Effect.Quiet.streamed_eq_nil (hquiet : ∀ e ∈ τ, e.Quiet) : streamed τ = [] := by
  induction τ with
  | nil => rfl
  | cons e τ ih =>
      rw [List.forall_mem_cons] at hquiet
      cases e with
      | nar chunk => exact absurd hquiet.1 id
      | _ => exact ih hquiet.2

/-- A quiet trace is safe for every NAR. -/
theorem Safe.of_quiet (hquiet : ∀ e ∈ τ, e.Quiet) (hused : .narinfo h info ∈ τ)
    (honly : ∀ h' info', .narinfo h' info' ∈ τ → h' = h ∧ info' = info) :
    Safe mode dest h info nar τ where
  used := hused
  only := honly
  streamed := by
    rw [Effect.Quiet.streamed_eq_nil hquiet]
    exact List.nil_prefix
  ended hend := absurd (hquiet _ hend) id
  writes w hw := absurd (hquiet _ hw) id
  success pre text post heq hclaim :=
    absurd hclaim (hquiet (.line text) (by rw [heq]; exact List.mem_append_cons_self))

/-- More effects, none of which claims success. -/
theorem Safe.append (hs : Safe mode dest h info nar τ) (hstream : GuixP2p.streamed (τ ++ ω) <+: nar)
    (hend : .narEnd ∈ ω → GuixP2p.streamed (τ ++ ω) = nar)
    (hwrites : ∀ w, .write w ∈ ω → w.Fits nar)
    (hlines : ∀ text, .line text ∈ ω → ¬ ClaimsSuccess text)
    (hinfo : ∀ h' info', .narinfo h' info' ∉ ω) : Safe mode dest h info nar (τ ++ ω) where
  used := List.mem_append_left ω hs.used
  only h' info' hmem := hs.only h' info'
    ((List.mem_append.mp hmem).resolve_right (hinfo h' info'))
  streamed := hstream
  ended hmem := by
    rcases List.mem_append.mp hmem with hτ | hω
    · -- the NAR was complete before, so nothing was added to it
      have hlen := hstream.length_le
      rw [streamed_append, hs.ended hτ] at hlen ⊢
      rw [List.length_append] at hlen
      rw [List.eq_nil_of_length_eq_zero (show (GuixP2p.streamed ω).length = 0 by omega),
        List.append_nil]
    · exact hend hω
  writes w hw := (List.mem_append.mp hw).elim (hs.writes w) (hwrites w)
  success pre text post heq hclaim := by
    rcases List.append_eq_append_iff.mp heq with ⟨mid, hpre, hω⟩ | ⟨mid, hτ, hrest⟩
    · exact absurd hclaim (hlines text (by rw [hω]; exact List.mem_append_cons_self))
    · cases mid with
      | nil =>
          rw [List.nil_append] at hrest
          exact absurd hclaim (hlines text (by rw [← hrest]; exact List.mem_cons_self))
      | cons e mid =>
          obtain ⟨rfl, -⟩ := List.cons.inj hrest
          exact hs.success pre text mid hτ hclaim

/-- More quiet effects. -/
theorem Safe.append_quiet (hs : Safe mode dest h info nar τ) (hquiet : ∀ e ∈ ω, e.Quiet)
    (hinfo : ∀ h' info', .narinfo h' info' ∉ ω) : Safe mode dest h info nar (τ ++ ω) := by
  refine hs.append ?_ (fun hend => absurd (hquiet _ hend) id)
    (fun w hw => absurd (hquiet _ hw) id) (fun text hmem => hquiet _ hmem) hinfo
  rw [streamed_append, Effect.Quiet.streamed_eq_nil hquiet, List.append_nil]
  exact hs.streamed

/-- More file writes. -/
theorem Safe.append_writes (hs : Safe mode dest h info nar τ) {ws : List FileWrite}
    (hwrites : ∀ w ∈ ws, w.Fits nar) : Safe mode dest h info nar (τ ++ ws.map .write) := by
  have hmem : ∀ e ∈ ws.map Effect.write, ∃ w ∈ ws, e = .write w := by
    intro e he
    obtain ⟨w, hw, rfl⟩ := List.mem_map.mp he
    exact ⟨w, hw, rfl⟩
  refine hs.append ?_ (fun hend => ?_) (fun w hw => ?_) (fun text ht => ?_) (fun h' info' hi => ?_)
  · rw [streamed_append, streamed_map_write, List.append_nil]
    exact hs.streamed
  · obtain ⟨w, -, heq⟩ := hmem _ hend
    cases heq
  · obtain ⟨w', hw', heq⟩ := hmem _ hw
    cases heq
    exact hwrites w hw'
  · obtain ⟨w, -, heq⟩ := hmem _ ht
    cases heq
  · obtain ⟨w, -, heq⟩ := hmem _ hi
    cases heq

/-- Success may be claimed once the NAR has been handed over. -/
theorem Safe.succeed (hs : Safe mode dest h info nar τ) (hdone : HandedOver mode dest nar τ) :
    Safe mode dest h info nar
      (τ ++ [.line (successLine (Hex.encode (Sha256.digest nar).toList) nar.length)]) where
  used := List.mem_append_left _ hs.used
  only h' info' hmem := hs.only h' info' ((List.mem_append.mp hmem).resolve_right (by simp))
  streamed := by
    rw [streamed_append]
    simpa [GuixP2p.streamed] using hs.streamed
  ended hend := by
    rw [streamed_append, hs.ended ((List.mem_append.mp hend).resolve_right (by simp))]
    exact List.append_nil nar
  writes w hw := hs.writes w ((List.mem_append.mp hw).resolve_right (by simp))
  success pre text post heq hclaim := by
    rcases List.append_eq_append_iff.mp heq with ⟨mid, hpre, hω⟩ | ⟨mid, hτ, hrest⟩
    · -- the new line itself
      cases mid with
      | nil =>
          obtain ⟨htext, -⟩ := List.cons.inj hω
          rw [hpre, List.append_nil]
          exact ⟨(Effect.line.inj htext).symm, hdone⟩
      | cons e mid => simp at hω
    · cases mid with
      | nil =>
          obtain ⟨htext, -⟩ := List.cons.inj hrest
          rw [List.append_nil] at hτ
          rw [← hτ]
          exact ⟨Effect.line.inj htext, hdone⟩
      | cons e mid =>
          obtain ⟨rfl, -⟩ := List.cons.inj hrest
          exact hs.success pre text mid hτ hclaim

omit [Sha256] in
theorem HandedOver.append (hdone : HandedOver mode dest nar τ) (hstream : streamed ω = []) :
    HandedOver mode dest nar (τ ++ ω) := by
  cases mode with
  | socket writer =>
      exact ⟨by rw [streamed_append, hstream, List.append_nil, hdone.1],
        List.mem_append_left ω hdone.2⟩
  | direct => exact List.mem_append_left ω hdone

end

/-! ### Files -/

section

variable {nar : Bytes}

/-- All writes so far carry bytes of the NAR. -/
def AllFit (nar : Bytes) (ws : List FileWrite) : Prop := ∀ w ∈ ws, w.Fits nar

omit [Sha256] in
/-- The file, if it is there, holds the NAR. -/
def HoldsOnly (path : Text) (nar : Bytes) (disk : NarDisk) : Prop :=
  ∀ bytes, disk.files.read path = some bytes → bytes = nar

/-- What writing the NAR to a file emits. -/
theorem allFit_writeFile {target : Target} {path : Text} {outcome : WriteOutcome} {disk : NarDisk}
    (htarget : ∀ bytes complete, bytes <+: nar → (complete = true → bytes = nar) →
      FileWrite.Fits nar ⟨target, path, bytes, complete⟩) :
    AllFit nar (writeFile target path nar outcome disk).trace := by
  intro w hw
  obtain ⟨bytes, hbytes, rfl⟩ := List.mem_map.mp hw
  have hwritten := FileSystem.written_prefix (Option.mem_toList.mp hbytes)
  exact htarget bytes _ hwritten.1 hwritten.2

theorem AllFit.append {ws ws' : List FileWrite} (h : AllFit nar ws) (h' : AllFit nar ws') :
    AllFit nar (ws ++ ws') := fun w hw => (List.mem_append.mp hw).elim (h w) (h' w)

theorem keeps_writeFile {target : Target} {path : Text} {outcome : WriteOutcome}
    (htarget : ∀ bytes complete, bytes <+: nar → (complete = true → bytes = nar) →
      FileWrite.Fits nar ⟨target, path, bytes, complete⟩) :
    Action.Keeps (fun _ ws => AllFit nar ws) (writeFile target path nar outcome) :=
  ⟨fun _ _ _ hws _ => hws.append (allFit_writeFile htarget), fun _ _ _ _ hr => nomatch hr⟩

variable [MetadataFormat]

theorem keeps_writeMetadata (narHashHex : Text) (metadata : NarMetadata) (outcome : WriteOutcome) :
    Action.Keeps (fun _ ws => AllFit nar ws) (writeMetadata narHashHex metadata outcome) := by
  refine Action.Keeps.bind Action.Keeps.get fun disk => ?_
  refine ⟨fun s ws ok hws _ => hws.append fun w hw => ?_, fun _ _ _ _ hr => nomatch hr⟩
  obtain ⟨bytes, -, rfl⟩ := List.mem_map.mp hw
  exact trivial

/-- Saving the NAR under its digest. -/
theorem keeps_saveWithStorePath (world : SaveWorld) (storePath : Option Text) :
    Action.Keeps (fun _ ws => AllFit nar ws)
      (saveWithStorePath world (Hex.encode (Sha256.digest nar).toList) nar storePath) := by
  refine Action.Keeps.bind Action.Keeps.get fun disk => ?_
  refine Action.Keeps.bind (keeps_writeFile fun bytes complete hpre hall => ⟨rfl, hpre, hall⟩)
    fun ok => ?_
  cases ok with
  | false => exact Action.Keeps.pure _
  | true =>
      refine Action.Keeps.bind Action.Keeps.get fun disk' => ?_
      split
      · exact Action.Triple.bind (Action.Triple.set fun _ _ h => h) fun _ =>
          keeps_writeMetadata _ _ _
      · exact Action.Keeps.fault _

end

/-! #### The destination -/

section

variable {nar : Bytes} {temp dest : Text}

omit [Sha256] in
/-- Making room at the destination may remove the temporary file, but not change it. -/
theorem keeps_clearDestination (world : DestinationWorld) :
    Action.Keeps (fun disk ws => HoldsOnly temp nar disk ∧ ws = [])
      (clearDestination dest world) := by
  refine Action.Keeps.bind Action.Keeps.get fun disk => ?_
  split
  · exact Action.Keeps.pure _
  · split
    · exact ⟨fun s ws _ h _ => ⟨fun bytes hb => h.1 bytes
        ((FileSystem.removes_removeDirAll _ _).read hb), by rw [h.2]; rfl⟩,
        fun _ _ _ _ hr => nomatch hr⟩
    · exact ⟨fun s ws _ h _ => ⟨fun bytes hb => h.1 bytes
        ((FileSystem.removes_removeFile _ _).read hb), by rw [h.2]; rfl⟩,
        fun _ _ _ _ hr => nomatch hr⟩
    · exact Action.Keeps.pure _

/-- What a copy of the temporary file writes is the NAR, and it reports success only for
all of it. -/
theorem copyToDestination_triple (outcome : WriteOutcome) :
    Action.Triple (fun disk ws => HoldsOnly temp nar disk ∧ ws = [])
      (fun ok _ ws => AllFit nar ws ∧ (ok = true → ⟨.destination, dest, nar, true⟩ ∈ ws))
      (fun _ ws => AllFit nar ws) (copyToDestination temp dest outcome) := by
  refine Action.Triple.bind Action.Triple.get fun disk => ?_
  split
  · refine Action.Triple.pure fun s ws h => ⟨?_, fun hok => nomatch hok⟩
    rw [h.2.2]
    exact fun w hw => absurd hw List.not_mem_nil
  next data hread =>
    refine ⟨fun s ws ok h hr => ?_, fun _ _ _ _ hr => nomatch hr⟩
    obtain ⟨rfl, hholds, rfl⟩ := h
    obtain rfl : data = nar := hholds data hread
    refine ⟨allFit_writeFile fun _ _ hpre hall => ⟨hpre, hall⟩, fun hok => ?_⟩
    -- a write that succeeds has written everything
    have hwrite : (disk.files.write dest data outcome).2 = true :=
      (Except.ok.inj hr : _ = ok).trans hok
    simp [writeFile, FileSystem.written_of_write hwrite, hwrite]

theorem writeNarToDestination_triple (world : DestinationWorld) :
    Action.Triple (fun disk ws => HoldsOnly temp nar disk ∧ ws = [])
      (fun ok _ ws => AllFit nar ws ∧ (ok = true → ⟨.destination, dest, nar, true⟩ ∈ ws))
      (fun _ ws => AllFit nar ws) (writeNarToDestination temp dest world) := by
  have hclear : Action.Triple (fun disk ws => HoldsOnly temp nar disk ∧ ws = [])
      (fun _ disk ws => HoldsOnly temp nar disk ∧ ws = []) (fun _ ws => AllFit nar ws)
      (clearDestination dest world) :=
    ⟨(keeps_clearDestination world).returns, fun s ws e h hr => by
      have hfault := (keeps_clearDestination world).faults s ws e h hr
      rw [hfault.2]
      exact fun w hw => absurd hw List.not_mem_nil⟩
  refine Action.Triple.bind hclear fun ok => ?_
  cases ok with
  | true => exact copyToDestination_triple world.copy
  | false =>
      refine Action.Triple.pure fun s ws h => ⟨?_, fun hok => nomatch hok⟩
      rw [h.2]
      exact fun w hw => absurd hw List.not_mem_nil

end

/-! ### Handing over -/

section

variable {mode : ReplyMode} {dest h : Text} {info : Narinfo} {nar : Bytes}

/-- After an attempt to hand over the NAR: it was handed over if the attempt says so. -/
def AfterHandOver (mode : ReplyMode) (dest h : Text) (info : Narinfo) (nar : Bytes) (ok : Bool)
    (τ : List Effect) : Prop :=
  Safe mode dest h info nar τ ∧ (ok = true → HandedOver mode dest nar τ)

/-- Disk operations that only write bytes of the NAR keep what such writes do not break. -/
theorem keeps_onDisk {α : Type} {m : Action NarDisk FileWrite Panic α} {I : List Effect → Prop}
    (hm : Action.Keeps (fun _ ws => AllFit nar ws) m)
    (hI : ∀ τ ws, AllFit nar ws → I τ → I (τ ++ ws.map .write)) :
    Action.Keeps (fun _ τ => I τ) (onDisk m) := by
  refine Action.Triple.focus fun s τ hs => ?_
  have hnil : AllFit nar [] := fun w hw => absurd hw List.not_mem_nil
  exact ⟨fun t ws a ht hr => hI τ _ (hm.returns t ws a (ht.2 ▸ hnil) hr) hs,
    fun t ws e ht hr => hI τ _ (hm.faults t ws e (ht.2 ▸ hnil) hr) hs⟩

theorem AfterHandOver.append_writes {ok : Bool} {τ : List Effect}
    (hs : AfterHandOver mode dest h info nar ok τ) {ws : List FileWrite} (hws : AllFit nar ws) :
    AfterHandOver mode dest h info nar ok (τ ++ ws.map .write) :=
  ⟨hs.1.append_writes hws, fun hok => (hs.2 hok).append (streamed_map_write ws)⟩

theorem keeps_removeFile (path : Text) (allowed : Bool) :
    Action.Keeps (fun _ ws => AllFit nar ws) (removeFile path allowed) :=
  ⟨fun _ ws _ hws _ => by simpa [removeFile] using hws, fun _ _ _ _ hr => nomatch hr⟩

theorem keeps_replyNotFound :
    Action.Keeps (fun _ τ => Safe mode dest h info nar τ) replyNotFound := by
  refine Action.Keeps.emit fun _ τ hs => hs.append_quiet (fun e he => ?_) (by simp)
  obtain rfl := List.mem_singleton.mp he
  show ¬ ClaimsSuccess notFoundLine
  decide +kernel

/-- The temporary file holds the NAR once it was written. -/
theorem writeTemporary_triple (temp : Text) (outcome : WriteOutcome) :
    Action.Triple (fun _ τ => Safe mode dest h info nar τ)
      (fun ok s τ => Safe mode dest h info nar τ ∧ (ok = true → HoldsOnly temp nar s.disk))
      (fun _ τ => Safe mode dest h info nar τ)
      (onDisk (writeFile .temporary temp nar outcome)) := by
  have hkeep : Action.Keeps (fun _ τ => Safe mode dest h info nar τ)
      (onDisk (writeFile .temporary temp nar outcome)) :=
    keeps_onDisk (keeps_writeFile fun _ _ hpre hall => ⟨hpre, hall⟩)
      fun _ _ hws hs => hs.append_writes hws
  refine ⟨fun s τ ok hs hr => ⟨hkeep.returns s τ ok hs hr, ?_⟩, fun _ _ _ _ hr => nomatch hr⟩
  · intro hok bytes hbytes
    have hwrite : (s.disk.files.write temp nar outcome).2 = true :=
      (Except.ok.inj hr : _ = ok).trans hok
    exact Option.some.inj (hbytes.symm.trans (FileSystem.read_of_write hwrite))

theorem handOverDirect_triple (world : DeliveryWorld) (narHashHex : Text) :
    Action.Triple (fun _ τ => Safe .direct dest h info nar τ)
      (fun ok _ τ => AfterHandOver .direct dest h info nar ok τ)
      (fun _ τ => Safe .direct dest h info nar τ)
      (handOverDirect world narHashHex dest nar) := by
  -- every error ends in the same way
  have hnotFound : Action.Triple (fun _ τ => Safe .direct dest h info nar τ)
      (fun ok _ τ => AfterHandOver .direct dest h info nar ok τ)
      (fun _ τ => Safe .direct dest h info nar τ) (do replyNotFound; pure false) :=
    Action.Triple.bind keeps_replyNotFound fun _ =>
      Action.Triple.pure fun _ _ hs => ⟨hs, fun hok => nomatch hok⟩
  refine Action.Triple.bind (writeTemporary_triple _ world.temporary) fun ok => ?_
  cases ok with
  | false => exact hnotFound.assume fun _ _ hs => hs.1
  | true =>
      have hwrite : Action.Triple
          (fun s τ => Safe .direct dest h info nar τ ∧
            (true = true → HoldsOnly (temporaryPath world narHashHex) nar s.disk))
          (fun ok _ τ => AfterHandOver .direct dest h info nar ok τ)
          (fun _ τ => Safe .direct dest h info nar τ)
          (onDisk (writeNarToDestination (temporaryPath world narHashHex) dest
            world.destination)) := by
        refine Action.Triple.focus fun s τ hs => ?_
        refine ⟨fun t ws ok ht hr => ?_, fun t ws e ht hr => ?_⟩
        · obtain ⟨rfl, rfl⟩ := ht
          have hpost := (writeNarToDestination_triple world.destination).returns s.disk [] ok
            ⟨hs.2 rfl, rfl⟩ hr
          exact ⟨hs.1.append_writes hpost.1, fun hok =>
            List.mem_append_right τ (List.mem_map_of_mem (hpost.2 hok))⟩
        · obtain ⟨rfl, rfl⟩ := ht
          exact hs.1.append_writes ((writeNarToDestination_triple world.destination).faults s.disk
            [] e ⟨hs.2 rfl, rfl⟩ hr)
      refine Action.Triple.bind hwrite fun ok => ?_
      have hremove : Action.Keeps (fun _ τ => AfterHandOver .direct dest h info nar ok τ)
          (onDisk (removeFile (temporaryPath world narHashHex) world.removeTemporary)) :=
        keeps_onDisk (keeps_removeFile _ _) fun _ _ hws hs => hs.append_writes hws
      refine Action.Triple.bind
        (hremove.weaken (fun _ _ hs => hs) (fun _ _ _ hs => hs) fun _ _ hs => hs.1) fun _ => ?_
      cases ok with
      | true => exact Action.Triple.pure fun _ _ hs => hs
      | false => exact hnotFound.assume fun _ _ hs => hs.1

omit [Sha256] in
theorem mem_narLines {outcome : StreamOutcome} {e : Effect} (he : e ∈ narLines nar outcome) :
    (∃ chunk, e = .nar chunk) ∨ e = .narEnd := by
  have hlines : ∀ {bss : List Bytes}, e ∈ bss.map Effect.nar → ∃ chunk, e = .nar chunk := by
    intro bss hmem
    obtain ⟨chunk, -, rfl⟩ := List.mem_map.mp hmem
    exact ⟨chunk, rfl⟩
  cases outcome with
  | cut lines part =>
      rcases List.mem_append.mp he with hline | hpart
      · exact Or.inl (hlines hline)
      · obtain ⟨chunk, -, rfl⟩ := List.mem_map.mp hpart
        exact Or.inl ⟨_, rfl⟩
  | _ =>
      rcases List.mem_append.mp he with hline | hend
      · exact Or.inl (hlines hline)
      · exact Or.inr (List.mem_singleton.mp hend)

omit [Sha256] in
/-- The end mark is written only after all lines. -/
theorem streamed_of_narEnd_mem {outcome : StreamOutcome} (hend : .narEnd ∈ narLines nar outcome) :
    streamed (narLines nar outcome) = nar := by
  cases outcome with
  | cut lines part =>
      rcases List.mem_append.mp hend with hline | hpart
      · obtain ⟨chunk, -, heq⟩ := List.mem_map.mp hline
        cases heq
      · obtain ⟨chunk, -, heq⟩ := List.mem_map.mp hpart
        cases heq
  | done => exact streamed_narLines_done nar
  | flushFailed => exact streamed_narLines_done nar

theorem handOverSocket_triple (world : DeliveryWorld) (writer : Bool) :
    Action.Triple (fun _ τ => Safe (.socket writer) dest h info nar τ ∧ streamed τ = [])
      (fun ok _ τ => AfterHandOver (.socket writer) dest h info nar ok τ)
      (fun _ τ => Safe (.socket writer) dest h info nar τ) (handOverSocket world nar) := by
  unfold handOverSocket
  split
  · have hflush : Action.Triple
        (fun (_ : Shared) τ => Safe (.socket writer) dest h info nar τ ∧ streamed τ = [])
        (fun _ _ τ => Safe (.socket writer) dest h info nar τ ∧ streamed τ = [])
        (fun _ τ => Safe (.socket writer) dest h info nar τ)
        (Action.emit .flush : Action Shared Effect Panic Unit) := by
      refine Action.Triple.emit fun _ τ hs => ⟨hs.1.append_quiet (fun e he => ?_) (by simp), ?_⟩
      · obtain rfl := List.mem_singleton.mp he
        exact trivial
      · rw [streamed_append, hs.2]
        rfl
    refine Action.Triple.bind hflush fun _ => ?_
    refine Action.Triple.bind (Q := fun _ _ τ => Safe (.socket writer) dest h info nar τ ∧
      (world.stream = .done → HandedOver (.socket writer) dest nar τ)) ?_ fun _ => ?_
    · refine Action.Triple.emitAll fun _ τ hs => ⟨hs.1.append ?_ ?_ ?_ ?_ ?_, fun hdone => ⟨?_, ?_⟩⟩
      · rw [streamed_append, hs.2, List.nil_append]
        exact streamed_narLines_prefix nar world.stream
      · intro hend
        rw [streamed_append, hs.2, List.nil_append]
        exact streamed_of_narEnd_mem hend
      · intro w hw
        rcases mem_narLines hw with ⟨chunk, heq⟩ | heq <;> cases heq
      · intro text ht
        rcases mem_narLines ht with ⟨chunk, heq⟩ | heq <;> cases heq
      · intro h' info' hi
        rcases mem_narLines hi with ⟨chunk, heq⟩ | heq <;> cases heq
      · rw [streamed_append, hs.2, List.nil_append, hdone, streamed_narLines_done]
      · rw [hdone]
        exact List.mem_append_right τ (List.mem_append_right _ List.mem_cons_self)
    · exact Action.Triple.pure fun _ τ hs => ⟨hs.1, fun hok => hs.2 (of_decide_eq_true hok)⟩
  · exact Action.Triple.pure fun _ τ hs => ⟨hs.1, fun hok => nomatch hok⟩

theorem handOver_triple (world : DeliveryWorld) (narHashHex : Text) :
    Action.Triple (fun _ τ => Safe mode dest h info nar τ ∧ streamed τ = [])
      (fun ok _ τ => AfterHandOver mode dest h info nar ok τ)
      (fun _ τ => Safe mode dest h info nar τ) (handOver mode world narHashHex dest nar) := by
  cases mode with
  | direct =>
      exact (handOverDirect_triple world narHashHex).assume fun _ _ hs => hs.1
  | socket writer =>
      cases writer with
      | true => exact handOverSocket_triple world true
      | false =>
          refine Action.Triple.bind (Q := fun _ _ τ => Safe (.socket false) dest h info nar τ) ?_
            fun _ => Action.Triple.pure fun _ _ hs => ⟨hs, fun hok => nomatch hok⟩
          exact keeps_replyNotFound.assume fun _ _ hs => hs.1

/-- Seeding writes the NAR under its own digest. -/
theorem keeps_autoSeed [MetadataFormat] (cfg : Config) (world : SaveWorld) (storePath : Text)
    (source : DownloadSource) :
    Action.Keeps (fun _ τ => Safe mode dest h info nar τ ∧ HandedOver mode dest nar τ)
      (autoSeed cfg world (Hex.encode (Sha256.digest nar).toList) nar storePath source) := by
  unfold autoSeed
  split
  · refine Action.Keeps.bind Action.Keeps.get fun s => ?_
    split
    · exact Action.Keeps.pure _
    · refine Action.Keeps.bind ?_ fun ok => ?_
      · exact keeps_onDisk (keeps_saveWithStorePath world (some storePath)) fun _ ws hws hs =>
          ⟨hs.1.append_writes hws, hs.2.append (streamed_map_write ws)⟩
      · cases ok with
        | true =>
            refine Action.Keeps.emit fun _ τ hs => ⟨hs.1.append_quiet (fun e he => ?_) (by simp),
              hs.2.append rfl⟩
            obtain rfl := List.mem_singleton.mp he
            exact trivial
        | false => exact Action.Keeps.pure _
  · exact Action.Keeps.pure _

end

/-! ### Requests -/

omit [Sha256] in
/-- A request that has its narinfo and has not passed the check yet. -/
structure Before (h : Text) (info : Narinfo) (τ : List Effect) : Prop where
  quiet : ∀ e ∈ τ, e.Quiet
  used : .narinfo h info ∈ τ
  only : ∀ h' info', .narinfo h' info' ∈ τ → h' = h ∧ info' = info

/-- What a request for `path` may have done: nothing with any bytes, or only safe things
with the NAR that its narinfo names. -/
def Verified (mode : ReplyMode) (path dest : Text) (τ : List Effect) : Prop :=
  (∀ e ∈ τ, e.Quiet) ∨ ∃ h info nar, hashPart path = .ok h ∧
    sha256Bytes info.narHash = .ok (some (Sha256.digest nar)) ∧ Safe mode dest h info nar τ

section

variable {mode : ReplyMode} {path dest h : Text} {info : Narinfo}

omit [Sha256] in
theorem Before.append {τ ω : List Effect} (hb : Before h info τ) (hquiet : ∀ e ∈ ω, e.Quiet)
    (hinfo : ∀ h' info', .narinfo h' info' ∉ ω) : Before h info (τ ++ ω) where
  quiet e he := (List.mem_append.mp he).elim (hb.quiet e) (hquiet e)
  used := List.mem_append_left ω hb.used
  only h' info' hmem := hb.only h' info' ((List.mem_append.mp hmem).resolve_right (hinfo h' info'))

omit [Sha256] in
/-- Before the check, everything stays quiet. -/
theorem Before.line {τ : List Effect} (hb : Before h info τ) {text : Text}
    (htext : ¬ ClaimsSuccess text) : Before h info (τ ++ [.line text]) :=
  hb.append (fun e he => List.mem_singleton.mp he ▸ htext) (by simp)

variable [Decompressors]

/-- Whatever the policy, a request stays quiet while it downloads. -/
theorem keeps_download_before (cfg : Config) (world : SubstituteWorld) (narHash : Digest) :
    Action.Keeps (fun _ τ => Before h info τ) (download cfg world info narHash h) := by
  refine keeps_download (fun _ τ texts hb => hb.append (fun e he => ?_) (by simp)) _ _ _ _ _
  obtain ⟨text, -, rfl⟩ := List.mem_map.mp he
  exact trivial

omit [Decompressors] in
theorem digest_eq_of_hex {narHash : Digest} {data : Bytes}
    (heq : eqIgnoreAsciiCase (Hex.encode narHash.toList)
      (Hex.encode (Sha256.digest data).toList) = true) : Sha256.digest data = narHash := by
  have hhex := of_decide_eq_true heq
  rw [Hex.map_toLower_encode, Hex.map_toLower_encode] at hhex
  exact (Vector.toList_inj.mp (Hex.encode_injective hhex)).symm

omit [Decompressors] [Sha256] in
/-- A NAR with the wrong digest leaves no trace but the reply. -/
theorem keeps_rejectMismatch (world : DeliveryWorld) (expected actual : Text) :
    Action.Keeps (fun _ τ => Before h info τ) (rejectMismatch world dest expected actual) := by
  have hremove : Action.Keeps (fun _ τ => Before h info τ)
      (onDisk (removeFile dest world.removeMismatched)) :=
    ⟨fun _ τ _ hb _ => by simpa [onDisk, Action.focus, removeFile] using hb,
      fun _ _ _ _ hr => nomatch hr⟩
  refine Action.Keeps.bind hremove fun _ => ?_
  refine Action.Keeps.bind (Action.Keeps.emit fun _ τ hb =>
    hb.append (fun e he => List.mem_singleton.mp he ▸ trivial) (by simp)) fun _ => ?_
  refine Action.Keeps.emit fun _ τ hb => hb.line fun hclaim => ?_
  -- the reply starts with another letter
  obtain ⟨rest, hrest⟩ := hclaim
  have hhead : some 's' = some 'h' := congrArg List.head? hrest
  exact absurd hhead (by decide)

variable [MetadataFormat]

omit [Decompressors] in
/-- **The one check.** After it, everything is about the NAR that passed. -/
theorem deliver_triple (hpath : hashPart path = .ok h) {narHash : Digest}
    (hhash : sha256Bytes info.narHash = .ok (some narHash)) (cfg : Config) (world : DeliveryWorld)
    (storePath : Text) (nar : DownloadedNar) :
    Action.Triple (fun _ τ => Before h info τ) (fun _ _ τ => Verified mode path dest τ)
      (fun _ τ => Verified mode path dest τ)
      (deliver cfg mode world dest storePath narHash nar) := by
  unfold deliver
  dsimp only
  split
  next heq =>
    obtain rfl := digest_eq_of_hex heq
    have hsafe : ∀ τ, Safe mode dest h info nar.data τ → Verified mode path dest τ :=
      fun τ hs => Or.inr ⟨h, info, nar.data, hpath, hhash, hs⟩
    have hbefore : ∀ (s : Shared) τ, Before h info τ →
        Safe mode dest h info nar.data τ ∧ streamed τ = [] := fun _ τ hb =>
      ⟨Safe.of_quiet hb.quiet hb.used hb.only, Effect.Quiet.streamed_eq_nil hb.quiet⟩
    refine Action.Triple.bind ((handOver_triple world _).weaken hbefore (fun _ _ _ hs => hs)
      fun _ τ hs => hsafe τ hs) fun ok => ?_
    cases ok with
    | false => exact Action.Triple.pure fun _ τ hs => hsafe τ hs.1
    | true =>
        refine Action.Triple.bind ((keeps_autoSeed cfg world.save storePath nar.source).weaken
          (fun _ _ hs => ⟨hs.1, hs.2 rfl⟩) (fun _ _ _ hs => hs) fun _ τ hs => hsafe τ hs.1) fun _ => ?_
        refine Action.Triple.bind (Q := fun _ _ τ => Safe mode dest h info nar.data τ ∧
          HandedOver mode dest nar.data τ) (Action.Triple.emit fun _ τ hs =>
          ⟨hs.1.append_quiet (fun e he => List.mem_singleton.mp he ▸ trivial) (by simp),
            hs.2.append rfl⟩) fun _ => ?_
        exact Action.Triple.emit fun _ τ hs => hsafe _ (hs.1.succeed hs.2)
  next =>
    exact (keeps_rejectMismatch world _ _).weaken (fun _ _ hb => hb)
      (fun _ _ τ hb => Or.inl hb.quiet) fun _ τ hb => Or.inl hb.quiet

omit [Decompressors] [MetadataFormat] in
theorem replyNotFound_triple :
    Action.Triple (fun _ τ => Before h info τ) (fun _ _ τ => Verified mode path dest τ)
      (fun _ τ => Verified mode path dest τ) replyNotFound :=
  Action.Triple.emit fun _ _ hb => Or.inl (hb.line (by decide +kernel)).quiet

theorem substituteWith_triple (hpath : hashPart path = .ok h) (cfg : Config)
    (world : SubstituteWorld) :
    Action.Triple (fun _ τ => Before h info τ) (fun _ _ τ => Verified mode path dest τ)
      (fun _ τ => Verified mode path dest τ) (substituteWith cfg mode world dest h info) := by
  unfold substituteWith
  split
  · exact Action.Triple.fault fun _ _ hb => Or.inl hb.quiet
  · exact replyNotFound_triple
  next narHash hhash =>
    refine Action.Triple.bind ((keeps_download_before cfg world narHash).weaken (fun _ _ hb => hb)
      (fun _ _ _ hb => hb) fun _ _ hb => Or.inl hb.quiet) fun r => ?_
    cases r with
    | ok nar => exact deliver_triple hpath hhash cfg world.delivery info.storePath nar
    | error e => exact replyNotFound_triple

variable [SignatureLib]

/-- Whatever a request has done by the time it ends is verified. -/
theorem trySwarmSubstitute_triple (cfg : Config) (mode : ReplyMode) (world : SubstituteWorld)
    (path dest : Text) :
    Action.Triple (fun _ τ => τ = []) (fun _ _ τ => Verified mode path dest τ)
      (fun _ τ => Verified mode path dest τ) (trySwarmSubstitute cfg mode world path dest) := by
  have hnotFound : Action.Triple (fun (_ : Shared) τ => τ = [])
      (fun _ _ τ => Verified mode path dest τ) (fun _ τ => Verified mode path dest τ)
      replyNotFound := by
    refine Action.Triple.emit fun _ τ hτ => Or.inl fun e he => ?_
    rw [hτ] at he
    obtain rfl := List.mem_singleton.mp he
    show ¬ ClaimsSuccess notFoundLine
    decide +kernel
  unfold trySwarmSubstitute
  cases hpath : hashPart path with
  | error e => exact hnotFound
  | ok h =>
      have hnil : Verified mode path dest [] := Or.inl fun e he => absurd he List.not_mem_nil
      refine Action.Triple.bind ((lookupNarinfo_triple cfg world.metadata).weaken
        (fun _ _ hτ => hτ) (fun _ _ _ hτ => hτ) fun _ τ hτ => hτ ▸ hnil) fun r => ?_
      cases r with
      | none => exact hnotFound
      | some info =>
          refine (substituteWith_triple hpath cfg world).assume fun _ τ hτ => ?_
          have hsingle : τ = [.narinfo h info] := hτ
          exact ⟨by simp [hsingle, Effect.Quiet], by simp [hsingle], by simp [hsingle]⟩

end

end

/-! ### A request that succeeds -/

/-- One server, HTTP first, no seeding. -/
def httpConfig : Config where
  substituteUrls := ["s".toList]
  substitutePolicy := .httpFirst
  autoSeedDownloads := .off
  localNarinfoPath := none
  minProviders := 1
  maxPeersPerDownload := 1
  maxInFlightBlocksPerPeer := 1
  requestTimeoutSecs := 30
  stallTimeoutSecs := 30
  blockSize := 4

/-- Files and sockets that work, no peers, and servers that have the NAR `sampleNar`. -/
def servingWorld (metadata : MetadataWorld) : SubstituteWorld where
  metadata
  p2p :=
    { providers := [], refreshed := [], select := fun _ peers => peers
      connected := [], bootstrap := [], round := ⟨0, []⟩, fallbackRound := ⟨0, []⟩
      download := ⟨0, 0, 0, sampleDownload, []⟩ }
  web _ _ := .response 200 [] ⟨none, [sampleNar], none⟩
  delivery :=
    { removeMismatched := true, flushed := true, stream := .done, tempDir := "/tmp".toList
      processId := 1, temporary := .done, destination := ⟨false, none, true, .done⟩
      removeTemporary := true, save := ⟨0, 0, true, .done, .done⟩ }

/-- The narinfo of `sampleNar`, uncompressed on the server. -/
def sampleNarinfo : Narinfo where
  storePath := "/gnu/store/a-b".toList
  narHash := Hex.encode (sampleSha256.digest sampleNar).toList
  narSize := 4
  references := []
  deriver := none
  urls := [⟨"n".toList, "none".toList, 4⟩]
  signedPortion := []
  signature := none

/-- An empty disk. -/
def sampleDisk : NarDisk := ⟨⟨"/c".toList, 4, ∅⟩, fun _ => none⟩

example :
    (@trySwarmSubstitute noMetadataFormat sampleSha256 forgedLib noDecompressors httpConfig
      (.socket true) (servingWorld ⟨0, 0, 0, none, fun _ _ => .sendError []⟩)
      "/gnu/store/a-b".toList "/d".toList
      ⟨(NarinfoCache.new 60).put 0 "a".toList sampleNarinfo, sampleDisk⟩).trace.getLast? =
      some (.line (successLine sampleNarinfo.narHash 4)) := by
  decide +kernel

end GuixP2p
