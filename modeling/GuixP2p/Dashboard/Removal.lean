import GuixP2p.Dashboard.Effects
import GuixP2p.Lib.Machine
import GuixP2p.NarStore.Reopen

/-!
# GuixP2p.Dashboard.Removal

**When deleting a seed is final.** The index knows one store path for a NAR hash, the one that a
download, an annotation or a seed request named first; the config file lists every path that was
seeded. Deleting a seed takes the path of the index off the list, so another path with the same NAR
stays there and the next start seeds it again. `seed_delete_final_iff` says when the deletions of a
run are final.
-/

namespace GuixP2p

open GuixP2p.Lib
/-! ### What a start serves -/

section

variable [Sha256]

/-- The cache directory has a NAR of the hash, which a scan may take up. -/
def NarDisk.Holds (disk : NarDisk) (h : Text) : Prop :=
  0 < disk.store.blockSize ∧
    ∃ bytes, disk.files.read (disk.store.narPath h) = some bytes ∧ hashHex bytes = h

theorem NarDisk.holds_congr {disk disk' : NarDisk} {h : Text}
    (hdir : disk'.store.cacheDir = disk.store.cacheDir)
    (hsize : disk'.store.blockSize = disk.store.blockSize)
    (hfile : disk'.files (disk.store.narPath h) = disk.files (disk.store.narPath h)) :
    disk'.Holds h ↔ disk.Holds h := by
  have hpath : disk'.store.narPath h = disk.store.narPath h := by
    unfold NarStore.narPath
    rw [hdir]
  unfold Holds
  rw [hsize, hpath, FileSystem.read_congr hfile]

theorem NarDisk.SameNar.holds_iff {disk disk' : NarDisk} {h : Text} (hsame : disk.SameNar disk' h) :
    disk'.Holds h ↔ disk.Holds h :=
  holds_congr hsame.cacheDir hsame.blockSize hsame.file

/-- The store does not serve the hash, nor would it after a scan. -/
def NarDisk.Lacks (h : Text) (disk : NarDisk) : Prop := disk.store.hasNar h = false ∧ ¬ disk.Holds h

theorem NarDisk.SameNar.lacks {disk disk' : NarDisk} {h : Text} (hsame : disk.SameNar disk' h)
    (hdisk : disk.Lacks h) : disk'.Lacks h :=
  ⟨hsame.indexed.trans hdisk.1, fun hholds => hdisk.2 (hsame.holds_iff.mp hholds)⟩

variable [MetadataFormat]

/-- The scan finds no NAR where there is none. -/
theorem lacks_openStore {disk : NarDisk} {h : Text} (hno : ¬ disk.Holds h) (world : ScanWorld) :
    (openStore world disk).state.Lacks h := by
  have hempty : disk.emptied.Lacks h := ⟨rfl, hno⟩
  refine openStore_induction (P := NarDisk.Lacks h) (fun disk h' entry hdisk hscan => ?_) hempty
  have hne : h ≠ h' := by
    intro heq
    subst heq
    obtain ⟨hb, data, hread, hhash, -⟩ := NarDisk.scanned_inv hscan
    exact hdisk.2 ⟨hb, data, hread, hhash⟩
  exact (NarDisk.sameNar_insertEntry hne entry).lacks hdisk

variable [TomlLib] (nars : Text → Bytes)

/-- The seed is gone: no path with its NAR is kept in the config file, and no start of the daemon
serves it. -/
structure Dashboard.Gone (dashboard : Dashboard) (h : Text) : Prop where
  unlisted : ∀ p ∈ persistedSeedPaths dashboard.config, hashHex (nars p) ≠ h
  unserved : ∀ world, (dashboard.restart nars world).disk.store.hasNar h = false

variable {nars} {dashboard : Dashboard} {h : Text}

omit [TomlLib] in
/-- A start that finds no NAR of the hash and seeds no path that has one leaves it so. -/
theorem lacks_startStore {disk : NarDisk} (hno : ¬ disk.Holds h) {paths : List Text}
    (hother : ∀ p ∈ paths, hashHex (nars p) ≠ h) (world : StartWorld) :
    (startStore nars world paths disk).state.Lacks h := by
  refine Action.state_bind (P := NarDisk.Lacks h) (lacks_openStore hno world.scan) fun _ disk hdisk => ?_
  refine Action.state_bind (P := NarDisk.Lacks h)
    ((NarDisk.sameNar_seedAll hother world.guix 0 disk).lacks hdisk) fun _ disk hdisk => ?_
  rw [Action.state_discard]
  exact (NarDisk.sameNar_annotateFromNarinfos disk h world.narinfos).lacks hdisk

/-- A start that reads everything in the directory but the config file. -/
def probe (h : Text) : StartWorld where
  scan := ⟨some [h ++ ".nar".toList], fun _ => true, fun _ => true⟩
  configReadable := false
  guix := fun _ => ⟨false, false, ⟨0, 0, false, .refused, .refused⟩⟩
  narinfos := []
  loopback := true

/-- A NAR in the directory is served by the next start that finds it. -/
theorem hasNar_restart_probe (hholds : dashboard.disk.Holds h) :
    (dashboard.restart nars (probe h)).disk.store.hasNar h = true := by
  obtain ⟨hb, bytes, hread, hhash⟩ := hholds
  have hne : h ≠ [] := by
    rw [← hhash]
    exact Hex.encode_ne_nil (by simp)
  have hlisted : ∃ name ∈ [h ++ ".nar".toList], rsplitFileAtDot name = (h, some "nar".toList) :=
    ⟨_, List.mem_singleton_self _, rsplitFileAtDot_append hne (by decide) (by decide)⟩
  obtain ⟨hresult, hscanned⟩ := @NarDisk.scanned_scanFiles _ _ dashboard.disk.emptied (probe h).scan
    [h ++ ".nar".toList] hb
  have hopen : openStore (probe h).scan dashboard.disk =
      scanFiles (probe h).scan [h ++ ".nar".toList] dashboard.disk.emptied := rfl
  have hstate : (dashboard.restart nars (probe h)).disk =
      (scanFiles (probe h).scan [h ++ ".nar".toList] dashboard.disk.emptied).state := by
    show (startStore nars (probe h) [] dashboard.disk).state = _
    unfold startStore
    rw [Action.bind_of_ok (a := ()) (by rw [hopen]; exact hresult), hopen]
    rfl
  have hfound : dashboard.disk.emptied.scanned (probe h).scan h = _ :=
    NarDisk.recorded_eq_some dashboard.disk.emptied hb hread hhash
  rw [hstate]
  unfold NarStore.hasNar
  rw [hscanned.lookup h, if_pos hlisted, hfound]
  rfl

/-- What it takes for a seed to be gone. -/
theorem gone_iff [LawfulTomlLib] : dashboard.Gone nars h ↔
    (∀ p ∈ persistedSeedPaths dashboard.config, hashHex (nars p) ≠ h) ∧ ¬ dashboard.disk.Holds h := by
  constructor
  · intro hgone
    refine ⟨hgone.unlisted, fun hholds => ?_⟩
    have hserved : (dashboard.restart nars (probe h)).disk.store.hasNar h = true :=
      hasNar_restart_probe hholds
    rw [hgone.unserved] at hserved
    cases hserved
  · intro hgone
    obtain ⟨hunlisted, hno⟩ := hgone
    refine ⟨hunlisted, fun world => (lacks_startStore hno (fun p hp => ?_) world).1⟩
    exact hunlisted p (mem_of_mem_loadSeedPaths hp)

/-! ### What a deletion leaves -/

omit [MetadataFormat] [TomlLib] in
/-- A NAR survives its deletion if it is not indexed or if its file cannot be removed. -/
theorem holds_removeSeed_iff {disk : NarDisk} (hintact : disk.Intact) (world : RemoveWorld) :
    (removeSeed h world disk).state.Holds h ↔
      disk.Holds h ∧ ¬ (disk.store.hasNar h = true ∧ world.nar = true) := by
  rw [state_removeSeed]
  cases hentry : disk.store.index.lookup h with
  | none => simp [NarStore.hasNar, hentry]
  | some entry =>
      obtain ⟨hpath, bytes, hread, -⟩ := hintact h entry hentry
      rw [hpath] at hread
      dsimp only
      rw [hpath]
      have hsidecar : ∀ files : FileSystem, (files.removeFile (disk.store.metadataPath h) world.sidecar).1
          (disk.store.narPath h) = files (disk.store.narPath h) := fun files =>
        FileSystem.removeFile_apply_of_ne (NarStore.metadataPath_ne_narPath h h).symm _
      cases hnar : world.nar with
      | true =>
          refine iff_of_false (fun hholds => ?_) fun hboth => hboth.2 ⟨by simp [NarStore.hasNar, hentry], rfl⟩
          obtain ⟨-, bytes', hread', -⟩ := hholds
          have hleft : ((disk.files.removeFile (disk.store.narPath h) true).1.removeFile
              (disk.store.metadataPath h) world.sidecar).1.read (disk.store.narPath h) = some bytes' := hread'
          rw [FileSystem.read, hsidecar, FileSystem.removeFile_allowed hread] at hleft
          cases hleft
      | false =>
          rw [FileSystem.removeFile_refused]
          have hsame : NarDisk.Holds { disk.eraseEntry h with
              files := (disk.files.removeFile (disk.store.metadataPath h) world.sidecar).1 } h ↔ disk.Holds h :=
            NarDisk.holds_congr rfl rfl (hsidecar disk.files)
          rw [hsame]
          simp

omit [MetadataFormat] [TomlLib] in
/-- The other NARs stay. -/
theorem holds_removeSeed_of_ne {disk : NarDisk} (hintact : disk.Intact) {h' : Text} (hne : h' ≠ h)
    (world : RemoveWorld) : (removeSeed h world disk).state.Holds h' ↔ disk.Holds h' := by
  rw [state_removeSeed]
  cases hentry : disk.store.index.lookup h with
  | none => rfl
  | some entry =>
      refine NarDisk.holds_congr rfl rfl ?_
      dsimp only
      rw [FileSystem.removeFile_apply_of_ne (NarStore.metadataPath_ne_narPath h h').symm,
        FileSystem.removeFile_apply_of_ne]
      rw [(hintact h entry hentry).1]
      exact fun hp => hne (NarStore.narPath_injective hp)

end

/-! ### Runs -/

/-- What happens to a node, one after the other. -/
inductive SeedEvent
  | seed (world : SeedRequestWorld) (requested : Text)
  | delete (world : SeedDeleteWorld) (hash : Text)
  /-- A download is seeded automatically. -/
  | download (world : SaveWorld) (narData : Bytes) (storePath : Text)
  /-- The list of seeds is asked for, and a narinfo names the path of a NAR. -/
  | annotate (world : SidecarWorld) (hash storePath : Text)
  | restart (world : StartWorld)

/-- The config file can be written. -/
def SeedEvent.ConfigWritten : SeedEvent → Prop
  | .seed world _ => world.configWrite = .written
  | .delete world _ => world.configWrite = .written
  | _ => True

/-- A node with a record of the hashes that were deleted and have not been asked for since. -/
structure SeedRun where
  dashboard : Dashboard
  deleted : List Text

section

variable [Sha256] [MetadataFormat] [TomlLib] (nars : Text → Bytes)

def SeedRun.step (s : SeedRun) : SeedEvent → Except Panic SeedRun
  | .seed world requested => .ok
      { dashboard := (apiSeed nars world requested s.dashboard).state
        deleted := s.deleted.filter fun h => decide (h ≠ hashHex (nars (Text.trim requested))) }
  | .delete world h =>
    let outcome := apiSeedDelete world h s.dashboard
    .ok
      { dashboard := outcome.state
        deleted :=
          match outcome.result with
          | .ok _ => h :: s.deleted
          | .error _ => s.deleted }
  | .download world narData storePath => .ok
      { dashboard := { s.dashboard with
          disk := ((StoreOp.autoSeed world narData storePath).action s.dashboard.disk).state }
        deleted := s.deleted.filter fun h => decide (h ≠ hashHex narData) }
  | .annotate world h storePath => .ok
      { s with dashboard := { s.dashboard with
          disk := (annotateSeedStorePath h storePath world s.dashboard.disk).state } }
  | .restart world => .ok { s with dashboard := s.dashboard.restart nars world }

/-- A node that was started, on any directory and with any config file. -/
def SeedRun.start (world : StartWorld) (dashboard : Dashboard) : SeedRun := ⟨dashboard.restart nars world, []⟩

/-- What was deleted is gone. -/
def SeedRun.Final (s : SeedRun) : Prop := ∀ h ∈ s.deleted, s.dashboard.Gone nars h

/-- A deletion that is final: the kept paths that have the NAR are no other than the path of the
index, and the config file can be read if there is one; and a NAR file of the hash is indexed and
can be removed. -/
def SeedRun.Finalizes (s : SeedRun) : SeedEvent → Prop
  | .delete world h => s.dashboard.seedMutationAllowed = true →
      (∀ p ∈ persistedSeedPaths s.dashboard.config, hashHex (nars p) = h →
        (s.dashboard.disk.store.index.lookup h).bind (·.storePath) = some p ∧
          world.configReadable = true) ∧
      (s.dashboard.disk.Holds h → s.dashboard.disk.store.hasNar h = true ∧ world.remove.nar = true)
  | _ => True

variable {nars}

omit [MetadataFormat] [TomlLib] in
theorem guarded_seedWorld (world : GuixWorld) (storePath : Text) :
    (StoreOp.seed (world.seedWorld nars storePath) storePath).Guarded := by
  intro h narData hhash hexported
  simp only [GuixWorld.seedWorld] at hhash hexported
  split at hhash
  · split at hexported
    · rw [← Option.some.inj hhash, ← Option.some.inj hexported]
    · cases hexported
  · cases hhash

omit [TomlLib] in
theorem intact_seedStorePath {disk : NarDisk} (hintact : disk.Intact) (world : GuixWorld) (storePath : Text) :
    (seedStorePath (world.seedWorld nars storePath) storePath disk).state.Intact := by
  have hstep := StoreOp.intact (@guarded_seedWorld _ nars world storePath) hintact
  rwa [StoreOp.action, Action.state_discard] at hstep

omit [TomlLib] in
theorem intact_startStore (disk : NarDisk) (world : StartWorld) (paths : List Text) :
    (startStore nars world paths disk).state.Intact := by
  have hseeded : ∀ i (disk : NarDisk), disk.Intact → (seedAll nars world.guix i paths disk).state.Intact := by
    induction paths with
    | nil => exact fun _ _ hintact => hintact
    | cons path paths ih =>
        intro i disk hintact
        exact Action.state_bind (P := NarDisk.Intact) (intact_seedStorePath hintact _ path)
          fun _ disk' hdisk' => ih (i + 1) disk' hdisk'
  refine Action.state_bind (P := NarDisk.Intact) (NarDisk.intact_openStore world.scan disk) fun _ disk hdisk => ?_
  refine Action.state_bind (P := NarDisk.Intact) (hseeded 0 disk hdisk) fun _ disk hdisk => ?_
  exact @StoreOp.intact _ _ (.annotateFromNarinfos world.narinfos) trivial disk hdisk

/-- The index stays intact. -/
theorem step_seed_intact {s s' : SeedRun} {e : SeedEvent} (hintact : s.dashboard.disk.Intact)
    (hstep : s.step nars e = .ok s') : s'.dashboard.disk.Intact := by
  cases e with
  | seed world requested =>
      obtain rfl := Except.ok.inj hstep
      rcases state_apiSeed world requested rfl with heq | ⟨hdisk, -⟩
      · dsimp only
        rw [heq]
        exact hintact
      · dsimp only
        rw [hdisk]
        exact intact_seedStorePath hintact _ _
  | delete world h =>
      obtain rfl := Except.ok.inj hstep
      cases hallowed : s.dashboard.seedMutationAllowed with
      | false =>
          rw [apiSeedDelete_of_forbidden hallowed]
          exact hintact
      | true =>
          rw [apiSeedDelete_eq hallowed]
          have hremoved := @StoreOp.intact _ _ (.removeSeed h world.remove) trivial _ hintact
          rwa [StoreOp.action, Action.state_discard] at hremoved
  | download world narData storePath =>
      obtain rfl := Except.ok.inj hstep
      exact @StoreOp.intact _ _ (.autoSeed world narData storePath) trivial _ hintact
  | annotate world h storePath =>
      obtain rfl := Except.ok.inj hstep
      exact hintact.annotateEntry h storePath world
  | restart world =>
      obtain rfl := Except.ok.inj hstep
      exact intact_startStore _ _ _

/-- A seed stays gone while no path with its NAR is kept and no NAR file of it appears. -/
theorem Dashboard.Gone.keep [LawfulTomlLib] {dashboard dashboard' : Dashboard} {h : Text}
    (hgone : dashboard.Gone nars h)
    (hlist : ∀ p ∈ persistedSeedPaths dashboard'.config, hashHex (nars p) = h →
      p ∈ persistedSeedPaths dashboard.config)
    (hholds : dashboard'.disk.Holds h → dashboard.disk.Holds h) : dashboard'.Gone nars h := by
  rw [gone_iff] at hgone ⊢
  exact ⟨fun p hp hhash => hgone.1 p (hlist p hp hhash) hhash, fun hnew => hgone.2 (hholds hnew)⟩

omit [TomlLib] in
/-- A download of another NAR. -/
theorem sameNar_autoSeed {disk : NarDisk} {h : Text} {narData : Bytes} (hne : h ≠ hashHex narData)
    (world : SaveWorld) (storePath : Text) :
    disk.SameNar ((StoreOp.autoSeed world narData storePath).action disk).state h := by
  show disk.SameNar (Action.bind Action.get _ disk).state h
  simp only [Action.bind, Action.get]
  split
  · exact NarDisk.SameNar.refl disk h
  · rw [Action.state_discard]
    exact NarDisk.sameNar_saveWithSource hne _ _ _ _

/-- A deletion leaves other seeds gone, and its own is gone if it finalizes. -/
theorem gone_delete_iff [LawfulTomlLib] {dashboard : Dashboard} (hintact : dashboard.disk.Intact)
    (hallowed : dashboard.seedMutationAllowed = true) {world : SeedDeleteWorld}
    (hwritten : world.configWrite = .written) {h : Text} :
    (apiSeedDelete world h dashboard).state.Gone nars h ↔
      (∀ p ∈ persistedSeedPaths dashboard.config, hashHex (nars p) = h →
        (dashboard.disk.store.index.lookup h).bind (·.storePath) = some p ∧ world.configReadable = true) ∧
      (dashboard.disk.Holds h → dashboard.disk.store.hasNar h = true ∧ world.remove.nar = true) := by
  have hdisk : (apiSeedDelete world h dashboard).state.disk = (removeSeed h world.remove dashboard.disk).state := by
    rw [apiSeedDelete_eq hallowed]
  rw [gone_iff, hdisk, holds_removeSeed_iff hintact, not_and_not_right]
  refine and_congr_left' ⟨fun hunlisted p hp hhash => ?_, fun hpaths p hp hhash => ?_⟩
  · by_contra hkept
    exact hunlisted p ((mem_persisted_delete_iff hallowed hwritten).mpr ⟨hp, hkept⟩) hhash
  · obtain ⟨hold, hkept⟩ := (mem_persisted_delete_iff hallowed hwritten).mp hp
    exact hkept (hpaths p hold hhash)

/-- **Step lemma.** -/
theorem step_final_iff [LawfulTomlLib] {s s' : SeedRun} {e : SeedEvent} (hintact : s.dashboard.disk.Intact)
    (hfinal : s.Final nars) (hwritten : e.ConfigWritten) (hstep : s.step nars e = .ok s') :
    s'.Final nars ↔ s.Finalizes nars e := by
  cases e with
  | seed world requested =>
      refine iff_of_true (fun h hh => ?_) trivial
      obtain rfl := Except.ok.inj hstep
      obtain ⟨hdeleted, hne⟩ := List.mem_filter.mp hh
      rw [decide_eq_true_eq] at hne
      rcases state_apiSeed world requested rfl with heq | ⟨hdisk, hconfig⟩
      · dsimp only
        rw [heq]
        exact hfinal h hdeleted
      · refine (hfinal h hdeleted).keep (fun p hp hhash => ?_) fun hholds => ?_
        · rcases hconfig with hconfig | hconfig
          · rwa [hconfig] at hp
          · rw [hconfig, show world.configWrite = .written from hwritten] at hp
            rcases mem_persist hp with rfl | hp
            · exact absurd hhash.symm hne
            · exact hp
        · rw [hdisk] at hholds
          exact (NarDisk.sameNar_seed (Ne.symm hne) world.guix).holds_iff.mp hholds
  | delete world h =>
      obtain rfl := Except.ok.inj hstep
      cases hallowed : s.dashboard.seedMutationAllowed with
      | false =>
          refine iff_of_true (fun h' hh' => ?_) fun htrue => absurd (hallowed.symm.trans htrue) (by decide)
          rw [apiSeedDelete_of_forbidden hallowed] at hh' ⊢
          exact hfinal h' hh'
      | true =>
          have hiff := @gone_delete_iff _ _ _ nars _ _ hintact hallowed world hwritten h
          have hdeleted : (match (apiSeedDelete world h s.dashboard).result with
              | .ok _ => h :: s.deleted
              | .error _ => s.deleted) = h :: s.deleted := by
            rw [apiSeedDelete_eq hallowed]
          constructor
          · intro hfinal' _
            refine hiff.mp (hfinal' h ?_)
            rw [hdeleted]
            exact List.mem_cons_self
          · intro hguard h' hh'
            rw [hdeleted, List.mem_cons] at hh'
            by_cases heq : h' = h
            · rw [heq]
              exact hiff.mpr (hguard hallowed)
            · have hgone := hfinal h' (hh'.resolve_left heq)
              refine hgone.keep (fun p hp _ => ((mem_persisted_delete_iff hallowed hwritten).mp hp).1) ?_
              rw [apiSeedDelete_eq hallowed]
              exact (holds_removeSeed_of_ne hintact heq world.remove).mp
  | download world narData storePath =>
      refine iff_of_true (fun h hh => ?_) trivial
      obtain rfl := Except.ok.inj hstep
      obtain ⟨hdeleted, hne⟩ := List.mem_filter.mp hh
      rw [decide_eq_true_eq] at hne
      exact (hfinal h hdeleted).keep (fun p hp _ => hp) (sameNar_autoSeed hne world storePath).holds_iff.mp
  | annotate world h' storePath =>
      refine iff_of_true (fun h hh => ?_) trivial
      obtain rfl := Except.ok.inj hstep
      exact (hfinal h hh).keep (fun p hp _ => hp) (NarDisk.sameNar_annotateEntry _ h h' storePath world).holds_iff.mp
  | restart world =>
      refine iff_of_true (fun h hh => ?_) trivial
      obtain rfl := Except.ok.inj hstep
      obtain ⟨hunlisted, hno⟩ := gone_iff.mp (hfinal h hh)
      have hlacks : NarDisk.Lacks h (s.dashboard.restart nars world).disk :=
        lacks_startStore hno (fun p hp => hunlisted p (mem_of_mem_loadSeedPaths hp)) world
      exact (hfinal h hh).keep (fun p hp _ => hp) fun hholds => absurd hholds hlacks.2

/-- **When deleting a seed is final.** On any node, with any NARs in the store, and in every run of
seed requests, deletions, downloads, annotations and restarts whose writes of the config file
succeed: in every state, no path with the NAR of a deleted seed is kept in the config file and no
start of the daemon serves it, exactly when every deletion of the run finds no other kept path with
that NAR than the path of the index, a config file that can be read if that path is kept, and no NAR
file of the hash that is not indexed or cannot be removed. -/
theorem seed_delete_final_iff [LawfulTomlLib] (world : StartWorld) (dashboard : Dashboard)
    {events : List SeedEvent} (hwritten : ∀ e ∈ events, e.ConfigWritten) :
    (∀ events' s, events' <+: events →
        Machine.run (SeedRun.step nars) (SeedRun.start nars world dashboard) events' = .ok s →
        s.Final nars) ↔
      Machine.Meets (SeedRun.step nars) (SeedRun.Finalizes nars) (SeedRun.start nars world dashboard) events := by
  have hok : ∀ (s : SeedRun) e, True → ((∃ s', s.step nars e = .ok s') ↔ True) := by
    intro s e _
    refine iff_of_true ?_ trivial
    cases e <;> exact ⟨_, rfl⟩
  obtain ⟨t, hrun⟩ := (Machine.run_ok_iff (J := fun _ => True) (fun _ _ _ _ _ => trivial) hok
    (s := SeedRun.start nars world dashboard) trivial).mpr fun e (_ : e ∈ events) => trivial
  refine Machine.forall_states_iff_meets_of_good (J := fun s => s.dashboard.disk.Intact)
    (P := SeedRun.Final nars) (G := SeedEvent.ConfigWritten)
    (fun _ _ _ hs _ hstep => step_seed_intact hs hstep)
    (fun _ _ _ hs hfinal hwritten hstep => step_final_iff hs hfinal hwritten hstep) hwritten ?_ ?_ hrun
  · exact intact_startStore _ _ _
  · exact fun h hh => absurd hh List.not_mem_nil

end

/-! ### Two store paths with one NAR -/

def tomlEscape (c : Char) : Text := if c = '\x22' ∨ c = '\x5c' then ['\x5c', c] else [c]

def tomlQuote (t : Text) : Text := '\x22' :: (t.flatMap tomlEscape ++ ['\x22'])

def tomlItems : List Text → Text
  | [] => []
  | [value] => tomlQuote value
  | value :: rest => tomlQuote value ++ ", ".toList ++ tomlItems rest

/-- The rest of a TOML string, and what follows it. -/
def tomlString : Text → Option (Text × Text)
  | [] => none
  | '\x22' :: rest => some ([], rest)
  | '\x5c' :: c :: rest => (tomlString rest).map fun r => (c :: r.1, r.2)
  | c :: rest => (tomlString rest).map fun r => (c :: r.1, r.2)

/-- The rest of an array of strings that ends the file. -/
def tomlArray : Nat → Text → Option (List Text)
  | 0, _ => none
  | n + 1, '\x22' :: rest =>
    match tomlString rest with
    | some (value, ',' :: ' ' :: rest) => (tomlArray n rest).map (value :: ·)
    | some (value, rest) => (tomlArray n rest).map (value :: ·)
    | none => none
  | _ + 1, rest => if rest = [']', '\n'] then some [] else none

/-- The setting `seed_paths` of a file that has no other. -/
def tomlSeedPaths (content : Text) : Option (Option (List Text)) :=
  if content = [] then some none
  else
    match content.dropPrefix? "seed_paths = [".toList with
    | some rest => (tomlArray content.length rest).map some
    | none => none

def printSeedPaths : Option (List Text) → Text
  | none => []
  | some values => "seed_paths = [".toList ++ (tomlItems values ++ [']', '\n'])

/-- Config files with no other setting. -/
@[reducible] def seedPathsToml : TomlLib where
  Doc := Option (List Text)
  parse := tomlSeedPaths
  new := none
  toString := printSeedPaths
  seedPathArray doc := doc.map (·.map some)
  setSeedPaths _ values := some values
  fromStr := tomlSeedPaths

theorem tomlString_escape (t rest : Text) :
    tomlString (t.flatMap tomlEscape ++ '\x22' :: rest) = some (t, rest) := by
  induction t with
  | nil => rfl
  | cons c t ih =>
      rw [List.flatMap_cons, List.append_assoc, tomlEscape]
      by_cases hc : c = '\x22' ∨ c = '\x5c'
      · rw [if_pos hc, List.cons_append, List.cons_append, List.nil_append, tomlString, ih]
        rfl
      · rw [if_neg hc]
        obtain ⟨hquote, hbackslash⟩ := not_or.mp hc
        rw [List.singleton_append, tomlString]
        · rw [ih]
          rfl
        · exact hquote
        · exact fun _ _ heq => absurd heq hbackslash

theorem tomlArray_tomlItems (values : List Text) {n : Nat} (hn : values.length < n) :
    tomlArray n (tomlItems values ++ [']', '\n']) = some values := by
  induction values generalizing n with
  | nil =>
      obtain ⟨n, rfl⟩ := Nat.exists_eq_succ_of_ne_zero (Nat.ne_of_gt hn)
      rfl
  | cons value rest ih =>
      obtain ⟨n, rfl⟩ := Nat.exists_eq_succ_of_ne_zero (Nat.ne_of_gt (Nat.zero_lt_of_lt hn))
      have hrest := ih (Nat.lt_of_succ_lt_succ hn)
      cases rest with
      | nil =>
          have hstring := tomlString_escape value [']', '\n']
          have hitems : tomlItems [value] ++ [']', '\n'] =
              '\x22' :: (value.flatMap tomlEscape ++ '\x22' :: [']', '\n']) := by
            simp [tomlItems, tomlQuote]
          rw [hitems, tomlArray, hstring]
          show (tomlArray n (tomlItems [] ++ [']', '\n'])).map _ = _
          rw [hrest]
          rfl
      | cons next rest =>
          have hstring := tomlString_escape value (',' :: ' ' :: (tomlItems (next :: rest) ++ [']', '\n']))
          have hitems : tomlItems (value :: next :: rest) ++ [']', '\n'] =
              '\x22' :: (value.flatMap tomlEscape ++
                '\x22' :: ',' :: ' ' :: (tomlItems (next :: rest) ++ [']', '\n'])) := by
            simp [tomlItems, tomlQuote]
          rw [hitems, tomlArray, hstring]
          show (tomlArray n (tomlItems (next :: rest) ++ _)).map _ = _
          rw [hrest]
          rfl

theorem length_tomlItems (values : List Text) : values.length ≤ (tomlItems values).length := by
  induction values with
  | nil => exact le_rfl
  | cons value rest ih =>
      cases rest with
      | nil => simp [tomlItems, tomlQuote]
      | cons next rest =>
          simp only [tomlItems, tomlQuote, List.length_append, List.length_cons] at ih ⊢
          omega

theorem tomlSeedPaths_printSeedPaths (values : List Text) :
    tomlSeedPaths (printSeedPaths (some values)) = some (some values) := by
  unfold tomlSeedPaths printSeedPaths
  rw [if_neg (by simp), Text.dropPrefix?_append_self]
  dsimp only
  rw [tomlArray_tomlItems values]
  · rfl
  · have hlen := length_tomlItems values
    have hprefix : 0 < "seed_paths = [".toList.length := by decide
    rw [List.length_append, List.length_append]
    omega

theorem lawful_seedPathsToml : @LawfulTomlLib seedPathsToml :=
  let _ := seedPathsToml
  { seedPathArray_new := rfl
    seedPathArray_empty := by
      intro doc hparse
      obtain rfl := Option.some.inj ((show tomlSeedPaths [] = some none from rfl).symm.trans hparse)
      rfl
    parse_toString := by
      intro doc values
      show (tomlSeedPaths (printSeedPaths (some values))).map _ = _
      rw [tomlSeedPaths_printSeedPaths]
      rfl
    fromStr_agrees := by
      intro content paths hread
      have hparse : parseOrNew content = some paths := by
        show (tomlSeedPaths content).getD none = _
        rw [show tomlSeedPaths content = some (some paths) from hread]
        rfl
      rw [hparse]
      show (paths.map some).filterMap id = paths
      simp }

/-- Guix hashes and exports everything, and all writes go through. -/
def workingGuix : GuixWorld := ⟨true, true, ⟨1, 2, true, .done, .done⟩⟩

/-- A start with an empty cache directory. -/
def emptyStart : StartWorld := ⟨emptyScan, true, fun _ => workingGuix, [], true⟩

/-- A node before its first start. -/
def newDashboard : Dashboard := ⟨emptyDisk, none, true⟩

def mirrorA : Text := "/gnu/store/a-hello".toList

def mirrorB : Text := "/gnu/store/b-hello".toList

/-- Every store path has this NAR. -/
def oneNar (_ : Text) : Bytes := sampleNar

def seedMirror (storePath : Text) : SeedEvent := .seed ⟨true, workingGuix, true, true, .written, []⟩ storePath

def deleteMirror : SeedEvent := .delete ⟨⟨true, true⟩, true, .written⟩ (@hashHex sampleSha256 sampleNar)

/-- A path that is the only one with its NAR is deleted for good. -/
theorem seed_delete_final_iff_sample :
    ∃ s, Machine.run (@SeedRun.step sampleSha256 noMetadataFormat seedPathsToml oneNar)
        (@SeedRun.start sampleSha256 noMetadataFormat seedPathsToml oneNar emptyStart newDashboard)
        [seedMirror mirrorA, deleteMirror] = .ok s ∧
      @SeedRun.Final sampleSha256 noMetadataFormat seedPathsToml oneNar s := by
  let _ := sampleSha256
  let _ := noMetadataFormat
  let _ := seedPathsToml
  have hwritten : ∀ e ∈ [seedMirror mirrorA, deleteMirror], e.ConfigWritten := by
    intro e he
    rcases List.mem_cons.mp he with rfl | he
    · rfl
    · rw [List.mem_singleton.mp he]
      rfl
  have hiff := @seed_delete_final_iff sampleSha256 noMetadataFormat seedPathsToml oneNar lawful_seedPathsToml
    emptyStart newDashboard _ hwritten
  refine ⟨_, rfl, hiff.mpr ⟨trivial, fun s' hs' => ⟨fun _ => ⟨fun p hp _ => ⟨?_, rfl⟩, fun _ => ⟨?_, rfl⟩⟩,
    fun _ _ => trivial⟩⟩ [seedMirror mirrorA, deleteMirror] _ (List.prefix_refl _) rfl⟩
  · obtain rfl := Except.ok.inj hs'
    have hpaths : persistedSeedPaths (apiSeed oneNar ⟨true, workingGuix, true, true, .written, []⟩ mirrorA
        (newDashboard.restart oneNar emptyStart)).state.config = [mirrorA] := by
      decide +kernel
    have hmem : p ∈ [mirrorA] := hpaths ▸ hp
    obtain rfl := List.mem_singleton.mp hmem
    decide +kernel
  · obtain rfl := Except.ok.inj hs'
    decide +kernel

/-- **A deleted seed comes back.** Two store paths with one NAR are seeded and the seed is deleted:
the second path stays in the config file, and the next start serves the NAR again. -/
theorem deleted_seed_comes_back :
    ∃ s, Machine.run (@SeedRun.step sampleSha256 noMetadataFormat seedPathsToml oneNar)
        (@SeedRun.start sampleSha256 noMetadataFormat seedPathsToml oneNar emptyStart newDashboard)
        [seedMirror mirrorA, seedMirror mirrorB, deleteMirror] = .ok s ∧
      s.deleted = [@hashHex sampleSha256 sampleNar] ∧
      @persistedSeedPaths seedPathsToml s.dashboard.config = [mirrorB] ∧
      (@Dashboard.restart sampleSha256 noMetadataFormat seedPathsToml oneNar emptyStart
        s.dashboard).disk.store.hasNar (@hashHex sampleSha256 sampleNar) = true ∧
      ¬ @SeedRun.Final sampleSha256 noMetadataFormat seedPathsToml oneNar s := by
  let _ := sampleSha256
  let _ := noMetadataFormat
  let _ := seedPathsToml
  refine ⟨_, rfl, by decide +kernel, by decide +kernel, by decide +kernel, fun hfinal => ?_⟩
  have hgone := hfinal (@hashHex sampleSha256 sampleNar) (by decide +kernel)
  exact absurd (hgone.unserved emptyStart) (by decide +kernel)

end GuixP2p
