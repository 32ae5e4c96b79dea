import GuixP2p.PeerStore.Eviction
import GuixP2p.Runtime.Bootstrap

/-!
# GuixP2p.Runtime.Restart

**What a node remembers when it starts again.** The peer store is written on the way, and a node can be
stopped at any time, also in the middle of a write. `restart_remembers` is about every history of starts,
recorded addresses and removals: which peers the next start dials besides the configured ones, and what
is sure to be among them.
-/

namespace GuixP2p

open GuixP2p.Lib MultiaddrLib

section

variable [MultiaddrLib]

namespace PeerStoreOp

/-- What the operation enters. -/
def entered : PeerStoreOp → Option PeerStoreEntry
  | .recordAddress peer address world =>
    (cleanPeerAddress world.localIps address).map fun addr => ⟨peerIdText peer, multiaddrText addr, world.now⟩
  | .load _ _ | .removeAddress _ _ _ => none

/-- The key that the operation removes. -/
def removed : PeerStoreOp → Option (Text × Text)
  | .removeAddress peer address _ => some (peerIdText peer, multiaddrText (normalizeAddress address))
  | .load _ _ | .recordAddress _ _ _ => none

/-- What the operation prunes with, if it does. -/
def prunes : PeerStoreOp → Option PruneWorld
  | .load world _ => some world
  | .recordAddress _ address world =>
    if (cleanPeerAddress world.localIps address).isSome then some world.prune else none
  | .removeAddress _ _ _ => none

/-- How the write of the operation ends, if it makes one. -/
def outcome : PeerStoreOp → SaveOutcome
  | .load _ _ => .written
  | .recordAddress _ _ world => world.save
  | .removeAddress _ _ outcome => outcome

/-- The operation neither removes an entry nor enters another one under its key; pruning keeps it; the
limit is not lowered; and the file is written. -/
structure Spares (e : PeerStoreEntry) (limit : Nat) (op : PeerStoreOp) : Prop where
  removed : op.removed ≠ some e.key
  entered : ∀ a, op.entered = some a → a.key ≠ e.key
  pruned : ∀ world, op.prunes = some world → e.keepable world = true
  limit : ∀ world maxEntries, op = .load world maxEntries → limit ≤ maxEntries
  written : op.Written

end PeerStoreOp

/-- The addresses that are entered, each once. -/
def enteredKeys (ops : List PeerStoreOp) : Finset (Text × Text) :=
  ((ops.filterMap PeerStoreOp.entered).map PeerStoreEntry.key).toFinset

/-! ### An entry among others -/

omit [MultiaddrLib] in
/-- The entry is there, and whatever goes before it has one of some keys. -/
structure Ranks (e : PeerStoreEntry) (others : Finset (Text × Text)) (entries : List PeerStoreEntry) : Prop where
  mem : e ∈ entries
  distinct : (entries.map PeerStoreEntry.key).Nodup
  ahead : ∀ a ∈ entries, a.key ≠ e.key → e.lastSeen ≤ a.lastSeen → a.key ∈ others

namespace Ranks

variable {e : PeerStoreEntry} {others : Finset (Text × Text)} {entries : List PeerStoreEntry}

omit [MultiaddrLib] in
theorem sublist (h : Ranks e others entries) {sub : List PeerStoreEntry} (hsub : sub.Sublist entries) (hmem : e ∈ sub) :
    Ranks e others sub :=
  ⟨hmem, h.distinct.sublist (hsub.map _), fun a ha => h.ahead a (hsub.subset ha)⟩

omit [MultiaddrLib] in
/-- As long as fewer than the limit can go before it, it stays when the list is cut off. -/
theorem take (h : Ranks e others entries) {n : Nat} (hcard : others.card < n) :
    e ∈ (entries.insertionSort PeerStore.NewerFirst).take n := by
  obtain ⟨pre, post, rfl⟩ := List.append_of_mem h.mem
  have hkeys := h.distinct
  rw [PeerStore.insertionSort_eq_ranked, Ranking.mem_take_ranked_iff hkeys.of_map, ← List.length_append]
  refine lt_of_le_of_lt ?_ hcard
  -- those that go before it have different keys, all of them among the others
  generalize hfront : (pre.filter fun b => e.lastSeen.toNat ≤ b.lastSeen.toNat) ++
    post.filter (fun b => ¬ b.lastSeen.toNat ≤ e.lastSeen.toNat) = front
  have hsub : front.Sublist (pre ++ post) := by
    rw [← hfront]
    exact List.filter_sublist.append List.filter_sublist
  have hrest : (e.key :: (pre ++ post).map PeerStoreEntry.key).Nodup :=
    (((List.perm_middle (a := e)).map PeerStoreEntry.key).nodup_iff).mp hkeys
  rw [List.nodup_cons] at hrest
  have hsubset : (front.map PeerStoreEntry.key).toFinset ⊆ others := by
    intro key hkey
    obtain ⟨a, ha, rfl⟩ := List.mem_map.mp (List.mem_toFinset.mp hkey)
    have hne : a.key ≠ e.key := fun heq => hrest.1 (heq ▸ List.mem_map_of_mem (hsub.subset ha))
    have hle : e.lastSeen ≤ a.lastSeen := by
      rw [← hfront, List.mem_append, List.mem_filter, List.mem_filter] at ha
      rcases ha with ⟨-, hle⟩ | ⟨-, hlt⟩
      · exact UInt64.le_iff_toNat_le.mpr (of_decide_eq_true hle)
      · exact UInt64.le_iff_toNat_le.mpr (Nat.le_of_not_le (of_decide_eq_true hlt))
    refine h.ahead a ?_ hne hle
    rcases List.mem_append.mp (hsub.subset ha) with hpre | hpost
    · exact List.mem_append_left _ hpre
    · exact List.mem_append_right _ (List.mem_cons_of_mem _ hpost)
  have hnodup : (front.map PeerStoreEntry.key).Nodup := hrest.2.sublist (hsub.map _)
  calc front.length = (front.map PeerStoreEntry.key).toFinset.card := by
        rw [List.toFinset_card_of_nodup hnodup, List.length_map]
    _ ≤ others.card := Finset.card_le_card hsubset

theorem prune (h : Ranks e others entries) {world : PruneWorld} (hkeep : e.keepable world = true) {n : Nat}
    (hcard : others.card < n) : Ranks e others (PeerStore.prune world ⟨n, entries⟩).entries := by
  have hretain := @retainEntries_eq_filter _ world [] entries h.distinct (by simp)
  have hkept : Ranks e others (entries.filter (PeerStoreEntry.keepable world)) :=
    h.sublist List.filter_sublist (List.mem_filter.mpr ⟨h.mem, hkeep⟩)
  have hentries : (PeerStore.prune world ⟨n, entries⟩).entries =
      ((entries.filter (PeerStoreEntry.keepable world)).insertionSort PeerStore.NewerFirst).take n := by
    rw [PeerStore.prune, hretain]
  refine ⟨?_, (PeerStore.prune_wellFormed world ⟨n, entries⟩).distinct, fun a ha => h.ahead a ?_⟩
  · rw [hentries]
    exact hkept.take hcard
  · rw [hentries] at ha
    exact List.mem_of_mem_filter ((List.mem_insertionSort PeerStore.NewerFirst).mp (List.mem_of_mem_take ha))

end Ranks

/-! ### Entering -/

namespace PeerStore

omit [MultiaddrLib] in
theorem eq_or_mem_of_mem_touch {key : Text × Text} {now : UInt64} {entries : List PeerStoreEntry} {a : PeerStoreEntry}
    (h : a ∈ touch key now entries) : a = ⟨key.1, key.2, now⟩ ∨ a ∈ entries := by
  induction entries with
  | nil => exact Or.inl (List.mem_singleton.mp h)
  | cons entry rest ih =>
      rw [touch] at h
      split at h
      next hkey =>
        rcases List.mem_cons.mp h with rfl | h
        · rw [← hkey]
          exact Or.inl rfl
        · exact Or.inr (List.mem_cons_of_mem _ h)
      next =>
        rcases List.mem_cons.mp h with rfl | h
        · exact Or.inr List.mem_cons_self
        · exact (ih h).imp_right (List.mem_cons_of_mem _)

omit [MultiaddrLib] in
theorem mem_touch_self (key : Text × Text) (now : UInt64) (entries : List PeerStoreEntry) :
    ⟨key.1, key.2, now⟩ ∈ touch key now entries := by
  rw [touch_eq]
  exact List.mem_append_right _ List.mem_cons_self

omit [MultiaddrLib] in
theorem mem_touch_of_ne {key : Text × Text} {now : UInt64} {entries : List PeerStoreEntry} {a : PeerStoreEntry}
    (h : a ∈ entries) (hne : a.key ≠ key) : a ∈ touch key now entries := by
  induction entries with
  | nil => cases h
  | cons entry rest ih =>
      rw [touch]
      split
      next hkey =>
        rcases List.mem_cons.mp h with rfl | h
        · exact absurd hkey hne
        · exact List.mem_cons_of_mem _ h
      next =>
        rcases List.mem_cons.mp h with rfl | h
        · exact List.mem_cons_self
        · exact List.mem_cons_of_mem _ (ih h)

omit [MultiaddrLib] in
theorem keys_touch (key : Text × Text) (now : UInt64) (entries : List PeerStoreEntry) :
    (touch key now entries).map PeerStoreEntry.key =
      if key ∈ entries.map PeerStoreEntry.key then entries.map PeerStoreEntry.key
      else entries.map PeerStoreEntry.key ++ [key] := by
  induction entries with
  | nil => rfl
  | cons entry rest ih =>
      rw [touch, List.map_cons]
      by_cases hkey : entry.key = key
      · rw [if_pos hkey, if_pos (by rw [hkey]; exact List.mem_cons_self), List.map_cons]
        rfl
      · have hmem : key ∈ entry.key :: rest.map PeerStoreEntry.key ↔ key ∈ rest.map PeerStoreEntry.key := by
          rw [List.mem_cons, or_iff_right (Ne.symm hkey)]
        rw [if_neg hkey, List.map_cons, ih]
        simp only [hmem]
        split
        · rfl
        · rfl

omit [MultiaddrLib] in
theorem nodup_keys_touch {entries : List PeerStoreEntry} (h : (entries.map PeerStoreEntry.key).Nodup)
    (key : Text × Text) (now : UInt64) : ((touch key now entries).map PeerStoreEntry.key).Nodup := by
  rw [keys_touch]
  split
  next => exact h
  next hnot => simpa using h.concat hnot

end PeerStore

namespace Ranks

variable {e : PeerStoreEntry} {others : Finset (Text × Text)} {entries : List PeerStoreEntry}

omit [MultiaddrLib] in
theorem touch (h : Ranks e others entries) {key : Text × Text} (hne : e.key ≠ key) (hkey : key ∈ others)
    (now : UInt64) : Ranks e others (PeerStore.touch key now entries) := by
  refine ⟨PeerStore.mem_touch_of_ne h.mem hne, PeerStore.nodup_keys_touch h.distinct key now, fun a ha hkeys hle => ?_⟩
  rcases PeerStore.eq_or_mem_of_mem_touch ha with rfl | ha
  · exact hkey
  · exact h.ahead a ha hkeys hle

omit [MultiaddrLib] in
/-- An entry of a later time than all others is first. -/
theorem entered (hdistinct : (entries.map PeerStoreEntry.key).Nodup)
    (hlater : ∀ a ∈ entries, a.key ≠ e.key → a.lastSeen < e.lastSeen) :
    Ranks e others (PeerStore.touch e.key e.lastSeen entries) := by
  refine ⟨PeerStore.mem_touch_self e.key e.lastSeen entries, PeerStore.nodup_keys_touch hdistinct _ _,
    fun a ha hne hle => ?_⟩
  rcases PeerStore.eq_or_mem_of_mem_touch ha with rfl | ha
  · exact absurd rfl hne
  · exact absurd (hlater a ha hne) (UInt64.not_lt.mpr hle)

end Ranks

/-! ### Steps -/

namespace PeerStoreState

variable [PeerStoreFormat] {s : PeerStoreState} {op : PeerStoreOp} {e : PeerStoreEntry}

theorem step_recordAddress {peer : PeerId} {address addr : Multiaddr} {world : RecordWorld}
    (hclean : cleanPeerAddress world.localIps address = some addr) :
    (s.step (.recordAddress peer address world)).store = PeerStore.prune world.prune
        ⟨s.store.maxEntries, PeerStore.touch (peerIdText peer, multiaddrText addr) world.now s.store.entries⟩ ∧
      (s.step (.recordAddress peer address world)).file =
        (s.step (.recordAddress peer address world)).store.save world.save := by
  simp only [step, PeerStore.recordAddress, hclean, and_self]

theorem step_recordAddress_none {peer : PeerId} {address : Multiaddr} {world : RecordWorld}
    (hclean : cleanPeerAddress world.localIps address = none) : s.step (.recordAddress peer address world) = s := by
  simp [step, PeerStore.recordAddress, PeerStoreOp.pruned, hclean]

/-- The entry is in the store and in its file. -/
structure Remembers (s : PeerStoreState) (e : PeerStoreEntry) (others : Finset (Text × Text)) (limit : Nat) : Prop where
  store : Ranks e others s.store.entries
  file : Ranks e others (PeerStore.fileEntries s.file)
  limit : limit ≤ s.store.maxEntries

variable [LawfulPeerStoreFormat] {others : Finset (Text × Text)} {limit : Nat}

/-- **Step lemma.** -/
theorem Remembers.step (h : s.Remembers e others limit) (hcard : others.card < limit) (hspares : op.Spares e limit)
    (hothers : ∀ a, op.entered = some a → a.key ∈ others) : (s.step op).Remembers e others limit := by
  cases op with
  | load world maxEntries =>
      have hlimit := hspares.limit world maxEntries rfl
      exact ⟨h.file.prune (hspares.pruned world rfl) (hcard.trans_le hlimit), h.file, hlimit⟩
  | recordAddress peer address world =>
      cases hclean : cleanPeerAddress world.localIps address with
      | none =>
          rw [step_recordAddress_none hclean]
          exact h
      | some addr =>
          obtain ⟨hstore, hfile⟩ := @step_recordAddress _ _ s peer address addr world hclean
          have hentered : PeerStoreOp.entered (.recordAddress peer address world) =
              some ⟨peerIdText peer, multiaddrText addr, world.now⟩ := by
            rw [PeerStoreOp.entered, hclean]
            rfl
          have hprunes : PeerStoreOp.prunes (.recordAddress peer address world) = some world.prune := by
            rw [PeerStoreOp.prunes, hclean]
            rfl
          have hwritten : world.save = .written := hspares.written
          have hranks := (h.store.touch (hspares.entered _ hentered).symm (hothers _ hentered) world.now).prune
            (hspares.pruned _ hprunes) (hcard.trans_le h.limit)
          rw [hwritten] at hfile
          refine ⟨?_, ?_, ?_⟩
          · rw [hstore]
            exact hranks
          · rw [hfile, fileEntries_save, hstore]
            exact hranks
          · rw [hstore]
            exact h.limit
  | removeAddress peer address outcome =>
      obtain rfl : outcome = .written := hspares.written
      have hne : e.key ≠ (peerIdText peer, multiaddrText (normalizeAddress address)) := fun heq =>
        hspares.removed (by rw [PeerStoreOp.removed, heq])
      have hranks := h.store.sublist (@List.filter_sublist _ (fun entry : PeerStoreEntry =>
        !decide (entry.key = (peerIdText peer, multiaddrText (normalizeAddress address)))) s.store.entries)
        (List.mem_filter.mpr ⟨h.store.mem, by simpa using hne⟩)
      refine ⟨hranks, ?_, h.limit⟩
      simp only [PeerStoreState.step, PeerStore.removeAddress]
      split
      · rw [fileEntries_save]
        exact hranks
      · exact h.file

/-- **Run lemma.** -/
theorem Remembers.run (h : s.Remembers e others limit) (hcard : others.card < limit) {ops : List PeerStoreOp}
    (hspares : ∀ op ∈ ops, op.Spares e limit) (hothers : ∀ op ∈ ops, ∀ a, op.entered = some a → a.key ∈ others) :
    (s.run ops).Remembers e others limit := by
  induction ops generalizing s with
  | nil => exact h
  | cons op ops ih =>
      rw [List.forall_mem_cons] at hspares hothers
      exact ih (h.step hcard hspares.1 hothers.1) hspares.2 hothers.2

/-- An address that is entered when the clock has gone on is remembered. -/
theorem remembers_entered (hdistinct : (s.store.entries.map PeerStoreEntry.key).Nodup) (hentered : op.entered = some e)
    (hwritten : op.Written) (hkeep : ∀ world, op.prunes = some world → e.keepable world = true)
    (hlater : ∀ a ∈ s.store.entries, a.key ≠ e.key → a.lastSeen < e.lastSeen) (hcard : others.card < limit)
    (hlimit : limit ≤ s.store.maxEntries) : (s.step op).Remembers e others limit := by
  cases op with
  | load world maxEntries => cases hentered
  | removeAddress peer address outcome => cases hentered
  | recordAddress peer address world =>
      obtain ⟨addr, hclean, rfl⟩ := Option.map_eq_some_iff.mp hentered
      obtain ⟨hstore, hfile⟩ := @step_recordAddress _ _ s peer address addr world hclean
      have hprunes : PeerStoreOp.prunes (.recordAddress peer address world) = some world.prune := by
        rw [PeerStoreOp.prunes, hclean]
        rfl
      have hsave : world.save = .written := hwritten
      have hranks := (@Ranks.entered _ others _ hdistinct hlater).prune (hkeep _ hprunes) (hcard.trans_le hlimit)
      rw [hsave] at hfile
      refine ⟨?_, ?_, ?_⟩
      · rw [hstore]
        exact hranks
      · rw [hfile, fileEntries_save, hstore]
        exact hranks
      · rw [hstore]
        exact hlimit

omit [LawfulPeerStoreFormat] in
theorem distinct_step (hdistinct : (s.store.entries.map PeerStoreEntry.key).Nodup) (op : PeerStoreOp) :
    ((s.step op).store.entries.map PeerStoreEntry.key).Nodup := by
  cases op with
  | load world maxEntries => exact (PeerStore.prune_wellFormed world _).distinct
  | recordAddress peer address world =>
      cases hclean : cleanPeerAddress world.localIps address with
      | none =>
          rw [step_recordAddress_none hclean]
          exact hdistinct
      | some addr =>
          rw [(step_recordAddress hclean).1]
          exact (PeerStore.prune_wellFormed world.prune _).distinct
  | removeAddress peer address outcome => exact hdistinct.sublist (List.filter_sublist.map _)

omit [LawfulPeerStoreFormat] in
theorem distinct_run (hdistinct : (s.store.entries.map PeerStoreEntry.key).Nodup) (ops : List PeerStoreOp) :
    ((s.run ops).store.entries.map PeerStoreEntry.key).Nodup := by
  induction ops generalizing s with
  | nil => exact hdistinct
  | cons op ops ih => exact ih (distinct_step hdistinct op)

/-! ### Where entries come from -/

/-- A write that fails leaves the file as it was, or one that cannot be read. -/
def FailsCleanly (s : PeerStoreState) (op : PeerStoreOp) : Prop :=
  ∀ left, op.outcome = .failed left → left = s.file ∨ PeerStore.fileEntries left = []

/-- All writes of a run do. -/
def RunFailsCleanly (s : PeerStoreState) : List PeerStoreOp → Prop
  | [] => True
  | op :: ops => s.FailsCleanly op ∧ RunFailsCleanly (s.step op) ops

/-- The entries of the store and of the file have a property. -/
def AllEntries (s : PeerStoreState) (P : PeerStoreEntry → Prop) : Prop :=
  (∀ a ∈ s.store.entries, P a) ∧ ∀ a ∈ PeerStore.fileEntries s.file, P a

omit [LawfulPeerStoreFormat] [PeerStoreFormat] in
theorem mem_of_mem_prune {world : PruneWorld} {store : PeerStore} {a : PeerStoreEntry}
    (h : a ∈ (PeerStore.prune world store).entries) : a ∈ store.entries :=
  (retainEntries_sublist world [] store.entries).subset
    ((List.mem_insertionSort PeerStore.NewerFirst).mp (List.mem_of_mem_take h))

omit [MultiaddrLib] in
theorem allEntries_save {store : PeerStore} {file : Option Text} {outcome : SaveOutcome} {P : PeerStoreEntry → Prop}
    (hstore : ∀ a ∈ store.entries, P a) (hfile : ∀ a ∈ PeerStore.fileEntries file, P a)
    (hclean : ∀ left, outcome = .failed left → left = file ∨ PeerStore.fileEntries left = []) :
    ∀ a ∈ PeerStore.fileEntries (store.save outcome), P a := by
  cases outcome with
  | written =>
      rw [fileEntries_save]
      exact hstore
  | failed left =>
      rcases hclean left rfl with rfl | hnone
      · exact hfile
      · intro a ha
        rw [PeerStore.save, hnone] at ha
        cases ha

/-- **Step lemma.** An operation brings in no entries but the one it enters. -/
theorem AllEntries.step {P : PeerStoreEntry → Prop} (h : s.AllEntries P) (hclean : s.FailsCleanly op)
    (hentered : ∀ a, op.entered = some a → P a) : (s.step op).AllEntries P := by
  cases op with
  | load world maxEntries => exact ⟨fun a ha => h.2 a (mem_of_mem_prune ha), h.2⟩
  | recordAddress peer address world =>
      cases haddr : cleanPeerAddress world.localIps address with
      | none =>
          rw [step_recordAddress_none haddr]
          exact h
      | some addr =>
          obtain ⟨hstore, hfile⟩ := @step_recordAddress _ _ s peer address addr world haddr
          have hnew : PeerStoreOp.entered (.recordAddress peer address world) =
              some ⟨peerIdText peer, multiaddrText addr, world.now⟩ := by
            rw [PeerStoreOp.entered, haddr]
            rfl
          have hall : ∀ a ∈ (s.step (.recordAddress peer address world)).store.entries, P a := by
            rw [hstore]
            intro a ha
            rcases PeerStore.eq_or_mem_of_mem_touch (mem_of_mem_prune ha) with rfl | ha
            · exact hentered _ hnew
            · exact h.1 a ha
          refine ⟨hall, ?_⟩
          rw [hfile]
          exact allEntries_save hall h.2 hclean
  | removeAddress peer address outcome =>
      have hall : ∀ a ∈ (s.step (.removeAddress peer address outcome)).store.entries, P a := fun a ha =>
        h.1 a (List.mem_of_mem_filter ha)
      refine ⟨hall, ?_⟩
      simp only [PeerStoreState.step, PeerStore.removeAddress]
      split
      · exact allEntries_save hall h.2 hclean
      · exact h.2

/-- **Run lemma.** -/
theorem AllEntries.run {P : PeerStoreEntry → Prop} (h : s.AllEntries P) {ops : List PeerStoreOp}
    (hclean : s.RunFailsCleanly ops) (hentered : ∀ op ∈ ops, ∀ a, op.entered = some a → P a) :
    (s.run ops).AllEntries P := by
  induction ops generalizing s with
  | nil => exact h
  | cons op ops ih =>
      rw [List.forall_mem_cons] at hentered
      exact ih (h.step hclean.1 hentered.1) hclean.2 hentered.2

omit [LawfulPeerStoreFormat] in
theorem runFailsCleanly_append {before later : List PeerStoreOp} (h : s.RunFailsCleanly (before ++ later)) :
    (s.run before).RunFailsCleanly later := by
  induction before generalizing s with
  | nil => exact h
  | cons op before ih => exact ih h.2

/-- What is removed while the store has it is gone from the file, too. -/
theorem allEntries_removed {peer : PeerId} {address : Multiaddr}
    (hheld : ∃ a ∈ s.store.entries, a.key = (peerIdText peer, multiaddrText (normalizeAddress address))) :
    (s.step (.removeAddress peer address .written)).AllEntries
      fun a => a.key ≠ (peerIdText peer, multiaddrText (normalizeAddress address)) := by
  have hgone : ∀ a ∈ (s.step (.removeAddress peer address .written)).store.entries,
      a.key ≠ (peerIdText peer, multiaddrText (normalizeAddress address)) := by
    intro a ha
    have hkept := (List.mem_filter.mp ha).2
    simpa using hkept
  refine ⟨hgone, ?_⟩
  have hchanged : (s.store.entries.filter fun entry : PeerStoreEntry =>
      !decide (entry.key = (peerIdText peer, multiaddrText (normalizeAddress address)))).length ≠
        s.store.entries.length := by
    intro hlength
    obtain ⟨a, ha, hkey⟩ := hheld
    have hall := List.length_filter_eq_length_iff.mp hlength a ha
    simp [hkey] at hall
  simp only [PeerStoreState.step, PeerStore.removeAddress, if_pos hchanged]
  rw [fileEntries_save]
  exact hgone

end PeerStoreState

/-! ### Main result -/

section

variable [PeerStoreFormat]

omit [PeerStoreFormat] in
theorem mem_startPeers {config : PeerConfig} {localIps : LocalIps} {store : PeerStore} {text : Text} :
    text ∈ startPeers config localIps (some store) ↔
      text ∈ config.bootstrapPeers ∨
        ∃ e ∈ store.entries, ∃ address, e.publicFullMultiaddr localIps = some address ∧ text = multiaddrText address := by
  rw [startPeers, mem_dedupStrings, List.mem_append, PeerStore.bootstrapPeers, List.mem_filterMap]
  refine or_congr_right (exists_congr fun e => and_congr_right fun _ => ?_)
  rw [Option.map_eq_some_iff]
  exact exists_congr fun address => and_congr_right fun _ => eq_comm

omit [PeerStoreFormat] in
theorem startPeers_spec (config : PeerConfig) (localIps : LocalIps) (store : PeerStore) :
    (startPeers config localIps (some store)).Nodup ∧
      (startPeers config localIps (some store)).length ≤ config.bootstrapPeers.length + store.entries.length := by
  obtain ⟨hnodup, hlength⟩ := dedupStrings_spec (config.bootstrapPeers ++ store.bootstrapPeers localIps)
  refine ⟨hnodup, hlength.trans ?_⟩
  rw [List.length_append]
  exact Nat.add_le_add_left (List.length_filterMap_le _ _) _

variable [LawfulPeerStoreFormat]

/-- **What a restarted node dials.** Take any peers file, any history of starts, recorded addresses and
removals, and a start after it. If writes fail cleanly, then besides the configured peers the node
dials only addresses that were in the file or recorded, that are public and not older than 30 days; each once,
and no more than the limit. It is sure to dial an address that was recorded when the clock had gone on,
unless it has been removed or recorded again, pruning finds it unusable or too old, a later write has
failed, or as many other addresses as the limit have been recorded since. And an address that was removed while
it was stored is not remembered until it is recorded again. -/
theorem restart_remembers (world₀ : PruneWorld) (maxEntries₀ : Nat) (file₀ : Option Text) (ops : List PeerStoreOp)
    (hclean : (PeerStoreState.start world₀ maxEntries₀ file₀).RunFailsCleanly ops)
    (config : PeerConfig) (world : PruneWorld) (localIps : LocalIps) :
    let run := fun history => (PeerStoreState.start world₀ maxEntries₀ file₀).run history
    let store := PeerStore.load world config.peerStoreMaxEntries (run ops).file
    let peers := startPeers config localIps (some store)
    (∀ text ∈ peers, text ∈ config.bootstrapPeers ∨
        ∃ e, (e ∈ PeerStore.fileEntries file₀ ∨ ∃ op ∈ ops, op.entered = some e) ∧ e.stale world.now = false ∧
          ∃ address, e.publicFullMultiaddr localIps = some address ∧ text = multiaddrText address) ∧
      (peers.Nodup ∧ peers.length ≤ config.bootstrapPeers.length + config.peerStoreMaxEntries) ∧
      (∀ before op later e limit, ops = before ++ op :: later → op.entered = some e → op.Written →
        (∀ w, op.prunes = some w → e.keepable w = true) →
        (∀ a ∈ (run before).store.entries, a.key ≠ e.key → a.lastSeen < e.lastSeen) →
        limit ≤ (run before).store.maxEntries →
        (∀ o ∈ later ++ [.load world config.peerStoreMaxEntries], o.Spares e limit) →
        (enteredKeys later).card < limit →
        ∀ address, e.publicFullMultiaddr localIps = some address → multiaddrText address ∈ peers) ∧
      ∀ before peer address later,
        let key := (peerIdText peer, multiaddrText (normalizeAddress address))
        ops = before ++ .removeAddress peer address .written :: later →
        (∃ a ∈ (run before).store.entries, a.key = key) →
        (∀ op ∈ later, ∀ a, op.entered = some a → a.key ≠ key) → ∀ e ∈ store.entries, e.key ≠ key := by
  intro run store peers
  have hstart : ((PeerStoreState.start world₀ maxEntries₀ file₀).store.entries.map PeerStoreEntry.key).Nodup :=
    (PeerStore.prune_wellFormed world₀ _).distinct
  have hformed : store.WellFormed world := PeerStore.prune_wellFormed world _
  have happend : ∀ before later, run (before ++ later) = (run before).run later := fun before later =>
    List.foldl_append
  refine ⟨fun text htext => ?_, ?_, ?_, ?_⟩
  · refine (mem_startPeers.mp htext).imp_right fun hstored => ?_
    obtain ⟨e, he, address, hpublic, rfl⟩ := hstored
    have hall : (run ops).AllEntries fun a => a ∈ PeerStore.fileEntries file₀ ∨ ∃ op ∈ ops, op.entered = some a :=
      PeerStoreState.AllEntries.run ⟨fun a ha => Or.inl (PeerStoreState.mem_of_mem_prune ha), fun a ha => Or.inl ha⟩
        hclean fun op hop a ha => Or.inr ⟨op, hop, ha⟩
    have hfresh : e.stale world.now = false :=
      decide_eq_false (Nat.not_lt.mpr (hformed.fresh e he))
    exact ⟨e, hall.2 e (PeerStoreState.mem_of_mem_prune he), hfresh, address, hpublic, rfl⟩
  · obtain ⟨hnodup, hlength⟩ := startPeers_spec config localIps store
    exact ⟨hnodup, hlength.trans (Nat.add_le_add_left hformed.bounded _)⟩
  · intro before op later e limit hops hentered hwritten hkeep hlater hlimit hspares hcard address hpublic
    refine mem_startPeers.mpr (Or.inr ⟨e, ?_, address, hpublic, rfl⟩)
    have hfirst := @PeerStoreState.remembers_entered _ _ (run before) op e _ (enteredKeys later) limit
      (PeerStoreState.distinct_run hstart before) hentered hwritten hkeep hlater hcard hlimit
    have hlast := hfirst.run hcard (fun o ho => hspares o (List.mem_append_left _ ho)) fun o ho a ha =>
      List.mem_toFinset.mpr (List.mem_map_of_mem (List.mem_filterMap.mpr ⟨o, ho, ha⟩))
    have hload := hlast.step hcard (hspares _ (List.mem_append_right _ List.mem_cons_self)) fun a ha => by cases ha
    have hrun : run ops = ((run before).step op).run later := by
      rw [hops, happend]
      rfl
    rw [← hrun] at hload
    exact hload.store.mem
  · intro before peer address later key hops hheld hunentered e he
    have hrest := PeerStoreState.runFailsCleanly_append (hops ▸ hclean)
    have hgone := (PeerStoreState.allEntries_removed hheld).run hrest.2 hunentered
    have hrun : run ops = ((run before).step (.removeAddress peer address .written)).run later := by
      rw [hops, happend]
      rfl
    rw [← hrun] at hgone
    exact hgone.2 e (PeerStoreState.mem_of_mem_prune he)

end

end

/-! ### A node that is stopped -/

/-- An address is recorded when nothing else is known. -/
def sampleRecorded : PeerStoreOp := .recordAddress emptyPeer firstAddress ⟨none, 1000, ⟨1000, none⟩, .written⟩

noncomputable def sampleHistory : PeerStoreState :=
  @PeerStoreState.run sampleShareLib samplePeersFormat
    (@PeerStoreState.start sampleShareLib samplePeersFormat ⟨1000, none⟩ 100 none) [sampleRecorded]

/-- A quarter of an hour later it is dialled. -/
theorem restart_remembers_sample :
    "/ip4/192.0.2.1/p2p/11".toList ∈ @startPeers sampleShareLib ⟨[], true, 100, []⟩ none
      (some (@PeerStore.load sampleShareLib samplePeersFormat ⟨1900, none⟩ 100 sampleHistory.file)) := by
  have hclean : @PeerStoreState.RunFailsCleanly sampleShareLib samplePeersFormat
      (@PeerStoreState.start sampleShareLib samplePeersFormat ⟨1000, none⟩ 100 none) [sampleRecorded] :=
    ⟨fun left hfailed => (by cases hfailed), trivial⟩
  have h := (@restart_remembers sampleShareLib samplePeersFormat lawful_samplePeersFormat ⟨1000, none⟩ 100 none
    [sampleRecorded] hclean ⟨[], true, 100, []⟩ ⟨1900, none⟩ none).2.2.1
  have hentered : @PeerStoreOp.entered sampleShareLib sampleRecorded = some (firstEntry 1000) := by decide +kernel
  have hkeep : ∀ now, now = 1000 ∨ now = 1900 →
      @PeerStoreEntry.keepable sampleShareLib ⟨now, none⟩ (firstEntry 1000) = true := by
    intro now hnow
    rcases hnow with rfl | rfl
    · decide +kernel
    · decide +kernel
  have hpublic : @PeerStoreEntry.publicFullMultiaddr sampleShareLib none (firstEntry 1000) =
      some (firstAddress ++ [.p2p emptyPeer]) := by
    decide +kernel
  refine h [] sampleRecorded [] (firstEntry 1000) 100 rfl hentered rfl (fun w hw => ?_) (fun a ha => (by cases ha))
    (le_refl _) (fun o ho => ?_) (by decide) (firstAddress ++ [.p2p emptyPeer]) hpublic
  · obtain rfl : (⟨1000, none⟩ : PruneWorld) = w := Option.some.inj hw
    exact hkeep 1000 (Or.inl rfl)
  · obtain rfl := List.mem_singleton.mp ho
    refine @PeerStoreOp.Spares.mk sampleShareLib _ _ _ (fun hremoved => (by cases hremoved)) (fun a ha => (by cases ha))
      (fun w hw => ?_) (fun w n hload => ?_) trivial
    · obtain rfl : (⟨1900, none⟩ : PruneWorld) = w := Option.some.inj hw
      exact hkeep 1900 (Or.inr rfl)
    · cases hload
      exact le_refl _

end GuixP2p
