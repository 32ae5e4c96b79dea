import Mathlib.Data.Countable.Basic
import Mathlib.Data.List.Nodup
import Mathlib.Logic.Equiv.List
import GuixP2p.Lib.Text
import GuixP2p.PeerStore

/-!
# GuixP2p.PeerStore.Persistence

**The peer store and its file.** Pruning brings any list of entries into order: no key twice, most
recent first, not too many, nothing old or unusable. Every operation keeps that
(`PeerStore.WellFormed`), also the removal of an address, which does not prune.

The file is written when an address is entered or removed, and not when it is loaded. The
connection to the entries in memory is `Persists`: *they are the file's entries, pruned as they
were last pruned*. A later load finds the same entries if it takes the same entries of the file
for too old.
-/

namespace GuixP2p

/-- `serde_json` reads back what it wrote. -/
class LawfulPeerStoreFormat [PeerStoreFormat] : Prop where
  fromStr_toStringPretty : ∀ entries,
    PeerStoreFormat.fromStr (PeerStoreFormat.toStringPretty entries) = some entries

section

variable [MultiaddrLib]

/-! ### Lists in order -/

section

variable {α : Type*} {r : α → α → Prop} [DecidableRel r] [IsTrans α r]

omit [MultiaddrLib] in
theorem filter_orderedInsert (p : α → Bool) (a : α) {l : List α} (hsorted : l.Pairwise r) :
    (l.orderedInsert r a).filter p = if p a then (l.filter p).orderedInsert r a else l.filter p := by
  induction l with
  | nil => simp [List.filter_cons]
  | cons b l ih =>
      rw [List.pairwise_cons] at hsorted
      rw [List.orderedInsert_cons]
      split
      next hab =>
        -- `a` comes before all of the rest, whichever of them are left
        rw [List.filter_cons]
        split
        next hpa =>
          have hfirst : ∀ c ∈ (b :: l).filter p, r a c := by
            intro c hc
            rcases List.mem_cons.mp (List.mem_of_mem_filter hc) with rfl | hc
            · exact hab
            · exact IsTrans.trans _ _ _ hab (hsorted.1 c hc)
          cases hl : (b :: l).filter p with
          | nil => rfl
          | cons c l' => rw [List.orderedInsert_cons, if_pos (hfirst c (by simp [hl]))]
        next => rfl
      next hab =>
        rw [List.filter_cons, ih hsorted.2, List.filter_cons]
        by_cases hpb : p b = true
        · by_cases hpa : p a = true
          · simp [hpa, hpb, hab]
          · simp [hpa, hpb]
        · simp [hpb]

omit [MultiaddrLib] in
/-- Sorting is stable: it commutes with leaving elements out. -/
theorem insertionSort_filter [Std.Total r] (p : α → Bool) (l : List α) :
    (l.filter p).insertionSort r = (l.insertionSort r).filter p := by
  induction l with
  | nil => rfl
  | cons a l ih =>
      rw [List.insertionSort_cons, filter_orderedInsert p a (List.pairwise_insertionSort r l), List.filter_cons, ← ih]
      split
      next => rw [List.insertionSort_cons]
      next => rfl

omit [MultiaddrLib] [DecidableRel r] [IsTrans α r] in
theorem take_filter_of_forall_take {p : α → Bool} {n : Nat} {l : List α} (h : ∀ a ∈ l.take n, p a = true) :
    (l.filter p).take n = l.take n := by
  induction n generalizing l with
  | zero => rfl
  | succ n ih =>
      cases l with
      | nil => rfl
      | cons a l =>
          rw [List.take_succ_cons, List.forall_mem_cons] at h
          rw [List.filter_cons_of_pos h.1, List.take_succ_cons, List.take_succ_cons, ih h.2]

end

/-! ### Retaining -/

theorem mem_retainEntries {world : PruneWorld} {seen : List (Text × Text)} {entries : List PeerStoreEntry}
    {e : PeerStoreEntry} (h : e ∈ retainEntries world seen entries) :
    e.keepable world = true ∧ e.key ∉ seen := by
  induction entries generalizing seen with
  | nil => cases h
  | cons entry rest ih =>
      rw [retainEntries] at h
      split at h
      next hkeep =>
        split at h
        next => exact ih h
        next hseen =>
          rcases List.mem_cons.mp h with rfl | h
          · exact ⟨hkeep, hseen⟩
          · have hrest := ih h
            exact ⟨hrest.1, fun hmem => hrest.2 (List.mem_cons_of_mem _ hmem)⟩
      next => exact ih h

theorem retainEntries_sublist (world : PruneWorld) (seen : List (Text × Text)) (entries : List PeerStoreEntry) :
    List.Sublist (retainEntries world seen entries) entries := by
  induction entries generalizing seen with
  | nil => exact List.Sublist.refl _
  | cons entry rest ih =>
      rw [retainEntries]
      split
      · split
        · exact (ih _).cons _
        · exact (ih _).cons_cons _
      · exact (ih _).cons _

theorem nodup_retainEntries (world : PruneWorld) (seen : List (Text × Text)) (entries : List PeerStoreEntry) :
    ((retainEntries world seen entries).map PeerStoreEntry.key).Nodup := by
  induction entries generalizing seen with
  | nil => exact List.nodup_nil
  | cons entry rest ih =>
      rw [retainEntries]
      split
      next =>
        split
        next => exact ih seen
        next =>
          rw [List.map_cons, List.nodup_cons]
          refine ⟨fun hmem => ?_, ih _⟩
          obtain ⟨e, he, hkey⟩ := List.mem_map.mp hmem
          refine (mem_retainEntries he).2 ?_
          rw [hkey]
          exact List.mem_cons_self
      next => exact ih seen

/-- Where no key is there twice, retaining is filtering. -/
theorem retainEntries_eq_filter {world : PruneWorld} {seen : List (Text × Text)} {entries : List PeerStoreEntry}
    (hnodup : (entries.map PeerStoreEntry.key).Nodup) (hseen : ∀ e ∈ entries, e.key ∉ seen) :
    retainEntries world seen entries = entries.filter (PeerStoreEntry.keepable world) := by
  induction entries generalizing seen with
  | nil => rfl
  | cons entry rest ih =>
      rw [List.forall_mem_cons] at hseen
      rw [List.map_cons, List.nodup_cons] at hnodup
      rw [retainEntries]
      split
      next hkeep =>
        rw [if_neg hseen.1, List.filter_cons_of_pos hkeep, ih hnodup.2]
        intro e he hmem
        rcases List.mem_cons.mp hmem with hkey | hmem
        · exact hnodup.1 (hkey ▸ List.mem_map_of_mem he)
        · exact hseen.2 e he hmem
      next hkeep => rw [List.filter_cons_of_neg hkeep, ih hnodup.2 hseen.2]

theorem retainEntries_congr {world world' : PruneWorld} {entries : List PeerStoreEntry}
    (h : ∀ e ∈ entries, e.keepable world = e.keepable world') (seen : List (Text × Text)) :
    retainEntries world seen entries = retainEntries world' seen entries := by
  induction entries generalizing seen with
  | nil => rfl
  | cons entry rest ih =>
      rw [List.forall_mem_cons] at h
      simp only [retainEntries, h.1, ih h.2]

namespace PeerStore

/-! ### Pruning -/

/-- Everything that pruning with this clock and these interfaces brings about. -/
structure WellFormed (world : PruneWorld) (store : PeerStore) : Prop where
  distinct : (store.entries.map PeerStoreEntry.key).Nodup
  bounded : store.entries.length ≤ store.maxEntries
  sorted : store.entries.Pairwise fun a b => b.lastSeen ≤ a.lastSeen
  usable : ∀ e ∈ store.entries, (e.fullMultiaddr world.localIps).isSome
  fresh : ∀ e ∈ store.entries, minSeen world.now ≤ e.lastSeen.toNat

theorem keepable_iff {world : PruneWorld} {e : PeerStoreEntry} :
    e.keepable world = true ↔
      minSeen world.now ≤ e.lastSeen.toNat ∧ (e.fullMultiaddr world.localIps).isSome := by
  unfold PeerStoreEntry.keepable PeerStoreEntry.stale
  cases e.fullMultiaddr world.localIps with
  | none => simp
  | some addr => simp

instance : Std.Total NewerFirst := ⟨fun a b => UInt64.le_total b.lastSeen a.lastSeen⟩

instance : IsTrans PeerStoreEntry NewerFirst := ⟨fun _ _ _ hab hbc => UInt64.le_trans hbc hab⟩

theorem prune_wellFormed (world : PruneWorld) (store : PeerStore) : (prune world store).WellFormed world := by
  have hperm := List.perm_insertionSort NewerFirst (retainEntries world [] store.entries)
  have hmem : ∀ e ∈ (prune world store).entries, e.keepable world = true := fun e he =>
    (mem_retainEntries (hperm.mem_iff.mp (List.mem_of_mem_take he))).1
  refine ⟨?_, ?_, ?_, fun e he => (keepable_iff.mp (hmem e he)).2, fun e he => (keepable_iff.mp (hmem e he)).1⟩
  · refine List.Nodup.sublist ((List.take_sublist _ _).map _) ?_
    exact (hperm.map _).nodup_iff.mpr (nodup_retainEntries world [] store.entries)
  · rw [prune, List.length_take]
    exact Nat.min_le_left _ _
  · exact (List.pairwise_insertionSort NewerFirst _).sublist (List.take_sublist _ _)

/-- **Pruning is idempotent.** -/
theorem prune_eq_self {world : PruneWorld} {store : PeerStore} (h : store.WellFormed world) :
    prune world store = store := by
  have hretain : retainEntries world [] store.entries = store.entries := by
    rw [retainEntries_eq_filter h.distinct (by simp)]
    exact List.filter_eq_self.mpr fun e he => keepable_iff.mpr ⟨h.fresh e he, h.usable e he⟩
  have hsort : store.entries.insertionSort NewerFirst = store.entries := List.Pairwise.insertionSort_eq h.sorted
  unfold prune
  rw [hretain, hsort, List.take_of_length_le h.bounded]

/-- What pruning does depends on the clock only through the entries that are too old. -/
theorem prune_congr {world : PruneWorld} {now : UInt64} {store : PeerStore}
    (h : ∀ e ∈ store.entries, e.stale now = e.stale world.now) :
    prune ⟨now, world.localIps⟩ store = prune world store := by
  unfold prune
  rw [retainEntries_congr (fun e he => by unfold PeerStoreEntry.keepable; rw [h e he])]

/-- Where no key is there twice, time takes away only what has become too old. The entries that
did not fit before cannot move up: they come after all those that did. -/
theorem prune_later {world : PruneWorld} {now : UInt64} {store : PeerStore}
    (hnodup : (store.entries.map PeerStoreEntry.key).Nodup) (hlater : world.now ≤ now)
    (hfresh : ∀ e ∈ (prune world store).entries, e.stale now = false) :
    prune ⟨now, world.localIps⟩ store = prune world store := by
  have hmin : minSeen world.now ≤ minSeen now := Nat.sub_le_sub_right (UInt64.le_iff_toNat_le.mp hlater) _
  have hkeep : store.entries.filter (PeerStoreEntry.keepable ⟨now, world.localIps⟩) =
      (store.entries.filter (PeerStoreEntry.keepable world)).filter fun e => !e.stale now := by
    rw [List.filter_filter]
    refine List.filter_congr fun e _ => ?_
    rw [Bool.eq_iff_iff, Bool.and_eq_true, keepable_iff, keepable_iff]
    simp only [PeerStoreEntry.stale, Bool.not_eq_true', decide_eq_false_iff_not, not_lt]
    constructor
    · exact fun h => ⟨h.1, hmin.trans h.1, h.2⟩
    · exact fun h => ⟨h.1, h.2.2⟩
  have htake : ∀ e ∈ ((store.entries.filter (PeerStoreEntry.keepable world)).insertionSort NewerFirst).take
      store.maxEntries, (!e.stale now) = true := by
    intro e he
    have hmem : e ∈ (prune world store).entries := by
      rw [prune, retainEntries_eq_filter hnodup (by simp)]
      exact he
    rw [hfresh e hmem, Bool.not_false]
  unfold prune
  rw [retainEntries_eq_filter hnodup (by simp), retainEntries_eq_filter hnodup (by simp), hkeep,
    insertionSort_filter, take_filter_of_forall_take htake]

/-- What is taken away from a store in order leaves it in order. -/
theorem WellFormed.sublist {world : PruneWorld} {store : PeerStore} (h : store.WellFormed world)
    {entries : List PeerStoreEntry} (hsub : entries.Sublist store.entries) :
    WellFormed world { store with entries } where
  distinct := h.distinct.sublist (hsub.map _)
  bounded := Nat.le_trans hsub.length_le h.bounded
  sorted := h.sorted.sublist hsub
  usable e he := h.usable e (hsub.subset he)
  fresh e he := h.fresh e (hsub.subset he)

end PeerStore

/-! ### Runs -/

/-- The store, its file, and what the store was last pruned with. -/
structure PeerStoreState where
  store : PeerStore
  file : Option Text
  pruned : PruneWorld

inductive PeerStoreOp
  | load (world : PruneWorld) (maxEntries : Nat)
  | recordAddress (peer : PeerId) (address : Multiaddr) (world : RecordWorld)
  | removeAddress (peer : PeerId) (address : Multiaddr) (outcome : SaveOutcome)

namespace PeerStoreOp

/-- The write of the operation succeeds, if it makes one. -/
def Written : PeerStoreOp → Prop
  | .load _ _ => True
  | .recordAddress _ _ world => world.save = .written
  | .removeAddress _ _ outcome => outcome = .written

/-- What the store was last pruned with, after the operation. An address that is not entered is
no reason to prune. -/
def pruned (last : PruneWorld) : PeerStoreOp → PruneWorld
  | .load world _ => world
  | .recordAddress _ address world =>
    if (cleanPeerAddress world.localIps address).isSome then world.prune else last
  | .removeAddress _ _ _ => last

end PeerStoreOp

namespace PeerStoreState

variable [PeerStoreFormat]

def start (world : PruneWorld) (maxEntries : Nat) (file : Option Text) : PeerStoreState :=
  ⟨PeerStore.load world maxEntries file, file, world⟩

def step (s : PeerStoreState) (op : PeerStoreOp) : PeerStoreState :=
  let next := match op with
    | .load world maxEntries => (PeerStore.load world maxEntries s.file, s.file)
    | .recordAddress peer address world => PeerStore.recordAddress peer address world s.store s.file
    | .removeAddress peer address outcome => PeerStore.removeAddress peer address outcome s.store s.file
  ⟨next.1, next.2, op.pruned s.pruned⟩

def run (s : PeerStoreState) (ops : List PeerStoreOp) : PeerStoreState := ops.foldl step s

/-- The store is in order, and it is what the last pruning makes of its file. -/
structure Persists (s : PeerStoreState) : Prop where
  wellFormed : s.store.WellFormed s.pruned
  file : PeerStore.prune s.pruned ⟨s.store.maxEntries, PeerStore.fileEntries s.file⟩ = s.store

theorem start_persists (world : PruneWorld) (maxEntries : Nat) (file : Option Text) :
    (start world maxEntries file).Persists :=
  ⟨PeerStore.prune_wellFormed _ _, rfl⟩

variable [LawfulPeerStoreFormat]

omit [MultiaddrLib] in
theorem fileEntries_save (store : PeerStore) :
    PeerStore.fileEntries (store.save .written) = store.entries := by
  simp only [PeerStore.fileEntries, PeerStore.save, Option.bind_some,
    LawfulPeerStoreFormat.fromStr_toStringPretty, Option.getD_some]

/-- A store that has just been written. -/
theorem persists_of_saved {store : PeerStore} {world : PruneWorld} (h : store.WellFormed world) :
    Persists ⟨store, store.save .written, world⟩ := by
  refine ⟨h, ?_⟩
  dsimp only
  rw [fileEntries_save]
  exact PeerStore.prune_eq_self h

/-- **Step lemma.** -/
theorem step_persists {s : PeerStoreState} (h : s.Persists) {op : PeerStoreOp} (hwritten : op.Written) :
    (s.step op).Persists := by
  cases op with
  | load world maxEntries => exact start_persists world maxEntries s.file
  | recordAddress peer address world =>
      have hsave : world.save = .written := hwritten
      cases hclean : cleanPeerAddress world.localIps address with
      | none =>
          have hstep : s.step (.recordAddress peer address world) = s := by
            simp [step, PeerStore.recordAddress, PeerStoreOp.pruned, hclean]
          rwa [hstep]
      | some clean =>
          simp only [step, PeerStore.recordAddress, PeerStoreOp.pruned, hclean, hsave, Option.isSome_some, if_true]
          exact persists_of_saved (PeerStore.prune_wellFormed _ _)
  | removeAddress peer address outcome =>
      obtain rfl : outcome = .written := hwritten
      unfold step PeerStore.removeAddress PeerStoreOp.pruned
      dsimp only
      have hsub := @List.filter_sublist _
        (fun entry : PeerStoreEntry => !decide (entry.key =
          (MultiaddrLib.peerIdText peer, MultiaddrLib.multiaddrText (normalizeAddress address)))) s.store.entries
      split
      next => exact persists_of_saved (h.wellFormed.sublist hsub)
      next hsame =>
        -- nothing was removed, and nothing is written
        rw [hsub.eq_of_length (not_not.mp hsame)]
        exact h

/-- **Run lemma.** -/
theorem run_persists {s : PeerStoreState} (h : s.Persists) {ops : List PeerStoreOp}
    (hwritten : ∀ op ∈ ops, op.Written) : (s.run ops).Persists := by
  induction ops generalizing s with
  | nil => exact h
  | cons op ops ih =>
      rw [List.forall_mem_cons] at hwritten
      exact ih (step_persists h hwritten.1) hwritten.2

end PeerStoreState

variable [PeerStoreFormat] [LawfulPeerStoreFormat]

/-- **The peer store keeps its invariant and persists.** For every file content and every sequence
of loads, records and removals whose writes succeed: the entries are distinct, bounded, sorted,
usable and fresh at the last pruning; and a load with the same interfaces finds the same entries in
the same order, if it takes the same entries of the file for too old as the last pruning, or if it
comes later, the file has no key twice and no entry of the store has aged out. -/
theorem peerStore_persists (world : PruneWorld) (maxEntries : Nat) (file : Option Text)
    (ops : List PeerStoreOp) (hwritten : ∀ op ∈ ops, op.Written) :
    let s := (PeerStoreState.start world maxEntries file).run ops
    s.store.WellFormed s.pruned ∧
      (∀ now, (∀ e ∈ PeerStore.fileEntries s.file, e.stale now = e.stale s.pruned.now) →
        PeerStore.load ⟨now, s.pruned.localIps⟩ s.store.maxEntries s.file = s.store) ∧
      ∀ now, s.pruned.now ≤ now → ((PeerStore.fileEntries s.file).map PeerStoreEntry.key).Nodup →
        (∀ e ∈ s.store.entries, e.stale now = false) →
        PeerStore.load ⟨now, s.pruned.localIps⟩ s.store.maxEntries s.file = s.store := by
  intro s
  have h : s.Persists := PeerStoreState.run_persists (PeerStoreState.start_persists world maxEntries file) hwritten
  refine ⟨h.wellFormed, fun now hsame => ?_, fun now hlater hnodup hfresh => ?_⟩
  · rw [PeerStore.load, PeerStore.prune_congr hsame, h.file]
  · rw [← h.file] at hfresh
    rw [PeerStore.load, PeerStore.prune_later hnodup hlater hfresh, h.file]

end

/-! ### A store that is written, and a file that is not written back -/

/-- The identity multihash of no bytes. -/
def emptyPeer : PeerId := ⟨[0, 0]⟩

def firstAddress : Multiaddr := [.ip4 ⟨(192, 0, 2, 1)⟩]

def secondAddress : Multiaddr := [.ip4 ⟨(192, 0, 2, 2)⟩]

/-- The libraries on one peer and two addresses. -/
@[reducible] def sampleMultiaddrLib : MultiaddrLib where
  parseMultiaddr t :=
    if t = "/ip4/192.0.2.1".toList then some firstAddress
    else if t = "/ip4/192.0.2.2".toList then some secondAddress
    else none
  multiaddrText address :=
    if address = firstAddress then "/ip4/192.0.2.1".toList
    else if address = secondAddress then "/ip4/192.0.2.2".toList
    else []
  parsePeerId t := if t = "11".toList then some emptyPeer else none
  peerIdText peer := if peer = emptyPeer then "11".toList else []

def firstEntry (lastSeen : UInt64) : PeerStoreEntry := ⟨"11".toList, "/ip4/192.0.2.1".toList, lastSeen⟩

def secondEntry (lastSeen : UInt64) : PeerStoreEntry := ⟨"11".toList, "/ip4/192.0.2.2".toList, lastSeen⟩

/-- The file with the first address, seen at 1000. -/
def samplePeersFile : Text :=
  "\x7b\n  \"peers\": [\n    \x7b\n      \"peer_id\": \"11\",\n".toList ++
    "      \"address\": \"/ip4/192.0.2.1\",\n      \"last_seen\": 1000\n    \x7d\n  ]\n\x7d".toList

instance : Countable PeerStoreEntry := by
  have hchar : Countable Char := Function.Injective.countable fun _ _ h => Char.toNat_inj.mp h
  have hword : Countable UInt64 := Function.Injective.countable fun _ _ h => UInt64.toNat_inj.mp h
  refine Function.Injective.countable (f := fun e : PeerStoreEntry => (e.peerId, e.address, e.lastSeen)) ?_
  rintro ⟨p, a, l⟩ ⟨p', a', l'⟩ h
  simpa using h

/-- `samplePeersFile` as it is; every other list of entries gets a text of its own. -/
noncomputable def samplePeersPretty (entries : List PeerStoreEntry) : Text :=
  if entries = [firstEntry 1000] then samplePeersFile
  else List.replicate ((exists_injective_nat (List PeerStoreEntry)).choose entries) 'x'

theorem samplePeersPretty_injective : Function.Injective samplePeersPretty :=
  Lib.Text.printer_injective (exists_injective_nat (List PeerStoreEntry)).choose_spec fun n =>
    Lib.Text.replicate_ne_cons (by decide) _ n

@[reducible] noncomputable def samplePeersFormat : PeerStoreFormat where
  toStringPretty := samplePeersPretty
  fromStr := Function.partialInv samplePeersPretty

theorem lawful_samplePeersFormat : @LawfulPeerStoreFormat samplePeersFormat :=
  let _ := samplePeersFormat
  ⟨Function.partialInv_left samplePeersPretty_injective⟩

/-- An address is recorded, and the store is loaded again at the same time. -/
theorem peerStore_persists_sample :
    let world : RecordWorld := ⟨none, 1000, ⟨1000, none⟩, .written⟩
    let s := @PeerStoreState.run sampleMultiaddrLib samplePeersFormat
      (@PeerStoreState.start sampleMultiaddrLib samplePeersFormat ⟨1000, none⟩ 8 none)
      [.recordAddress emptyPeer firstAddress world]
    @PeerStore.load sampleMultiaddrLib samplePeersFormat ⟨1000, none⟩ 8 s.file = s.store := by
  intro world s
  have hpersists := @peerStore_persists sampleMultiaddrLib samplePeersFormat lawful_samplePeersFormat
    ⟨1000, none⟩ 8 none [.recordAddress emptyPeer firstAddress world] (by simp [PeerStoreOp.Written, world])
  exact hpersists.2.1 1000 fun e _ => rfl

/-- The time when entries from before `lastSeen` are too old. -/
def monthAfter (lastSeen : UInt64) : PruneWorld := ⟨lastSeen + 2592000, none⟩

/-- A file that has a key twice. -/
def doubledEntries : List PeerStoreEntry := [firstEntry 100, secondEntry 150, firstEntry 200]

/-- Two loads of one file disagree, and no entry of the store has aged out between them: the clock
goes back, or a file that has a key twice is cut off at its limit. -/
theorem load_is_not_written_back :
    let load := @PeerStore.load sampleMultiaddrLib samplePeersFormat
    let old := some (samplePeersPretty [firstEntry 50])
    let doubled := some (samplePeersPretty doubledEntries)
    (load (monthAfter 60) 8 old).entries = [] ∧ (load (monthAfter 40) 8 old).entries = [firstEntry 50] ∧
      (load (monthAfter 90) 1 doubled).entries = [secondEntry 150] ∧
      (secondEntry 150).stale (monthAfter 120).now = false ∧
      (load (monthAfter 120) 1 doubled).entries = [firstEntry 200] := by
  intro load old doubled
  have hload : ∀ world n entries, load world n (some (samplePeersPretty entries)) =
      @PeerStore.prune sampleMultiaddrLib world ⟨n, entries⟩ := by
    intro world n entries
    have hread : samplePeersFormat.fromStr (samplePeersPretty entries) = some entries :=
      lawful_samplePeersFormat.fromStr_toStringPretty entries
    simp only [load, PeerStore.load, PeerStore.fileEntries, Option.bind_some, hread, Option.getD_some]
  simp only [old, doubled, hload]
  decide +kernel

end GuixP2p
