import Mathlib.Algebra.Group.Nat.Defs
import GuixP2p.Reputation

/-!
# GuixP2p.Reputation.Ban

**Bans last.** The reputation is saved when the daemon ends and loaded when it starts, and the
counters that a ban depends on survive that. Only a pruning drops them, or the failure counter when
it wraps around. `banned_throughout_iff` says that nothing else lifts a ban.
-/

namespace GuixP2p

open GuixP2p.Lib

/-- What the reputation file holds: the counters of each peer. -/
abbrev ReputationData := List (PeerId × UInt32 × UInt32 × UInt64)

/-- `serde_json` on the file. -/
class ReputationFormat where
  toStringPretty : ReputationData → Text
  fromStr : Text → Option ReputationData

/-- `serde_json` reads back what it wrote. -/
class LawfulReputationFormat [ReputationFormat] : Prop where
  fromStr_toStringPretty : ∀ data, ReputationFormat.fromStr (ReputationFormat.toStringPretty data) = some data

/-- What changes the reputation, other than pruning. -/
inductive ReputationEvent
  | success (now : Instant) (peer : PeerId) (bytes : UInt64)
  | failure (now : Instant) (peer : PeerId)
  /-- The daemon ends, and starts again. -/
  | restart (now : Instant)
  deriving DecidableEq

/-- Is this a failure of the peer? -/
def ReputationEvent.charges (peer : PeerId) : ReputationEvent → Bool
  | .failure _ p => decide (p = peer)
  | _ => false

namespace ReputationTracker

section

variable [ReputationFormat]

/-- Persist reputation counters to JSON: what is written to the file. -/
def save (t : ReputationTracker) : Text :=
  ReputationFormat.toStringPretty
    (t.peers.entries.map fun e => (e.1, e.2.completed, e.2.failed, e.2.bytesServed))

/-- Load reputation counters from JSON, or return an empty tracker if missing. A file that cannot be
parsed is an error. -/
def load (now : Instant) (file : Option Text) (banThreshold : UInt32) : Option ReputationTracker :=
  match file with
  | none => some (new banThreshold)
  | some json =>
    (ReputationFormat.fromStr json).map fun data =>
      { peers := Table.ofPairs (data.map fun e =>
          (e.1, { completed := e.2.1, failed := e.2.2.1, bytesServed := e.2.2.2, lastSeen := now }))
        banThreshold }

/-- `main` saves at the end and starts over if it cannot load. -/
def restart (t : ReputationTracker) (now : Instant) : ReputationTracker :=
  (load now (some t.save) t.banThreshold).getD (new t.banThreshold)

def event (t : ReputationTracker) : ReputationEvent → ReputationTracker
  | .success now peer bytes => t.recordSuccess now peer bytes
  | .failure now peer => t.recordFailure now peer
  | .restart now => t.restart now

/-- The reputation after some events. -/
def after (t : ReputationTracker) (events : List ReputationEvent) : ReputationTracker := events.foldl event t

end

/-! ### What survives a restart -/

section

variable [ReputationFormat] [LawfulReputationFormat] {t : ReputationTracker} {now : Instant} {p : PeerId}

theorem restart_eq (t : ReputationTracker) (now : Instant) :
    t.restart now =
      { peers := Table.ofPairs (t.peers.entries.map fun e => (e.1, { e.2 with lastSeen := now }))
        banThreshold := t.banThreshold } := by
  simp only [restart, load, save, LawfulReputationFormat.fromStr_toStringPretty, Option.map_some, Option.getD_some,
    List.map_map]
  rfl

@[simp] theorem banThreshold_restart : (t.restart now).banThreshold = t.banThreshold := by rw [restart_eq]

/-- A restart keeps the counters. -/
theorem lookup_restart :
    (t.restart now).peers.lookup p = (t.peers.lookup p).map fun s => { s with lastSeen := now } := by
  rw [restart_eq]
  cases hlook : t.peers.lookup p with
  | none =>
      rw [AList.lookup_eq_none] at hlook
      rw [Option.map_none, AList.lookup_eq_none, Table.mem_ofPairs, List.map_map]
      exact hlook
  | some s =>
      refine Table.lookup_ofPairs_of_mem ?_ ?_
      · rw [List.map_map]
        exact t.peers.keys_nodup
      · exact List.mem_map.mpr ⟨⟨p, s⟩, AList.mem_lookup_iff.mp hlook, rfl⟩

@[simp] theorem failed_restart : (t.restart now).failed p = t.failed p := by
  unfold failed
  rw [lookup_restart]
  cases t.peers.lookup p <;> rfl

theorem mem_restart : p ∈ (t.restart now).peers ↔ p ∈ t.peers := by
  rw [← AList.lookup_isSome, ← AList.lookup_isSome, lookup_restart, Option.isSome_map]

/-! ### Bans -/

omit [ReputationFormat] [LawfulReputationFormat] in
/-- A known peer is banned once it has failed as often as the threshold says. -/
theorem isBanned_iff : t.isBanned p = true ↔ p ∈ t.peers ∧ t.banThreshold ≤ t.failed p := by
  rw [← AList.lookup_isSome]
  unfold isBanned failed
  cases t.peers.lookup p with
  | none => simp
  | some s => simp

theorem banThreshold_event (t : ReputationTracker) (e : ReputationEvent) :
    (t.event e).banThreshold = t.banThreshold := by
  cases e with
  | success now peer bytes => rfl
  | failure now peer => rfl
  | restart now => exact banThreshold_restart

omit [ReputationFormat] [LawfulReputationFormat] in
theorem mem_upsert {peers : Table PeerId PeerScore} (h : p ∈ peers) (peer : PeerId) (d : PeerScore)
    (f : PeerScore → PeerScore) : p ∈ peers.upsert peer d f := by
  unfold Table.upsert
  split
  · exact Table.mem_modify.mpr h
  · exact (AList.mem_insert _).mpr (Or.inr h)

/-- No event forgets a peer. -/
theorem mem_event (h : p ∈ t.peers) (e : ReputationEvent) : p ∈ (t.event e).peers := by
  cases e with
  | success now peer bytes => exact mem_upsert h peer _ _
  | failure now peer => exact mem_upsert h peer _ _
  | restart now => exact mem_restart.mpr h

/-- **Only a failure moves the failure counter**, by one. -/
theorem failed_event (t : ReputationTracker) (e : ReputationEvent) (p : PeerId) :
    (t.event e).failed p = if e.charges p then t.failed p + 1 else t.failed p := by
  cases e with
  | success now peer bytes => exact failed_recordSuccess t now peer p bytes
  | failure now peer => simp [event, ReputationEvent.charges, failed_recordFailure, eq_comm]
  | restart now => exact failed_restart

/-- What one event does to a ban. -/
theorem isBanned_event_iff (h : t.isBanned p = true) (e : ReputationEvent) :
    (t.event e).isBanned p = true ↔
      t.banThreshold = 0 ∨ (t.failed p).toNat + (if e.charges p then 1 else 0) < 2 ^ 32 := by
  rw [isBanned_iff] at h ⊢
  rw [banThreshold_event, failed_event, and_iff_right (mem_event h.1 e)]
  have hword := (t.failed p).toNat_lt
  have hle := UInt32.le_iff_toNat_le.mp h.2
  cases e.charges p with
  | false => exact iff_of_true h.2 (Or.inr (by simpa using hword))
  | true =>
      simp only [if_true, UInt32.le_iff_toNat_le, UInt32.toNat_add, UInt32.toNat_one, ← UInt32.toNat_inj,
        UInt32.toNat_zero]
      -- the counter is at its end, or the sum is exact
      by_cases hend : (t.failed p).toNat + 1 = 2 ^ 32
      · rw [hend, Nat.mod_self]
        omega
      · rw [Nat.mod_eq_of_lt (by omega)]
        omega

/-- **When bans last**: throughout a history of successes, failures and restarts, exactly if the
failure counter of the peer does not wrap around, or everyone known is banned anyway. -/
theorem banned_throughout_iff (h : t.isBanned p = true) (events : List ReputationEvent) :
    (∀ es, es <+: events → (t.after es).isBanned p = true) ↔
      t.banThreshold = 0 ∨ (t.failed p).toNat + events.countP (·.charges p) < 2 ^ 32 := by
  induction events generalizing t with
  | nil =>
      refine iff_of_true (fun es hes => ?_) (Or.inr (by simpa using (t.failed p).toNat_lt))
      obtain rfl := List.prefix_nil.mp hes
      exact h
  | cons e events ih =>
      have hsplit : (∀ es, es <+: e :: events → (t.after es).isBanned p = true) ↔
          ∀ es, es <+: events → ((t.event e).after es).isBanned p = true := by
        constructor
        · intro hall es hes
          exact hall (e :: es) ((List.prefix_cons_inj e).mpr hes)
        · intro hall es hes
          cases es with
          | nil => exact h
          | cons e' es =>
              obtain ⟨rfl, hes'⟩ := List.cons_prefix_cons.mp hes
              exact hall es hes'
      rw [hsplit]
      by_cases hban : (t.event e).isBanned p = true
      · have hone := (isBanned_event_iff h e).mp hban
        rw [ih hban, banThreshold_event, failed_event, List.countP_cons]
        refine or_congr_right' fun hpos => ?_
        have hfits := hone.resolve_left hpos
        cases hc : e.charges p with
        | false => simp
        | true =>
            rw [hc, if_pos rfl] at hfits
            simp only [if_true, UInt32.toNat_add, UInt32.toNat_one]
            rw [Nat.mod_eq_of_lt hfits]
            omega
      · have hone := mt (isBanned_event_iff h e).mpr hban
        refine iff_of_false (fun hall => hban (hall [] List.nil_prefix)) fun hfits => hone ?_
        refine hfits.imp_right fun hlt => lt_of_le_of_lt ?_ hlt
        rw [List.countP_cons]
        omega

end

end ReputationTracker

end GuixP2p
