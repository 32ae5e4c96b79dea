import Mathlib.Data.Countable.Basic
import Mathlib.Logic.Equiv.List
import GuixP2p.Connection.Dial
import GuixP2p.Lib.Ranking
import GuixP2p.Lib.Text
import GuixP2p.Reputation.Ban

/-!
# GuixP2p.Daemon.Selection

**Which providers are tried**: `best_peers` of `src/reputation.rs` and `select_provider_candidates`
of `src/daemon.rs`.

Providers are ranked by reputation without the banned ones, and then taken in that order as long as
they may be dialled and there is room. The ranking is not cut before the dialability test, so that
no good provider is lost to one that cannot be dialled.

The score is a floating-point number; `PeerScoring` packages it, and nothing is assumed of it but
that scores can be compared by a total preorder.
-/

namespace GuixP2p

open GuixP2p.Lib

/-- How a record with a peer is scored, and a peer without one. -/
class PeerScoring (S : Type) where
  score : PeerScore → Instant → S
  neutral : S

section

variable (S : Type) [PeerScoring S]

/-- Return the peer's current reliability score, or neutral for unknown peers. -/
def ReputationTracker.score (t : ReputationTracker) (now : Instant) (peer : PeerId) : S :=
  ((t.peers.lookup peer).map fun s => PeerScoring.score s now).getD PeerScoring.neutral

variable [Preorder S] [DecidableLE S]

/-- Return the best non-banned peers, preserving only the top `max` by score. `sort_by` and insertion
sort are both stable. -/
def ReputationTracker.bestPeers (t : ReputationTracker) (clock : PeerId → Instant) (peers : List PeerId)
    (max : Nat) : List PeerId :=
  let scored := (peers.filter fun p => !t.isBanned p).map fun p => (p, t.score S (clock p) p)
  ((scored.insertionSort fun a b => b.2 ≤ a.2).take max).map (·.1)

end

/-- Provider candidates that survived reputation and connection-backoff filters. -/
structure ProviderCandidateSelection where
  peers : List PeerId
  skippedByBackoff : Nat
  deriving DecidableEq

/-- What a selection reads: the reputation, the connections, and the clock when a peer is scored and
when it is looked up. -/
structure SelectionWorld where
  tracker : ReputationTracker
  limits : DialLimits
  manager : ConnectionManager
  scoredAt : PeerId → Instant
  askedAt : PeerId → Instant

namespace SelectionWorld

def canConnect (w : SelectionWorld) (peer : PeerId) : Except Overflow Bool :=
  w.manager.canConnect w.limits (w.askedAt peer) peer

/-- The loop over the ranked providers. -/
def takeCandidates (w : SelectionWorld) (maxPeers : Nat) :
    List PeerId → ProviderCandidateSelection → Except Overflow ProviderCandidateSelection
  | [], selected => .ok selected
  | peer :: ranked, selected =>
    if maxPeers ≤ selected.peers.length then .ok selected
    else
      match w.canConnect peer with
      | .error e => .error e
      | .ok true => takeCandidates w maxPeers ranked { selected with peers := selected.peers ++ [peer] }
      | .ok false =>
        takeCandidates w maxPeers ranked { selected with skippedByBackoff := selected.skippedByBackoff + 1 }

/-- The peer may be dialled. -/
def dialable (w : SelectionWorld) (peer : PeerId) : Bool :=
  match w.canConnect peer with
  | .ok answer => answer
  | .error _ => false

/-- The peer may be selected. -/
def eligible (w : SelectionWorld) (peer : PeerId) : Bool := !w.tracker.isBanned peer && w.dialable peer

variable (S : Type) [PeerScoring S]

/-- The score of a peer when it is ranked. -/
def score (w : SelectionWorld) (peer : PeerId) : S := w.tracker.score S (w.scoredAt peer) peer

variable [Preorder S] [DecidableLE S]

def selectProviderCandidatesWithReport (w : SelectionWorld) (providers : List PeerId) (maxPeers : Nat) :
    Except Overflow ProviderCandidateSelection :=
  w.takeCandidates maxPeers (w.tracker.bestPeers S w.scoredAt providers providers.length) ⟨[], 0⟩

def selectProviderCandidates (w : SelectionWorld) (providers : List PeerId) (maxPeers : Nat) :
    Except Overflow (List PeerId) :=
  (w.selectProviderCandidatesWithReport S providers maxPeers).map (·.peers)

end SelectionWorld

/-! ### Ranking -/

section

variable {S : Type} [PeerScoring S] [Preorder S] [DecidableLE S]

/-- The scores are computed before the list is sorted, which makes no difference. -/
theorem ReputationTracker.bestPeers_eq (t : ReputationTracker) (clock : PeerId → Instant) (peers : List PeerId)
    (max : Nat) :
    t.bestPeers S clock peers max =
      (Ranking.ranked (fun p => t.score S (clock p) p) (peers.filter fun p => !t.isBanned p)).take max := by
  unfold bestPeers Ranking.ranked
  dsimp only
  rw [← List.map_insertionSort _ (fun a b : PeerId × S => b.2 ≤ a.2) (fun p => (p, t.score S (clock p) p)) _
    fun _ _ _ _ => Iff.rfl, ← List.map_take, List.map_map]
  exact List.map_id _

namespace SelectionWorld

variable {w : SelectionWorld} {maxPeers : Nat}

/-! ### The loop -/

/-- The loop takes the dialable peers in order until it has enough. -/
theorem takeCandidates_peers {ranked : List PeerId} {selected selection : ProviderCandidateSelection}
    (hroom : selected.peers.length ≤ maxPeers) (h : w.takeCandidates maxPeers ranked selected = .ok selection) :
    selection.peers = (selected.peers ++ ranked.filter w.dialable).take maxPeers := by
  induction ranked generalizing selected with
  | nil =>
      obtain rfl := Except.ok.inj h
      rw [List.filter_nil, List.append_nil, List.take_of_length_le hroom]
  | cons peer ranked ih =>
      rw [takeCandidates] at h
      split at h
      next hfull =>
        obtain rfl := Except.ok.inj h
        rw [List.take_append_of_le_length hfull, List.take_of_length_le hroom]
      next hfree =>
        cases hanswer : w.canConnect peer with
        | error e => rw [hanswer] at h; cases h
        | ok answer =>
            rw [hanswer] at h
            have hdialable : w.dialable peer = answer := by rw [dialable, hanswer]
            cases answer with
            | true =>
                rw [ih (by simp; omega) h, List.filter_cons_of_pos hdialable, List.append_assoc]
                rfl
            | false =>
                rw [@ih { selected with skippedByBackoff := selected.skippedByBackoff + 1 } hroom h,
                  List.filter_cons_of_neg (by simp [hdialable])]

theorem takeCandidates_ok {ranked : List PeerId} (hfits : ∀ p ∈ ranked, ∃ answer, w.canConnect p = .ok answer)
    (selected : ProviderCandidateSelection) : ∃ selection, w.takeCandidates maxPeers ranked selected = .ok selection := by
  induction ranked generalizing selected with
  | nil => exact ⟨selected, rfl⟩
  | cons peer ranked ih =>
      rw [List.forall_mem_cons] at hfits
      rw [takeCandidates]
      split
      · exact ⟨selected, rfl⟩
      · obtain ⟨answer, hanswer⟩ := hfits.1
        rw [hanswer]
        cases answer with
        | true => exact ih hfits.2 _
        | false => exact ih hfits.2 _

/-! ### The selection -/

/-- What a selection selects, if it returns. -/
theorem selected_peers_eq {providers : List PeerId} {selection : ProviderCandidateSelection}
    (h : w.selectProviderCandidatesWithReport S providers maxPeers = .ok selection) :
    selection.peers =
      ((Ranking.ranked (w.score S) (providers.filter fun p => !w.tracker.isBanned p)).filter w.dialable).take maxPeers := by
  have hall : (Ranking.ranked (w.score S) (providers.filter fun p => !w.tracker.isBanned p)).length ≤ providers.length := by
    rw [(Ranking.perm_ranked _ _).length_eq]
    exact List.length_filter_le _ _
  rw [selectProviderCandidatesWithReport, ReputationTracker.bestPeers_eq] at h
  rw [takeCandidates_peers (Nat.zero_le _) h, List.nil_append]
  -- the cut after the ranking takes nothing away
  exact congrArg (fun l => (List.filter w.dialable l).take maxPeers) (List.take_of_length_le hall)

/-- **Every selection that returns is the best one.** -/
theorem chosen_of_selected [Std.Total fun a b : S => a ≤ b] {providers : List PeerId}
    {selection : ProviderCandidateSelection} (hnodup : providers.Nodup)
    (h : w.selectProviderCandidatesWithReport S providers maxPeers = .ok selection) :
    Ranking.Chosen (w.score S) w.eligible maxPeers providers selection.peers := by
  rw [selected_peers_eq h]
  exact (Ranking.chosen_take (hnodup.filter _)).of_filter

theorem not_banned_of_mem_bestPeers {clock : PeerId → Instant} {peers : List PeerId} {max : Nat} {p : PeerId}
    (h : p ∈ w.tracker.bestPeers S clock peers max) : w.tracker.isBanned p = false := by
  rw [ReputationTracker.bestPeers_eq] at h
  have hmem := Ranking.mem_ranked.mp (List.mem_of_mem_take h)
  simpa using (List.mem_filter.mp hmem).2

/-- A selection from one peer that is not banned. -/
theorem select_singleton {p : PeerId} (h : w.tracker.isBanned p = false) :
    w.selectProviderCandidatesWithReport S [p] maxPeers = w.takeCandidates maxPeers [p] ⟨[], 0⟩ := by
  rw [selectProviderCandidatesWithReport, ReputationTracker.bestPeers_eq, List.filter_cons_of_pos (by simp [h])]
  rfl

/-- A selection returns for every list exactly if no peer that it may come to has a backoff that
overflows. -/
theorem selection_returns_iff :
    (∀ providers : List PeerId, providers.Nodup →
      ∃ selection, w.selectProviderCandidatesWithReport S providers maxPeers = .ok selection) ↔
      maxPeers = 0 ∨ ∀ p, w.tracker.isBanned p = false → w.manager.BackoffFits w.limits p := by
  constructor
  · intro hall
    refine or_iff_not_imp_left.mpr fun hpos p hp => ?_
    obtain ⟨selection, hselect⟩ := hall [p] (List.nodup_singleton p)
    rw [← @ConnectionManager.canConnect_ok_iff w.limits w.manager (w.askedAt p) p]
    rw [select_singleton hp, takeCandidates, if_neg (by simpa using hpos)] at hselect
    cases hanswer : w.canConnect p with
    | error e => rw [hanswer] at hselect; cases hselect
    | ok answer => exact ⟨answer, hanswer⟩
  · rintro (rfl | hfits) providers -
    · unfold selectProviderCandidatesWithReport
      cases w.tracker.bestPeers S w.scoredAt providers providers.length with
      | nil => exact ⟨_, rfl⟩
      | cons p ranked => exact ⟨_, if_pos (Nat.zero_le _)⟩
    · exact takeCandidates_ok (fun p hp =>
        ConnectionManager.canConnect_ok_iff.mpr (hfits p (not_banned_of_mem_bestPeers hp))) _

/-! ### Bans -/

variable (S) in
/-- Some selection takes the peer. -/
def Selectable (t : ReputationTracker) (p : PeerId) : Prop :=
  ∃ (w : SelectionWorld) (providers : List PeerId) (maxPeers : Nat) (selection : ProviderCandidateSelection),
    w.tracker = t ∧ w.selectProviderCandidatesWithReport S providers maxPeers = .ok selection ∧ p ∈ selection.peers

/-- Who is not banned is selected when nobody else is there and no connection has been tried. -/
theorem selectable_iff {t : ReputationTracker} {p : PeerId} : Selectable S t p ↔ t.isBanned p = false := by
  constructor
  · intro h'
    obtain ⟨w, providers, maxPeers, selection, rfl, hselect, hmem⟩ := h'
    rw [selected_peers_eq hselect] at hmem
    have hranked := Ranking.mem_ranked.mp (List.mem_of_mem_filter (List.mem_of_mem_take hmem))
    simpa using (List.mem_filter.mp hranked).2
  · intro h
    refine ⟨⟨t, ⟨0, 0, 1⟩, .new ⟨0⟩, fun _ => 0, fun _ => 0⟩, [p], 1, ⟨[p], 0⟩, rfl, ?_, List.mem_singleton_self p⟩
    rw [select_singleton h]
    rfl

/-- **When provider selection is complete, best-first and final.** For every list of distinct
providers there is a selection, and it is the choice of up to `max_peers` of the eligible ones by
score; and a banned peer is never selectable again, throughout a history of successes, failures and
restarts. This holds exactly if no backoff overflows, and no failure counter. -/
theorem selection_iff [Std.Total fun a b : S => a ≤ b] [ReputationFormat] [LawfulReputationFormat]
    (w : SelectionWorld) (maxPeers : Nat) (events : List ReputationEvent) :
    ((∀ providers : List PeerId, providers.Nodup →
        ∃ selection, w.selectProviderCandidatesWithReport S providers maxPeers = .ok selection ∧
          Ranking.Chosen (w.score S) w.eligible maxPeers providers selection.peers) ∧
      ∀ p, w.tracker.isBanned p = true → ∀ es, es <+: events → ¬ Selectable S (w.tracker.after es) p) ↔
    ((maxPeers = 0 ∨ ∀ p, w.tracker.isBanned p = false → w.manager.BackoffFits w.limits p) ∧
      ∀ p, w.tracker.isBanned p = true →
        w.tracker.banThreshold = 0 ∨ (w.tracker.failed p).toNat + events.countP (·.charges p) < 2 ^ 32) := by
  refine and_congr ?_ (forall₂_congr fun p hp => ?_)
  · rw [← @selection_returns_iff S _ _ _ w maxPeers]
    refine forall₂_congr fun providers hnodup => exists_congr fun selection => ?_
    exact and_iff_left_of_imp fun hselect => chosen_of_selected hnodup hselect
  · rw [← ReputationTracker.banned_throughout_iff hp events]
    refine forall₂_congr fun es _ => ?_
    rw [selectable_iff, Bool.not_eq_false]

end SelectionWorld

end

/-! ### A ban that lasts, and one that does not -/

namespace SelectionWorld

/-- Scored by the bytes served. -/
@[reducible] def sampleScoring : PeerScoring Nat where
  score s _ := s.bytesServed.toNat
  neutral := 0

/-- A peer that has failed some times before, and the reputation file for one failure. -/
def bannedPeer : PeerId := ⟨[0, 0]⟩

def bannedTracker (failed : UInt32) : ReputationTracker :=
  { peers := Table.ofPairs [(bannedPeer, { completed := 0, failed, bytesServed := 0, lastSeen := 0 })]
    banThreshold := 1 }

def sampleReputationFile : Text :=
  "[\n  [\n    \"11\",\n    [\n      0,\n      1,\n      0\n    ]\n  ]\n]".toList

instance : Countable PeerId := by
  have hbyte : Countable UInt8 := Function.Injective.countable fun _ _ h => UInt8.toNat_inj.mp h
  refine Function.Injective.countable (f := PeerId.multihash) ?_
  rintro ⟨hash⟩ ⟨hash'⟩ h
  exact congrArg PeerId.mk h

instance : Countable ReputationData := by
  have hword : Countable UInt32 := Function.Injective.countable fun _ _ h => UInt32.toNat_inj.mp h
  have hlong : Countable UInt64 := Function.Injective.countable fun _ _ h => UInt64.toNat_inj.mp h
  unfold ReputationData
  infer_instance

/-- `sampleReputationFile` as it is; all other counters get a text of their own. -/
noncomputable def sampleReputationPretty (data : ReputationData) : Text :=
  if data = [(bannedPeer, 0, 1, 0)] then sampleReputationFile
  else List.replicate ((exists_injective_nat ReputationData).choose data) 'x'

theorem sampleReputationPretty_injective : Function.Injective sampleReputationPretty :=
  Text.printer_injective (exists_injective_nat ReputationData).choose_spec fun n =>
    Text.replicate_ne_cons (by decide) _ n

@[reducible] noncomputable def sampleReputationFormat : ReputationFormat where
  toStringPretty := sampleReputationPretty
  fromStr := Function.partialInv sampleReputationPretty

theorem lawful_sampleReputationFormat : @LawfulReputationFormat sampleReputationFormat :=
  let _ := sampleReputationFormat
  ⟨Function.partialInv_left sampleReputationPretty_injective⟩

/-- Nobody has been dialled yet. -/
def sampleWorld (failed : UInt32) : SelectionWorld :=
  ⟨bannedTracker failed, ConnectionManager.defaultLimits, .new ⟨60000⟩, fun _ => 0, fun _ => 0⟩

/-- The ban survives a restart and a success. -/
theorem selection_sample :
    ¬ @Selectable Nat sampleScoring _ _
      (@ReputationTracker.after sampleReputationFormat (bannedTracker 1)
        [.restart 5, .success 6 bannedPeer 100]) bannedPeer := by
  refine ((@selection_iff Nat sampleScoring _ _ inferInstance sampleReputationFormat lawful_sampleReputationFormat
    (sampleWorld 1) 8 [.restart 5, .success 6 bannedPeer 100]).mpr
      ⟨Or.inr fun p _ => Or.inr fun st hlook => ?_, fun p _ => Or.inr ?_⟩).2 bannedPeer rfl _ List.prefix_rfl
  · exact absurd hlook (by simp [sampleWorld, ConnectionManager.new])
  · exact (UInt32.toNat_lt _)

/-- The failure counter wraps around, and lifts the ban. -/
theorem wrapped_ban_is_lifted :
    (bannedTracker 4294967295).isBanned bannedPeer = true ∧
      @Selectable Nat sampleScoring _ _
        (@ReputationTracker.after sampleReputationFormat (bannedTracker 4294967295) [.failure 5 bannedPeer])
        bannedPeer :=
  ⟨rfl, (@selectable_iff Nat sampleScoring _ _ _ _).mpr rfl⟩

end SelectionWorld

end GuixP2p
