import GuixP2p.Daemon.Liveness
import GuixP2p.Dht.Discovery
import Mathlib.Data.List.TakeWhile

/-!
# GuixP2p.Daemon.ProviderWait

`wait_for_providers` of `src/daemon.rs`: a download takes the providers that the cache has, if they are
enough, and otherwise listens for what the DHT finds.

The wait has two ends: the deadline, and three seconds after the first provider was heard of. It keeps
the end in a variable that starts as the deadline, and takes that value to mean that nobody was heard
of. `run_eq` says what this comes to: a window that depends on the first provider alone, in which no
notification is passed over.
-/

namespace GuixP2p

open GuixP2p.Lib ProviderProbe

/-- What receiving a notification ends with. -/
inductive Received
  | note (n : SwarmNotification)
  /-- The channel has dropped some notifications. -/
  | lagged
  | closed
  | elapsed

/-- One turn of the wait: the clock when its end is checked, what was received, and the clock after it. -/
structure WaitTurn where
  checkAt : Instant
  received : Received
  addedAt : Instant

/-- How long the wait goes on after the first provider. -/
def collectGrace : Instant := 3000

structure ProviderWait where
  collectUntil : Instant
  /-- These are also the peers that it has seen. -/
  providers : List PeerId

namespace ProviderWait

/-- Take up the peers of a notification. -/
def found (deadline addedAt : Instant) (w : ProviderWait) (peers : List PeerId) : ProviderWait :=
  let providers := peers.foldl DhtTask.addProvider w.providers
  let added := providers.length - w.providers.length
  { providers
    collectUntil :=
      if 0 < added ∧ w.collectUntil = deadline then min (addedAt + collectGrace) deadline
      else w.collectUntil }

/-- The loop; `none` if it has not come to an end. -/
def run (dhtKey : Text) (deadline : Instant) : List WaitTurn → ProviderWait → Option (List PeerId)
  | [], _ => none
  | t :: ts, w =>
    if w.collectUntil ≤ t.checkAt then some w.providers
    else
      match t.received with
      | .note (.providersFound hash peers) =>
        if hash = dhtKey then run dhtKey deadline ts (w.found deadline t.addedAt peers)
        else run dhtKey deadline ts w
      | .note _ => run dhtKey deadline ts w
      | .lagged => run dhtKey deadline ts w
      | .closed => some []
      | .elapsed => run dhtKey deadline ts w

end ProviderWait

def waitForProvidersForDuration (dhtKey : Text) (deadline : Instant) (turns : List WaitTurn) : Option (List PeerId) :=
  ProviderWait.run dhtKey deadline turns { collectUntil := deadline, providers := [] }

/-- Wait for provider notifications for the given DHT key, unless enough providers are cached. -/
def waitForProviders (cfg : Config) (cache : Table Text (List PeerId)) (dhtKey : Text) (deadline : Instant)
    (turns : List WaitTurn) : Option (List PeerId) :=
  let cached := cachedProviders cache dhtKey
  if cfg.minProviders ≤ cached.length then some cached
  else waitForProvidersForDuration dhtKey deadline turns

/-! ### What the wait is for -/

namespace WaitTurn

/-- The turn hears of a provider. -/
def Hits (dhtKey : Text) (t : WaitTurn) : Bool :=
  match t.received with
  | .note (.providersFound hash peers) => decide (hash = dhtKey) && !peers.isEmpty
  | _ => false

def note? (t : WaitTurn) : Option SwarmNotification :=
  match t.received with
  | .note n => some n
  | _ => none

def isClosed (t : WaitTurn) : Bool :=
  match t.received with
  | .closed => true
  | _ => false

end WaitTurn

/-- When the wait is over: a while after the first provider, and no later than the deadline. -/
def windowEnd (dhtKey : Text) (deadline : Instant) (turns : List WaitTurn) : Instant :=
  ((turns.find? (·.Hits dhtKey)).map fun t => min (t.addedAt + collectGrace) deadline).getD deadline

/-- The turns in which the wait listens. -/
def window (dhtKey : Text) (deadline : Instant) (turns : List WaitTurn) : List WaitTurn :=
  turns.takeWhile fun t => decide (t.checkAt < windowEnd dhtKey deadline turns)

/-- The clock does not go back. -/
def ClockRuns : List WaitTurn → Prop
  | [] => True
  | t :: ts => t.checkAt ≤ t.addedAt ∧ (∀ t' ∈ ts, t.addedAt ≤ t'.checkAt) ∧ ClockRuns ts

/-- Take up what a notification says about a key. -/
def hear (dhtKey : Text) (providers : List PeerId) : SwarmNotification → List PeerId
  | .providersFound hash peers => if hash = dhtKey then peers.foldl DhtTask.addProvider providers else providers
  | _ => providers

/-- What the wait returns after it has listened up to an instant. -/
def heardUntil (dhtKey : Text) (stop : Instant) (turns : List WaitTurn) (providers : List PeerId) : Option (List PeerId) :=
  let heard := turns.takeWhile fun t => decide (t.checkAt < stop)
  if heard.any (·.isClosed) then some []
  else if heard.length < turns.length then some ((heard.filterMap (·.note?)).foldl (hear dhtKey) providers)
  else none

/-! ### The window -/

section

variable {dhtKey : Text} {deadline stop : Instant} {t : WaitTurn} {ts turns : List WaitTurn} {w : ProviderWait}
  {providers : List PeerId}

theorem collectProviders_eq (dhtKey : Text) (notes : List SwarmNotification) :
    collectProviders dhtKey notes = notes.foldl (hear dhtKey) [] := by
  unfold collectProviders
  congr 1

theorem windowEnd_le (dhtKey : Text) (deadline : Instant) (turns : List WaitTurn) :
    windowEnd dhtKey deadline turns ≤ deadline := by
  unfold windowEnd
  cases turns.find? (·.Hits dhtKey) <;> simp

theorem heardUntil_stop (h : stop ≤ t.checkAt) (providers : List PeerId) :
    heardUntil dhtKey stop (t :: ts) providers = some providers := by
  simp [heardUntil, not_lt.mpr h]

/-- A turn that is heard and does not end the wait. -/
theorem heardUntil_cons (h : t.checkAt < stop) (hopen : t.isClosed = false) (providers : List PeerId) :
    heardUntil dhtKey stop (t :: ts) providers =
      heardUntil dhtKey stop ts (t.note?.elim providers (hear dhtKey providers)) := by
  unfold heardUntil
  cases hnote : t.note? with
  | none => simp [h, hopen, hnote]
  | some note => simp [h, hopen, hnote]

theorem heardUntil_closed (h : t.checkAt < stop) (hclosed : t.isClosed = true) (providers : List PeerId) :
    heardUntil dhtKey stop (t :: ts) providers = some [] := by
  simp [heardUntil, h, hclosed]

/-- Once a provider was heard of, or the deadline is near, the end of the wait stays where it is. -/
theorem run_of_settled (hsettled : w.collectUntil = deadline → ∀ t ∈ turns, deadline ≤ t.addedAt + collectGrace) :
    ProviderWait.run dhtKey deadline turns w = heardUntil dhtKey w.collectUntil turns w.providers := by
  induction turns generalizing w with
  | nil => simp [ProviderWait.run, heardUntil]
  | cons t ts ih =>
      have hrest : w.collectUntil = deadline → ∀ t ∈ ts, deadline ≤ t.addedAt + collectGrace :=
        fun heq t' ht' => hsettled heq t' (List.mem_cons_of_mem _ ht')
      rw [ProviderWait.run]
      by_cases hstop : w.collectUntil ≤ t.checkAt
      · rw [if_pos hstop, heardUntil_stop hstop]
      rw [if_neg hstop]
      have hlt := not_le.mp hstop
      cases hreceived : t.received with
      | note n =>
          rw [heardUntil_cons hlt (by simp [WaitTurn.isClosed, hreceived]),
            show t.note? = some n by simp [WaitTurn.note?, hreceived]]
          cases n with
          | providersFound hash peers =>
              simp only [Option.elim, hear]
              split
              · have hsame : (w.found deadline t.addedAt peers).collectUntil = w.collectUntil := by
                  simp only [ProviderWait.found]
                  split
                  next hboth =>
                    rw [hboth.2]
                    exact min_eq_right (hsettled hboth.2 t List.mem_cons_self)
                  next => rfl
                rw [ih (by rw [hsame]; exact hrest), hsame]
                rfl
              · exact ih hrest
          | blockResponse q response => exact ih hrest
          | blockRequestFailed q => exact ih hrest
      | lagged =>
          rw [heardUntil_cons hlt (by simp [WaitTurn.isClosed, hreceived]),
            show t.note? = none by simp [WaitTurn.note?, hreceived]]
          exact ih hrest
      | closed => rw [heardUntil_closed hlt (by simp [WaitTurn.isClosed, hreceived])]
      | elapsed =>
          rw [heardUntil_cons hlt (by simp [WaitTurn.isClosed, hreceived]),
            show t.note? = none by simp [WaitTurn.note?, hreceived]]
          exact ih hrest

/-- The clock of a turn that comes later. -/
theorem ClockRuns.le_addedAt (hclock : ClockRuns (t :: ts)) {t' : WaitTurn} (ht' : t' ∈ ts) :
    t.addedAt ≤ t'.addedAt := by
  induction ts generalizing t with
  | nil => cases ht'
  | cons u us ih =>
      obtain ⟨hle, hmono, hrest⟩ := hclock
      have hu : t.addedAt ≤ u.addedAt := (hmono u List.mem_cons_self).trans hrest.1
      rcases List.mem_cons.mp ht' with rfl | ht'
      · exact hu
      · exact hu.trans (ih hrest ht')

/-- The first turn is within the window, unless it comes after the deadline. -/
theorem lt_windowEnd (dhtKey : Text) (hclock : ClockRuns (t :: ts)) (hlt : t.checkAt < deadline) :
    t.checkAt < windowEnd dhtKey deadline (t :: ts) := by
  unfold windowEnd
  cases hfind : (t :: ts).find? (·.Hits dhtKey) with
  | none => exact hlt
  | some t' =>
      have hle : t.checkAt ≤ t'.addedAt := by
        rcases List.mem_cons.mp (List.mem_of_find?_eq_some hfind) with rfl | hmem
        · exact hclock.1
        · exact hclock.1.trans (hclock.le_addedAt hmem)
      exact lt_min (hle.trans_lt (Nat.lt_add_of_pos_right (by decide))) hlt

/-- The first provider sets the end of the wait. -/
theorem found_of_first (deadline addedAt : Instant) (p : PeerId) (peers : List PeerId) :
    ProviderWait.found deadline addedAt ⟨deadline, []⟩ (p :: peers) =
      ⟨min (addedAt + collectGrace) deadline, (p :: peers).foldl DhtTask.addProvider []⟩ := by
  have hmem : p ∈ (p :: peers).foldl DhtTask.addProvider [] :=
    mem_foldl_addProvider.mpr (Or.inr List.mem_cons_self)
  have hpos := List.length_pos_of_mem hmem
  simp only [ProviderWait.found, List.length_nil, Nat.sub_zero]
  rw [if_pos ⟨hpos, trivial⟩]

theorem windowEnd_of_miss (hmiss : t.Hits dhtKey = false) :
    windowEnd dhtKey deadline (t :: ts) = windowEnd dhtKey deadline ts := by
  simp [windowEnd, hmiss]

/-- **The wait listens in its window.** Until the first provider is heard of, its end is the deadline. -/
theorem run_eq (hclock : ClockRuns turns) :
    waitForProvidersForDuration dhtKey deadline turns =
      heardUntil dhtKey (windowEnd dhtKey deadline turns) turns [] := by
  unfold waitForProvidersForDuration
  induction turns with
  | nil => simp [ProviderWait.run, heardUntil]
  | cons t ts ih =>
      rw [ProviderWait.run]
      by_cases hstop : deadline ≤ t.checkAt
      · rw [if_pos hstop, heardUntil_stop ((windowEnd_le dhtKey deadline (t :: ts)).trans hstop)]
      rw [if_neg hstop]
      have hlt := lt_windowEnd dhtKey hclock (not_le.mp hstop)
      -- a turn that hears of nobody leaves the wait as it is
      have hmiss : t.Hits dhtKey = false → t.isClosed = false → t.note?.elim [] (hear dhtKey []) = [] →
          ProviderWait.run dhtKey deadline ts ⟨deadline, []⟩ =
            heardUntil dhtKey (windowEnd dhtKey deadline (t :: ts)) (t :: ts) [] := by
        intro hmiss hopen hnothing
        rw [heardUntil_cons hlt hopen, hnothing, windowEnd_of_miss hmiss]
        exact ih hclock.2.2
      cases hreceived : t.received with
      | note n =>
          cases n with
          | providersFound hash peers =>
              dsimp only
              split
              next hhash =>
                subst hhash
                cases peers with
                | nil =>
                    exact hmiss (by simp [WaitTurn.Hits, hreceived]) (by simp [WaitTurn.isClosed, hreceived])
                      (by simp [WaitTurn.note?, hreceived, hear])
                | cons p peers =>
                    have hend : windowEnd hash deadline (t :: ts) = min (t.addedAt + collectGrace) deadline := by
                      simp [windowEnd, WaitTurn.Hits, hreceived]
                    rw [heardUntil_cons hlt (by simp [WaitTurn.isClosed, hreceived]), hend,
                      show t.note? = some _ by simp [WaitTurn.note?, hreceived]; rfl]
                    have hfound := found_of_first deadline t.addedAt p peers
                    rw [run_of_settled, hfound]
                    · simp [hear]
                    · rw [hfound]
                      intro heq t' ht'
                      exact (min_eq_right_iff.mp heq).trans (Nat.add_le_add_right (hclock.le_addedAt ht') _)
              next hhash =>
                exact hmiss (by simp [WaitTurn.Hits, hreceived, hhash]) (by simp [WaitTurn.isClosed, hreceived])
                  (by simp [WaitTurn.note?, hreceived, hear, hhash])
          | blockResponse q response =>
              exact hmiss (by simp [WaitTurn.Hits, hreceived]) (by simp [WaitTurn.isClosed, hreceived])
                (by simp [WaitTurn.note?, hreceived, hear])
          | blockRequestFailed q =>
              exact hmiss (by simp [WaitTurn.Hits, hreceived]) (by simp [WaitTurn.isClosed, hreceived])
                (by simp [WaitTurn.note?, hreceived, hear])
      | lagged =>
          exact hmiss (by simp [WaitTurn.Hits, hreceived]) (by simp [WaitTurn.isClosed, hreceived])
            (by simp [WaitTurn.note?, hreceived])
      | closed => rw [heardUntil_closed hlt (by simp [WaitTurn.isClosed, hreceived])]
      | elapsed =>
          exact hmiss (by simp [WaitTurn.Hits, hreceived]) (by simp [WaitTurn.isClosed, hreceived])
            (by simp [WaitTurn.note?, hreceived])

/-! ### What a download is told -/

variable {cfg : Config} {before during : List DiscoveryEvent}

theorem mem_of_mem_window (ht : t ∈ window dhtKey deadline turns) : t ∈ turns :=
  (List.takeWhile_prefix _).subset ht

/-- What is heard in the window was reported. -/
theorem reported_of_heard
    (hheard : ∀ t ∈ turns, ∀ n, t.received = .note n → n ∈ (Discovery.new.after (before ++ during)).notified)
    {p : PeerId} (hp : p ∈ collectProviders dhtKey ((window dhtKey deadline turns).filterMap (·.note?))) :
    Reported (before ++ during) dhtKey p := by
  obtain ⟨peers, hnote, hpeer⟩ := mem_collectProviders.mp hp
  obtain ⟨t, ht, hreceived⟩ := List.mem_filterMap.mp hnote
  have hagrees : Discovery.Agrees (before ++ during) (Discovery.new.after (before ++ during)) :=
    Discovery.agrees_after Discovery.agrees_new _
  refine (hagrees.told dhtKey p).mp (mem_collectProviders.mpr ⟨peers, hheard t (mem_of_mem_window ht) _ ?_, hpeer⟩)
  unfold WaitTurn.note? at hreceived
  split at hreceived
  next n hn =>
    rw [hn, Option.some.inj hreceived]
  next => cases hreceived

/-- **What a download learns of providers.** If enough are cached it takes these. Otherwise it listens
from the start of the wait up to three seconds after the first provider, or to the deadline, and gets
everybody who was named to it in that window. It is told of each peer once, of nobody whom the DHT has
not named, and not later than the deadline. -/
theorem providers_of_wait (hclock : ClockRuns turns)
    (hheard : ∀ t ∈ turns, ∀ n, t.received = .note n → n ∈ (Discovery.new.after (before ++ during)).notified) :
    (waitForProviders cfg (Discovery.new.after before).cache dhtKey deadline turns =
      if cfg.minProviders ≤ (cachedProviders (Discovery.new.after before).cache dhtKey).length then
        some (cachedProviders (Discovery.new.after before).cache dhtKey)
      else if (window dhtKey deadline turns).any (·.isClosed) then some []
      else if (window dhtKey deadline turns).length < turns.length then
        some (collectProviders dhtKey ((window dhtKey deadline turns).filterMap (·.note?)))
      else none) ∧
    (∀ peers, waitForProviders cfg (Discovery.new.after before).cache dhtKey deadline turns = some peers →
      peers.Nodup ∧ ∀ p ∈ peers, Reported (before ++ during) dhtKey p) ∧
    ((∃ t ∈ turns, deadline ≤ t.checkAt) →
      ∃ peers, waitForProviders cfg (Discovery.new.after before).cache dhtKey deadline turns = some peers) := by
  have heq : waitForProviders cfg (Discovery.new.after before).cache dhtKey deadline turns =
      if cfg.minProviders ≤ (cachedProviders (Discovery.new.after before).cache dhtKey).length then
        some (cachedProviders (Discovery.new.after before).cache dhtKey)
      else if (window dhtKey deadline turns).any (·.isClosed) then some []
      else if (window dhtKey deadline turns).length < turns.length then
        some (collectProviders dhtKey ((window dhtKey deadline turns).filterMap (·.note?)))
      else none := by
    simp only [waitForProviders, run_eq hclock, collectProviders_eq]
    rfl
  rw [heq]
  refine ⟨rfl, fun peers hpeers => ?_, fun hlate => ?_⟩
  · split at hpeers
    · obtain rfl := Option.some.inj hpeers
      have hagrees : Discovery.Agrees before (Discovery.new.after before) :=
        Discovery.agrees_after Discovery.agrees_new _
      refine ⟨hagrees.nodup dhtKey, fun p hp => ?_⟩
      obtain ⟨id, k, providers, last, hmem, hkey⟩ := (hagrees.cached dhtKey p).mp (Or.inl hp)
      exact ⟨id, k, providers, last, List.mem_append_left _ hmem, hkey⟩
    split at hpeers
    · obtain rfl := Option.some.inj hpeers
      exact ⟨List.nodup_nil, fun p hp => absurd hp List.not_mem_nil⟩
    split at hpeers
    · obtain rfl := Option.some.inj hpeers
      exact ⟨Discovery.nodup_collectProviders _ _, fun p hp => reported_of_heard hheard hp⟩
    · cases hpeers
  · obtain ⟨t, ht, hlate⟩ := hlate
    have hshort : (window dhtKey deadline turns).length < turns.length := by
      refine (List.takeWhile_prefix _).length_le.lt_of_ne fun hlen => ?_
      have hall : window dhtKey deadline turns = turns := (List.takeWhile_prefix _).eq_of_length hlen
      have hlt := of_decide_eq_true (List.takeWhile_eq_self_iff.mp hall t ht)
      exact absurd (hlt.trans_le (windowEnd_le dhtKey deadline turns)) (not_lt.mpr hlate)
    rw [if_pos hshort]
    split
    · exact ⟨_, rfl⟩
    · split
      · exact ⟨_, rfl⟩
      · exact ⟨_, rfl⟩

end

/-! ### A wait that hears of two peers -/

/-- The DHT names a peer under the key of the byte 1. -/
def names (peer : PeerId) : DiscoveryEvent := .kad (.foundProviders 0 [1] [peer] false)

/-- The second peer is heard of two seconds after the first; the third turn is after the window. -/
def twoAnswers : List WaitTurn :=
  [⟨0, .note (.providersFound (Hex.encode [1]) [⟨[1]⟩]), 1000⟩, ⟨1000, .note (.providersFound (Hex.encode [1]) [⟨[2]⟩]), 3000⟩,
    ⟨4000, .elapsed, 5000⟩]

theorem providers_of_wait_sample :
    waitForProviders Transfer.fetchConfig (Discovery.new.after []).cache (Hex.encode [1]) 60000 twoAnswers =
      some [⟨[1]⟩, ⟨[2]⟩] := by
  have hclock : ClockRuns twoAnswers := by simp [twoAnswers, ClockRuns]
  have hheard : ∀ t ∈ twoAnswers, ∀ n, t.received = .note n →
      n ∈ (Discovery.new.after ([] ++ [names ⟨[1]⟩, names ⟨[2]⟩])).notified := by
    have hnotified : (Discovery.new.after ([] ++ [names ⟨[1]⟩, names ⟨[2]⟩])).notified =
        [.providersFound (Hex.encode [1]) [⟨[1]⟩], .providersFound (Hex.encode [1]) [⟨[2]⟩]] := rfl
    rw [hnotified]
    simp [twoAnswers]
  have h := @providers_of_wait (Hex.encode [1]) 60000 twoAnswers Transfer.fetchConfig [] _ hclock hheard
  exact h.1.trans (by decide +kernel)

end GuixP2p
