import Mathlib.Algebra.Order.Ring.Nat
import GuixP2p.Connection

/-!
# GuixP2p.Connection.Dial

Whether a peer may be dialled: `can_connect`, `next_retry_delay` and the backoff they compute in
`src/connection.rs`.

The two functions compute the backoff with different exponents. `can_connect` doubles the base once
for every attempt, six times at most; `next_retry_delay` doubles it `max_retries` times, whatever
the attempts. `backoffsAgree_iff` says where this makes no difference.

Durations and clock readings are counted in nanoseconds here. The manager only compares readings, so
that its own operations do not depend on the unit.
-/

namespace GuixP2p

open GuixP2p.Lib

/-- A Rust `Duration`, in nanoseconds. -/
abbrev Duration := Nat

/-- `Duration::MAX`. -/
def Duration.max : Duration := (2 ^ 64 - 1) * 10 ^ 9 + 999999999

/-- An overflow in the computation of a backoff. -/
inductive Overflow
  /-- `u32::pow`. -/
  | pow
  /-- `Duration * u32`. -/
  | duration
  deriving DecidableEq, Repr

/-- `2u32.pow(n)`. -/
def pow2 (n : UInt32) : Except Overflow UInt32 :=
  if n.toNat < 32 then .ok (UInt32.ofNat (2 ^ n.toNat)) else .error .pow

/-- `d * k`. -/
def Duration.mul (d : Duration) (k : UInt32) : Except Overflow Duration :=
  if d * k.toNat ≤ Duration.max then .ok (d * k.toNat) else .error .duration

/-- The limits of the configuration that dialling reads. -/
structure DialLimits where
  maxRetries : UInt32
  backoffBase : Duration
  maxPeers : Nat
  deriving DecidableEq

/-- The base doubled `n` times. -/
def DialLimits.backoff (limits : DialLimits) (n : UInt32) : Except Overflow Duration := do
  let factor ← pow2 n
  Duration.mul limits.backoffBase factor

namespace ConnectionManager

def peerCount (m : ConnectionManager) : Nat := m.peers.entries.length

def backoffExpired (limits : DialLimits) (now : Instant) (st : PeerState) : Except Overflow Bool := do
  let delay ← limits.backoff (min st.retryCount 6)
  pure (decide (delay ≤ now - st.lastAttempt))

/-- Return true if the peer is below retry limits or its backoff expired. -/
def canConnect (limits : DialLimits) (m : ConnectionManager) (now : Instant) (peer : PeerId) :
    Except Overflow Bool :=
  if limits.maxPeers ≤ m.peerCount then .ok false
  else
    match m.peers.lookup peer with
    | some st =>
      if st.retryCount < limits.maxRetries then .ok true else backoffExpired limits now st
    | none => .ok true

/-- Return the remaining backoff before another dial should be attempted. -/
def nextRetryDelay (limits : DialLimits) (m : ConnectionManager) (now : Instant) (peer : PeerId) :
    Except Overflow (Option Duration) :=
  match m.peers.lookup peer with
  | some st =>
    if limits.maxRetries ≤ st.retryCount then do
      let elapsed := now - st.lastAttempt
      let maxBackoff ← limits.backoff limits.maxRetries
      if elapsed < maxBackoff then pure (some (maxBackoff - elapsed)) else pure none
    else .ok none
  | none => .ok none

end ConnectionManager

/-! ### Computing a backoff -/

theorem pow2_eq_ok {n k : UInt32} (h : pow2 n = .ok k) : n.toNat < 32 ∧ k.toNat = 2 ^ n.toNat := by
  unfold pow2 at h
  split at h
  next hlt =>
    obtain rfl := Except.ok.inj h
    refine ⟨hlt, UInt32.toNat_ofNat_of_lt' ?_⟩
    exact Nat.pow_lt_pow_right Nat.one_lt_two hlt
  next => cases h

/-- **The exact value of a backoff**, where there is one. -/
theorem DialLimits.backoff_eq_ok_iff {limits : DialLimits} {n : UInt32} {d : Duration} :
    limits.backoff n = .ok d ↔
      n.toNat < 32 ∧ limits.backoffBase * 2 ^ n.toNat ≤ Duration.max ∧ d = limits.backoffBase * 2 ^ n.toNat := by
  unfold backoff
  cases hpow : pow2 n with
  | error e =>
      refine iff_of_false (fun h => by cases h) fun h => ?_
      rw [pow2, if_pos h.1] at hpow
      cases hpow
  | ok k =>
      obtain ⟨hn, hk⟩ := pow2_eq_ok hpow
      change Duration.mul limits.backoffBase k = .ok d ↔ _
      rw [Duration.mul, hk]
      split
      next hfit => simp [hn, hfit, eq_comm]
      next hfit => simp [hfit]

theorem toNat_min_six (n : UInt32) : (min n 6).toNat = min n.toNat 6 := by
  change (if n ≤ 6 then n else 6).toNat = min n.toNat 6
  split
  next h => exact (min_eq_left (UInt32.le_iff_toNat_le.mp h)).symm
  next h => exact (min_eq_right (UInt32.le_iff_toNat_le.mp (UInt32.le_of_lt (UInt32.not_le.mp h)))).symm

namespace ConnectionManager

variable {limits : DialLimits} {m : ConnectionManager} {now : Instant} {peer : PeerId} {st : PeerState}

/-- Once the retries are used up, a peer can be dialled when its capped backoff is over. -/
theorem canConnect_of_spent (hbelow : m.peerCount < limits.maxPeers) (hlook : m.peers.lookup peer = some st)
    (hspent : limits.maxRetries ≤ st.retryCount) :
    canConnect limits m now peer =
      (limits.backoff (min st.retryCount 6)).map fun delay => decide (delay ≤ now - st.lastAttempt) := by
  rw [canConnect, if_neg (Nat.not_le.mpr hbelow), hlook]
  dsimp only
  rw [if_neg (UInt32.not_lt.mpr hspent), backoffExpired]
  cases limits.backoff (min st.retryCount 6) <;> rfl

theorem nextRetryDelay_of_spent (hlook : m.peers.lookup peer = some st)
    (hspent : limits.maxRetries ≤ st.retryCount) :
    nextRetryDelay limits m now peer =
      (limits.backoff limits.maxRetries).map fun maxBackoff =>
        if now - st.lastAttempt < maxBackoff then some (maxBackoff - (now - st.lastAttempt)) else none := by
  rw [nextRetryDelay, hlook]
  dsimp only
  rw [if_pos hspent]
  cases limits.backoff limits.maxRetries with
  | error e => rfl
  | ok d =>
      change (if now - st.lastAttempt < d then _ else _ : Except Overflow (Option Duration)) = .ok (if _ then _ else _)
      split <;> rfl

/-- A peer that is unknown, or has retries left, can be dialled at any time. -/
theorem canConnect_of_unspent (hbelow : m.peerCount < limits.maxPeers)
    (hleft : ∀ st, m.peers.lookup peer = some st → st.retryCount < limits.maxRetries) :
    canConnect limits m now peer = .ok true := by
  rw [canConnect, if_neg (Nat.not_le.mpr hbelow)]
  cases hlook : m.peers.lookup peer with
  | none => rfl
  | some st => exact if_pos (hleft st hlook)

theorem nextRetryDelay_of_unspent
    (hleft : ∀ st, m.peers.lookup peer = some st → st.retryCount < limits.maxRetries) :
    nextRetryDelay limits m now peer = .ok none := by
  rw [nextRetryDelay]
  cases hlook : m.peers.lookup peer with
  | none => rfl
  | some st => exact if_neg (UInt32.not_le.mpr (hleft st hlook))

/-- The backoff of the peer can be computed, if `can_connect` comes to it. -/
def BackoffFits (limits : DialLimits) (m : ConnectionManager) (peer : PeerId) : Prop :=
  limits.maxPeers ≤ m.peerCount ∨ ∀ st, m.peers.lookup peer = some st → limits.maxRetries ≤ st.retryCount →
    limits.backoffBase * 2 ^ min st.retryCount.toNat 6 ≤ Duration.max

/-- `can_connect` has an answer exactly if the backoff fits, at all times. -/
theorem canConnect_ok_iff : (∃ answer, canConnect limits m now peer = .ok answer) ↔ BackoffFits limits m peer := by
  unfold BackoffFits
  by_cases hfull : limits.maxPeers ≤ m.peerCount
  · exact iff_of_true ⟨false, if_pos hfull⟩ (Or.inl hfull)
  · have hbelow := Nat.not_le.mp hfull
    rw [or_iff_right hfull]
    by_cases hleft : ∀ st, m.peers.lookup peer = some st → st.retryCount < limits.maxRetries
    · refine iff_of_true ⟨true, canConnect_of_unspent hbelow hleft⟩ fun st hlook hspent => ?_
      exact absurd (hleft st hlook) (UInt32.not_lt.mpr hspent)
    · push Not at hleft
      obtain ⟨st, hlook, hspent⟩ := hleft
      have hspent := UInt32.not_lt.mp hspent
      have hfits : (∃ delay, limits.backoff (min st.retryCount 6) = .ok delay) ↔
          limits.backoffBase * 2 ^ min st.retryCount.toNat 6 ≤ Duration.max := by
        simp only [DialLimits.backoff_eq_ok_iff, toNat_min_six]
        exact ⟨fun ⟨_, _, h, _⟩ => h, fun h => ⟨_, by omega, h, rfl⟩⟩
      rw [canConnect_of_spent hbelow hlook hspent]
      constructor
      · rintro ⟨answer, hanswer⟩ st' hlook' -
        obtain rfl := Option.some.inj (hlook.symm.trans hlook')
        refine hfits.mp ?_
        cases hdelay : limits.backoff (min st.retryCount 6) with
        | error e => rw [hdelay] at hanswer; cases hanswer
        | ok delay => exact ⟨delay, rfl⟩
      · intro hall
        obtain ⟨delay, hdelay⟩ := hfits.mpr (hall st hlook hspent)
        rw [hdelay]
        exact ⟨_, rfl⟩

/-! ### The two functions agree -/

/-- Neither function overflows, one has a delay exactly when the other says no, and when the delay is
over the other says yes. -/
def BackoffsAgree (limits : DialLimits) (m : ConnectionManager) (now : Instant) (peer : PeerId) : Prop :=
  ∃ answer delay, canConnect limits m now peer = .ok answer ∧ nextRetryDelay limits m now peer = .ok delay ∧
    (answer = true ↔ delay = none) ∧
    ∀ d, delay = some d → ∀ later, now ≤ later →
      (canConnect limits m later peer = .ok true ↔ now + d ≤ later)

/-- The two exponents are one, or both delays are over; and the powers can be computed. -/
structure SameBackoff (limits : DialLimits) (now : Instant) (st : PeerState) : Prop where
  powFits : limits.maxRetries.toNat < 32
  delayFits : limits.backoffBase * 2 ^ max (min st.retryCount.toNat 6) limits.maxRetries.toNat ≤ Duration.max
  same : limits.backoffBase = 0 ∨ min st.retryCount.toNat 6 = limits.maxRetries.toNat ∨
    limits.backoffBase * 2 ^ max (min st.retryCount.toNat 6) limits.maxRetries.toNat ≤ now - st.lastAttempt

/-- Two delays since the last attempt: one is over exactly when the other is, now and later, only if
they are the same or both are over. -/
theorem delays_agree_iff {now a b last : Nat} (hclock : last ≤ now) :
    ((a ≤ now - last ↔ b ≤ now - last) ∧
      (now - last < b → ∀ later, now ≤ later → (a ≤ later - last ↔ now + (b - (now - last)) ≤ later))) ↔
      a = b ∨ (a ≤ now - last ∧ b ≤ now - last) := by
  constructor
  · intro h
    obtain ⟨hnow, hlater⟩ := h
    by_cases hb : b ≤ now - last
    · exact Or.inr ⟨hnow.mpr hb, hb⟩
    · have ha : ¬ a ≤ now - last := fun ha => hb (hnow.mp ha)
      -- the moments at which either delay is over tell the two apart
      have hata := hlater (by omega) (last + a) (by omega)
      have hatb := hlater (by omega) (last + b) (by omega)
      exact Or.inl (by omega)
  · intro h
    rcases h with rfl | ⟨ha, hb⟩
    · exact ⟨Iff.rfl, fun hlt later hle => by omega⟩
    · exact ⟨iff_of_true ha hb, fun hlt => absurd hb (by omega)⟩

theorem mul_pow_eq_iff {base i j : Nat} : base * 2 ^ i = base * 2 ^ j ↔ base = 0 ∨ i = j := by
  rw [mul_eq_mul_left_iff, Nat.pow_right_inj Nat.one_lt_two, or_comm]

theorem mul_pow_max_le_iff {base i j d : Nat} :
    base * 2 ^ max i j ≤ d ↔ base * 2 ^ i ≤ d ∧ base * 2 ^ j ≤ d := by
  constructor
  · intro h
    exact ⟨(Nat.mul_le_mul_left _ (Nat.pow_le_pow_right Nat.two_pos (le_max_left i j))).trans h,
      (Nat.mul_le_mul_left _ (Nat.pow_le_pow_right Nat.two_pos (le_max_right i j))).trans h⟩
  · intro h'
    obtain ⟨hi, hj⟩ := h'
    rcases max_choice i j with hmax | hmax
    · rwa [hmax]
    · rwa [hmax]

/-- A peer whose retries are used up. -/
theorem backoffsAgree_iff_of_spent (hbelow : m.peerCount < limits.maxPeers)
    (hlook : m.peers.lookup peer = some st) (hspent : limits.maxRetries ≤ st.retryCount)
    (hclock : st.lastAttempt ≤ now) :
    BackoffsAgree limits m now peer ↔ SameBackoff limits now st := by
  have hcan := fun t => @canConnect_of_spent limits m t peer st hbelow hlook hspent
  have hnext := @nextRetryDelay_of_spent limits m now peer st hlook hspent
  constructor
  · intro h'
    obtain ⟨answer, delay, hanswer, hdelay, hiff, hlater⟩ := h'
    cases ha : limits.backoff (min st.retryCount 6) with
    | error e => rw [hcan, ha] at hanswer; cases hanswer
    | ok a =>
      cases hb : limits.backoff limits.maxRetries with
      | error e => rw [hnext, hb] at hdelay; cases hdelay
      | ok b =>
        rw [hcan, ha] at hanswer
        rw [hnext, hb] at hdelay
        obtain rfl := Except.ok.inj hanswer
        obtain rfl := Except.ok.inj hdelay
        obtain ⟨-, hafits, haeq⟩ := DialLimits.backoff_eq_ok_iff.mp ha
        obtain ⟨hpow, hbfits, hbeq⟩ := DialLimits.backoff_eq_ok_iff.mp hb
        rw [toNat_min_six] at hafits haeq
        have hagree : a = b ∨ (a ≤ now - st.lastAttempt ∧ b ≤ now - st.lastAttempt) := by
          refine (delays_agree_iff hclock).mp ⟨?_, fun hlt later hle => ?_⟩
          · simpa using hiff
          · have h := hlater _ (if_pos hlt) later hle
            rw [hcan, ha] at h
            simpa [Except.map] using h
        refine ⟨hpow, mul_pow_max_le_iff.mpr ⟨hafits, hbfits⟩, ?_⟩
        rw [mul_pow_max_le_iff, ← haeq, ← hbeq, ← or_assoc, ← mul_pow_eq_iff, ← haeq, ← hbeq]
        exact hagree
  · intro h'
    obtain ⟨hpow, hfits, hsame⟩ := h'
    rw [mul_pow_max_le_iff] at hfits
    rw [mul_pow_max_le_iff, ← or_assoc, ← mul_pow_eq_iff] at hsame
    have ha : limits.backoff (min st.retryCount 6) = .ok (limits.backoffBase * 2 ^ min st.retryCount.toNat 6) := by
      rw [DialLimits.backoff_eq_ok_iff, toNat_min_six]
      exact ⟨by omega, hfits.1, rfl⟩
    have hb := DialLimits.backoff_eq_ok_iff.mpr ⟨hpow, hfits.2, rfl⟩
    obtain ⟨hiff, hlater⟩ := (delays_agree_iff hclock).mpr hsame
    rw [ha] at hcan
    rw [hb] at hnext
    refine ⟨_, _, hcan now, hnext, ?_, fun d hd later hle => ?_⟩
    · simpa using hiff
    · dsimp only at hd
      split at hd
      next hlt =>
        obtain rfl := Option.some.inj hd
        rw [hcan later, ← hlater hlt later hle]
        simp [Except.map]
      next => cases hd

/-- **When the two backoff computations agree.** Below the peer limit, `can_connect` and
`next_retry_delay` tell the same about a peer exactly if it is unknown or has retries left, or if
its backoff is the same for both. -/
theorem backoffsAgree_iff (hbelow : m.peerCount < limits.maxPeers)
    (hclock : ∀ st, m.peers.lookup peer = some st → st.lastAttempt ≤ now) :
    BackoffsAgree limits m now peer ↔
      ∀ st, m.peers.lookup peer = some st → limits.maxRetries ≤ st.retryCount → SameBackoff limits now st := by
  by_cases hleft : ∀ st, m.peers.lookup peer = some st → st.retryCount < limits.maxRetries
  · refine iff_of_true ⟨true, none, canConnect_of_unspent hbelow hleft, nextRetryDelay_of_unspent hleft,
      iff_of_true rfl rfl, fun d hd => by cases hd⟩ fun st hlook hspent => ?_
    exact absurd (hleft st hlook) (UInt32.not_lt.mpr hspent)
  · push Not at hleft
    obtain ⟨st, hlook, hspent⟩ := hleft
    rw [backoffsAgree_iff_of_spent hbelow hlook (UInt32.not_lt.mp hspent) (hclock st hlook)]
    constructor
    · intro h st' hlook' _
      obtain rfl := Option.some.inj (hlook.symm.trans hlook')
      exact h
    · intro h
      exact h st hlook (UInt32.not_lt.mp hspent)

/-! ### One attempt more -/

/-- The default limits. -/
def defaultLimits : DialLimits := { maxRetries := 3, backoffBase := 10 ^ 9, maxPeers := 50 }

/-- A peer that has been dialled a number of times without answer, all at the same time. -/
def attempts (n : Nat) : ConnectionManager :=
  n.repeat (fun m => m.recordAttempt 0 ⟨[1]⟩) (.new ⟨60000⟩)

/-- With three attempts the exponents are one. -/
theorem backoffsAgree_three_attempts : BackoffsAgree defaultLimits (attempts 3) (5 * 10 ^ 9) ⟨[1]⟩ := by
  refine (backoffsAgree_iff (by decide) fun st hlook => ?_).mpr fun st hlook _ => ?_
  · obtain rfl := Option.some.inj hlook
    decide
  · obtain rfl := Option.some.inj hlook
    exact ⟨by decide, by decide, Or.inr (Or.inl (by decide))⟩

/-- With a fourth one there is no delay left after ten seconds, and the peer may not be dialled. -/
theorem fourth_attempt_disagrees :
    (attempts 4).peerCount < defaultLimits.maxPeers ∧
      nextRetryDelay defaultLimits (attempts 4) (10 ^ 10) ⟨[1]⟩ = .ok none ∧
      canConnect defaultLimits (attempts 4) (10 ^ 10) ⟨[1]⟩ = .ok false ∧
      ¬ BackoffsAgree defaultLimits (attempts 4) (10 ^ 10) ⟨[1]⟩ := by
  have hnext : nextRetryDelay defaultLimits (attempts 4) (10 ^ 10) ⟨[1]⟩ = .ok none := rfl
  have hcan : canConnect defaultLimits (attempts 4) (10 ^ 10) ⟨[1]⟩ = .ok false := rfl
  refine ⟨by decide, hnext, hcan, ?_⟩
  intro h
  obtain ⟨answer, delay, hanswer, hdelay, hiff, -⟩ := h
  obtain rfl := Except.ok.inj (hcan.symm.trans hanswer)
  obtain rfl := Except.ok.inj (hnext.symm.trans hdelay)
  exact absurd (hiff.mpr rfl) Bool.false_ne_true

end ConnectionManager

end GuixP2p
