import Mathlib.Algebra.BigOperators.Group.List.Basic
import Mathlib.Algebra.Order.BigOperators.Group.List
import Mathlib.Data.List.Perm.Basic
import GuixP2p.Lib.Machine
import GuixP2p.Lib.Text
import GuixP2p.NarStore.Serve

/-!
# GuixP2p.Runtime.Uploads

How a node answers block requests. `handle_block_exchange` of `src/runtime.rs` has the store answer at
once, but the answer has to wait for the upload limit of `src/bandwidth.rs`: a task of its own acquires
its size in chunks and hands it to the swarm task, which sends it. The limiter is that of a library, and
all tasks share it.

`uploads_answer_all` is about every interleaving of requests, tasks and intervals: nothing is lost or
answered twice, what is sent keeps to the limit, and no answer is stuck.
-/

namespace GuixP2p

open GuixP2p.Lib

/-! ### The limiter -/

/-- The rate limiter of the library: how it is built, what it says about itself, the passing of an
interval, and how permits are taken from it. -/
class RateLimiterLib where
  RateLimiter : Type
  build (max initial refill : Nat) : RateLimiter
  max : RateLimiter → Nat
  refill : RateLimiter → Nat
  balance : RateLimiter → Nat
  passInterval : RateLimiter → RateLimiter
  take : RateLimiter → Nat → Option RateLimiter

/-- An interval refills a limiter up to its maximum, and permits can be taken that are there. -/
class LawfulRateLimiterLib [RateLimiterLib] : Prop where
  max_build : ∀ m i r, RateLimiterLib.max (RateLimiterLib.build m i r) = m
  refill_build : ∀ m i r, RateLimiterLib.refill (RateLimiterLib.build m i r) = r
  balance_build : ∀ m i r, i ≤ m → RateLimiterLib.balance (RateLimiterLib.build m i r) = i
  max_passInterval : ∀ l, RateLimiterLib.max (RateLimiterLib.passInterval l) = RateLimiterLib.max l
  refill_passInterval : ∀ l, RateLimiterLib.refill (RateLimiterLib.passInterval l) = RateLimiterLib.refill l
  balance_passInterval : ∀ l, RateLimiterLib.balance (RateLimiterLib.passInterval l) =
    min (RateLimiterLib.max l) (RateLimiterLib.balance l + RateLimiterLib.refill l)
  max_take : ∀ l n l', RateLimiterLib.take l n = some l' → RateLimiterLib.max l' = RateLimiterLib.max l
  refill_take : ∀ l n l', RateLimiterLib.take l n = some l' → RateLimiterLib.refill l' = RateLimiterLib.refill l
  balance_take : ∀ l n l', RateLimiterLib.take l n = some l' →
    RateLimiterLib.balance l' + n = RateLimiterLib.balance l
  take_of_le : ∀ l n, n ≤ RateLimiterLib.balance l → ∃ l', RateLimiterLib.take l n = some l'

section

variable [RateLimiterLib]

open RateLimiterLib (RateLimiter)

/-- No limit, or a bucket that holds what may be sent in a second. -/
def rateLimiter (bytesPerSec : Option UInt64) : Option RateLimiter :=
  match bytesPerSec with
  | none => none
  | some rate =>
    if rate = 0 then none else some (RateLimiterLib.build rate.toNat rate.toNat rate.toNat)

omit [RateLimiterLib] in
def responseSizeBytes : BlockResponse → Nat
  | .handshakeReply _ _ _ blockHashes => (blockHashes.map List.length).sum
  | .blocks data => (data.map fun block => block.data.length).sum
  | .error message => (Text.utf8 message).length

/-! ### The tasks -/

omit [RateLimiterLib] in
/-- What the dashboard is told once a response has been sent. -/
structure BlockServed where
  narHash : Text
  peer : PeerId
  indices : List UInt32
  deriving DecidableEq

omit [RateLimiterLib] in
/-- A response, with where it goes to. -/
structure PendingBlockResponse where
  channel : Nat
  response : BlockResponse
  event : BlockServed
  deriving DecidableEq

/-- A task in the loop of `consume`: the bytes it has not asked for, and the permits that its current
`acquire` waits for. -/
structure Upload where
  pending : PendingBlockResponse
  remaining : Nat
  waiting : Nat

namespace Upload

def size (u : Upload) : Nat := responseSizeBytes u.pending.response

def spawn (pending : PendingBlockResponse) : Upload := ⟨pending, responseSizeBytes pending.response, 0⟩

/-- What is still to be acquired. -/
def demand (u : Upload) : Nat := u.remaining + u.waiting

/-- The next turn of the loop; none if it ends. -/
def consume (limiter : Option RateLimiter) (u : Upload) : Option Upload :=
  match limiter with
  | none => none
  | some limiter =>
    if u.remaining = 0 then none
    else
      let chunk := min u.remaining (Nat.max (RateLimiterLib.max limiter) 1)
      some { u with remaining := u.remaining - chunk, waiting := chunk }

theorem consume_some {l : RateLimiter} {u u' : Upload} (h : u.consume (some l) = some u') :
    u.remaining ≠ 0 ∧
      u' = { u with remaining := u.remaining - min u.remaining (Nat.max (RateLimiterLib.max l) 1),
                    waiting := min u.remaining (Nat.max (RateLimiterLib.max l) 1) } := by
  simp only [consume] at h
  split at h
  · cases h
  next hne => exact ⟨hne, (Option.some.inj h).symm⟩

theorem remaining_of_consume {l : RateLimiter} {u : Upload} (h : u.consume (some l) = none) : u.remaining = 0 := by
  simp only [consume] at h
  split at h
  next hzero => exact hzero
  next => cases h

/-- Only what the task has to acquire changes, and not by starting an `acquire`. -/
theorem demand_of_consume {limiter : Option RateLimiter} {u u' : Upload} (h : u.consume limiter = some u')
    (hwaiting : u.waiting = 0) : u'.pending = u.pending ∧ u'.demand = u.demand := by
  cases limiter with
  | none => cases h
  | some l =>
      obtain ⟨hne, rfl⟩ := consume_some h
      refine ⟨rfl, ?_⟩
      simp only [demand, hwaiting]
      omega

end Upload

/-! ### The node -/

/-- The limiter, the tasks, the responses that wait for the swarm task, and those that are sent. -/
structure Uploads where
  limiter : Option RateLimiter
  tasks : List Upload
  queue : List PendingBlockResponse
  sent : List PendingBlockResponse

omit [RateLimiterLib] in
/-- A request comes in, an interval passes, a task gets some of its permits, or goes on with all of
them, or the swarm task sends a response. -/
inductive UploadEvent
  | requested (channel : Nat) (peer : PeerId) (store : NarStore) (files : Files) (request : BlockRequest)
  | interval
  | granted (k n : Nat)
  | resumed (k : Nat)
  | responded

omit [RateLimiterLib] in
inductive UploadFault
  | panicked (p : Panic)
  | impossible

namespace Uploads

def init (bytesPerSec : Option UInt64) : Uploads := ⟨rateLimiter bytesPerSec, [], [], []⟩

variable [Sha256]

omit [RateLimiterLib] in
/-- What the store answers to a request, if anything. -/
def answer (channel : Nat) (peer : PeerId) (store : NarStore) (files : Files) (request : BlockRequest) :
    Except Panic (Option PendingBlockResponse) :=
  match store.handleRequest files request with
  | .error p => .error p
  | .ok none => .ok none
  | .ok (some response) =>
    .ok (some ⟨channel, response, ⟨Hex.encode request.narHash, peer, request.indices⟩⟩)

def step (s : Uploads) : UploadEvent → Except UploadFault Uploads
  | .requested channel peer store files request =>
    match answer channel peer store files request with
    | .error p => .error (.panicked p)
    | .ok none => .ok s
    | .ok (some pending) => .ok { s with tasks := s.tasks ++ [.spawn pending] }
  | .interval => .ok { s with limiter := s.limiter.map RateLimiterLib.passInterval }
  | .granted k n =>
    match s.tasks[k]?, s.limiter with
    | some u, some limiter =>
      if n ≤ u.waiting then
        match RateLimiterLib.take limiter n with
        | some limiter =>
          .ok { s with limiter := some limiter, tasks := s.tasks.set k { u with waiting := u.waiting - n } }
        | none => .error .impossible
      else .error .impossible
    | _, _ => .error .impossible
  | .resumed k =>
    match s.tasks[k]? with
    | some u =>
      if u.waiting = 0 then
        match u.consume s.limiter with
        | some u => .ok { s with tasks := s.tasks.set k u }
        | none => .ok { s with tasks := s.tasks.eraseIdx k, queue := s.queue ++ [u.pending] }
      else .error .impossible
    | none => .error .impossible
  | .responded =>
    match s.queue with
    | [] => .error .impossible
    | pending :: queue => .ok { s with queue, sent := s.sent ++ [pending] }

omit [RateLimiterLib] in
/-- The response to a request. -/
def response? : UploadEvent → Option PendingBlockResponse
  | .requested channel peer store files request =>
    match answer channel peer store files request with
    | .ok pending => pending
    | .error _ => none
  | _ => none

omit [RateLimiterLib] [Sha256] in
def isInterval : UploadEvent → Bool
  | .interval => true
  | _ => false

/-! ### What a step can do -/

/-- The order of the tasks does not matter. -/
inductive Moves (s : Uploads) : UploadEvent → Uploads → Prop
  | spawned {e : UploadEvent} {pending : PendingBlockResponse} (hresponse : response? e = some pending)
      (hinterval : isInterval e = false) : Moves s e { s with tasks := s.tasks ++ [.spawn pending] }
  | ignored {e : UploadEvent} (hresponse : response? e = none) (hinterval : isInterval e = false) : Moves s e s
  | refilled : Moves s .interval { s with limiter := s.limiter.map RateLimiterLib.passInterval }
  | granted {k n : Nat} {u : Upload} {others tasks : List Upload} {l l' : RateLimiter}
      (htasks : s.tasks.Perm (u :: others)) (hlimiter : s.limiter = some l) (hn : n ≤ u.waiting)
      (htake : RateLimiterLib.take l n = some l')
      (htasks' : tasks.Perm ({ u with waiting := u.waiting - n } :: others)) :
      Moves s (.granted k n) { s with limiter := some l', tasks }
  | continued {k : Nat} {u u' : Upload} {others tasks : List Upload} (htasks : s.tasks.Perm (u :: others))
      (hwaiting : u.waiting = 0) (hconsume : u.consume s.limiter = some u') (htasks' : tasks.Perm (u' :: others)) :
      Moves s (.resumed k) { s with tasks }
  | finished {k : Nat} {u : Upload} {others tasks : List Upload} (htasks : s.tasks.Perm (u :: others))
      (hwaiting : u.waiting = 0) (hconsume : u.consume s.limiter = none) (htasks' : tasks.Perm others) :
      Moves s (.resumed k) { s with tasks, queue := s.queue ++ [u.pending] }
  | responded {pending : PendingBlockResponse} {queue : List PendingBlockResponse}
      (hqueue : s.queue = pending :: queue) : Moves s .responded { s with queue, sent := s.sent ++ [pending] }

omit [RateLimiterLib] [Sha256] in
theorem perm_of_getElem? {tasks : List Upload} {k : Nat} {u : Upload} (h : tasks[k]? = some u) :
    tasks.Perm (u :: tasks.eraseIdx k) ∧ ∀ u', (tasks.set k u').Perm (u' :: tasks.eraseIdx k) := by
  obtain ⟨hk, rfl⟩ := List.getElem?_eq_some_iff.mp h
  exact ⟨(List.getElem_cons_eraseIdx_perm hk).symm, fun u' => List.set_perm_cons_eraseIdx hk u'⟩

theorem moves_of_step {s s' : Uploads} {e : UploadEvent} (h : step s e = .ok s') : Moves s e s' := by
  cases e with
  | requested channel peer store files request =>
      simp only [step] at h
      cases hanswer : answer channel peer store files request with
      | error p => rw [hanswer] at h; cases h
      | ok pending =>
          rw [hanswer] at h
          cases pending with
          | none =>
              obtain rfl := Except.ok.inj h
              exact .ignored (by simp only [response?, hanswer]) rfl
          | some pending =>
              obtain rfl := Except.ok.inj h
              exact .spawned (by simp only [response?, hanswer]) rfl
  | interval =>
      obtain rfl := Except.ok.inj h
      exact .refilled
  | granted k n =>
      simp only [step] at h
      cases htask : s.tasks[k]? with
      | none => rw [htask] at h; cases h
      | some u =>
          cases hlimiter : s.limiter with
          | none => rw [htask, hlimiter] at h; cases h
          | some l =>
              rw [htask, hlimiter] at h
              dsimp only at h
              split at h
              next hn =>
                cases htake : RateLimiterLib.take l n with
                | none => rw [htake] at h; cases h
                | some l' =>
                    rw [htake] at h
                    obtain rfl := Except.ok.inj h
                    obtain ⟨hperm, hset⟩ := perm_of_getElem? htask
                    exact .granted hperm hlimiter hn htake (hset _)
              next => cases h
  | resumed k =>
      simp only [step] at h
      cases htask : s.tasks[k]? with
      | none => rw [htask] at h; cases h
      | some u =>
          rw [htask] at h
          dsimp only at h
          obtain ⟨hperm, hset⟩ := perm_of_getElem? htask
          split at h
          next hwaiting =>
            cases hconsume : u.consume s.limiter with
            | some u' =>
                rw [hconsume] at h
                obtain rfl := Except.ok.inj h
                exact .continued hperm hwaiting hconsume (hset _)
            | none =>
                rw [hconsume] at h
                obtain rfl := Except.ok.inj h
                exact .finished hperm hwaiting hconsume (List.Perm.refl _)
          next => cases h
  | responded =>
      simp only [step] at h
      cases hqueue : s.queue with
      | nil => rw [hqueue] at h; cases h
      | cons pending queue =>
          rw [hqueue] at h
          obtain rfl := Except.ok.inj h
          exact .responded hqueue

/-! ### Nothing is lost -/

/-- The responses on their way, and those that are sent. -/
def accounted (s : Uploads) : List PendingBlockResponse := s.sent ++ s.queue ++ s.tasks.map Upload.pending

theorem Moves.accounted {s s' : Uploads} {e : UploadEvent} (h : Moves s e s') :
    s'.accounted.Perm (s.accounted ++ (response? e).toList) := by
  cases h with
  | @spawned _ pending hresponse hinterval =>
      rw [hresponse]
      simp [Uploads.accounted, Upload.spawn]
  | ignored hresponse hinterval =>
      rw [hresponse]
      simp
  | refilled => simp [Uploads.accounted, response?]
  | @granted k n u others tasks l l' htasks hlimiter hn htake htasks' =>
      have hmap : (tasks.map Upload.pending).Perm (s.tasks.map Upload.pending) :=
        (htasks'.map Upload.pending).trans (htasks.map Upload.pending).symm
      exact (hmap.append_left (s.sent ++ s.queue)).trans (List.Perm.of_eq (List.append_nil _).symm)
  | @continued k u u' others tasks htasks hwaiting hconsume htasks' =>
      have hmap : (tasks.map Upload.pending).Perm (s.tasks.map Upload.pending) := by
        refine (htasks'.map Upload.pending).trans ?_
        rw [List.map_cons, (Upload.demand_of_consume hconsume hwaiting).1]
        exact (htasks.map Upload.pending).symm
      exact (hmap.append_left (s.sent ++ s.queue)).trans (List.Perm.of_eq (List.append_nil _).symm)
  | @finished k u others tasks htasks hwaiting hconsume htasks' =>
      have hmap : (u.pending :: tasks.map Upload.pending).Perm (s.tasks.map Upload.pending) :=
        ((htasks'.map Upload.pending).cons u.pending).trans (htasks.map Upload.pending).symm
      have hqueue : s.sent ++ (s.queue ++ [u.pending]) ++ tasks.map Upload.pending =
          s.sent ++ s.queue ++ (u.pending :: tasks.map Upload.pending) := by
        simp
      rw [Uploads.accounted, hqueue]
      exact (hmap.append_left (s.sent ++ s.queue)).trans (List.Perm.of_eq (List.append_nil _).symm)
  | @responded pending queue hqueue =>
      refine List.Perm.of_eq ?_
      have hnone : response? .responded = none := rfl
      rw [hnone]
      simp [Uploads.accounted, hqueue]

/-- **Run lemma.** -/
theorem accounted_run {s t : Uploads} {events : List UploadEvent} (h : Machine.run step s events = .ok t) :
    t.accounted.Perm (s.accounted ++ events.filterMap response?) := by
  induction events generalizing s with
  | nil =>
      obtain rfl : s = t := Except.ok.inj h
      simp
  | cons e events ih =>
      obtain ⟨s', hstep, hrun⟩ := Machine.run_cons_inv h
      have hcons : (e :: events).filterMap response? = (response? e).toList ++ events.filterMap response? := by
        rw [List.filterMap_cons]
        cases response? e with
        | none => rfl
        | some pending => rfl
      rw [hcons, ← List.append_assoc]
      exact (ih hrun).trans ((moves_of_step hstep).accounted.append_right _)

/-! ### The limit -/

/-- The limit of a node, zero if there is none: no task waits for more than the limiter can hold, or has
more to acquire than its response is long. -/
structure Within (rate : Nat) (s : Uploads) : Prop where
  tasks : ∀ u ∈ s.tasks, u.waiting ≤ rate ∧ u.demand ≤ u.size
  limiter : (rate = 0 ∧ s.limiter = none) ∨
    ∃ l, s.limiter = some l ∧ 0 < rate ∧ RateLimiterLib.max l = rate ∧ RateLimiterLib.refill l = rate

def volume (pending : List PendingBlockResponse) : Nat := (pending.map fun p => responseSizeBytes p.response).sum

/-- What the limiter has not given out, and all that was accepted. -/
def spent (s : Uploads) : Nat :=
  (s.limiter.map RateLimiterLib.balance).getD 0 + volume s.accounted

omit [Sha256] in
theorem spent_eq {s : Uploads} {l : RateLimiter} (h : s.limiter = some l) :
    s.spent = RateLimiterLib.balance l + volume s.accounted := by
  rw [spent, h]
  rfl

def demand (s : Uploads) : Nat := (s.tasks.map Upload.demand).sum

variable [LawfulRateLimiterLib]

theorem Moves.within {s s' : Uploads} {e : UploadEvent} (h : Moves s e s') {rate : Nat} (hs : s.Within rate) :
    s'.Within rate := by
  obtain ⟨hall, hlimiter⟩ := hs
  cases h with
  | @spawned _ pending hresponse hinterval =>
      refine ⟨fun u hu => ?_, hlimiter⟩
      rcases List.mem_append.mp hu with hu | hu
      · exact hall u hu
      · rw [List.mem_singleton.mp hu]
        exact ⟨Nat.zero_le _, le_refl _⟩
  | ignored hresponse hinterval => exact ⟨hall, hlimiter⟩
  | refilled =>
      refine ⟨hall, hlimiter.imp (fun hnone => ⟨hnone.1, by rw [hnone.2]; rfl⟩) fun hsome => ?_⟩
      obtain ⟨l, hl, hpos, hmax, hrefill⟩ := hsome
      exact ⟨RateLimiterLib.passInterval l, by rw [hl]; rfl, hpos, by rw [LawfulRateLimiterLib.max_passInterval, hmax],
        by rw [LawfulRateLimiterLib.refill_passInterval, hrefill]⟩
  | @granted k n u others tasks l l' htasks hl hn htake htasks' =>
      refine ⟨fun v hv => ?_, hlimiter.imp (fun hnone => ?_) fun hsome => ?_⟩
      · rcases List.mem_cons.mp (htasks'.mem_iff.mp hv) with rfl | hv
        · obtain ⟨hwaiting, hdemand⟩ := hall u (htasks.mem_iff.mpr List.mem_cons_self)
          exact ⟨(Nat.sub_le _ _).trans hwaiting, (Nat.add_le_add_left (Nat.sub_le _ _) _).trans hdemand⟩
        · exact hall v (htasks.mem_iff.mpr (List.mem_cons_of_mem u hv))
      · rw [hl] at hnone
        cases hnone.2
      · obtain ⟨l₀, hl₀, hpos, hmax, hrefill⟩ := hsome
        obtain rfl : l = l₀ := Option.some.inj (hl.symm.trans hl₀)
        exact ⟨l', rfl, hpos, by rw [LawfulRateLimiterLib.max_take l n l' htake, hmax],
          by rw [LawfulRateLimiterLib.refill_take l n l' htake, hrefill]⟩
  | @continued k u u' others tasks htasks hzero hconsume htasks' =>
      refine ⟨fun v hv => ?_, hlimiter⟩
      rcases List.mem_cons.mp (htasks'.mem_iff.mp hv) with rfl | hv
      · obtain ⟨hpending, hdemand⟩ := Upload.demand_of_consume hconsume hzero
        refine ⟨?_, ?_⟩
        · rcases hlimiter with ⟨-, hnone⟩ | ⟨l, hl, hpos, hmax, -⟩
          · rw [hnone] at hconsume
            cases hconsume
          · rw [hl] at hconsume
            obtain ⟨-, rfl⟩ := Upload.consume_some hconsume
            rw [hmax]
            exact (Nat.min_le_right _ _).trans (Nat.max_le.mpr ⟨le_refl _, hpos⟩)
        · rw [hdemand, Upload.size, hpending]
          exact (hall u (htasks.mem_iff.mpr List.mem_cons_self)).2
      · exact hall v (htasks.mem_iff.mpr (List.mem_cons_of_mem u hv))
  | @finished k u others tasks htasks hzero hconsume htasks' =>
      exact ⟨fun v hv => hall v (htasks.mem_iff.mpr (List.mem_cons_of_mem u (htasks'.mem_iff.mp hv))), hlimiter⟩
  | responded hqueue => exact ⟨hall, hlimiter⟩

omit [RateLimiterLib] [Sha256] [LawfulRateLimiterLib] in
theorem volume_perm {p q : List PendingBlockResponse} (h : p.Perm q) : volume p = volume q := by
  unfold volume
  exact (h.map _).sum_eq

omit [Sha256] [LawfulRateLimiterLib] in
theorem demand_perm {s : Uploads} {tasks : List Upload} (h : s.tasks.Perm tasks) :
    s.demand = (tasks.map Upload.demand).sum :=
  (h.map Upload.demand).sum_eq

omit [LawfulRateLimiterLib] in
theorem volume_accounted {s s' : Uploads} {e : UploadEvent} (h : Moves s e s') :
    volume s'.accounted = volume s.accounted + volume (response? e).toList := by
  rw [volume_perm h.accounted]
  simp [volume]

/-- **What a step gives out is taken from the limiter.** -/
theorem Moves.spent_le {s s' : Uploads} {e : UploadEvent} (h : Moves s e s') {rate : Nat} (hs : s.Within rate)
    (hrate : 0 < rate) :
    s'.spent + s.demand ≤ s.spent + s'.demand + if isInterval e = true then rate else 0 := by
  have hvolume := volume_accounted h
  rcases hs.limiter with ⟨hzero, -⟩ | ⟨l₀, hl₀, -, hmax, hrefill⟩
  · omega
  rw [spent_eq hl₀]
  have hnone : volume (none : Option PendingBlockResponse).toList = 0 := rfl
  have hsame : ∀ tasks queue sent, (Uploads.mk s.limiter tasks queue sent).spent =
      RateLimiterLib.balance l₀ + volume (Uploads.mk s.limiter tasks queue sent).accounted :=
    fun _ _ _ => spent_eq hl₀
  cases h with
  | @spawned _ pending hresponse hinterval =>
      have hone : volume (some pending).toList = (Upload.spawn pending).demand := by
        simp [volume, Upload.demand, Upload.spawn]
      have hdemand : (Uploads.mk s.limiter (s.tasks ++ [Upload.spawn pending]) s.queue s.sent).demand =
          s.demand + (Upload.spawn pending).demand := by
        rw [demand, List.map_append, List.sum_append, demand]
        simp
      rw [hresponse, hone] at hvolume
      rw [hsame, hvolume, hdemand]
      omega
  | ignored hresponse hinterval =>
      rw [spent_eq hl₀]
      exact Nat.le_add_right _ _
  | refilled =>
      have hbalance := LawfulRateLimiterLib.balance_passInterval l₀
      have hl : (s.limiter.map RateLimiterLib.passInterval) = some (RateLimiterLib.passInterval l₀) := by
        rw [hl₀]
        rfl
      rw [spent_eq hl, hvolume]
      simp only [response?, hnone, isInterval, if_true, demand]
      omega
  | @granted k n u others tasks l l' htasks hl hn htake htasks' =>
      have hbalance := LawfulRateLimiterLib.balance_take l n l' htake
      have hbefore := demand_perm htasks
      have hafter := @demand_perm _ { s with limiter := some l', tasks } _ htasks'
      obtain rfl : l = l₀ := Option.some.inj (hl.symm.trans hl₀)
      simp only [List.map_cons, List.sum_cons, Upload.demand] at hbefore hafter
      rw [spent_eq rfl, hvolume, hafter, hbefore]
      simp only [response?, hnone]
      omega
  | @continued k u u' others tasks htasks hzero hconsume htasks' =>
      have hbefore := demand_perm htasks
      have hafter := @demand_perm _ { s with tasks } _ htasks'
      simp only [List.map_cons, List.sum_cons, (Upload.demand_of_consume hconsume hzero).2] at hbefore hafter
      rw [hsame, hvolume, hafter, hbefore]
      exact Nat.le_add_right _ _
  | @finished k u others tasks htasks hzero hconsume htasks' =>
      have hbefore := demand_perm htasks
      have hafter := @demand_perm _ { s with tasks, queue := s.queue ++ [u.pending] } _ htasks'
      rw [hl₀] at hconsume
      have hremaining := Upload.remaining_of_consume hconsume
      simp only [List.map_cons, List.sum_cons, Upload.demand, hremaining, hzero] at hbefore
      rw [hsame, hvolume, hafter, hbefore]
      simp only [response?, hnone]
      omega
  | responded hqueue =>
      rw [hsame, hvolume]
      exact Nat.le_add_right _ _

/-- **Run lemma.** -/
theorem spent_run {s t : Uploads} {events : List UploadEvent} (h : Machine.run step s events = .ok t) {rate : Nat}
    (hs : s.Within rate) (hrate : 0 < rate) :
    t.Within rate ∧ t.spent + s.demand ≤ s.spent + t.demand + rate * events.countP isInterval := by
  induction events generalizing s with
  | nil =>
      obtain rfl : s = t := Except.ok.inj h
      exact ⟨hs, Nat.le_add_right _ _⟩
  | cons e events ih =>
      obtain ⟨s', hstep, hrun⟩ := Machine.run_cons_inv h
      have hmoves := moves_of_step hstep
      have hle := hmoves.spent_le hs hrate
      obtain ⟨ht, hrest⟩ := ih hrun (hmoves.within hs)
      refine ⟨ht, ?_⟩
      rw [List.countP_cons, Nat.mul_add, mul_ite, Nat.mul_one, Nat.mul_zero]
      omega

/-! ### No answer is stuck -/

theorem within_run {s t : Uploads} {events : List UploadEvent} (h : Machine.run step s events = .ok t) {rate : Nat}
    (hs : s.Within rate) : t.Within rate :=
  Machine.run_invariant (fun _ _ _ hw hstep => (moves_of_step hstep).within hw) hs h

/-- After an interval there is enough for a chunk. -/
theorem acquire_first {s : Uploads} {u : Upload} {rest : List Upload} (htasks : s.tasks = u :: rest) {rate : Nat}
    (hs : s.Within rate) :
    ∃ later t, later.filterMap response? = [] ∧ Machine.run step s later = .ok t ∧
      t.tasks = { u with waiting := 0 } :: rest ∧ t.queue = s.queue := by
  by_cases hzero : u.waiting = 0
  · refine ⟨[], s, rfl, rfl, ?_, rfl⟩
    rw [htasks, ← hzero]
  have hwaiting : u.waiting ≤ rate := (hs.tasks u (by rw [htasks]; exact List.mem_cons_self)).1
  rcases hs.limiter with ⟨hrate, -⟩ | ⟨l, hl, -, hmax, hrefill⟩
  · omega
  have hbalance := LawfulRateLimiterLib.balance_passInterval l
  obtain ⟨l', htake⟩ := LawfulRateLimiterLib.take_of_le (RateLimiterLib.passInterval l) u.waiting (by omega)
  refine ⟨[.interval, .granted 0 u.waiting],
    { s with limiter := some l', tasks := { u with waiting := 0 } :: rest }, rfl, ?_, rfl, rfl⟩
  have hinterval : step s .interval = .ok { s with limiter := some (RateLimiterLib.passInterval l) } := by
    rw [step, hl]
    rfl
  rw [Machine.run_cons_ok hinterval]
  refine Machine.run_cons_ok ?_
  simp only [step, htasks, List.getElem?_cons_zero, le_refl, if_true, htake, Nat.sub_self, List.set_cons_zero]

/-- The first task gets its turns. -/
theorem finish_first {s : Uploads} {u : Upload} {rest : List Upload} (htasks : s.tasks = u :: rest) {rate : Nat}
    (hs : s.Within rate) :
    ∃ later t, later.filterMap response? = [] ∧ Machine.run step s later = .ok t ∧ t.tasks = rest := by
  induction hn : u.remaining using Nat.strong_induction_on generalizing s u with
  | _ n ih =>
      obtain ⟨acquire, t, hquiet, hrun, htasks', -⟩ := acquire_first htasks hs
      have ht := within_run hrun hs
      cases hconsume : Upload.consume t.limiter { u with waiting := 0 } with
      | none =>
          have hstep : step t (.resumed 0) =
              .ok { t with tasks := rest, queue := t.queue ++ [u.pending] } := by
            simp only [step, htasks', List.getElem?_cons_zero, if_true, hconsume, List.eraseIdx_cons_zero]
          refine ⟨acquire ++ [.resumed 0], _, ?_, (Machine.run_append hrun).trans (Machine.run_cons_ok hstep), rfl⟩
          rw [List.filterMap_append, hquiet]
          rfl
      | some u' =>
          have hstep : step t (.resumed 0) = .ok { t with tasks := u' :: rest } := by
            simp only [step, htasks', List.getElem?_cons_zero, if_true, hconsume, List.set_cons_zero]
          have hless : u'.remaining < n := by
            cases hlimiter : t.limiter with
            | none => rw [hlimiter] at hconsume; cases hconsume
            | some l =>
                rw [hlimiter] at hconsume
                obtain ⟨hne, rfl⟩ := Upload.consume_some hconsume
                dsimp only at hne ⊢
                have hchunk : 0 < min u.remaining (Nat.max (RateLimiterLib.max l) 1) :=
                  Nat.lt_min.mpr ⟨Nat.pos_of_ne_zero hne, Nat.le_max_right _ _⟩
                omega
          obtain ⟨later, t', hquiet', hrun', hrest⟩ := ih _ hless (s := { t with tasks := u' :: rest }) rfl
            ((moves_of_step hstep).within ht) rfl
          refine ⟨acquire ++ .resumed 0 :: later, t', ?_,
            (Machine.run_append hrun).trans ((Machine.run_cons_ok hstep).trans hrun'), hrest⟩
          rw [List.filterMap_append, hquiet]
          exact hquiet'

theorem finish_tasks {s : Uploads} {rate : Nat} (hs : s.Within rate) :
    ∃ later t, later.filterMap response? = [] ∧ Machine.run step s later = .ok t ∧ t.tasks = [] := by
  induction htasks : s.tasks generalizing s with
  | nil => exact ⟨[], s, rfl, rfl, htasks⟩
  | cons u rest ih =>
      obtain ⟨first, t, hquiet, hrun, hrest⟩ := finish_first htasks hs
      obtain ⟨later, t', hquiet', hrun', hnil⟩ := ih (within_run hrun hs) hrest
      refine ⟨first ++ later, t', ?_, (Machine.run_append hrun).trans hrun', hnil⟩
      rw [List.filterMap_append, hquiet, hquiet']
      rfl

omit [LawfulRateLimiterLib] in
theorem send_queue (s : Uploads) :
    ∃ later t, later.filterMap response? = [] ∧ Machine.run step s later = .ok t ∧ t.tasks = s.tasks ∧
      t.queue = [] := by
  induction hqueue : s.queue generalizing s with
  | nil => exact ⟨[], s, rfl, rfl, rfl, hqueue⟩
  | cons pending queue ih =>
      have hstep : step s .responded = .ok { s with queue, sent := s.sent ++ [pending] } := by
        simp only [step, hqueue]
      obtain ⟨later, t, hquiet, hrun, htasks, hnil⟩ := ih { s with queue, sent := s.sent ++ [pending] } rfl
      exact ⟨.responded :: later, t, hquiet, (Machine.run_cons_ok hstep).trans hrun, htasks, hnil⟩

/-! ### Main result -/

omit [Sha256] in
theorem within_init (bytesPerSec : Option UInt64) :
    (init bytesPerSec).Within ((bytesPerSec.map UInt64.toNat).getD 0) := by
  refine ⟨fun u hu => absurd hu List.not_mem_nil, ?_⟩
  cases bytesPerSec with
  | none => exact Or.inl ⟨rfl, rfl⟩
  | some rate =>
      by_cases hzero : rate = 0
      · subst hzero
        exact Or.inl ⟨rfl, rfl⟩
      · have hpos : 0 < rate.toNat := Nat.pos_of_ne_zero fun h => hzero (UInt64.toNat_inj.mp h)
        exact Or.inr ⟨_, if_neg hzero, hpos, LawfulRateLimiterLib.max_build _ _ _,
          LawfulRateLimiterLib.refill_build _ _ _⟩

omit [LawfulRateLimiterLib] [Sha256] in
theorem volume_accounted_eq (s : Uploads) :
    volume s.accounted = volume (s.sent ++ s.queue) + (s.tasks.map Upload.size).sum := by
  rw [accounted, volume, List.map_append, List.sum_append, List.map_map]
  rfl

omit [LawfulRateLimiterLib] [Sha256] in
theorem demand_le_of_within {s : Uploads} {rate : Nat} (hs : s.Within rate) :
    s.demand ≤ (s.tasks.map Upload.size).sum :=
  List.sum_le_sum fun u hu => (hs.tasks u hu).2

/-- **Every answer goes out once, and the limit holds.** Of every run, with any requests and stores, and
with tasks and intervals interleaved in any way: the responses that are sent, queued or waiting are those
the store gave, each once; after `n` intervals no more has been handed over than `n + 1` times what the
limit allows; and from every state the node can go on, without further requests, until all are sent. -/
theorem uploads_answer_all (bytesPerSec : Option UInt64) {events : List UploadEvent} {s : Uploads}
    (h : Machine.run step (init bytesPerSec) events = .ok s) :
    s.accounted.Perm (events.filterMap response?) ∧
      (∀ rate, bytesPerSec = some rate → rate ≠ 0 →
        volume (s.sent ++ s.queue) ≤ rate.toNat * (events.countP isInterval + 1)) ∧
      ∃ later t, later.filterMap response? = [] ∧ Machine.run step s later = .ok t ∧
        t.sent.Perm (events.filterMap response?) := by
  have haccounted : s.accounted.Perm (events.filterMap response?) := accounted_run h
  have hwithin := within_run h (within_init bytesPerSec)
  refine ⟨haccounted, fun rate hrate hne => ?_, ?_⟩
  · subst hrate
    have hpos : 0 < rate.toNat := Nat.pos_of_ne_zero fun h0 => hne (UInt64.toNat_inj.mp h0)
    have hspent : s.spent + (init (some rate)).demand ≤
        (init (some rate)).spent + s.demand + rate.toNat * events.countP isInterval :=
      (spent_run h (within_init (some rate)) hpos).2
    have hinit : (init (some rate)).spent = rate.toNat := by
      have hlimiter : (init (some rate)).limiter =
          some (RateLimiterLib.build rate.toNat rate.toNat rate.toNat) := if_neg hne
      rw [spent_eq hlimiter, LawfulRateLimiterLib.balance_build _ _ _ (le_refl _)]
      rfl
    have hdemand : (init (some rate)).demand = 0 := rfl
    have hsplit := volume_accounted_eq s
    have hle := demand_le_of_within hwithin
    have hvolume : volume s.accounted ≤ s.spent := Nat.le_add_left _ _
    rw [hinit, hdemand] at hspent
    rw [Nat.mul_add, Nat.mul_one]
    omega
  · obtain ⟨finish, t, hquiet, hrun, htasks⟩ := finish_tasks hwithin
    obtain ⟨send, t', hquiet', hrun', htasks', hqueue⟩ := send_queue t
    refine ⟨finish ++ send, t', ?_, (Machine.run_append hrun).trans hrun', ?_⟩
    · rw [List.filterMap_append, hquiet, hquiet']
      rfl
    · have hlater := accounted_run ((Machine.run_append hrun).trans hrun')
      rw [List.filterMap_append, hquiet, hquiet', List.append_nil, List.append_nil] at hlater
      have hsent : t'.accounted = t'.sent := by
        rw [accounted, hqueue, htasks', htasks]
        simp
      rw [hsent] at hlater
      exact hlater.trans haccounted

end Uploads

end

namespace Uploads

/-! A bucket that lets two bytes a second through, and a response of three. -/

structure SampleBucket where
  max : Nat
  refill : Nat
  balance : Nat

@[reducible] def sampleLimiterLib : RateLimiterLib where
  RateLimiter := SampleBucket
  build m i r := ⟨m, r, min i m⟩
  max := SampleBucket.max
  refill := SampleBucket.refill
  balance := SampleBucket.balance
  passInterval l := { l with balance := min l.max (l.balance + l.refill) }
  take l n := if n ≤ l.balance then some { l with balance := l.balance - n } else none

theorem sampleBucket_take {l l' : SampleBucket} {n : Nat} (htake : sampleLimiterLib.take l n = some l') :
    n ≤ l.balance ∧ { l with balance := l.balance - n } = l' :=
  Option.ite_some_none_eq_some.mp htake

theorem sampleLimiterLib_lawful : @LawfulRateLimiterLib sampleLimiterLib := by
  refine @LawfulRateLimiterLib.mk sampleLimiterLib (fun _ _ _ => rfl) (fun _ _ _ => rfl)
    (fun _ _ _ hle => Nat.min_eq_left hle) (fun _ => rfl) (fun _ => rfl) (fun _ => rfl) ?_ ?_ ?_
    fun l n hle => ⟨{ l with balance := l.balance - n }, if_pos hle⟩
  all_goals
    intro l n l' htake
    obtain ⟨hle, rfl⟩ := sampleBucket_take htake
  · rfl
  · rfl
  · exact Nat.sub_add_cancel hle

def sampleServing : NarStore :=
  ⟨[], 2, Table.ofPairs [(Hex.encode [0xab], ⟨"a.nar".toList, 3, ⟨2, 2, 1, []⟩, none, .manual, 0⟩)]⟩

def samplePending : PendingBlockResponse :=
  ⟨7, .blocks [⟨0, [1, 2]⟩, ⟨1, [3]⟩], ⟨Hex.encode [0xab], ⟨[1]⟩, [0, 1]⟩⟩

/-- The second block has to wait for an interval. -/
def sampleUploadEvents : List UploadEvent :=
  [.requested 7 ⟨[1]⟩ sampleServing (fun _ => some [1, 2, 3]) (.getBlocks [0xab] [0, 1]), .resumed 0,
    .granted 0 2, .resumed 0, .interval, .granted 0 1, .resumed 0, .responded]

theorem sampleUploadEvents_run :
    Machine.run (@step sampleLimiterLib sampleSha256) (@init sampleLimiterLib (some 2)) sampleUploadEvents =
      .ok (@Uploads.mk sampleLimiterLib (some ⟨2, 2, 1⟩) [] [] [samplePending]) := rfl

theorem uploads_answer_all_sample :
    ∃ later t, later.filterMap (@response? sampleSha256) = [] ∧
      Machine.run (@step sampleLimiterLib sampleSha256)
        (@Uploads.mk sampleLimiterLib (some ⟨2, 2, 1⟩) [] [] [samplePending]) later = .ok t ∧
      (@Uploads.sent sampleLimiterLib t).Perm (sampleUploadEvents.filterMap (@response? sampleSha256)) :=
  (@uploads_answer_all sampleLimiterLib sampleSha256 sampleLimiterLib_lawful (some 2) _ _
    sampleUploadEvents_run).2.2

end Uploads

end GuixP2p
