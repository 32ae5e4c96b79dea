import GuixP2p.Daemon.Advertise
import GuixP2p.Daemon.Stream

/-!
# GuixP2p.Daemon.QueryStream

A query on the socket, down to the bytes: `handle_socket_connection` of `src/daemon.rs` in a query
mode. The lines of a reply are buffered and sent when the query is done, so a query that panics is
not answered at all.

On a connection that insists on peers, `info` answers from the cache alone: `infoAnswers` is what
it answers with.
-/

namespace GuixP2p

open GuixP2p.Lib

/-! ### What is sent -/

/-- An effect of a handler while it writes a reply. -/
def Effect.InReply : Effect → Prop
  | .line _ => True
  | .narinfo _ _ => True
  | _ => False

/-- The lines are buffered, and nothing is sent. -/
theorem foldl_perform_replies {τ : List Effect} (hτ : ∀ e ∈ τ, e.InReply) (w : SocketWriter) :
    τ.foldl SocketWriter.perform w = ((repliesOf τ).map SocketCall.writeLine).foldl SocketCall.run w ∧
      (τ.foldl SocketWriter.perform w).sent = w.sent := by
  induction τ generalizing w with
  | nil => exact ⟨rfl, rfl⟩
  | cons e τ ih =>
      rw [List.forall_mem_cons] at hτ
      cases e with
      | line text =>
          obtain ⟨hrun, hsent⟩ := ih hτ.2 (w.writeLine text)
          refine ⟨hrun, hsent.trans ?_⟩
          unfold SocketWriter.writeLine
          split
          · rfl
          · rfl
      | narinfo h info => exact ih hτ.2 w
      | replyEnd => exact absurd hτ.1 id
      | trace text => exact absurd hτ.1 id
      | flush => exact absurd hτ.1 id
      | nar chunk => exact absurd hτ.1 id
      | narEnd => exact absurd hτ.1 id
      | write w' => exact absurd hτ.1 id
      | removeDestination path => exact absurd hτ.1 id
      | startProviding hash => exact absurd hτ.1 id

/-- The lines of the reply to a query, if it is answered. -/
def repliedLines (o : Outcome Shared Effect Panic Unit) : List Text :=
  match o.result with
  | .ok _ => repliesOf o.trace
  | .error _ => []

/-- **The bytes of a reply.** -/
theorem sentBytes_reply {m : Action Shared Effect Panic Unit} {s : Shared} (hm : ∀ e ∈ (m s).trace, e.InReply) :
    sentBytes ((m >>= fun _ => Action.emit .replyEnd) s) = match (m s).result with
      | .ok _ => produced ((repliedLines (m s)).map .writeLine ++ [.writeEnd])
      | .error _ => [] := by
  obtain ⟨hrun, hsent⟩ := foldl_perform_replies hm .new
  unfold sentBytes repliedLines
  cases hr : (m s).result with
  | error e =>
      rw [Action.bind_of_error hr]
      exact hsent
  | ok u =>
      rw [Action.bind_of_ok hr]
      dsimp only
      rw [List.foldl_append, hrun]
      unfold produced
      rw [List.foldl_append]
      rfl

/-! ### The handlers -/

/-- What was written for a path of a `have`: the path, or nothing. -/
structure WroteHave (path : Text) (τ : List Effect) : Prop where
  inReply : ∀ e ∈ τ, e.InReply
  lines : (repliesOf τ).Sublist [path]

theorem WroteHave.of_yielded (path h : Text) (r : Option Narinfo) : WroteHave path (yielded h r) := by
  cases r with
  | none => exact ⟨fun e he => absurd he List.not_mem_nil, List.nil_sublist _⟩
  | some info =>
      refine ⟨fun e he => ?_, List.nil_sublist _⟩
      rw [List.mem_singleton.mp he]
      trivial

theorem WroteHave.append_line (path h : Text) (r : Option Narinfo) :
    WroteHave path (yielded h r ++ [.line path]) := by
  have hyielded := WroteHave.of_yielded path h r
  refine ⟨fun e he => ?_, ?_⟩
  · rcases List.mem_append.mp he with he | he
    · exact hyielded.inReply e he
    · rw [List.mem_singleton.mp he]
      trivial
  · have hnone : repliesOf (yielded h r) = [] := by
      cases r with
      | none => rfl
      | some info => rfl
    rw [repliesOf_append, hnone]
    exact List.Sublist.refl _

section

variable [SignatureLib] [Sha256] {cfg : Config}

theorem handleHavePath_wrote (cfg : Config) (world : QueryWorld) (path : Text) :
    Action.Triple (fun _ τ => τ = []) (fun _ _ => WroteHave path) (fun _ => WroteHave path)
      (handleHavePath cfg world path) := by
  have hnothing : WroteHave path [] := WroteHave.of_yielded path [] none
  cases hpath : hashPart path with
  | error err =>
      rw [handleHavePath, hpath]
      exact Action.Triple.pure fun _ τ hτ => hτ ▸ hnothing
  | ok h =>
      by_cases hpolicy : cfg.substitutePolicy = .p2pOnly
      · simp only [handleHavePath, hpath, hpolicy]
        refine Action.Triple.bind ((fetchSharedNarinfo_triple cfg world.metadata).weaken (fun _ _ hτ => hτ)
          (fun r _ τ (hτ : τ = yielded h r) => hτ) fun _ τ hτ => hτ ▸ hnothing) fun r => ?_
        cases r with
        | none => exact Action.Triple.pure fun _ τ hτ => hτ ▸ hnothing
        | some info =>
            refine Action.Triple.bind (Q := fun _ _ τ => τ = yielded h (some info))
              (Action.Triple.ofExcept (fun _ _ _ _ hτ => hτ) fun _ τ hτ => hτ ▸ WroteHave.of_yielded path h _)
              fun digest => ?_
            cases digest with
            | none => exact Action.Triple.pure fun _ τ hτ => hτ ▸ WroteHave.of_yielded path h _
            | some d =>
                dsimp only
                split
                · exact Action.Triple.emit fun _ τ hτ => hτ ▸ WroteHave.append_line path h _
                · exact Action.Triple.pure fun _ τ hτ => hτ ▸ WroteHave.of_yielded path h _
      · rw [handleHavePath_eq_advertise hpath hpolicy]
        refine Action.Triple.bind ((lookupNarinfo_triple cfg world.metadata).weaken (fun _ _ hτ => hτ)
          (fun r _ τ (hτ : τ = yielded h r) => hτ) fun _ τ hτ => hτ ▸ hnothing) fun r => ?_
        cases r with
        | none => exact Action.Triple.pure fun _ τ hτ => hτ ▸ hnothing
        | some info =>
            refine Action.Triple.bind (Q := fun _ _ => WroteHave path)
              (Action.Triple.emit fun _ τ hτ => hτ ▸ WroteHave.append_line path h _) fun _ => ?_
            split
            · refine Action.Triple.bind (Q := fun _ _ => WroteHave path)
                (Action.Triple.ofExcept (fun _ _ _ _ hτ => hτ) fun _ _ hτ => hτ) fun _ => ?_
              exact Action.Triple.pure fun _ _ hτ => hτ
            · exact Action.Triple.pure fun _ _ hτ => hτ

/-- **`have` replies with some of its paths**, in their order. -/
theorem handlePaths_have (paths : List (QueryWorld × Text)) (s : Shared) :
    (∀ e ∈ (handlePaths (handleHavePath cfg) paths s).trace, e.InReply) ∧
      (repliesOf (handlePaths (handleHavePath cfg) paths s).trace).Sublist (paths.map Prod.snd) := by
  induction paths generalizing s with
  | nil => exact ⟨fun e he => absurd he List.not_mem_nil, List.Sublist.refl _⟩
  | cons p rest ih =>
      have hfirst := (handleHavePath_wrote cfg p.1 p.2).ends (s := s) rfl
      show (∀ e ∈ ((handleHavePath cfg p.1 p.2 >>= fun _ => handlePaths (handleHavePath cfg) rest) s).trace, _) ∧
        (repliesOf ((handleHavePath cfg p.1 p.2 >>= fun _ => handlePaths (handleHavePath cfg) rest) s).trace).Sublist _
      cases hr : (handleHavePath cfg p.1 p.2 s).result with
      | error e =>
          rw [Action.bind_of_error hr]
          exact ⟨hfirst.inReply, hfirst.lines.trans (List.singleton_sublist.mpr List.mem_cons_self)⟩
      | ok u =>
          obtain ⟨hreply, hlines⟩ := ih (handleHavePath cfg p.1 p.2 s).state
          rw [Action.bind_of_ok hr]
          refine ⟨fun e he => ?_, ?_⟩
          · rcases List.mem_append.mp he with he | he
            · exact hfirst.inReply e he
            · exact hreply e he
          · rw [repliesOf_append]
            exact hfirst.lines.append hlines

/-- The narinfo that `info` answers with from the cache. -/
def infoAnswer (s : Shared) (p : QueryWorld × Text) : Except Panic (Option Narinfo) :=
  match hashPart p.2 with
  | .error _ => .ok none
  | .ok h =>
    match s.narinfos.get p.1.metadata.lookupAt h with
    | none => .ok none
    | some info =>
      match sha256Bytes info.narHash with
      | .error e => .error e
      | .ok none => .ok none
      | .ok (some _) => .ok (some info)

/-- The narinfos that `info` answers with from the cache, unless it panics. -/
def infoAnswers (s : Shared) : List (QueryWorld × Text) → Except Panic (List Narinfo)
  | [] => .ok []
  | p :: rest =>
    match infoAnswer s p with
    | .error e => .error e
    | .ok r =>
      match infoAnswers s rest with
      | .error e => .error e
      | .ok infos => .ok (r.toList ++ infos)

/-- `info` for one path, on a connection that insists on peers. -/
theorem handleInfoPath_p2pOnly (hpolicy : cfg.substitutePolicy = .p2pOnly) (p : QueryWorld × Text) (s : Shared) :
    (∀ e ∈ (handleInfoPath cfg p.1 p.2 s).trace, e.InReply) ∧ (handleInfoPath cfg p.1 p.2 s).state = s ∧
      match infoAnswer s p with
      | .error e => (handleInfoPath cfg p.1 p.2 s).result = .error e
      | .ok r => (handleInfoPath cfg p.1 p.2 s).result = .ok () ∧
          repliesOf (handleInfoPath cfg p.1 p.2 s).trace = r.toList.flatMap infoLines := by
  unfold infoAnswer
  cases hpath : hashPart p.2 with
  | error err =>
      rw [handleInfoPath, hpath]
      exact ⟨fun e he => absurd he List.not_mem_nil, rfl, rfl, rfl⟩
  | ok h =>
      dsimp only
      cases hget : s.narinfos.get p.1.metadata.lookupAt h with
      | none =>
          have hnone : handleInfoPath cfg p.1 p.2 s = ⟨[], s, .ok ()⟩ := by
            simp [handleInfoPath, hpath, infoNarinfo, hpolicy, cachedNarinfo, hget, bind, pure, Action.bind,
              Action.pure, Action.get]
          rw [hnone]
          exact ⟨fun e he => absurd he List.not_mem_nil, rfl, rfl, rfl⟩
      | some info =>
          rw [handleInfoPath_of_get hpath hget]
          have hmem : ∀ (lines : List Text), ∀ e ∈ Effect.narinfo h info :: lines.map Effect.line, e.InReply := by
            intro lines e he
            rcases List.mem_cons.mp he with rfl | he
            · trivial
            · obtain ⟨line, -, rfl⟩ := List.mem_map.mp he
              trivial
          dsimp only
          cases sha256Bytes info.narHash with
          | error e => exact ⟨hmem [], rfl, rfl⟩
          | ok digest =>
              cases digest with
              | none => exact ⟨hmem [], rfl, rfl, rfl⟩
              | some d =>
                  refine ⟨hmem _, rfl, rfl, ?_⟩
                  show repliesOf ((infoLines info).map Effect.line) = _
                  rw [repliesOf_lines]
                  simp

/-- **`info` on a connection that insists on peers** replies with the records of `infoAnswers`. -/
theorem handlePaths_info (hpolicy : cfg.substitutePolicy = .p2pOnly) (paths : List (QueryWorld × Text)) (s : Shared) :
    (∀ e ∈ (handlePaths (handleInfoPath cfg) paths s).trace, e.InReply) ∧
      match infoAnswers s paths with
      | .error e => (handlePaths (handleInfoPath cfg) paths s).result = .error e
      | .ok infos => (handlePaths (handleInfoPath cfg) paths s).result = .ok () ∧
          repliesOf (handlePaths (handleInfoPath cfg) paths s).trace = infos.flatMap infoLines := by
  induction paths with
  | nil => exact ⟨fun e he => absurd he List.not_mem_nil, rfl, rfl⟩
  | cons p rest ih =>
      obtain ⟨hfirst, hstate, hanswer⟩ := handleInfoPath_p2pOnly hpolicy p s
      obtain ⟨hrest, hanswers⟩ := ih
      have hcons : handlePaths (handleInfoPath cfg) (p :: rest) =
          handleInfoPath cfg p.1 p.2 >>= fun _ => handlePaths (handleInfoPath cfg) rest := rfl
      rw [hcons]
      unfold infoAnswers
      cases hp : infoAnswer s p with
      | error e =>
          rw [hp] at hanswer
          rw [Action.bind_of_error hanswer]
          exact ⟨hfirst, rfl⟩
      | ok r =>
          rw [hp] at hanswer
          rw [Action.bind_of_ok hanswer.1, hstate]
          dsimp only
          refine ⟨fun e he => ?_, ?_⟩
          · rcases List.mem_append.mp he with he | he
            · exact hfirst e he
            · exact hrest e he
          · cases hrests : infoAnswers s rest with
            | error e =>
                rw [hrests] at hanswers
                exact hanswers
            | ok infos =>
                rw [hrests] at hanswers
                refine ⟨hanswers.1, ?_⟩
                rw [repliesOf_append, hanswer.2, hanswers.2, List.flatMap_append]

/-! ### Connections -/

omit [SignatureLib] [Sha256] in
/-- The modes that insist on peers. -/
def forceP2pOnly (mode : Text) : Bool :=
  decide (mode = "mode: query-p2p-only".toList ∨ mode = "mode: substitute-p2p-only".toList)

/-- One turn of the loop of `handle_socket_connection`, in a query mode: a `substitute` command is
skipped. -/
def serveQuery (cfg : Config) (worlds : Nat → QueryWorld) (modeLine line : Text) :
    Action Shared Effect Panic Unit :=
  let cfg := cfg.forConnection (forceP2pOnly (Text.trim modeLine))
  match parseCommandLine (Text.trim line) with
  | .haves paths => handleHave cfg (paths.mapIdx fun k path => (worlds k, path))
  | .info paths => handleInfo cfg (paths.mapIdx fun k path => (worlds k, path))
  | .substitute _ _ => pure ()

end

end GuixP2p
