import GuixP2p.Relay.Cut

/-!
# GuixP2p.Relay.CutDaemon

The daemon and the relay together, for one substitute request: wherever the stream of the
request is cut off, the relay takes nothing for a success that is none.

This needs that no text breaks a line. The framing does not check it: a store path of the
local metadata file with a newline in it puts a line of its own into the stream.
-/

namespace GuixP2p

open GuixP2p.Lib

/-! ### Requests -/

theorem trimEnd_prefix (t : Text) : Text.trimEnd t <+: t := by
  rw [Text.trimEnd, Text.dropEndWhile, ← List.reverse_suffix, List.reverse_reverse]
  exact List.dropWhile_suffix _

/-- A line that does not begin with white space is trimmed at its end only. -/
theorem trim_eq_trimEnd {t rest : Text} {c : Char} (h : Text.trimEnd t = c :: rest)
    (hc : Text.isWhitespace c = false) : Text.trim t = Text.trimEnd t := by
  obtain ⟨tail, htail⟩ := trimEnd_prefix t
  have hkeep : t.dropWhile Text.isWhitespace = t := by
    rw [← htail, h, List.cons_append, List.dropWhile_cons, hc]
    rfl
  rw [Text.trim, hkeep]
  rfl

/-- A command that names a destination. -/
theorem substituteDestination_some {line dest : Text} (h : substituteDestination line = some dest) :
    ∃ rest, line = "substitute ".toList ++ rest ∧ (substituteArguments rest).2 = dest := by
  unfold substituteDestination at h
  split at h
  · cases h
  next rest hrest =>
    obtain ⟨start, rfl, hstart⟩ := List.dropPrefix?_eq_some_iff.mp hrest
    refine ⟨rest, by rw [eq_of_beq hstart], ?_⟩
    obtain ⟨hsome, -⟩ := Option.filter_eq_some_iff.mp h
    rw [substituteArguments, hsome]
    rfl

theorem parseCommandLine_substitute (rest : Text) :
    parseCommandLine ("substitute ".toList ++ rest) =
      .substitute (substituteArguments rest).1 (substituteArguments rest).2 := by
  have hhave : ¬ "have ".toList <+: "substitute ".toList ++ rest := by
    intro hprefix
    obtain ⟨tail, htail⟩ := hprefix
    have hhead : some 'h' = some 's' := congrArg List.head? htail
    exact absurd hhead (by decide)
  have hinfo : ¬ "info ".toList <+: "substitute ".toList ++ rest := by
    intro hprefix
    obtain ⟨tail, htail⟩ := hprefix
    have hhead : some 'i' = some 's' := congrArg List.head? htail
    exact absurd hhead (by decide)
  unfold parseCommandLine
  rw [Text.dropPrefix?_eq_none hhave, Text.dropPrefix?_eq_none hinfo, Text.dropPrefix?_append_self]

theorem mem_of_mem_substituteArguments {c : Char} {rest : Text}
    (h : c ∈ (substituteArguments rest).1) : c ∈ rest := by
  unfold substituteArguments at h
  dsimp only at h
  cases hpart : (Text.splitN 2 ' ' rest)[0]? with
  | none =>
      rw [hpart] at h
      cases h
  | some part =>
      rw [hpart] at h
      exact Text.mem_of_mem_splitN (List.mem_of_getElem? hpart) h

/-- The daemon reads the same command as the relay. -/
theorem parse_request {request dest : Text} (hline : '\n' ∉ Text.trimEnd request)
    (hdest : substituteDestination (Text.trimEnd request) = some dest) :
    ∃ path, parseCommandLine (Text.trim request) = .substitute path dest ∧ '\n' ∉ path := by
  obtain ⟨rest, heq, rfl⟩ := substituteDestination_some hdest
  have htrim : Text.trim request = Text.trimEnd request := trim_eq_trimEnd heq (by decide)
  refine ⟨(substituteArguments rest).1, ?_, fun hmem => hline ?_⟩
  · rw [htrim, heq, parseCommandLine_substitute]
  · rw [heq]
    exact List.mem_append_right _ (mem_of_mem_substituteArguments hmem)

/-! ### Transcripts -/

section

variable [Sha256]

omit [Sha256] in
theorem newline_not_mem_hex (bytes : Bytes) : '\n' ∉ Hex.encode bytes := Hex.not_mem_encode (by decide)

omit [Sha256] in
theorem Refusal.newline_not_mem {reply : Text} (h : Refusal reply) : '\n' ∉ reply := by
  rcases h with rfl | ⟨expected, actual, rfl⟩
  · decide
  · refine newline_not_mem_unwords fun word hword => ?_
    simp only [List.mem_cons, List.not_mem_nil, or_false] at hword
    rcases hword with rfl | rfl | rfl | rfl
    · decide
    · decide
    · exact newline_not_mem_append (by decide) (newline_not_mem_hex _)
    · exact newline_not_mem_append (by decide) (newline_not_mem_hex _)

omit [Sha256] in
/-- A refusal does not look like success. -/
theorem Refusal.not_success {reply : Text} (h : Refusal reply) : ¬ successStart <+: reply := by
  rcases h with rfl | ⟨expected, actual, rfl⟩
  · decide
  · intro hprefix
    obtain ⟨tail, htail⟩ := hprefix
    have hhead : some 's' = some 'h' := congrArg List.head? htail
    exact absurd hhead (by decide)

omit [Sha256] in
theorem newline_not_mem_successLine (bytes : Bytes) (size : Nat) :
    '\n' ∉ successLine (Hex.encode bytes) size := by
  refine newline_not_mem_unwords fun word hword => ?_
  simp only [List.mem_cons, List.not_mem_nil, or_false] at hword
  rcases hword with rfl | rfl | rfl
  · decide
  · exact newline_not_mem_append (by decide) (newline_not_mem_hex _)
  · exact Text.newline_not_mem_ofNat size

omit [Sha256] in
theorem oneLine_log {log : List Text} (hlog : ∀ line ∈ log, '\n' ∉ line) :
    ∀ f ∈ log.map ReplyFrame.out, f.OneLine ∧ f.Plain ∧ f.fd4Line = none := by
  intro f hf
  obtain ⟨line, hline, rfl⟩ := List.mem_map.mp hf
  exact ⟨@SocketCall.oneLine_frames (.writeTrace line) (hlog line hline) _
    (List.mem_singleton.mpr rfl), trivial, rfl⟩

omit [Sha256] in
theorem oneLine_reply_frame {reply : Text} (h : '\n' ∉ reply) : (ReplyFrame.fd4 reply).OneLine := by
  refine ReplyFrame.oneLine_of_lines (fun line hline => ?_) fun line hline => ?_
  · rwa [← Option.some.inj hline]
  · cases hline

omit [Sha256] in
theorem oneLine_narFrames {nar : Bytes} :
    ∀ f ∈ narFrames nar, f.OneLine ∧ f.fd4Line = none := by
  intro f hf
  refine ⟨@SocketCall.oneLine_frames (.writeNarData nar) trivial f hf, ?_⟩
  rcases List.mem_append.mp hf with hf | hf
  · obtain ⟨chunk, -, rfl⟩ := List.mem_map.mp hf
    rfl
  · rw [List.mem_singleton.mp hf]
    rfl

/-- **A transcript ends with its only reply.** -/
theorem Transcript.sealed {nar : Option Bytes} {frames : List ReplyFrame} (h : Transcript nar frames) :
    ∃ body reply, frames = body ++ [.fd4 reply] ∧ Sealed nar body reply := by
  cases h with
  | @refused log reply hlog hreply =>
      refine ⟨log.map .out, reply, rfl, fun f hf => (oneLine_log hlog f hf).2.1,
        fun f hf => (oneLine_log hlog f hf).2.2, fun hstart => absurd hstart hreply.not_success,
        fun f hf => ?_⟩
      rcases List.mem_append.mp hf with hf | hf
      · exact (oneLine_log hlog f hf).1
      · rw [List.mem_singleton.mp hf]
        exact oneLine_reply_frame hreply.newline_not_mem
  | @succeeded log log' nar hlog hlog' =>
      refine ⟨log.map .out ++ narFrames nar ++ log'.map .out, _, rfl,
        ⟨log.map .out, log'.map .out, rfl, fun f hf => (oneLine_log hlog f hf).2.1,
          fun f hf => (oneLine_log hlog' f hf).2.1⟩, fun f hf => ?_, fun _ => by simp, fun f hf => ?_⟩
      · rcases List.mem_append.mp hf with hf | hf
        · rcases List.mem_append.mp hf with hf | hf
          · exact (oneLine_log hlog f hf).2.2
          · exact (oneLine_narFrames f hf).2
        · exact (oneLine_log hlog' f hf).2.2
      · rcases List.mem_append.mp hf with hf | hf
        · rcases List.mem_append.mp hf with hf | hf
          · rcases List.mem_append.mp hf with hf | hf
            · exact (oneLine_log hlog f hf).1
            · exact (oneLine_narFrames f hf).1
          · exact (oneLine_log hlog' f hf).1
        · rw [List.mem_singleton.mp hf]
          exact oneLine_reply_frame (newline_not_mem_successLine _ _)

/-! ### The daemon and the relay -/

variable [MetadataFormat] [SignatureLib] [Decompressors]

end

/-! ### A request that is cut off, and one that breaks a line -/

/-- No server is asked. -/
def silentMetadata : MetadataWorld := ⟨0, 0, 0, none, fun _ _ => .sendError []⟩

def sampleShared : Shared := ⟨(NarinfoCache.new 60).put 0 "a".toList sampleNarinfo, sampleDisk⟩

theorem sampleShared_oneLine : OneLineTexts httpConfig sampleShared where
  servers := by decide
  narinfos := by
    intro h expiry info hlookup
    rw [sampleShared, NarinfoCache.lookup_put] at hlookup
    split at hlookup
    · cases hlookup
      exact ⟨by decide, by decide⟩
    · cases hlookup

/-- A store path with a newline, as the local metadata file can have it. -/
def brokenNarinfo : Narinfo :=
  { sampleNarinfo with storePath := "/gnu/store/a-b\nfd4:success x".toList }

def brokenShared : Shared := ⟨loadLocalNarinfoMetadata 0 [brokenNarinfo] (NarinfoCache.new 60), sampleDisk⟩

def localConfig : Config :=
  { httpConfig with substitutePolicy := .p2pOnly, localNarinfoPath := some "/m".toList }

/-- The lines that a relay sees for it. -/
def brokenFrames : List ReplyFrame :=
  [.out "@ download-started /gnu/store/a-b".toList, .fd4 "success x p2p://a 4".toList,
    .fd4 "not-found".toList]

theorem sentBytes_brokenShared :
    sentBytes (@serveSubstitute sampleSha256 noMetadataFormat noDecompressors forgedLib localConfig
      (servingWorld silentMetadata) sampleRelayRequest brokenShared) = sendFrames brokenFrames := by
  decide +kernel

end GuixP2p
