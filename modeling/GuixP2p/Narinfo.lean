import GuixP2p.Basic
import GuixP2p.Lib.Text

/-!
# GuixP2p.Narinfo

`src/narinfo.rs`: narinfos, their text format and the cache of those the daemon has
seen. The text before `Signature:` is the signed portion and the only source of the
store path, the NAR hash and the size; the URLs come from the text after it.

The parser cannot fail: a missing or malformed field takes its default.
-/

namespace GuixP2p

open GuixP2p.Lib

structure NarUrl where
  url : Text
  compression : Text
  fileSize : UInt64
  deriving DecidableEq

structure Narinfo where
  storePath : Text
  narHash : Text
  narSize : UInt64
  references : List Text
  deriver : Option Text
  urls : List NarUrl
  signedPortion : Text
  signature : Option Text
  deriving DecidableEq

/-! ### Parsing -/

/-- The trimmed key and value of a line `key: value`. -/
def keyValue (line : Text) : Option (Text × Text) :=
  (Text.splitOnce ':' line).map fun p => (Text.trim p.1, Text.trim p.2)

/-- The fields of the signed portion; a repeated key keeps its last value. -/
def signedFields (signedPortion : Text) : Table Text Text :=
  Table.ofPairs ((Text.lines signedPortion).filterMap fun line => keyValue (Text.trim line))

/-- The lines after the signature mark that are not signature lines. -/
def unsignedFields (remainder : Text) : List (Text × Text) :=
  (Text.lines remainder).filterMap fun line =>
    let line := Text.trim line
    if "Signature:".toList.isPrefixOf line then none else keyValue line

/-- The values of one key, in order. -/
def valuesOf (key : String) (fields : List (Text × Text)) : List Text :=
  (fields.filter fun f => decide (f.1 = key.toList)).map Prod.snd

/-- The URLs, each with the compression and the size at the same position of their own
lists. -/
def narUrls (fields : List (Text × Text)) : List NarUrl :=
  let compressions := valuesOf "Compression" fields
  let fileSizes := (valuesOf "FileSize" fields).map fun v => (Text.parseU64 v).getD 0
  (valuesOf "URL" fields).zipIdx.map fun (url, i) =>
    { url
      compression := compressions[i]?.getD "none".toList
      fileSize := fileSizes[i]?.getD 0 }

/-- The text of the first signature line. -/
def signatureLine (remainder : Text) : Option Text :=
  ((Text.lines remainder).find? fun l => "Signature:".toList.isPrefixOf (Text.trim l)).map fun l =>
    Text.trim ((Text.trim l).drop "Signature:".length)

def parseNarinfo (input : Text) : Narinfo :=
  let split := Text.splitAtFirst "Signature:".toList input
  let signedPortion := (split.map Prod.fst).getD (Text.trim input)
  let remainder := split.map Prod.snd
  let fields := signedFields signedPortion
  let unsigned := (remainder.map unsignedFields).getD []
  { storePath := (fields.lookup "StorePath".toList).getD []
    narHash := (fields.lookup "NarHash".toList).getD []
    narSize := ((fields.lookup "NarSize".toList).bind Text.parseU64).getD 0
    references := ((fields.lookup "References".toList).map Text.splitWhitespace).getD []
    deriver := fields.lookup "Deriver".toList
    urls := narUrls unsigned
    signedPortion
    signature := remainder.bind signatureLine }

/-! ### The cache -/

/-- Narinfos by hash part, each with the time it expires. -/
structure NarinfoCache where
  entries : Table Text (Instant × Narinfo)
  ttl : Instant

namespace NarinfoCache

def new (ttlSecs : Nat) : NarinfoCache := ⟨∅, ttlSecs * 1000⟩

def get (cache : NarinfoCache) (now : Instant) (hashPart : Text) : Option Narinfo :=
  match cache.entries.lookup hashPart with
  | none => none
  | some (expiry, info) => if expiry ≤ now then none else some info

def put (cache : NarinfoCache) (now : Instant) (hashPart : Text) (info : Narinfo) : NarinfoCache :=
  { cache with entries := cache.entries.insert hashPart (now + cache.ttl, info) }

theorem lookup_put (cache : NarinfoCache) (now : Instant) (h h' : Text) (info : Narinfo) :
    (cache.put now h info).entries.lookup h' =
      if h' = h then some (now + cache.ttl, info) else cache.entries.lookup h' := by
  unfold put
  by_cases heq : h' = h
  · rw [if_pos heq, heq, AList.lookup_insert]
  · rw [if_neg heq, AList.lookup_insert_ne heq]

/-- What the cache yields is one of its entries. -/
theorem lookup_of_get {cache : NarinfoCache} {now : Instant} {h : Text} {info : Narinfo}
    (hget : cache.get now h = some info) :
    ∃ expiry, cache.entries.lookup h = some (expiry, info) := by
  unfold get at hget
  cases hl : cache.entries.lookup h with
  | none => rw [hl] at hget; cases hget
  | some e =>
      rw [hl] at hget
      dsimp only at hget
      split at hget
      · cases hget
      · exact ⟨e.1, by rw [← Option.some.inj hget]⟩

end NarinfoCache

end GuixP2p
