import Mathlib.Data.Finset.Basic
import GuixP2p.Lib.Table

/-!
# GuixP2p.Basic

The vocabulary shared by every part of the daemon: byte strings, texts, SHA-256
digests, peer identities, and the panics a model function can end in.

The daemon computes SHA-256 with an external crate. `Sha256` packages that
function as an inferred model, so that a result holds for every digest function
unless it says otherwise; nothing in the daemon depends on how it is computed.
-/

namespace GuixP2p

/-- A Rust `Vec<u8>` or `&[u8]`. -/
abbrev Bytes := List UInt8

/-- A Rust `String` or `&str`. -/
abbrev Text := List Char

instance (priority := high) : LawfulBEq Text := inferInstance

/-- A Rust `[u8; 32]`. -/
abbrev Digest := Vector UInt8 32

/-- The digest function of the `sha2` crate. -/
class Sha256 where
  digest : Bytes → Digest

/-- A libp2p peer identity: the multihash of its public key. -/
structure PeerId where
  multihash : Bytes
  deriving DecidableEq, Repr

/-- A reading of tokio's monotonic clock, in milliseconds. -/
abbrev Instant := Nat

/-- The ways a model function can panic. -/
inductive Panic
  /-- `v[i]` with `i` not below `v.len()`. -/
  | indexOutOfBounds
  /-- `&v[a..b]` with `a > b` or `b > v.len()`. -/
  | sliceOutOfRange
  /-- A failed `assert!`. -/
  | assertionFailed
  /-- `unwrap` or `unwrap_err` of the other variant. -/
  | unwrapFailed
  deriving DecidableEq, Repr

end GuixP2p
