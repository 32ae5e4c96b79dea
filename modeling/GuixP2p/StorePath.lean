import GuixP2p.Basic
import GuixP2p.Lib.Text

/-!
# GuixP2p.StorePath

`src/store_path.rs`: the hash part of a store path `/gnu/store/<hash>-<name>`.
-/

namespace GuixP2p

open GuixP2p.Lib

def storePrefix : Text := "/gnu/store/".toList

/-- Return the hash prefix from a Guix store path. -/
def hashPart (storePath : Text) : Except Text Text :=
  match storePath.dropPrefix? storePrefix with
  | none => .error ("not a store path: ".toList ++ storePath)
  | some rest =>
    match Text.splitOnce '-' rest with
    | none => .error ("no name separator in: ".toList ++ storePath)
    | some (hash, _) => .ok hash

/-- Convert narinfo basenames to full `/gnu/store/...` paths. -/
def fromNarinfoPath (pathOrBasename : Text) : Text :=
  if pathOrBasename = [] then []
  else if storePrefix.isPrefixOf pathOrBasename then pathOrBasename
  else storePrefix ++ pathOrBasename

end GuixP2p
