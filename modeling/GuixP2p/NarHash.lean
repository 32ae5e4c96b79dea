import GuixP2p.Basic
import GuixP2p.Lib.Hex
import GuixP2p.Lib.Text

/-!
# GuixP2p.NarHash

`src/nar_hash.rs`: the SHA-256 digest in a narinfo's `NarHash` field, in hexadecimal or in
Nix's base 32.

The base-32 decoder makes a buffer of `5 n / 8` bytes for `n` characters and writes the
quintets from the last character on. The byte a quintet starts in is indexed without a
check, the byte it spills into with one: for some lengths the first of the text starts in
a byte that the buffer does not have.
-/

namespace GuixP2p

open GuixP2p.Lib

/-- `out[offset] |= value`. -/
def orByte (out : Bytes) (offset : Nat) (value : UInt8) : Except Panic Bytes :=
  match out[offset]? with
  | none => .error .indexOutOfBounds
  | some byte => .ok (out.set offset (byte ||| value))

/-- The same for a byte that need not be there. -/
def setByte (out : Bytes) (offset : Nat) (value : UInt8) : Bytes :=
  match out[offset]? with
  | none => out
  | some byte => out.set offset (byte ||| value)

/-- A quintet that lies in two bytes. -/
def splitQuintet (out : Bytes) (offset : Nat) (low high : UInt8) : Except Panic Bytes :=
  match orByte out offset low with
  | .error p => .error p
  | .ok out => .ok (setByte out (offset + 1) high)

def setNixBase32Quintet (out : Bytes) (index : Nat) (value : UInt8) : Except Panic Bytes :=
  let offset := index * 5 / 8
  let value := value &&& 0x1f
  match index % 8 with
  | 0 => orByte out offset value
  | 1 => splitQuintet out offset ((value &&& 0x07) <<< 5) (value >>> 3)
  | 2 => orByte out offset (value <<< 2)
  | 3 => splitQuintet out offset ((value &&& 0x01) <<< 7) (value >>> 1)
  | 4 => splitQuintet out offset ((value &&& 0x0f) <<< 4) (value >>> 4)
  | 5 => orByte out offset (value <<< 1)
  | 6 => splitQuintet out offset ((value &&& 0x03) <<< 6) (value >>> 2)
  | _ => orByte out offset (value <<< 3)

/-- The digits of Nix's base 32. -/
def nixAlphabet : Bytes := Text.utf8 "0123456789abcdfghijklmnpqrsvwxyz".toList

/-- The loop over the bytes of the text, last one first. -/
def decodeQuintets : List UInt8 → Nat → Bytes → Except Panic (Option Bytes)
  | [], _, out => .ok (some out)
  | chr :: rest, index, out =>
    match nixAlphabet.idxOf? chr with
    | none => .ok none
    | some value =>
      match setNixBase32Quintet out index (UInt8.ofNat value) with
      | .error p => .error p
      | .ok out => decodeQuintets rest (index + 1) out

def decodeNixBase32 (input : Text) : Except Panic (Option Bytes) :=
  let bytes := Text.utf8 input
  decodeQuintets bytes.reverse 0 (List.replicate (bytes.length * 5 / 8) 0)

/-- `try_into` a `[u8; 32]`. -/
def toDigest (bytes : Bytes) : Option Digest :=
  if h : bytes.toArray.size = 32 then some ⟨bytes.toArray, h⟩ else none

/-- Decode a narinfo `NarHash` field into raw SHA-256 bytes. -/
def sha256Bytes (narHash : Text) : Except Panic (Option Digest) :=
  let hash := (narHash.dropPrefix? "sha256:".toList).getD narHash
  if (Text.utf8 hash).length = 64 ∧ hash.all fun c => (Hex.digitValue c).isSome then
    .ok ((Hex.decode hash).bind toDigest)
  else
    match decodeNixBase32 hash with
    | .error p => .error p
    | .ok bytes => .ok (bytes.bind toDigest)

end GuixP2p
