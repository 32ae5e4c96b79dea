import GuixP2p.Narinfo
import GuixP2p.Lib.Hex
import GuixP2p.Lib.Sexp

/-!
# GuixP2p.Narinfo.Signature

The signature check of `src/narinfo.rs`. A signature is an S-expression; it is
accepted if its `hash` is the digest of the signed portion, its `q` is an authorized
key and libgcrypt accepts its `data`, `sig-val` and `public-key`.

Each of the five is the result of a search in the *whole* expression. libgcrypt looks
at the `q` inside the `public-key` and at the `hash` inside the `data` it is given, so
an expression that has another `q` or another `hash` in front of them is tested for
one key and one hash and checked under others. `sound_iff_aligned` says that this is
the only way the check goes wrong.

The decoders and the cryptography are external: `SignatureLib` packages them.
-/

namespace GuixP2p

open GuixP2p.Lib

/-- What the `base64`, `libgcrypt` and `ed25519-dalek` crates compute. -/
class SignatureLib where
  base64Decode : Text → Option Bytes
  /-- `gcry_sexp_new` with format detection. -/
  sexpNew : Bytes → Option Sexp
  /-- `gcry_pk_verify` of a `sig-val`, a `data` and a `public-key` expression. -/
  pkVerify : List Sexp → List Sexp → List Sexp → Bool
  /-- `VerifyingKey::from_bytes` succeeds. -/
  validKey : Digest → Bool

variable [SignatureLib]

/-- An Ed25519 public key; only valid ones can be built. -/
structure VerifyingKey where
  bytes : Digest
  valid : SignatureLib.validKey bytes = true

instance : DecidableEq VerifyingKey := fun a b =>
  decidable_of_iff (a.bytes = b.bytes) ⟨fun h => by cases a; cases b; cases h; rfl, fun h => h ▸ rfl⟩

/-! ### The access control list -/

inductive AclError
  | io
  | unterminated
  | invalidHex
  | wrongLength (bytes : Nat)
  | invalidKey
  deriving DecidableEq

/-- The key of one `(q #…#)` entry. -/
def aclKey (hex : Text) : Except AclError VerifyingKey :=
  match Hex.decode hex with
  | none => .error .invalidHex
  | some bytes =>
    if hlen : bytes.toArray.size = 32 then
      if hvalid : SignatureLib.validKey ⟨bytes.toArray, hlen⟩ = true then .ok ⟨_, hvalid⟩
      else .error .invalidKey
    else .error (.wrongLength bytes.length)

/-- The loop of `load_acl_keys`. Every turn consumes an entry, so the length of the
text bounds the number of turns. -/
def aclKeys : Nat → Text → Except AclError (List VerifyingKey)
  | 0, _ => .ok []
  | fuel + 1, raw =>
    match Text.splitAtFirst "(q #".toList raw with
    | none => .ok []
    | some (_, found) =>
      match Text.splitOnce '#' (found.drop 4) with
      | none => .error .unterminated
      | some (hex, rest) =>
        match aclKey hex with
        | .error e => .error e
        | .ok key =>
          match aclKeys fuel rest with
          | .error e => .error e
          | .ok keys => .ok (key :: keys)

/-- Load authorized public keys from the Guix ACL file. -/
def loadAclKeys (file : Option Text) : Except AclError (List VerifyingKey) :=
  match file with
  | none => .error .io
  | some raw => aclKeys (raw.length + 1) raw

/-! ### Verification -/

/-- Search for a token given as text. -/
def findToken (signature : Sexp) (token : String) : Option (List Sexp) :=
  signature.findToken (Text.utf8 token.toList)

/-- The digest in the first `(hash sha256 …)` of an expression. -/
def signedHash (s : Sexp) : Option Bytes :=
  match findToken s "hash" with
  | none => none
  | some hash =>
    if Sexp.nthData hash 1 = some (Text.utf8 "sha256".toList) then Sexp.nthData hash 2 else none

/-- The key in the first `(q …)` of an expression. -/
def signedKey (s : Sexp) : Option Bytes := (findToken s "q").bind fun q => Sexp.nthData q 1

/-- `GcryptSexp::verify`. -/
def gcryptVerify (signature : Sexp) : Bool :=
  match findToken signature "data", findToken signature "sig-val",
      findToken signature "public-key" with
  | some data, some sigVal, some publicKey => SignatureLib.pkVerify sigVal data publicKey
  | _, _, _ => false

/-- The S-expression in a signature `1;host;base64`. -/
def signatureSexp (narinfo : Narinfo) : Option Sexp :=
  match narinfo.signature with
  | none => none
  | some sig =>
    match Text.splitN 3 ';' sig with
    | [version, _, b64] =>
      if version = "1".toList then
        match SignatureLib.base64Decode b64 with
        | none => none
        | some bytes => SignatureLib.sexpNew bytes
      else none
    | _ => none

/-- A well-formed signature holds the expression its base64 part encodes. -/
theorem signatureSexp_eq {narinfo : Narinfo} {sig host b64 : Text} {bytes : Bytes} {s : Sexp}
    (hsig : narinfo.signature = some sig)
    (hparts : Text.splitN 3 ';' sig = ["1".toList, host, b64])
    (hdecode : SignatureLib.base64Decode b64 = some bytes)
    (hsexp : SignatureLib.sexpNew bytes = some s) : signatureSexp narinfo = some s := by
  simp only [signatureSexp, hsig, hparts, if_true, hdecode, hsexp]

section

variable [Sha256]

/-- The digest a signature has to sign. -/
def expectedHash (narinfo : Narinfo) : Digest := Sha256.digest (Text.utf8 narinfo.signedPortion)

/-- Verify the narinfo's signature against a list of authorized keys. -/
def verifyNarinfoSignature (narinfo : Narinfo) (keys : List VerifyingKey) : Bool :=
  match signatureSexp narinfo with
  | none => false
  | some signature =>
    if signedHash signature = some (expectedHash narinfo).toList then
      match signedKey signature with
      | none => false
      | some q =>
        if q.length = 32 ∧ ∃ key ∈ keys, key.bytes.toList = q then gcryptVerify signature
        else false
    else false

/-! ### Soundness -/

/-- Whatever the check accepts was checked under an authorized key, over data that has
the digest of the signed portion as its own hash. -/
def SoundFor (narinfo : Narinfo) (keys : List VerifyingKey) : Prop :=
  verifyNarinfoSignature narinfo keys = true →
    ∃ signature data sigVal publicKey, signatureSexp narinfo = some signature ∧
      findToken signature "data" = some data ∧ findToken signature "sig-val" = some sigVal ∧
      findToken signature "public-key" = some publicKey ∧
      SignatureLib.pkVerify sigVal data publicKey = true ∧
      (∃ key ∈ keys, signedKey (.list publicKey) = some key.bytes.toList) ∧
      signedHash (.list data) = some (expectedHash narinfo).toList

omit [Sha256] in
/-- The first `hash` of the expression is the first one inside its `data`, and the first
`q` is the first one inside its `public-key`. -/
def Aligned (signature : Sexp) : Prop :=
  ∀ data publicKey, findToken signature "data" = some data →
    findToken signature "public-key" = some publicKey →
    signedHash (.list data) = signedHash signature ∧
      signedKey (.list publicKey) = signedKey signature

omit [Sha256] in
theorem gcryptVerify_eq_true_iff {signature : Sexp} :
    gcryptVerify signature = true ↔ ∃ data sigVal publicKey,
      findToken signature "data" = some data ∧ findToken signature "sig-val" = some sigVal ∧
      findToken signature "public-key" = some publicKey ∧
      SignatureLib.pkVerify sigVal data publicKey = true := by
  unfold gcryptVerify
  constructor
  · intro h
    split at h
    next data sigVal publicKey hdata hsig hkey => exact ⟨data, sigVal, publicKey, hdata, hsig, hkey, h⟩
    next => cases h
  · intro h'
    obtain ⟨data, sigVal, publicKey, hdata, hsig, hkey, h⟩ := h'
    rw [hdata, hsig, hkey]
    exact h

/-- What the check has tested when it accepts. -/
theorem verifyNarinfoSignature_eq_true_iff {narinfo : Narinfo} {keys : List VerifyingKey} :
    verifyNarinfoSignature narinfo keys = true ↔ ∃ signature,
      signatureSexp narinfo = some signature ∧
      signedHash signature = some (expectedHash narinfo).toList ∧
      (∃ key ∈ keys, signedKey signature = some key.bytes.toList) ∧
      gcryptVerify signature = true := by
  unfold verifyNarinfoSignature
  cases hsexp : signatureSexp narinfo with
  | none => simp
  | some signature =>
      simp only [Option.some.injEq, exists_eq_left']
      by_cases hhash : signedHash signature = some (expectedHash narinfo).toList
      · simp only [hhash, if_true, true_and]
        cases hkey : signedKey signature with
        | none => simp
        | some q =>
            simp only [Option.some.injEq]
            constructor
            · intro h
              split at h
              next hauth =>
                obtain ⟨key, hmem, heq⟩ := hauth.2
                exact ⟨⟨key, hmem, heq.symm⟩, h⟩
              next => cases h
            · intro h'
              obtain ⟨⟨key, hmem, rfl⟩, h⟩ := h'
              rw [if_pos ⟨by simp, key, hmem, rfl⟩]
              exact h
      · simp [hhash]

/-- **When the signature check is sound.** For every list of authorized keys, what the
check accepts was checked under one of them and over the right hash, if and only if
the expression is aligned or would be refused whatever the keys: because its first
hash is not that of the signed portion, its first `q` is no key, or libgcrypt rejects
it. -/
theorem sound_iff_aligned (narinfo : Narinfo) :
    (∀ keys, SoundFor narinfo keys) ↔
      ∀ signature, signatureSexp narinfo = some signature →
        signedHash signature = some (expectedHash narinfo).toList →
        (∃ key : VerifyingKey, signedKey signature = some key.bytes.toList) →
        gcryptVerify signature = true → Aligned signature := by
  constructor
  · intro hsound signature hsexp hhash hkey hverify
    obtain ⟨key, hkey⟩ := hkey
    -- accepted with this key as the only authorized one
    obtain ⟨signature', data, sigVal, publicKey, hsexp', hdata, -, hpub, -, ⟨key', hmem, hown⟩,
      hdigest⟩ := hsound [key] (verifyNarinfoSignature_eq_true_iff.mpr
        ⟨signature, hsexp, hhash, ⟨key, List.mem_cons_self, hkey⟩, hverify⟩)
    obtain rfl : signature' = signature := Option.some.inj (hsexp'.symm.trans hsexp)
    obtain rfl := List.mem_singleton.mp hmem
    intro data' publicKey' hdata' hpub'
    obtain rfl : data = data' := Option.some.inj (hdata.symm.trans hdata')
    obtain rfl : publicKey = publicKey' := Option.some.inj (hpub.symm.trans hpub')
    exact ⟨hdigest.trans hhash.symm, hown.trans hkey.symm⟩
  · intro haligned keys haccept
    obtain ⟨signature, hsexp, hhash, ⟨key, hmem, hkey⟩, hverify⟩ :=
      verifyNarinfoSignature_eq_true_iff.mp haccept
    obtain ⟨data, sigVal, publicKey, hdata, hsig, hpub, hcheck⟩ :=
      gcryptVerify_eq_true_iff.mp hverify
    obtain ⟨hhash', hkey'⟩ := haligned signature hsexp hhash ⟨key, hkey⟩ hverify data publicKey
      hdata hpub
    exact ⟨signature, data, sigVal, publicKey, hsexp, hdata, hsig, hpub, hcheck,
      ⟨key, hmem, hkey'.trans hkey⟩, hhash'.trans hhash⟩

end

/-! ### Signatures in the form Guix writes them -/

/-- `(token data)`. -/
def field (token : String) (data : Bytes) : Sexp := .list [.atom (Text.utf8 token.toList), .atom data]

/-- `(token item …)`. -/
def node (token : String) (items : List Sexp) : Sexp := .list (.atom (Text.utf8 token.toList) :: items)

/-- The expression a Guix key signs with. -/
def guixSignature (flags hash r s curve q : Bytes) : Sexp :=
  node "signature"
    [node "data" [field "flags" flags,
        node "hash" [.atom (Text.utf8 "sha256".toList), .atom hash]],
      node "sig-val" [node "ecdsa" [field "r" r, field "s" s]],
      node "public-key" [node "ecc" [field "curve" curve, field "q" q]]]

omit [SignatureLib] in
/-- They are aligned, so the check is sound for them. -/
theorem aligned_guixSignature (flags hash r s curve q : Bytes) :
    Aligned (guixSignature flags hash r s curve q) := by
  intro data publicKey hdata hkey
  obtain rfl : _ = data := Option.some.inj hdata
  obtain rfl : _ = publicKey := Option.some.inj hkey
  exact ⟨rfl, rfl⟩

/-! ### A forged signature -/

/-- A key of the access control list. -/
def authorizedBytes : Digest :=
  #v[0x7d, 0x60, 0x29, 0x02, 0xd3, 0xa2, 0xdb, 0xb8, 0x3f, 0x8a, 0x0f, 0xb9, 0x86, 0x02, 0xa7, 0x54,
     0xc5, 0x49, 0x3b, 0x0b, 0x77, 0x8c, 0x8d, 0x1d, 0xd4, 0xe0, 0xf4, 0x1d, 0xe1, 0x4d, 0xe3, 0x4f]

/-- A key an attacker made. -/
def attackerBytes : Digest :=
  #v[0xf1, 0x3a, 0x72, 0xf6, 0xc2, 0x70, 0xbd, 0x57, 0x6d, 0xfc, 0xc4, 0x04, 0x6f, 0xa7, 0x6a, 0x40,
     0x05, 0xff, 0x1a, 0xd1, 0x96, 0xa9, 0x5b, 0x99, 0x41, 0x2a, 0x3d, 0xc0, 0x0b, 0xe8, 0x80, 0xaf]

/-- The signed portion of a forged narinfo, and its SHA-256 digest. -/
def forgedPortion : Text := "StorePath: /gnu/store/x-y\n".toList

def forgedDigest : Digest :=
  #v[0xcd, 0x31, 0x7a, 0xd8, 0x0c, 0x3a, 0xea, 0x31, 0x04, 0xc0, 0xcc, 0x43, 0xc5, 0x55, 0xc3, 0xfc,
     0x88, 0x9a, 0x74, 0x99, 0x44, 0x9f, 0xa1, 0xd4, 0x69, 0x25, 0xed, 0x11, 0x1c, 0x08, 0x1a, 0xe2]

/-- The attacker's signature of the forged portion. -/
def forgedR : Digest :=
  #v[0x0b, 0x74, 0x48, 0x29, 0xcd, 0xb5, 0x64, 0xbf, 0x33, 0x39, 0x00, 0x91, 0xde, 0x9e, 0xc0, 0x58,
     0x0b, 0x3b, 0xba, 0xea, 0x1e, 0xfe, 0x82, 0xfd, 0x4f, 0x87, 0x62, 0xb7, 0x49, 0xaa, 0x54, 0x66]

def forgedS : Digest :=
  #v[0x00, 0xc4, 0x5d, 0x3c, 0x5a, 0x0c, 0xca, 0x9b, 0x01, 0xdf, 0xf2, 0x54, 0x15, 0xab, 0x9d, 0x0b,
     0x2f, 0xf9, 0x82, 0x2f, 0x45, 0xbe, 0x39, 0x01, 0x13, 0xff, 0x89, 0x7b, 0xbf, 0x4f, 0xe7, 0x2c]

/-- What the attacker signed, as the attacker's own Guix key would. -/
def attackerSexp : Sexp :=
  guixSignature (Text.utf8 "rfc6979".toList) forgedDigest.toList forgedR.toList forgedS.toList
    (Text.utf8 "Ed25519".toList) attackerBytes.toList

/-- The same behind a `q` that holds the authorized key. -/
def forgedSexp : Sexp :=
  match attackerSexp with
  | .list (head :: items) => .list (head :: field "q" authorizedBytes.toList :: items)
  | s => s

/-- The text and the base64 form of the forged expression. -/
@[irreducible] def forgedText : Text :=
  ("(signature (q #7D602902D3A2DBB83F8A0FB98602A754C5493B0B778C8D1DD4E0F41DE14DE34F#) (d" ++
    "ata (flags rfc6979) (hash sha256 #CD317AD80C3AEA3104C0CC43C555C3FC889A7499449FA1D469" ++
    "25ED111C081AE2#)) (sig-val (ecdsa (r #0B744829CDB564BF33390091DE9EC0580B3BBAEA1EFE82" ++
    "FD4F8762B749AA5466#) (s #00C45D3C5A0CCA9B01DFF25415AB9D0B2FF9822F45BE390113FF897BBF4" ++
    "FE72C#))) (public-key (ecc (curve Ed25519) (q #F13A72F6C270BD576DFCC4046FA76A4005FF1" ++
    "AD196A95B99412A3DC00BE880AF#))))").toList

@[irreducible] def forgedBase64 : Text :=
  ("KHNpZ25hdHVyZSAocSAjN0Q2MDI5MDJEM0EyREJCODNGOEEwRkI5ODYwMkE3NTRDNTQ5M0IwQjc3OEM4RDFE" ++
    "RDRFMEY0MURFMTRERTM0RiMpIChkYXRhIChmbGFncyByZmM2OTc5KSAoaGFzaCBzaGEyNTYgI0NEMzE3QUQ4" ++
    "MEMzQUVBMzEwNEMwQ0M0M0M1NTVDM0ZDODg5QTc0OTk0NDlGQTFENDY5MjVFRDExMUMwODFBRTIjKSkgKHNp" ++
    "Zy12YWwgKGVjZHNhIChyICMwQjc0NDgyOUNEQjU2NEJGMzMzOTAwOTFERTlFQzA1ODBCM0JCQUVBMUVGRTgy" ++
    "RkQ0Rjg3NjJCNzQ5QUE1NDY2IykgKHMgIzAwQzQ1RDNDNUEwQ0NBOUIwMURGRjI1NDE1QUI5RDBCMkZGOTgy" ++
    "MkY0NUJFMzkwMTEzRkY4OTdCQkY0RkU3MkMjKSkpIChwdWJsaWMta2V5IChlY2MgKGN1cnZlIEVkMjU1MTkp" ++
    "IChxICNGMTNBNzJGNkMyNzBCRDU3NkRGQ0M0MDQ2RkE3NkE0MDA1RkYxQUQxOTZBOTVCOTk0MTJBM0RDMDBC" ++
    "RTg4MEFGIykpKSk=").toList

/-- The libraries on the forged narinfo: the attacker's signature is valid under the
attacker's key. -/
@[reducible] def forgedLib : SignatureLib where
  base64Decode t := if t = forgedBase64 then some (Text.utf8 forgedText) else none
  sexpNew bytes := if bytes = Text.utf8 forgedText then some forgedSexp else none
  pkVerify sigVal data publicKey :=
    decide (signedHash (.list data) = some forgedDigest.toList) &&
      decide (signedKey (.list publicKey) = some attackerBytes.toList) &&
      decide ((findToken (.list sigVal) "r").bind (Sexp.nthData · 1) = some forgedR.toList) &&
      decide ((findToken (.list sigVal) "s").bind (Sexp.nthData · 1) = some forgedS.toList)
  validKey bytes := decide (bytes = authorizedBytes)

@[reducible] def forgedSha256 : Sha256 where
  digest data := if data = Text.utf8 forgedPortion then forgedDigest else Vector.replicate 32 0

def forgedNarinfo : Narinfo where
  storePath := "/gnu/store/x-y".toList
  narHash := []
  narSize := 0
  references := []
  deriver := none
  urls := []
  signedPortion := forgedPortion
  signature := some ("1;attacker;".toList ++ forgedBase64)

omit [SignatureLib] in
theorem signatureSexp_forged : @signatureSexp forgedLib forgedNarinfo = some forgedSexp := by
  have hparts : Text.splitN 3 ';' ("1;attacker;".toList ++ forgedBase64) =
      ["1".toList, "attacker".toList, forgedBase64] := rfl
  exact @signatureSexp_eq forgedLib _ _ _ _ _ _ rfl hparts (if_pos rfl) (if_pos rfl)

/-- The attacker's `public-key` expression. -/
def forgedPublicKey : List Sexp :=
  [.atom (Text.utf8 "public-key".toList),
    node "ecc" [field "curve" (Text.utf8 "Ed25519".toList), field "q" attackerBytes.toList]]

omit [SignatureLib] in
/-- The forged narinfo is accepted, although nothing was checked under the only
authorized key. -/
theorem forged_signature_accepted :
    @verifyNarinfoSignature forgedLib forgedSha256 forgedNarinfo
        [@VerifyingKey.mk forgedLib authorizedBytes rfl] = true ∧
      ¬ @SoundFor forgedLib forgedSha256 forgedNarinfo
        [@VerifyingKey.mk forgedLib authorizedBytes rfl] := by
  have hhash : @expectedHash forgedSha256 forgedNarinfo = forgedDigest := by
    show (if Text.utf8 forgedPortion = Text.utf8 forgedPortion then forgedDigest
      else Vector.replicate 32 0) = forgedDigest
    exact if_pos rfl
  have haccept := (@verifyNarinfoSignature_eq_true_iff forgedLib forgedSha256 forgedNarinfo
    [@VerifyingKey.mk forgedLib authorizedBytes rfl]).mpr
      ⟨forgedSexp, signatureSexp_forged, by rw [hhash]; rfl, ⟨_, List.mem_cons_self, rfl⟩,
        by decide +kernel⟩
  refine ⟨haccept, fun hsound => ?_⟩
  obtain ⟨signature, data, sigVal, publicKey, hsexp, -, -, hpub, -, ⟨key, hmem, hown⟩, -⟩ :=
    hsound haccept
  obtain rfl := Option.some.inj (signatureSexp_forged.symm.trans hsexp)
  obtain rfl := List.mem_singleton.mp hmem
  have hfound : findToken forgedSexp "public-key" = some forgedPublicKey := rfl
  obtain rfl := Option.some.inj (hfound.symm.trans hpub)
  have hkey : signedKey (.list forgedPublicKey) = some attackerBytes.toList := rfl
  exact absurd (Option.some.inj (hkey.symm.trans hown)) (by decide)

end GuixP2p
