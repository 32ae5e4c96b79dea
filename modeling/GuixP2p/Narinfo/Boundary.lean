import GuixP2p.Narinfo.Signature

/-!
# GuixP2p.Narinfo.Boundary

**What follows the signature mark is not trusted.** The parser cuts a narinfo at the first
`Signature:`, wherever it stands in a line. Everything a client relies on is read from the
text before it, and that text is also what the signature check hashes; the text after it
decides the URLs and the signature only.
-/

namespace GuixP2p

open GuixP2p.Lib

/-- The mark that ends the signed portion. -/
def signatureMark : Text := "Signature:".toList

/-- The cut is made at the mark that follows a text without one. -/
theorem splitAtFirst_signatureMark {s : Text} (hs : ¬ signatureMark <:+: s) (t : Text) :
    Text.splitAtFirst signatureMark (s ++ signatureMark ++ t) = some (s, signatureMark ++ t) := by
  rw [List.append_assoc]
  exact Text.splitAtFirst_append (by decide) hs t

/-- A narinfo as its two halves make it. -/
theorem parseNarinfo_append {s : Text} (hs : ¬ signatureMark <:+: s) (t : Text) :
    parseNarinfo (s ++ signatureMark ++ t) =
      { storePath := ((signedFields s).lookup "StorePath".toList).getD []
        narHash := ((signedFields s).lookup "NarHash".toList).getD []
        narSize := (((signedFields s).lookup "NarSize".toList).bind Text.parseU64).getD 0
        references := (((signedFields s).lookup "References".toList).map Text.splitWhitespace).getD []
        deriver := (signedFields s).lookup "Deriver".toList
        urls := narUrls (unsignedFields (signatureMark ++ t))
        signedPortion := s
        signature := signatureLine (signatureMark ++ t) } := by
  have hsplit := splitAtFirst_signatureMark hs t
  unfold signatureMark at hsplit ⊢
  unfold parseNarinfo
  rw [hsplit]
  rfl

variable [Sha256]

/-- **Unsigned text cannot influence trusted fields.** Two narinfos that agree up to the
first `Signature:` agree on everything but the URLs and the signature; their signed portion
is that common text, and its bytes are what the signature has to sign. -/
theorem trusted_fields_agree {s : Text} (hs : ¬ signatureMark <:+: s) (t₁ t₂ : Text) :
    let a := parseNarinfo (s ++ signatureMark ++ t₁)
    let b := parseNarinfo (s ++ signatureMark ++ t₂)
    a.storePath = b.storePath ∧ a.narHash = b.narHash ∧ a.narSize = b.narSize ∧
      a.references = b.references ∧ a.deriver = b.deriver ∧
      a.signedPortion = s ∧ b.signedPortion = s ∧
      expectedHash a = Sha256.digest (Text.utf8 s) ∧ expectedHash b = Sha256.digest (Text.utf8 s) ∧
      { a with urls := b.urls, signature := b.signature } = b := by
  intro a b
  have ha : a = _ := parseNarinfo_append hs t₁
  have hb : b = _ := parseNarinfo_append hs t₂
  rw [ha, hb]
  exact ⟨rfl, rfl, rfl, rfl, rfl, rfl, rfl, rfl, rfl, rfl⟩

omit [Sha256] in
/-- A store path in the unsigned half is not read. -/
theorem trusted_fields_agree_sample :
    (parseNarinfo ("StorePath: a\n".toList ++ signatureMark ++ "\nStorePath: b\n".toList)).storePath =
      (parseNarinfo ("StorePath: a\n".toList ++ signatureMark ++ [])).storePath :=
  (@trusted_fields_agree forgedSha256 "StorePath: a\n".toList (by decide +kernel)
    "\nStorePath: b\n".toList []).1

end GuixP2p
