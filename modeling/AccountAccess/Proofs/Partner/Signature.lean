import AccountAccess.Digest.Hmac
import AccountAccess.Partner.Signature
import AccountAccess.Proofs.Http.Header
import AccountAccess.Proofs.Text.Bytes
import AccountAccess.Proofs.Text.Decimal
import AccountAccess.Proofs.Text.Hex
import AccountAccess.Text.Split

/-!
# What a signature says

A signature is accepted exactly if, trimmed and in small letters, it is the written one.  Written
signatures have two digits for each byte and nothing else, so this also tells which texts are never
accepted: those of another length and those with another character, of whichever script.

A partner may choose any name, so ampersands and digits in it are no surprise.  No ampersand stands
in the time, so the last ampersand of a payload is the one between name and time, and two pairs
with one payload are the same.  Whether a signature covers a second pair is then a question of the
digest alone.

## What is assumed of the digest

Nothing but its length, where the length of a signature is spoken of.  That two messages have
different digests is not assumed: where it would be needed, the statement names the two messages
that the digest does not tell apart (`Collide`).

## Main results

* `hasSignature_eq_true_iff`: which texts are accepted, as one equation.
* `hasSignature_of_lowerCase_eq`: the written signature is accepted in any letter case.
* `hasSignature_by_text`: the accepted texts by their length and their characters.
* `payload_eq_payload_iff`: a payload determines its name and its time.
* `payload_covers_one_pair`: a signature covers another pair only by a collision.
-/

namespace AccountAccess
namespace Partner

variable {sign : List UInt8 → List UInt8 → List UInt8} {secret message text : String} {c : Char}

/-! ## Written signatures -/

theorem toList_signature (sign : List UInt8 → List UInt8 → List UInt8) (secret message : String) :
    (signature sign secret message).toList =
      Text.hexChars (sign (Text.toBytes secret) (Text.toBytes message)) := by
  rw [signature, Text.hex, String.toList_ofList]

/-- **A text is accepted exactly if, trimmed and in small letters, it is the written
signature.** -/
theorem hasSignature_eq_true_iff : hasSignature sign secret message text = true ↔
    Http.lowerCase (Text.trim text) = signature sign secret message := by
  rw [hasSignature, beq_iff_eq, Text.bytesOfHex?_eq_some_iff, ← String.toList_inj,
    Http.toList_lowerCase, toList_signature]

theorem lowerCase_signature (sign : List UInt8 → List UInt8 → List UInt8)
    (secret message : String) :
    Http.lowerCase (signature sign secret message) = signature sign secret message := by
  rw [← String.toList_inj, Http.toList_lowerCase, toList_signature, Text.map_toLower_hexChars]

theorem digits_of_lowerCase_eq (h : Http.lowerCase text = signature sign secret message) :
    text.length = 2 * (sign (Text.toBytes secret) (Text.toBytes message)).length ∧
      ∀ c ∈ text.toList, c ∈ Text.hexDigits := by
  rw [← String.toList_inj, Http.toList_lowerCase, toList_signature] at h
  rw [← String.length_toList]
  exact Text.digits_of_map_toLower_eq h

theorem isBlank_of_mem_hexDigits (h : c ∈ Text.hexDigits) : Text.isBlank c = false := by
  simp only [Text.hexDigits, Set.mem_union, Set.mem_Icc, Text.le_iff_toNat_le] at h
  have hnumber : (48 ≤ c.toNat ∧ c.toNat ≤ 57 ∨ 97 ≤ c.toNat ∧ c.toNat ≤ 102) ∨
      65 ≤ c.toNat ∧ c.toNat ≤ 70 := h
  simp only [Text.isBlank, Bool.or_eq_false_iff, Bool.and_eq_false_iff, decide_eq_false_iff_not,
    beq_eq_false_iff_ne]
  omega

theorem trim_eq_of_digits (h : ∀ c ∈ text.toList, c ∈ Text.hexDigits) : Text.trim text = text := by
  rw [← String.toList_inj, Text.toList_trim, Text.trimChars_eq_iff]
  exact ⟨.of_forall fun c hc => isBlank_of_mem_hexDigits (h c hc), [], [], by simp [Text.AllBlank],
    by simp [Text.AllBlank], by simp⟩

/-- **The written signature is accepted in any letter case.** -/
theorem hasSignature_of_lowerCase_eq
    (h : Http.lowerCase text = Http.lowerCase (signature sign secret message)) :
    hasSignature sign secret message text = true := by
  rw [lowerCase_signature] at h
  rw [hasSignature_eq_true_iff, trim_eq_of_digits (digits_of_lowerCase_eq h).2, h]

/-- **Which texts are accepted as a signature**, for a digest of 32 bytes.  They are those that,
trimmed and in small letters, are the written signature: what is left after trimming has 64
characters, all of them hexadecimal digits, and the written signature is accepted in any letter
case. -/
theorem hasSignature_by_text (sign : List UInt8 → List UInt8 → List UInt8)
    (hsize : ∀ key message, (sign key message).length = 32) (secret message : String) :
    (∀ text, hasSignature sign secret message text = true ↔
      Http.lowerCase (Text.trim text) = signature sign secret message) ∧
    (∀ text, hasSignature sign secret message text = true →
      (Text.trim text).length = 64 ∧ ∀ c ∈ (Text.trim text).toList, c ∈ Text.hexDigits) ∧
    ∀ text, Http.lowerCase text = Http.lowerCase (signature sign secret message) →
      hasSignature sign secret message text = true := by
  refine ⟨fun _ => hasSignature_eq_true_iff, fun text haccepted => ?_,
    fun _ => hasSignature_of_lowerCase_eq⟩
  obtain ⟨hlength, hdigits⟩ := digits_of_lowerCase_eq (hasSignature_eq_true_iff.1 haccepted)
  rw [hsize] at hlength
  exact ⟨hlength, hdigits⟩

/-- A signature in capital letters with blanks around it is accepted, and one without its last
digit is not. -/
theorem hasSignature_by_text_capitals :
    (∀ key message, (Digest.hmacSha256 key message).length = 32) ∧
      hasSignature Digest.hmacSha256 "Jefe" "what do ya want for nothing?"
        "\t5BDCC146BF60754E6A042426089575C75A003F089D2739839DEC58B964EC3843\u2003" = true ∧
      hasSignature Digest.hmacSha256 "Jefe" "what do ya want for nothing?"
        "5bdcc146bf60754e6a042426089575c75a003f089d2739839dec58b964ec384" = false := by
  obtain ⟨hiff, hdigits, -⟩ := hasSignature_by_text Digest.hmacSha256 Digest.length_hmacSha256
    "Jefe" "what do ya want for nothing?"
  refine ⟨Digest.length_hmacSha256, (hiff _).2 (by decide +kernel), ?_⟩
  refine Bool.eq_false_iff.2 fun h => ?_
  exact absurd (hdigits _ h).1 (by decide +kernel)

/-! ## Payloads -/

section Payloads

variable {partner partner' other : String} {timestamp timestamp' : Int64}

theorem toList_payload (partner : String) (timestamp : Int64) :
    (payload partner timestamp).toList =
      partner.toList ++ '&' :: (Text.decimal timestamp).toList := by
  simp [payload]

/-- **A payload determines its name and its time.** -/
theorem payload_eq_payload_iff : payload partner timestamp = payload partner' timestamp' ↔
    partner = partner' ∧ timestamp = timestamp' := by
  constructor
  · intro h
    have hmark : ∀ i : Int64, '&' ∉ (Text.decimal i).toList :=
      Text.notMem_decimal (by decide) (by decide)
    rw [← String.toList_inj, toList_payload, toList_payload] at h
    obtain ⟨hname, htime⟩ := Text.eq_of_append_last_mark h (hmark timestamp) (hmark timestamp')
    exact ⟨String.toList_inj.1 hname, Text.decimal_injective (String.toList_inj.1 htime)⟩
  · rintro ⟨rfl, rfl⟩
    rfl

theorem hasSignature_signature_iff :
    hasSignature sign secret other (signature sign secret message) = true ↔
      sign (Text.toBytes secret) (Text.toBytes message) =
        sign (Text.toBytes secret) (Text.toBytes other) := by
  have hdigits := (digits_of_lowerCase_eq (lowerCase_signature sign secret message)).2
  have hread := Text.bytesOfHex?_eq_some_iff.2
    (Text.map_toLower_hexChars (sign (Text.toBytes secret) (Text.toBytes message)))
  rw [hasSignature, trim_eq_of_digits hdigits, toList_signature, hread, beq_iff_eq,
    Option.some.injEq]

/-- Two messages that a digest does not tell apart. -/
structure Collide (digest : List UInt8 → List UInt8) (message other : List UInt8) : Prop where
  ne : message ≠ other
  digest_eq : digest message = digest other

/-- **Signed payloads are unambiguous.**  Two pairs of a name and a time have the same payload only
if they are the same pair.  So a signature that a secret gives one pair is accepted for another
only if the digest of that secret collides on their payloads. -/
theorem payload_covers_one_pair (partner partner' : String) (timestamp timestamp' : Int64) :
    (payload partner timestamp = payload partner' timestamp' ↔
      partner = partner' ∧ timestamp = timestamp') ∧
    ∀ (sign : List UInt8 → List UInt8 → List UInt8) (secret : String),
      hasSignature sign secret (payload partner' timestamp')
          (signature sign secret (payload partner timestamp)) = true ↔
        (partner = partner' ∧ timestamp = timestamp') ∨
          Collide (sign (Text.toBytes secret)) (Text.toBytes (payload partner timestamp))
            (Text.toBytes (payload partner' timestamp')) := by
  refine ⟨payload_eq_payload_iff, fun sign secret => ?_⟩
  rw [hasSignature_signature_iff, ← payload_eq_payload_iff]
  constructor
  · intro hdigest
    by_cases hsame : payload partner timestamp = payload partner' timestamp'
    · exact Or.inl hsame
    · exact Or.inr ⟨fun hbytes => hsame (Text.toBytes_injective hbytes), hdigest⟩
  · rintro (hsame | hcollide)
    · rw [hsame]
    · exact hcollide.digest_eq

end Payloads

end Partner
end AccountAccess
