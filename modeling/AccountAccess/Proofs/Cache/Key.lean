import AccountAccess.Cache.Key
import AccountAccess.Proofs.Session.Owner

/-!
# Cache keys determine their arguments

All families of entries share one table, so two keys must not have the same text, whatever tokens,
partners and clients are called.  None of these is escaped, so it is not enough that the families
have words of their own in front.

* Most families are told apart by the words they begin with.  The first eight letters are enough
  for that (`lead`).
* Two are not: the codes of an account lie below the words that begin a slot.  There the account id
  decides, since a number does not begin with a letter (`text_grants_ne_text_slot`).
* Inside a family with two arguments the first one holds no colon: it is a number or one of the
  words for a purpose.  So the first colon separates the arguments, whatever the second one holds.

## Main results

* `text_injective`: two keys with the same text are the same key.
* `text_eq_text_iff`: the same for all families and all arguments at once.
-/

namespace AccountAccess

namespace CacheKey

/-! ## The text of each family -/

theorem text_token (t : String) : (token t).text = "UC:Token:" ++ t := rfl

theorem text_grants (account : Int64) :
    (grants account).text = "UC:Account:Apis:" ++ Text.decimal account := rfl

theorem text_slot (owner : SessionOwner) :
    (slot owner.account owner.scene).text = "UC:Account:" ++ owner.render := by
  rw [SessionOwner.render, ← String.append_assoc, ← String.append_assoc]
  rfl

theorem text_code (purpose : CodePurpose) (recipient : String) :
    (code purpose recipient).text = "UC:Code:" ++ Labelled.name purpose ++ ":" ++ recipient := rfl

theorem text_partnerSecret (p : String) :
    (partnerSecret p).text = "ApiKey:SecretKey:" ++ p := rfl

theorem text_partnerGrants (p : String) : (partnerGrants p).text = "ApiKey:Apis:" ++ p := rfl

theorem text_requests (c : String) : (requests c).text = "rate_limit:" ++ c := rfl

/-! ## What separates the families -/

theorem colon_notMem_purpose (purpose : CodePurpose) :
    ':' ∉ (Labelled.name purpose).toList := by
  cases purpose <;> decide

/-- A text that begins with a letter other than a minus sign begins no number. -/
theorem decimal_append_ne {i : Int64} {c : Char} {back cs : List Char}
    (hminus : c ≠ '-') (hcolon : c ≠ ':') (hdigit : c.isDigit = false) :
    (Text.decimal i).toList ++ ':' :: back ≠ c :: cs := by
  intro h
  cases hfront : (Text.decimal i).toList with
  | nil =>
    rw [hfront, List.nil_append] at h
    exact hcolon (List.cons.inj h).1.symm
  | cons d ds =>
    rw [hfront, List.cons_append] at h
    have hd : d ∈ (Text.decimal i).toList := hfront ▸ List.mem_cons_self
    rw [(List.cons.inj h).1] at hd
    rcases Text.eq_minus_or_isDigit_of_mem_decimal hd with hd | hd
    · exact hminus hd
    · exact absurd hd (by simp [hdigit])

/-- The codes of an account and a slot never have the same key. -/
theorem text_grants_ne_text_slot (account : Int64) (owner : SessionOwner) :
    (grants account).text ≠ (slot owner.account owner.scene).text := by
  intro h
  have hlist := congrArg String.toList h.symm
  rw [text_grants, text_slot, String.toList_append, String.toList_append,
    SessionOwner.toList_render] at hlist
  have hlist : (Text.decimal owner.account).toList ++ ':' :: (Labelled.name owner.scene).toList =
      'A' :: 'p' :: 'i' :: 's' :: ':' :: (Text.decimal account).toList := by
    simpa using hlist
  exact decimal_append_ne (by decide) (by decide) (by decide) hlist

/-- The first eight letters of a key. -/
def lead : CacheKey → String
  | token _ => "UC:Token"
  | grants _ | slot _ _ => "UC:Accou"
  | code _ _ => "UC:Code:"
  | partnerSecret _ => "ApiKey:S"
  | partnerGrants _ => "ApiKey:A"
  | requests _ => "rate_lim"

theorem take_text (k : CacheKey) : k.text.toList.take 8 = k.lead.toList := by
  cases k with
  | slot account scene => simp [text_slot ⟨account, scene⟩, lead]
  | _ =>
    simp [text_token, text_grants, text_code, text_partnerSecret, text_partnerGrants,
      text_requests, lead]

theorem lead_eq_of_text_eq {k l : CacheKey} (h : k.text = l.text) : k.lead = l.lead := by
  rw [← String.toList_inj, ← take_text, ← take_text, h]

/-- **Two keys with the same text are the same key.** -/
theorem text_injective {k l : CacheKey} (h : k.text = l.text) : k = l := by
  -- families that begin differently are told apart by the first letters
  cases k with
  | token t =>
    cases l with
    | token u => rw [(String.append_right_inj _).1 h]
    | _ => exact absurd (lead_eq_of_text_eq h) (by simp [lead])
  | grants a =>
    cases l with
    | grants b => rw [Text.decimal_injective ((String.append_right_inj _).1 h)]
    | slot b scene => exact absurd h (text_grants_ne_text_slot a ⟨b, scene⟩)
    | _ => exact absurd (lead_eq_of_text_eq h) (by simp [lead])
  | slot a scene =>
    cases l with
    | slot b scene' =>
      rw [text_slot ⟨a, scene⟩, text_slot ⟨b, scene'⟩] at h
      have howner := SessionOwner.render_injective ((String.append_right_inj _).1 h)
      rw [(SessionOwner.mk.inj howner).1, (SessionOwner.mk.inj howner).2]
    | grants b => exact absurd h.symm (text_grants_ne_text_slot b ⟨a, scene⟩)
    | _ => exact absurd (lead_eq_of_text_eq h) (by simp [lead])
  | code purpose recipient =>
    cases l with
    | code purpose' recipient' =>
      have hlist := congrArg String.toList h
      rw [text_code, text_code] at hlist
      simp only [String.toList_append, List.append_assoc] at hlist
      obtain ⟨hpurpose, hrecipient⟩ :=
        Text.eq_of_append_mark (List.append_cancel_left hlist)
          (colon_notMem_purpose purpose) (colon_notMem_purpose purpose')
      rw [LawfulLabelled.name_injective _ _ (String.toList_inj.1 hpurpose),
        String.toList_inj.1 hrecipient]
    | _ => exact absurd (lead_eq_of_text_eq h) (by simp [lead])
  | partnerSecret p =>
    cases l with
    | partnerSecret q => rw [(String.append_right_inj _).1 h]
    | _ => exact absurd (lead_eq_of_text_eq h) (by simp [lead])
  | partnerGrants p =>
    cases l with
    | partnerGrants q => rw [(String.append_right_inj _).1 h]
    | _ => exact absurd (lead_eq_of_text_eq h) (by simp [lead])
  | requests c =>
    cases l with
    | requests d => rw [(String.append_right_inj _).1 h]
    | _ => exact absurd (lead_eq_of_text_eq h) (by simp [lead])

/-- **The families never share an entry.**  Whatever tokens, partners, clients and recipients
are called and whatever the ids are, two keys have the same text only if they are of one family
and have the same arguments. -/
theorem text_eq_text_iff (k l : CacheKey) : k.text = l.text ↔ k = l :=
  ⟨text_injective, congrArg text⟩

end CacheKey
end AccountAccess
