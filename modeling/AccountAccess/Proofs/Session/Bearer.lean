import AccountAccess.Proofs.Http.Header
import AccountAccess.Proofs.Text.LetterCase
import AccountAccess.Proofs.Text.Visible
import AccountAccess.Session.Bearer

/-!
# The grammar of a bearer credential

A credential is a scheme, a space and one word, with any number of spaces and tabs around the
word.  The scheme ends at the first space of the line, so it has no space itself, but it may
have tabs.

The reader cuts at that space, trims and compares.  Two facts make it agree with the grammar: a
scheme without a space is what stands in front of the first one, and a word without blank
characters is what trimming leaves of a padded one.  A line that can be read has no blank
characters but spaces and tabs.

## The four answers

There is no credential, the credential is a token, it is of another scheme, or it is malformed.  The
first three have a form of their own and the last one is for all else (`Answered`).  The forms
exclude each other, so it is enough to show for each what the reader answers.

## Main results

* `IsCredential`, `bearerToken_of_isCredential`: a credential is judged by its scheme.
* `bearerToken_cases`: what a header list can hold.
* `bearerToken_eq_iff`: the reader answers as the grammar says.
* `bearsToken_of_first`: the usual form of a field is read as its word.
* `bearerToken_by_grammar`: which header lists give which answer.
-/

namespace AccountAccess
namespace Session

open Http (Headers)

variable {headers : Headers} {line scheme token : String} {cs : List Char} {c : Char}

/-! ## The grammar -/

/-- The first `Authorization` field can be read, as this line. -/
def ShowsLine (headers : Headers) (line : String) : Prop :=
  ∃ value, headers.HasFirst "authorization" value ∧ (∀ byte ∈ value, Text.IsVisible byte) ∧
    String.ofList (value.map Text.ofByte) = line

/-- A run of spaces and tabs. -/
def IsPadding (s : String) : Prop :=
  ∀ c ∈ s.toList, c = ' ' ∨ c = '\t'

/-- A line that presents a token under a scheme: the scheme, a space, and the token as the only
word, which may be padded. -/
structure IsCredential (line scheme token : String) : Prop where
  ne_empty : token ≠ ""
  unbroken : ∀ c ∈ token.toList, Text.isBlank c = false
  padded : ∃ before after, IsPadding before ∧ IsPadding after ∧
    line = scheme ++ " " ++ before ++ token ++ after

/-- There is no credential: no `Authorization` field, or a blank one. -/
def LacksCredential (headers : Headers) : Prop :=
  headers.Lacks "authorization" ∨ ∃ line, ShowsLine headers line ∧ IsPadding line

/-- The credential is a token of a bearer. -/
def BearsToken (headers : Headers) (token : String) : Prop :=
  ∃ line, ShowsLine headers line ∧ IsCredential line "Bearer" token

/-- The credential is of another scheme. -/
def HasOtherScheme (headers : Headers) : Prop :=
  ∃ line scheme token, ShowsLine headers line ∧ scheme ≠ "" ∧ ' ' ∉ scheme.toList ∧
    scheme ≠ "Bearer" ∧ IsCredential line scheme token

/-- **What is answered to a credential**: each of the first three answers has a form of its own,
and the last one is for all else. -/
inductive Answered (headers : Headers) : Except Refusal String → Prop where
  | missing (hlacks : LacksCredential headers) : Answered headers (.error .missingCredential)
  | token {token : String} (hbears : BearsToken headers token) : Answered headers (.ok token)
  | otherScheme (hother : HasOtherScheme headers) : Answered headers (.error .unsupportedScheme)
  | malformed (hlacks : ¬LacksCredential headers) (hbears : ¬∃ token, BearsToken headers token)
      (hother : ¬HasOtherScheme headers) : Answered headers (.error .malformedCredential)

/-! ## Lines that can be read -/

theorem showsLine_iff : ShowsLine headers line ↔
    ∃ value, headers.first? "authorization" = some value ∧ Text.visible? value = some line := by
  simp only [ShowsLine, Headers.first?_eq_some_iff, Text.visible?_eq_some_iff]

/-- The blank characters of a line are spaces and tabs. -/
theorem ShowsLine.isBlank_iff (h : ShowsLine headers line) (hc : c ∈ line.toList) :
    Text.isBlank c = true ↔ c = ' ' ∨ c = '\t' := by
  obtain ⟨value, -, hvisible, rfl⟩ := h
  rw [String.toList_ofList] at hc
  obtain ⟨byte, hbyte, rfl⟩ := List.mem_map.1 hc
  have hspace : Text.ofByte byte = ' ' ↔ byte = 0x20 :=
    Text.ofByte_injective.eq_iff' rfl
  have htab : Text.ofByte byte = '\t' ↔ byte = 9 :=
    Text.ofByte_injective.eq_iff' rfl
  rw [Text.isBlank_ofByte (hvisible byte hbyte), hspace, htab, Text.isSpacing, Bool.or_eq_true,
    beq_iff_eq, beq_iff_eq]

theorem ShowsLine.allBlank_iff (h : ShowsLine headers line)
    (hcs : ∀ c ∈ cs, c ∈ line.toList) :
    Text.AllBlank cs ↔ IsPadding (String.ofList cs) := by
  rw [IsPadding, String.toList_ofList]
  exact forall₂_congr fun c hc => h.isBlank_iff (hcs c hc)

theorem ShowsLine.isBlankText_iff (h : ShowsLine headers line) :
    Text.isBlankText line = true ↔ IsPadding line := by
  rw [Text.isBlankText_iff, h.allBlank_iff fun c hc => hc, String.ofList_toList]

theorem IsPadding.allBlank (h : IsPadding line) : Text.AllBlank line.toList := by
  intro c hc
  rcases h c hc with rfl | rfl
  · decide
  · decide

/-! ## What the reader finds -/

theorem bearerToken_of_lacksCredential (h : LacksCredential headers) :
    bearerToken headers = .error .missingCredential := by
  rcases h with hlacks | ⟨line, hshows, hpadding⟩
  · rw [bearerToken, Headers.first?_eq_none_iff.2 hlacks]
  · obtain ⟨value, hfirst, hvisible⟩ := showsLine_iff.1 hshows
    simp only [bearerToken, hfirst, hvisible, if_pos (hshows.isBlankText_iff.2 hpadding)]

theorem IsCredential.cut (h : IsCredential line scheme token) (hspace : ' ' ∉ scheme.toList) :
    ∃ rest, Text.splitFirst ' ' line.toList = some (scheme.toList, rest) ∧
      Text.trimChars rest = token.toList := by
  obtain ⟨-, hunbroken, before, after, hbefore, hafter, rfl⟩ := h
  refine ⟨before.toList ++ token.toList ++ after.toList,
    Text.splitFirst_eq_some_iff.2 ⟨by simp, hspace⟩, ?_⟩
  exact Text.trimChars_append_append hbefore.allBlank (.of_forall hunbroken) hafter.allBlank

/-- **A credential is judged by its scheme.** -/
theorem bearerToken_of_isCredential (hshows : ShowsLine headers line) (hne : scheme ≠ "")
    (hspace : ' ' ∉ scheme.toList) (h : IsCredential line scheme token) :
    bearerToken headers = if scheme = "Bearer" then .ok token else .error .unsupportedScheme := by
  obtain ⟨value, hfirst, hvisible⟩ := showsLine_iff.1 hshows
  obtain ⟨rest, hsplit, htrim⟩ := h.cut hspace
  have hword : token.toList ≠ [] := fun hnil => h.ne_empty (String.toList_eq_nil_iff.1 hnil)
  have hnonblank : ¬Text.isBlankText line = true := by
    obtain ⟨c, hc⟩ := List.exists_mem_of_ne_nil _ hword
    obtain ⟨before, after, -, -, rfl⟩ := h.padded
    rw [Text.isBlankText_iff]
    intro hblank
    have hblank' := hblank c (by simp [hc])
    rw [h.unbroken c hc] at hblank'
    exact absurd hblank' (by simp)
  have haccepted : ¬(scheme.toList = [] ∨ token.toList = [] ∨ token.toList.any Text.isBlank) := by
    simpa [hne, h.ne_empty] using h.unbroken
  simp only [bearerToken, hfirst, hvisible, if_neg hnonblank, hsplit, htrim, if_neg haccepted,
    ne_eq, String.toList_inj, ite_not, String.ofList_toList]

theorem bearerToken_of_bearsToken (h : BearsToken headers token) :
    bearerToken headers = .ok token := by
  obtain ⟨line, hshows, hcredential⟩ := h
  rw [bearerToken_of_isCredential hshows (by decide) (by decide) hcredential, if_pos rfl]

theorem bearerToken_of_hasOtherScheme (h : HasOtherScheme headers) :
    bearerToken headers = .error .unsupportedScheme := by
  obtain ⟨line, scheme, token, hshows, hne, hspace, hscheme, hcredential⟩ := h
  rw [bearerToken_of_isCredential hshows hne hspace hcredential, if_neg hscheme]

/-- A line that is cut at its first space into a scheme and one padded word is a credential. -/
theorem ShowsLine.isCredential {scheme rest : List Char} (h : ShowsLine headers line)
    (hline : line.toList = scheme ++ ' ' :: rest) (hword : Text.trimChars rest ≠ [])
    (hunbroken : ∀ c ∈ Text.trimChars rest, Text.isBlank c = false) :
    IsCredential line (String.ofList scheme) (String.ofList (Text.trimChars rest)) := by
  obtain ⟨before, after, hbefore, hafter, hrest⟩ :=
    (Text.trimChars_eq_iff.1 (Eq.refl (Text.trimChars rest))).padded
  have hmem : ∀ c ∈ rest, c ∈ line.toList := fun c hc => by simp [hline, hc]
  rw [hrest] at hmem
  refine ⟨by simpa using hword, by simpa using hunbroken, String.ofList before,
    String.ofList after, ?_, ?_, ?_⟩
  · exact (h.allBlank_iff fun c hc => hmem c (by simp [hc])).1 hbefore
  · exact (h.allBlank_iff fun c hc => hmem c (by simp [hc])).1 hafter
  · rw [← String.toList_inj, hline]
    conv_lhs => rw [hrest]
    simp

/-- **What a header list can hold**: no credential, one that the grammar describes, or one that
is refused as malformed. -/
theorem bearerToken_cases (headers : Headers) :
    LacksCredential headers ∨ (∃ token, BearsToken headers token) ∨ HasOtherScheme headers ∨
      bearerToken headers = .error .malformedCredential := by
  cases hfirst : headers.first? "authorization" with
  | none => exact Or.inl (Or.inl (Headers.first?_eq_none_iff.1 hfirst))
  | some value =>
  cases hvisible : Text.visible? value with
  | none => exact Or.inr (Or.inr (Or.inr (by simp only [bearerToken, hfirst, hvisible])))
  | some line =>
  have hshows : ShowsLine headers line := showsLine_iff.2 ⟨value, hfirst, hvisible⟩
  by_cases hblank : Text.isBlankText line = true
  · exact Or.inl (Or.inr ⟨line, hshows, hshows.isBlankText_iff.1 hblank⟩)
  cases hsplit : Text.splitFirst ' ' line.toList with
  | none =>
    refine Or.inr (Or.inr (Or.inr ?_))
    simp only [bearerToken, hfirst, hvisible, if_neg hblank, hsplit]
  | some parts =>
  obtain ⟨scheme, rest⟩ := parts
  by_cases hrefused : scheme = [] ∨ Text.trimChars rest = [] ∨
      (Text.trimChars rest).any Text.isBlank
  · refine Or.inr (Or.inr (Or.inr ?_))
    simp only [bearerToken, hfirst, hvisible, if_neg hblank, hsplit, if_pos hrefused]
  obtain ⟨hline, hspace⟩ := Text.splitFirst_eq_some_iff.1 hsplit
  simp only [not_or, List.any_eq_true, not_exists, not_and, Bool.not_eq_true] at hrefused
  obtain ⟨hscheme, hword, hunbroken⟩ := hrefused
  have hcredential := hshows.isCredential hline hword hunbroken
  by_cases hbearer : String.ofList scheme = "Bearer"
  · exact Or.inr (Or.inl ⟨_, line, hshows, hbearer ▸ hcredential⟩)
  · exact Or.inr (Or.inr (Or.inl ⟨line, _, _, hshows, by simpa using hscheme,
      by simpa using hspace, hbearer, hcredential⟩))

/-! ## Which credentials give which answer -/

theorem bearerToken_of_malformed (hlacks : ¬LacksCredential headers)
    (hbears : ¬∃ token, BearsToken headers token) (hother : ¬HasOtherScheme headers) :
    bearerToken headers = .error .malformedCredential := by
  rcases bearerToken_cases headers with h | h | h | h
  · exact absurd h hlacks
  · exact absurd h hbears
  · exact absurd h hother
  · exact h

/-- **The reader answers as the grammar says.** -/
theorem bearerToken_eq_iff {answer : Except Refusal String} :
    bearerToken headers = answer ↔ Answered headers answer := by
  constructor
  · rintro rfl
    by_cases hlacks : LacksCredential headers
    · rw [bearerToken_of_lacksCredential hlacks]
      exact .missing hlacks
    by_cases hbears : ∃ token, BearsToken headers token
    · obtain ⟨token, hbears⟩ := hbears
      rw [bearerToken_of_bearsToken hbears]
      exact .token hbears
    by_cases hother : HasOtherScheme headers
    · rw [bearerToken_of_hasOtherScheme hother]
      exact .otherScheme hother
    · rw [bearerToken_of_malformed hlacks hbears hother]
      exact .malformed hlacks hbears hother
  · intro h
    cases h with
    | missing hlacks => exact bearerToken_of_lacksCredential hlacks
    | token hbears => exact bearerToken_of_bearsToken hbears
    | otherScheme hother => exact bearerToken_of_hasOtherScheme hother
    | malformed hlacks hbears hother => exact bearerToken_of_malformed hlacks hbears hother

/-- The field made of `Bearer`, a space and a word of visible characters is read as this word. -/
theorem bearsToken_of_first (hne : token ≠ "") (hvisible : ∀ c ∈ token.toList, '!' ≤ c ∧ c ≤ '~')
    (hfirst : headers.HasFirst "authorization" (Text.toBytes ("Bearer " ++ token))) :
    BearsToken headers token := by
  have hrange : ∀ c ∈ token.toList, 0x21 ≤ c.toNat ∧ c.toNat ≤ 0x7E :=
    fun c hc => (hvisible c hc).imp Text.le_iff_toNat_le.1 Text.le_iff_toNat_le.1
  have hline : ∀ c ∈ ("Bearer " ++ token).toList, 0x20 ≤ c.toNat ∧ c.toNat ≤ 0x7E := by
    intro c hc
    rw [String.toList_append, List.mem_append] at hc
    rcases hc with hc | hc
    · have hscheme : ("Bearer ".toList.all fun c => 0x20 ≤ c.toNat ∧ c.toNat ≤ 0x7E) = true := by
        decide
      simpa using List.all_eq_true.1 hscheme c hc
    · have := hrange c hc
      omega
  refine ⟨"Bearer " ++ token, showsLine_iff.2 ⟨_, Headers.first?_eq_some_iff.2 hfirst,
    Text.visible?_toBytes hline⟩, hne, fun c hc => ?_, "", "", by simp [IsPadding],
    by simp [IsPadding], by simp⟩
  have := hrange c hc
  simp only [Text.isBlank, Bool.or_eq_false_iff, Bool.and_eq_false_iff, decide_eq_false_iff_not,
    beq_eq_false_iff_ne]
  omega

/-- **Which header lists give which answer.**  Only the first `Authorization` field counts.  There
is no credential if it is missing or blank; a token is what the grammar says stands behind
`Bearer`; another scheme in front of one word is not supported; and everything else is malformed.
In particular every token of visible characters is read from the field made of `Bearer`, a space
and the token. -/
theorem bearerToken_by_grammar (headers : Headers) :
    (bearerToken headers = .error .missingCredential ↔ LacksCredential headers) ∧
    (∀ token, bearerToken headers = .ok token ↔ BearsToken headers token) ∧
    (bearerToken headers = .error .unsupportedScheme ↔ HasOtherScheme headers) ∧
    (bearerToken headers = .error .malformedCredential ↔
      ¬LacksCredential headers ∧ (¬∃ token, BearsToken headers token) ∧
        ¬HasOtherScheme headers) ∧
    (∀ token, token ≠ "" → (∀ c ∈ token.toList, '!' ≤ c ∧ c ≤ '~') →
      headers.HasFirst "authorization" (Text.toBytes ("Bearer " ++ token)) →
      bearerToken headers = .ok token) := by
  refine ⟨?_, fun token => ?_, ?_, ?_, fun token hne hvisible hfirst =>
    bearerToken_of_bearsToken (bearsToken_of_first hne hvisible hfirst)⟩
  · rw [bearerToken_eq_iff]
    exact ⟨fun | .missing hlacks => hlacks, .missing⟩
  · rw [bearerToken_eq_iff]
    exact ⟨fun | .token hbears => hbears, .token⟩
  · rw [bearerToken_eq_iff]
    exact ⟨fun | .otherScheme hother => hother, .otherScheme⟩
  · rw [bearerToken_eq_iff]
    exact ⟨fun | .malformed hlacks hbears hother => ⟨hlacks, hbears, hother⟩,
      fun ⟨hlacks, hbears, hother⟩ => .malformed hlacks hbears hother⟩

theorem bearerToken_by_grammar_firstOfTwo :
    bearerToken [("Accept", Text.toBytes "text"), ("AUTHORIZATION", Text.toBytes "Bearer a~b"),
      ("authorization", Text.toBytes "Basic c")] = .ok "a~b" :=
  (bearerToken_by_grammar _).2.2.2.2 "a~b" (by decide) (by simp)
    ⟨[("Accept", Text.toBytes "text")], "AUTHORIZATION",
      [("authorization", Text.toBytes "Basic c")], rfl, by decide +kernel, by
        simp only [Headers.Lacks, List.mem_singleton, forall_eq]
        decide +kernel⟩

/-- A tab does not end a scheme. -/
example : bearerToken [("Authorization", Text.toBytes "Bearer\t abc")] =
    .error .unsupportedScheme := by
  decide +kernel

end Session
end AccountAccess
