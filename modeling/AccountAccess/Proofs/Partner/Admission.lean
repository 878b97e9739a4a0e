import AccountAccess.Partner.Admission
import AccountAccess.Proofs.Cache.Key
import AccountAccess.Proofs.Partner.Signature
import AccountAccess.Proofs.Service.Readings
import AccountAccess.Proofs.Text.Literal
import Mathlib.Algebra.Order.Group.Unbundled.Int

/-!
# The ruling on a partner's request

A partner's request is ruled on in stages: its fields are read, its time is compared with the
window, the secret of the partner is looked up, the signature is compared, and the codes of the
partner are looked up.  `Ruling` says which ruling the surroundings give, by the first stage that
fails.  Each stage is stated for what it means: integers without bound for times, the written
signature in small letters for the comparison, membership in the set for the codes.

The ruling looks for two codes only, and the code for everything is neither of them, since no
colon stands in it.  So it makes no difference whether that code is written for a partner.

## What is signed

The time may be written in many ways, with a plus sign or zeros in front, but what is signed is its
canonical form.  So the signed text is spelled out where a signature is described (`IsSigned`): the
name, an ampersand, and the decimal digits of the time.

## Main results

* `Presents`, `ofHeaders?_eq_some_iff`: what a request presents is what is read of its fields.
* `hasSignature_iff`: the signature that is accepted, in either letter case.
* `run_get_secret`, `run_hasAny_candidates`: the two look-ups, in any surroundings.
* `Ruling`, `Ruling.unique`: the ruling by the first stage that fails, and that there is one.
* `run_partnerAt`: a request is given the ruling.
* `Ruling.granting`, `Ruling.withEverything`: one code more, and the code for everything.
* `run_partnerAt_eq_ruling`: all of this at any time and in any surroundings.
-/

namespace AccountAccess
namespace Partner

open Http (Headers)

variable {primitives : Primitives} {service : String} {window : Int64} {headers : Headers}
  {route : Route} {now : Int64} {world : World} {credentials : Credentials} {secret : String}

/-! ## What the request says -/

/-- A request presents credentials: the fields state the name, a literal of the time, and the
signature. -/
structure Presents (headers : Headers) (credentials : Credentials) : Prop where
  partner : headers.States "x-api-key" credentials.partner
  timestamp : ∃ text, headers.States "x-timestamp" text ∧
    Text.IsLiteral text.toList credentials.timestamp.toInt
  signature : headers.States "x-sign" credentials.signature

/-- **What is read of the fields is what they present.** -/
theorem ofHeaders?_eq_some_iff :
    Credentials.ofHeaders? headers = some credentials ↔ Presents headers credentials := by
  have hread : Credentials.ofHeaders? headers = some credentials ↔
      headers.trimmed? nameField = some credentials.partner ∧
      (headers.trimmed? timestampField).bind Text.readInt64? = some credentials.timestamp ∧
      headers.trimmed? signatureField = some credentials.signature := by
    obtain ⟨partner, timestamp, signature⟩ := credentials
    simp only [Credentials.ofHeaders?, Option.bind_eq_bind, Option.pure_def,
      Option.bind_eq_some_iff, Option.some.injEq, Credentials.mk.injEq]
    constructor
    · rintro ⟨_, hpartner, _, htimestamp, _, hsignature, rfl, rfl, rfl⟩
      exact ⟨hpartner, htimestamp, hsignature⟩
    · rintro ⟨hpartner, htimestamp, hsignature⟩
      exact ⟨_, hpartner, _, htimestamp, _, hsignature, rfl, rfl, rfl⟩
  rw [hread]
  simp only [Option.bind_eq_some_iff, Headers.trimmed?_eq_some_iff, Text.readInt64?_eq_some_iff]
  constructor
  · rintro ⟨hpartner, htimestamp, hsignature⟩
    exact ⟨hpartner, htimestamp, hsignature⟩
  · rintro ⟨hpartner, htimestamp, hsignature⟩
    exact ⟨hpartner, htimestamp, hsignature⟩

theorem ofHeaders?_eq_none_iff :
    Credentials.ofHeaders? headers = none ↔ ∀ credentials, ¬Presents headers credentials := by
  simp only [Option.eq_none_iff_forall_ne_some, ne_eq, ofHeaders?_eq_some_iff]

theorem isNear_iff {timestamp : Int64} :
    isNear now timestamp window = true ↔ |now.toInt - timestamp.toInt| ≤ |window.toInt| := by
  rw [isNear, decide_eq_true_eq, Int.abs_eq_natAbs, Int.abs_eq_natAbs, Int.ofNat_le]

/-- The signature is the one for the name and the time, apart from the case of its letters.  What is
signed is the name, an ampersand and the time in canonical form, whichever literal was sent. -/
def IsSigned (primitives : Primitives) (secret : String) (credentials : Credentials) : Prop :=
  Http.lowerCase credentials.signature =
    Text.hex (primitives.sign (Text.toBytes secret)
      (Text.toBytes (credentials.partner ++ "&" ++ Text.decimal credentials.timestamp)))

/-- **The signature that is accepted is the written one in either letter case.** -/
theorem hasSignature_iff (h : Presents headers credentials) :
    hasSignature primitives.sign secret (payload credentials.partner credentials.timestamp)
      credentials.signature = true ↔ IsSigned primitives secret credentials := by
  rw [hasSignature_eq_true_iff, h.signature.trim_eq, IsSigned, signature, payload]

/-! ## What the surroundings say -/

/-- The secret that is found for a partner; none is found if the reading fails. -/
def secretOf (world : World) (partner : String) : Option String :=
  if world.answersCache .cacheGet then world.reads ("ApiKey:SecretKey:" ++ partner) else none

theorem secretOf_eq (world : World) (partner : String) : secretOf world partner =
    if world.answersCache .cacheGet then world.reads (CacheKey.partnerSecret partner).text
    else none := rfl

/-- The cache says that a partner has been granted everything of a service or the route. -/
def MayUse (world : World) (service : String) (route : Route) (partner : String) : Prop :=
  world.answersCache .cacheAnyMember = true ∧
    ∃ code ∈ world.cache.membersAt world.clock ("ApiKey:Apis:" ++ partner),
      code = service ++ ":*" ∨ code = service ++ ":" ++ route.method ++ ":" ++ route.path

theorem mayUse_iff {partner : String} : MayUse world service route partner ↔
    world.answersCache .cacheAnyMember = true ∧ ∃ code ∈ world.cache.membersAt world.clock
      (CacheKey.partnerGrants partner).text, code ∈ candidates service route := by
  simp only [candidates, List.mem_pair]
  rfl

section Ruling

variable (primitives : Primitives) (service : String) (window : Int64) (headers : Headers)
  (route : Route) (now : Int64) (world : World)

/-- A partner is admitted: the request presents its name with a near time, the cache finds its
secret, the signature is made with it, and the cache finds a code that allows the route. -/
structure Admits (credentials : Credentials) (secret : String) : Prop where
  presents : Presents headers credentials
  near : |now.toInt - credentials.timestamp.toInt| ≤ |window.toInt|
  secret_eq : secretOf world credentials.partner = some secret
  signed : IsSigned primitives secret credentials
  mayUse : MayUse world service route credentials.partner

/-- **The ruling on a partner's request**, by the first stage that fails. -/
inductive Ruling : Except Refusal String → Prop where
  | unreadable (hnothing : ∀ credentials, ¬Presents headers credentials) :
      Ruling (.error .partnerInvalid)
  | untimely {credentials : Credentials} (hpresents : Presents headers credentials)
      (hfar : |window.toInt| < |now.toInt - credentials.timestamp.toInt|) :
      Ruling (.error .timestampExpired)
  | unknown {credentials : Credentials} (hpresents : Presents headers credentials)
      (hnear : |now.toInt - credentials.timestamp.toInt| ≤ |window.toInt|)
      (hsecret : secretOf world credentials.partner = none) :
      Ruling (.error .partnerInvalid)
  | forged {credentials : Credentials} {secret : String} (hpresents : Presents headers credentials)
      (hnear : |now.toInt - credentials.timestamp.toInt| ≤ |window.toInt|)
      (hsecret : secretOf world credentials.partner = some secret)
      (hforged : ¬IsSigned primitives secret credentials) :
      Ruling (.error .signatureMismatch)
  | forbidden {credentials : Credentials} {secret : String}
      (hpresents : Presents headers credentials)
      (hnear : |now.toInt - credentials.timestamp.toInt| ≤ |window.toInt|)
      (hsecret : secretOf world credentials.partner = some secret)
      (hsigned : IsSigned primitives secret credentials)
      (hnot : ¬MayUse world service route credentials.partner) :
      Ruling (.error .forbidden)
  | admitted {credentials : Credentials} {secret : String}
      (hadmits : Admits primitives service window headers route now world credentials secret) :
      Ruling (.ok credentials.partner)

end Ruling

theorem Presents.unique {other : Credentials} (h : Presents headers credentials)
    (h' : Presents headers other) : credentials = other := by
  rw [← ofHeaders?_eq_some_iff] at h h'
  exact Option.some.inj (h.symm.trans h')

theorem Ruling.unique {ruling other : Except Refusal String}
    (h : Ruling primitives service window headers route now world ruling)
    (h' : Ruling primitives service window headers route now world other) : ruling = other := by
  cases h <;> cases h' <;> grind [Presents.unique, cases Admits]

/-! ## What is looked up -/

/-- **The look-up of a secret in any surroundings.**  It leaves the look-up of codes as it
was. -/
theorem run_get_secret (world : World) (partner : String) :
    ∃ answer after, world.run (Procedure.cache (.get (CacheKey.partnerSecret partner).text)) =
        (.finished answer, after) ∧ World.Spares world after ∧
      after.answersCache .cacheAnyMember = world.answersCache .cacheAnyMember ∧
      ∀ secret, answer = .ok (some secret) ↔ secretOf world partner = some secret := by
  have hreads : world.cache.perform world.clock (.get (CacheKey.partnerSecret partner).text) =
      (some (.ok (world.reads (CacheKey.partnerSecret partner).text)), world.cache) := rfl
  obtain ⟨answer, faults, hfaults, hget, hanswered⟩ := World.run_cache_of_perform hreads
  have hkept : ({ world.noted (.cache (.get (CacheKey.partnerSecret partner).text)) with
      faults } : World).fails .cacheAnyMember = world.fails .cacheAnyMember :=
    World.fails_congr (hfaults .cacheAnyMember (by simp [CacheCall.kind]))
  refine ⟨answer, _, hget, ⟨rfl, rfl, rfl⟩, ?_, fun secret => ?_⟩
  · rw [World.answersCache, hkept]
    rfl
  · rw [secretOf_eq]
    rcases hanswered with ⟨hanswers, rfl⟩ | ⟨hanswers, e, rfl⟩
    · replace hanswers : world.answersCache .cacheGet = true := hanswers
      rw [if_pos hanswers, Except.ok.injEq]
    · replace hanswers : world.answersCache .cacheGet = false := hanswers
      rw [hanswers, if_neg Bool.false_ne_true]
      simp

/-- **The look-up of codes in any surroundings.** -/
theorem run_hasAny_candidates (world : World) (service : String) (route : Route)
    (partner : String) :
    ∃ answer after, world.run (hasAny partner (candidates service route)) =
        (.finished answer, after) ∧ World.Spares world after ∧
      (answer = .ok true ↔ MayUse world service route partner) := by
  obtain ⟨found, hperform, hfound⟩ := world.cache.perform_anyMember world.clock
    (CacheKey.partnerGrants partner).text (candidates service route)
  obtain ⟨answer, faults, -, hany, hanswered⟩ := World.run_cache_of_perform hperform
  refine ⟨answer, _, hany, ⟨rfl, rfl, rfl⟩, ?_⟩
  rcases hanswered with ⟨hanswers, rfl⟩ | ⟨hanswers, e, rfl⟩
  · replace hanswers : world.answersCache .cacheAnyMember = true := hanswers
    rw [Except.ok.injEq, hfound, mayUse_iff, and_iff_right hanswers]
    exact exists_congr fun _ => and_comm
  · replace hanswers : world.answersCache .cacheAnyMember = false := hanswers
    refine iff_of_false (by simp) fun hmay => ?_
    rw [MayUse, hanswers] at hmay
    exact absurd hmay.1 (by simp)

theorem mayUse_congr {after : World} {partner : String} (h : World.Spares world after)
    (hanswers : after.answersCache .cacheAnyMember = world.answersCache .cacheAnyMember) :
    MayUse after service route partner ↔ MayUse world service route partner := by
  rw [MayUse, MayUse, hanswers, h.cache, h.clock]

/-! ## Ruling -/

/-- **A partner's request in any surroundings** is given the ruling. -/
theorem run_partnerAt (primitives : Primitives) (service : String) (window : Int64)
    (headers : Headers) (route : Route) (now : Int64) (world : World) :
    ∃ ruling after, world.run (partnerAt primitives service window headers route now) =
        (.finished ruling, after) ∧ World.Spares world after ∧
      Ruling primitives service window headers route now world ruling := by
  unfold partnerAt
  cases hcredentials : Credentials.ofHeaders? headers with
  | none => exact ⟨_, world, rfl, .refl world, .unreadable (ofHeaders?_eq_none_iff.1 hcredentials)⟩
  | some credentials =>
    have hpresents := ofHeaders?_eq_some_iff.1 hcredentials
    dsimp only
    by_cases hisNear : isNear now credentials.timestamp window = true
    case neg =>
      rw [if_pos hisNear]
      rw [isNear_iff, not_le] at hisNear
      exact ⟨_, world, rfl, .refl world, .untimely hpresents hisNear⟩
    rw [if_neg (not_not_intro hisNear)]
    have hnear := isNear_iff.1 hisNear
    obtain ⟨answer, asked, hget, hspares, hanswers, hsecret⟩ :=
      run_get_secret world credentials.partner
    rw [World.run_bind hget]
    cases hsecretOf : secretOf world credentials.partner with
    | none =>
      rw [hsecretOf] at hsecret
      rcases answer with e | _ | secret
      · exact ⟨_, asked, rfl, hspares, .unknown hpresents hnear hsecretOf⟩
      · exact ⟨_, asked, rfl, hspares, .unknown hpresents hnear hsecretOf⟩
      · exact absurd ((hsecret secret).1 rfl) (by simp)
    | some secret =>
      obtain rfl := (hsecret secret).2 hsecretOf
      dsimp only
      by_cases hsignature : hasSignature primitives.sign secret
          (payload credentials.partner credentials.timestamp) credentials.signature = true
      case neg =>
        rw [if_pos hsignature]
        rw [hasSignature_iff hpresents] at hsignature
        exact ⟨_, asked, rfl, hspares, .forged hpresents hnear hsecretOf hsignature⟩
      rw [if_neg (not_not_intro hsignature)]
      have hsigned := (hasSignature_iff hpresents).1 hsignature
      obtain ⟨granted, after, hany, hspared, hmay⟩ :=
        run_hasAny_candidates asked service route credentials.partner
      rw [mayUse_congr hspares hanswers] at hmay
      rw [World.run_bind hany]
      have hafter : World.Spares world after := hspares.trans hspared
      by_cases hgranted : granted = .ok true
      · rw [hgranted]
        exact ⟨_, after, rfl, hafter,
          .admitted ⟨hpresents, hnear, hsecretOf, hsigned, hmay.1 hgranted⟩⟩
      · have hnot := hmay.not.1 hgranted
        rcases granted with e | _ | _
        · exact ⟨_, after, rfl, hafter, .forbidden hpresents hnear hsecretOf hsigned hnot⟩
        · exact ⟨_, after, rfl, hafter, .forbidden hpresents hnear hsecretOf hsigned hnot⟩
        · exact absurd rfl hgranted

/-! ## One code more -/

/-- The surroundings in which a code is written for a partner as well. -/
def granting (world : World) (partner code : String) : World :=
  world.adding (CacheKey.partnerGrants partner).text code

theorem secretOf_granting (world : World) (partner code other : String) :
    secretOf (granting world partner code) other = secretOf world other := by
  have hne : (CacheKey.partnerSecret other).text ≠ (CacheKey.partnerGrants partner).text := by
    intro h
    exact absurd (CacheKey.text_injective h) (by simp)
  rw [secretOf_eq, secretOf_eq, granting, World.answersCache_adding, World.reads_adding hne]

/-- **A code that is written for a partner lets that partner use the routes it allows**, and
nothing else. -/
theorem mayUse_granting (world : World) (partner code other : String) :
    MayUse (granting world partner code) service route other ↔
      MayUse world service route other ∨ world.answersCache .cacheAnyMember = true ∧
        other = partner ∧ code ∈ candidates service route := by
  have hkey : (CacheKey.partnerGrants other).text = (CacheKey.partnerGrants partner).text ↔
      other = partner := by
    rw [CacheKey.text_eq_text_iff, CacheKey.partnerGrants.injEq]
  rw [mayUse_iff, mayUse_iff, granting, World.answersCache_adding, World.clock_adding,
    World.exists_mem_membersAt_adding, hkey, and_or_left]

/-- **A ruling rests on the codes it looks for, of the partner that the request names.**  It stays
the same when any other code is written, or one for any other partner. -/
theorem Ruling.granting {ruling : Except Refusal String} {partner code : String}
    (h : Ruling primitives service window headers route now world ruling)
    (hcode : ∀ credentials, Presents headers credentials → credentials.partner = partner →
      code ∉ candidates service route) :
    Ruling primitives service window headers route now (Partner.granting world partner code)
      ruling := by
  have hmayUse : ∀ credentials, Presents headers credentials →
      (MayUse (Partner.granting world partner code) service route credentials.partner ↔
        MayUse world service route credentials.partner) := by
    intro credentials hpresents
    rw [mayUse_granting, or_iff_left]
    rintro ⟨-, hpartner, hmem⟩
    exact hcode credentials hpresents hpartner hmem
  -- Secrets stand at keys of another family, so the last stage alone could tell a difference.
  cases h with
  | unreadable hnothing => exact .unreadable hnothing
  | untimely hpresents hfar => exact .untimely hpresents hfar
  | unknown hpresents hnear hsecret =>
    exact .unknown hpresents hnear (by rw [secretOf_granting, hsecret])
  | forged hpresents hnear hsecret hforged =>
    exact .forged hpresents hnear (by rw [secretOf_granting, hsecret]) hforged
  | forbidden hpresents hnear hsecret hsigned hnot =>
    exact .forbidden hpresents hnear (by rw [secretOf_granting, hsecret]) hsigned
      (by rwa [hmayUse _ hpresents])
  | admitted hadmits =>
    obtain ⟨hpresents, hnear, hsecret, hsigned, hmay⟩ := hadmits
    exact .admitted ⟨hpresents, hnear, by rw [secretOf_granting, hsecret], hsigned,
      by rwa [hmayUse _ hpresents]⟩

/-! ## The code for everything -/

theorem ne_everything {code : String} (h : ':' ∈ code.toList) : code ≠ Grant.everything := by
  rintro rfl
  exact absurd h (by decide)

theorem everything_notMem_candidates (service : String) (route : Route) :
    Grant.everything ∉ candidates service route := by
  rw [candidates, List.mem_pair, not_or]
  exact ⟨(ne_everything (by simp [Grant.everythingOf])).symm,
    (ne_everything (by simp [Route.code])).symm⟩

/-- The surroundings in which the code for everything is written for a partner as well. -/
def withEverything (world : World) (partner : String) : World :=
  { world with cache := (world.cache.perform world.clock
      (.write [.addMembers ("ApiKey:Apis:" ++ partner) ["*"]])).2 }

theorem Ruling.withEverything {ruling : Except Refusal String}
    (h : Ruling primitives service window headers route now world ruling) (partner : String) :
    Ruling primitives service window headers route now (Partner.withEverything world partner)
      ruling :=
  h.granting fun _ _ _ => everything_notMem_candidates service route

/-! ## Soundness and completeness -/

/-- **The ruling on a partner's request.**  At any time and in any surroundings, whichever calls
of the cache fail, there is exactly one ruling and the request is given it.  A partner is admitted
exactly if nothing is missing, and no ruling is changed by writing the code for everything for a
partner.  Cache and store stay as they are. -/
theorem run_partnerAt_eq_ruling (primitives : Primitives) (service : String) (window : Int64)
    (headers : Headers) (route : Route) (now : Int64) (world : World) :
    ∃ ruling after, world.run (partnerAt primitives service window headers route now) =
        (.finished ruling, after) ∧
      (∀ other, Ruling primitives service window headers route now world other ↔
        other = ruling) ∧
      (∀ partner, ruling = .ok partner ↔ ∃ credentials secret,
        Admits primitives service window headers route now world credentials secret ∧
        credentials.partner = partner) ∧
      (∀ partner, ((withEverything world partner).run
        (partnerAt primitives service window headers route now)).1 = .finished ruling) ∧
      World.Spares world after := by
  obtain ⟨ruling, after, hrun, hspares, hruling⟩ :=
    run_partnerAt primitives service window headers route now world
  have honly : ∀ other, Ruling primitives service window headers route now world other ↔
      other = ruling := by
    intro other
    constructor
    · intro hother
      exact hother.unique hruling
    · rintro rfl
      exact hruling
  refine ⟨ruling, after, hrun, honly, fun partner => ?_, fun partner => ?_, hspares⟩
  · rw [eq_comm, ← honly]
    constructor
    · intro hadmitted
      cases hadmitted with
      | admitted hadmits => exact ⟨_, _, hadmits, rfl⟩
    · rintro ⟨credentials, secret, hadmits, rfl⟩
      exact .admitted hadmits
  · obtain ⟨other, _, hother, -, hwith⟩ := run_partnerAt primitives service window headers route now
      (withEverything world partner)
    rw [hother, hwith.unique (hruling.withEverything partner)]

/-- Surroundings in which a partner has a secret and has been granted everything of a service. -/
def withPress : World where
  wall := ⟨0, 0⟩
  cache := ((({} : MemoryCache).perform 0 (.set "ApiKey:SecretKey:press" "secret" 60)).2.perform 0
    (.write [.addMembers "ApiKey:Apis:press" ["Desk:*"]])).2
  snapshots := Snapshots.empty 1 0
  supply _ := Vector.replicate 16 0

/-- A request that is signed for the time 7, which it writes in another way, in capital letters. -/
def signedInCapitals : Headers :=
  [("X-Api-Key", Text.toBytes " press "), ("X-Timestamp", Text.toBytes "+007"),
    ("X-Sign", Text.toBytes "687F448B67F4EC9A238AD8745DDCE6F062D853CEB14CE0D7DDFE4D6120042724")]

/-- The request is admitted to a service that the partner has been granted, and to no other. -/
theorem run_partnerAt_eq_ruling_signedInCapitals :
    (withPress.run (partnerAt .standard "Desk" 30 signedInCapitals ⟨"GET", "/reports"⟩ 37)).1 =
        .finished (.ok "press") ∧
      (withPress.run (partnerAt .standard "News" 30 signedInCapitals ⟨"GET", "/reports"⟩ 37)).1 =
        .finished (.error .forbidden) ∧
      (withPress.run (partnerAt .standard "Desk" 30 signedInCapitals ⟨"GET", "/reports"⟩ 38)).1 =
        .finished (.error .timestampExpired) := by
  have hpresents : Presents signedInCapitals ⟨"press", 7,
      "687F448B67F4EC9A238AD8745DDCE6F062D853CEB14CE0D7DDFE4D6120042724"⟩ :=
    ofHeaders?_eq_some_iff.1 (by decide +kernel)
  have hsigned : IsSigned .standard "secret" ⟨"press", 7,
      "687F448B67F4EC9A238AD8745DDCE6F062D853CEB14CE0D7DDFE4D6120042724"⟩ := by
    unfold IsSigned
    decide +kernel
  have hsecret : secretOf withPress "press" = some "secret" := by decide +kernel
  obtain ⟨ruling, _, hrun, -, hadmitted, -⟩ := run_partnerAt_eq_ruling .standard "Desk" 30
    signedInCapitals ⟨"GET", "/reports"⟩ 37 withPress
  have hmay : MayUse withPress "Desk" ⟨"GET", "/reports"⟩ "press" :=
    ⟨by decide, "Desk:*", by decide +kernel, Or.inl rfl⟩
  obtain rfl := (hadmitted "press").2
    ⟨_, "secret", ⟨hpresents, by decide, hsecret, hsigned, hmay⟩, rfl⟩
  obtain ⟨denial, _, hdenied, honly, -⟩ := run_partnerAt_eq_ruling .standard "News" 30
    signedInCapitals ⟨"GET", "/reports"⟩ 37 withPress
  have hmayNot : ¬MayUse withPress "News" ⟨"GET", "/reports"⟩ "press" := by
    rw [mayUse_iff]
    decide +kernel
  obtain rfl := (honly _).1 (.forbidden hpresents (by decide) hsecret hsigned hmayNot)
  obtain ⟨lapse, _, hlapsed, honly', -⟩ := run_partnerAt_eq_ruling .standard "Desk" 30
    signedInCapitals ⟨"GET", "/reports"⟩ 38 withPress
  obtain rfl := (honly' _).1 (.untimely hpresents (by decide))
  rw [hrun, hdenied, hlapsed]
  exact ⟨rfl, rfl, rfl⟩

end Partner
end AccountAccess
