import AccountAccess.Proofs.Session.Verdict
import AccountAccess.Proofs.Text.Visible

/-!
# Declared scenes

A request may declare the scene it comes from, and a session is good in its own scene only.
The declaration is a line of bytes.  As long as all of them can be read, a wrong declaration
keeps the request out, whatever the surroundings.

A line with a byte that cannot be read is not refused as an unreadable credential is: the
request goes on as if the field were not there.  So a wrong declaration is enforced exactly if
it can be read.

A declaration that is read may still be blank or no scene at all.  The former declares nothing, and
the latter is no scene of any session, so neither gives a way round the comparison.

## Main results

* `Enforced`: a value keeps out every request of a session with another scene.
* `enforced_of_isVisible`: what can be read is enforced.
* `identify_of_unreadable`: a request with a value that cannot be read is taken as if it had none.
* `enforced_iff`: a declared scene is enforced exactly if it can be read.
-/

namespace AccountAccess
namespace Session

open Http (Headers)

variable {headers other : Headers} {value : List UInt8}

/-! ## Enforcement -/

/-- **A value of the field for the scene is enforced**: no request whose first such field has
this value, and by it another scene than that of its session, is let in. -/
def Enforced (value : List UInt8) : Prop :=
  ∀ (world : World) (headers : Headers) (token : String) (owner : SessionOwner),
    bearerToken headers = .ok token → ownerOf world token = some owner →
    headers.first? sceneField = some value → Text.trimBytes value ≠ [] →
    Text.trimBytes value ≠ Text.toBytes (Labelled.name owner.scene) →
    ∀ identity, (world.run (identify headers)).1 ≠ .finished (.ok identity)

/-! ## Declarations that can be read -/

theorem visible?_toBytes_name (scene : Scene) :
    Text.visible? (Text.toBytes (Labelled.name scene)) = some (Labelled.name scene) := by
  cases scene with
  | _ => decide +kernel

/-- A field that can be read declares what is left of its bytes after trimming. -/
theorem declares_of_isVisible (hvalue : headers.first? sceneField = some value)
    (hvisible : ∀ byte ∈ value, Text.IsVisible byte) (hne : Text.trimBytes value ≠ []) :
    Declares headers (String.ofList ((Text.trimBytes value).map Text.ofByte)) := by
  refine ⟨?_, value, String.ofList (value.map Text.ofByte), Headers.first?_eq_some_iff.1 hvalue,
    Text.visible?_eq_some_iff.2 ⟨hvisible, rfl⟩, ?_⟩
  · intro hempty
    rw [String.ofList_eq_empty_iff, List.map_eq_nil_iff] at hempty
    exact hne hempty
  · rw [Text.trim, String.toList_ofList, Text.trimChars_map_ofByte hvisible]

/-- **What can be read is enforced.** -/
theorem enforced_of_isVisible (hvisible : ∀ byte ∈ value, Text.IsVisible byte) :
    Enforced value := by
  intro world headers token owner htoken howner hvalue hne hother identity hadmitted
  obtain ⟨verdict, after, hrun, hverdict, -⟩ := run_identify world headers
  rw [hrun] at hadmitted
  obtain rfl : verdict = .ok identity := Outcome.finished.inj hadmitted
  cases hverdict with
  | @identified shown found account hshows =>
    obtain rfl : shown = token := Except.ok.inj (hshows.token_eq.symm.trans htoken)
    have hread : ownerOf world shown = some found := by
      have hfound := hshows.session_eq
      rw [sessionOf] at hfound
      split at hfound
      · exact hfound
      · exact absurd hfound (by simp)
    obtain rfl : found = owner := Option.some.inj (hread.symm.trans howner)
    have hname := hshows.agrees _ (declares_of_isVisible hvalue hvisible hne)
    rw [← (Text.visible?_eq_some_iff.1 (visible?_toBytes_name _)).2, String.ofList_inj] at hname
    exact hother (List.map_injective_iff.2 Text.ofByte_injective hname)

/-! ## Declarations that cannot be read -/

/-- The fields other than those for the scene. -/
def withoutScene (headers : Headers) : Headers :=
  headers.filter fun field => Http.lowerCase field.1 != sceneField

theorem bearerToken_withoutScene : bearerToken (withoutScene headers) = bearerToken headers := by
  have hfirst : (withoutScene headers).first? "authorization" =
      headers.first? "authorization" := by
    rw [withoutScene, Headers.first?, Headers.first?, List.find?_filter]
    congr 2
    funext field
    by_cases hname : Http.lowerCase field.1 = "authorization"
    · simp [hname, sceneField]
    · simp [hname]
  unfold bearerToken
  rw [hfirst]

theorem trimmed?_withoutScene : (withoutScene headers).trimmed? sceneField = none := by
  have hfirst : (withoutScene headers).first? sceneField = none := by
    rw [withoutScene, Headers.first?, List.find?_filter]
    simp
  rw [Headers.trimmed?, Headers.readable?, hfirst]
  rfl

/-- **What cannot be read counts for nothing**: the request is taken as if it had no field for
the scene. -/
theorem identify_of_unreadable (hvalue : headers.first? sceneField = some value)
    (hunreadable : ¬∀ byte ∈ value, Text.IsVisible byte) :
    identify headers = identify (withoutScene headers) := by
  have hnone : headers.trimmed? sceneField = none := by
    rw [Headers.trimmed?, Headers.readable?, hvalue, Option.bind_some,
      Text.visible?_eq_none_iff.2 hunreadable]
    rfl
  unfold identify
  rw [bearerToken_withoutScene, hnone, trimmed?_withoutScene]

/-- **A declared scene is enforced exactly if it can be read.** -/
theorem enforced_iff (value : List UInt8) :
    Enforced value ↔ ∀ byte ∈ value, Text.IsVisible byte := by
  refine ⟨fun henforced => ?_, enforced_of_isVisible⟩
  by_contra hunreadable
  have hunread : ¬∀ byte ∈ Text.trimBytes value, Text.IsVisible byte :=
    fun hall => hunreadable (Text.isVisible_of_trimBytes hall)
  have hcredential : (Http.lowerCase "Authorization" == sceneField) = false := by decide +kernel
  have hscene : (Http.lowerCase "X-Front-Scene" == sceneField) = true := by decide +kernel
  have hvalue : (showing "first" value).first? sceneField = some value := by
    simp only [showing, Headers.first?, List.find?_cons, hcredential, hscene, Option.map_some]
  have hwithout : withoutScene (showing "first" value) =
      [("Authorization", Text.toBytes ("Bearer " ++ "first"))] := by
    simp [showing, withoutScene, bne, hcredential, hscene]
  refine henforced signedInOnce (showing "first" value) "first" ⟨1, .web⟩ ?_ ?_ hvalue ?_ ?_
    (.ofAccount MemoryStore.alice .web "first") ?_
  · rw [← bearerToken_withoutScene, hwithout]
    decide +kernel
  · decide +kernel
  · intro hempty
    rw [hempty] at hunread
    exact hunread fun _ hmem => absurd hmem List.not_mem_nil
  · intro hname
    rw [hname] at hunread
    exact hunread (Text.visible?_eq_some_iff.1 (visible?_toBytes_name _)).1
  · rw [identify_of_unreadable hvalue hunreadable, hwithout]
    decide +kernel

/-- A session of one scene is used with a declaration that is no scene at all. -/
theorem admitted_of_unreadable_scene :
    bearerToken (showing "first" [0xFF]) = .ok "first" ∧
      ownerOf signedInOnce "first" = some ⟨1, .web⟩ ∧
      (showing "first" [0xFF]).first? sceneField = some [0xFF] ∧
      Text.trimBytes [0xFF] ≠ [] ∧
      Text.trimBytes [0xFF] ≠ Text.toBytes (Labelled.name Scene.web) ∧
      (signedInOnce.run (identify (showing "first" [0xFF]))).1 =
        .finished (.ok (.ofAccount MemoryStore.alice .web "first")) := by
  decide +kernel

end Session
end AccountAccess
