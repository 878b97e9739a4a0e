import AccountAccess.Proofs.Text.Decimal
import AccountAccess.Proofs.Text.Literal
import AccountAccess.Session.Owner

/-!
# The written owner of a session

An owner is written as the account id, a colon and the name of the scene.  Neither the
id nor a name holds a colon, so the first colon is the one in the middle and the text is
read as the owner that was written.

Other texts are read as well: every literal of the id will do in front of the colon, with a plus
sign or zeros that the written form does not have.  Behind the colon only the exact name will do.
So the written form is one of several, and a text that is read need not be one that was written.

## Main results

* `read?_render`: an owner is read as it was written.
* `render_injective`: the written form determines the owner.
* `IsForm`, `read?_eq_some_iff`: a text is read as an owner exactly if it is a form of it.
* `written_forms`: all of this for every owner and every text.
-/

namespace AccountAccess
namespace SessionOwner

/-! ## The written form -/

theorem toList_render (owner : SessionOwner) :
    owner.render.toList =
      (Text.decimal owner.account).toList ++ ':' :: (Labelled.name owner.scene).toList := by
  simp [render]

/-- **An owner is read as it was written.** -/
@[simp] theorem read?_render (owner : SessionOwner) : read? owner.render = some owner := by
  have hsplit : Text.splitFirst ':' owner.render.toList =
      some ((Text.decimal owner.account).toList, (Labelled.name owner.scene).toList) :=
    Text.splitFirst_eq_some_iff.2 ⟨owner.toList_render, Text.colon_notMem_decimal _⟩
  rw [read?, hsplit]
  simp only [Option.bind_eq_bind, Option.bind_some, String.ofList_toList,
    Text.readInt64?_decimal, Labelled.ofName?_name]
  rfl

theorem render_injective {owner other : SessionOwner} (h : owner.render = other.render) :
    owner = other := by
  have hread := congrArg read? h
  rw [read?_render, read?_render] at hread
  exact Option.some.inj hread

/-! ## All texts that are read -/

/-- A form of an owner: a literal of the account id, a colon and the name of the scene. -/
def IsForm (raw : String) (owner : SessionOwner) : Prop :=
  ∃ number : String, Text.IsLiteral number.toList owner.account.toInt ∧
    raw = number ++ ":" ++ Labelled.name owner.scene

theorem colon_notMem_literal {cs : List Char} {i : Int} (h : Text.IsLiteral cs i) : ':' ∉ cs := by
  intro hcolon
  exact absurd (h.sign_or_isDigit hcolon) (by decide)

/-- What is read: a number in front of the first colon, and a name behind it. -/
theorem read?_eq_some_iff_split {raw : String} {owner : SessionOwner} :
    read? raw = some owner ↔ ∃ id name, Text.splitFirst ':' raw.toList = some (id, name) ∧
      Text.IsLiteral id owner.account.toInt ∧ String.ofList name = Labelled.name owner.scene := by
  simp only [read?, Option.bind_eq_bind, Option.bind_eq_some_iff, Prod.exists, Option.pure_def,
    Option.some.injEq, Text.readInt64?_eq_some_iff, String.toList_ofList,
    Labelled.ofName?_eq_some_iff]
  constructor
  · rintro ⟨id, name, hsplit, account, hid, scene, hname, rfl⟩
    exact ⟨id, name, hsplit, hid, hname⟩
  · rintro ⟨id, name, hsplit, hid, hname⟩
    exact ⟨id, name, hsplit, owner.account, hid, owner.scene, hname, rfl⟩

/-- **A text is read as an owner exactly if it is a form of it.** -/
theorem read?_eq_some_iff {raw : String} {owner : SessionOwner} :
    read? raw = some owner ↔ IsForm raw owner := by
  rw [read?_eq_some_iff_split, Text.exists_splitFirst_iff fun id hid => colon_notMem_literal hid]
  constructor
  · rintro ⟨id, name, hraw, hid, hname⟩
    refine ⟨String.ofList id, by rwa [String.toList_ofList], ?_⟩
    rw [← hname, ← String.toList_inj, hraw]
    simp
  · rintro ⟨number, hnumber, rfl⟩
    exact ⟨number.toList, (Labelled.name owner.scene).toList, by simp, hnumber,
      String.ofList_toList⟩

/-- **Owners and their written forms.**  Every owner is read as it was written; a text is read as
an owner exactly if it is a literal of the account id, a colon and the name of the scene; no two
owners are written alike; and what is written anew for a text that was read is read as the same
owner. -/
theorem written_forms :
    (∀ owner : SessionOwner, read? owner.render = some owner) ∧
    (∀ raw owner, read? raw = some owner ↔ IsForm raw owner) ∧
    Function.Injective render ∧
    ∀ raw owner, read? raw = some owner → read? owner.render = read? raw :=
  ⟨read?_render, fun _ _ => read?_eq_some_iff, fun _ _ => render_injective,
    fun _ owner hread => (read?_render owner).trans hread.symm⟩

/-- The least account id is in range, and one less is not. -/
example : read? "-09223372036854775808:WMP" = some ⟨Int64.minValue, .miniProgram⟩ ∧
    read? "-9223372036854775809:WMP" = none ∧ read? "+1:Web" = some ⟨1, .web⟩ ∧
    read? "1:Web:" = none := by
  decide +kernel

end SessionOwner
end AccountAccess
