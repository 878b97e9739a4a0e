import AccountAccess.Labelled
import AccountAccess.Text.Integer
import AccountAccess.Text.Split

/-!
# Whose session it is

A session belongs to an account in a scene.  The cache keeps the owner as the
account id in decimal, a colon and the name of the scene.
-/

namespace AccountAccess

/-- The owner of a session. -/
structure SessionOwner where
  account : Int64
  scene : Scene
  deriving DecidableEq, Repr

namespace SessionOwner

/-- The written form of an owner. -/
def render (owner : SessionOwner) : String :=
  Text.decimal owner.account ++ ":" ++ Labelled.name owner.scene

/-- Reads an owner; the first colon ends the account id. -/
def read? (raw : String) : Option SessionOwner := do
  let (id, scene) ← Text.splitFirst ':' raw.toList
  return { account := ← Text.readInt64? (String.ofList id)
           scene := ← Labelled.ofName? (String.ofList scene) }

end SessionOwner
end AccountAccess
