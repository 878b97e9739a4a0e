import AccountAccess.Account.Basic
import AccountAccess.Text.DecimalDigit
import AccountAccess.Text.Split

/-!
# Login identifiers

People sign in with a phone number, an e-mail address or a user name, and the
text itself tells which of the three it is.  Blanks around it do not count.

* A phone number is a `1`, a digit from `3` to `9` and nine decimal digits of any
  script.
* An e-mail address is a local part, an at sign, a label, a point and a rest.
* A user name is four to twenty ASCII letters and digits, not all of them digits.
-/

namespace AccountAccess

/-- A login identifier: which column of the account table it is looked up in, and
the value. -/
inductive Identifier where
  | phone (value : String)
  | email (value : String)
  | username (value : String)
  deriving DecidableEq, Repr

namespace Identifier

/-- An ASCII letter or digit. -/
def isAlphanumeric (c : Char) : Bool :=
  c.isAlpha || c.isDigit

/-- A phone number. -/
def isPhone : List Char → Bool
  | one :: second :: rest =>
    one == '1' && ('3' ≤ second && second ≤ '9') && rest.length == 9 &&
      rest.all Text.isDecimalDigit
  | _ => false

/-- A character of the local part of an e-mail address. -/
def isLocalChar (c : Char) : Bool :=
  isAlphanumeric c || c == '_' || c == '.' || c == '+' || c == '-'

/-- A character of a domain label. -/
def isLabelChar (c : Char) : Bool :=
  isAlphanumeric c || c == '-'

/-- A character of what follows the first label of a domain. -/
def isDomainChar (c : Char) : Bool :=
  isAlphanumeric c || c == '-' || c == '.'

/-- A domain: a label, a point and a rest.  No label has a point, so the first
point ends the label. -/
def isDomain (cs : List Char) : Bool :=
  match Text.splitFirst '.' cs with
  | some (label, rest) =>
    !label.isEmpty && label.all isLabelChar && !rest.isEmpty && rest.all isDomainChar
  | none => false

/-- An e-mail address.  No local part has an at sign, so the first at sign ends
it. -/
def isEmail (cs : List Char) : Bool :=
  match Text.splitFirst '@' cs with
  | some (front, domain) => !front.isEmpty && front.all isLocalChar && isDomain domain
  | none => false

/-- A user name. -/
def isUsername (cs : List Char) : Bool :=
  4 ≤ cs.length && cs.length ≤ 20 && cs.all isAlphanumeric && !cs.all Char.isDigit

/-- The identifier that a text is, if it is one. -/
def read? (raw : String) : Option Identifier :=
  let s := Text.trim raw
  let cs := s.toList
  if isPhone cs then some (.phone s)
  else if isEmail cs then some (.email s)
  else if isUsername cs then some (.username s)
  else none

/-- The text of an identifier. -/
def value : Identifier → String
  | phone v | email v | username v => v

/-- Whether an identifier is that of an account. -/
def isOf (identifier : Identifier) (account : Account) : Bool :=
  match identifier with
  | phone v => account.phone == v
  | email v => account.email == some v
  | username v => account.username == v

end Identifier
end AccountAccess
