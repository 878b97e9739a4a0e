/-!
# Which passwords may be chosen

A password has eight to twenty characters, each an ASCII capital, an ASCII small
letter, an ASCII digit or one of a fixed list of symbols, and it draws on at least
three of these four classes.
-/

namespace AccountAccess
namespace Password

/-- The symbols a password may have. -/
def symbols : List Char :=
  "!@#$%^&*()\":<>,.';~-?/·".toList

/-- The classes of characters a password may have. -/
inductive CharClass where
  | capital
  | small
  | digit
  | symbol
  deriving DecidableEq, Repr

/-- All classes. -/
def CharClass.all : List CharClass :=
  [.capital, .small, .digit, .symbol]

/-- The class of a character, if it has one. -/
def classOf? (c : Char) : Option CharClass :=
  if 'A' ≤ c ∧ c ≤ 'Z' then some .capital
  else if 'a' ≤ c ∧ c ≤ 'z' then some .small
  else if '0' ≤ c ∧ c ≤ '9' then some .digit
  else if c ∈ symbols then some .symbol
  else none

/-- The number of classes that occur among some characters. -/
def classCount (cs : List Char) : Nat :=
  (CharClass.all.filter fun k => cs.any fun c => classOf? c == some k).length

/-- Whether a password may be chosen. -/
def isStrong (password : String) : Bool :=
  let cs := password.toList
  8 ≤ cs.length && cs.length ≤ 20 && cs.all (fun c => (classOf? c).isSome) &&
    3 ≤ classCount cs

end Password
end AccountAccess
