import AccountAccess.Http.Header
import AccountAccess.Text.Split

/-!
# Media types

A media type is a type, a slash and a subtype, then parameters behind semicolons.
Letter case does not matter.  A body is JSON when its type is `application` and
its subtype, before or behind the last plus sign in it, is `json`.
-/

namespace AccountAccess
namespace Http

/-- The characters of types, subtypes, parameter names and unquoted values. -/
def isTokenChar (c : Char) : Bool :=
  c.isAlpha || c.isDigit || "!#$%&'*+-.^_`|~".toList.contains c

/-- A character inside a quoted parameter value. -/
def isQuotedChar (c : Char) : Bool :=
  c.toNat > 31 && c.toNat != 127

/-- Whether a text is a list of parameters: each a name, an equals sign and a value
with or without quotes, with spaces before it.  A value in quotes has at least one
character, and its first one may itself be a quote.  The list may end after a
semicolon.  `fuel` bounds the number of parameters. -/
def areParameters : Nat → List Char → Bool
  | 0, _ => false
  | fuel + 1, cs =>
    let cs := cs.dropWhile (· == ' ')
    if cs = [] then true
    else
      let name := cs.takeWhile isTokenChar
      match cs.drop name.length with
      | '=' :: '"' :: first :: quoted =>
        let value := quoted.takeWhile fun c => isQuotedChar c && c != '"'
        match quoted.drop value.length with
        | '"' :: rest =>
          name ≠ [] && isQuotedChar first &&
            match rest.dropWhile (· == ' ') with
            | [] => true
            | ';' :: rest => areParameters fuel rest
            | _ => false
        | _ => false
      | '=' :: value =>
        let rest := value.dropWhile isTokenChar
        name ≠ [] &&
          match rest with
          | [] => true
          | ';' :: rest => (value.head? != some ';') && areParameters fuel rest
          | _ => false
      | _ => false

/-- The type and the subtype, in small letters, of a well-formed media type. -/
def mediaType? (s : String) : Option (String × String) :=
  let cs := s.toList
  let main := cs.takeWhile isTokenChar
  match cs.drop main.length with
  | '/' :: rest =>
    let sub := rest.takeWhile isTokenChar
    let parameters := rest.drop sub.length
    let wellFormed : Bool :=
      match parameters with
      | [] => true
      | ';' :: rest => areParameters (rest.length + 1) rest
      | _ => false
    if main ≠ [] ∧ sub ≠ [] ∧ wellFormed then
      some (lowerCase (String.ofList main), lowerCase (String.ofList sub))
    else none
  | _ => none

/-- A subtype without its suffix, and the suffix: what follows the last plus sign
that is not in front. -/
def splitSuffix (subtype : String) : String × Option String :=
  let reversed := subtype.toList.reverse
  match Text.splitFirst '+' reversed with
  | some (suffix, base) =>
    if base = [] then (subtype, none)
    else (String.ofList base.reverse, some (String.ofList suffix.reverse))
  | none => (subtype, none)

/-- Whether a subtype is JSON, with any suffix or as a suffix. -/
def isJsonSubtype (subtype : String) : Bool :=
  let (base, suffix) := splitSuffix subtype
  base == "json" || suffix == some "json"

/-- Whether the header fields announce a JSON body. -/
def announcesJson (headers : Headers) : Bool :=
  match (headers.readable? "content-type").bind mediaType? with
  | some (main, sub) => main == "application" && isJsonSubtype sub
  | none => false

end Http
end AccountAccess
