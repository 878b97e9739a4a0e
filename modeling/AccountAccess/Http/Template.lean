import AccountAccess.Text.Percent
import AccountAccess.Text.Split

/-!
# Path templates

A template is a path in which a name in braces stands for a piece of the path up
to the next slash.  Doubled braces stand for one, also inside a name.  A request's
path fits a template when the fixed characters agree exactly and a piece at the
end of the path is not empty; a piece in front of a slash may be.  What the names
stand for is then percent-decoded.
-/

namespace AccountAccess
namespace Http

/-- A part of a template. -/
inductive TemplatePart where
  | fixed (c : Char)
  | piece (name : String)
  deriving DecidableEq, Repr

/-- A path template. -/
abbrev Template := List TemplatePart

/-- A sign in the text of a template: a brace that opens or closes a name, or a
character that stands for itself. -/
inductive TemplateSign where
  | opening
  | closing
  | plain (c : Char)
  deriving DecidableEq, Repr

namespace TemplateSign

/-- The signs of a text: braces are paired up from the left, and a pair stands for
one brace. -/
def ofChars : List Char → List TemplateSign
  | '{' :: '{' :: cs => plain '{' :: ofChars cs
  | '}' :: '}' :: cs => plain '}' :: ofChars cs
  | '{' :: cs => opening :: ofChars cs
  | '}' :: cs => closing :: ofChars cs
  | c :: cs => plain c :: ofChars cs
  | [] => []

/-- The character of a sign. -/
def char : TemplateSign → Char
  | opening => '{'
  | closing => '}'
  | plain c => c

end TemplateSign

namespace Template

/-- A name up to its closing brace, and the signs behind it.  A slash or an asterisk
in it is refused. -/
def nameRest? : List TemplateSign → Option (List Char × List TemplateSign)
  | [] => none
  | .closing :: signs => some ([], signs)
  | sign :: signs =>
    if sign.char = '/' ∨ sign.char = '*' then none
    else (nameRest? signs).map fun (name, rest) => (sign.char :: name, rest)

/-- A name behind its opening brace.  Its first character may be a slash, but is
neither a closing brace nor an asterisk, and the name ends its segment. -/
def name? : List TemplateSign → Option (String × List TemplateSign)
  | [] => none
  | first :: signs => do
    let (name, rest) ← nameRest? signs
    if first.char ≠ '}' ∧ first.char ≠ '*' ∧ (rest = [] ∨ rest.head? = some (.plain '/')) then
      some (String.ofList (first.char :: name), rest)
    else none

/-- The parts of a template, if every brace belongs to a well-formed name.  `fuel`
bounds the number of parts. -/
def ofSigns? : Nat → List TemplateSign → Option Template
  | 0, _ => none
  | _, [] => some []
  | _, .closing :: _ => none
  | fuel + 1, .plain c :: signs => (ofSigns? fuel signs).map (.fixed c :: ·)
  | fuel + 1, .opening :: signs => do
    let (name, rest) ← name? signs
    (ofSigns? fuel rest).map (.piece name :: ·)

/-- The number of pieces. -/
def pieceCount (template : Template) : Nat :=
  template.countP fun part => part matches .piece _

/-- The most pieces in a template. -/
def pieceLimit : Nat := 25

/-- The template of a text. -/
def read? (text : String) : Option Template :=
  (ofSigns? (text.length + 1) (TemplateSign.ofChars text.toList)).filter fun template =>
    template.pieceCount ≤ pieceLimit

/-- What the pieces of a fitting path stand for, each with its name and still
encoded. -/
def fit? : Template → List Char → Option (List (String × String))
  | [], [] => some []
  | [], _ => none
  | .fixed c :: parts, path =>
    match path with
    | d :: rest => if c = d then fit? parts rest else none
    | [] => none
  | .piece name :: parts, path =>
    if path = [] then none
    else
      let (piece, rest) := path.span (· != '/')
      (fit? parts rest).map ((name, String.ofList piece) :: ·)

/-- Whether a name is kept for the router's own use: what it stands for is matched
but not handed on. -/
def isReservedName (name : String) : Bool :=
  name.startsWith "__private__axum_nest_tail_param" || name.startsWith "__private__axum_fallback"

end Template

/-- Whether interfaces can be mounted under a base: it is empty, or it begins with
a slash and none of its segments begins with a colon or an asterisk. -/
def isMountable (base : String) : Bool :=
  base == "" ||
    (base.toList.head? == some '/' &&
      (Text.pieces '/' base).all fun segment =>
        segment.toList.head? != some ':' && segment.toList.head? != some '*')

end Http
end AccountAccess
