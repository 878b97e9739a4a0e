import AccountAccess.Text.Blank
import AccountAccess.Text.Integer
import AccountAccess.Time.Calendar

/-!
# Points in time

A timestamp counts seconds from the start of 1970 in UTC, with a fraction in
nanoseconds.  A fraction of a second or more marks a leap second: it belongs to
the second after the counted one.  The representable timestamps run over the
years -262143 to 262142.

The written form follows RFC 3339: UTC, a `Z`, and as many fraction digits as are
needed out of none, three, six and nine.  Reading is more lenient than writing:
it takes any offset, blanks between the parts, one-digit months, days and times,
and a blank instead of the `T`.
-/

namespace AccountAccess

/-- A point in time.  `nanos` is below two thousand million; one thousand million
or more marks a leap second. -/
structure Timestamp where
  seconds : Int
  nanos : Nat := 0
  deriving DecidableEq, Repr, Inhabited

namespace Timestamp

/-- The seconds in a day. -/
def secondsPerDay : Int := 86400

/-- The first representable second, the start of the year -262143. -/
def earliest : Int := -8334601228800

/-- The last representable second, the end of the year 262142. -/
def latest : Int := 8210266876799

/-- The timestamp a whole number of seconds after the start of 1970, when it is
representable. -/
def ofSeconds? (seconds : Int) : Option Timestamp :=
  if earliest ≤ seconds ∧ seconds ≤ latest then some ⟨seconds, 0⟩ else none

/-- The longest time span, in seconds, whose milliseconds fit a signed 64-bit
integer. -/
def longestSpan : Int := 9223372036854775

/-- The timestamp a span of seconds later, when the span and the result are
representable. -/
def addSeconds? (t : Timestamp) (span : Int) : Option Timestamp :=
  if -longestSpan ≤ span ∧ span ≤ longestSpan ∧
      earliest ≤ t.seconds + span ∧ t.seconds + span ≤ latest then
    some { t with seconds := t.seconds + span }
  else
    none

/-- Nanoseconds since the start of 1970. -/
def totalNanos (t : Timestamp) : Int :=
  t.seconds * 1000000000 + t.nanos

/-- Whole microseconds since the start of 1970. -/
def microseconds (t : Timestamp) : Int :=
  t.totalNanos / 1000

/-- The timestamp a number of microseconds after the start of 1970; it is never in a
leap second. -/
def ofMicroseconds (n : Int) : Timestamp :=
  ⟨n / 1000000, (n % 1000000).toNat * 1000⟩

/-- The whole days from one timestamp to another, cut toward zero. -/
def daysUntil (start finish : Timestamp) : Int :=
  Int.tdiv (finish.totalNanos - start.totalNanos) (secondsPerDay * 1000000000)

/-! ## Writing -/

/-- A natural number with leading zeros up to a width. -/
def padded (width n : Nat) : List Char :=
  let digits := Nat.toDigits 10 n
  List.replicate (width - digits.length) '0' ++ digits

/-- A year: four digits, and a sign when four unsigned digits do not hold it. -/
def yearChars (year : Int) : List Char :=
  if 0 ≤ year ∧ year ≤ 9999 then padded 4 year.toNat
  else if year < 0 then '-' :: padded 4 year.natAbs
  else '+' :: padded 4 year.natAbs

/-- A fraction of a second with the fewest of zero, three, six and nine digits. -/
def fractionChars (nanos : Nat) : List Char :=
  if nanos = 0 then []
  else if nanos % 1000000 = 0 then '.' :: padded 3 (nanos / 1000000)
  else if nanos % 1000 = 0 then '.' :: padded 6 (nanos / 1000)
  else '.' :: padded 9 nanos

/-- The written form of a timestamp. -/
def render (t : Timestamp) : String :=
  let date := Time.dateOfDays (t.seconds / secondsPerDay)
  let rest := (t.seconds % secondsPerDay).toNat
  let leap := if t.nanos < 1000000000 then 0 else 1
  String.ofList <|
    yearChars date.year ++ '-' :: padded 2 date.month.toNat ++ '-' :: padded 2 date.day.toNat ++
    'T' :: padded 2 (rest / 3600) ++ ':' :: padded 2 (rest / 60 % 60) ++
    ':' :: padded 2 (rest % 60 + leap) ++ fractionChars (t.nanos % 1000000000) ++ ['Z']

/-! ## Reading -/

/-- Skips blanks. -/
def skipBlank (cs : List Char) : List Char :=
  cs.dropWhile Text.isBlank

/-- At least one and at most `most` ASCII digits. -/
def takeDigits (most : Nat) (cs : List Char) : Option (List Char × List Char) :=
  let digits := (cs.take most).takeWhile Char.isDigit
  if digits = [] then none else some (digits, cs.drop digits.length)

/-- A number of at most `most` digits after blanks. -/
def takeNumber (most : Nat) (cs : List Char) : Option (Nat × List Char) :=
  (takeDigits most (skipBlank cs)).map fun (digits, rest) => (Nat.ofDigitChars 10 digits 0, rest)

/-- A given mark after blanks. -/
def takeMark (mark : Char) (cs : List Char) : Option (List Char) :=
  match skipBlank cs with
  | c :: rest => if c = mark then some rest else none
  | [] => none

/-- A year: up to four digits, or a sign and any number of digits. -/
def takeYear (cs : List Char) : Option (Int × List Char) :=
  match skipBlank cs with
  | '-' :: rest =>
    (takeDigits rest.length rest).map fun (ds, rest) => (-(Nat.ofDigitChars 10 ds 0 : Int), rest)
  | '+' :: rest =>
    (takeDigits rest.length rest).map fun (ds, rest) => ((Nat.ofDigitChars 10 ds 0 : Int), rest)
  | rest => (takeDigits 4 rest).map fun (ds, rest) => ((Nat.ofDigitChars 10 ds 0 : Int), rest)

/-- The nanoseconds of a fraction: nine digits count and further ones are dropped.
No point, no fraction. -/
def takeFraction : List Char → Option (Nat × List Char)
  | '.' :: cs =>
    (takeDigits 9 cs).map fun (digits, rest) =>
      (Nat.ofDigitChars 10 digits 0 * Nat.pow 10 (9 - digits.length), rest.dropWhile Char.isDigit)
  | cs => some (0, cs)

/-- Two ASCII digits. -/
def takeTwoDigits : List Char → Option (Nat × List Char)
  | a :: b :: rest =>
    if a.isDigit ∧ b.isDigit then some (Nat.ofDigitChars 10 [a, b] 0, rest) else none
  | _ => none

/-- An offset from UTC in seconds: a letter `Z`, the letters `UTC`, or a sign,
hours and minutes with colons or blanks between them. -/
def takeOffset (cs : List Char) : Option (Int × List Char) :=
  match cs with
  | u :: t :: c :: rest =>
    if [u, t, c].map Char.toUpper = ['U', 'T', 'C'] then some (0, rest) else signed cs
  | _ => signed cs
where
  /-- The letter or the signed form. -/
  signed : List Char → Option (Int × List Char)
    | [] => none
    | c :: rest =>
      if c = 'Z' ∨ c = 'z' then some (0, rest)
      else if c = '+' then span 1 rest
      else if c = '-' ∨ c = '\u2212' then span (-1) rest
      else none
  /-- Hours and minutes. -/
  span (sign : Int) (cs : List Char) : Option (Int × List Char) := do
    let (hours, rest) ← takeTwoDigits cs
    let (minutes, rest) ← takeTwoDigits (rest.dropWhile fun c => c = ':' ∨ Text.isBlank c)
    if minutes < 60 then some (sign * (hours * 3600 + minutes * 60), rest) else none

/-- Reads a timestamp. -/
def read? (s : String) : Option Timestamp := do
  let (year, cs) ← takeYear s.toList
  let cs ← takeMark '-' cs
  let (month, cs) ← takeNumber 2 cs
  let cs ← takeMark '-' cs
  let (day, cs) ← takeNumber 2 cs
  let cs ← match cs with
    | c :: rest => if c = 't' ∨ c = 'T' ∨ c = ' ' then some rest else none
    | [] => none
  let (hour, cs) ← takeNumber 2 cs
  let cs ← takeMark ':' cs
  let (minute, cs) ← takeNumber 2 cs
  let cs ← takeMark ':' cs
  let (second, cs) ← takeNumber 2 cs
  let (nanos, cs) ← takeFraction cs
  let (offset, cs) ← takeOffset (skipBlank cs)
  let date : Time.Date := ⟨year, month, day⟩
  let wall := Time.daysOfDate date * secondsPerDay + hour * 3600 + minute * 60 + min second 59
  if skipBlank cs = [] ∧ date.isValid ∧ hour < 24 ∧ minute < 60 ∧ second ≤ 60 ∧
      offset.natAbs < 86400 ∧ earliest ≤ wall ∧ wall ≤ latest ∧
      earliest ≤ wall - offset ∧ wall - offset ≤ latest then
    some ⟨wall - offset, nanos + (if second = 60 then 1000000000 else 0)⟩
  else
    none

end Timestamp
end AccountAccess
