/-
# Reading dates and instants

A date is written year, month and day with hyphens between.  An instant is written in the form of
RFC 3339, with an offset, or without one as a date and a time of day, which then is universal time.
Outside the strict form numbers may have fewer digits and blank space in front.
-/
import Retrieval.Calendar
import Retrieval.Number.Decimal
import Retrieval.Text

namespace Retrieval.Calendar

/-! ### Parts -/

/-- At least `least` and at most `most` digits in front of a text, as a number, and what follows. -/
def takeNumber? (least most : Nat) (cs : List Char) : Option (Nat × List Char) :=
  let digits := (cs.takeWhile isDigit).take most
  if digits.length < least then none else some (ofDigits digits, cs.drop digits.length)

/-- A given character in front of a text; what follows it. -/
def takeChar? (c : Char) : List Char → Option (List Char)
  | d :: cs => if d = c then some cs else none
  | [] => none

/-- A number of one or two digits after blank space. -/
def looseNumber? (cs : List Char) : Option (Nat × List Char) :=
  takeNumber? 1 2 (Text.trimStart cs)

/-- A year after blank space: up to four digits, or a sign and any number of digits. -/
def looseYear? (cs : List Char) : Option (Int × List Char) :=
  match Text.trimStart cs with
  | '-' :: cs => (takeNumber? 1 cs.length cs).map fun (n, rest) => (-n, rest)
  | '+' :: cs => (takeNumber? 1 cs.length cs).map fun (n, rest) => (n, rest)
  | cs => (takeNumber? 1 4 cs).map fun (n, rest) => (n, rest)

/-- The years in which dates can be written. -/
def yearInRange (year : Int) : Bool := -262143 ≤ year && year ≤ 262142

/-- A date in front of a text. -/
def looseDate? (cs : List Char) : Option (Date × List Char) := do
  let (year, cs) ← looseYear? cs
  let cs ← takeChar? '-' cs
  let (month, cs) ← looseNumber? cs
  let cs ← takeChar? '-' cs
  let (day, cs) ← looseNumber? cs
  let date ← if yearInRange year then Date.of? year month day else none
  some (date, cs)

/-- The nanoseconds of an optional fraction of a second.  Digits after the ninth do not count. -/
def takeFraction? : List Char → Option (Nat × List Char)
  | '.' :: cs =>
    let digits := cs.takeWhile isDigit
    if digits.isEmpty then none
    else
      let nine := (digits ++ List.replicate (9 - digits.length) '0').take 9
      some (ofDigits nine, cs.drop digits.length)
  | cs => some (0, cs)

/-- A time of day as minutes, seconds and nanoseconds, its numbers read by `number?`. -/
def takeTime? (number? : List Char → Option (Nat × List Char)) (cs : List Char) :
    Option ((Nat × Nat × Nat) × List Char) := do
  let (hour, cs) ← number? cs
  let cs ← takeChar? ':' cs
  let (minute, cs) ← number? cs
  let cs ← takeChar? ':' cs
  let (second, cs) ← number? cs
  let (nanosecond, cs) ← takeFraction? cs
  if hour < 24 ∧ minute < 60 ∧ second ≤ 60 then
    some ((hour * 60 + minute, second, nanosecond), cs)
  else none

/-- An offset from universal time in minutes: `Z`, or a sign, hours and minutes. -/
def takeOffset? : List Char → Option (Int × List Char)
  | 'Z' :: cs | 'z' :: cs => some (0, cs)
  | sign :: cs => do
    let ahead ←
      if sign = '+' then some true else if sign = '-' ∨ sign = '\u2212' then some false else none
    let (hour, cs) ← takeNumber? 2 2 cs
    let cs ← takeChar? ':' cs
    let (minute, cs) ← takeNumber? 2 2 cs
    if hour < 24 ∧ minute < 60 then
      let n : Int := hour * 60 + minute
      some (if ahead then n else -n, cs)
    else none
  | [] => none

end Calendar

open Calendar

/-! ### Whole texts -/

/-- The value read off the front of a text, if nothing is left. -/
def Calendar.whole? {α : Type} (r : Option (α × List Char)) : Option α :=
  r.bind fun (a, rest) => if rest.isEmpty then some a else none

/-- The date that a text denotes. -/
def Date.ofText? (s : String) : Option Date := whole? (looseDate? s.toList)

namespace Instant

/-- An instant in the form of RFC 3339. -/
def strict? (cs : List Char) : Option Instant := do
  let (year, cs) ← takeNumber? 4 4 cs
  let cs ← takeChar? '-' cs
  let (month, cs) ← takeNumber? 2 2 cs
  let cs ← takeChar? '-' cs
  let (day, cs) ← takeNumber? 2 2 cs
  let date ← Date.of? year month day
  let cs ← match cs with
    | 'T' :: cs | 't' :: cs | ' ' :: cs => some cs
    | _ => none
  let ((minute, second, nanosecond), cs) ← takeTime? (takeNumber? 2 2) cs
  let (offset, cs) ← takeOffset? cs
  if cs.isEmpty then some (ofLocal date minute second nanosecond offset) else none

/-- A date, what `separator?` accepts and a time of day. -/
def loose? (separator? : List Char → Option (List Char)) (cs : List Char) : Option Instant := do
  let (date, cs) ← looseDate? cs
  let cs ← separator? cs
  let (minute, second, nanosecond) ← whole? (takeTime? looseNumber? cs)
  some ⟨date, minute, second, nanosecond⟩

/-- The instant that a text denotes.  Between date and time stands a `T`, or blank space or
nothing. -/
def ofText? (s : String) : Option Instant :=
  let cs := s.toList
  (strict? cs).or ((loose? (takeChar? 'T') cs).or (loose? some cs))

end Instant

/-- The date of a text that denotes a date or an instant. -/
def Date.ofDateOrInstant? (s : String) : Option Date :=
  (Date.ofText? s).or ((Instant.ofText? s).map Instant.date)

end Retrieval
