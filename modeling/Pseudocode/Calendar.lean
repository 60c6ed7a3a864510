import Pseudocode.Text.Letter

/-!
# Dates and times of day in digits

Readers for the parts that written dates are made of: a date with a four-digit year, a time of day
with an optional fraction of a second, and a time zone. The other fields have two digits, or where a
format allows it one or two. A reader gives what follows the part it has read. The day must exist in
its month.
-/

namespace Pseudocode.Calendar

/-- How many digits the fields of a date or time have. -/
inductive Width where
  | two
  | oneOrTwo
  deriving DecidableEq, Repr

/-- The digits of a field as a number, and what follows them. -/
def digits? (width : Width) : List Char → Option (Nat × List Char)
  | a :: b :: rest =>
    if isDigit a ∧ isDigit b then some ((a.toNat - 48) * 10 + (b.toNat - 48), rest)
    else if isDigit a ∧ width = .oneOrTwo then some (a.toNat - 48, b :: rest)
    else none
  | [a] => if isDigit a ∧ width = .oneOrTwo then some (a.toNat - 48, []) else none
  | [] => none

/-- A field that lies within bounds. -/
def bounded? (width : Width) (lo hi : Nat) (cs : List Char) : Option (Nat × List Char) := do
  let (n, rest) ← digits? width cs
  if lo ≤ n ∧ n ≤ hi then some (n, rest) else none

/-- What follows a particular character. -/
def skip? (c : Char) : List Char → Option (List Char)
  | d :: rest => if c = d then some rest else none
  | [] => none

/-- Whether a year has a 29th of February. -/
def isLeap (year : Nat) : Bool := year % 4 == 0 && (year % 100 != 0 || year % 400 == 0)

/-- The days of a month. -/
def daysIn (year month : Nat) : Nat :=
  if month == 2 then (if isLeap year then 29 else 28)
  else if [4, 6, 9, 11].contains month then 30 else 31

/-- What follows a date with a four-digit year. -/
def date? (width : Width) (cs : List Char) : Option (List Char) := do
  let year := cs.take 4
  if year.length = 4 ∧ year.all isDigit then
    let y := year.foldl (fun n c => 10 * n + (c.toNat - 48)) 0
    let rest ← skip? '-' (cs.drop 4)
    let (month, rest) ← bounded? width 1 12 rest
    let rest ← skip? '-' rest
    let (_, rest) ← bounded? width 1 (daysIn y month) rest
    some rest
  else none

/-- What follows the fraction of a second, if there is one. -/
def fraction (cs : List Char) : List Char :=
  match cs with
  | p :: d :: rest => if (p == '.' || p == ',') && isDigit d then rest.dropWhile isDigit else cs
  | _ => cs

/-- What follows a time of day. -/
def time? (width : Width) (cs : List Char) : Option (List Char) := do
  let (_, rest) ← bounded? width 0 23 cs
  let rest ← skip? ':' rest
  let (_, rest) ← bounded? width 0 59 rest
  let rest ← skip? ':' rest
  let (_, rest) ← bounded? width 0 59 rest
  some (fraction rest)

/-- What follows a time zone: `Z`, or hours and minutes after a sign. -/
def zone? : List Char → Option (List Char)
  | 'Z' :: rest => some rest
  | c :: rest => do
    if c == '+' || c == '-' then
      let (_, rest) ← bounded? .two 0 24 rest
      let rest ← skip? ':' rest
      let (_, rest) ← bounded? .two 0 60 rest
      some rest
    else none
  | [] => none

end Pseudocode.Calendar
