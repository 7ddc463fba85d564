import MonitorCoverage.Binary64.Reader

/-!
# Timestamps

A date of the form year, month and day, alone or with a time. The year has four digits, and the
other fields one or two. Between date and time stands a `T`, and a zone follows; or blanks stand
there, and no zone follows.
-/

namespace MonitorCoverage.Yaml

/-- A number of one or two digits, and what follows it. -/
def oneOrTwo? : List Char → Option (Nat × List Char)
  | a :: b :: rest =>
    if !a.isDigit then none
    else if b.isDigit then some ((a.toNat - 48) * 10 + (b.toNat - 48), rest)
    else some (a.toNat - 48, b :: rest)
  | [a] => if a.isDigit then some (a.toNat - 48, []) else none
  | [] => none

/-- What follows a character. -/
def after? (c : Char) : List Char → Option (List Char)
  | d :: rest => if d = c then some rest else none
  | [] => none

def isLeapYear (year : Nat) : Bool := year % 4 = 0 && (year % 100 != 0 || year % 400 = 0)

def daysIn (year month : Nat) : Nat :=
  if month = 2 then if isLeapYear year then 29 else 28
  else if month = 4 || month = 6 || month = 9 || month = 11 then 30
  else 31

/-- What follows a date. -/
def afterDate? (cs : List Char) : Option (List Char) := do
  let year := cs.take 4
  guard (year.length = 4 && year.all Char.isDigit)
  let rest ← after? '-' (cs.drop 4)
  let (month, rest) ← oneOrTwo? rest
  guard (1 ≤ month && month ≤ 12)
  let rest ← after? '-' rest
  let (day, rest) ← oneOrTwo? rest
  guard (1 ≤ day && day ≤ daysIn (Binary64.valueOf 10 (year.map fun c => c.toNat - 48)) month)
  some rest

/-- What follows the fraction of a second, if there is one. -/
def afterFraction (cs : List Char) : List Char :=
  match cs with
  | mark :: d :: rest =>
    if (mark = '.' || mark = ',') && d.isDigit then rest.dropWhile Char.isDigit else cs
  | _ => cs

/-- What follows a time of day. -/
def afterTime? (cs : List Char) : Option (List Char) := do
  let (hour, rest) ← oneOrTwo? cs
  guard (hour < 24)
  let rest ← after? ':' rest
  let (minute, rest) ← oneOrTwo? rest
  guard (minute < 60)
  let rest ← after? ':' rest
  let (second, rest) ← oneOrTwo? rest
  guard (second < 60)
  some (afterFraction rest)

/-- A zone: `Z`, or a sign with hours and minutes. -/
def isZone : List Char → Bool
  | ['Z'] => true
  | [sign, a, b, ':', c, d] =>
    (sign = '+' || sign = '-') && [a, b, c, d].all Char.isDigit
      && (a.toNat - 48) * 10 + (b.toNat - 48) ≤ 24 && (c.toNat - 48) * 10 + (d.toNat - 48) ≤ 60
  | _ => false

def isTimestamp (cs : List Char) : Bool :=
  match afterDate? cs with
  | none => false
  | some [] => true
  | some (mark :: rest) =>
    if mark = 'T' || mark = 't' then
      match afterTime? rest with
      | some zone => isZone zone
      | none => false
    else if mark = ' ' then afterTime? (rest.dropWhile (· = ' ')) = some []
    else false

end MonitorCoverage.Yaml
