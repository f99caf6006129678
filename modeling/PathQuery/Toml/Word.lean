import PathQuery.Decimal.Layout
import PathQuery.Text.Hexadecimal

/-! # Numbers and times of TOML

What stands without quotes as a value: truth values, integers, doubles, dates and times.  Digits
may be grouped with single underscores between them.  Integers are those of a signed word of 64
bits. -/

namespace PathQuery.Toml

/-! ### Numbers -/

/-- Digits without the underscores that stand between them. -/
def ungroup? (isDigit : Char → Bool) : List Char → Option (List Char)
  | [] => none
  | c :: cs =>
    if isDigit c then
      match cs with
      | [] => some [c]
      | '_' :: rest => (ungroup? isDigit rest).map (c :: ·)
      | rest => (ungroup? isDigit rest).map (c :: ·)
    else none

/-- Decimal digits of which the first is no zero, unless it is the only one. -/
def decimalDigits? (cs : List Char) : Option (List Char) :=
  match ungroup? Char.isDigit cs with
  | some ('0' :: _ :: _) => none
  | digits? => digits?

/-- The number in digits of a base. -/
def natOfBase? (base : Nat) (cs : List Char) : Option Nat :=
  (ungroup? (fun c => (Text.hexValue? c).any (· < base)) cs).bind (Text.radixValue? base)

/-- The largest integer. -/
def maxInteger : Nat := halfWordCount - 1

/-- A natural number that is an integer of TOML. -/
def boundedNat? (n : Nat) : Option Int := if n ≤ maxInteger then some n else none

/-- Reads an integer, decimal with a sign or without, or in base 16, 8 or 2 without a sign. -/
def integer? : List Char → Option Int
  | '0' :: 'x' :: cs => (natOfBase? 16 cs).bind boundedNat?
  | '0' :: 'o' :: cs => (natOfBase? 8 cs).bind boundedNat?
  | '0' :: 'b' :: cs => (natOfBase? 2 cs).bind boundedNat?
  | cs =>
    let (negative, cs) := Decimal.splitSign cs
    match decimalDigits? cs with
    | none => none
    | some digits =>
      let n := Decimal.digitsValue digits
      if negative then if n ≤ maxInteger + 1 then some (-(n : Int)) else none
      else boundedNat? n

/-- Digits and the underscores among them. -/
def isGrouped (c : Char) : Bool := c.isDigit || c == '_'

/-- Whether a text is an exponent: a letter, a sign or none, digits. -/
def isExponent : List Char → Bool
  | c :: cs =>
    (c == 'e' || c == 'E') && (ungroup? Char.isDigit (Decimal.splitSign cs).2).isSome
  | [] => false

/-- Whether a text without its sign is a decimal with a point, an exponent, or both. -/
def isFractional (cs : List Char) : Bool :=
  (decimalDigits? (cs.takeWhile isGrouped)).isSome &&
    match cs.dropWhile isGrouped with
    | '.' :: rest =>
      (ungroup? Char.isDigit (rest.takeWhile isGrouped)).isSome &&
        (rest.dropWhile isGrouped == [] || isExponent (rest.dropWhile isGrouped))
    | rest => isExponent rest

/-- Reads a double.  A positive number too large for a double is refused. -/
def float? (cs : List Char) : Option Binary64 :=
  let (negative, magnitude) := Decimal.splitSign cs
  if magnitude == "inf".toList then some (.infinity negative)
  else if magnitude == "nan".toList then some .nan
  else if isFractional magnitude then
    match (Decimal.ofChars? (cs.filter (· != '_'))).map Decimal.Written.toBinary64 with
    | some x => if x == .infinity false then none else some x
    | none => none
  else none

/-! ### Dates and times -/

/-- Two digits, with the number that they write, and what follows. -/
def twoDigits? : List Char → Option (Nat × List Char)
  | a :: b :: cs =>
    if a.isDigit && b.isDigit then some (Decimal.digitsValue [a, b], cs) else none
  | _ => none

def daysOfMonth (year month : Nat) : Nat :=
  if month == 2 then
    if year % 4 == 0 && (year % 100 != 0 || year % 400 == 0) then 29 else 28
  else if [4, 6, 9, 11].contains month then 30
  else 31

def afterDate? (cs : List Char) : Option (List Char) :=
  match twoDigits? cs with
  | none => none
  | some (century, cs) =>
    match twoDigits? cs with
    | some (year, '-' :: cs) =>
      match twoDigits? cs with
      | some (month, '-' :: cs) =>
        match twoDigits? cs with
        | some (day, cs) =>
          if 1 ≤ month && month ≤ 12 && 1 ≤ day && day ≤ daysOfMonth (100 * century + year) month
          then some cs
          else none
        | none => none
      | _ => none
    | _ => none

/-- What follows hours and minutes. -/
def afterMinutes? (cs : List Char) : Option (List Char) :=
  match twoDigits? cs with
  | some (hour, ':' :: cs) =>
    match twoDigits? cs with
    | some (minute, cs) => if hour ≤ 23 && minute ≤ 59 then some cs else none
    | none => none
  | _ => none

/-- What follows a fraction of a second, if there is one. -/
def afterFraction? : List Char → Option (List Char)
  | '.' :: cs => if (cs.takeWhile Char.isDigit).isEmpty then none else some (cs.dropWhile Char.isDigit)
  | cs => some cs

/-- What follows a time of the day; the last minute may have a leap second. -/
def afterTime? (cs : List Char) : Option (List Char) :=
  match afterMinutes? cs with
  | some (':' :: cs) =>
    match twoDigits? cs with
    | some (second, cs) => if second ≤ 60 then afterFraction? cs else none
    | none => none
  | _ => none

/-- Whether a text is the distance of a local time from the universal one, or nothing. -/
def isOffset : List Char → Bool
  | [] => true
  | c :: cs =>
    if c == '+' || c == '-' then afterMinutes? cs == some []
    else (c == 'Z' || c == 'z') && cs == []

def isDate (cs : List Char) : Bool := afterDate? cs == some []

/-- Whether a text is a time of the day, with an offset or without. -/
def isOffsetTime (cs : List Char) : Bool := (afterTime? cs).any isOffset

/-- Whether a text is a date, a time of the day, or both with a letter between them. -/
def isMoment (cs : List Char) : Bool :=
  match afterDate? cs with
  | some [] => true
  | some (c :: rest) => (c == 'T' || c == 't') && isOffsetTime rest
  | none => afterTime? cs == some []

end PathQuery.Toml
