import TagTemplate.Yaml.Node

/-!
# Timestamps

A date of the calendar, alone or with the time of a day and the distance of a time zone.
-/

namespace TagTemplate.Yaml

/-- The time of a day, and the distance of the time zone in minutes if it has one. -/
structure Clock where
  hour : Nat
  minute : Nat
  second : Nat
  microsecond : Nat
  zone : Option Int
  deriving DecidableEq, Repr

structure Timestamp where
  year : Nat
  month : Nat
  day : Nat
  clock : Option Clock
  deriving DecidableEq, Repr

def isLeapYear (year : Nat) : Bool := year % 4 == 0 && (year % 100 != 0 || year % 400 == 0)

def daysOfMonth (year month : Nat) : Nat :=
  if month = 2 then if isLeapYear year then 29 else 28
  else if month = 4 || month = 6 || month = 9 || month = 11 then 30
  else 31

def minutesOfDay : Nat := 24 * 60

def Clock.isValid (c : Clock) : Bool :=
  c.hour < 24 && c.minute < 60 && c.second < 60 && c.zone.all (·.natAbs < minutesOfDay)

def Timestamp.isValid (t : Timestamp) : Bool :=
  1 ≤ t.year && 1 ≤ t.month && t.month ≤ 12 && 1 ≤ t.day && t.day ≤ daysOfMonth t.year t.month &&
    t.clock.all Clock.isValid

def decimal (cs : List Char) : Nat := cs.foldl (fun n c => 10 * n + (c.toNat - 0x30)) 0

def readZone (cs : List Char) : Option Int :=
  match cs.dropWhile isSpace with
  | [] => none
  | sign :: cs =>
    let minutes := match Text.pieces ':' cs with
      | [hours] => 60 * decimal hours
      | [hours, minutes] => 60 * decimal hours + decimal minutes
      | _ => 0
    if sign = 'Z' then some 0 else some (if sign = '-' then -(minutes : Int) else minutes)

def readClock (cs : List Char) : Clock :=
  let hours := cs.takeWhile (· != ':')
  let rest := (cs.dropWhile (· != ':')).drop 1
  let minutes := rest.takeWhile (· != ':')
  let rest := (rest.dropWhile (· != ':')).drop 1
  let seconds := rest.take 2
  let (fraction, zone) := match rest.drop 2 with
    | '.' :: rest => (rest.takeWhile Char.isDigit, rest.dropWhile Char.isDigit)
    | rest => ([], rest)
  { hour := decimal hours
    minute := decimal minutes
    second := decimal seconds
    microsecond := decimal ((fraction ++ List.replicate 6 '0').take 6)
    zone := readZone zone }

def readTimestamp (cs : List Char) : Except DocumentFault Timestamp :=
  if !isTimestamp cs then .error .notDate
  else
    let date := cs.takeWhile fun c => c.isDigit || c == '-'
    let clock := match cs.drop date.length with
      | [] => none
      | _ :: rest => some (readClock (rest.dropWhile isSpace))
    match Text.pieces '-' date with
    | [year, month, day] =>
      let t : Timestamp := ⟨decimal year, decimal month, decimal day, clock⟩
      if t.isValid then .ok t else .error .notValue
    | _ => .error .notDate

def padded (width n : Nat) : String :=
  let digits := toString n
  String.ofList (List.replicate (width - digits.length) '0') ++ digits

def zoneText (minutes : Int) : String :=
  (if minutes < 0 then "-" else "+") ++ padded 2 (minutes.natAbs / 60) ++ ":" ++
    padded 2 (minutes.natAbs % 60)

def Clock.text (c : Clock) : String :=
  padded 2 c.hour ++ ":" ++ padded 2 c.minute ++ ":" ++ padded 2 c.second ++
    (if c.microsecond = 0 then "" else "." ++ padded 6 c.microsecond) ++
    (c.zone.map zoneText).getD ""

def Timestamp.text (t : Timestamp) : String :=
  padded 4 t.year ++ "-" ++ padded 2 t.month ++ "-" ++ padded 2 t.day ++
    (t.clock.map fun c => " " ++ c.text).getD ""

end TagTemplate.Yaml
