import Circulation.Zone.Basic

/-!
# Named zones

A table of some zones. Zones with summer time follow their rule for every year from 2014 to 2099,
and the last change of 2099 is the last one; two zones have the changes of their past only.
-/

namespace Circulation.Zone

/-! ## Rules of summer time -/

/-- Which Sunday of a month, counted from a day of the month. -/
inductive SundayOf where
  /-- The first Sunday on or after the day. -/
  | onOrAfter (day : Nat)
  /-- The last Sunday of the month. -/
  | last
  deriving DecidableEq, Repr

/-- The first Sunday on or after a date. -/
def sundayFrom (d : Date) : Date :=
  d.addDays ((3 - d.day) % 7)

def SundayOf.date (s : SundayOf) (year : Int) (month : Nat) : Date :=
  match s with
  | .onOrAfter day => sundayFrom (Date.ofCivil ⟨year, month, day⟩)
  | .last => sundayFrom (Date.ofCivil ⟨year, month, Date.monthLength year month - 6⟩)

/-- A change that happens every year. -/
structure Yearly where
  month : Nat
  sunday : SundayOf
  /-- Seconds from the start of that Sunday in universal time to the change. -/
  shift : Int
  /-- The offset from the change on. -/
  offset : Int

def Yearly.change (y : Yearly) (year : Int) : Int × Int :=
  (86400 * (y.sunday.date year y.month).day + y.shift, y.offset)

/-- The years for which the rules hold. -/
def ruleYears : List Int :=
  (List.range 86).map fun n : Nat => 2014 + (n : Int)

/-- A zone with two changes a year, `early` before `late`. -/
def alternating (name : String) (early late : Yearly) : Zone :=
  ⟨name, late.offset, ruleYears.flatMap fun year => [early.change year, late.change year]⟩

def minutes (n : Int) : Int := 60 * n

/-- Summer time between the last Sundays of March and October. -/
def european (name : String) (standard summer startShift endShift : Int) : Zone :=
  alternating name ⟨3, .last, startShift, summer⟩ ⟨10, .last, endShift, standard⟩

/-- Summer time between the second Sunday of March and the first of November. -/
def american (name : String) (standard summer startShift endShift : Int) : Zone :=
  alternating name ⟨3, .onOrAfter 8, startShift, summer⟩ ⟨11, .onOrAfter 1, endShift, standard⟩

/-- Summer time between the first Sundays of October and April. -/
def australian (name : String) (standard summer startShift endShift : Int) : Zone :=
  alternating name ⟨4, .onOrAfter 1, endShift, standard⟩ ⟨10, .onOrAfter 1, startShift, summer⟩

/-! ## The zones -/

def constant (name : String) (offset : Int) : Zone := ⟨name, offset, []⟩

def utc : Zone := constant "UTC" 0
def etcUtc : Zone := constant "Etc/UTC" 0
def tokyo : Zone := constant "Asia/Tokyo" (minutes 540)
def kolkata : Zone := constant "Asia/Kolkata" (minutes 330)
def kathmandu : Zone := constant "Asia/Kathmandu" (minutes 345)
def kiritimati : Zone := constant "Pacific/Kiritimati" (minutes 840)

def london : Zone := european "Europe/London" 0 (minutes 60) (minutes 60) (minutes 60)

def berlin : Zone :=
  european "Europe/Berlin" (minutes 60) (minutes 120) (minutes 60) (minutes 60)

def troll : Zone := european "Antarctica/Troll" 0 (minutes 120) (minutes 60) (minutes 60)

def beirut : Zone :=
  european "Asia/Beirut" (minutes 120) (minutes 180) (minutes (-120)) (minutes (-180))

def newYork : Zone :=
  american "America/New_York" (minutes (-300)) (minutes (-240)) (minutes 420) (minutes 360)

def usEastern : Zone := { newYork with name := "US/Eastern" }

def stJohns : Zone :=
  american "America/St_Johns" (minutes (-210)) (minutes (-150)) (minutes 330) (minutes 270)

def havana : Zone :=
  american "America/Havana" (minutes (-300)) (minutes (-240)) (minutes 300) (minutes 300)

def sydney : Zone :=
  australian "Australia/Sydney" (minutes 600) (minutes 660) (minutes (-480)) (minutes (-480))

def lordHowe : Zone :=
  australian "Australia/Lord_Howe" (minutes 630) (minutes 660) (minutes (-510)) (minutes (-540))

/-- The second of universal time at an hour of a civil date. -/
def secondAt (year : Int) (month day hour : Nat) : Int :=
  86400 * (Date.ofCivil ⟨year, month, day⟩).day + 3600 * hour

def saoPaulo : Zone :=
  ⟨"America/Sao_Paulo", minutes (-180), [
    (secondAt 2017 10 15 3, minutes (-120)),
    (secondAt 2018 2 18 2, minutes (-180)),
    (secondAt 2018 11 4 3, minutes (-120)),
    (secondAt 2019 2 17 2, minutes (-180))]⟩

/-- Two changes of a year at 14:00, to standard time and back to summer time. -/
def apiaYear (year : Int) (month day : Nat) (month' day' : Nat) : List (Int × Int) :=
  [(secondAt year month day 14, minutes 780), (secondAt year month' day' 14, minutes 840)]

/-- The zone left out 2011-12-30 when it crossed the date line. -/
def apia : Zone :=
  ⟨"Pacific/Apia", minutes (-600), [
    (secondAt 2011 4 2 14, minutes (-660)),
    (secondAt 2011 9 24 14, minutes (-600)),
    (secondAt 2011 12 30 10, minutes 840)]
    ++ apiaYear 2012 3 31 9 29 ++ apiaYear 2013 4 6 9 28 ++ apiaYear 2014 4 5 9 27
    ++ apiaYear 2015 4 4 9 26 ++ apiaYear 2016 4 2 9 24 ++ apiaYear 2017 4 1 9 23
    ++ apiaYear 2018 3 31 9 29 ++ apiaYear 2019 4 6 9 28 ++ apiaYear 2020 4 4 9 26
    ++ [(secondAt 2021 4 3 14, minutes 780)]⟩

/-- The zones of the table. -/
def all : List Zone :=
  [utc, etcUtc, tokyo, kolkata, kathmandu, kiritimati, london, berlin, troll, beirut, newYork,
    usEastern, stJohns, havana, sydney, lordHowe, saoPaulo, apia]

/-- The zone with a name, which is case sensitive. -/
def named? : Table := fun name => all.find? fun z => z.name = name

end Circulation.Zone
