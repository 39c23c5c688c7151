import Tabular.Decimal
import Tabular.Calendar.Moment

namespace Tabular.Calendar

def yearText (year : Int) : List Char :=
  if year < 0 then '-' :: Decimal.padded 4 year.natAbs
  else if 9999 < year then '+' :: Decimal.padded 4 year.natAbs
  else Decimal.padded 4 year.natAbs

def Date.text (d : Date) : List Char :=
  yearText d.year ++ '-' :: Decimal.padded 2 d.month ++ '-' :: Decimal.padded 2 d.day

/-- A leap second is second 60 of its minute. -/
def Clock.text (t : Clock) : List Char :=
  Decimal.padded 2 t.hour ++ ':' :: Decimal.padded 2 t.minute ++ ':' ::
    Decimal.padded 2 (t.secondOfMinute + t.nano / nanosPerSecond)

def Clock.fraction (t : Clock) : Nat := t.nano % nanosPerSecond

/-- With milliseconds, the rest of the fraction cut off: the form in which moments are stored. -/
def Moment.text (m : Moment) : String :=
  String.ofList (m.date.text ++ ' ' :: m.clock.text ++
    '.' :: Decimal.padded 3 (m.clock.fraction / 1000000))

def fractionText (nanos : Nat) : List Char :=
  if nanos = 0 then []
  else if nanos % 1000000 = 0 then '.' :: Decimal.padded 3 (nanos / 1000000)
  else if nanos % 1000 = 0 then '.' :: Decimal.padded 6 (nanos / 1000)
  else '.' :: Decimal.padded 9 nanos

def Moment.fullText (m : Moment) : String :=
  String.ofList (m.date.text ++ ' ' :: m.clock.text ++ fractionText m.clock.fraction)

def Span.text (d : Span) : String :=
  let size := d.total.natAbs
  let seconds := Decimal.digits (size / nanosPerSecond)
  let places := Decimal.padded 9 (size % nanosPerSecond)
  let fraction := (places.reverse.dropWhile (· = '0')).reverse
  let sign := if d.seconds < 0 then ['-'] else []
  String.ofList <|
    if size = 0 then ['P', '0', 'D']
    else
      sign ++ ['P', 'T'] ++ seconds ++ (if fraction.isEmpty then [] else '.' :: fraction) ++ ['S']

end Tabular.Calendar
