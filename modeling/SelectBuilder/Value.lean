import SelectBuilder.Decimal

/-! Values that a statement is run with. Among them are times: a date and time of day with its offset from UTC
in seconds. Days are counted in the Gregorian calendar from 1 March of year 0, years running from March. Two
timestamps name the same instant when they agree after the offset is taken away. The form for reading has hours
without padding, a fraction without zeros at its end and the whole offset; the local forms cut the fraction. -/
namespace SelectBuilder

structure Timestamp where
  year : Int
  month : Nat
  day : Nat
  hour : Nat
  minute : Nat
  second : Nat
  nanosecond : Nat
  offset : Int
  deriving DecidableEq, Repr

namespace Timestamp

def dayNumber (t : Timestamp) : Int :=
  let year := if t.month ≤ 2 then t.year - 1 else t.year
  let month := (t.month + 9) % 12
  365 * year + year.fdiv 4 - year.fdiv 100 + year.fdiv 400 + ((153 * month + 2) / 5 + t.day - 1 : Nat)

def instant (t : Timestamp) : Int :=
  let clock : Nat := t.hour * 3600 + t.minute * 60 + t.second
  (t.dayNumber * 86400 + clock - t.offset) * 1000000000 + t.nanosecond

def sameInstant (a b : Timestamp) : Bool := a.instant = b.instant

def yearText (t : Timestamp) : Text :=
  if t.year < 0 then '-' :: Text.padded 4 t.year.natAbs else Text.padded 4 t.year.natAbs

def dateText (t : Timestamp) : Text :=
  t.yearText ++ ['-'] ++ Text.padded 2 t.month ++ ['-'] ++ Text.padded 2 t.day

def minuteText (t : Timestamp) : Text :=
  [':'] ++ Text.padded 2 t.minute ++ [':'] ++ Text.padded 2 t.second ++ ['.']

def fractionText (t : Timestamp) : Text :=
  match ((Text.padded 9 t.nanosecond).reverse.dropWhile (· = '0')).reverse with
  | [] => ['0']
  | digits => digits

def offsetSign (t : Timestamp) : Char := if t.offset < 0 then '-' else '+'

def offsetHour (t : Timestamp) : Text := Text.padded 2 (t.offset.natAbs / 3600)

def offsetMinute (t : Timestamp) : Text := Text.padded 2 (t.offset.natAbs / 60 % 60)

def offsetSecond (t : Timestamp) : Text := Text.padded 2 (t.offset.natAbs % 60)

def display (t : Timestamp) : Text :=
  t.dateText ++ [' '] ++ Text.ofNat t.hour ++ t.minuteText ++ t.fractionText ++ [' ', t.offsetSign] ++
    t.offsetHour ++ [':'] ++ t.offsetMinute ++ [':'] ++ t.offsetSecond

def localText (t : Timestamp) (digits : Nat) : Text :=
  t.dateText ++ [' '] ++ Text.padded 2 t.hour ++ t.minuteText ++ (Text.padded 9 t.nanosecond).take digits

def shortOffset (t : Timestamp) : Text := t.offsetSign :: t.offsetHour ++ [':'] ++ t.offsetMinute

/-! The calendar that the days are counted in. -/

def isLeap (year : Int) : Bool := year % 4 = 0 && (year % 100 ≠ 0 || year % 400 = 0)

def monthLength (year : Int) (month : Nat) : Nat :=
  if month = 2 then if isLeap year then 29 else 28
  else if month = 4 ∨ month = 6 ∨ month = 9 ∨ month = 11 then 30
  else 31

def nextDay (t : Timestamp) : Timestamp :=
  if t.day < monthLength t.year t.month then { t with day := t.day + 1 }
  else if t.month < 12 then { t with month := t.month + 1, day := 1 }
  else { t with year := t.year + 1, month := 1, day := 1 }

/-- The days before 1 March of a year. -/
def daysBefore (year : Int) : Int := 365 * year + year.fdiv 4 - year.fdiv 100 + year.fdiv 400

theorem daysBeforeNext (year : Int) :
    daysBefore year = daysBefore (year - 1) + if isLeap year then 366 else 365 := by
  have quotient {n : Int} (positive : 0 ≤ n) (year : Int) : year.fdiv n = year / n :=
    Int.fdiv_eq_ediv_of_nonneg year positive
  have days (year : Int) : daysBefore year = 365 * year + year / 4 - year / 100 + year / 400 := by
    rw [daysBefore, quotient (by decide), quotient (by decide), quotient (by decide)]
  rw [days, days (year - 1)]
  by_cases leap : isLeap year
  · rw [if_pos leap]
    simp only [isLeap, Bool.and_eq_true, Bool.or_eq_true, decide_eq_true_eq] at leap
    omega
  · rw [if_neg leap]
    simp only [isLeap, Bool.and_eq_true, Bool.or_eq_true, decide_eq_true_eq] at leap
    omega

theorem dayNumberNext {t : Timestamp} (month : 1 ≤ t.month ∧ t.month ≤ 12)
    (day : 1 ≤ t.day ∧ t.day ≤ monthLength t.year t.month) : t.nextDay.dayNumber = t.dayNumber + 1 := by
  have counted (t : Timestamp) : t.dayNumber = daysBefore (if t.month ≤ 2 then t.year - 1 else t.year) +
      ((153 * ((t.month + 9) % 12) + 2) / 5 + t.day - 1 : Nat) := rfl
  have leap := daysBeforeNext t.year
  have back : t.year + 1 - 1 = t.year := by omega
  rw [counted, counted t, nextDay]
  split
  · dsimp only
    omega
  · rename_i last
    have months : t.month = 1 ∨ t.month = 2 ∨ t.month = 3 ∨ t.month = 4 ∨ t.month = 5 ∨ t.month = 6 ∨ t.month = 7 ∨
        t.month = 8 ∨ t.month = 9 ∨ t.month = 10 ∨ t.month = 11 ∨ t.month = 12 := by omega
    cases known : isLeap t.year <;> rw [known] at leap <;>
      rcases months with same | same | same | same | same | same | same | same | same | same | same | same <;>
      simp [same, monthLength, known, back] at last day leap ⊢ <;> omega

theorem instantNext {t : Timestamp} (month : 1 ≤ t.month ∧ t.month ≤ 12)
    (day : 1 ≤ t.day ∧ t.day ≤ monthLength t.year t.month) : t.nextDay.instant = t.instant + 86400 * 1000000000 := by
  have same : t.nextDay.hour = t.hour ∧ t.nextDay.minute = t.minute ∧ t.nextDay.second = t.second ∧
      t.nextDay.nanosecond = t.nanosecond ∧ t.nextDay.offset = t.offset := by
    unfold nextDay
    split
    · simp
    · split <;> simp
  simp only [instant, dayNumberNext month day, same]
  omega

example : sameInstant ⟨2024, 2, 29, 23, 30, 0, 0, -3600⟩ ⟨2024, 3, 1, 0, 30, 0, 0, 0⟩ := by decide +kernel

end Timestamp

/-! Numbers are the same as IEEE numbers, times as instants, and no two
kinds are alike. -/

open Decimal (Binary64)

inductive Value
  | null
  | bool (b : Bool)
  | int (n : Int64)
  | nat (n : UInt64)
  | float (x : Binary64)
  | text (t : Text)
  | bytes (data : List UInt8)
  | moment (t : Timestamp)
  deriving DecidableEq, Repr

namespace Value

def display : Value → Text
  | .null => "NULL"
  | .bool b => if b then "true" else "false"
  | .int n => Text.ofInt n.toInt
  | .nat n => Text.ofNat n.toNat
  | .float x => x.plain
  | .text t => t
  | .bytes data => "<" ++ Text.ofNat data.length ++ " bytes>"
  | .moment t => t.display

def same : Value → Value → Bool
  | .float x, .float y => x.sameNumber y
  | .moment a, .moment b => a.sameInstant b
  | a, b => a = b

end Value

end SelectBuilder
