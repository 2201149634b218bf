import SelectBuilder.Arg
import SelectBuilder.Dialect
import SelectBuilder.Fault

/-! Placeholders of a statement, and the literals that are put in their places. A statement is read from left to
right: outside quotes, inside a quoted region, or behind a backslash. A region is closed by its own mark only, and
a backslash counts in string literals only. A question mark outside quotes is a live placeholder. -/
namespace SelectBuilder

inductive Region
  | outside
  | quoted (mark : Char)
  | escaped
  deriving DecidableEq, Repr

namespace Region

def isMark (c : Char) : Bool := c = '\x27' || c = '\x22' || c = '\x60'

def next : Region → Char → Region
  | .outside, c => if isMark c then .quoted c else .outside
  | .quoted mark, c =>
    if mark = '\x27' ∧ c = '\\' then .escaped
    else if c = mark then .outside
    else .quoted mark
  | .escaped, _ => .quoted '\x27'

def after : Region → Text → Region
  | r, [] => r
  | r, c :: rest => after (r.next c) rest

def isLive (r : Region) (c : Char) : Bool := r = .outside && c = '?'

def liveCount : Region → Text → Nat
  | _, [] => 0
  | r, c :: rest => (if r.isLive c then 1 else 0) + liveCount (r.next c) rest

theorem afterAppend (r : Region) (a b : Text) : r.after (a ++ b) = (r.after a).after b := by
  induction a generalizing r with
  | nil => rfl
  | cons c rest ih => exact ih (r.next c)

theorem liveCountAppend (r : Region) (a b : Text) :
    liveCount r (a ++ b) = liveCount r a + liveCount (r.after a) b := by
  induction a generalizing r with
  | nil => simp [liveCount, after]
  | cons c rest ih => simp only [List.cons_append, liveCount, after, ih, Nat.add_assoc]

theorem nextOfLive {r : Region} {c : Char} (live : r.isLive c) : r.next c = .outside := by
  simp only [isLive, Bool.and_eq_true, decide_eq_true_eq] at live
  obtain ⟨rfl, rfl⟩ := live
  rfl

end Region

/-! Values written into a statement for reading it, each dialect in its own way. Written SQL and lists
have no such form. -/

def hexDigit (n : Nat) : Char := "0123456789ABCDEF".toList.getD n '0'

def hexText (data : List UInt8) : Text :=
  data.flatMap fun b => [hexDigit (b.toNat / 16), hexDigit (b.toNat % 16)]

namespace Dialect

def bytesLiteral (d : Dialect) (data : List UInt8) : Text :=
  if data = [] then "NULL"
  else
    match d with
    | .mysql | .sqlite => ['X', '\x27'] ++ hexText data ++ ['\x27']
    | .postgresql => ['E', '\x27', '\\', '\\', 'x'] ++ hexText data ++ "'::bytea"
    | .sqlserver => "0x" ++ hexText data

def momentLiteral (d : Dialect) (t : Timestamp) : Text :=
  let shown : Text :=
    match d with
    | .sqlite => t.localText 3
    | .sqlserver => t.localText 6 ++ [' '] ++ t.shortOffset
    | .mysql | .postgresql => t.localText 6
  ['\x27'] ++ shown ++ ['\x27']

end Dialect

def Value.literal (d : Dialect) (quote : Text → Text) : Value → Text
  | .null => "NULL"
  | .bool b => if b then ['1'] else ['0']
  | .int n => Text.ofInt n.toInt
  | .nat n => Text.ofNat n.toNat
  | .float x => x.plain
  | .text t => quote t
  | .bytes data => d.bytesLiteral data
  | .moment t => d.momentLiteral t

def Arg.literal (d : Dialect) (quote : Text → Text) : Arg → Except Fault Text
  | .value v => .ok (v.literal d quote)
  | .lazy (.ok v) => .ok (v.literal d quote)
  | .lazy (.error message) => .error (.evaluation message)
  | .raw _ => .error .unsupportedArgument
  | .list _ => .error .unsupportedArgument

/-! A statement with its live placeholders replaced by what their arguments show. The first fault from
left to right is reported; arguments left over are one only when every placeholder was filled. -/

def fill (render : Arg → Except Fault Text) : Region → Text → List Arg → Except Fault Text
  | _, [], [] => .ok []
  | _, [], _ :: _ => .error .surplusArgument
  | r, c :: rest, args =>
    if r.isLive c then
      match args with
      | [] => .error .missingArgument
      | arg :: later => do
        let shown ← render arg
        let tail ← fill render .outside rest later
        .ok (shown ++ tail)
    else do
      let tail ← fill render (r.next c) rest args
      .ok (c :: tail)

def interpolate (d : Dialect) (quote : Text → Text) (sql : Text) (args : List Arg) : Except Fault Text :=
  fill (Arg.literal d quote) .outside sql args

end SelectBuilder
