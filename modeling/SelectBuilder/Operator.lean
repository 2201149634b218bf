import SelectBuilder.Fault
import SelectBuilder.Text.Blank

/-! The operators a predicate may use. They are read by their words, in any letter case. Comparisons may
stand between two columns; some operators have a form that tests for NULL. -/
namespace SelectBuilder

inductive Operator
  | eq | lt | gt | le | ge | ne | notEq | nullSafeEq
  | between | notBetween
  | isIn | notIn
  | is | isNot
  | like | notLike
  deriving DecidableEq, Repr

namespace Operator

def sql : Operator → Text
  | .eq => "="
  | .lt => "<"
  | .gt => ">"
  | .le => "<="
  | .ge => ">="
  | .ne => "<>"
  | .notEq => "!="
  | .nullSafeEq => "<=>"
  | .between => "BETWEEN"
  | .notBetween => "NOT BETWEEN"
  | .isIn => "IN"
  | .notIn => "NOT IN"
  | .is => "IS"
  | .isNot => "IS NOT"
  | .like => "LIKE"
  | .notLike => "NOT LIKE"

def takesRange : Operator → Bool
  | .between | .notBetween => true
  | _ => false

def takesList : Operator → Bool
  | .isIn | .notIn => true
  | _ => false

def isComparison : Operator → Bool
  | .eq | .lt | .gt | .le | .ge | .ne | .notEq | .nullSafeEq => true
  | _ => false

def nullForm : Operator → Option Operator
  | .eq | .is => some .is
  | .ne | .notEq | .isNot => some .isNot
  | _ => none

theorem rangeTakesNoList {op : Operator} (ranges : op.takesRange) : ¬ op.takesList := by
  cases op <;> first | contradiction | exact Bool.false_ne_true

theorem nullFormTests {op form : Operator} (found : op.nullForm = some form) :
    (form = .is ∨ form = .isNot) ∧ ¬ op.takesRange := by
  cases op with
  | eq | is => exact ⟨.inl (Option.some.inj found).symm, Bool.false_ne_true⟩
  | ne | notEq | isNot => exact ⟨.inr (Option.some.inj found).symm, Bool.false_ne_true⟩
  | _ => contradiction

def spellings : List (Text × Operator) :=
  [("=", .eq), ("<", .lt), (">", .gt), ("<=", .le), (">=", .ge), ("<>", .ne), ("!=", .notEq), ("<=>", .nullSafeEq),
   ("between", .between), ("not between", .notBetween), ("in", .isIn), ("not in", .notIn), ("is", .is),
   ("is not", .isNot), ("like", .like), ("not like", .notLike)]

def spelledBy (text : Text) : Option Operator := (spellings.find? fun entry => entry.1 = text).map Prod.snd

def parse? (given : Text) : Option Operator := spelledBy (Text.lower (Text.collapse given))

def parse (given : Text) : Except Fault Operator :=
  match parse? given with
  | some op => .ok op
  | none => .error (.unknownOperator given)

def parseComparison (given : Text) : Except Fault Operator := do
  let op ← parse given
  if op.isComparison then .ok op else .error (.unknownOperator given)

end Operator
end SelectBuilder
