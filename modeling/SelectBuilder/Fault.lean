import SelectBuilder.Text.Basic

/-! Why a call is refused. `isConfig` marks what is found while a statement is being built. A character is
split when a group could be withdrawn only by cutting inside it. -/
namespace SelectBuilder

inductive Fault
  | unknownOperator (given : Text)
  | unknownConnective (given : Text)
  | unknownDirection (column direction : Text)
  | betweenCount (column : Text) (given : Nat)
  | emptyIn (column : Text)
  | inOperand (column : Text)
  | nullOperand (operator : Text)
  | listOperand (operator : Text)
  | unknownBucket (given : Text)
  | missingAlias
  | criteriaOperand (operator : Text)
  | noBackend
  | backend (message : Text)
  | missingArgument
  | unsupportedArgument
  | surplusArgument
  | evaluation (message : Text)
  | splitCharacter
  deriving DecidableEq, Repr

namespace Fault

def isConfig : Fault → Bool
  | .unknownOperator _ | .unknownConnective _ | .unknownDirection _ _ | .betweenCount _ _ | .emptyIn _
  | .inOperand _ | .nullOperand _ | .listOperand _ | .unknownBucket _ | .missingAlias
  | .criteriaOperand _ => true
  | _ => false

def ticked (text : Text) : Text := ['\x60'] ++ text ++ ['\x60']

def message : Fault → Text
  | .unknownOperator given => "builder invalid operator " ++ ticked given
  | .unknownConnective given => "builder invalid logical connective " ++ ticked given
  | .unknownDirection column direction =>
    "builder invalid order direction " ++ ticked direction ++ " for column " ++ ticked column
  | .betweenCount column given =>
    "builder BETWEEN on " ++ ticked column ++ " requires exactly 2 values, got " ++ Text.ofNat given
  | .emptyIn column => "builder IN on " ++ ticked column ++ " requires a non-empty list"
  | .inOperand column => "builder IN on " ++ ticked column ++ " requires a list or a subquery"
  | .nullOperand operator => "builder NULL value can not be used with operator " ++ ticked operator
  | .listOperand operator => "builder list value can not be used with operator " ++ ticked operator
  | .unknownBucket given => "builder unknown binding bucket " ++ ticked given
  | .missingAlias => "builder subquery used as a table requires an alias"
  | .criteriaOperand operator =>
    "builder criteria group takes no operand, got operator " ++ ticked operator ++ " or a value"
  | .noBackend => "builder has no driver attached"
  | .backend message => message
  | .missingArgument => "builder not enough args when interpolating"
  | .unsupportedArgument => "builder unsupported args when interpolating"
  | .surplusArgument => "builder too many args when interpolating"
  | .evaluation message => "builder sql valuer error: " ++ message
  | .splitCharacter => "builder group can not be withdrawn inside a character"

end Fault

/-! Answers one after the other: the first refusal is the answer of the whole. -/

@[simp] theorem okBind {α β : Type} (a : α) (f : α → Except Fault β) : (Except.ok a >>= f) = f a := rfl

@[simp] theorem errorBind {α β : Type} (fault : Fault) (f : α → Except Fault β) :
    (Except.error fault >>= f) = .error fault := rfl

theorem bindIsOk {α β : Type} {x : Except Fault α} {f : α → Except Fault β} {b : β} (ok : x >>= f = .ok b) :
    ∃ a, x = .ok a ∧ f a = .ok b := by
  cases x with
  | error fault => simp at ok
  | ok a => exact ⟨a, rfl, ok⟩

theorem mapIsOk {α β : Type} {x : Except Fault α} {f : α → β} {b : β} (ok : x.map f = .ok b) :
    ∃ a, x = .ok a ∧ f a = b := by
  cases x with
  | error fault => contradiction
  | ok a => exact ⟨a, rfl, Except.ok.inj ok⟩

end SelectBuilder
