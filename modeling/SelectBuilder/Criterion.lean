import SelectBuilder.Predicate

/-! Conditions as data: a test of one column, or a list of conditions in parentheses. A list in the place
of a column admits only `=` and no operand. -/
namespace SelectBuilder

inductive Criterion
  | leaf (column : Ident) (operator : Text) (operand : Arg) (connective : Connective)
  | nest (items : List Criterion) (operator : Text) (operand : Arg) (connective : Connective)

inductive Column
  | ident (name : Ident)
  | criteria (items : List Criterion)

instance : Coe String Column := ⟨fun name => .ident (.name name)⟩
instance : Coe Ident Column := ⟨.ident⟩

namespace Criterion

def noOperand : Arg := .list []

def isNoOperand : Arg → Bool
  | .list [] => true
  | _ => false

def test (column : Column) (operator : Text) (operand : Arg) (c : Connective) : Criterion :=
  match column with
  | .ident name => .leaf name operator operand c
  | .criteria items => .nest items operator operand c

def group (items : List Criterion) (c : Connective) : Criterion := .nest items ['='] noOperand c

def equals (column : Column) (operand : Arg) (c : Connective) : Criterion := test column "=" operand c

def like (column : Column) (pattern : Arg) (c : Connective) : Criterion := test column "like" pattern c

def notLike (column : Column) (pattern : Arg) (c : Connective) : Criterion := test column "not like" pattern c

def oneOf (column : Column) (values : List Arg) (c : Connective) : Criterion := test column "in" (.list values) c

def noneOf (column : Column) (values : List Arg) (c : Connective) : Criterion :=
  test column "not in" (.list values) c

def between (column : Column) (ends : List Arg) (c : Connective) : Criterion :=
  test column "between" (.list ends) c

def notBetween (column : Column) (ends : List Arg) (c : Connective) : Criterion :=
  test column "not between" (.list ends) c

def isNull (column : Column) (c : Connective) : Criterion := test column "is" (.value .null) c

def notNull (column : Column) (c : Connective) : Criterion := test column "is not" (.value .null) c

def connect (c : Connective) : Criterion → Criterion
  | .leaf column operator operand _ => .leaf column operator operand c
  | .nest items operator operand _ => .nest items operator operand c

mutual
def push (d : Dialect) (keyword : Text) : Criterion → Section → Except Fault Section
  | .leaf column operator operand c, s => do
    let op ← Operator.parse operator
    let p ← Predicate.compare (column.render d) op operand
    .ok (s.add keyword c p)
  | .nest items operator operand c, s => do
    let op ← Operator.parse operator
    if op = .eq ∧ isNoOperand operand then
      if items.isEmpty then .ok s
      else do
        let inner ← pushAll d keyword items (s.openGroup keyword c)
        s.closeGroup keyword c inner
    else .error (.criteriaOperand op.sql)

def pushAll (d : Dialect) (keyword : Text) : List Criterion → Section → Except Fault Section
  | [], s => .ok s
  | item :: rest, s => do
    let next ← push d keyword item s
    pushAll d keyword rest next
end

theorem leafPushed {d : Dialect} {keyword : Text} {column : Ident} {operator : Text} {operand : Arg} {c : Connective}
    {s t : Section} (ok : push d keyword (.leaf column operator operand c) s = .ok t) :
    ∃ op p, Operator.parse operator = .ok op ∧ Predicate.compare (column.render d) op operand = .ok p ∧
      s.add keyword c p = t := by
  obtain ⟨op, parsed, rest⟩ := bindIsOk ok
  obtain ⟨p, compared, added⟩ := bindIsOk rest
  exact ⟨op, p, parsed, compared, Except.ok.inj added⟩

end Criterion
end SelectBuilder
