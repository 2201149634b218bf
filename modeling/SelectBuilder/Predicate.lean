import SelectBuilder.Bindings
import SelectBuilder.Clause
import SelectBuilder.Dialect
import SelectBuilder.Operator

/-! A predicate is the text it adds to a clause and the values it binds there. An operand that is NULL is
not bound: it is written, and only after IS or IS NOT. A section is a clause with what is bound in it. -/
namespace SelectBuilder

structure Predicate where
  text : Text
  bound : List Arg

namespace Predicate

def infixed (column : Text) (op : Operator) (operand : Text) (bound : List Arg) : Predicate :=
  ⟨column ++ [' '] ++ op.sql ++ [' '] ++ operand, bound⟩

def onNull (column : Text) (op : Operator) : Except Fault Predicate :=
  match op.nullForm with
  | some form => .ok (infixed column form "NULL" [])
  | none => .error (.nullOperand op.sql)

def onRange (column : Text) (op : Operator) : Arg → Except Fault Predicate
  | .list [low, high] =>
    .ok (infixed column op (low.placeholder ++ " AND " ++ high.placeholder) (Arg.leavesOf [low, high]))
  | .list items => .error (.betweenCount column items.length)
  | _ => .error (.betweenCount column 1)

def onList (column : Text) (op : Operator) : Arg → Except Fault Predicate
  | .list [] => .error (.emptyIn column)
  | .list items =>
    .ok (infixed column op (['('] ++ Text.joined "," (Arg.placeholders items) ++ [')']) (Arg.leavesOf items))
  | .raw sql => .ok (infixed column op sql [])
  | _ => .error (.inOperand column)

def onSingle (column : Text) (op : Operator) : Arg → Except Fault Predicate
  | .list _ => .error (.listOperand op.sql)
  | arg => .ok (infixed column op arg.placeholder arg.leaves)

def compare (column : Text) (op : Operator) (operand : Arg) : Except Fault Predicate :=
  if operand.isNull then onNull column op
  else if op.takesRange then onRange column op operand
  else if op.takesList then onList column op operand
  else onSingle column op operand

def raw (sql : Text) (args : List Arg) : Predicate := ⟨sql, Arg.leavesOf args⟩

inductive Compared (column : Text) (op : Operator) : Arg → Predicate → Prop
  | null {form : Operator} (found : op.nullForm = some form) :
      Compared column op (.value .null) (infixed column form "NULL" [])
  | range {low high : Arg} (ranges : op.takesRange) :
      Compared column op (.list [low, high])
        (infixed column op (low.placeholder ++ " AND " ++ high.placeholder) (Arg.leavesOf [low, high]))
  | list {first : Arg} {rest : List Arg} (lists : op.takesList) :
      Compared column op (.list (first :: rest))
        (infixed column op (['('] ++ Text.joined "," (Arg.placeholders (first :: rest)) ++ [')'])
          (Arg.leavesOf (first :: rest)))
  | raw {sql : Text} (lists : op.takesList) : Compared column op (.raw sql) (infixed column op sql [])
  | single {operand : Arg} (plain : op.takesRange = false ∧ op.takesList = false) (given : operand.isNull = false)
      (alone : ∀ items, operand ≠ .list items) :
      Compared column op operand (infixed column op operand.placeholder operand.leaves)

theorem compareIs {column : Text} {op : Operator} {operand : Arg} {p : Predicate}
    (ok : compare column op operand = .ok p) : Compared column op operand p := by
  unfold compare at ok
  split at ok
  · rename_i null
    unfold onNull at ok
    split at ok
    · rename_i form found
      cases ok
      cases operand with
      | value v =>
        cases v with
        | null => exact .null found
        | _ => contradiction
      | _ => contradiction
    · contradiction
  · rename_i given
    split at ok
    · rename_i ranges
      unfold onRange at ok
      split at ok <;> cases ok
      exact .range ranges
    · rename_i noRange
      split at ok
      · rename_i lists
        unfold onList at ok
        split at ok
        · contradiction
        · rename_i items nonempty
          cases ok
          obtain ⟨first, rest, rfl⟩ := List.exists_cons_of_ne_nil nonempty
          exact .list lists
        · cases ok
          exact .raw lists
        · contradiction
      · rename_i noList
        unfold onSingle at ok
        split at ok
        · contradiction
        · rename_i alone
          cases ok
          have plain := And.intro (Bool.eq_false_iff.mpr noRange) (Bool.eq_false_iff.mpr noList)
          exact .single plain (Bool.eq_false_iff.mpr given) alone

theorem comparedOk {column : Text} {op : Operator} {operand : Arg} {p : Predicate}
    (compared : Compared column op operand p) : compare column op operand = .ok p := by
  cases compared with
  | null found => simp only [compare, Arg.isNull, if_true, onNull, found]
  | range ranges => simp only [compare, Arg.isNull, Bool.false_eq_true, if_false, ranges, if_true, onRange]
  | list lists =>
    have noRange (ranges : op.takesRange) := Operator.rangeTakesNoList ranges lists
    simp only [compare, Arg.isNull, Bool.false_eq_true, if_false, if_neg noRange, lists, if_true, onList]
  | raw lists =>
    have noRange (ranges : op.takesRange) := Operator.rangeTakesNoList ranges lists
    simp only [compare, Arg.isNull, Bool.false_eq_true, if_false, if_neg noRange, lists, if_true, onList]
  | single plain given alone =>
    simp only [compare, given, plain, Bool.false_eq_true, if_false]
    cases operand with
    | list items => exact absurd rfl (alone items)
    | _ => rfl

end Predicate

structure Section where
  clause : Clause
  bound : List Arg

namespace Section

def add (keyword : Text) (c : Connective) (p : Predicate) (s : Section) : Section :=
  ⟨(s.clause.connect keyword c).term p.text, s.bound ++ p.bound⟩

def openGroup (keyword : Text) (c : Connective) (s : Section) : Section :=
  { s with clause := s.clause.openGroup keyword c }

def closeGroup (keyword : Text) (c : Connective) (outer inner : Section) : Except Fault Section := do
  let clause ← outer.clause.closeGroup keyword c inner.clause
  .ok { inner with clause }

end Section
end SelectBuilder
