import SelectBuilder.Value

/-! What may stand in the place of a value: a value, one computed when the statement is used, SQL written
as it is, or a list. A list counts as its members, one after the other. Each leaf has one question mark in
the statement; written SQL binds nothing. A value still to be computed is not the same as any
argument, itself included. -/
namespace SelectBuilder

inductive Arg
  | value (v : Value)
  | lazy (outcome : Except Text Value)
  | raw (sql : Text)
  | list (items : List Arg)

instance : Inhabited Arg := ⟨.list []⟩

namespace Arg

def isNull : Arg → Bool
  | .value .null => true
  | _ => false

def isRaw : Arg → Bool
  | .raw _ => true
  | _ => false

mutual
def placeholder : Arg → Text
  | .value _ => ['?']
  | .lazy _ => ['?']
  | .raw sql => sql
  | .list items => Text.joined "," (placeholders items)

def placeholders : List Arg → List Text
  | [] => []
  | arg :: rest => placeholder arg :: placeholders rest
end

mutual
def leaves : Arg → List Arg
  | .value v => [.value v]
  | .lazy outcome => [.lazy outcome]
  | .raw _ => []
  | .list items => leavesOf items

def leavesOf : List Arg → List Arg
  | [] => []
  | arg :: rest => leaves arg ++ leavesOf rest
end

mutual
def same : Arg → Arg → Bool
  | .value a, .value b => a.same b
  | .raw a, .raw b => a = b
  | .list a, .list b => sameAll a b
  | _, _ => false

def sameAll : List Arg → List Arg → Bool
  | [], [] => true
  | a :: as, b :: bs => same a b && sameAll as bs
  | _, _ => false
end

theorem placeholdersMap (items : List Arg) : placeholders items = items.map placeholder := by
  induction items with
  | nil => rfl
  | cons arg rest ih => simp [placeholders, ih]

theorem leavesFlatMap (items : List Arg) : leavesOf items = items.flatMap leaves := by
  induction items with
  | nil => rfl
  | cons arg rest ih => simp [leavesOf, ih]

theorem placeholdersAppend (a b : List Arg) : placeholders (a ++ b) = placeholders a ++ placeholders b := by
  simp [placeholdersMap]

theorem leavesAppend (a b : List Arg) : leavesOf (a ++ b) = leavesOf a ++ leavesOf b := by
  simp [leavesFlatMap]

end Arg

class ToArgs (α : Type) where
  toArgs : α → List Arg

export ToArgs (toArgs)

instance : ToArgs Arg := ⟨fun arg => [arg]⟩

instance {α : Type} [ToArgs α] : ToArgs (List α) := ⟨fun items => items.flatMap toArgs⟩

instance {α : Type} [ToArgs α] : ToArgs (Array α) := ⟨fun items => toArgs items.toList⟩

end SelectBuilder
