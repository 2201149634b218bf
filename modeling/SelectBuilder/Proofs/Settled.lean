import SelectBuilder.Proofs.ClauseTree
import SelectBuilder.Predicate

/-! Texts that neither are empty nor end in an opening parenthesis. After such a text a clause writes a connective.
The predicates write nothing else, unless they are given an operand that ends so. -/
namespace SelectBuilder

theorem endsAppend {a b : Text} (left : a.getLast? ≠ some '(') (right : b.getLast? ≠ some '(') :
    (a ++ b).getLast? ≠ some '(' := by
  rw [List.getLast?_append]
  cases last : b.getLast? with
  | none => simpa using left
  | some c => simpa [last] using right

theorem joinedEnds {separator : Text} (apart : separator.getLast? ≠ some '(') {parts : List Text}
    (all : ∀ part ∈ parts, part.getLast? ≠ some '(') : (Text.joined separator parts).getLast? ≠ some '(' :=
  Text.joinedHolds (P := fun text => text.getLast? ≠ some '(') (by simp) endsAppend apart all

theorem wrapEnds (d : Dialect) (name : Text) : (d.wrap name).getLast? ≠ some '(' := by
  have segment (text : Text) : (d.quoteSegment text).getLast? ≠ some '(' := by
    unfold Dialect.quoteSegment
    split
    · subst text
      decide
    · have mark : Text.Settled [d.quoteChar] := by cases d <;> decide
      exact (Clause.settledAppend _ mark).2
  have path (text : Text) : (d.quotePath text).getLast? ≠ some '(' := by
    apply joinedEnds (by decide)
    intro part member
    obtain ⟨text, _, rfl⟩ := List.mem_map.mp member
    exact segment text
  unfold Dialect.wrap
  split
  · exact endsAppend (endsAppend (path _) (by decide)) (path _)
  · exact path name

namespace Arg

mutual
def Whole : Arg → Prop
  | .value _ => True
  | .lazy _ => True
  | .raw sql => sql.getLast? ≠ some '('
  | .list items => AllWhole items

def AllWhole : List Arg → Prop
  | [] => True
  | arg :: rest => Whole arg ∧ AllWhole rest
end

mutual
theorem placeholderEnds {arg : Arg} (whole : arg.Whole) : arg.placeholder.getLast? ≠ some '(' := by
  cases arg with
  | value v => simp [placeholder]
  | «lazy» outcome => simp [placeholder]
  | raw sql => exact whole
  | list items => exact joinedEnds (by decide) (placeholdersEnd whole)

theorem placeholdersEnd {items : List Arg} (whole : AllWhole items) :
    ∀ part ∈ placeholders items, part.getLast? ≠ some '(' := by
  cases items with
  | nil => simp [placeholders]
  | cons arg rest =>
    intro part member
    rcases List.mem_cons.mp member with rfl | member
    · exact placeholderEnds whole.1
    · exact placeholdersEnd whole.2 part member
end

end Arg

namespace Predicate

theorem infixedSettled (column : Text) (op : Operator) {operand : Text} (ends : operand.getLast? ≠ some '(')
    (bound : List Arg) : (infixed column op operand bound).text.Settled := by
  constructor
  · simp [infixed]
  · have space : Text.Settled ([' '] ++ operand) := by
      refine ⟨by simp, endsAppend (by decide) ends⟩
    have settled := Clause.settledAppend (column ++ [' '] ++ op.sql) space
    rw [← List.append_assoc] at settled
    exact settled.2

theorem compareSettled {column : Text} {op : Operator} {operand : Arg} {p : Predicate} (whole : operand.Whole)
    (ok : compare column op operand = .ok p) : p.text.Settled := by
  cases compareIs ok with
  | null found => exact infixedSettled _ _ (by decide) _
  | range ranges =>
    have low := Arg.placeholderEnds whole.1
    have high := Arg.placeholderEnds whole.2.1
    exact infixedSettled _ _ (endsAppend (endsAppend low (by decide)) high) _
  | list lists =>
    have closing : Text.Settled [')'] := by decide
    exact infixedSettled _ _ (Clause.settledAppend _ closing).2 _
  | raw lists => exact infixedSettled _ _ whole _
  | single plain given alone => exact infixedSettled _ _ (Arg.placeholderEnds whole) _

end Predicate

end SelectBuilder
