import SelectBuilder.Proofs.ClauseGrowth
import SelectBuilder.Proofs.Settled

/-! The WHERE and HAVING clauses print the items that the calls stand for. Written predicates must not be empty, and
neither they nor written operands may end in an opening parenthesis; no callback of a group replaces the query it was
given. -/
namespace SelectBuilder

namespace Item

theorem allSettledAppend {a b : List Item} : AllSettled (a ++ b) ↔ AllSettled a ∧ AllSettled b := by
  induction a with
  | nil => simp [AllSettled]
  | cons item rest ih => simp only [List.cons_append, AllSettled, ih, and_assoc]

mutual
theorem pruneSettled {item : Item} (settled : item.Settled) : AllSettled (prune item) := by
  cases item with
  | predicate c text => exact ⟨settled, trivial⟩
  | group c items =>
    have inner := pruneAllSettled settled
    rw [prune]
    cases kept : pruneAll items with
    | nil => trivial
    | cons first rest =>
      rw [kept] at inner
      exact ⟨inner, trivial⟩

theorem pruneAllSettled {items : List Item} (settled : AllSettled items) : AllSettled (pruneAll items) := by
  cases items with
  | nil => trivial
  | cons item rest => exact allSettledAppend.mpr ⟨pruneSettled settled.1, pruneAllSettled settled.2⟩
end

end Item

namespace Clause

mutual
theorem receiveSettled (keyword : Text) {item : Item} (settled : item.Settled) (clause : Clause) :
    receive keyword item clause = growAll keyword (Item.prune item) clause := by
  cases item with
  | predicate c text => rfl
  | group c items =>
    have inner := receiveAllSettled keyword settled (clause.openGroup keyword c)
    have kept := Item.pruneAllSettled settled
    rw [receive, inner, Item.prune]
    cases found : Item.pruneAll items with
    | nil => simp only [growAll, if_true]
    | cons first rest =>
      rw [found] at kept
      have longer := growAllBytes keyword kept (List.cons_ne_nil _ _) (clause.openGroup keyword c)
      rw [if_neg fun same => Nat.ne_of_gt longer (congrArg Text.byteLength same)]
      rfl

theorem receiveAllSettled (keyword : Text) {items : List Item} (settled : Item.AllSettled items) (clause : Clause) :
    receiveAll keyword items clause = growAll keyword (Item.pruneAll items) clause := by
  cases items with
  | nil => rfl
  | cons item rest =>
    rw [receiveAll, receiveSettled keyword settled.1, receiveAllSettled keyword settled.2, Item.pruneAll, growAllAppend]
end

end Clause

namespace Criterion

mutual
def Whole : Criterion → Prop
  | .leaf _ _ operand _ => operand.Whole
  | .nest items _ _ _ => AllWhole items

def AllWhole : List Criterion → Prop
  | [] => True
  | item :: rest => Whole item ∧ AllWhole rest
end

mutual
theorem itemsSettled (d : Dialect) {item : Criterion} (whole : item.Whole) : Item.AllSettled (item.items d) := by
  cases item with
  | leaf column operator operand c =>
    rw [items]
    split
    · rename_i p ok
      obtain ⟨op, _, compared⟩ := bindIsOk ok
      exact ⟨Predicate.compareSettled whole compared, trivial⟩
    · trivial
  | nest inner operator operand c => exact ⟨itemsOfSettled d whole, trivial⟩

theorem itemsOfSettled (d : Dialect) {list : List Criterion} (whole : AllWhole list) :
    Item.AllSettled (itemsOf d list) := by
  cases list with
  | nil => trivial
  | cons item rest => exact Item.allSettledAppend.mpr ⟨itemsSettled d whole.1, itemsOfSettled d whole.2⟩
end

theorem leafSettled (d : Dialect) (column : Ident) (operator : Text) (operand : Arg) (whole : operand.Whole)
    (c : Connective) : Item.AllSettled ((Criterion.leaf column operator operand c).items d) := by
  have leaf : (Criterion.leaf column operator operand c).Whole := whole
  exact itemsSettled d leaf

end Criterion

def Call.Printable : Call → Prop
  | .test _ item => item.Whole
  | .testRaw _ sql _ _ => sql.Settled
  | .restart => False
  | _ => True

def Nest.Printable (inside : Prop) : Nest → Prop
  | .group _ _ => inside
  | .columnSub _ _ operand _ => operand.Whole
  | _ => True

namespace Step

def Printable : Step → Prop := Holds Call.Printable (fun n _ inside => n.Printable inside) id

def AllPrintable : List Step → Prop := AllHold Call.Printable (fun n _ inside => n.Printable inside) id

end Step

theorem enclosedSettled (inner : Query) : inner.enclosed.Settled := by
  have closing : Text.Settled [')'] := by decide
  exact Clause.settledAppend _ closing

theorem ifKindSettled {k kind : ClauseKind} {items : List Item} (settled : Item.AllSettled items) :
    Item.AllSettled (if k = kind then items else []) := by
  split
  · exact settled
  · trivial

theorem Call.itemsSettled (kind : ClauseKind) {c : Call} (printable : c.Printable) (q : Query) :
    Item.AllSettled (c.items kind q) := by
  cases c with
  | test k item => exact ifKindSettled (Criterion.itemsSettled _ printable)
  | testRaw k sql args c => exact ifKindSettled ⟨printable, trivial⟩
  | testColumns k first operator second c =>
    exact ifKindSettled (Criterion.leafSettled _ _ _ (.raw _) (wrapEnds q.dialect second) c)
  | _ => trivial

theorem Nest.itemsSettled (kind : ClauseKind) {n : Nest} {inside : Prop} (printable : n.Printable inside)
    (q inner : Query) {within : List Item} (settled : inside → Item.AllSettled within) :
    Item.AllSettled (n.items kind q inner within) := by
  cases n with
  | group k c =>
    rw [items]
    split
    · exact ⟨settled printable, trivial⟩
    · exact settled printable
  | existence k c => exact ifKindSettled ⟨enclosedSettled inner, trivial⟩
  | valueSub k column operator c =>
    cases column with
    | ident name => exact ifKindSettled (Criterion.leafSettled _ _ _ (.raw _) (enclosedSettled inner).2 c)
    | criteria list => trivial
  | columnSub k operator operand c => exact ifKindSettled (Criterion.leafSettled _ _ _ operand printable c)
  | _ => trivial

namespace Step

mutual
theorem itemsSettled (kind : ClauseKind) {s : Step} (printable : s.Printable) (q : Query) :
    Item.AllSettled (s.items kind q) := by
  have nothing : Item.AllSettled [] := trivial
  cases s with
  | call c => exact ifCarriedOutHolds (Call.itemsSettled kind printable q) nothing _ q
  | nest n body =>
    refine ifCarriedOutHolds ?_ nothing _ q
    cases n.enter q with
    | ok begun =>
      apply Nest.itemsSettled kind printable
      intro inside
      exact itemsAllSettled kind inside begun
    | error fault => exact nothing
  | attempt s => exact itemsSettled kind (s := s) printable q

theorem itemsAllSettled (kind : ClauseKind) {body : List Step} (printable : AllPrintable body) (q : Query) :
    Item.AllSettled (itemsAll kind body q) := by
  cases body with
  | nil => trivial
  | cons s rest =>
    exact Item.allSettledAppend.mpr ⟨itemsSettled kind printable.1 q, itemsAllSettled kind printable.2 (s.next q)⟩
end

end Step

def ClauseKind.word : ClauseKind → Text
  | .filter => "WHERE"
  | .having => "HAVING"

def Query.Grows (q : Query) (kind : ClauseKind) (items : List Item) (next : Query) : Prop :=
  next.clause kind = (q.clause kind).growAll kind.keyword (Item.pruneAll items)

theorem Call.printableKeeps {c : Call} (printable : c.Printable) : c.Keeps := by
  cases c with
  | restart => exact printable
  | _ => trivial

theorem Nest.printableKeeps {n : Nest} {inside keeps : Prop} (printable : n.Printable inside)
    (within : inside → keeps) :
    n.Keeps keeps := by
  cases n with
  | group k c => exact within printable
  | _ => trivial

namespace Step

mutual
theorem printableKeeps {s : Step} (printable : s.Printable) : s.Keeps := by
  cases s with
  | call c => exact Call.printableKeeps printable
  | nest n body => exact Nest.printableKeeps printable allPrintableKeep
  | attempt s => exact printableKeeps (s := s) printable

theorem allPrintableKeep {body : List Step} (printable : AllPrintable body) : AllKeep body := by
  cases body with
  | nil => trivial
  | cons s rest => exact ⟨printableKeeps printable.1, allPrintableKeep printable.2⟩
end

theorem runGrows (kind : ClauseKind) {program : Program} (printable : AllPrintable program) (q : Query) :
    q.Grows kind (itemsAll kind program q) (run program q) :=
  (runReceives (allPrintableKeep printable) kind q).trans
    (Clause.receiveAllSettled kind.keyword (itemsAllSettled kind printable q) (q.clause kind))

theorem clausePrintsItems {program : Program} (printable : AllPrintable program) (kind : ClauseKind) {q : Query}
    (fresh : q.clause kind = .empty) :
    ((run program q).clause kind).text = Item.print kind.word (Item.pruneAll (itemsAll kind program q)) := by
  have settled := Item.pruneAllSettled (itemsAllSettled kind printable q)
  have grown := runGrows kind printable q
  have keyword : kind.keyword = kind.word := by cases kind <;> rfl
  have word : kind.word.Settled := by cases kind <;> decide
  rw [Query.Grows, fresh, keyword] at grown
  rw [grown, Clause.growAllPrint word settled]

theorem clausePrintsNestedGroups :
    let having : Step := .nest (.group .having .or)
      [.call (.testRaw .filter "b" [] .or), .call (.testRaw .having "k" [] .or), .nest (.group .filter .or) [],
        .call (.testRaw .filter "c" [] .xor), .call (.testRaw .having "m" [] .and)]
    let program : Program :=
      [.nest (.group .filter .and) [.nest (.group .filter .or) []], .call (.testRaw .filter "a" [] Connective.and.not),
        .nest (.group .filter Connective.or.not) [.call (.testRaw .having "h" [] .and), having],
        .call (.test .filter (.leaf "x" "like" (.value .null) .and)),
        .nest (.existence .filter Connective.and.not) [.call .restart]]
    AllPrintable program ∧ (Query.blank .mysql).clause .filter = .empty ∧
      ((run program (.blank .mysql)).clause .filter).text =
        Item.print "WHERE" (Item.pruneAll (itemsAll .filter program (.blank .mysql))) ∧
      ((run program (.blank .mysql)).clause .filter).text =
        "WHERE NOT a OR NOT (b XOR c) AND NOT EXISTS (SELECT *)" ∧
      ((run program (.blank .mysql)).clause .having).text = "HAVING h OR (k AND m)" := by
  intro having program
  have printable : AllPrintable program := by
    simp [program, having, AllPrintable, AllHold, Holds, Nest.Printable, Call.Printable, Criterion.Whole, Arg.Whole,
      Text.Settled]
  exact ⟨printable, rfl, clausePrintsItems printable .filter rfl, by decide +kernel, by decide +kernel⟩

end Step
end SelectBuilder
