import SelectBuilder.Proofs.ClauseTree
import SelectBuilder.Proofs.InPlace

/-! What calls add to the WHERE and HAVING clauses, as items. A call made in a callback is an item of the innermost
open group of its own clause, a subquery is the predicate with its text, and refused calls stand for nothing. As long
as no callback of a group replaces the query it was given, each clause receives the items of the calls one after the
other, whatever their texts are. A group is opened, receives its own items, and is closed, or withdrawn if they left
its text as it was. -/
namespace SelectBuilder

namespace Clause

mutual
def receive (keyword : Text) : Item → Clause → Clause
  | .predicate c text, clause => (clause.connect keyword c).term text
  | .group c items, clause =>
    if (receiveAll keyword items (clause.openGroup keyword c)).text = (clause.openGroup keyword c).text then clause
    else ⟨(receiveAll keyword items (clause.openGroup keyword c)).text ++ [')'], .complete⟩

def receiveAll (keyword : Text) : List Item → Clause → Clause
  | [], clause => clause
  | item :: rest, clause => receiveAll keyword rest (receive keyword item clause)
end

variable {keyword : Text}

theorem receiveAllAppend (a b : List Item) (clause : Clause) :
    receiveAll keyword (a ++ b) clause = receiveAll keyword b (receiveAll keyword a clause) := by
  induction a generalizing clause with
  | nil => rfl
  | cons item rest ih => exact ih (receive keyword item clause)

mutual
theorem receivePrefix (item : Item) (clause : Clause) : clause.text <+: (receive keyword item clause).text := by
  cases item with
  | predicate c text => exact termPrefix keyword c clause text
  | group c items =>
    rw [receive]
    split
    · exact List.prefix_rfl
    · obtain ⟨more, opened⟩ := openGroupPrefix keyword c clause
      have start : clause.text <+: (clause.openGroup keyword c).text := ⟨more, opened.symm⟩
      exact (start.trans (receiveAllPrefix items _)).trans (List.prefix_append _ _)

theorem receiveAllPrefix (items : List Item) (clause : Clause) :
    clause.text <+: (receiveAll keyword items clause).text := by
  cases items with
  | nil => exact List.prefix_rfl
  | cons item rest => exact (receivePrefix item clause).trans (receiveAllPrefix rest _)
end

theorem closeGroupReceived (c : Connective) (items : List Item) (clause : Clause) :
    clause.closeGroup keyword c (receiveAll keyword items (clause.openGroup keyword c)) =
      .ok (receive keyword (.group c items) clause) := by
  have grown : (clause.openGroup keyword c).text <+: (receiveAll keyword items (clause.openGroup keyword c)).text :=
    receiveAllPrefix items _
  rw [closeGroup, receive]
  by_cases same : (receiveAll keyword items (clause.openGroup keyword c)).text = (clause.openGroup keyword c).text
  · simp only [same, if_true, openGroupTaken]
  · have longer := fun length => same ((Text.byteLengthPrefix grown).mp length)
    rw [if_neg longer, if_neg same]

end Clause

/-! Criteria as items. -/
namespace Criterion

mutual
def items (d : Dialect) : Criterion → List Item
  | .leaf column operator operand c =>
    match (do let op ← Operator.parse operator; Predicate.compare (column.render d) op operand) with
    | .ok p => [.predicate c p.text]
    | .error _ => []
  | .nest inner _ _ c => [.group c (itemsOf d inner)]

def itemsOf (d : Dialect) : List Criterion → List Item
  | [] => []
  | item :: rest => items d item ++ itemsOf d rest
end

mutual
theorem pushReceives (d : Dialect) (keyword : Text) {item : Criterion} {s t : Section}
    (ok : item.push d keyword s = .ok t) : t.clause = s.clause.receiveAll keyword (item.items d) := by
  cases item with
  | leaf column operator operand c =>
    obtain ⟨op, p, parsed, compared, rfl⟩ := leafPushed ok
    simp only [items, parsed, okBind, compared]
    rfl
  | nest inner operator operand c =>
    obtain ⟨op, parsed, rest⟩ := bindIsOk ok
    rw [items]
    split at rest
    · split at rest
      · rename_i nothing
        cases rest
        cases List.isEmpty_iff.mp nothing
        simp only [itemsOf, Clause.receiveAll, Clause.receive, if_true]
      · obtain ⟨grown, pushed, closed⟩ := bindIsOk rest
        obtain ⟨clause, withdrawn, last⟩ := bindIsOk closed
        have inside := pushAllReceives d keyword pushed
        cases last
        rw [inside] at withdrawn
        exact Except.ok.inj (withdrawn.symm.trans (Clause.closeGroupReceived c (itemsOf d inner) s.clause))
    · contradiction

theorem pushAllReceives (d : Dialect) (keyword : Text) {list : List Criterion} {s t : Section}
    (ok : pushAll d keyword list s = .ok t) : t.clause = s.clause.receiveAll keyword (itemsOf d list) := by
  cases list with
  | nil =>
    cases ok
    rfl
  | cons item rest =>
    obtain ⟨next, first, later⟩ := bindIsOk ok
    rw [pushAllReceives d keyword later, pushReceives d keyword first, itemsOf, Clause.receiveAllAppend]
end

theorem pushExtends {d : Dialect} {keyword : Text} {item : Criterion} {s t : Section}
    (ok : item.push d keyword s = .ok t) : s.clause.text <+: t.clause.text := by
  rw [pushReceives d keyword ok]
  exact Clause.receiveAllPrefix _ _

theorem pushAllExtends {d : Dialect} {keyword : Text} {list : List Criterion} {s t : Section}
    (ok : pushAll d keyword list s = .ok t) : s.clause.text <+: t.clause.text := by
  rw [pushAllReceives d keyword ok]
  exact Clause.receiveAllPrefix _ _

end Criterion

/-! Calls as items of one of the two clauses. -/

def Call.items (kind : ClauseKind) : Call → Query → List Item
  | .test k item, q => if k = kind then item.items q.dialect else []
  | .testRaw k sql _ c, _ => if k = kind then [.predicate c sql] else []
  | .testColumns k first operator second c, q =>
    if k = kind then (Criterion.leaf first operator (.raw (q.dialect.wrap second)) c).items q.dialect else []
  | _, _ => []

/-- `inner` is what the callback made of the query it was given, `within` are the items it stands for. -/
def Nest.items (kind : ClauseKind) (q inner : Query) (within : List Item) : Nest → List Item
  | .group k c => if k = kind then [.group c within] else within
  | .existence k c => if k = kind then [.predicate c.exist inner.enclosed] else []
  | .valueSub k (.ident name) operator c =>
    if k = kind then (Criterion.leaf name operator (.raw inner.enclosed) c).items q.dialect else []
  | .columnSub k operator operand c =>
    if k = kind then (Criterion.leaf (.raw inner.enclosed) operator operand c).items q.dialect else []
  | _ => []

namespace Step

mutual
def items (kind : ClauseKind) : Step → Query → List Item
  | .call c, q => ifCarriedOut (.call c) q (c.items kind q) []
  | .nest n body, q =>
    let found :=
      match n.enter q with
      | .ok begun => n.items kind q (performAll body begun).query (itemsAll kind body begun)
      | .error _ => []
    ifCarriedOut (.nest n body) q found []
  | .attempt s, q => items kind s q

def itemsAll (kind : ClauseKind) : List Step → Query → List Item
  | [], _ => []
  | s :: rest, q => items kind s q ++ itemsAll kind rest (s.next q)
end

end Step

/-! The clause after a call is the clause before it, with the items of the call received. -/

def Query.Receives (q : Query) (kind : ClauseKind) (items : List Item) (next : Query) : Prop :=
  next.clause kind = (q.clause kind).receiveAll kind.keyword items

namespace Query

variable {q middle inner next : Query} {kind k : ClauseKind}

theorem receivesNothing (same : next.clause kind = q.clause kind) : q.Receives kind [] next := same

theorem receivesAppend {a b : List Item} (first : q.Receives kind a middle) (later : middle.Receives kind b next) :
    q.Receives kind (a ++ b) next := by
  unfold Receives at first later ⊢
  rw [later, first, Clause.receiveAllAppend]

theorem receivesPart (q : Query) (k : ClauseKind) (s : Section) {items : List Item}
    (grown : s.clause = (q.clause k).receiveAll k.keyword items) (kind : ClauseKind) :
    q.Receives kind (if k = kind then items else []) (q.withPart k s) := by
  split
  · subst kind
    rw [Receives, clauseWithPart, grown]
  · rename_i other
    exact receivesNothing (q.clauseWithPartOther (Ne.symm other) s)

theorem testReceives {item : Criterion} (ok : q.test k item = .ok next) (kind : ClauseKind) :
    q.Receives kind (if k = kind then item.items q.dialect else []) next := by
  obtain ⟨s, pushed, last⟩ := bindIsOk ok
  cases last
  exact receivesPart q k s (Criterion.pushReceives _ _ pushed) kind

theorem testRawReceives (q : Query) (k : ClauseKind) (sql : Text) (args : List Arg) (c : Connective)
    (kind : ClauseKind) : q.Receives kind (if k = kind then [.predicate c sql] else []) (q.testRaw k sql args c) :=
  receivesPart q k _ rfl kind

theorem groupReceives {c : Connective} {within : List Item} (grown : (q.openGroup k c).Receives kind within inner)
    (ok : q.closeGroup k c inner = .ok next) :
    q.Receives kind (if k = kind then [.group c within] else within) next := by
  obtain ⟨clause, closed, last⟩ := bindIsOk ok
  cases last
  unfold Receives at grown ⊢
  split
  · subst kind
    rw [grown, clauseOpenGroup, Clause.closeGroupReceived] at closed
    rw [clauseWithClause, ← Except.ok.inj closed]
    rfl
  · rename_i other
    rw [clauseWithOther inner (Ne.symm other), grown, clauseOpenGroupOther q (Ne.symm other)]

end Query

theorem Call.applyReceives {c : Call} (keeps : c.Keeps) {q next : Query} (ok : c.apply q = .ok next)
    (kind : ClauseKind) : q.Receives kind (c.items kind q) next := by
  cases applyIs ok with
  | test tested => exact Query.testReceives tested kind
  | testRaw k sql args c => exact Query.testRawReceives q k sql args c kind
  | testColumns tested => exact Query.testReceives (Query.columnsTest tested) kind
  | restart => cases keeps
  | _ => exact Query.receivesNothing (by cases kind <;> rfl)

theorem Nest.leaveReceives {n : Nest} {inside : Prop} (keeps : n.Keeps inside) {q inner next : Query}
    {kind : ClauseKind} {within : List Item} (grown : inside → (n.opened q).Receives kind within inner)
    (ok : n.leave q inner = .ok next) : q.Receives kind (n.items kind q inner within) next := by
  have absorbed (b : Bucket) (items : List Item) (grows : (q.absorb b inner).Receives kind items next) :
      q.Receives kind items next := by
    have same : (q.absorb b inner).clause kind = q.clause kind := by cases kind <;> rfl
    rwa [Query.Receives, same] at grows
  cases leaveIs ok with
  | group closed => exact Query.groupReceives (grown keeps) closed
  | existence k c => exact absorbed _ _ (Query.testRawReceives _ k _ _ _ kind)
  | valueSub tested => exact absorbed _ _ (Query.testReceives tested kind)
  | columnSub tested => exact absorbed _ _ (Query.testReceives tested kind)
  | _ => exact Query.receivesNothing (by cases kind <;> rfl)

namespace Step

mutual
theorem stepReceives {s : Step} (keeps : s.Keeps) (kind : ClauseKind) (q : Query) :
    q.Receives kind (s.items kind q) (s.next q) := by
  cases s with
  | call c =>
    cases found : (Step.call c).apply q with
    | ok next =>
      rw [items, carriedOut found, (performOk found).2]
      exact Call.applyReceives keeps found kind
    | error fault =>
      rw [items, notCarriedOut found, (performError found).2]
      exact Query.receivesNothing rfl
  | nest n body =>
    cases found : (Step.nest n body).apply q with
    | ok next =>
      obtain ⟨inner, entered, worked, left⟩ := Nest.runIs found
      rw [items, carriedOut found, (performOk found).2]
      simp only [entered, (performAllOk worked).2]
      apply Nest.leaveReceives keeps _ left
      intro inside
      have grown := runReceives inside kind (n.opened q)
      rwa [runIsApplyAll worked] at grown
    | error fault =>
      rw [items, notCarriedOut found, (performError found).2]
      exact Query.receivesNothing rfl
  | attempt s => exact stepReceives (s := s) keeps kind q

theorem runReceives {program : Program} (keeps : AllKeep program) (kind : ClauseKind) (q : Query) :
    q.Receives kind (itemsAll kind program q) (run program q) := by
  cases program with
  | nil => exact Query.receivesNothing rfl
  | cons s rest => exact Query.receivesAppend (stepReceives keeps.1 kind q) (runReceives keeps.2 kind (s.next q))
end

end Step
end SelectBuilder
