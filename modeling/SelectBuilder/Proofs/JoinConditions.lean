import SelectBuilder.Proofs.InPlace

/-! A join on a value, and a test of the same column with the same operator and operand. They write the same condition,
bind the same values and are refused for the same reason, as long as the operand is not NULL. A join takes NULL for a
value like any other: it is bound behind any operator, where the test writes IS NULL or IS NOT NULL, or is refused. -/
namespace SelectBuilder

namespace Operator

theorem comparisonParsed {given : Text} {op : Operator} (comparison : parseComparison given = .ok op) :
    parse given = .ok op ∧ op.isComparison := by
  obtain ⟨found, parsed, compares⟩ := bindIsOk comparison
  split at compares
  · rename_i among
    cases compares
    exact ⟨parsed, among⟩
  · contradiction

theorem comparisonTakesOne {op : Operator} (comparison : op.isComparison) :
    op.takesRange = false ∧ op.takesList = false := by
  cases op <;> first | contradiction | exact ⟨rfl, rfl⟩

end Operator

namespace Predicate

def asGiven (column : Text) (op : Operator) (operand : Arg) : Predicate :=
  infixed column op operand.placeholder operand.leaves

theorem compareAsGiven {op : Operator} (comparison : op.isComparison) (column : Text) {operand : Arg}
    (given : operand.isNull = false) :
    compare column op operand = (Query.requireSingle op operand).map fun _ => asGiven column op operand := by
  obtain ⟨noRange, noList⟩ := Operator.comparisonTakesOne comparison
  simp only [compare, given, noRange, noList, Bool.false_eq_true, if_false]
  cases operand <;> rfl

end Predicate

open Predicate (asGiven)

namespace Query

def joinOn (q : Query) (kind : JoinKind) (table : Ident) (p : Predicate) : Query :=
  (q.joined kind (table.render q.dialect) p.text).bind .join p.bound

def testIn (q : Query) (clause : ClauseKind) (c : Connective) (p : Predicate) : Query :=
  q.withPart clause ((q.part clause).add clause.keyword c p)

variable {q : Query} {clause : ClauseKind} {c : Connective} {p other : Predicate}

theorem joinOnBound {kind : JoinKind} {table : Ident} (same : q.joinOn kind table p = q.joinOn kind table other) :
    p.bound = other.bound := by
  have join := congrArg (fun q => q.bindings.join) same
  exact List.append_cancel_left join

theorem testInBound (same : q.testIn clause c p = q.testIn clause c other) : p.bound = other.bound := by
  have part := congrArg (fun q => (q.part clause).bound) same
  simp only [testIn, partWithPart, Section.add] at part
  exact List.append_cancel_left part

end Query

/-- Both write one predicate, or both are refused for one reason and leave the query as it was. -/
inductive SameCondition (q : Query) (kind : JoinKind) (table : Ident) (clause : ClauseKind) (c : Connective)
    (joined tested : Outcome Unit) : Prop
  | written (p : Predicate) (joins : joined.result = .ok () ∧ joined.query = q.joinOn kind table p)
      (tests : tested.result = .ok () ∧ tested.query = q.testIn clause c p)
  | refused (fault : Fault) (joins : joined.result = .error fault ∧ joined.query = q)
      (tests : tested.result = .error fault ∧ tested.query = q)

namespace Step

section
variable (q : Query) (kind : JoinKind) (table : Ident) (clause : ClauseKind) (c : Connective) (first : Text)
  {operator : Text} {op : Operator} (comparison : Operator.parseComparison operator = .ok op)
include comparison

theorem joinApplied (operand : Arg) :
    (Step.call (.joinWhere kind table first operator operand)).apply q =
      (Query.requireSingle op operand).map fun _ =>
        q.joinOn kind table (asGiven (q.dialect.wrap first) op operand) := by
  simp only [apply, Call.apply, comparison, okBind]
  cases Query.requireSingle op operand <;> rfl

theorem testApplied (operand : Arg) :
    (Step.call (.test clause (.leaf (.name first) operator operand c))).apply q =
      (Predicate.compare (q.dialect.wrap first) op operand).map fun p => q.testIn clause c p := by
  simp only [apply, Call.apply, Query.test, Criterion.push, (Operator.comparisonParsed comparison).1, okBind,
    Ident.render]
  cases Predicate.compare (q.dialect.wrap first) op operand <;> rfl

theorem givenAgrees {operand : Arg} (given : operand.isNull = false) :
    SameCondition q kind table clause c ((Step.call (.joinWhere kind table first operator operand)).perform q)
      ((Step.call (.test clause (.leaf (.name first) operator operand c))).perform q) := by
  have joined := joinApplied q kind table first comparison operand
  have tested := testApplied q clause c first comparison operand
  rw [Predicate.compareAsGiven (Operator.comparisonParsed comparison).2 _ given] at tested
  cases single : Query.requireSingle op operand with
  | ok _ =>
    rw [single] at joined tested
    exact .written _ (performOk joined) (performOk tested)
  | error fault =>
    rw [single] at joined tested
    exact .refused fault (performError joined) (performError tested)

theorem nullJoined :
    let joined : Step := .call (.joinWhere kind table first operator (.value .null))
    (joined.perform q).result = .ok () ∧
      joined.next q = q.joinOn kind table (asGiven (q.dialect.wrap first) op (.value .null)) :=
  performOk (joinApplied q kind table first comparison (.value .null))

theorem nullTested :
    let tested : Step := .call (.test clause (.leaf (.name first) operator (.value .null) c))
    match op.nullForm with
    | some form => (tested.perform q).result = .ok () ∧
        tested.next q = q.testIn clause c (.infixed (q.dialect.wrap first) form "NULL" [])
    | none => (tested.perform q).result = .error (.nullOperand op.sql) ∧ tested.next q = q := by
  have tested := testApplied q clause c first comparison (.value .null)
  simp only [Predicate.compare, Arg.isNull, if_true, Predicate.onNull] at tested
  split
  · rename_i form found
    rw [found] at tested
    exact performOk tested
  · rename_i noForm
    rw [noForm] at tested
    exact performError tested

theorem nullDiffers :
    ¬ SameCondition q kind table clause c ((Step.call (.joinWhere kind table first operator (.value .null))).perform q)
      ((Step.call (.test clause (.leaf (.name first) operator (.value .null) c))).perform q) := by
  obtain ⟨joins, written⟩ := nullJoined q kind table first comparison
  have tests := nullTested q clause c first comparison
  intro same
  cases same with
  | refused fault refused _ => cases joins.symm.trans refused.1
  | written p found accepted =>
    have bound : p.bound = [.value .null] := Query.joinOnBound (found.2.symm.trans written)
    split at tests
    · have nothing : p.bound = [] := Query.testInBound (accepted.2.symm.trans tests.2)
      rw [nothing] at bound
      contradiction
    · cases accepted.1.symm.trans tests.1

theorem joinAgreesUnlessNull (operand : Arg) :
    let joined : Step := .call (.joinWhere kind table first operator operand)
    let tested : Step := .call (.test clause (.leaf (.name first) operator operand c))
    (SameCondition q kind table clause c (joined.perform q) (tested.perform q) ↔ operand.isNull = false) ∧
      (operand.isNull →
        ((joined.perform q).result = .ok () ∧
          joined.next q = q.joinOn kind table (asGiven (q.dialect.wrap first) op operand)) ∧
        match op.nullForm with
        | some form => (tested.perform q).result = .ok () ∧
            tested.next q = q.testIn clause c (.infixed (q.dialect.wrap first) form "NULL" [])
        | none => (tested.perform q).result = .error (.nullOperand op.sql) ∧ tested.next q = q) := by
  intro joined tested
  cases null : operand.isNull with
  | false =>
    have agrees := givenAgrees q kind table clause c first comparison null
    exact ⟨iff_of_true agrees rfl, fun given => nomatch given⟩
  | true =>
    obtain rfl : operand = .value .null := by
      unfold Arg.isNull at null
      split at null
      · rfl
      · contradiction
    have differs := nullDiffers q kind table clause c first comparison
    exact ⟨iff_of_false differs (by simp), fun _ =>
      ⟨nullJoined q kind table first comparison, nullTested q clause c first comparison⟩⟩

end

theorem joinAgreesOnLazyNull :
    let q := (Query.blank .postgresql).selectFrom "a"
    let joined (operand : Arg) : Step := .call (.joinWhere .left "t as b" "b.x" " <= " operand)
    let tested (operand : Arg) : Step := .call (.test .having (.leaf "b.x" " <= " operand .or))
    let same (operand : Arg) : Prop :=
      SameCondition q .left "t as b" .having .or ((joined operand).perform q) ((tested operand).perform q)
    Operator.parseComparison " <= " = .ok .le ∧ same (.lazy (.ok .null)) ∧ same (.list []) ∧
      Arg.isNull (.value .null) ∧ ¬ same (.value .null) ∧ ((joined (.value .null)).perform q).result = .ok () ∧
      ((tested (.value .null)).perform q).result = .error (.nullOperand "<=") := by
  intro q joined tested same
  have comparison : Operator.parseComparison " <= " = .ok .le := rfl
  have agrees := joinAgreesUnlessNull q .left "t as b" .having .or "b.x" comparison
  obtain ⟨differs, joins, tests⟩ := agrees (.value .null) |>.imp_right fun shown => shown rfl
  have notSame : ¬ same (.value .null) := fun same => nomatch differs.mp same
  exact ⟨comparison, (agrees _).1.mpr rfl, (agrees _).1.mpr rfl, rfl, notSame, joins.1, tests.1⟩

/-- A join on NULL compares with a bound NULL, which no row equals; an order, which the test refuses, is accepted too.
-/
theorem nullIsBoundByJoin :
    let joined (operator : Text) : Step := .call (.joinWhere .inner "t" "a" operator (.value .null))
    let tested (operator : Text) : Step := .call (.test .filter (.leaf "a" operator (.value .null) .and))
    let blank := Query.blank .mysql
    (((joined "=").next blank).compile = "SELECT * INNER JOIN \x60t\x60 ON \x60a\x60 = ?" ∧
        ((joined "=").next blank).allBindings.length = 1) ∧
      (((tested "=").next blank).compile = "SELECT * WHERE \x60a\x60 IS NULL" ∧
        ((tested "=").next blank).allBindings.length = 0) ∧
      ((joined "<").perform blank).result = .ok () ∧
      ((tested "<").perform blank).result = .error (.nullOperand "<") := by
  refine ⟨⟨?_, rfl⟩, ⟨?_, rfl⟩, rfl, rfl⟩ <;> decide +kernel

end Step
end SelectBuilder
