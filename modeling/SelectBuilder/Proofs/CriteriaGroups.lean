import SelectBuilder.Program.Report
import SelectBuilder.Proofs.ClauseGrowth

/-! Conditions given as data and conditions added by calls come to the same. A list of conditions stands for a group
whose callback adds them one by one, a list among them by a group of its own. Both ways make the same query, or are
refused with the query left as it was, for the reason of the first condition that is refused whatever the others are.
First means as they are written, a list before what is in it. A list without a test in it, however deep, adds nothing:
an empty list is passed over, and a group that received nothing is withdrawn. -/
namespace SelectBuilder

namespace Clause

theorem closeGroupEmpty (keyword : Text) (c : Connective) (clause : Clause) :
    clause.closeGroup keyword c (clause.openGroup keyword c) = .ok clause := by
  simp only [closeGroup, if_true, openGroupTaken]

end Clause

def refusal {α : Type} : Except Fault α → Option Fault
  | .ok _ => none
  | .error fault => some fault

namespace Criterion

def Groups (operator : Text) (operand : Arg) : Prop := Operator.parse? operator = some .eq ∧ isNoOperand operand

instance (operator : Text) (operand : Arg) : Decidable (Groups operator operand) := inferInstanceAs (Decidable (_ ∧ _))

mutual
def step (kind : ClauseKind) : Criterion → Step
  | .leaf column operator operand c => .call (.test kind (.leaf column operator operand c))
  | .nest items operator operand c =>
    if Groups operator operand then .nest (.group kind c) (steps kind items)
    else .call (.test kind (.nest items operator operand c))

def steps (kind : ClauseKind) : List Criterion → List Step
  | [] => []
  | item :: rest => step kind item :: steps kind rest
end

mutual
def visited : Criterion → List Criterion
  | .leaf column operator operand c => [.leaf column operator operand c]
  | .nest items operator operand c => .nest items operator operand c :: visitedOf items

def visitedOf : List Criterion → List Criterion
  | [] => []
  | item :: rest => visited item ++ visitedOf rest
end

/-- Why the condition is refused, whatever stands before it or in it. -/
def objection (d : Dialect) : Criterion → Option Fault
  | .leaf column operator operand _ => refusal do
    let op ← Operator.parse operator
    Predicate.compare (column.render d) op operand
  | .nest _ operator operand _ => refusal do
    let op ← Operator.parse operator
    if op = .eq ∧ isNoOperand operand then .ok () else .error (.criteriaOperand op.sql)

def IsList : Criterion → Prop
  | .leaf _ _ _ _ => False
  | .nest _ _ _ _ => True

variable {d : Dialect} {keyword : Text}

theorem groupsParsed {operator : Text} {operand : Arg} (groups : Groups operator operand) :
    Operator.parse operator = .ok .eq := by
  simp only [Operator.parse, groups.1]

theorem groupsUnobjected (d : Dialect) {operator : Text} {operand : Arg} (groups : Groups operator operand)
    {items : List Criterion} {c : Connective} : objection d (.nest items operator operand c) = none := by
  simp only [objection, groupsParsed groups, groups.2, okBind, and_self, if_true, refusal]

theorem groupPushed (d : Dialect) (keyword : Text) {operator : Text} {operand : Arg} (groups : Groups operator operand)
    (items : List Criterion) (c : Connective) (s : Section) :
    push d keyword (.nest items operator operand c) s =
      pushAll d keyword items (s.openGroup keyword c) >>= s.closeGroup keyword c := by
  simp only [push, groupsParsed groups, groups.2, okBind, and_self, if_true]
  cases items with
  | nil =>
    simp only [List.isEmpty_nil, if_true, pushAll, okBind, Section.closeGroup, Section.openGroup,
      Clause.closeGroupEmpty]
  | cons item rest => rfl

mutual
theorem pushRefusal (item : Criterion) (s : Section) :
    refusal (item.push d keyword s) = item.visited.findSome? (objection d) := by
  cases item with
  | leaf column operator operand c =>
    simp only [push, visited, List.findSome?_cons, List.findSome?_nil, objection]
    cases Operator.parse operator with
    | error fault => rfl
    | ok op =>
      simp only [okBind]
      cases Predicate.compare (column.render d) op operand <;> rfl
  | nest items operator operand c =>
    simp only [push, visited, List.findSome?_cons, objection]
    cases Operator.parse operator with
    | error fault => rfl
    | ok op =>
      simp only [okBind]
      split
      · rw [refusal, ← pushAllRefusal items (s.openGroup keyword c)]
        split
        · rename_i nothing
          cases List.isEmpty_iff.mp nothing
          rfl
        · cases pushed : pushAll d keyword items (s.openGroup keyword c) with
          | error fault => rfl
          | ok inner =>
            -- Whatever was added, the text before the group is still there, so closing it is not refused.
            have received : inner.clause = (s.clause.openGroup keyword c).receiveAll keyword (itemsOf d items) :=
              pushAllReceives d keyword pushed
            simp only [okBind, Section.closeGroup, received, Clause.closeGroupReceived, refusal]
      · rfl

theorem pushAllRefusal (items : List Criterion) (s : Section) :
    refusal (pushAll d keyword items s) = (visitedOf items).findSome? (objection d) := by
  cases items with
  | nil => rfl
  | cons item rest =>
    rw [visitedOf, List.findSome?_append, ← pushRefusal item s, pushAll]
    cases item.push d keyword s with
    | error fault => rfl
    | ok next => exact pushAllRefusal rest next
end

theorem testRefusal (q : Query) (kind : ClauseKind) (item : Criterion) :
    refusal (q.test kind item) = item.visited.findSome? (objection q.dialect) := by
  rw [← pushRefusal item (q.part kind), Query.test]
  cases item.push q.dialect kind.keyword (q.part kind) <;> rfl

mutual
theorem pushNothing {item : Criterion} (lists : ∀ found ∈ item.visited, found.IsList) {s t : Section}
    (ok : item.push d keyword s = .ok t) : t = s := by
  cases item with
  | leaf column operator operand c => exact (lists _ (List.mem_cons_self ..)).elim
  | nest items operator operand c =>
    obtain ⟨op, _, rest⟩ := bindIsOk ok
    split at rest
    · split at rest
      · cases rest
        rfl
      · obtain ⟨inner, pushed, closed⟩ := bindIsOk rest
        cases pushAllNothing (fun found member => lists found (List.mem_cons_of_mem _ member)) pushed
        simp only [Section.closeGroup, Section.openGroup, Clause.closeGroupEmpty, okBind] at closed
        exact (Except.ok.inj closed).symm
    · contradiction

theorem pushAllNothing {items : List Criterion} (lists : ∀ found ∈ visitedOf items, found.IsList) {s t : Section}
    (ok : pushAll d keyword items s = .ok t) : t = s := by
  cases items with
  | nil => exact (Except.ok.inj ok).symm
  | cons item rest =>
    obtain ⟨next, first, later⟩ := bindIsOk ok
    cases pushNothing (fun found member => lists found (List.mem_append_left _ member)) first
    exact pushAllNothing (fun found member => lists found (List.mem_append_right _ member)) later
end

mutual
theorem stepApply (kind : ClauseKind) (item : Criterion) (q : Query) : (item.step kind).apply q = q.test kind item := by
  cases item with
  | leaf column operator operand c => rfl
  | nest items operator operand c =>
    unfold step
    split
    · rename_i groups
      have part : (q.openGroup kind c).part kind = (q.part kind).openGroup kind.keyword c := q.partWithPart kind _
      have dialect : (q.openGroup kind c).dialect = q.dialect := by cases kind <;> rfl
      have callback := stepsApply kind items (q.openGroup kind c)
      rw [part, dialect] at callback
      simp only [Step.apply, Nest.run, Nest.enter, Nest.leave, okBind, callback, Query.test, groupPushed _ _ groups]
      cases pushAll q.dialect kind.keyword items ((q.part kind).openGroup kind.keyword c) with
      | error fault => rfl
      | ok s =>
        simp only [okBind, Query.openGroup, Edit.withPartWithPart]
        exact Edit.closeGroupPart q kind c s
    · rfl

theorem stepsApply (kind : ClauseKind) (items : List Criterion) (q : Query) :
    Step.applyAll (steps kind items) q =
      pushAll q.dialect kind.keyword items (q.part kind) >>= fun s => .ok (q.withPart kind s) := by
  cases items with
  | nil => simp only [steps, Step.applyAll, pushAll, okBind, Query.withPartPart]
  | cons item rest =>
    simp only [steps, Step.applyAll, stepApply kind item q, pushAll, Query.test]
    cases item.push q.dialect kind.keyword (q.part kind) with
    | error fault => rfl
    | ok s =>
      have dialect : (q.withPart kind s).dialect = q.dialect := by cases kind <;> rfl
      simp only [okBind, stepsApply kind rest (q.withPart kind s), dialect, q.partWithPart, Edit.withPartWithPart]
end

end Criterion

/-! Neither way gives a notice. -/

namespace Edit

def Silent {α : Type} (x : Edit α) : Prop := ∀ q, (x q).notices = []

theorem bindSilent {α β : Type} {x : Edit α} {f : α → Edit β} (first : Silent x) (later : ∀ a, Silent (f a)) :
    Silent (x >>= f) := by
  intro q
  change (bind x f q).notices = []
  unfold bind
  split
  · simp only [first q, later _ _, List.append_nil]
  · exact first q

theorem checkSilent {α : Type} (result : Except Fault α) : Silent (check result) := fun _ => rfl

theorem lookSilent : Silent look := fun _ => rfl

theorem changeSilent (f : Query → Query) : Silent (change f) := fun _ => rfl

theorem pureSilent : Silent (pure ()) := fun _ => rfl

theorem atomicSilent {α : Type} {x : Edit α} (silent : Silent x) : Silent (atomic x) := by
  intro q
  unfold atomic
  split <;> exact silent q

theorem groupSilent (kind : ClauseKind) (c : Connective) {body : Edit Unit} (silent : Silent body) :
    Silent (group kind c body) :=
  bindSilent lookSilent fun _ => bindSilent (changeSilent _) fun _ => bindSilent silent fun _ =>
    bindSilent lookSilent fun _ => bindSilent (checkSilent _) fun _ => changeSilent _

mutual
theorem criterionSilent (kind : ClauseKind) (item : Criterion) : Silent (criterion kind item) := by
  cases item with
  | leaf column operator operand c =>
    exact bindSilent (checkSilent _) fun _ => bindSilent lookSilent fun _ =>
      bindSilent (checkSilent _) fun _ => changeSilent _
  | nest items operator operand c =>
    refine bindSilent (checkSilent _) fun op => ?_
    split
    · split
      · exact pureSilent
      · exact groupSilent kind c (criteriaSilent kind items)
    · exact checkSilent _

theorem criteriaSilent (kind : ClauseKind) (items : List Criterion) : Silent (criteria kind items) := by
  cases items with
  | nil => exact pureSilent
  | cons item rest => exact bindSilent (criterionSilent kind item) fun _ => criteriaSilent kind rest
end

mutual
theorem stepSilent (kind : ClauseKind) (item : Criterion) : Silent (item.step kind).perform := by
  cases item with
  | leaf column operator operand c => exact atomicSilent (criterionSilent kind _)
  | nest items operator operand c =>
    unfold Criterion.step
    split
    · exact atomicSilent (groupSilent kind c (stepsSilent kind items))
    · exact atomicSilent (criterionSilent kind _)

theorem stepsSilent (kind : ClauseKind) (items : List Criterion) :
    Silent (Step.performAll (Criterion.steps kind items)) := by
  cases items with
  | nil => exact pureSilent
  | cons item rest => exact bindSilent (stepSilent kind item) fun _ => stepsSilent kind rest
end

end Edit

namespace Step
open Criterion (Groups objection steps visitedOf IsList)

theorem faultIs (s : Step) (q : Query) : s.fault? q = refusal (s.apply q) := by
  cases found : s.apply q with
  | ok next => simp only [fault?, (performOk found).1, refusal]
  | error fault => simp only [fault?, (performError found).1, refusal]

theorem performSame {a b : Step} {q : Query} (same : a.apply q = b.apply q)
    (notices : (a.perform q).notices = (b.perform q).notices) : a.perform q = b.perform q := by
  have rest : (a.perform q).query = (b.perform q).query ∧ (a.perform q).result = (b.perform q).result := by
    cases found : a.apply q with
    | ok next =>
      obtain ⟨result, query⟩ := performOk found
      obtain ⟨result', query'⟩ := performOk (same.symm.trans found)
      exact ⟨query.trans query'.symm, result.trans result'.symm⟩
    | error fault =>
      obtain ⟨result, query⟩ := performError found
      obtain ⟨result', query'⟩ := performError (same.symm.trans found)
      exact ⟨query.trans query'.symm, result.trans result'.symm⟩
  calc a.perform q = ⟨(a.perform q).notices, (a.perform q).query, (a.perform q).result⟩ := rfl
    _ = b.perform q := by rw [notices, rest.1, rest.2]

theorem criteriaAddAsGroups (q : Query) (kind : ClauseKind) (items : List Criterion) {operator : Text} {operand : Arg}
    (groups : Groups operator operand) (c : Connective) :
    let added : Step := .call (.test kind (.nest items operator operand c))
    added.perform q = (Step.nest (.group kind c) (steps kind items)).perform q ∧
      added.fault? q = (visitedOf items).findSome? (objection q.dialect) ∧
      (added.fault? q ≠ none → added.next q = q) ∧
      ((∀ found ∈ visitedOf items, found.IsList) → added.next q = q) := by
  intro added
  have asGroup : Criterion.step kind (.nest items operator operand c) = .nest (.group kind c) (steps kind items) := by
    rw [Criterion.step, if_pos groups]
  have applied := Criterion.stepApply kind (.nest items operator operand c) q
  have silent := Edit.stepSilent kind (.nest items operator operand c) q
  rw [asGroup] at applied silent
  have notices : (added.perform q).notices = [] := Edit.atomicSilent (Edit.criterionSilent kind _) q
  refine ⟨performSame applied.symm (notices.trans silent.symm), ?_, ?_, ?_⟩
  · have own := Criterion.testRefusal q kind (.nest items operator operand c)
    rw [Criterion.visited, List.findSome?_cons, Criterion.groupsUnobjected q.dialect groups] at own
    exact (faultIs added q).trans own
  · intro refused
    cases found : added.apply q with
    | ok next => exact absurd (by rw [faultIs, found, refusal]) refused
    | error fault => exact (performError found).2
  · intro lists
    cases found : added.apply q with
    | error fault => exact (performError found).2
    | ok next =>
      obtain ⟨s, pushed, last⟩ := bindIsOk found
      have all : ∀ found ∈ Criterion.visited (.nest items operator operand c), found.IsList :=
        List.forall_mem_cons.mpr ⟨trivial, lists⟩
      cases Criterion.pushNothing all pushed
      rw [(performOk found).2, ← Except.ok.inj last, q.withPartPart]

theorem criteriaAddAsNestedGroups :
    let pattern : Criterion := .leaf "a" "like" (.value .null) .or
    let unknown : Criterion := .leaf "b" "~" (.list []) .and
    let inner : List Criterion := [.group [] .xor, pattern]
    let items : List Criterion := [.nest inner " = " (.list []) .or, unknown]
    let calls : List Step :=
      [.nest (.group .having .or) [.nest (.group .having .xor) [], .call (.test .having pattern)],
        .call (.test .having unknown)]
    let added : Step := .call (.test .having (.nest items "=" (.list []) .and))
    Groups "=" (.list []) ∧
      added.perform (.blank .sqlite) = (Step.nest (.group .having .and) calls).perform (.blank .sqlite) ∧
      added.fault? (.blank .sqlite) = some (.nullOperand "LIKE") := by
  intro pattern unknown inner items calls added
  have groups : Groups "=" (.list []) := by decide
  have asCalls : steps .having items = calls := rfl
  obtain ⟨same, fault, _⟩ := criteriaAddAsGroups (.blank .sqlite) .having items groups .and
  rw [asCalls] at same
  exact ⟨groups, same, fault.trans rfl⟩

end Step
end SelectBuilder
