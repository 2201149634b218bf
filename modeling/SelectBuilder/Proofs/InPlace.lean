import SelectBuilder.Program.InPlace

/-! Steps in place, read as functions. A refused step leaves its query as it was, whatever its callback did
to the query it was given: predicates because a copy is put back, the other methods because nothing is
written before the last check. Hence a step in place and the function `Step.apply` tell the same. -/
namespace SelectBuilder

namespace Edit

def Looks {α : Type} (x : Edit α) : Prop := ∀ q, (x q).query = q

def Sure {α : Type} (x : Edit α) : Prop := ∀ q fault, (x q).result ≠ .error fault

def Steady {α : Type} (x : Edit α) : Prop := ∀ q fault, (x q).result = .error fault → (x q).query = q

theorem bindOk {α β : Type} {x : Edit α} {q : Query} {a : α} (ok : (x q).result = .ok a) (f : α → Edit β) :
    ((x >>= f) q).query = (f a (x q).query).query ∧ ((x >>= f) q).result = (f a (x q).query).result := by
  change (bind x f q).query = _ ∧ (bind x f q).result = _
  unfold bind
  rw [ok]
  exact ⟨rfl, rfl⟩

theorem bindError {α β : Type} {x : Edit α} {q : Query} {fault : Fault} (refused : (x q).result = .error fault)
    (f : α → Edit β) : ((x >>= f) q).query = (x q).query ∧ ((x >>= f) q).result = .error fault := by
  change (bind x f q).query = _ ∧ (bind x f q).result = _
  unfold bind
  rw [refused]
  exact ⟨rfl, rfl⟩

theorem lookLooks : Looks look := fun _ => rfl

theorem checkLooks {α : Type} (result : Except Fault α) : Looks (check result) := fun _ => rfl

theorem onCopyLooks (x : Edit Unit) : Looks (onCopy x) := fun _ => rfl

theorem onChildLooks (x : Edit Unit) : Looks (onChild x) := fun _ => rfl

theorem changeSure (f : Query → Query) : Sure (change f) := by
  intro q fault
  simp [change]

theorem tellSure (notice : Notice) : Sure (tell notice) := by
  intro q fault
  simp [tell]

theorem forgiveSure (x : Edit Unit) : Sure (forgive x) := by
  intro q fault
  simp [forgive]

theorem bindSure {α β : Type} {x : Edit α} {f : α → Edit β} (first : Sure x) (later : ∀ a, Sure (f a)) :
    Sure (x >>= f) := by
  intro q fault refused
  cases found : (x q).result with
  | error other => exact first q other found
  | ok a =>
    rw [(bindOk found f).2] at refused
    exact later a _ fault refused

theorem bindLooks {α β : Type} {x : Edit α} {f : α → Edit β} (first : Looks x) (later : ∀ a, Looks (f a)) :
    Looks (x >>= f) := by
  intro q
  cases found : (x q).result with
  | error fault => rw [(bindError found f).1, first q]
  | ok a => rw [(bindOk found f).1, first q, later a q]

theorem absorbSure (b : Bucket) (inner : Query) : Sure (absorb b inner) :=
  bindSure (tellSure _) fun _ => changeSure _

theorem looksSteady {α : Type} {x : Edit α} (looks : Looks x) : Steady x := fun q _ _ => looks q

theorem sureSteady {α : Type} {x : Edit α} (sure : Sure x) : Steady x :=
  fun q fault refused => absurd refused (sure q fault)

theorem atomicSteady {α : Type} (x : Edit α) : Steady (atomic x) := by
  intro q fault refused
  unfold atomic at refused ⊢
  cases found : (x q).result with
  | ok a => simp [found] at refused
  | error other => rfl

theorem bindSteady {α β : Type} {x : Edit α} {f : α → Edit β} (first : Looks x) (later : ∀ a, Steady (f a)) :
    Steady (x >>= f) := by
  intro q fault refused
  cases found : (x q).result with
  | error other => rw [(bindError found f).1, first q]
  | ok a =>
    obtain ⟨query, result⟩ := bindOk found f
    rw [result] at refused
    rw [query, later a _ fault refused, first q]

end Edit

open Edit

theorem performCallSteady (c : Call) : Steady c.perform := by
  cases c with
  | refuse fault => exact looksSteady (checkLooks _)
  | test kind item => exact atomicSteady _
  | testRaw kind sql args c => exact atomicSteady _
  | testColumns kind first operator second c => exact bindSteady (checkLooks _) fun op => atomicSteady _
  | join kind table first operator second =>
    exact bindSteady (checkLooks _) fun op => sureSteady (changeSure _)
  | joinWhere kind table first operator operand =>
    exact bindSteady (checkLooks _) fun op => bindSteady (checkLooks _) fun _ => sureSteady (changeSure _)
  | orderBy column direction =>
    exact bindSteady lookLooks fun q => bindSteady (checkLooks _) fun term => sureSteady (changeSure _)
  | unionOrderBy column direction =>
    exact bindSteady lookLooks fun q => bindSteady (checkLooks _) fun term => sureSteady (changeSure _)
  | describe => exact looksSteady fun _ => rfl
  | listBindings => exact looksSteady fun _ => rfl
  | showDebug =>
    exact bindSteady lookLooks fun q => bindSteady (checkLooks _) fun _ => looksSteady fun _ => rfl
  | execute => exact looksSteady fun _ => rfl
  | _ => exact sureSteady (changeSure _)

theorem performNestSteady (n : Nest) (callback : Edit Unit) : Steady (n.perform callback) := by
  cases n with
  | group kind c => exact atomicSteady _
  | existence kind c => exact bindSteady (onChildLooks _) fun inner => atomicSteady _
  | valueSub kind column operator c =>
    exact bindSteady (checkLooks _) fun op => bindSteady (checkLooks _) fun _ =>
      bindSteady (onChildLooks _) fun inner => atomicSteady _
  | columnSub kind operator operand c =>
    exact bindSteady (checkLooks _) fun op => bindSteady (onChildLooks _) fun inner => atomicSteady _
  | selectSub name =>
    exact bindSteady (checkLooks _) fun _ => bindSteady (onChildLooks _) fun inner =>
      sureSteady (bindSure (absorbSure _ _) fun _ => changeSure _)
  | fromSub name =>
    exact bindSteady (checkLooks _) fun _ => bindSteady (onChildLooks _) fun inner =>
      sureSteady (bindSure (changeSure _) fun _ => bindSure (absorbSure _ _) fun _ => changeSure _)
  | joinSub kind name first operator second =>
    exact bindSteady (checkLooks _) fun _ => bindSteady (checkLooks _) fun op =>
      bindSteady (onChildLooks _) fun inner => sureSteady (bindSure (absorbSure _ _) fun _ => changeSure _)
  | union all => exact bindSteady (onChildLooks _) fun inner => sureSteady (changeSure _)
  | copy => exact bindSteady (onCopyLooks _) fun _ => looksSteady fun _ => rfl
  | child => exact bindSteady (onChildLooks _) fun _ => looksSteady fun _ => rfl

theorem performSteady (s : Step) : Steady s.perform := by
  cases s with
  | call c => exact performCallSteady c
  | nest n body => exact performNestSteady n _
  | attempt s => exact sureSteady (forgiveSure _)

namespace Edit

/-- What an edit answers to those who go on with the query it leaves, if it is not refused. -/
def answer {α : Type} (x : Edit α) (q : Query) : Except Fault (α × Query) := do
  let a ← (x q).result
  .ok (a, (x q).query)

@[simp] theorem answerPure {α : Type} (a : α) (q : Query) : answer (pure a) q = .ok (a, q) := rfl

@[simp] theorem answerLook (q : Query) : answer look q = .ok (q, q) := rfl

@[simp] theorem answerChange (f : Query → Query) (q : Query) : answer (change f) q = .ok ((), f q) := rfl

@[simp] theorem answerTell (notice : Notice) (q : Query) : answer (tell notice) q = .ok ((), q) := rfl

@[simp] theorem answerCheck {α : Type} (result : Except Fault α) (q : Query) :
    answer (check result) q = result >>= fun a => .ok (a, q) := rfl

@[simp] theorem answerBind {α β : Type} (x : Edit α) (f : α → Edit β) (q : Query) :
    answer (x >>= f) q = answer x q >>= fun r => answer (f r.1) r.2 := by
  unfold answer
  cases found : (x q).result with
  | error fault =>
    rw [(bindError found f).2]
    rfl
  | ok a =>
    rw [(bindOk found f).1, (bindOk found f).2]
    rfl

@[simp] theorem answerAtomic {α : Type} (x : Edit α) (q : Query) : answer (atomic x) q = answer x q := by
  unfold answer atomic
  cases found : (x q).result <;> simp [found]

@[simp] theorem answerOnCopy (x : Edit Unit) (q : Query) :
    answer (onCopy x) q = answer x q >>= fun r => .ok (r.2, q) := by
  unfold answer onCopy
  cases (x q).result <;> rfl

@[simp] theorem answerOnChild (x : Edit Unit) (q : Query) :
    answer (onChild x) q = answer x q.child >>= fun r => .ok (r.2, q) := by
  unfold answer onChild onCopy
  cases (x q.child).result <;> rfl

@[simp] theorem answerWrite (kind : ClauseKind) (c : Connective) (p : Predicate) (q : Query) :
    answer (write kind c p) q = .ok ((), q.withPart kind ((q.part kind).add kind.keyword c p)) := rfl

@[simp] theorem answerAbsorb (b : Bucket) (inner q : Query) :
    answer (absorb b inner) q = .ok ((), q.absorb b inner) := by
  simp [absorb]

@[simp] theorem answerGroup (kind : ClauseKind) (c : Connective) (body : Edit Unit) (q : Query) :
    answer (group kind c body) q =
      answer body (q.openGroup kind c) >>= fun r => q.closeGroup kind c r.2 >>= fun next => .ok ((), next) := by
  simp only [group, answerBind, answerLook, answerChange, answerCheck, okBind]
  cases answer body (q.openGroup kind c) with
  | error fault => rfl
  | ok r =>
    simp only [okBind, Query.closeGroup]
    cases (q.clause kind).closeGroup kind.keyword c (r.2.clause kind) <;> rfl

theorem closeGroupPart (q : Query) (kind : ClauseKind) (c : Connective) (inner : Section) :
    q.closeGroup kind c (q.withPart kind inner) =
      (q.part kind).closeGroup kind.keyword c inner >>= fun s => .ok (q.withPart kind s) := by
  have clause : (q.withPart kind inner).clause kind = inner.clause := q.clauseWithPart kind inner
  have part : (q.part kind).clause = q.clause kind := rfl
  simp only [Query.closeGroup, Section.closeGroup, clause, part]
  cases (q.clause kind).closeGroup kind.keyword c inner.clause with
  | error fault => rfl
  | ok clause => cases kind <;> rfl

theorem withPartWithPart (q : Query) (kind : ClauseKind) (s t : Section) :
    (q.withPart kind s).withPart kind t = q.withPart kind t := by
  cases kind <;> rfl

mutual
theorem answerCriterion (kind : ClauseKind) (item : Criterion) (q : Query) :
    answer (criterion kind item) q =
      item.push q.dialect kind.keyword (q.part kind) >>= fun s => .ok ((), q.withPart kind s) := by
  cases item with
  | leaf column operator operand c =>
    simp only [criterion, Criterion.push, answerBind, answerCheck, answerLook, answerWrite]
    cases Operator.parse operator with
    | error fault => rfl
    | ok op =>
      simp only [okBind]
      cases Predicate.compare (column.render q.dialect) op operand <;> rfl
  | nest items operator operand c =>
    have inner := answerCriteria kind items (q.openGroup kind c)
    have part : (q.openGroup kind c).part kind = (q.part kind).openGroup kind.keyword c := q.partWithPart kind _
    have dialect : (q.openGroup kind c).dialect = q.dialect := by cases kind <;> rfl
    simp only [criterion, Criterion.push, answerBind, answerCheck]
    cases Operator.parse operator with
    | error fault => rfl
    | ok op =>
      simp only [okBind]
      split
      · split
        · simp [Query.withPartPart]
        · rw [answerGroup, inner, part, dialect]
          cases Criterion.pushAll q.dialect kind.keyword items ((q.part kind).openGroup kind.keyword c) with
          | error fault => rfl
          | ok s =>
            simp only [okBind, Query.openGroup, withPartWithPart, closeGroupPart]
            cases (q.part kind).closeGroup kind.keyword c s <;> rfl
      · rfl

theorem answerCriteria (kind : ClauseKind) (items : List Criterion) (q : Query) :
    answer (criteria kind items) q =
      Criterion.pushAll q.dialect kind.keyword items (q.part kind) >>= fun s => .ok ((), q.withPart kind s) := by
  cases items with
  | nil => simp [criteria, Criterion.pushAll, Query.withPartPart]
  | cons item rest =>
    simp only [criteria, Criterion.pushAll, answerBind, answerCriterion kind item q]
    cases item.push q.dialect kind.keyword (q.part kind) with
    | error fault => rfl
    | ok s =>
      have dialect : (q.withPart kind s).dialect = q.dialect := by cases kind <;> rfl
      simp only [okBind, answerCriteria kind rest (q.withPart kind s), q.partWithPart, dialect, withPartWithPart]
end

end Edit

open Edit

theorem answerCall (c : Call) (q : Query) :
    c.perform.answer q = c.apply q >>= fun next => .ok ((), next) := by
  cases c with
  | test kind item =>
    simp only [Call.perform, Call.apply, Query.test, answerAtomic, answerCriterion]
    cases item.push q.dialect kind.keyword (q.part kind) <;> rfl
  | testColumns kind first operator second c =>
    simp only [Call.perform, Call.apply, Query.testColumns, answerBind, answerCheck, answerAtomic, answerLook,
      answerWrite]
    cases Operator.parseComparison operator with
    | error fault => rfl
    | ok op =>
      simp only [okBind]
      cases Predicate.compare (q.dialect.wrap first) op (.raw (q.dialect.wrap second)) <;> rfl
  | join kind table first operator second =>
    simp only [Call.perform, Call.apply, answerBind, answerCheck, answerChange]
    cases Operator.parseComparison operator <;> rfl
  | joinWhere kind table first operator operand =>
    simp only [Call.perform, Call.apply, answerBind, answerCheck, answerChange]
    cases Operator.parseComparison operator with
    | error fault => rfl
    | ok op =>
      simp only [okBind]
      cases Query.requireSingle op operand <;> rfl
  | orderBy column direction =>
    simp only [Call.perform, Call.apply, answerBind, answerCheck, answerLook, answerChange, okBind]
    cases q.orderTerm column direction <;> rfl
  | unionOrderBy column direction =>
    simp only [Call.perform, Call.apply, answerBind, answerCheck, answerLook, answerChange, okBind]
    cases q.orderTerm column direction <;> rfl
  | showDebug =>
    simp only [Call.perform, Call.apply, answerBind, answerCheck, answerLook, answerPure, okBind]
    cases q.debugText <;> rfl
  | execute =>
    simp only [Call.apply]
    change (do let a ← q.execute.result.map fun _ => (); Except.ok (a, q)) = _
    cases q.execute.result <;> rfl
  | _ => rfl

theorem answerNest (n : Nest) {callback : Edit Unit} {f : Query → Except Fault Query}
    (carries : ∀ q, callback.answer q = f q >>= fun next => .ok ((), next)) (q : Query) :
    (n.perform callback).answer q = n.run q f >>= fun next => .ok ((), next) := by
  cases n with
  | group kind c =>
    simp only [Nest.perform, Nest.run, Nest.enter, Nest.leave, answerAtomic, answerGroup, carries, okBind]
    cases f (q.openGroup kind c) <;> rfl
  | existence kind c =>
    simp only [Nest.perform, Nest.run, Nest.enter, Nest.leave, answerBind, answerOnChild, answerAtomic, carries,
      okBind]
    cases f q.child <;> rfl
  | valueSub kind column operator c =>
    simp only [Nest.perform, Nest.run, Nest.enter, Nest.leave, answerBind, answerCheck, answerOnChild,
      answerAtomic, answerCriterion, carries]
    cases Operator.parse operator with
    | error fault => rfl
    | ok op =>
      simp only [okBind]
      split
      · rfl
      · simp only [okBind]
        cases f q.child with
        | error fault => rfl
        | ok inner =>
          simp only [okBind, answerAbsorb, Query.testValueSub, Query.test]
          cases Criterion.push _ _ _ _ <;> rfl
  | columnSub kind operator operand c =>
    simp only [Nest.perform, Nest.run, Nest.enter, Nest.leave, answerBind, answerCheck, answerOnChild,
      answerAtomic, answerCriterion, carries]
    cases Operator.parse operator with
    | error fault => rfl
    | ok op =>
      simp only [okBind]
      cases f q.child with
      | error fault => rfl
      | ok inner =>
        simp only [okBind, answerAbsorb, Query.testColumnSub, Query.test]
        cases Criterion.push _ _ _ _ <;> rfl
  | selectSub name =>
    simp only [Nest.perform, Nest.run, Nest.enter, Nest.leave, answerBind, answerCheck, answerOnChild, carries]
    cases Nest.requireName name with
    | error fault => rfl
    | ok _ =>
      simp only [okBind]
      cases f q.child <;> rfl
  | fromSub name =>
    simp only [Nest.perform, Nest.run, Nest.enter, Nest.leave, answerBind, answerCheck, answerOnChild, carries]
    cases Nest.requireName name with
    | error fault => rfl
    | ok _ =>
      simp only [okBind]
      cases f q.child <;> rfl
  | joinSub kind name first operator second =>
    simp only [Nest.perform, Nest.run, Nest.enter, Nest.leave, answerBind, answerCheck, answerOnChild, carries]
    cases Nest.requireName name with
    | error fault => rfl
    | ok _ =>
      simp only [okBind]
      cases Operator.parseComparison operator with
      | error fault => rfl
      | ok op =>
        simp only [okBind]
        cases f q.child <;> rfl
  | union all =>
    simp only [Nest.perform, Nest.run, Nest.enter, Nest.leave, answerBind, answerOnChild, carries, okBind]
    cases f q.child <;> rfl
  | copy =>
    simp only [Nest.perform, Nest.run, Nest.enter, Nest.leave, answerBind, answerOnCopy, answerPure, carries, okBind]
    cases f q <;> rfl
  | child =>
    simp only [Nest.perform, Nest.run, Nest.enter, Nest.leave, answerBind, answerOnChild, answerPure, carries, okBind]
    cases f q.child <;> rfl

namespace Step

mutual
theorem answerStep (s : Step) (q : Query) :
    s.perform.answer q = s.apply q >>= fun next => .ok ((), next) := by
  cases s with
  | call c => exact answerCall c q
  | nest n body =>
    simp only [perform, apply]
    exact answerNest n (answerSteps body) q
  | attempt s =>
    have inner := answerStep s q
    simp only [perform, apply]
    cases found : (s.perform q).result with
    | ok a =>
      simp only [answer, found, okBind] at inner
      obtain ⟨next, applied, same⟩ := bindIsOk inner.symm
      cases same
      simp [answer, forgive, applied]
    | error fault =>
      -- The step forgiven is steady, so what it left behind is the query before it.
      have kept := performSteady s q fault found
      simp only [answer, found, errorBind] at inner
      cases applied : s.apply q with
      | ok next => simp [applied] at inner
      | error other => simp [answer, forgive, kept]

theorem answerSteps (body : List Step) (q : Query) :
    (performAll body).answer q = applyAll body q >>= fun next => .ok ((), next) := by
  cases body with
  | nil => rfl
  | cons s rest =>
    simp only [performAll, applyAll, answerBind, answerStep s q]
    cases s.apply q with
    | error fault => rfl
    | ok next => exact answerSteps rest next
end

theorem performOk {s : Step} {q next : Query} (ok : s.apply q = .ok next) :
    (s.perform q).result = .ok () ∧ s.next q = next := by
  have same := answerStep s q
  simp only [ok, okBind, answer] at same
  obtain ⟨a, found, after⟩ := bindIsOk same
  cases after
  exact ⟨found, rfl⟩

theorem performError {s : Step} {q : Query} {fault : Fault} (refused : s.apply q = .error fault) :
    (s.perform q).result = .error fault ∧ s.next q = q := by
  have same := answerStep s q
  simp only [refused, errorBind, answer] at same
  cases found : (s.perform q).result with
  | ok a => simp [found] at same
  | error other =>
    simp only [found, errorBind, Except.error.injEq] at same
    exact ⟨by rw [same], performSteady s q other found⟩

theorem performAllOk {body : List Step} {q last : Query} (ok : applyAll body q = .ok last) :
    (performAll body q).result = .ok () ∧ (performAll body q).query = last := by
  have same := answerSteps body q
  simp only [ok, okBind, Edit.answer] at same
  obtain ⟨a, found, after⟩ := bindIsOk same
  cases after
  exact ⟨found, rfl⟩

theorem runIsApplyAll {program : Program} {q last : Query} (ok : applyAll program q = .ok last) :
    run program q = last := by
  induction program generalizing q with
  | nil => exact Except.ok.inj ok
  | cons s rest ih =>
    obtain ⟨next, first, later⟩ := bindIsOk ok
    change run rest (s.next q) = last
    rw [(performOk first).2]
    exact ih later

/-! What depends on whether a step is carried out. -/

def ifCarriedOut {α : Type} (s : Step) (q : Query) (found otherwise : α) : α :=
  match (s.perform q).result with
  | .ok _ => found
  | .error _ => otherwise

theorem carriedOut {α : Type} {s : Step} {q next : Query} (ok : s.apply q = .ok next) (found otherwise : α) :
    ifCarriedOut s q found otherwise = found := by
  simp only [ifCarriedOut, (performOk ok).1]

theorem notCarriedOut {α : Type} {s : Step} {q : Query} {fault : Fault} (refused : s.apply q = .error fault)
    (found otherwise : α) : ifCarriedOut s q found otherwise = otherwise := by
  simp only [ifCarriedOut, (performError refused).1]

theorem ifCarriedOutHolds {α : Type} {P : α → Prop} {found otherwise : α} (one : P found) (other : P otherwise)
    (s : Step) (q : Query) : P (ifCarriedOut s q found otherwise) := by
  unfold ifCarriedOut
  split
  · exact one
  · exact other

end Step

/-! Steps that keep the query they are given: no callback of a group starts over. What is built on a child or a copy
may be begun anew. -/

def Call.Keeps : Call → Prop
  | .restart => False
  | _ => True

def Nest.Keeps (keeps : Prop) : Nest → Prop
  | .group _ _ => keeps
  | _ => True

namespace Step

def Keeps : Step → Prop := Holds Call.Keeps (fun n _ inside => n.Keeps inside) id

def AllKeep : List Step → Prop := AllHold Call.Keeps (fun n _ inside => n.Keeps inside) id

end Step

end SelectBuilder
