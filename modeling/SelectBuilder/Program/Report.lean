import SelectBuilder.Program.InPlace

/-! What each step of a program answered: its own output, the reports of its callback, the fault if it was
refused, the query after it and the notices it gave. Reports of a callback end with the step that ended it;
a whole program is reported with every step carried out. -/
namespace SelectBuilder

inductive Output
  | none
  | replaced (old : Dialect)
  | dialects (query : Dialect) (backend : Option Dialect)
  | bindings (args : List Arg)
  | debug (sql : Text)
  | execution (e : Execution)

structure Report where
  output : Output
  inner : List Report
  fault : Option Fault
  query : Query
  notices : List Notice

namespace Call

def output : Call → Query → Output
  | .setDialect _, q => .replaced q.dialect
  | .describe, q => .dialects q.dialect (q.backend.map Backend.dialect)
  | .listBindings, q => .bindings q.allBindings
  | .showDebug, q =>
    match q.debugText with
    | .ok sql => .debug sql
    | .error _ => .none
  | .execute, q => if q.backend.isSome then .execution q.execute else .none
  | _, _ => .none

end Call

namespace Step

def fault? (s : Step) (q : Query) : Option Fault :=
  match (s.perform q).result with
  | .ok _ => none
  | .error fault => some fault

def reported (s : Step) (q : Query) (output : Output) (inner : List Report) : Report :=
  ⟨output, inner, s.fault? q, s.next q, (s.perform q).notices⟩

mutual
def report : Step → Query → Report
  | .call c, q => reported (.call c) q (c.output q) []
  | .nest n body, q =>
    reported (.nest n body) q .none <|
      match n.enter q with
      | .ok begun => reportAll body begun
      | .error _ => []
  | .attempt s, q => report s q

def reportAll : List Step → Query → List Report
  | [], _ => []
  | s :: rest, q =>
    report s q ::
      match (s.perform q).result with
      | .ok _ => reportAll rest (s.next q)
      | .error _ => []
end

theorem reportQuery (s : Step) (q : Query) : (report s q).query = s.next q := by
  induction s using Step.rec (motive_2 := fun _ => True) with
  | call c => rfl
  | nest n body _ => rfl
  | attempt s ih => simpa only [report, nextAttempt] using ih
  | nil => trivial
  | cons _ _ _ _ => trivial

end Step

def Program.reports (program : Program) (q : Query) : List Report :=
  Step.reportAll (program.map .attempt) q

end SelectBuilder
