import SelectBuilder.Query.Fragments

/-! Calls without a callback, as data, and what each answers: the next query or why it is refused. `refuse` is
a call whose arguments could not be read. -/
namespace SelectBuilder

inductive Call
  | refuse (fault : Fault)
  | test (kind : ClauseKind) (item : Criterion)
  | testRaw (kind : ClauseKind) (sql : Text) (args : List Arg) (c : Connective)
  | testColumns (kind : ClauseKind) (first operator second : Text) (c : Connective)
  | select (columns : List Ident)
  | addSelect (columns : List Ident)
  | selectRaw (sql : Text) (args : List Arg)
  | distinct
  | selectFrom (table : Ident)
  | fromRaw (sql : Text) (args : List Arg)
  | crossJoin (table : Ident)
  | join (kind : JoinKind) (table : Ident) (first operator second : Text)
  | joinWhere (kind : JoinKind) (table : Ident) (first operator : Text) (operand : Arg)
  | groupBy (columns : List Ident)
  | groupByRaw (sql : Text) (args : List Arg)
  | orderBy (column : Ident) (direction : Text)
  | orderRandom
  | orderByRaw (sql : Text) (args : List Arg)
  | limit (n : Nat)
  | offset (n : Nat)
  | unionOrderBy (column : Ident) (direction : Text)
  | unionOrderByRaw (sql : Text) (args : List Arg)
  | unionLimit (n : Nat)
  | unionOffset (n : Nat)
  | addBinding (bucket : Bucket) (arg : Arg)
  | setDialect (d : Dialect)
  | restart
  | describe
  | listBindings
  | showDebug
  | execute

namespace Call

def testWith (kind : ClauseKind) (column : Column) (operator : Text) (operand : Arg) (connective : Text) : Call :=
  match Connective.parse connective with
  | .ok c => .test kind (.test column operator operand c)
  | .error fault => .refuse fault

def orderByDescending (column : Ident) : Call := .orderBy column "DESC"

def bindTo (bucket : Text) (arg : Arg) : Call :=
  match Bucket.parse bucket with
  | .ok b => .addBinding b arg
  | .error fault => .refuse fault

def apply : Call → Query → Except Fault Query
  | .refuse fault, _ => .error fault
  | .test kind item, q => q.test kind item
  | .testRaw kind sql args c, q => .ok (q.testRaw kind sql args c)
  | .testColumns kind first operator second c, q => q.testColumns kind first operator second c
  | .select columns, q => .ok (q.select columns)
  | .addSelect columns, q => .ok (q.addSelect columns)
  | .selectRaw sql args, q => .ok (q.selectRaw sql args)
  | .distinct, q => .ok q.setDistinct
  | .selectFrom table, q => .ok (q.selectFrom table)
  | .fromRaw sql args, q => .ok (q.fromRaw sql args)
  | .crossJoin table, q => .ok (q.crossJoin table)
  | .join kind table first operator second, q => do
    let op ← Operator.parseComparison operator
    .ok (q.join kind table first op second)
  | .joinWhere kind table first operator operand, q => do
    let op ← Operator.parseComparison operator
    Query.requireSingle op operand
    .ok (q.joinWhere kind table first op operand)
  | .groupBy columns, q => .ok (q.groupBy columns)
  | .groupByRaw sql args, q => .ok (q.groupByRaw sql args)
  | .orderBy column direction, q => do
    let term ← q.orderTerm column direction
    .ok (q.orderBy term)
  | .orderRandom, q => .ok q.orderRandom
  | .orderByRaw sql args, q => .ok (q.orderByRaw sql args)
  | .limit n, q => .ok (q.limit n)
  | .offset n, q => .ok (q.offset n)
  | .unionOrderBy column direction, q => do
    let term ← q.orderTerm column direction
    .ok (q.unionOrderBy term)
  | .unionOrderByRaw sql args, q => .ok (q.unionOrderByRaw sql args)
  | .unionLimit n, q => .ok (q.unionLimit n)
  | .unionOffset n, q => .ok (q.unionOffset n)
  | .addBinding bucket arg, q => .ok (q.addBinding bucket arg)
  | .setDialect d, q => .ok { q with dialect := d }
  | .restart, q => .ok q.child
  | .describe, q => .ok q
  | .listBindings, q => .ok q
  | .showDebug, q => q.debugText.map fun _ => q
  | .execute, q => q.execute.result.map fun _ => q

/-- What a call that is carried out leaves of a query. -/
inductive Applied (q : Query) : Call → Query → Prop
  | test {kind item next} (tested : q.test kind item = .ok next) : Applied q (.test kind item) next
  | testRaw (kind sql args c) : Applied q (.testRaw kind sql args c) (q.testRaw kind sql args c)
  | testColumns {kind first operator second c next} (tested : q.testColumns kind first operator second c = .ok next) :
      Applied q (.testColumns kind first operator second c) next
  | select (columns) : Applied q (.select columns) (q.select columns)
  | addSelect (columns) : Applied q (.addSelect columns) (q.addSelect columns)
  | selectRaw (sql args) : Applied q (.selectRaw sql args) (q.selectRaw sql args)
  | distinct : Applied q .distinct q.setDistinct
  | selectFrom (table) : Applied q (.selectFrom table) (q.selectFrom table)
  | fromRaw (sql args) : Applied q (.fromRaw sql args) (q.fromRaw sql args)
  | crossJoin (table) : Applied q (.crossJoin table) (q.crossJoin table)
  | join {kind table first operator second op} (parsed : Operator.parseComparison operator = .ok op) :
      Applied q (.join kind table first operator second) (q.join kind table first op second)
  | joinWhere {kind table first operator operand op} (parsed : Operator.parseComparison operator = .ok op)
      (single : Query.requireSingle op operand = .ok ()) :
      Applied q (.joinWhere kind table first operator operand) (q.joinWhere kind table first op operand)
  | groupBy (columns) : Applied q (.groupBy columns) (q.groupBy columns)
  | groupByRaw (sql args) : Applied q (.groupByRaw sql args) (q.groupByRaw sql args)
  | orderBy {column direction term} (written : q.orderTerm column direction = .ok term) :
      Applied q (.orderBy column direction) (q.orderBy term)
  | orderRandom : Applied q .orderRandom q.orderRandom
  | orderByRaw (sql args) : Applied q (.orderByRaw sql args) (q.orderByRaw sql args)
  | limit (n) : Applied q (.limit n) (q.limit n)
  | offset (n) : Applied q (.offset n) (q.offset n)
  | unionOrderBy {column direction term} (written : q.orderTerm column direction = .ok term) :
      Applied q (.unionOrderBy column direction) (q.unionOrderBy term)
  | unionOrderByRaw (sql args) : Applied q (.unionOrderByRaw sql args) (q.unionOrderByRaw sql args)
  | unionLimit (n) : Applied q (.unionLimit n) (q.unionLimit n)
  | unionOffset (n) : Applied q (.unionOffset n) (q.unionOffset n)
  | addBinding (bucket arg) : Applied q (.addBinding bucket arg) (q.addBinding bucket arg)
  | setDialect (d) : Applied q (.setDialect d) { q with dialect := d }
  | restart : Applied q .restart q.child
  | describe : Applied q .describe q
  | listBindings : Applied q .listBindings q
  | showDebug {sql} (shown : q.debugText = .ok sql) : Applied q .showDebug q
  | execute {affected} (ran : q.execute.result = .ok affected) : Applied q .execute q

theorem applyIs {c : Call} {q next : Query} (ok : c.apply q = .ok next) : c.Applied q next := by
  cases c with
  | refuse fault => contradiction
  | test kind item => exact .test ok
  | testColumns kind first operator second c => exact .testColumns ok
  | join kind table first operator second =>
    obtain ⟨op, parsed, last⟩ := bindIsOk ok
    cases last
    exact .join parsed
  | joinWhere kind table first operator operand =>
    obtain ⟨op, parsed, rest⟩ := bindIsOk ok
    obtain ⟨_, single, last⟩ := bindIsOk rest
    cases last
    exact .joinWhere parsed single
  | orderBy column direction =>
    obtain ⟨term, written, last⟩ := bindIsOk ok
    cases last
    exact .orderBy written
  | unionOrderBy column direction =>
    obtain ⟨term, written, last⟩ := bindIsOk ok
    cases last
    exact .unionOrderBy written
  | showDebug =>
    obtain ⟨sql, shown, rfl⟩ := mapIsOk ok
    exact .showDebug shown
  | execute =>
    obtain ⟨affected, ran, rfl⟩ := mapIsOk ok
    exact .execute ran
  | _ =>
    cases ok
    constructor

end Call
end SelectBuilder
