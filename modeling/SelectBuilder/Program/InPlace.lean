import SelectBuilder.Program.Step

/-! Programs carried out in place on one query. An edit gives notices, leaves a query behind, and is carried out
or refused. What a refused edit leaves behind is what it had written by then, unless a copy made beforehand is put
back. An edit may be tried out on another query: the one at hand then stays as it is. -/
namespace SelectBuilder

structure Outcome (α : Type) where
  notices : List Notice
  query : Query
  result : Except Fault α

def Edit (α : Type) := Query → Outcome α

namespace Edit

def bind {α β : Type} (x : Edit α) (f : α → Edit β) : Edit β := fun q =>
  match (x q).result with
  | .ok a => { f a (x q).query with notices := (x q).notices ++ (f a (x q).query).notices }
  | .error fault => ⟨(x q).notices, (x q).query, .error fault⟩

instance : Monad Edit where
  pure a := fun q => ⟨[], q, .ok a⟩
  bind := bind

def look : Edit Query := fun q => ⟨[], q, .ok q⟩

def change (f : Query → Query) : Edit Unit := fun q => ⟨[], f q, .ok ()⟩

def check {α : Type} (result : Except Fault α) : Edit α := fun q => ⟨[], q, result⟩

def tell (notice : Notice) : Edit Unit := fun q => ⟨[notice], q, .ok ()⟩

/-- The query as it was is put back when the edit is refused. -/
def atomic {α : Type} (x : Edit α) : Edit α := fun q =>
  match (x q).result with
  | .ok _ => x q
  | .error _ => { x q with query := q }

/-- A refusal is dropped, and what the edit left behind is gone on with. -/
def forgive (x : Edit Unit) : Edit Unit := fun q => { x q with result := .ok () }

def onCopy (x : Edit Unit) : Edit Query := fun q =>
  ⟨(x q).notices, q, (x q).result.map fun _ => (x q).query⟩

def onChild (x : Edit Unit) : Edit Query := fun q => { onCopy x q.child with query := q }

/-! Predicates, with all they absorb and all that their groups'
callbacks do, are written under a copy that is put back when they are refused; the other methods check first
and write after. A refused step drops nothing by itself, so a callback that passes over it goes on with the
query as it was left. -/

def write (kind : ClauseKind) (c : Connective) (p : Predicate) : Edit Unit :=
  change fun q => q.withPart kind ((q.part kind).add kind.keyword c p)

def group (kind : ClauseKind) (c : Connective) (body : Edit Unit) : Edit Unit := do
  let outer ← look
  change fun q => q.openGroup kind c
  body
  let inner ← look
  let clause ← check ((outer.clause kind).closeGroup kind.keyword c (inner.clause kind))
  change fun q => q.withClause kind clause

mutual
def criterion (kind : ClauseKind) : Criterion → Edit Unit
  | .leaf column operator operand c => do
    let op ← check (Operator.parse operator)
    let q ← look
    let p ← check (Predicate.compare (column.render q.dialect) op operand)
    write kind c p
  | .nest items operator operand c => do
    let op ← check (Operator.parse operator)
    if op = .eq ∧ Criterion.isNoOperand operand then
      if items.isEmpty then pure () else group kind c (criteria kind items)
    else check (.error (.criteriaOperand op.sql))

def criteria (kind : ClauseKind) : List Criterion → Edit Unit
  | [] => pure ()
  | item :: rest => do
    criterion kind item
    criteria kind rest
end

def absorb (b : Bucket) (inner : Query) : Edit Unit := do
  tell (.absorbed b inner.bindings.size)
  change fun q => q.absorb b inner

end Edit

open Edit

def Call.perform : Call → Edit Unit
  | .refuse fault => check (.error fault)
  | .test kind item => atomic (criterion kind item)
  | .testRaw kind sql args c => atomic (write kind c (.raw sql args))
  | .testColumns kind first operator second c => do
    let op ← check (Operator.parseComparison operator)
    atomic do
      let q ← look
      let p ← check (Predicate.compare (q.dialect.wrap first) op (.raw (q.dialect.wrap second)))
      write kind c p
  | .select columns => change fun q => q.select columns
  | .addSelect columns => change fun q => q.addSelect columns
  | .selectRaw sql args => change fun q => q.selectRaw sql args
  | .distinct => change Query.setDistinct
  | .selectFrom table => change fun q => q.selectFrom table
  | .fromRaw sql args => change fun q => q.fromRaw sql args
  | .crossJoin table => change fun q => q.crossJoin table
  | .join kind table first operator second => do
    let op ← check (Operator.parseComparison operator)
    change fun q => q.join kind table first op second
  | .joinWhere kind table first operator operand => do
    let op ← check (Operator.parseComparison operator)
    check (Query.requireSingle op operand)
    change fun q => q.joinWhere kind table first op operand
  | .groupBy columns => change fun q => q.groupBy columns
  | .groupByRaw sql args => change fun q => q.groupByRaw sql args
  | .orderBy column direction => do
    let q ← look
    let term ← check (q.orderTerm column direction)
    change fun q => q.orderBy term
  | .orderRandom => change Query.orderRandom
  | .orderByRaw sql args => change fun q => q.orderByRaw sql args
  | .limit n => change fun q => q.limit n
  | .offset n => change fun q => q.offset n
  | .unionOrderBy column direction => do
    let q ← look
    let term ← check (q.orderTerm column direction)
    change fun q => q.unionOrderBy term
  | .unionOrderByRaw sql args => change fun q => q.unionOrderByRaw sql args
  | .unionLimit n => change fun q => q.unionLimit n
  | .unionOffset n => change fun q => q.unionOffset n
  | .addBinding bucket arg => change fun q => q.addBinding bucket arg
  | .setDialect d => change fun q => { q with dialect := d }
  | .restart => change Query.child
  | .describe => pure ()
  | .listBindings => pure ()
  | .showDebug => do
    let q ← look
    let _ ← check q.debugText
  | .execute => fun q => ⟨q.execute.notices, q, q.execute.result.map fun _ => ()⟩

def Nest.perform : Nest → Edit Unit → Edit Unit
  | .group kind c, callback => atomic (Edit.group kind c callback)
  | .existence kind c, callback => do
    let inner ← onChild callback
    atomic do
      absorb kind.bucket inner
      write kind c.exist (.raw inner.enclosed [])
  | .valueSub kind column operator c, callback => do
    let op ← check (Operator.parse operator)
    check (if op.takesRange then .error (.listOperand op.sql) else .ok ())
    let inner ← onChild callback
    atomic do
      absorb kind.bucket inner
      criterion kind (.test column operator (.raw inner.enclosed) c)
  | .columnSub kind operator operand c, callback => do
    let _ ← check (Operator.parse operator)
    let inner ← onChild callback
    atomic do
      absorb kind.bucket inner
      criterion kind (.leaf (.raw inner.enclosed) operator operand c)
  | .selectSub name, callback => do
    check (requireName name)
    let inner ← onChild callback
    absorb .select inner
    change fun q => q.addColumn (q.named inner name)
  | .fromSub name, callback => do
    check (requireName name)
    let inner ← onChild callback
    change fun q => q.clearBucket .source
    absorb .source inner
    change fun q => { q with source := some (q.named inner name) }
  | .joinSub kind name first operator second, callback => do
    check (requireName name)
    let op ← check (Operator.parseComparison operator)
    let inner ← onChild callback
    absorb .join inner
    change fun q => q.joined kind (q.named inner name) (q.onColumns first op second)
  | .union all, callback => do
    let inner ← onChild callback
    change fun q => q.addUnion all inner
  | .copy, callback => do
    let _ ← onCopy callback
  | .child, callback => do
    let _ ← onChild callback

namespace Step

mutual
def perform : Step → Edit Unit
  | .call c => c.perform
  | .nest n body => n.perform (performAll body)
  | .attempt s => forgive (perform s)

def performAll : List Step → Edit Unit
  | [] => pure ()
  | s :: rest => do
    perform s
    performAll rest
end

def next (s : Step) (q : Query) : Query := (s.perform q).query

def run (program : Program) (q : Query) : Query := program.foldl (fun q s => s.next q) q

theorem nextAttempt (s : Step) (q : Query) : (Step.attempt s).next q = s.next q := rfl

end Step

end SelectBuilder
