import SelectBuilder.Query.Statement

/-! What the calls of a builder do to the fragments of its query, and what must hold of an operand or a direction
before one is written. What replaces a fragment also forgets the values bound for it. A join on a value binds it
even when it is NULL. One column name, given without a direction, asks for a random order. -/
namespace SelectBuilder

inductive JoinKind
  | inner | left | leftOuter | right | rightOuter | cross
  deriving DecidableEq, Repr

def JoinKind.sql : JoinKind → Text
  | .inner => "INNER JOIN"
  | .left => "LEFT JOIN"
  | .leftOuter => "LEFT OUTER JOIN"
  | .right => "RIGHT JOIN"
  | .rightOuter => "RIGHT OUTER JOIN"
  | .cross => "CROSS JOIN"

namespace Query

def addColumn (q : Query) (sql : Text) : Query := { q with columns := q.columns ++ [sql] }

def addSelect (q : Query) (columns : List Ident) : Query :=
  { q with columns := q.columns ++ columns.map (Ident.render q.dialect) }

def select (q : Query) (columns : List Ident) : Query :=
  { q.clearBucket .select with columns := columns.map (Ident.render q.dialect) }

def selectRaw (q : Query) (sql : Text) (args : List Arg) : Query :=
  (q.addColumn sql).bind .select (Arg.leavesOf args)

def setDistinct (q : Query) : Query := { q with distinct := true }

def selectFrom (q : Query) (table : Ident) : Query :=
  { q.clearBucket .source with source := some (table.render q.dialect) }

def fromRaw (q : Query) (sql : Text) (args : List Arg) : Query :=
  { (q.clearBucket .source).bind .source (Arg.leavesOf args) with source := some sql }

def addJoin (q : Query) (sql : Text) : Query := { q with joins := q.joins ++ [sql] }

def crossJoin (q : Query) (table : Ident) : Query :=
  q.addJoin (JoinKind.cross.sql ++ [' '] ++ table.render q.dialect)

def joined (q : Query) (kind : JoinKind) (table : Text) (condition : Text) : Query :=
  q.addJoin (kind.sql ++ [' '] ++ table ++ " ON " ++ condition)

def onColumns (q : Query) (first : Text) (op : Operator) (second : Text) : Text :=
  q.dialect.wrap first ++ [' '] ++ op.sql ++ [' '] ++ q.dialect.wrap second

def join (q : Query) (kind : JoinKind) (table : Ident) (first : Text) (op : Operator) (second : Text) : Query :=
  q.joined kind (table.render q.dialect) (q.onColumns first op second)

def requireSingle (op : Operator) : Arg → Except Fault Unit
  | .list _ => .error (.listOperand op.sql)
  | _ => .ok ()

def joinWhere (q : Query) (kind : JoinKind) (table : Ident) (first : Text) (op : Operator) (operand : Arg) :
    Query :=
  let condition := q.dialect.wrap first ++ [' '] ++ op.sql ++ [' '] ++ operand.placeholder
  (q.joined kind (table.render q.dialect) condition).bind .join operand.leaves

def groupBy (q : Query) (columns : List Ident) : Query :=
  { q with groups := q.groups ++ columns.map (Ident.render q.dialect) }

def groupByRaw (q : Query) (sql : Text) (args : List Arg) : Query :=
  { q with groups := q.groups ++ [sql] }.bind .groups (Arg.leavesOf args)

def randomOrder : Text := "<random>"

def orderTerm (q : Query) (column : Ident) (direction : Text) : Except Fault Text :=
  let given := Text.upper (Text.trim direction)
  let unknown : Except Fault Text := .error (.unknownDirection column.written direction)
  if column = .name randomOrder then
    if given = [] then .ok q.dialect.randomFunction else unknown
  else if given = "ASC" ∨ given = "DESC" then .ok (column.render q.dialect ++ [' '] ++ given)
  else unknown

def addOrder (t : Tail) (term : Text) : Tail := { t with orders := t.orders ++ [term] }

def orderBy (q : Query) (term : Text) : Query := { q with tail := addOrder q.tail term }

def orderRandom (q : Query) : Query := q.orderBy q.dialect.randomFunction

def orderByRaw (q : Query) (sql : Text) (args : List Arg) : Query :=
  { q with tail := addOrder q.tail sql }.bind .order (Arg.leavesOf args)

def limit (q : Query) (n : Nat) : Query := { q with tail := { q.tail with limit := some n } }

def offset (q : Query) (n : Nat) : Query := { q with tail := { q.tail with offset := some n } }

def unionOrderBy (q : Query) (term : Text) : Query := { q with unionTail := addOrder q.unionTail term }

def unionOrderByRaw (q : Query) (sql : Text) (args : List Arg) : Query :=
  { q with unionTail := addOrder q.unionTail sql }.bind .unionOrder (Arg.leavesOf args)

def unionLimit (q : Query) (n : Nat) : Query := { q with unionTail := { q.unionTail with limit := some n } }

def unionOffset (q : Query) (n : Nat) : Query := { q with unionTail := { q.unionTail with offset := some n } }

def addBinding (q : Query) (b : Bucket) (arg : Arg) : Query := q.bind b arg.leaves

/-! Predicates of the WHERE and HAVING clauses, and the two ends of a group. For a predicate written as it
is, placeholders and values are the caller's affair; one between two columns binds nothing. -/

def test (q : Query) (kind : ClauseKind) (item : Criterion) : Except Fault Query := do
  let s ← item.push q.dialect kind.keyword (q.part kind)
  .ok (q.withPart kind s)

def testRaw (q : Query) (kind : ClauseKind) (sql : Text) (args : List Arg) (c : Connective) : Query :=
  q.withPart kind ((q.part kind).add kind.keyword c (.raw sql args))

def testColumns (q : Query) (kind : ClauseKind) (first operator second : Text) (c : Connective) :
    Except Fault Query := do
  let op ← Operator.parseComparison operator
  let p ← Predicate.compare (q.dialect.wrap first) op (.raw (q.dialect.wrap second))
  .ok (q.withPart kind ((q.part kind).add kind.keyword c p))

theorem columnsTest {q next : Query} {kind : ClauseKind} {first operator second : Text} {c : Connective}
    (ok : q.testColumns kind first operator second c = .ok next) :
    q.test kind (.leaf first operator (.raw (q.dialect.wrap second)) c) = .ok next := by
  obtain ⟨op, comparison, rest⟩ := bindIsOk ok
  obtain ⟨p, compared, last⟩ := bindIsOk rest
  obtain ⟨same, parsed, compares⟩ := bindIsOk comparison
  split at compares
  · cases compares
    simp only [test, Criterion.push, parsed, okBind, Ident.render, compared]
    exact last
  · contradiction

def openGroup (q : Query) (kind : ClauseKind) (c : Connective) : Query :=
  q.withPart kind ((q.part kind).openGroup kind.keyword c)

theorem clauseOpenGroup (q : Query) (kind : ClauseKind) (c : Connective) :
    (q.openGroup kind c).clause kind = (q.clause kind).openGroup kind.keyword c := q.clauseWithPart kind _

theorem clauseOpenGroupOther (q : Query) {kind other : ClauseKind} (different : other ≠ kind) (c : Connective) :
    (q.openGroup kind c).clause other = q.clause other := q.clauseWithPartOther different _

def closeGroup (outer : Query) (kind : ClauseKind) (c : Connective) (inner : Query) : Except Fault Query := do
  let clause ← (outer.clause kind).closeGroup kind.keyword c (inner.clause kind)
  .ok (inner.withClause kind clause)

/-! Places for a query inside a query. The inner one is compiled, its values move into the bucket of the
place, and its text stands there in parentheses. A union takes the text without them. -/

def enclosed (inner : Query) : Text := ['('] ++ inner.compile ++ [')']

def absorb (q : Query) (b : Bucket) (inner : Query) : Query :=
  { q with bindings := q.bindings.absorb b inner.bindings }

def testExistence (q : Query) (kind : ClauseKind) (c : Connective) (inner : Query) : Query :=
  (q.absorb kind.bucket inner).testRaw kind inner.enclosed [] c.exist

def testValueSub (q : Query) (kind : ClauseKind) (column : Column) (operator : Text) (c : Connective)
    (inner : Query) : Except Fault Query :=
  (q.absorb kind.bucket inner).test kind (.test column operator (.raw inner.enclosed) c)

theorem valueSubNamed {q inner next : Query} {kind : ClauseKind} {column : Column} {operator : Text} {c : Connective}
    (ok : q.testValueSub kind column operator c inner = .ok next) : ∃ name, column = .ident name := by
  cases column with
  | ident name => exact ⟨name, rfl⟩
  | criteria items =>
    obtain ⟨s, pushed, _⟩ := bindIsOk ok
    obtain ⟨op, _, refused⟩ := bindIsOk pushed
    simp [Criterion.isNoOperand] at refused

def testColumnSub (q : Query) (kind : ClauseKind) (operator : Text) (operand : Arg) (c : Connective)
    (inner : Query) : Except Fault Query :=
  (q.absorb kind.bucket inner).test kind (.leaf (.raw inner.enclosed) operator operand c)

def named (q inner : Query) (name : Text) : Text := inner.enclosed ++ " AS " ++ q.dialect.wrap name

def selectSub (q : Query) (name : Text) (inner : Query) : Query :=
  (q.absorb .select inner).addColumn (q.named inner name)

def fromSub (q : Query) (name : Text) (inner : Query) : Query :=
  { (q.clearBucket .source).absorb .source inner with source := some (q.named inner name) }

def joinSub (q : Query) (kind : JoinKind) (name first : Text) (op : Operator) (second : Text) (inner : Query) :
    Query :=
  (q.absorb .join inner).joined kind (q.named inner name) (q.onColumns first op second)

def addUnion (q : Query) (all : Bool) (inner : Query) : Query :=
  { q with
    bindings := q.bindings.absorb .union inner.bindings
    unions := q.unions ++ [⟨all, inner.compile, inner.isClosed⟩] }

end Query

end SelectBuilder
