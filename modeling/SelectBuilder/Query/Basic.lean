import SelectBuilder.Criterion

/-! The state that a builder works on, and what it talks to. A backend may refuse to prepare a statement, with a
message, and so may running it, which otherwise answers how many rows were touched. The literal rule is used for
showing statements only. -/
namespace SelectBuilder

abbrev Statement := List Value → Except Text Nat

structure Backend where
  dialect : Dialect
  quoteLiteral : Text → Text := dialect.quoteLiteral
  prepare : Text → Except Text Statement

/-! What is made known while calls are carried out. Notices outlive a refused call: they tell what was
tried, not what was kept. -/

inductive Notice
  | absorbed (bucket : Bucket) (count : Nat)
  | executing (dialect : Dialect) (count : Nat) (sql : Text)
  | failed (sql error : Text)
  deriving DecidableEq, Repr

/-! A SELECT statement under construction: the finished text of each fragment and the values bound so far.
A child is a blank query of the same dialect and backend. A part of a union is closed when it ends in a tail
or a union of its own. -/

inductive ClauseKind
  | filter
  | having
  deriving DecidableEq, Repr

namespace ClauseKind

def keyword : ClauseKind → Text
  | .filter => "WHERE"
  | .having => "HAVING"

def bucket : ClauseKind → Bucket
  | .filter => .filter
  | .having => .having

end ClauseKind

structure Tail where
  orders : List Text := []
  limit : Option Nat := none
  offset : Option Nat := none
  deriving DecidableEq, Repr

namespace Tail

def isEmpty (t : Tail) : Bool := t.orders.isEmpty && t.limit.isNone && t.offset.isNone

def parts (t : Tail) : List Text :=
  (if t.orders = [] then [] else ["ORDER BY " ++ Text.joined ", " t.orders]) ++
    (t.limit.toList.map fun n => "LIMIT " ++ Text.ofNat n) ++
    (t.offset.toList.map fun n => "OFFSET " ++ Text.ofNat n)

end Tail

structure UnionPart where
  all : Bool
  sql : Text
  closed : Bool
  deriving DecidableEq, Repr

structure Query where
  dialect : Dialect
  backend : Option Backend := none
  bindings : Bindings := .empty
  distinct : Bool := false
  columns : List Text := []
  source : Option Text := none
  joins : List Text := []
  filter : Clause := .empty
  groups : List Text := []
  having : Clause := .empty
  tail : Tail := {}
  unions : List UnionPart := []
  unionTail : Tail := {}

namespace Query

def blank (d : Dialect) : Query := { dialect := d }

def onBackend (b : Backend) : Query := { dialect := b.dialect, backend := some b }

def child (q : Query) : Query := { dialect := q.dialect, backend := q.backend }

def clause (q : Query) : ClauseKind → Clause
  | .filter => q.filter
  | .having => q.having

def withClause (q : Query) (kind : ClauseKind) (clause : Clause) : Query :=
  match kind with
  | .filter => { q with filter := clause }
  | .having => { q with having := clause }

def bind (q : Query) (b : Bucket) (args : List Arg) : Query :=
  { q with bindings := q.bindings.append b args }

def clearBucket (q : Query) (b : Bucket) : Query := { q with bindings := q.bindings.clear b }

def part (q : Query) (kind : ClauseKind) : Section := ⟨q.clause kind, q.bindings.get kind.bucket⟩

def withPart (q : Query) (kind : ClauseKind) (s : Section) : Query :=
  { q.withClause kind s.clause with bindings := q.bindings.set kind.bucket s.bound }

theorem clauseWithClause (q : Query) (kind : ClauseKind) (clause : Clause) :
    (q.withClause kind clause).clause kind = clause := by
  cases kind <;> rfl

theorem clauseWithOther (q : Query) {kind other : ClauseKind} (different : other ≠ kind) (clause : Clause) :
    (q.withClause kind clause).clause other = q.clause other := by
  cases kind <;> cases other <;> first | rfl | exact absurd rfl different

theorem clauseWithPart (q : Query) (kind : ClauseKind) (s : Section) : (q.withPart kind s).clause kind = s.clause := by
  cases kind <;> rfl

theorem clauseWithPartOther (q : Query) {kind other : ClauseKind} (different : other ≠ kind) (s : Section) :
    (q.withPart kind s).clause other = q.clause other := by
  cases kind <;> cases other <;> first | rfl | exact absurd rfl different

theorem partWithPart (q : Query) (kind : ClauseKind) (s : Section) : (q.withPart kind s).part kind = s := by
  cases kind <;> rfl

theorem withPartPart (q : Query) (kind : ClauseKind) : q.withPart kind (q.part kind) = q := by
  cases kind <;> rfl

end Query

end SelectBuilder
