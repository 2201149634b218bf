import SelectBuilder.Program.Call

/-! Calls with a callback, and the steps that programs are made of. Entering checks what must hold before the
callback and gives the query it works on: the outer one with a group opened, a blank child, or a copy. Leaving puts
what the callback made into the outer query. What is done on a mere copy or child is dropped. What was absorbed or
opened before a refusal is in no query that `run` answers. -/
namespace SelectBuilder

inductive Nest
  | group (kind : ClauseKind) (c : Connective)
  | existence (kind : ClauseKind) (c : Connective)
  | valueSub (kind : ClauseKind) (column : Column) (operator : Text) (c : Connective)
  | columnSub (kind : ClauseKind) (operator : Text) (operand : Arg) (c : Connective)
  | selectSub (name : Text)
  | fromSub (name : Text)
  | joinSub (kind : JoinKind) (name first operator second : Text)
  | union (all : Bool)
  | copy
  | child

namespace Nest

def oneOf (kind : ClauseKind) (column : Column) (c : Connective) : Nest := .valueSub kind column "in" c

def noneOf (kind : ClauseKind) (column : Column) (c : Connective) : Nest := .valueSub kind column "not in" c

def requireName (name : Text) : Except Fault Unit :=
  if Text.trim name = [] then .error .missingAlias else .ok ()

def enter : Nest → Query → Except Fault Query
  | .group kind c, q => .ok (q.openGroup kind c)
  | .existence _ _, q => .ok q.child
  | .valueSub _ _ operator _, q => do
    let op ← Operator.parse operator
    if op.takesRange then .error (.listOperand op.sql) else .ok q.child
  | .columnSub _ operator _ _, q => do
    let _ ← Operator.parse operator
    .ok q.child
  | .selectSub name, q => do
    requireName name
    .ok q.child
  | .fromSub name, q => do
    requireName name
    .ok q.child
  | .joinSub _ name _ operator _, q => do
    requireName name
    let _ ← Operator.parseComparison operator
    .ok q.child
  | .union _, q => .ok q.child
  | .copy, q => .ok q
  | .child, q => .ok q.child

def opened (q : Query) : Nest → Query
  | .group kind c => q.openGroup kind c
  | .copy => q
  | _ => q.child

theorem enterIs {n : Nest} {q begun : Query} (entered : n.enter q = .ok begun) : begun = n.opened q := by
  cases n with
  | valueSub kind column operator c =>
    obtain ⟨op, _, last⟩ := bindIsOk entered
    split at last
    · contradiction
    · exact (Except.ok.inj last).symm
  | columnSub kind operator operand c =>
    obtain ⟨op, _, last⟩ := bindIsOk entered
    exact (Except.ok.inj last).symm
  | selectSub name =>
    obtain ⟨_, _, last⟩ := bindIsOk entered
    exact (Except.ok.inj last).symm
  | fromSub name =>
    obtain ⟨_, _, last⟩ := bindIsOk entered
    exact (Except.ok.inj last).symm
  | joinSub kind name first operator second =>
    obtain ⟨_, _, rest⟩ := bindIsOk entered
    obtain ⟨op, _, last⟩ := bindIsOk rest
    exact (Except.ok.inj last).symm
  | _ => exact (Except.ok.inj entered).symm

def leave : Nest → Query → Query → Except Fault Query
  | .group kind c, outer, inner => outer.closeGroup kind c inner
  | .existence kind c, outer, inner => .ok (outer.testExistence kind c inner)
  | .valueSub kind column operator c, outer, inner => outer.testValueSub kind column operator c inner
  | .columnSub kind operator operand c, outer, inner => outer.testColumnSub kind operator operand c inner
  | .selectSub name, outer, inner => .ok (outer.selectSub name inner)
  | .fromSub name, outer, inner => .ok (outer.fromSub name inner)
  | .joinSub kind name first operator second, outer, inner => do
    let op ← Operator.parseComparison operator
    .ok (outer.joinSub kind name first op second inner)
  | .union all, outer, inner => .ok (outer.addUnion all inner)
  | .copy, outer, _ => .ok outer
  | .child, outer, _ => .ok outer

/-- What a call with a callback that is carried out leaves of a query, the callback having left `inner`. -/
inductive Left (q inner : Query) : Nest → Query → Prop
  | group {kind c next} (closed : q.closeGroup kind c inner = .ok next) : Left q inner (.group kind c) next
  | existence (kind c) : Left q inner (.existence kind c) (q.testExistence kind c inner)
  | valueSub {kind name operator c next} (tested : q.testValueSub kind (.ident name) operator c inner = .ok next) :
      Left q inner (.valueSub kind (.ident name) operator c) next
  | columnSub {kind operator operand c next} (tested : q.testColumnSub kind operator operand c inner = .ok next) :
      Left q inner (.columnSub kind operator operand c) next
  | selectSub (name) : Left q inner (.selectSub name) (q.selectSub name inner)
  | fromSub (name) : Left q inner (.fromSub name) (q.fromSub name inner)
  | joinSub {kind name first operator second op} (parsed : Operator.parseComparison operator = .ok op) :
      Left q inner (.joinSub kind name first operator second) (q.joinSub kind name first op second inner)
  | union (all) : Left q inner (.union all) (q.addUnion all inner)
  | copy : Left q inner .copy q
  | child : Left q inner .child q

theorem leaveIs {n : Nest} {q inner next : Query} (ok : n.leave q inner = .ok next) : n.Left q inner next := by
  cases n with
  | group kind c => exact .group ok
  | valueSub kind column operator c =>
    obtain ⟨name, rfl⟩ := Query.valueSubNamed ok
    exact .valueSub ok
  | columnSub kind operator operand c => exact .columnSub ok
  | joinSub kind name first operator second =>
    obtain ⟨op, parsed, last⟩ := bindIsOk ok
    cases last
    exact .joinSub parsed
  | _ =>
    cases ok
    constructor

def run (n : Nest) (outer : Query) (callback : Query → Except Fault Query) : Except Fault Query := do
  let begun ← n.enter outer
  let inner ← callback begun
  n.leave outer inner

theorem runIs {n : Nest} {q next : Query} {callback : Query → Except Fault Query} (ok : n.run q callback = .ok next) :
    ∃ inner, n.enter q = .ok (n.opened q) ∧ callback (n.opened q) = .ok inner ∧ n.leave q inner = .ok next := by
  obtain ⟨begun, entered, rest⟩ := bindIsOk ok
  obtain ⟨inner, worked, left⟩ := bindIsOk rest
  cases enterIs entered
  exact ⟨inner, entered, worked, left⟩

end Nest

/-! Programs: lists of calls, with callbacks that are programs themselves. A program ends at its first
refused step; a step that is only attempted is passed over when refused. Here a step answers the next query
or a fault; what it does to a query in place is in `Program.InPlace`. -/

inductive Step
  | call (c : Call)
  | nest (n : Nest) (body : List Step)
  | attempt (s : Step)

abbrev Program := List Step

namespace Step

mutual
def apply : Step → Query → Except Fault Query
  | .call c, q => c.apply q
  | .nest n body, q => n.run q (applyAll body)
  | .attempt s, q =>
    match apply s q with
    | .ok next => .ok next
    | .error _ => .ok q

def applyAll : List Step → Query → Except Fault Query
  | [], q => .ok q
  | s :: rest, q => do
    let next ← apply s q
    applyAll rest next
end

/-! What holds of every step of a program. A call with a callback is judged by what holds of the steps in it. -/

section
variable (call : Call → Prop) (nest : Nest → List Step → Prop → Prop) (attempt : Prop → Prop)

mutual
def Holds : Step → Prop
  | .call c => call c
  | .nest n body => nest n body (AllHold body)
  | .attempt s => attempt (Holds s)

def AllHold : List Step → Prop
  | [] => True
  | s :: rest => Holds s ∧ AllHold rest
end

variable {call nest attempt}

theorem allHoldAppend {a b : List Step} (left : AllHold call nest attempt a) (right : AllHold call nest attempt b) :
    AllHold call nest attempt (a ++ b) := by
  induction a with
  | nil => exact right
  | cons s rest ih => exact ⟨left.1, ih left.2⟩

end

end Step

end SelectBuilder
