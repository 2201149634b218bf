import SelectBuilder.Proofs.InPlace

/-! The queries that programs make, and those that their callbacks are given. Whatever was done to such a query, only
values and arguments still to be computed are bound in it: written SQL and lists never are. -/
namespace SelectBuilder

namespace Arg

def IsLeaf : Arg → Prop
  | .value _ => True
  | .lazy _ => True
  | .raw _ => False
  | .list _ => False

abbrev AllLeaves (args : List Arg) : Prop := ∀ arg ∈ args, arg.IsLeaf

theorem allLeavesNil : AllLeaves [] := List.forall_mem_nil _

theorem allLeavesAppend {a b : List Arg} (left : AllLeaves a) (right : AllLeaves b) : AllLeaves (a ++ b) :=
  List.forall_mem_append.mpr ⟨left, right⟩

mutual
theorem leavesAllLeaves (arg : Arg) : AllLeaves arg.leaves := by
  cases arg with
  | value v => exact List.forall_mem_singleton.mpr trivial
  | «lazy» outcome => exact List.forall_mem_singleton.mpr trivial
  | raw sql => exact allLeavesNil
  | list items => exact leavesOfAllLeaves items

theorem leavesOfAllLeaves (items : List Arg) : AllLeaves (leavesOf items) := by
  cases items with
  | nil => exact allLeavesNil
  | cons arg rest => exact allLeavesAppend (leavesAllLeaves arg) (leavesOfAllLeaves rest)
end

end Arg

open Arg (AllLeaves)

namespace Bindings

def HoldsLeaves (s : Bindings) : Prop := ∀ b, AllLeaves (s.get b)

theorem emptyHolds : empty.HoldsLeaves := by
  intro b
  cases b <;> exact Arg.allLeavesNil

variable {s : Bindings} (holds : s.HoldsLeaves) (b : Bucket)
include holds

theorem setHolds {args : List Arg} (leaves : AllLeaves args) : (s.set b args).HoldsLeaves := by
  intro c
  rcases Decidable.em (c = b) with rfl | other
  · rw [getSet]
    exact leaves
  · rw [getSetOther s other]
    exact holds c

theorem appendHolds {args : List Arg} (leaves : AllLeaves args) : (s.append b args).HoldsLeaves :=
  setHolds holds b (Arg.allLeavesAppend (holds b) leaves)

omit b in
theorem allHolds : AllLeaves s.all := by
  intro arg member
  obtain ⟨b, _, inside⟩ := List.mem_flatMap.mp member
  exact holds b arg inside

theorem absorbHolds {inner : Bindings} (within : inner.HoldsLeaves) : (s.absorb b inner).HoldsLeaves :=
  appendHolds holds b (allHolds within)

theorem clearHolds : (s.clear b).HoldsLeaves := setHolds holds b Arg.allLeavesNil

end Bindings

namespace Predicate

theorem compareLeaves {column : Text} {op : Operator} {operand : Arg} {p : Predicate}
    (ok : compare column op operand = .ok p) : AllLeaves p.bound := by
  cases compareIs ok with
  | null found => exact Arg.allLeavesNil
  | range ranges => exact Arg.leavesOfAllLeaves _
  | list lists => exact Arg.leavesOfAllLeaves _
  | raw lists => exact Arg.allLeavesNil
  | single plain given alone => exact Arg.leavesAllLeaves operand

end Predicate

namespace Criterion

mutual
theorem pushLeaves {d : Dialect} {keyword : Text} {item : Criterion} {s t : Section}
    (ok : item.push d keyword s = .ok t) (leaves : AllLeaves s.bound) : AllLeaves t.bound := by
  cases item with
  | leaf column operator operand c =>
    obtain ⟨op, p, _, compared, rfl⟩ := leafPushed ok
    exact Arg.allLeavesAppend leaves (Predicate.compareLeaves compared)
  | nest items operator operand c =>
    obtain ⟨op, _, rest⟩ := bindIsOk ok
    split at rest
    · split at rest
      · cases rest
        exact leaves
      · obtain ⟨inner, pushed, closed⟩ := bindIsOk rest
        obtain ⟨clause, _, last⟩ := bindIsOk closed
        cases last
        have opened : AllLeaves (s.openGroup keyword c).bound := leaves
        have within : AllLeaves inner.bound := pushAllLeaves pushed opened
        exact within
    · contradiction

theorem pushAllLeaves {d : Dialect} {keyword : Text} {items : List Criterion} {s t : Section}
    (ok : pushAll d keyword items s = .ok t) (leaves : AllLeaves s.bound) : AllLeaves t.bound := by
  cases items with
  | nil =>
    cases ok
    exact leaves
  | cons item rest =>
    obtain ⟨next, first, later⟩ := bindIsOk ok
    exact pushAllLeaves later (pushLeaves first leaves)
end

end Criterion

namespace Query

def HoldsLeaves (q : Query) : Prop := q.bindings.HoldsLeaves

theorem childHolds (q : Query) : q.child.HoldsLeaves := Bindings.emptyHolds

variable {q : Query} (holds : q.HoldsLeaves)
include holds

theorem addHolds (kind : ClauseKind) (c : Connective) {p : Predicate} (leaves : AllLeaves p.bound) :
    (q.withPart kind ((q.part kind).add kind.keyword c p)).HoldsLeaves :=
  Bindings.setHolds holds kind.bucket (Arg.allLeavesAppend (holds kind.bucket) leaves)

theorem testHolds {kind : ClauseKind} {item : Criterion} {next : Query} (ok : q.test kind item = .ok next) :
    next.HoldsLeaves := by
  obtain ⟨s, pushed, last⟩ := bindIsOk ok
  cases last
  exact Bindings.setHolds holds kind.bucket (Criterion.pushLeaves pushed (holds kind.bucket))

theorem openGroupHolds (kind : ClauseKind) (c : Connective) : (q.openGroup kind c).HoldsLeaves :=
  Bindings.setHolds holds kind.bucket (holds kind.bucket)

theorem absorbHolds (b : Bucket) {inner : Query} (within : inner.HoldsLeaves) : (q.absorb b inner).HoldsLeaves :=
  Bindings.absorbHolds holds b within

theorem bindHolds (b : Bucket) (items : List Arg) : (q.bind b (Arg.leavesOf items)).HoldsLeaves :=
  Bindings.appendHolds holds b (Arg.leavesOfAllLeaves items)

end Query

open Query (HoldsLeaves)

theorem Call.applyHolds {c : Call} {q next : Query} (holds : q.HoldsLeaves) (ok : c.apply q = .ok next) :
    next.HoldsLeaves := by
  cases applyIs ok with
  | test tested => exact Query.testHolds holds tested
  | testRaw kind sql args c => exact Query.addHolds holds kind c (Arg.leavesOfAllLeaves args)
  | testColumns tested => exact Query.testHolds holds (Query.columnsTest tested)
  | select columns => exact Bindings.clearHolds holds .select
  | selectRaw sql args => exact Query.bindHolds holds .select args
  | selectFrom table => exact Bindings.clearHolds holds .source
  | fromRaw sql args =>
    exact Bindings.appendHolds (Bindings.clearHolds holds .source) .source (Arg.leavesOfAllLeaves args)
  | joinWhere parsed single => exact Bindings.appendHolds holds .join (Arg.leavesAllLeaves _)
  | groupByRaw sql args => exact Query.bindHolds holds .groups args
  | orderByRaw sql args => exact Query.bindHolds holds .order args
  | unionOrderByRaw sql args => exact Query.bindHolds holds .unionOrder args
  | addBinding bucket arg => exact Bindings.appendHolds holds bucket (Arg.leavesAllLeaves arg)
  | restart => exact q.childHolds
  | _ => exact holds

namespace Nest

theorem openedHolds (n : Nest) {q : Query} (holds : q.HoldsLeaves) : (n.opened q).HoldsLeaves := by
  cases n with
  | group kind c => exact Query.openGroupHolds holds kind c
  | copy => exact holds
  | _ => exact q.childHolds

theorem leaveHolds {n : Nest} {q inner next : Query} (holds : q.HoldsLeaves) (within : inner.HoldsLeaves)
    (ok : n.leave q inner = .ok next) : next.HoldsLeaves := by
  cases leaveIs ok with
  | @group kind c _ closed =>
    obtain ⟨clause, _, last⟩ := bindIsOk closed
    cases last
    cases kind <;> exact within
  | existence kind c =>
    exact Query.addHolds (Query.absorbHolds holds kind.bucket within) kind _ (Arg.leavesOfAllLeaves [])
  | valueSub tested => exact Query.testHolds (Query.absorbHolds holds _ within) tested
  | columnSub tested => exact Query.testHolds (Query.absorbHolds holds _ within) tested
  | selectSub name => exact Query.absorbHolds holds .select within
  | fromSub name => exact Bindings.absorbHolds (Bindings.clearHolds holds .source) .source within
  | joinSub parsed => exact Query.absorbHolds holds .join within
  | union all => exact Query.absorbHolds holds .union within
  | copy => exact holds
  | child => exact holds

end Nest

namespace Query

/-- It holds of a query without anything in it, every call keeps it, and so does every callback, on its way in and
out. -/
structure Invariant (P : Query → Prop) : Prop where
  blank (d : Dialect) (b : Option Backend) : P { dialect := d, backend := b }
  call {c : Call} {q next : Query} (holds : P q) (ok : c.apply q = .ok next) : P next
  opened (n : Nest) {q : Query} (holds : P q) : P (n.opened q)
  left {n : Nest} {q inner next : Query} (holds : P q) (within : P inner) (ok : n.leave q inner = .ok next) : P next

inductive Reachable : Query → Prop
  | blank (d : Dialect) (b : Option Backend) : Reachable { dialect := d, backend := b }
  | step {q : Query} (s : Step) (before : Reachable q) : Reachable (s.next q)
  | inside {q begun : Query} {n : Nest} (before : Reachable q) (entered : n.enter q = .ok begun) : Reachable begun

namespace Invariant

variable {P : Query → Prop}

mutual
theorem apply (invariant : Invariant P) {s : Step} {q next : Query} (holds : P q) (ok : s.apply q = .ok next) :
    P next := by
  cases s with
  | call c => exact invariant.call holds ok
  | nest n body =>
    obtain ⟨inner, _, worked, left⟩ := Nest.runIs ok
    exact invariant.left holds (applyAll invariant (invariant.opened n holds) worked) left
  | attempt s =>
    unfold Step.apply at ok
    split at ok
    · rename_i carried
      cases ok
      exact apply invariant holds carried
    · cases ok
      exact holds

theorem applyAll (invariant : Invariant P) {body : List Step} {q last : Query} (holds : P q)
    (ok : Step.applyAll body q = .ok last) : P last := by
  cases body with
  | nil =>
    cases ok
    exact holds
  | cons s rest =>
    obtain ⟨next, first, later⟩ := bindIsOk ok
    exact applyAll invariant (apply invariant holds first) later
end

theorem next (invariant : Invariant P) (s : Step) {q : Query} (holds : P q) : P (s.next q) := by
  cases found : s.apply q with
  | ok next =>
    rw [(Step.performOk found).2]
    exact invariant.apply holds found
  | error fault =>
    rw [(Step.performError found).2]
    exact holds

theorem reachable (invariant : Invariant P) {q : Query} (reached : q.Reachable) : P q := by
  induction reached with
  | blank d b => exact invariant.blank d b
  | step s _ ih => exact invariant.next s ih
  | @inside q begun n _ entered ih =>
    cases Nest.enterIs entered
    exact invariant.opened n ih

end Invariant

theorem leavesInvariant : Invariant HoldsLeaves where
  blank _ _ := Bindings.emptyHolds
  call := Call.applyHolds
  opened := Nest.openedHolds
  left := Nest.leaveHolds

theorem reachableHolds {q : Query} (reached : q.Reachable) : q.HoldsLeaves := leavesInvariant.reachable reached

theorem runReachable (program : Program) {q : Query} (before : q.Reachable) : (Step.run program q).Reachable := by
  induction program generalizing q with
  | nil => exact before
  | cons s rest ih => exact ih (.step s before)

end Query
end SelectBuilder
