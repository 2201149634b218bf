import SelectBuilder.Proofs.NamesQuoted
import SelectBuilder.Proofs.Operands
import SelectBuilder.Proofs.StatementEnds

/-! Unions of a program. The unions that were called for on a query itself, also from the callback of a group, are its
parts in the order of the calls, each with the child as its callback left it. As long as no SQL is written in it, the
statement can be taken apart again: the base and the children stand in it as operands, apart from each other. Nothing
but a base or a child stands between the parentheses, unless a range is written without its upper end. -/
namespace SelectBuilder
open Text

def Call.unioned : Call → List UnionCall → List UnionCall
  | .restart, _ => []
  | _, made => made

def Nest.unioned : Nest → List UnionCall → List UnionCall → Query → List UnionCall
  | .group _ _, _, inside, _ => inside
  | .union all, made, _, inner => made ++ [⟨all, inner⟩]
  | _, made, _, _ => made

namespace Step

mutual
def unioned : Step → Query → List UnionCall → List UnionCall
  | .call c, q, made => ifCarriedOut (.call c) q (c.unioned made) made
  | .nest n body, q, made =>
    let begun := n.opened q
    ifCarriedOut (.nest n body) q (n.unioned made (unionedAll body begun made) (run body begun)) made
  | .attempt s, q, made => unioned s q made

def unionedAll : List Step → Query → List UnionCall → List UnionCall
  | [], _, made => made
  | s :: rest, q, made => unionedAll rest (s.next q) (unioned s q made)
end

end Step

variable {q next inner : Query} {made : List UnionCall}

theorem Query.testUnions {kind : ClauseKind} {item : Criterion} (ok : q.test kind item = .ok next) :
    next.unions = q.unions := by
  obtain ⟨s, _, last⟩ := bindIsOk ok
  cases last
  cases kind <;> rfl

theorem Call.unionsMade {c : Call} (ok : c.apply q = .ok next) (same : q.unions = made.map UnionCall.part) :
    next.unions = (c.unioned made).map UnionCall.part := by
  cases applyIs ok with
  | test tested => exact (Query.testUnions tested).trans same
  | testRaw kind sql args c => cases kind <;> exact same
  | testColumns tested => exact (Query.testUnions (Query.columnsTest tested)).trans same
  | restart => rfl
  | _ => exact same

namespace Nest

theorem leaveUnions {n : Nest} (ok : n.leave q inner = .ok next) (single : ∀ kind c, n ≠ .group kind c)
    (apart : ∀ all, n ≠ .union all) : next.unions = q.unions := by
  cases leaveIs ok with
  | group closed => exact absurd rfl (single _ _)
  | union all => exact absurd rfl (apart all)
  | existence kind c => cases kind <;> rfl
  | valueSub tested => exact Query.testUnions (q := q.absorb _ inner) tested
  | columnSub tested => exact Query.testUnions (q := q.absorb _ inner) tested
  | _ => rfl

theorem groupUnions {kind : ClauseKind} {c : Connective} (ok : q.closeGroup kind c inner = .ok next) :
    next.unions = inner.unions := by
  obtain ⟨clause, _, last⟩ := bindIsOk ok
  cases last
  cases kind <;> rfl

end Nest

namespace Step

mutual
theorem stepUnions (s : Step) {q : Query} {made : List UnionCall} (same : q.unions = made.map UnionCall.part) :
    (s.next q).unions = (unioned s q made).map UnionCall.part := by
  cases s with
  | call c =>
    cases found : (Step.call c).apply q with
    | error fault =>
      rw [unioned, notCarriedOut found, (performError found).2]
      exact same
    | ok next =>
      rw [unioned, carriedOut found, (performOk found).2]
      exact Call.unionsMade found same
  | nest n body =>
    cases found : (Step.nest n body).apply q with
    | error fault =>
      rw [unioned, notCarriedOut found, (performError found).2]
      exact same
    | ok next =>
      rw [unioned, carriedOut found, (performOk found).2]
      obtain ⟨inner, _, worked, left⟩ := Nest.runIs found
      have worked : run body (n.opened q) = inner := runIsApplyAll worked
      rw [worked]
      cases n with
      | group kind c =>
        have opened : (q.openGroup kind c).unions = made.map UnionCall.part := by
          cases kind <;> exact same
        have inside := runUnions body opened
        -- Closing the group puts back the clause only; unions made in the callback stay.
        rw [← worked] at left
        exact (Nest.groupUnions left).trans inside
      | union all =>
        cases left
        simp only [Query.addUnion, same, Nest.unioned, List.map_append]
        rfl
      | _ => exact (Nest.leaveUnions left (by simp) (by simp)).trans same
  | attempt s => exact stepUnions s same

theorem runUnions (program : Program) {q : Query} {made : List UnionCall} (same : q.unions = made.map UnionCall.part) :
    (run program q).unions = (unionedAll program q made).map UnionCall.part := by
  cases program with
  | nil => exact same
  | cons s rest => exact runUnions rest (stepUnions s same)
end

theorem runReadable {program : Program} (free : AllRawFree program) (q : Query) : (run program q.child).Readable := by
  obtain ⟨renamed, _, twin⟩ := runTwin .same free q.dialect q.backend
  exact ⟨q.child, q.child, renamed, q.childFresh, q.childFresh, twin⟩

mutual
theorem stepChildren {s : Step} (free : s.RawFree) (q : Query) {made : List UnionCall}
    (before : ∀ call ∈ made, call.child.Readable) : ∀ call ∈ unioned s q made, call.child.Readable := by
  cases s with
  | call c =>
    have after : ∀ call ∈ c.unioned made, call.child.Readable := by
      cases c with
      | restart => simp [Call.unioned]
      | _ => exact before
    rw [unioned]
    exact ifCarriedOutHolds (P := fun (calls : List UnionCall) => ∀ call ∈ calls, call.child.Readable) after before _ q
  | nest n body =>
    rw [unioned]
    refine ifCarriedOutHolds (P := fun (calls : List UnionCall) => ∀ call ∈ calls, call.child.Readable) ?_ before _ q
    cases n with
    | group kind c => exact runChildren free.2 _ before
    | union all =>
      intro call member
      rcases List.mem_append.mp member with earlier | last
      · exact before call earlier
      · cases List.mem_singleton.mp last
        exact runReadable free.2 q
    | _ => exact before
  | attempt s => exact stepChildren (s := s) free q before

theorem runChildren {body : List Step} (free : AllRawFree body) (q : Query) {made : List UnionCall}
    (before : ∀ call ∈ made, call.child.Readable) : ∀ call ∈ unionedAll body q made, call.child.Readable := by
  cases body with
  | nil => exact before
  | cons s rest => exact runChildren free.2 (s.next q) (stepChildren free.1 q before)
end

theorem unionsKeepTheirOperands {program : Program} (free : AllRawFree program) (d : Dialect) (b : Option Backend) :
    let start : Query := { dialect := d, backend := b }
    let calls := unionedAll program start []
    calls ≠ [] →
      (run program start).Unites calls ∧ (AllRangesEnd program → (run program start).base.gap = []) := by
  intro start calls united
  have readable : (run program start).Readable := runReadable free start
  have made : (run program start).unions = calls.map UnionCall.part := runUnions program rfl
  refine ⟨Query.readableUnites readable united made (runChildren free start (by simp)), fun ends => ?_⟩
  exact if_pos (runEndsInWord free ends d b)

theorem unionsKeepTheirOperandsWhenNested :
    let first : Step := .nest (.union false) [.call (.selectFrom "b")]
    let refused : Step := .attempt (.nest (.union true) [.call (.limit 1), .call (.refuse .missingAlias)])
    let nested : Step := .nest (.union true) [.call (.selectFrom "c"), .nest (.union false) [.call (.limit 2)]]
    let between : Criterion := .leaf "k" "between" (.list [.value (.int 1), .list [.value (.int 2)]]) .and
    let program : Program :=
      [.call (.selectFrom "a"), .call (.orderBy "id" "asc"), first, refused,
        .nest (.group .filter .and) [.call (.test .filter between), nested], .call (.unionLimit 3)]
    let start : Query := .blank .sqlite
    let calls := unionedAll program start []
    AllRawFree program ∧ calls ≠ [] ∧ calls.map UnionCall.all = [false, true] ∧ (run program start).Unites calls ∧
      AllRangesEnd program ∧ (run program start).base.gap = [] := by
  intro first refused nested between program start calls
  have free : AllRawFree program := by
    simp [program, first, refused, nested, between, AllRawFree, AllKeep, AllHold, Holds, Nest.RawFree, Nest.Keeps,
      Call.RawFree, Call.Keeps, Criterion.RawFree, Ident.RawFree, Arg.RawFree, Arg.AllRawFree]
  have ends : AllRangesEnd program := by
    simp [program, first, refused, nested, between, AllRangesEnd, AllHold, Holds, Nest.RangesEnd, Call.RangesEnd,
      Criterion.RangesEnd, Arg.RangeEnds, Arg.placeholder, Arg.placeholders, Text.joined]
  have made : calls.map UnionCall.all = [false, true] := by decide +kernel
  have united : calls ≠ [] := by
    intro nothing
    simp [nothing] at made
  obtain ⟨unites, solid⟩ := unionsKeepTheirOperands free .sqlite none united
  exact ⟨free, united, made, unites, ends, solid ends⟩

/-- Where a base ends in white space, after an upper bound that is no value, one space stays before its parenthesis. -/
theorem blankBoundLeavesSpace :
    let between : Call := .test .filter (.leaf "a" "between" (.list [.value (.int 1), .list []]) .and)
    let program : Program := [.call between, .nest (.union false) []]
    let start : Query := .blank .mysql
    let q := run program start
    let base : Text := { q with unions := [] }.compile
    let calls := unionedAll program start []
    AllRawFree program ∧ calls.map UnionCall.all = [false] ∧
      (calls.map fun call => call.child.compile) = [("SELECT *" : Text)] ∧
      base = "SELECT * WHERE `a` BETWEEN ? AND" ∧
      q.compile = "(SELECT * WHERE `a` BETWEEN ? AND ) UNION (SELECT *)" ∧
      q.compile ≠ Text.joined " " [['('] ++ base ++ [')'], "UNION", "(SELECT *)"] := by
  intro between program start q base calls
  have free : AllRawFree program := by
    simp [program, between, AllRawFree, AllHold, Holds, Nest.RawFree, Call.RawFree, Criterion.RawFree, Ident.RawFree,
      Arg.RawFree, Arg.AllRawFree]
  refine ⟨free, ?_⟩
  decide +kernel

end Step
end SelectBuilder
