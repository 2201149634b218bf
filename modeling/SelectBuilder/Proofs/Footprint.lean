import SelectBuilder.Proofs.InPlace

/-! What a step can reach. Each building step belongs to one fragment of the query, which is its text or number with
the bucket of its values. A step reads and writes its own fragment only: carried out on a query whose fragment was
taken from another one, it does to the fragment what it does over there, and leaves the rest alone. The callback of a
group works on the query itself and must keep to the clause of the group; other callbacks work on a child. -/
namespace SelectBuilder

inductive Fragment
  | select | source | join | filter | groups | having | order | limit | offset
  | unions | unionOrder | unionLimit | unionOffset
  deriving DecidableEq, Repr

def Fragment.all : List Fragment :=
  [.select, .source, .join, .filter, .groups, .having, .order, .limit, .offset, .unions, .unionOrder, .unionLimit,
   .unionOffset]

def Bucket.fragment : Bucket → Fragment
  | .select => .select
  | .source => .source
  | .join => .join
  | .filter => .filter
  | .groups => .groups
  | .having => .having
  | .order => .order
  | .union => .unions
  | .unionOrder => .unionOrder

def ClauseKind.fragment : ClauseKind → Fragment
  | .filter => .filter
  | .having => .having

/-! Which steps belong to a fragment. One that can only be refused belongs to any. -/

def Call.Within (f : Fragment) : Call → Prop
  | .refuse _ => True
  | .test kind _ => f = kind.fragment
  | .testRaw kind _ _ _ => f = kind.fragment
  | .testColumns kind _ _ _ _ => f = kind.fragment
  | .select _ => f = .select
  | .addSelect _ => f = .select
  | .selectRaw _ _ => f = .select
  | .distinct => f = .select
  | .selectFrom _ => f = .source
  | .fromRaw _ _ => f = .source
  | .crossJoin _ => f = .join
  | .join _ _ _ _ _ => f = .join
  | .joinWhere _ _ _ _ _ => f = .join
  | .groupBy _ => f = .groups
  | .groupByRaw _ _ => f = .groups
  | .orderBy _ _ => f = .order
  | .orderRandom => f = .order
  | .orderByRaw _ _ => f = .order
  | .limit _ => f = .limit
  | .offset _ => f = .offset
  | .unionOrderBy _ _ => f = .unionOrder
  | .unionOrderByRaw _ _ => f = .unionOrder
  | .unionLimit _ => f = .unionLimit
  | .unionOffset _ => f = .unionOffset
  | .addBinding bucket _ => f = bucket.fragment
  | _ => False

def Nest.Within (f : Fragment) (inside : Prop) : Nest → Prop
  | .group kind _ => f = kind.fragment ∧ inside
  | .existence kind _ => f = kind.fragment
  | .valueSub kind _ _ _ => f = kind.fragment
  | .columnSub kind _ _ _ => f = kind.fragment
  | .selectSub _ => f = .select
  | .fromSub _ => f = .source
  | .joinSub _ _ _ _ _ => f = .join
  | .union _ => f = .unions
  | _ => False

namespace Step

mutual
def Within (f : Fragment) : Step → Prop
  | .call c => c.Within f
  | .nest n body => n.Within f (AllWithin f body)
  | .attempt s => Within f s

def AllWithin (f : Fragment) : List Step → Prop
  | [] => True
  | s :: rest => Within f s ∧ AllWithin f rest
end

end Step

namespace Query

def graft (q : Query) (p : Query) : Fragment → Query
  | .select =>
    { q with
      distinct := p.distinct
      columns := p.columns
      bindings := q.bindings.set .select (p.bindings.get .select) }
  | .source => { q with source := p.source, bindings := q.bindings.set .source (p.bindings.get .source) }
  | .join => { q with joins := p.joins, bindings := q.bindings.set .join (p.bindings.get .join) }
  | .filter => { q with filter := p.filter, bindings := q.bindings.set .filter (p.bindings.get .filter) }
  | .groups => { q with groups := p.groups, bindings := q.bindings.set .groups (p.bindings.get .groups) }
  | .having => { q with having := p.having, bindings := q.bindings.set .having (p.bindings.get .having) }
  | .order =>
    { q with
      tail := { q.tail with orders := p.tail.orders }
      bindings := q.bindings.set .order (p.bindings.get .order) }
  | .limit => { q with tail := { q.tail with limit := p.tail.limit } }
  | .offset => { q with tail := { q.tail with offset := p.tail.offset } }
  | .unions => { q with unions := p.unions, bindings := q.bindings.set .union (p.bindings.get .union) }
  | .unionOrder =>
    { q with
      unionTail := { q.unionTail with orders := p.unionTail.orders }
      bindings := q.bindings.set .unionOrder (p.bindings.get .unionOrder) }
  | .unionLimit => { q with unionTail := { q.unionTail with limit := p.unionTail.limit } }
  | .unionOffset => { q with unionTail := { q.unionTail with offset := p.unionTail.offset } }

structure Sibling (q p : Query) : Prop where
  dialect : p.dialect = q.dialect
  backend : p.backend = q.backend

theorem siblingRefl (q : Query) : q.Sibling q := ⟨rfl, rfl⟩

theorem graftSelf (q : Query) (f : Fragment) : q.graft q f = q := by
  cases f <;> rfl

theorem graftGraft (q p r : Query) (f : Fragment) : q.graft (p.graft r f) f = q.graft r f := by
  cases f <;> rfl

theorem graftOther (q p : Query) {f g : Fragment} (other : g ≠ f) : (q.graft p g).graft q f = q.graft p g := by
  cases f <;> cases g <;> first | rfl | exact absurd rfl other

theorem graftAll {q p : Query} (sibling : q.Sibling p) : Fragment.all.foldl (fun r f => r.graft p f) q = p := by
  obtain ⟨dialect, backend⟩ := sibling
  cases q
  cases p
  cases dialect
  cases backend
  simp only [Fragment.all, List.foldl, graft, Bindings.set, Bindings.get]

theorem fragmentsTell {q p : Query} (sibling : q.Sibling p) (same : ∀ f, q.graft p f = q) : q = p := by
  have kept (fragments : List Fragment) : fragments.foldl (fun r f => r.graft p f) q = q := by
    induction fragments with
    | nil => rfl
    | cons f rest ih => rw [List.foldl_cons, same f, ih]
  exact (kept Fragment.all).symm.trans (graftAll sibling)

theorem graftPart (q p : Query) (kind : ClauseKind) : (q.graft p kind.fragment).part kind = p.part kind := by
  cases kind <;> rfl

theorem graftWithPart (q p : Query) (kind : ClauseKind) (s : Section) :
    (q.graft p kind.fragment).withPart kind s = q.graft (p.withPart kind s) kind.fragment := by
  cases kind <;> rfl

theorem siblingGraft (q : Query) {p : Query} (sibling : q.Sibling p) (r : Query) (f : Fragment) :
    q.Sibling (p.graft r f) := by
  obtain ⟨dialect, backend⟩ := sibling
  cases f <;> exact ⟨dialect, backend⟩

theorem graftSibling {q p : Query} (sibling : q.Sibling p) (f : Fragment) : (q.graft p f).Sibling p := by
  obtain ⟨dialect, backend⟩ := sibling
  cases f <;> exact ⟨dialect, backend⟩

theorem siblingChild {q p : Query} (sibling : q.Sibling p) : p.child = q.child := by
  obtain ⟨dialect, backend⟩ := sibling
  rw [child, child, dialect, backend]

variable {q p : Query} (sibling : q.Sibling p)
include sibling

theorem graftTest (kind : ClauseKind) (item : Criterion) :
    (q.graft p kind.fragment).test kind item = (p.test kind item).map (q.graft · kind.fragment) := by
  have dialect := (graftSibling sibling kind.fragment).dialect
  unfold test
  rw [graftPart, ← dialect]
  cases item.push p.dialect kind.keyword (p.part kind) with
  | error fault => rfl
  | ok s => exact congrArg Except.ok (graftWithPart q p kind s)

theorem graftOrderTerm (f : Fragment) (column : Ident) (direction : Text) :
    (q.graft p f).orderTerm column direction = p.orderTerm column direction := by
  simp only [orderTerm, (graftSibling sibling f).dialect]

theorem graftTestColumns (kind : ClauseKind) (first operator second : Text) (c : Connective) :
    (q.graft p kind.fragment).testColumns kind first operator second c =
      (p.testColumns kind first operator second c).map (q.graft · kind.fragment) := by
  have dialect := (graftSibling sibling kind.fragment).dialect
  unfold testColumns
  rw [graftPart, ← dialect]
  cases Operator.parseComparison operator with
  | error fault => rfl
  | ok op =>
    simp only [okBind]
    cases Predicate.compare (p.dialect.wrap first) op (.raw (p.dialect.wrap second)) with
    | error fault => rfl
    | ok predicate => exact congrArg Except.ok (graftWithPart q p kind _)

end Query

theorem Call.graftApply {c : Call} {f : Fragment} (within : c.Within f) {q p : Query} (sibling : q.Sibling p) :
    c.apply (q.graft p f) = (c.apply p).map (q.graft · f) := by
  cases c with
  | test kind item =>
    cases within
    exact Query.graftTest sibling kind item
  | testRaw kind sql args c =>
    cases within
    simp only [apply, Query.testRaw, Query.graftPart, Query.graftWithPart]
    rfl
  | testColumns kind first operator second c =>
    cases within
    exact Query.graftTestColumns sibling kind first operator second c
  | join kind table first operator second =>
    have dialect := sibling.dialect
    cases p
    cases dialect
    cases within
    simp only [apply]
    cases Operator.parseComparison operator <;> rfl
  | joinWhere kind table first operator operand =>
    have dialect := sibling.dialect
    cases p
    cases dialect
    cases within
    simp only [apply]
    cases Operator.parseComparison operator with
    | error fault => rfl
    | ok op =>
      simp only [okBind]
      cases Query.requireSingle op operand <;> rfl
  | orderBy column direction =>
    cases within
    simp only [apply, Query.graftOrderTerm sibling]
    cases p.orderTerm column direction <;> rfl
  | unionOrderBy column direction =>
    cases within
    simp only [apply, Query.graftOrderTerm sibling]
    cases p.orderTerm column direction <;> rfl
  | addBinding bucket arg =>
    cases within
    cases bucket <;> rfl
  | refuse fault => rfl
  | _ =>
    have dialect := sibling.dialect
    cases p
    cases dialect
    cases within <;> rfl

namespace Nest
open Query

theorem graftCloseGroup (q p : Query) (kind : ClauseKind) (c : Connective) (inner : Query) :
    (q.graft p kind.fragment).closeGroup kind c (q.graft inner kind.fragment) =
      (p.closeGroup kind c inner).map (q.graft · kind.fragment) := by
  have clause (r : Query) : (q.graft r kind.fragment).clause kind = r.clause kind := by cases kind <;> rfl
  simp only [closeGroup, clause]
  cases (p.clause kind).closeGroup kind.keyword c (inner.clause kind) with
  | error fault => rfl
  | ok clause => cases kind <;> rfl

theorem graftTestSub {q p : Query} (sibling : q.Sibling p) (kind : ClauseKind) (item : Criterion) (inner : Query) :
    ((q.graft p kind.fragment).absorb kind.bucket inner).test kind item =
      ((p.absorb kind.bucket inner).test kind item).map (q.graft · kind.fragment) := by
  have absorbed : (q.graft p kind.fragment).absorb kind.bucket inner =
      q.graft (p.absorb kind.bucket inner) kind.fragment := by cases kind <;> rfl
  have still : q.Sibling (p.absorb kind.bucket inner) := ⟨sibling.dialect, sibling.backend⟩
  rw [absorbed]
  exact graftTest still kind item

theorem graftLeave {n : Nest} {f : Fragment} {inside : Prop} (within : n.Within f inside) {q p : Query}
    (sibling : q.Sibling p) (single : ∀ kind c, n ≠ .group kind c) (inner : Query) :
    n.leave (q.graft p f) inner = (n.leave p inner).map (q.graft · f) := by
  cases n with
  | group kind c => exact absurd rfl (single kind c)
  | existence kind c =>
    cases within
    cases kind <;> rfl
  | valueSub kind column operator c =>
    cases within
    exact graftTestSub sibling kind _ inner
  | columnSub kind operator operand c =>
    cases within
    exact graftTestSub sibling kind _ inner
  | joinSub kind name first operator second =>
    have dialect := sibling.dialect
    cases p
    cases dialect
    cases within
    simp only [leave]
    cases Operator.parseComparison operator <;> rfl
  | _ =>
    have dialect := sibling.dialect
    cases p
    cases dialect
    cases within <;> rfl

theorem graftEnter {n : Nest} {q p : Query} (sibling : q.Sibling p) (f : Fragment)
    (single : ∀ kind c, n ≠ .group kind c) (other : n ≠ .copy) : n.enter (q.graft p f) = n.enter p := by
  have child : (q.graft p f).child = p.child := (siblingChild (graftSibling sibling f)).symm
  cases n with
  | group kind c => exact absurd rfl (single kind c)
  | copy => exact absurd rfl other
  | _ => simp only [enter, child]

end Nest

namespace Step

mutual
theorem graftApply {s : Step} {f : Fragment} (within : s.Within f) {q p : Query} (sibling : q.Sibling p) :
    s.apply (q.graft p f) = (s.apply p).map (q.graft · f) := by
  cases s with
  | call c => exact Call.graftApply within sibling
  | nest n body =>
    by_cases grouped : ∃ kind c, n = .group kind c
    · obtain ⟨kind, c, rfl⟩ := grouped
      obtain ⟨rfl, inside⟩ := within
      have opened : (q.graft p kind.fragment).openGroup kind c = q.graft (p.openGroup kind c) kind.fragment := by
        cases kind <;> rfl
      have still : q.Sibling (p.openGroup kind c) := ⟨by cases kind <;> exact sibling.dialect,
        by cases kind <;> exact sibling.backend⟩
      have body' := graftApplyAll inside still
      simp only [apply, Nest.run, Nest.enter, okBind, opened, body']
      cases applyAll body (p.openGroup kind c) with
      | error fault => rfl
      | ok inner => exact Nest.graftCloseGroup q p kind c inner
    · have single : ∀ kind c, n ≠ .group kind c := fun kind c same => grouped ⟨kind, c, same⟩
      have other : n ≠ .copy := by
        rintro rfl
        cases within
      simp only [apply, Nest.run, Nest.graftEnter sibling f single other]
      cases n.enter p with
      | error fault => rfl
      | ok begun =>
        simp only [okBind]
        cases applyAll body begun with
        | error fault => rfl
        | ok inner => exact Nest.graftLeave within sibling single inner
  | attempt s =>
    have inner := graftApply (s := s) within sibling
    simp only [apply, inner]
    cases s.apply p <;> rfl

theorem graftApplyAll {body : List Step} {f : Fragment} (within : AllWithin f body) {q p : Query}
    (sibling : q.Sibling p) : applyAll body (q.graft p f) = (applyAll body p).map (q.graft · f) := by
  cases body with
  | nil => rfl
  | cons s rest =>
    have first := graftApply within.1 sibling
    have own := graftApply within.1 p.siblingRefl
    simp only [applyAll, first]
    cases found : s.apply p with
    | error fault => rfl
    | ok next =>
      rw [p.graftSelf, found] at own
      have kept : next = p.graft next f := Except.ok.inj own
      have still : q.Sibling next := by
        rw [kept]
        exact q.siblingGraft sibling next f
      exact graftApplyAll within.2 still
end

end Step
end SelectBuilder
