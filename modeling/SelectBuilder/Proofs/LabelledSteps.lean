import SelectBuilder.Proofs.LabelledClauses
import SelectBuilder.Proofs.InPlace
import SelectBuilder.Proofs.LabelledFragments

/-! Steps carried out on labelled fragments beside the query. A group withdrawn from the query is taken back from the
fragments. The labelled text of both clauses only grows, as long as no callback replaces the query. -/
namespace SelectBuilder
open Labelled

def Fragments.plainly (t : Fragments) (b : Bucket) (q next : Query) : Fragments :=
  t.add b (((next.texts b).drop (q.texts b).length).map plain)

def Call.labelled (q next : Query) (t : Fragments) : Call → Fragments
  | .test kind item =>
    t.withClause kind (item.labelled q.dialect kind.keyword (q.part kind) (t.clause kind))
  | .testRaw kind sql args c =>
    t.withClause kind (t.clause kind ++ plain ((q.clause kind).joint kind.keyword c) ++ written sql args)
  | .testColumns kind first operator second c =>
    t.withClause kind <| Criterion.labelled q.dialect kind.keyword
      (.leaf first operator (.raw (q.dialect.wrap second)) c) (q.part kind) (t.clause kind)
  | .select _ => t.set .select ((next.texts .select).map plain)
  | .addSelect _ => t.plainly .select q next
  | .selectRaw sql args => t.add .select [written sql args]
  | .selectFrom _ => t.set .source ((next.texts .source).map plain)
  | .fromRaw sql args => t.set .source [written sql args]
  | .crossJoin _ => t.plainly .join q next
  | .join _ _ _ _ _ => t.plainly .join q next
  | .joinWhere kind table first operator operand =>
    match Operator.parseComparison operator with
    | .ok op =>
      t.add .join [plain (kind.sql ++ [' '] ++ table.render q.dialect ++ " ON ") ++
        Predicate.infixedLabelled (plain (q.dialect.wrap first)) op (ofArg operand)]
    | .error _ => t
  | .groupBy _ => t.plainly .groups q next
  | .groupByRaw sql args => t.add .groups [written sql args]
  | .orderBy _ _ => t.plainly .order q next
  | .orderRandom => t.plainly .order q next
  | .orderByRaw sql args => t.add .order [written sql args]
  | .unionOrderBy _ _ => t.plainly .unionOrder q next
  | .unionOrderByRaw sql args => t.add .unionOrder [written sql args]
  | .restart => .blank
  | _ => t

namespace Nest

def begin (q : Query) (t : Fragments) : Nest → Fragments
  | .group kind c => t.withClause kind (t.clause kind ++ plain ((q.clause kind).joint kind.keyword c ++ ['(']))
  | .copy => t
  | _ => .blank

def enclosedLabelled (inner : Query) (within : Fragments) : Labelled :=
  plain ['('] ++ Fragments.compile inner within ++ plain [')']

def namedLabelled (q inner : Query) (within : Fragments) (name : Text) : Labelled :=
  enclosedLabelled inner within ++ plain (" AS " ++ q.dialect.wrap name)

def predicateLabelled (q : Query) (t : Fragments) (kind : ClauseKind) (c : Connective) (labelled : Labelled) :
    Fragments :=
  t.withClause kind (t.clause kind ++ plain ((q.clause kind).joint kind.keyword c) ++ labelled)

def labelled (q inner : Query) (t within : Fragments) : Nest → Fragments
  | .group kind c =>
    within.withClause kind <| Clause.closedLabelled kind.keyword c (q.clause kind) (inner.clause kind) (t.clause kind)
      (within.clause kind)
  | .existence kind c => predicateLabelled q t kind c.exist (enclosedLabelled inner within)
  | .valueSub kind (.ident name) operator c =>
    match Operator.parse operator with
    | .ok op =>
      predicateLabelled q t kind c
        (Predicate.infixedLabelled (plain (name.render q.dialect)) op (enclosedLabelled inner within))
    | .error _ => t
  | .columnSub kind operator operand c =>
    match Operator.parse operator with
    | .ok op => predicateLabelled q t kind c (Predicate.labelled (enclosedLabelled inner within) op operand)
    | .error _ => t
  | .selectSub name => t.add .select [namedLabelled q inner within name]
  | .fromSub name => t.set .source [namedLabelled q inner within name]
  | .joinSub kind name first operator second =>
    match Operator.parseComparison operator with
    | .ok op =>
      t.add .join [plain (kind.sql ++ [' ']) ++ namedLabelled q inner within name ++
        plain (" ON " ++ q.onColumns first op second)]
    | .error _ => t
  | .union _ => t.add .union [Fragments.compile inner within]
  | _ => t

end Nest

namespace Step

mutual
def labelled : Step → Query → Fragments → Fragments
  | .call c, q, t => ifCarriedOut (.call c) q (c.labelled q ((Step.call c).next q) t) t
  | .nest n body, q, t =>
    let labelledStatement :=
      match n.enter q with
      | .ok begun => n.labelled q (performAll body begun).query t (labelledAll body begun (n.begin q t))
      | .error _ => t
    ifCarriedOut (.nest n body) q labelledStatement t
  | .attempt s, q, t => labelled s q t

def labelledAll : List Step → Query → Fragments → Fragments
  | [], _, t => t
  | s :: rest, q, t => labelledAll rest (s.next q) (labelled s q t)
end

end Step

/-! Both clauses only grow, as long as the query is kept. -/

namespace Fragments

theorem withClauseClause (t : Fragments) (kind : ClauseKind) (labelled : Labelled) :
    (t.withClause kind labelled).clause kind = labelled := by
  simp [withClause, clause, set]

theorem setApart (t : Fragments) {b : Bucket} (labelledParts : List Labelled) {kind : ClauseKind}
    (apart : kind.bucket ≠ b) :
    (t.set b labelledParts).clause kind = t.clause kind := by
  simp [clause, set, apart]

theorem withClauseOther (t : Fragments) {kind other : ClauseKind} (different : other ≠ kind) (labelled : Labelled) :
    (t.withClause kind labelled).clause other = t.clause other := by
  apply setApart
  cases kind <;> cases other <;> first | decide | exact absurd rfl different

theorem withClausePrefix {t : Fragments} {kind : ClauseKind} {labelled : Labelled} (grown : t.clause kind <+: labelled)
    (other : ClauseKind) : t.clause other <+: (t.withClause kind labelled).clause other := by
  by_cases same : other = kind
  · subst same
    rwa [withClauseClause]
  · simp only [withClauseOther t same, List.prefix_rfl]

theorem setPrefix (t : Fragments) {b : Bucket} (labelledParts : List Labelled) {kind : ClauseKind}
    (apart : kind.bucket ≠ b) :
    t.clause kind <+: (t.set b labelledParts).clause kind := by
  simp only [setApart t labelledParts apart, List.prefix_rfl]

end Fragments

theorem Call.labelledPrefix {c : Call} (keeps : c.Keeps) (q next : Query) (t : Fragments) (kind : ClauseKind) :
    t.clause kind <+: (c.labelled q next t).clause kind := by
  have apart {b : Bucket} (other : ∀ k : ClauseKind, k.bucket ≠ b) (labelledParts : List Labelled) :
      t.clause kind <+: (t.set b labelledParts).clause kind := t.setPrefix labelledParts (other kind)
  cases c with
  | test k item => exact Fragments.withClausePrefix (Criterion.labelledPrefix _ _ _ _ _) kind
  | testRaw k sql args c =>
    apply Fragments.withClausePrefix
    rw [List.append_assoc]
    exact List.prefix_append _ _
  | testColumns k first operator second c => exact Fragments.withClausePrefix (Criterion.labelledPrefix _ _ _ _ _) kind
  | joinWhere k table first operator operand =>
    rw [labelled]
    split
    · exact apart (by rintro (_ | _) <;> decide) _
    · exact List.prefix_rfl
  | restart => cases keeps
  | _ => first | exact List.prefix_rfl | exact apart (by rintro (_ | _) <;> decide) _

theorem Nest.labelledPrefix (n : Nest) {keeps : Prop} (kept : n.Keeps keeps) (q inner : Query) {t within : Fragments}
    (grown : keeps → ∀ kind, (n.begin q t).clause kind <+: within.clause kind) (kind : ClauseKind) :
    t.clause kind <+: (n.labelled q inner t within).clause kind := by
  have predicate (k : ClauseKind) (c : Connective) (labelled : Labelled) :
      t.clause kind <+: (predicateLabelled q t k c labelled).clause kind := by
    apply Fragments.withClausePrefix
    rw [List.append_assoc]
    exact List.prefix_append _ _
  cases n with
  | group k c =>
    have inside := grown kept
    by_cases same : kind = k
    · subst same
      have opened := inside kind
      rw [begin, Fragments.withClauseClause] at opened
      rw [labelled, Fragments.withClauseClause]
      exact Clause.closedPrefix opened
    · have apart := inside kind
      rw [begin, Fragments.withClauseOther t same] at apart
      rwa [labelled, Fragments.withClauseOther within same]
  | existence k c => exact predicate k _ _
  | valueSub k column operator c =>
    cases column with
    | ident name =>
      rw [labelled]
      split
      · exact predicate k _ _
      · exact List.prefix_rfl
    | criteria items => exact List.prefix_rfl
  | columnSub k operator operand c =>
    rw [labelled]
    split
    · exact predicate k _ _
    · exact List.prefix_rfl
  | joinSub k name first operator second =>
    rw [labelled]
    split
    · exact t.setPrefix _ (by cases kind <;> decide)
    · exact List.prefix_rfl
  | copy => exact List.prefix_rfl
  | child => exact List.prefix_rfl
  | _ => exact t.setPrefix _ (by cases kind <;> decide)

namespace Step

mutual
theorem labelledPrefix {s : Step} (keeps : s.Keeps) (q : Query) (t : Fragments) (kind : ClauseKind) :
    t.clause kind <+: (s.labelled q t).clause kind := by
  cases s with
  | call c =>
    rw [labelled]
    refine ifCarriedOutHolds (P := fun after : Fragments => t.clause kind <+: after.clause kind) ?_ List.prefix_rfl _ q
    exact Call.labelledPrefix keeps q _ t kind
  | nest n body =>
    rw [labelled]
    refine ifCarriedOutHolds (P := fun after : Fragments => t.clause kind <+: after.clause kind) ?_ List.prefix_rfl _ q
    cases n.enter q with
    | ok begun =>
      apply Nest.labelledPrefix n keeps
      intro inside kind
      exact labelledAllPrefix inside begun _ kind
    | error fault => exact List.prefix_rfl
  | attempt s => exact labelledPrefix (s := s) keeps q t kind

theorem labelledAllPrefix {body : List Step} (keeps : AllKeep body) (q : Query) (t : Fragments) (kind : ClauseKind) :
    t.clause kind <+: (labelledAll body q t).clause kind := by
  cases body with
  | nil => exact List.prefix_rfl
  | cons s rest => exact (labelledPrefix keeps.1 q t kind).trans (labelledAllPrefix keeps.2 (s.next q) _ kind)
end

end Step

end SelectBuilder
