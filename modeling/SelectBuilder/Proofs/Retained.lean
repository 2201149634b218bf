import SelectBuilder.Proofs.ClauseGrowth
import SelectBuilder.Proofs.LabelledFragments

/-! What stood in a fragment stays in it. A call adds to the fragments of its query and leaves what is in them, but for
those that replace a fragment and the one that starts over. So do calls with a callback when they put something into
the query; closing a group leaves the query of its callback, but for the clause. -/
namespace SelectBuilder

theorem ClauseKind.bucketApart (kind : ClauseKind) : kind.bucket ≠ .union := by
  cases kind <;> decide

namespace Query

structure Retains (b : Bucket) (q next : Query) : Prop where
  texts : ∀ text ∈ q.texts b, ∃ longer ∈ next.texts b, text <+: longer
  unions : b = .union → q.unions <+: next.unions

variable {b : Bucket} {q next : Query}

theorem retainsBehind (texts : q.texts b <+: next.texts b) (unions : q.unions <+: next.unions) : q.Retains b next :=
  ⟨fun text member => ⟨text, texts.subset member, List.prefix_rfl⟩, fun _ => unions⟩

theorem retainsClause {kind : ClauseKind} {clause : Clause} {b : Bucket}
    (grown : b = kind.bucket → (q.clause kind).text <+: clause.text) : q.Retains b (q.withClause kind clause) where
  texts text member := by
    by_cases own : b = kind.bucket
    · subst own
      have only : q.texts kind.bucket = [(q.clause kind).text] := by cases kind <;> rfl
      have now : (q.withClause kind clause).texts kind.bucket = [clause.text] := by cases kind <;> rfl
      rw [only] at member
      rw [now]
      exact ⟨_, List.mem_singleton_self _, List.mem_singleton.mp member ▸ grown rfl⟩
    · have same : (q.withClause kind clause).texts b = q.texts b := by
        cases kind <;> cases b <;> first | rfl | exact absurd rfl own
      exact ⟨text, same ▸ member, List.prefix_rfl⟩
  unions _ := by cases kind <;> exact List.prefix_rfl

theorem retainsPart {kind : ClauseKind} {s : Section} (grown : (q.clause kind).text <+: s.clause.text) (b : Bucket) :
    q.Retains b (q.withPart kind s) :=
  have clause : q.Retains b (q.withClause kind s.clause) := retainsClause fun _ => grown
  ⟨clause.texts, clause.unions⟩

theorem retainsTest {kind : ClauseKind} {item : Criterion} (ok : q.test kind item = .ok next) (b : Bucket) :
    q.Retains b next := by
  obtain ⟨s, pushed, last⟩ := bindIsOk ok
  cases last
  exact retainsPart (Criterion.pushExtends pushed) b

theorem retainsTestRaw (kind : ClauseKind) (sql : Text) (args : List Arg) (c : Connective) (b : Bucket) :
    q.Retains b (q.testRaw kind sql args c) :=
  retainsPart (Clause.termPrefix kind.keyword c (q.clause kind) sql) b

theorem retainsAbsorbed {absorbing : Bucket} {inner : Query} (grown : (q.absorb absorbing inner).Retains b next) :
    q.Retains b next :=
  ⟨grown.texts, grown.unions⟩

end Query

def Call.replaces : Call → Bucket → Bool
  | .select _, b => b = .select
  | .selectFrom _, b => b = .source
  | .fromRaw _ _, b => b = .source
  | .restart, _ => true
  | _, _ => false

theorem Call.applyRetains {c : Call} {q next : Query} (ok : c.apply q = .ok next) {b : Bucket}
    (kept : c.replaces b = false) : q.Retains b next := by
  cases applyIs ok with
  | test tested => exact Query.retainsTest tested b
  | testRaw kind sql args c => exact Query.retainsTestRaw kind sql args c b
  | testColumns tested => exact Query.retainsTest (Query.columnsTest tested) b
  | restart => contradiction
  | _ =>
    refine Query.retainsBehind ?_ List.prefix_rfl
    cases b <;> first | exact List.prefix_rfl | exact List.prefix_append _ _ | contradiction

namespace Nest

def place : Nest → Option Bucket
  | .existence kind _ => some kind.bucket
  | .valueSub kind _ _ _ => some kind.bucket
  | .columnSub kind _ _ _ => some kind.bucket
  | .selectSub _ => some .select
  | .fromSub _ => some .source
  | .joinSub _ _ _ _ _ => some .join
  | .union _ => some .union
  | _ => none

def replaces : Nest → Bucket → Bool
  | .fromSub _, b => b = .source
  | _, _ => false

theorem leaveRetains {n : Nest} {q inner next : Query} (ok : n.leave q inner = .ok next)
    (single : ∀ kind c, n ≠ .group kind c) {b : Bucket} (kept : n.replaces b = false) : q.Retains b next := by
  cases leaveIs ok with
  | group closed => exact absurd rfl (single _ _)
  | existence kind c => exact Query.retainsAbsorbed (Query.retainsTestRaw kind inner.enclosed [] c.exist b)
  | valueSub tested => exact Query.retainsAbsorbed (Query.retainsTest tested b)
  | columnSub tested => exact Query.retainsAbsorbed (Query.retainsTest tested b)
  | union all =>
    refine Query.retainsBehind ?_ (List.prefix_append _ _)
    cases b <;> first | exact List.prefix_rfl | exact (List.prefix_append _ _).map _
  | _ =>
    refine Query.retainsBehind ?_ List.prefix_rfl
    cases b <;> first | exact List.prefix_rfl | exact List.prefix_append _ _ | contradiction

theorem openedRetains (kind : ClauseKind) (c : Connective) (q : Query) (b : Bucket) :
    q.Retains b ((Nest.group kind c).opened q) := by
  obtain ⟨more, opened⟩ := Clause.openGroupPrefix kind.keyword c (q.clause kind)
  exact Query.retainsPart ⟨more, opened.symm⟩ b

theorem closedRetains {kind : ClauseKind} {c : Connective} {q inner next : Query}
    (ok : q.closeGroup kind c inner = .ok next) {b : Bucket}
    (kept : b = kind.bucket → Text.byteLength (inner.clause kind).text ≠
      Text.byteLength ((q.clause kind).openGroup kind.keyword c).text) : inner.Retains b next := by
  obtain ⟨clause, closed, last⟩ := bindIsOk ok
  cases last
  apply Query.retainsClause
  intro own
  rw [Clause.closeGroup, if_neg (kept own)] at closed
  cases closed
  exact List.prefix_append _ _

theorem withdrawnRetains {kind : ClauseKind} {c : Connective} {q inner next : Query}
    (ok : q.closeGroup kind c inner = .ok next)
    (nothing : (inner.clause kind).text = ((q.clause kind).openGroup kind.keyword c).text) :
    q.Retains kind.bucket next := by
  obtain ⟨clause, closed, last⟩ := bindIsOk ok
  cases last
  rw [Clause.closeGroup, if_pos (congrArg Text.byteLength nothing), nothing, Clause.openGroupTaken] at closed
  cases closed
  have same : (inner.withClause kind ⟨(q.clause kind).text, (q.clause kind).ending⟩).texts kind.bucket =
      q.texts kind.bucket := by cases kind <;> rfl
  exact ⟨fun text member => ⟨text, same ▸ member, List.prefix_rfl⟩, fun union => absurd union kind.bucketApart⟩

end Nest

/-! A clause only grows, as long as no callback of a group begins the query anew. -/

namespace Query
variable {kind : ClauseKind} {q next : Query}

theorem retainsText (retains : q.Retains kind.bucket next) : (q.clause kind).text <+: (next.clause kind).text := by
  have before : (q.clause kind).text ∈ q.texts kind.bucket := by cases kind <;> exact List.mem_singleton_self _
  obtain ⟨longer, member, front⟩ := retains.texts _ before
  have only : longer = (next.clause kind).text := by
    cases kind <;> exact List.mem_singleton.mp member
  rwa [only] at front

theorem textRetained (front : (q.clause kind).text <+: (next.clause kind).text) : q.Retains kind.bucket next := by
  refine ⟨?_, fun union => absurd union kind.bucketApart⟩
  intro text member
  have only : text = (q.clause kind).text := by cases kind <;> exact List.mem_singleton.mp member
  refine ⟨(next.clause kind).text, ?_, only ▸ front⟩
  cases kind <;> exact List.mem_singleton_self _

end Query

theorem Step.runRetains {body : List Step} (keeps : AllKeep body) (q : Query) (kind : ClauseKind) :
    q.Retains kind.bucket (run body q) := by
  apply Query.textRetained
  rw [runReceives keeps kind q]
  exact Clause.receiveAllPrefix _ _

end SelectBuilder
