import SelectBuilder.Proofs.CriteriaGroups
import SelectBuilder.Proofs.Retained
import SelectBuilder.Proofs.CollapsedStatements

/-! Queries written into a query. Each stands in the statement as it was compiled when its callback returned, at
whatever depth and whatever surrounds it: its text is collapsed, so compiling what it stands in does not change it.
What was written is remembered beside the query, fragment by fragment, until the fragment is replaced. -/
namespace SelectBuilder
open Text

/-- A query as its callback left it, and what stands in its statement. -/
structure ChildStatement where
  child : Query
  deeper : List Text

namespace ChildStatement

def shown (d : Dialect) (b : Bucket) (i : ChildStatement) : Text :=
  if b = .union ∧ d.wrapsUnionParts = false ∧ i.child.isClosed = false then i.child.compile else i.child.enclosed

def Written (b : Bucket) (q : Query) (i : ChildStatement) : Prop :=
  match b with
  | .union => ∃ all, ⟨all, i.child.compile, i.child.isClosed⟩ ∈ q.unions
  | .unionOrder => False
  | b => ∃ text ∈ q.texts b, i.child.enclosed <:+: text

structure IsIn (b : Bucket) (q : Query) (i : ChildStatement) : Prop where
  written : i.Written b q
  deeper : ∀ text ∈ i.deeper, text <:+: i.child.compile

variable {i : ChildStatement} {b : Bucket} {q next : Query}

theorem writtenRetains (retains : q.Retains b next) (written : i.Written b q) : i.Written b next := by
  have longer (found : ∃ text ∈ q.texts b, i.child.enclosed <:+: text) :
      ∃ text ∈ next.texts b, i.child.enclosed <:+: text := by
    obtain ⟨text, member, inside⟩ := found
    obtain ⟨longer, among, front⟩ := retains.texts text member
    exact ⟨longer, among, inside.trans front.isInfix⟩
  cases b with
  | union =>
    obtain ⟨all, member⟩ := written
    exact ⟨all, (retains.unions rfl).subset member⟩
  | unionOrder => exact written
  | _ => exact longer written

theorem isInRetained (retains : q.Retains b next) (isIn : i.IsIn b q) : i.IsIn b next :=
  ⟨writtenRetains retains isIn.written, isIn.deeper⟩

theorem shownHolds (i : ChildStatement) (d : Dialect) (b : Bucket) : i.child.compile <:+: i.shown d b := by
  unfold shown
  split
  · exact List.infix_rfl
  · exact ⟨['('], [')'], rfl⟩

theorem shownCollapsed (i : ChildStatement) (d : Dialect) (b : Bucket) : (i.shown d b).Collapsed := by
  unfold shown
  split
  · exact i.child.compileCollapsed
  · exact i.child.enclosedCollapsed

theorem shownEnclosed (i : ChildStatement) (d : Dialect) :
    i.shown d .union <:+: Query.enclose d i.child.compile i.child.isClosed := by
  unfold shown Query.enclose
  cases d.wrapsUnionParts
  · cases i.child.isClosed
    · exact List.infix_rfl
    · exact ⟨"SELECT * FROM ", [], by simp [Query.enclosed]⟩
  · exact List.infix_rfl

theorem shownInside (isIn : i.IsIn b q) : i.shown q.dialect b <:+: q.compile := by
  apply collapsedStays (i.shownCollapsed q.dialect b)
  have fragment (own : b ≠ .union ∧ b ≠ .unionOrder) (found : ∃ text ∈ q.texts b, i.child.enclosed <:+: text) :
      i.shown q.dialect b <:+: Text.joined " " q.parts := by
    obtain ⟨text, member, inside⟩ := found
    rw [shown, if_neg fun bare => own.1 bare.1]
    exact (inside.trans (Query.textInside member own)).trans q.baseInside
  have written := isIn.written
  cases b with
  | union =>
    obtain ⟨all, member⟩ := written
    exact (i.shownEnclosed q.dialect).trans (Query.unionInside member)
  | unionOrder => exact written.elim
  | _ => exact fragment ⟨by decide, by decide⟩ written

end ChildStatement

def ChildStatements := Bucket → List ChildStatement

namespace ChildStatements

def empty : ChildStatements := fun _ => []

def set (l : ChildStatements) (b : Bucket) (children : List ChildStatement) : ChildStatements :=
  fun c => if c = b then children else l c

def texts (d : Dialect) (l : ChildStatements) : List Text :=
  Bucket.all.flatMap fun b => (l b).flatMap fun i => i.shown d b :: i.deeper

def AreIn (l : ChildStatements) (q : Query) : Prop := ∀ b, ∀ i ∈ l b, i.IsIn b q

variable {l : ChildStatements} {q : Query}

theorem emptyAreIn (q : Query) : empty.AreIn q := fun _ _ member => nomatch member

theorem setAreIn {b : Bucket} {children : List ChildStatement} (own : ∀ i ∈ children, i.IsIn b q)
    (others : ∀ c ≠ b, ∀ i ∈ l c, i.IsIn c q) : (l.set b children).AreIn q := by
  intro c i member
  unfold set at member
  split at member
  · rename_i same
    subst same
    exact own i member
  · rename_i other
    exact others c other i member

theorem textsInside (areIn : l.AreIn q) : ∀ text ∈ l.texts q.dialect, text <:+: q.compile := by
  intro text member
  obtain ⟨b, _, inBucket⟩ := List.mem_flatMap.mp member
  obtain ⟨i, inside, found⟩ := List.mem_flatMap.mp inBucket
  have isIn := areIn b i inside
  rcases List.mem_cons.mp found with rfl | deeper
  · exact ChildStatement.shownInside isIn
  · exact ((isIn.deeper text deeper).trans (i.shownHolds q.dialect b)).trans (ChildStatement.shownInside isIn)

end ChildStatements

def Call.kept (c : Call) (l : ChildStatements) : ChildStatements := fun b => if c.replaces b then [] else l b

namespace Nest

def begins (l : ChildStatements) : Nest → ChildStatements
  | .group _ _ => l
  | .copy => l
  | _ => .empty

/-- `inner` is what the callback made of the query it was given, and `inside` what was written into that one. A group
that received nothing gives back the clause as it was; one whose callback began the query anew may cut the text. -/
def kept (q inner : Query) (l inside : ChildStatements) : Nest → ChildStatements
  | .group kind c =>
    let opened := ((q.clause kind).openGroup kind.keyword c).text
    let left := (inner.clause kind).text
    inside.set kind.bucket <|
      if left = opened then l kind.bucket
      else if Text.byteLength left = Text.byteLength opened then []
      else inside kind.bucket
  | n =>
    let added : ChildStatement := ⟨inner, inside.texts inner.dialect⟩
    match n.place with
    | some b => l.set b ((if n.replaces b then [] else l b) ++ [added])
    | none => l

end Nest

namespace Step

mutual
def kept : Step → Query → ChildStatements → ChildStatements
  | .call c, q, l => ifCarriedOut (.call c) q (c.kept l) l
  | .nest n body, q, l =>
    let begun := n.opened q
    ifCarriedOut (.nest n body) q (n.kept q (run body begun) l (keptAll body begun (n.begins l))) l
  | .attempt s, q, l => kept s q l

def keptAll : List Step → Query → ChildStatements → ChildStatements
  | [], _, l => l
  | s :: rest, q, l => keptAll rest (s.next q) (kept s q l)
end

end Step

/-! What was written stands. -/

theorem Section.addHolds (keyword : Text) (c : Connective) (p : Predicate) (s : Section) :
    p.text <:+ (s.add keyword c p).clause.text := by
  change p.text <:+ (s.clause.connect keyword c).lead p.text
  unfold Clause.lead
  split
  · exact List.suffix_append _ _
  · exact ⟨(s.clause.connect keyword c).text ++ [' '], by simp⟩

theorem Predicate.comparedHolds {column : Text} {op : Operator} {operand : Arg} {p : Predicate}
    (compared : Compared column op operand p) : column <+: p.text ∧ ∀ sql, operand = .raw sql → sql <:+ p.text := by
  have front (form : Operator) (shown : Text) (bound : List Arg) : column <+: (infixed column form shown bound).text :=
    ⟨[' '] ++ form.sql ++ [' '] ++ shown, by simp [infixed]⟩
  cases compared with
  | null found | range ranges | list lists =>
    refine ⟨front _ _ _, ?_⟩
    intro sql same
    contradiction
  | raw lists | single plain given alone =>
    refine ⟨front _ _ _, ?_⟩
    intro sql same
    cases same
    exact List.suffix_append _ _

namespace Nest
variable {q inner next : Query}

theorem partWrites {kind : ClauseKind} {s : Section} {text : Text} (holds : text <:+: s.clause.text) :
    ∃ found ∈ (q.withPart kind s).texts kind.bucket, text <:+: found := by
  cases kind <;> exact ⟨_, List.mem_singleton_self _, holds⟩

theorem testWrites {kind : ClauseKind} {column : Ident} {operator : Text} {operand : Arg} {c : Connective} {text : Text}
    (ok : q.test kind (.leaf column operator operand c) = .ok next)
    (holds : text = column.render q.dialect ∨ operand = .raw text) :
    ∃ found ∈ next.texts kind.bucket, text <:+: found := by
  obtain ⟨s, pushed, last⟩ := bindIsOk ok
  obtain ⟨op, p, _, compared, rfl⟩ := Criterion.leafPushed pushed
  cases last
  have added := Section.addHolds kind.keyword c p (q.part kind)
  obtain ⟨front, back⟩ := Predicate.comparedHolds (Predicate.compareIs compared)
  apply partWrites
  rcases holds with rfl | raw
  · exact front.isInfix.trans added.isInfix
  · exact (back text raw).isInfix.trans added.isInfix

theorem leaveWrites {n : Nest} (ok : n.leave q inner = .ok next) {b : Bucket} (place : n.place = some b)
    (deeper : List Text) : (⟨inner, deeper⟩ : ChildStatement).Written b next := by
  have clause {kind : ClauseKind} (found : ∃ text ∈ next.texts kind.bucket, inner.enclosed <:+: text) :
      (⟨inner, deeper⟩ : ChildStatement).Written kind.bucket next := by
    cases kind <;> exact found
  have named (name : Text) : inner.enclosed <+: q.named inner name :=
    ⟨" AS " ++ q.dialect.wrap name, by simp [Query.named]⟩
  cases leaveIs ok with
  | existence kind c =>
    cases place
    have written : inner.enclosed <:+ _ :=
      Section.addHolds kind.keyword c.exist (.raw inner.enclosed []) ((q.absorb kind.bucket inner).part kind)
    exact clause (partWrites written.isInfix)
  | valueSub tested =>
    cases place
    exact clause (testWrites tested (.inr rfl))
  | columnSub tested =>
    cases place
    exact clause (testWrites tested (.inl rfl))
  | selectSub name =>
    cases place
    exact ⟨_, List.mem_append_right _ (List.mem_singleton_self _), (named name).isInfix⟩
  | fromSub name =>
    cases place
    exact ⟨_, List.mem_singleton_self _, (named name).isInfix⟩
  | @joinSub kind name first operator second op parsed =>
    cases place
    refine ⟨_, List.mem_append_right _ (List.mem_singleton_self _), (named name).isInfix.trans ?_⟩
    exact ⟨kind.sql ++ [' '], " ON " ++ q.onColumns first op second, by simp⟩
  | union all =>
    cases place
    exact ⟨all, List.mem_append_right _ (List.mem_singleton_self _)⟩
  | _ => contradiction

theorem keptIs {n : Nest} {b : Bucket} (place : n.place = some b) (l inside : ChildStatements) :
    n.kept q inner l inside =
      l.set b ((if n.replaces b then [] else l b) ++ [⟨inner, inside.texts inner.dialect⟩]) := by
  cases n <;> first | contradiction | (cases place; rfl)

theorem groupAreIn {kind : ClauseKind} {c : Connective} (ok : q.closeGroup kind c inner = .ok next)
    {l inside : ChildStatements} (areIn : l.AreIn q) (within : inside.AreIn inner) :
    ((Nest.group kind c).kept q inner l inside).AreIn next := by
  refine ChildStatements.setAreIn ?_ fun b other i member => ?_
  · intro i member
    split at member
    · rename_i nothing
      exact ChildStatement.isInRetained (withdrawnRetains ok nothing) (areIn _ i member)
    · split at member
      · contradiction
      · rename_i longer
        exact ChildStatement.isInRetained (closedRetains ok fun _ => longer) (within _ i member)
  · exact ChildStatement.isInRetained (closedRetains ok fun same => absurd same other) (within b i member)

theorem leaveAreIn {n : Nest} (ok : n.leave q inner = .ok next) (single : ∀ kind c, n ≠ .group kind c)
    {l inside : ChildStatements} (areIn : l.AreIn q) (within : inside.AreIn inner) :
    (n.kept q inner l inside).AreIn next := by
  have before {b : Bucket} (kept : n.replaces b = false) : ∀ i ∈ l b, i.IsIn b next := fun i member =>
    ChildStatement.isInRetained (leaveRetains ok single kept) (areIn b i member)
  cases place : n.place with
  | none =>
    have same : n.kept q inner l inside = l := by
      cases n <;> first | rfl | contradiction | exact absurd rfl (single _ _)
    have still (b : Bucket) : n.replaces b = false := by cases n <;> first | rfl | contradiction
    rw [same]
    exact fun b => before (still b)
  | some b =>
    have still {other : Bucket} (apart : other ≠ b) : n.replaces other = false := by
      cases n <;> first | rfl | (cases place; simpa [replaces] using apart)
    rw [keptIs place]
    refine ChildStatements.setAreIn ?_ fun other apart => before (still apart)
    intro i member
    rcases List.mem_append.mp member with earlier | last
    · split at earlier
      · contradiction
      · rename_i kept
        exact before (by simpa using kept) i earlier
    · cases List.mem_singleton.mp last
      exact ⟨leaveWrites ok place _, ChildStatements.textsInside within⟩

theorem beginsAreIn (n : Nest) {l : ChildStatements} (areIn : l.AreIn q) : (n.begins l).AreIn (n.opened q) := by
  cases n with
  | group kind c => exact fun b i member => ChildStatement.isInRetained (openedRetains kind c q b) (areIn b i member)
  | copy => exact areIn
  | _ => exact ChildStatements.emptyAreIn _

end Nest

namespace Step

mutual
theorem stepAreIn (s : Step) {q : Query} {l : ChildStatements} (areIn : l.AreIn q) : (s.kept q l).AreIn (s.next q) := by
  cases s with
  | call c =>
    cases found : (Step.call c).apply q with
    | error fault =>
      rw [kept, notCarriedOut found, (performError found).2]
      exact areIn
    | ok next =>
      rw [kept, carriedOut found, (performOk found).2]
      intro b i member
      unfold Call.kept at member
      split at member
      · contradiction
      · rename_i kept
        exact ChildStatement.isInRetained (Call.applyRetains found (by simpa using kept)) (areIn b i member)
  | nest n body =>
    cases found : (Step.nest n body).apply q with
    | error fault =>
      rw [kept, notCarriedOut found, (performError found).2]
      exact areIn
    | ok next =>
      rw [kept, carriedOut found, (performOk found).2]
      obtain ⟨inner, _, worked, left⟩ := Nest.runIs found
      have within := runAreIn body (n.beginsAreIn areIn)
      rw [runIsApplyAll worked] at within ⊢
      by_cases grouped : ∃ kind c, n = .group kind c
      · obtain ⟨kind, c, rfl⟩ := grouped
        exact Nest.groupAreIn left areIn within
      · exact Nest.leaveAreIn left (fun kind c same => grouped ⟨kind, c, same⟩) areIn within
  | attempt s => exact stepAreIn s areIn

theorem runAreIn (body : List Step) {q : Query} {l : ChildStatements} (areIn : l.AreIn q) :
    (keptAll body q l).AreIn (run body q) := by
  cases body with
  | nil => exact areIn
  | cons s rest => exact runAreIn rest (stepAreIn s areIn)
end

theorem recorded {n : Nest} {body : List Step} {q : Query} {b : Bucket} (place : n.place = some b)
    (carried : (Step.nest n body).fault? q = none) (l : ChildStatements) :
    let child := run body (n.opened q)
    ⟨child, (keptAll body (n.opened q) .empty).texts child.dialect⟩ ∈ kept (.nest n body) q l b := by
  intro child
  have begins : n.begins l = .empty := by cases n <;> first | rfl | contradiction
  cases found : (Step.nest n body).apply q with
  | error fault =>
    rw [faultIs, found] at carried
    contradiction
  | ok next =>
    rw [kept, carriedOut found, begins, Nest.keptIs place, ChildStatements.set, if_pos rfl]
    exact List.mem_append_right _ (List.mem_singleton_self _)

theorem statementsAreCollapsedAndHoldTheirChildren :
    (∀ q : Query, q.compile.Collapsed) ∧
    (∀ (n : Nest) (body : Program) (q : Query) (b : Bucket) (l : ChildStatements),
      n.place = some b → (Step.nest n body).fault? q = none →
      let child := run body (n.opened q)
      ⟨child, (keptAll body (n.opened q) .empty).texts child.dialect⟩ ∈ kept (.nest n body) q l b) ∧
    ∀ (program : Program) (q : Query),
      ∀ text ∈ (keptAll program q .empty).texts (run program q).dialect, text <:+: (run program q).compile := by
  refine ⟨Query.compileCollapsed, fun n body q b l place carried => recorded place carried l, ?_⟩
  intro program q
  exact ChildStatements.textsInside (runAreIn program (ChildStatements.emptyAreIn q))

theorem statementHoldsNestedChildren :
    let condition : Step := .nest (.existence .filter .and) [.call (.selectRaw "  1\t\n" [])]
    let table : Step :=
      .nest (.fromSub "t") [.call (.selectFrom "b"), .nest (.group .filter .or) [condition, .call .distinct]]
    let part : List Step := [.nest (.fromSub "gone") [], .call (.selectRaw "\u00a0c  " []), table]
    let program : Program := [.call (.limit 3), .nest (.union false) part, .call (.unionLimit 1)]
    let start : Query := .blank .sqlite
    let derived : Text := "(SELECT DISTINCT * FROM \x22b\x22 WHERE (EXISTS (SELECT 1)))"
    let operand : Text := "SELECT c FROM " ++ derived ++ " AS \x22t\x22"
    (Nest.union false).place = some .union ∧ (Step.nest (.union false) part).fault? start = none ∧
      (let child := run part ((Nest.union false).opened start)
      ⟨child, (keptAll part ((Nest.union false).opened start) .empty).texts child.dialect⟩ ∈
        kept (.nest (.union false) part) start .empty .union) ∧
      (keptAll program start .empty).texts .sqlite = [operand, derived, "(SELECT 1)"] ∧
      ∀ text ∈ [operand, derived, "(SELECT 1)"], text <:+: (run program start).compile := by
  intro condition table part program start derived operand
  have carried : (Step.nest (.union false) part).fault? start = none := by decide +kernel
  have member := statementsAreCollapsedAndHoldTheirChildren.2.1 (.union false) part start .union .empty rfl carried
  have texts : (keptAll program start .empty).texts .sqlite = [operand, derived, "(SELECT 1)"] := by decide +kernel
  have inside := statementsAreCollapsedAndHoldTheirChildren.2.2 program start
  have dialect : (run program start).dialect = .sqlite := by decide +kernel
  rw [dialect, texts] at inside
  exact ⟨rfl, carried, member, texts, inside⟩

end Step
end SelectBuilder
