import SelectBuilder.Program.Report
import SelectBuilder.Proofs.Alike
import SelectBuilder.Proofs.InPlace

/-! Bound values never show in the text. Two runs of alike programs go side by side: after each step both
queries have the same text and each bucket is filled to the same size, and a step is refused in both for the
same reason or in neither. A callback that shows or runs its statement looks at values, so here none does; at
the outermost such a step may answer differently in the two runs, but it changes nothing. -/
namespace SelectBuilder

namespace Bindings

theorem alikeRefl (s : Bindings) : Alike s s := fun _ => rfl

theorem setAlike {s t : Bindings} (alike : s.Alike t) (bucket : Bucket) {a b : List Arg} (size : a.length = b.length) :
    (s.set bucket a).Alike (t.set bucket b) := by
  intro other
  by_cases same : other = bucket
  · subst same
    rw [getSet, getSet, size]
  · rw [getSetOther s same, getSetOther t same, alike other]

theorem appendAlike {s t : Bindings} (alike : s.Alike t) (bucket : Bucket) {a b : List Arg}
    (size : a.length = b.length) : (s.append bucket a).Alike (t.append bucket b) :=
  setAlike alike bucket (by rw [List.length_append, List.length_append, alike bucket, size])

theorem allAlike {s t : Bindings} (alike : s.Alike t) : s.all.length = t.all.length := by
  have sizes := fun bucket => alike bucket
  simp only [all, List.length_flatMap, sizes]

theorem absorbAlike {s t inner inner' : Bindings} (alike : s.Alike t) (bucket : Bucket) (within : inner.Alike inner') :
    (s.absorb bucket inner).Alike (t.absorb bucket inner') :=
  appendAlike alike bucket (allAlike within)

end Bindings

namespace Query

theorem alikeRefl (q : Query) : Alike q q := .intro q.bindings (Bindings.alikeRefl _)

theorem alikeCompile {q r : Query} (same : q.Alike r) : q.compile = r.compile := by
  obtain ⟨s, sizes⟩ := same
  rfl

theorem alikeSizes {q r : Query} (same : q.Alike r) : q.bindings.Alike r.bindings := by
  obtain ⟨s, sizes⟩ := same
  exact sizes

theorem partAlike {q r : Query} (same : q.Alike r) (kind : ClauseKind) : (q.part kind).Alike (r.part kind) := by
  obtain ⟨s, sizes⟩ := same
  have clause : ({ q with bindings := s } : Query).clause kind = q.clause kind := by cases kind <;> rfl
  unfold part
  rw [clause]
  exact .intro _ (sizes kind.bucket)

theorem withPartAlike {q r : Query} (same : q.Alike r) (kind : ClauseKind) {s t : Section} (parts : s.Alike t) :
    (q.withPart kind s).Alike (r.withPart kind t) := by
  obtain ⟨bindings, sizes⟩ := same
  obtain ⟨clause, size⟩ := parts
  have kept := Bindings.setAlike sizes kind.bucket size
  cases kind <;> exact .intro _ kept

theorem bindAlike {q r : Query} (same : q.Alike r) (bucket : Bucket) {a b : List Arg} (size : a.length = b.length) :
    (q.bind bucket a).Alike (r.bind bucket b) := by
  obtain ⟨s, sizes⟩ := same
  exact .intro _ (Bindings.appendAlike sizes bucket size)

theorem clearBucketAlike {q r : Query} (same : q.Alike r) (bucket : Bucket) :
    (q.clearBucket bucket).Alike (r.clearBucket bucket) := by
  obtain ⟨s, sizes⟩ := same
  exact .intro _ (Bindings.setAlike sizes bucket rfl)

theorem absorbAlike {q r : Query} (same : q.Alike r) (bucket : Bucket) {inner inner' : Query}
    (within : inner.Alike inner') : (q.absorb bucket inner).Alike (r.absorb bucket inner') := by
  obtain ⟨s, sizes⟩ := same
  obtain ⟨t, inside⟩ := within
  exact .intro _ (Bindings.absorbAlike sizes bucket inside)

theorem dialectAlike {q r : Query} (same : q.Alike r) : r.dialect = q.dialect := by
  obtain ⟨s, sizes⟩ := same
  rfl

theorem childAlike {q r : Query} (same : q.Alike r) : q.child.Alike r.child := by
  obtain ⟨s, sizes⟩ := same
  exact alikeRefl _

theorem fragmentAlike {f : Query → Query} (apart : ∀ q s, f { q with bindings := s } = { f q with bindings := s })
    {q r : Query} (same : q.Alike r) : (f q).Alike (f r) := by
  have whole : f q = { f q with bindings := q.bindings } := apart q q.bindings
  have kept : (f q).bindings = q.bindings := by rw [whole]
  obtain ⟨s, sizes⟩ := same
  rw [apart q s]
  rw [← kept] at sizes
  exact .intro _ sizes

theorem testAlike {q r : Query} (same : q.Alike r) (kind : ClauseKind) {a b : Criterion} (items : a.Alike b) :
    Together Alike (q.test kind a) (r.test kind b) := by
  unfold test
  rw [dialectAlike same]
  refine togetherBind (Criterion.pushAlike _ _ items (partAlike same kind)) ?_
  intro s t parts
  exact .ok (withPartAlike same kind parts)

theorem testRawAlike {q r : Query} (same : q.Alike r) (kind : ClauseKind) (sql : Text) {a b : List Arg}
    (args : Arg.AllAlike a b) (c : Connective) : (q.testRaw kind sql a c).Alike (r.testRaw kind sql b c) := by
  apply withPartAlike same
  apply Section.addAlike (partAlike same kind)
  exact .intro sql (Arg.alikeLeavesOf args)

theorem testColumnsAlike {q r : Query} (same : q.Alike r) (kind : ClauseKind) (first operator second : Text)
    (c : Connective) : Together Alike (q.testColumns kind first operator second c)
      (r.testColumns kind first operator second c) := by
  unfold testColumns
  rw [dialectAlike same]
  refine togetherBind (togetherSame _) ?_
  intro op _ rfl
  refine togetherBind (Predicate.compareAlike _ op (.raw _)) ?_
  intro p p' predicates
  exact .ok (withPartAlike same kind (Section.addAlike (partAlike same kind) _ c predicates))

theorem openGroupAlike {q r : Query} (same : q.Alike r) (kind : ClauseKind) (c : Connective) :
    (q.openGroup kind c).Alike (r.openGroup kind c) :=
  withPartAlike same kind (Section.openGroupAlike (partAlike same kind) _ c)

theorem closeGroupAlike {q r inner inner' : Query} (same : q.Alike r) (kind : ClauseKind) (c : Connective)
    (within : inner.Alike inner') : Together Alike (q.closeGroup kind c inner) (r.closeGroup kind c inner') := by
  have outer : r.clause kind = q.clause kind := by
    obtain ⟨s, sizes⟩ := same
    cases kind <;> rfl
  have closing : inner'.clause kind = inner.clause kind := by
    obtain ⟨s, sizes⟩ := within
    cases kind <;> rfl
  unfold closeGroup
  rw [outer, closing]
  refine togetherBind (togetherSame _) ?_
  intro clause _ rfl
  apply Together.ok
  apply fragmentAlike _ within
  intro q s
  cases kind <;> rfl

theorem orderTermAlike {q r : Query} (same : q.Alike r) (column : Ident) (direction : Text) :
    Together Eq (q.orderTerm column direction) (r.orderTerm column direction) := by
  obtain ⟨s, sizes⟩ := same
  exact togetherSame _

theorem boundAlike {f : Query → Query} (apart : ∀ q s, f { q with bindings := s } = { f q with bindings := s })
    {q r : Query} (same : q.Alike r) (bucket : Bucket) {a b : List Arg} (args : Arg.AllAlike a b) :
    ((f q).bind bucket (Arg.leavesOf a)).Alike ((f r).bind bucket (Arg.leavesOf b)) :=
  bindAlike (fragmentAlike apart same) bucket (Arg.alikeLeavesOf args)

theorem fromRawAlike {q r : Query} (same : q.Alike r) (sql : Text) {a b : List Arg} (args : Arg.AllAlike a b) :
    (q.fromRaw sql a).Alike (r.fromRaw sql b) := by
  have bound := bindAlike (clearBucketAlike same .source) .source (Arg.alikeLeavesOf args)
  exact fragmentAlike (f := fun q => { q with source := some sql }) (fun _ _ => rfl) bound

theorem requireSingleAlike (op : Operator) {a b : Arg} (alike : a.Alike b) :
    Together Eq (requireSingle op a) (requireSingle op b) := by
  have single {a : Arg} (bound : a.isBound) : requireSingle op a = .ok () := by
    cases a <;> first | rfl | cases bound
  cases alike with
  | null => exact .ok rfl
  | bound left right =>
    rw [single left, single right]
    exact .ok rfl
  | raw sql => exact .ok rfl
  | list items => exact .error _

theorem joinWhereAlike {q r : Query} (same : q.Alike r) (kind : JoinKind) (table : Ident) (first : Text)
    (op : Operator) {a b : Arg} (operands : a.Alike b) :
    (q.joinWhere kind table first op a).Alike (r.joinWhere kind table first op b) := by
  unfold joinWhere
  rw [Arg.alikePlaceholder operands]
  apply bindAlike _ .join (Arg.alikeLeaves operands)
  obtain ⟨s, sizes⟩ := same
  exact .intro s sizes

theorem enclosedAlike {inner inner' : Query} (within : inner.Alike inner') : inner.enclosed = inner'.enclosed := by
  rw [enclosed, enclosed, alikeCompile within]

theorem namedAlike {q r inner inner' : Query} (same : q.Alike r) (within : inner.Alike inner') (name : Text) :
    q.named inner name = r.named inner' name := by
  obtain ⟨s, sizes⟩ := same
  rw [named, named, enclosedAlike within]

theorem testExistenceAlike {q r inner inner' : Query} (same : q.Alike r) (kind : ClauseKind) (c : Connective)
    (within : inner.Alike inner') : (q.testExistence kind c inner).Alike (r.testExistence kind c inner') := by
  unfold testExistence
  rw [enclosedAlike within]
  exact testRawAlike (absorbAlike same _ within) kind _ .nil _

theorem testValueSubAlike {q r inner inner' : Query} (same : q.Alike r) (kind : ClauseKind) {a b : Column}
    (columns : a.Alike b) (operator : Text) (c : Connective) (within : inner.Alike inner') :
    Together Alike (q.testValueSub kind a operator c inner) (r.testValueSub kind b operator c inner') := by
  unfold testValueSub
  rw [enclosedAlike within]
  exact testAlike (absorbAlike same _ within) kind (Criterion.testAlike columns operator (.raw _) c)

theorem testColumnSubAlike {q r inner inner' : Query} (same : q.Alike r) (kind : ClauseKind) (operator : Text)
    {a b : Arg} (operands : a.Alike b) (c : Connective) (within : inner.Alike inner') :
    Together Alike (q.testColumnSub kind operator a c inner) (r.testColumnSub kind operator b c inner') := by
  unfold testColumnSub
  rw [enclosedAlike within]
  exact testAlike (absorbAlike same _ within) kind (.leaf _ operator operands c)

theorem selectSubAlike {q r inner inner' : Query} (same : q.Alike r) (name : Text) (within : inner.Alike inner') :
    (q.selectSub name inner).Alike (r.selectSub name inner') := by
  unfold selectSub
  rw [namedAlike same within]
  exact fragmentAlike (f := fun q => q.addColumn _) (fun _ _ => rfl) (absorbAlike same .select within)

theorem fromSubAlike {q r inner inner' : Query} (same : q.Alike r) (name : Text) (within : inner.Alike inner') :
    (q.fromSub name inner).Alike (r.fromSub name inner') := by
  have absorbed := absorbAlike (clearBucketAlike same .source) .source within
  unfold fromSub
  rw [namedAlike same within]
  exact fragmentAlike (f := fun q => { q with source := some _ }) (fun _ _ => rfl) absorbed

theorem joinSubAlike {q r inner inner' : Query} (same : q.Alike r) (kind : JoinKind) (name first : Text)
    (op : Operator) (second : Text) (within : inner.Alike inner') :
    (q.joinSub kind name first op second inner).Alike (r.joinSub kind name first op second inner') := by
  have condition : q.onColumns first op second = r.onColumns first op second := by
    obtain ⟨s, sizes⟩ := same
    rfl
  unfold joinSub
  rw [namedAlike same within, condition]
  exact fragmentAlike (f := fun q => q.joined _ _ _) (fun _ _ => rfl) (absorbAlike same .join within)

theorem addUnionAlike {q r inner inner' : Query} (same : q.Alike r) (all : Bool) (within : inner.Alike inner') :
    (q.addUnion all inner).Alike (r.addUnion all inner') := by
  have closed : inner.isClosed = inner'.isClosed := by
    obtain ⟨s, sizes⟩ := within
    rfl
  have absorbed := absorbAlike same .union within
  unfold addUnion
  rw [alikeCompile within, closed]
  exact fragmentAlike (f := fun q => { q with unions := q.unions ++ [_] }) (fun _ _ => rfl) absorbed

end Query

open Query

namespace Call

def reads : Call → Bool
  | .showDebug => true
  | .execute => true
  | _ => false

theorem applySame (c : Call) (silent : c.reads = false) {q r : Query} (same : q.Alike r) :
    Together Query.Alike (c.apply q) (c.apply r) := by
  cases c with
  | refuse fault => exact .error fault
  | test kind item => exact testAlike same kind (Criterion.alikeRefl item)
  | testRaw kind sql args c => exact .ok (testRawAlike same kind sql (Arg.allAlikeRefl args) c)
  | testColumns kind first operator second c => exact testColumnsAlike same kind first operator second c
  | select columns =>
    exact .ok (fragmentAlike (f := fun q => { q with columns := columns.map (Ident.render q.dialect) })
      (fun _ _ => rfl) (clearBucketAlike same .select))
  | selectRaw sql args =>
    exact .ok (boundAlike (f := fun q => q.addColumn sql) (fun _ _ => rfl) same .select (Arg.allAlikeRefl args))
  | selectFrom table =>
    exact .ok (fragmentAlike (f := fun q => { q with source := some (table.render q.dialect) })
      (fun _ _ => rfl) (clearBucketAlike same .source))
  | fromRaw sql args => exact .ok (fromRawAlike same sql (Arg.allAlikeRefl args))
  | join kind table first operator second =>
    refine togetherBind (togetherSame _) ?_
    intro op _ rfl
    exact .ok (fragmentAlike (f := fun q => q.join kind table first op second) (fun _ _ => rfl) same)
  | joinWhere kind table first operator operand =>
    refine togetherBind (togetherSame _) ?_
    intro op _ rfl
    refine togetherBind (togetherSame _) ?_
    intro _ _ _
    exact .ok (joinWhereAlike same kind table first op (Arg.alikeRefl operand))
  | groupByRaw sql args =>
    have values := Arg.allAlikeRefl args
    exact .ok (boundAlike (f := fun q => { q with groups := q.groups ++ [sql] }) (fun _ _ => rfl) same .groups values)
  | orderBy column direction =>
    refine togetherBind (orderTermAlike same column direction) ?_
    intro term _ rfl
    exact .ok (fragmentAlike (f := fun q => q.orderBy term) (fun _ _ => rfl) same)
  | orderByRaw sql args =>
    exact .ok (boundAlike (f := fun q => q.orderBy sql) (fun _ _ => rfl) same .order (Arg.allAlikeRefl args))
  | unionOrderBy column direction =>
    refine togetherBind (orderTermAlike same column direction) ?_
    intro term _ rfl
    exact .ok (fragmentAlike (f := fun q => q.unionOrderBy term) (fun _ _ => rfl) same)
  | unionOrderByRaw sql args =>
    exact .ok (boundAlike (f := fun q => q.unionOrderBy sql) (fun _ _ => rfl) same .unionOrder (Arg.allAlikeRefl args))
  | addBinding bucket arg => exact .ok (bindAlike same bucket rfl)
  | restart => exact .ok (childAlike same)
  | addSelect columns =>
    exact .ok (fragmentAlike (f := fun q => q.addSelect columns) (fun _ _ => rfl) same)
  | distinct => exact .ok (fragmentAlike (f := setDistinct) (fun _ _ => rfl) same)
  | crossJoin table => exact .ok (fragmentAlike (f := fun q => q.crossJoin table) (fun _ _ => rfl) same)
  | groupBy columns => exact .ok (fragmentAlike (f := fun q => q.groupBy columns) (fun _ _ => rfl) same)
  | orderRandom => exact .ok (fragmentAlike (f := Query.orderRandom) (fun _ _ => rfl) same)
  | limit n => exact .ok (fragmentAlike (f := fun q => q.limit n) (fun _ _ => rfl) same)
  | offset n => exact .ok (fragmentAlike (f := fun q => q.offset n) (fun _ _ => rfl) same)
  | unionLimit n => exact .ok (fragmentAlike (f := fun q => q.unionLimit n) (fun _ _ => rfl) same)
  | unionOffset n => exact .ok (fragmentAlike (f := fun q => q.unionOffset n) (fun _ _ => rfl) same)
  | setDialect d => exact .ok (fragmentAlike (f := fun q => { q with dialect := d }) (fun _ _ => rfl) same)
  | describe => exact .ok same
  | listBindings => exact .ok same
  | showDebug => cases silent
  | execute => cases silent

theorem applyAlike {a b : Call} (calls : a.Alike b) (silent : a.reads = false) {q r : Query} (same : q.Alike r) :
    Together Query.Alike (a.apply q) (b.apply r) := by
  cases calls with
  | same c => exact applySame a silent same
  | test kind item => exact testAlike same kind item
  | testRaw kind sql args c => exact .ok (testRawAlike same kind sql args c)
  | selectRaw sql args => exact .ok (boundAlike (f := fun q => q.addColumn sql) (fun _ _ => rfl) same .select args)
  | fromRaw sql args => exact .ok (fromRawAlike same sql args)
  | joinWhere kind table first operator operand =>
    refine togetherBind (togetherSame _) ?_
    intro op _ rfl
    refine togetherBind (requireSingleAlike op operand) ?_
    intro _ _ _
    exact .ok (joinWhereAlike same kind table first op operand)
  | groupByRaw sql args =>
    exact .ok (boundAlike (f := fun q => { q with groups := q.groups ++ [sql] }) (fun _ _ => rfl) same .groups args)
  | orderByRaw sql args => exact .ok (boundAlike (f := fun q => q.orderBy sql) (fun _ _ => rfl) same .order args)
  | unionOrderByRaw sql args =>
    exact .ok (boundAlike (f := fun q => q.unionOrderBy sql) (fun _ _ => rfl) same .unionOrder args)
  | addBinding bucket arg => exact .ok (bindAlike same bucket (Arg.alikeLeaves arg))

end Call

namespace Nest

theorem enterAlike {m n : Nest} (nests : m.Alike n) {q r : Query} (same : q.Alike r) :
    Together Query.Alike (m.enter q) (n.enter r) := by
  have children := childAlike same
  have entered : m.enter r = n.enter r := by cases nests <;> rfl
  rw [← entered]
  cases m with
  | group kind c => exact .ok (openGroupAlike same kind c)
  | existence kind c => exact .ok children
  | valueSub kind column operator c =>
    refine togetherBind (togetherSame _) ?_
    intro op _ rfl
    split
    · exact .error _
    · exact .ok children
  | columnSub kind operator operand c => exact togetherBind (togetherSame _) fun _ _ _ => .ok children
  | selectSub name => exact togetherBind (togetherSame _) fun _ _ _ => .ok children
  | fromSub name => exact togetherBind (togetherSame _) fun _ _ _ => .ok children
  | joinSub kind name first operator second =>
    refine togetherBind (togetherSame _) ?_
    intro _ _ _
    exact togetherBind (togetherSame _) fun _ _ _ => .ok children
  | union all => exact .ok children
  | copy => exact .ok same
  | child => exact .ok children

theorem leaveSame (n : Nest) {q r inner inner' : Query} (same : q.Alike r) (within : inner.Alike inner') :
    Together Query.Alike (n.leave q inner) (n.leave r inner') := by
  cases n with
  | group kind c => exact closeGroupAlike same kind c within
  | existence kind c => exact .ok (testExistenceAlike same kind c within)
  | valueSub kind column operator c => exact testValueSubAlike same kind (Column.alikeRefl column) operator c within
  | columnSub kind operator operand c =>
    exact testColumnSubAlike same kind operator (Arg.alikeRefl operand) c within
  | selectSub name => exact .ok (selectSubAlike same name within)
  | fromSub name => exact .ok (fromSubAlike same name within)
  | joinSub kind name first operator second =>
    refine togetherBind (togetherSame _) ?_
    intro op _ rfl
    exact .ok (joinSubAlike same kind name first op second within)
  | union all => exact .ok (addUnionAlike same all within)
  | copy => exact .ok same
  | child => exact .ok same

theorem leaveAlike {m n : Nest} (nests : m.Alike n) {q r inner inner' : Query} (same : q.Alike r)
    (within : inner.Alike inner') : Together Query.Alike (m.leave q inner) (n.leave r inner') := by
  cases nests with
  | same n => exact leaveSame m same within
  | valueSub kind columns operator c => exact testValueSubAlike same kind columns operator c within
  | columnSub kind operator operands c => exact testColumnSubAlike same kind operator operands c within

end Nest

mutual
inductive Report.Alike : Report → Report → Prop
  | intro {a b : Report} (text : a.query.compile = b.query.compile) (sizes : a.query.bindings.Alike b.query.bindings)
      (fault : a.fault = b.fault) (inner : AllAlike a.inner b.inner) : Alike a b

inductive Report.AllAlike : List Report → List Report → Prop
  | nil : AllAlike [] []
  | cons {a b : Report} {as bs : List Report} (first : Alike a b) (rest : AllAlike as bs) :
      AllAlike (a :: as) (b :: bs)
end

namespace Step

def Silent : Step → Prop := Holds (fun c => c.reads = false) (fun _ _ inside => inside) id

def AllSilent : List Step → Prop := AllHold (fun c => c.reads = false) (fun _ _ inside => inside) id

def SilentInside : Step → Prop
  | .call _ => True
  | .nest _ body => AllSilent body
  | .attempt s => SilentInside s

def reads : Step → Bool
  | .call c => c.reads
  | .nest _ _ => false
  | .attempt s => reads s

mutual
theorem applyAlike {s t : Step} (alike : Alike s t) (silent : Silent s) {q r : Query} (same : q.Alike r) :
    Together Query.Alike (s.apply q) (t.apply r) := by
  cases alike with
  | call calls => exact Call.applyAlike calls silent same
  | nest nests body =>
    refine togetherBind (Nest.enterAlike nests same) ?_
    intro begun begun' entered
    refine togetherBind (applyAllAlike body silent entered) ?_
    intro inner inner' within
    exact Nest.leaveAlike nests same within
  | @attempt a b step =>
    have inner := applyAlike step silent same
    unfold apply
    generalize a.apply q = x, b.apply r = y at inner
    cases inner with
    | ok answers => exact .ok answers
    | error fault => exact .ok same

theorem applyAllAlike {a b : List Step} (alike : AllAlike a b) (silent : AllSilent a) {q r : Query}
    (same : q.Alike r) : Together Query.Alike (applyAll a q) (applyAll b r) := by
  cases alike with
  | nil => exact .ok same
  | cons first rest =>
    refine togetherBind (applyAlike first silent.1 same) ?_
    intro q r same
    exact applyAllAlike rest silent.2 same
end

theorem performAlike {s t : Step} (alike : s.Alike t) (silent : s.Silent) {q r : Query} (same : q.Alike r) :
    (s.next q).Alike (t.next r) ∧ (s.perform q).result = (t.perform r).result := by
  have both := applyAlike alike silent same
  cases left : s.apply q with
  | ok next =>
    cases right : t.apply r with
    | ok next' =>
      rw [left, right] at both
      cases both with
      | ok answers =>
        rw [(performOk left).1, (performOk left).2, (performOk right).1, (performOk right).2]
        exact ⟨answers, rfl⟩
    | error fault =>
      rw [left, right] at both
      contradiction
  | error fault =>
    cases right : t.apply r with
    | ok next' =>
      rw [left, right] at both
      contradiction
    | error fault' =>
      rw [left, right] at both
      cases both
      rw [(performError left).1, (performError left).2, (performError right).1, (performError right).2]
      exact ⟨same, rfl⟩

theorem reportedAlike {s t : Step} (alike : s.Alike t) (silent : s.Silent) {q r : Query} (same : q.Alike r)
    (output output' : Output) {inner inner' : List Report} (within : Report.AllAlike inner inner') :
    Report.Alike (s.reported q output inner) (t.reported r output' inner') := by
  obtain ⟨queries, results⟩ := performAlike alike silent same
  have fault : s.fault? q = t.fault? r := by simp only [fault?, results]
  exact .intro (Query.alikeCompile queries) (Query.alikeSizes queries) fault within

mutual
theorem reportAlike {s t : Step} (alike : Alike s t) (silent : Silent s) {q r : Query} (same : q.Alike r) :
    Report.Alike (report s q) (report t r) := by
  cases alike with
  | call calls => exact reportedAlike (.call calls) silent same _ _ .nil
  | @nest m n nests as bs body =>
    apply reportedAlike (.nest nests body) silent same
    have entered := Nest.enterAlike nests same
    generalize m.enter q = x, n.enter r = y at entered
    cases entered with
    | ok begun => exact reportAllAlike body silent begun
    | error fault => exact .nil
  | attempt step => exact reportAlike step silent same

theorem reportAllAlike {a b : List Step} (alike : AllAlike a b) (silent : AllSilent a) {q r : Query}
    (same : q.Alike r) : Report.AllAlike (reportAll a q) (reportAll b r) := by
  cases alike with
  | nil => exact .nil
  | @cons s t as bs first rest =>
    obtain ⟨queries, results⟩ := performAlike first silent.1 same
    apply Report.AllAlike.cons (reportAlike first silent.1 same)
    rw [results]
    cases (t.perform r).result with
    | ok _ => exact reportAllAlike rest silent.2 queries
    | error fault => exact .nil
end

structure AnswersAlike (s : Step) (a b : Report) : Prop where
  text : a.query.compile = b.query.compile
  sizes : a.query.bindings.Alike b.query.bindings
  inner : Report.AllAlike a.inner b.inner
  fault : s.reads = false → a.fault = b.fault

inductive AllAnswerAlike : Program → List Report → List Report → Prop
  | nil : AllAnswerAlike [] [] []
  | cons {s : Step} {a b : Report} {rest : Program} {as bs : List Report} (first : AnswersAlike s a b)
      (later : AllAnswerAlike rest as bs) : AllAnswerAlike (s :: rest) (a :: as) (b :: bs)

theorem readsOrSilent {s : Step} (inside : SilentInside s) (builds : s.reads = false) : Silent s := by
  induction s using Step.rec (motive_2 := fun _ => True) with
  | call c => exact builds
  | nest n body _ => exact inside
  | attempt s ih => exact ih inside builds
  | nil => trivial
  | cons _ _ _ _ => trivial

theorem readsAlike {s t : Step} (alike : s.Alike t) : s.reads = t.reads := by
  induction s using Step.rec (motive_2 := fun _ => True) generalizing t with
  | call c =>
    cases alike with
    | call calls => cases calls <;> rfl
  | nest n body _ =>
    cases alike
    rfl
  | attempt s ih =>
    cases alike with
    | attempt step =>
      have inner := ih step
      exact inner
  | nil => trivial
  | cons _ _ _ _ => trivial

theorem readsLooks {s : Step} (reads : s.reads = true) : Edit.Looks s.perform := by
  induction s using Step.rec (motive_2 := fun _ => True) with
  | call c =>
    cases c with
    | showDebug => exact Edit.bindLooks Edit.lookLooks fun q => Edit.bindLooks (Edit.checkLooks _) fun _ _ => rfl
    | execute => exact fun _ => rfl
    | _ => cases reads
  | nest n body _ => cases reads
  | attempt s ih => exact ih reads
  | nil => trivial
  | cons _ _ _ _ => trivial

theorem readsInner {s : Step} (reads : s.reads = true) (q : Query) : (report s q).inner = [] := by
  induction s using Step.rec (motive_2 := fun _ => True) with
  | call c => rfl
  | nest n body _ => cases reads
  | attempt s ih => exact ih reads
  | nil => trivial
  | cons _ _ _ _ => trivial

theorem stepAlike {s t : Step} (alike : s.Alike t) (inside : s.SilentInside) {q r : Query} (same : q.Alike r) :
    AnswersAlike s (s.report q) (t.report r) ∧ (s.next q).Alike (t.next r) := by
  cases reads : s.reads with
  | false =>
    have silent := readsOrSilent inside reads
    obtain ⟨text, sizes, fault, inner⟩ := reportAlike alike silent same
    exact ⟨⟨text, sizes, inner, fun _ => fault⟩, (performAlike alike silent same).1⟩
  | true =>
    have other : t.reads = true := by rw [← readsAlike alike, reads]
    have left : s.next q = q := readsLooks reads q
    have right : t.next r = r := readsLooks other r
    have inner : Report.AllAlike (s.report q).inner (t.report r).inner := by
      rw [readsInner reads, readsInner other]
      exact .nil
    have kept : (s.report q).query.Alike (t.report r).query := by
      rw [reportQuery, reportQuery, left, right]
      exact same
    refine ⟨⟨Query.alikeCompile kept, Query.alikeSizes kept, inner, ?_⟩, ?_⟩
    · intro builds
      rw [reads] at builds
      contradiction
    · rw [left, right]
      exact same

theorem valuesNeverShow {first second : Program} (alike : AllAlike first second)
    (inside : ∀ s ∈ first, s.SilentInside) {q r : Query} (start : q.Alike r) :
    AllAnswerAlike first (first.reports q) (second.reports r) := by
  induction first generalizing second q r with
  | nil =>
    cases alike
    exact .nil
  | cons s rest ih =>
    cases alike with
    | cons one later =>
      obtain ⟨answers, queries⟩ := stepAlike one (inside s List.mem_cons_self) start
      apply AllAnswerAlike.cons answers
      exact ih later (fun t member => inside t (List.mem_cons_of_mem s member)) queries

theorem valuesNeverShowInUnion :
    let program (a b : Arg) : Program :=
      [.call (.test .filter (.leaf "id" "in" (.list [a, .raw "DEFAULT"]) .and)),
        .nest (.union true) [.nest (.group .having .or) [.call (.testRaw .having "f(?)" [b, a] .and)]],
        .attempt (.call (.test .filter (.leaf "id" "like" (.list [b]) .and))), .call .showDebug]
    let plain := program (.value (.text "?")) (.value (.bool true))
    let computed := program (.lazy (.error "down")) (.value (.text "x' OR 1=1"))
    AllAlike plain computed ∧ (∀ s ∈ plain, s.SilentInside) ∧
      AllAnswerAlike plain (plain.reports (.blank .mysql)) (computed.reports (.blank .mysql)) := by
  intro program plain computed
  have alike : AllAlike plain computed := by
    have first : Arg.Alike (.value (.text "?")) (.lazy (.error "down")) := .bound rfl rfl
    have second : Arg.Alike (.value (.bool true)) (.value (.text "x' OR 1=1")) := .bound rfl rfl
    refine .cons (.call (.test _ (.leaf _ _ (.list (.cons first (.cons (.raw _) .nil))) _))) (.cons ?_ ?_)
    · refine .nest (.same _) (.cons (.nest (.same _) (.cons (.call ?_) .nil)) .nil)
      exact .testRaw _ _ (.cons second (.cons first .nil)) _
    · refine .cons (.attempt (.call (.test _ (.leaf _ _ (.list (.cons second .nil)) _)))) ?_
      exact .cons (.call (.same _)) .nil
  have inside : ∀ s ∈ plain, s.SilentInside := by
    intro s member
    simp only [plain, program, List.mem_cons, List.not_mem_nil, or_false] at member
    rcases member with rfl | rfl | rfl | rfl <;> simp [SilentInside, AllSilent, AllHold, Holds, Call.reads]
  exact ⟨alike, inside, valuesNeverShow alike inside (Query.alikeRefl _)⟩

theorem failingValueShowsInDebugText :
    let program (a : Arg) : Program := [.call (.test .filter (.leaf "id" "=" a .and)), .call .showDebug]
    let plain := program (.value (.text "a"))
    let computed := program (.lazy (.error "down"))
    AllAlike plain computed ∧ (∀ s ∈ plain, s.SilentInside) ∧
      (plain.reports (.blank .mysql)).map Report.fault = [none, none] ∧
      (computed.reports (.blank .mysql)).map Report.fault = [none, some (.evaluation "down")] := by
  intro program plain computed
  have value : Arg.Alike (.value (.text "a")) (.lazy (.error "down")) := .bound rfl rfl
  have alike : AllAlike plain computed := .cons (.call (.test _ (.leaf _ _ value _))) (.cons (.call (.same _)) .nil)
  have inside : ∀ s ∈ plain, s.SilentInside := by
    intro s member
    simp only [plain, program, List.mem_cons, List.not_mem_nil, or_false] at member
    rcases member with rfl | rfl <;> trivial
  exact ⟨alike, inside, by decide +kernel, by decide +kernel⟩

end Step
end SelectBuilder
