import SelectBuilder.Proofs.LabelledSteps

/-! Placeholders and bindings stay in step. Carried out on labelled fragments beside the query, a step leaves every
fragment with the arguments that its placeholders stand for, and these are the values in its bucket. So the live
placeholders of the compiled statement, from left to right, are those of all bindings, and showing the statement never
lacks an argument or has one too many. Written SQL must fit its bindings, bindings are not added by hand, and no
callback of a group replaces the query it was given. -/
namespace SelectBuilder
open Labelled

/-! Which programs these are. -/

/-- Values for the tail of a union are shown only if there is a union. -/
def Query.Backed (q : Query) : Prop := q.unions ≠ [] ∨ q.bindings.unionOrder = []

instance (q : Query) : Decidable q.Backed := inferInstanceAs (Decidable (_ ∨ _))

def Call.Fair : Call → Prop
  | .test _ item => item.Inert
  | .testRaw _ sql args _ => Fits sql args
  | .select columns => ∀ column ∈ columns, column.Inert
  | .addSelect columns => ∀ column ∈ columns, column.Inert
  | .selectRaw sql args => Fits sql args
  | .selectFrom table => table.Inert
  | .fromRaw sql args => Fits sql args
  | .crossJoin table => table.Inert
  | .join _ table _ _ _ => table.Inert
  | .joinWhere _ table _ _ operand => table.Inert ∧ operand.Inert
  | .groupBy columns => ∀ column ∈ columns, column.Inert
  | .groupByRaw sql args => Fits sql args
  | .orderBy column _ => column.Inert
  | .orderByRaw sql args => Fits sql args
  | .unionOrderBy column _ => column.Inert
  | .unionOrderByRaw sql args => Fits sql args
  | .addBinding _ _ => False
  | _ => True

namespace Nest

def Fair (keeps : Prop) : Nest → Prop
  | .group _ _ => keeps
  | .valueSub _ (.ident name) _ _ => name.Inert
  | .columnSub _ _ operand _ => operand.Inert
  | _ => True

def Compiles : Nest → Prop
  | .group _ _ => False
  | .copy => False
  | .child => False
  | _ => True

end Nest

namespace Step

def Fair : Step → Prop := Holds Call.Fair (fun n body inside => n.Fair (AllKeep body) ∧ inside) id

def AllFair : List Step → Prop := AllHold Call.Fair (fun n body inside => n.Fair (AllKeep body) ∧ inside) id

mutual
def Backed : Step → Query → Prop
  | .call _, _ => True
  | .nest n body, q =>
    match n.enter q with
    | .ok begun =>
      AllBacked body begun ∧
        (n.Compiles → (performAll body begun).result = .ok () → (performAll body begun).query.Backed)
    | .error _ => True
  | .attempt s, q => Backed s q

def AllBacked : List Step → Query → Prop
  | [], _ => True
  | s :: rest, q => Backed s q ∧ AllBacked rest (s.next q)
end

end Step

/-! A fragment changed together with its bucket stays traced. -/
namespace Fragments

variable {q next : Query} {t : Fragments}

theorem labelsSame (labels : t.Labels q) (texts : ∀ c, next.texts c = q.texts c) (bound : next.bindings = q.bindings) :
    t.Labels next := by
  intro c
  rw [texts, bound]
  exact labels c

theorem labelsSet (labels : t.Labels q) (b : Bucket) {labelledParts : List Labelled} {args : List Arg}
    (all : AllCarry labelledParts args)
    (texts : ∀ c, next.texts c = if c = b then labelledParts.map text else q.texts c)
    (bound : next.bindings = q.bindings.set b args) : (t.set b labelledParts).Labels next := by
  intro c
  rw [texts, bound, set]
  by_cases same : c = b
  · subst same
    rw [if_pos rfl, if_pos rfl, Bindings.getSet]
    exact ⟨rfl, all⟩
  · rw [if_neg same, if_neg same, Bindings.getSetOther _ same]
    exact labels c

theorem labelsAdd (labels : t.Labels q) (b : Bucket) {labelledParts : List Labelled} {args : List Arg}
    (all : AllCarry labelledParts args)
    (texts : ∀ c, next.texts c = if c = b then q.texts c ++ labelledParts.map text else q.texts c)
    (bound : next.bindings = q.bindings.append b args) : (t.add b labelledParts).Labels next := by
  apply labelsSet labels b (allCarryAppend (labels b).2 all) _ bound
  intro c
  rw [texts c, List.map_append]
  by_cases same : c = b
  · subst same
    rw [if_pos rfl, if_pos rfl, (labels c).1]
  · rw [if_neg same, if_neg same]

theorem plainText (texts : List Text) : (texts.map plain).map text = texts := by
  rw [List.map_map]
  exact (List.map_congr_left fun part _ => textPlain part).trans (List.map_id texts)

theorem labelsPlainly (labels : t.Labels q) (b : Bucket) {new : List Text} (inert : ∀ part ∈ new, part.Inert)
    (texts : ∀ c, next.texts c = if c = b then q.texts c ++ new else q.texts c) (bound : next.bindings = q.bindings) :
    (t.plainly b q next).Labels next := by
  have added : (next.texts b).drop (q.texts b).length = new := by rw [texts, if_pos rfl, List.drop_left]
  have same : q.bindings.append b [] = q.bindings := by
    cases b <;> simp [Bindings.append, Bindings.set, Bindings.get]
  unfold plainly
  rw [added]
  apply labelsAdd labels b (allCarryPlain inert)
  · rw [plainText]
    exact texts
  · rw [bound, same]

theorem labelsReplaced (labels : t.Labels q) (b : Bucket) {new : List Text} (inert : ∀ part ∈ new, part.Inert)
    (texts : ∀ c, next.texts c = if c = b then new else q.texts c) (bound : next.bindings = q.bindings.clear b) :
    (t.set b ((next.texts b).map plain)).Labels next := by
  have replaced : next.texts b = new := by rw [texts, if_pos rfl]
  rw [replaced]
  apply labelsSet labels b (allCarryPlain inert) _ bound
  rw [plainText]
  exact texts

theorem labelsWritten (labels : t.Labels q) (b : Bucket) {sql : Text} {args : List Arg} (fits : Fits sql args)
    (texts : ∀ c, next.texts c = if c = b then q.texts c ++ [sql] else q.texts c)
    (bound : next.bindings = q.bindings.append b (Arg.leavesOf args)) : (t.add b [written sql args]).Labels next := by
  apply labelsAdd labels b (carriesOne (carriesWritten fits)) _ bound
  rw [List.map_singleton, Labelled.written, textMarked]
  exact texts

theorem partShown (labels : t.Labels q) (kind : ClauseKind) : (q.part kind).Shown (t.clause kind) :=
  ⟨clauseText (fun b => (labels b).1) kind, clauseCarries labels kind⟩

theorem labelsWithPart (labels : t.Labels q) (kind : ClauseKind) {s : Section} {labelled : Labelled}
    (shown : s.Shown labelled) :
    (t.withClause kind labelled).Labels (q.withPart kind s) := by
  obtain ⟨text, carries⟩ := shown
  apply labelsSet labels kind.bucket (carriesOne carries)
  · intro c
    rw [List.map_singleton, text]
    cases kind <;> cases c <;> rfl
  · cases kind <;> rfl

theorem testLabels (labels : t.Labels q) {kind : ClauseKind} {item : Criterion} (inert : item.Inert)
    (ok : q.test kind item = .ok next) :
    (t.withClause kind (item.labelled q.dialect kind.keyword (q.part kind) (t.clause kind))).Labels next := by
  obtain ⟨s, pushed, last⟩ := bindIsOk ok
  cases last
  exact labelsWithPart labels kind (Criterion.labelledShown _ kind.keywordInert inert (partShown labels kind) pushed)

theorem blankLabels (d : Dialect) (b : Option Backend) : Labels blank { dialect := d, backend := b } := by
  intro bucket
  cases bucket <;> exact ⟨rfl, by simp [blank, text, Region.after], rfl⟩

end Fragments

namespace Call

variable {q : Query} {t : Fragments}

theorem testRawLabels (labels : t.Labels q) (kind : ClauseKind) {sql : Text} {args : List Arg} (fits : Fits sql args)
    (c : Connective) (next : Query) :
    (labelled q next t (.testRaw kind sql args c)).Labels (q.testRaw kind sql args c) := by
  have shown : (Predicate.raw sql args).Shown [] (written sql args) := ⟨textMarked _ _ _, carriesWritten fits⟩
  exact Fragments.labelsWithPart labels kind
    (Section.addShown (Fragments.partShown labels kind) kind.keywordInert c shown)

theorem joinWhereLabels (labels : t.Labels q) {kind : JoinKind} {table : Ident} {first operator : Text} {operand : Arg}
    {op : Operator} (named : table.Inert) (inert : operand.Inert) (parsed : Operator.parseComparison operator = .ok op)
    (next : Query) :
    (labelled q next t (.joinWhere kind table first operator operand)).Labels
      (q.joinWhere kind table first op operand) := by
  have column : Carries (plain (q.dialect.wrap first)) [] := carriesPlain (q.dialect.wrapInert first)
  obtain ⟨shown, condition⟩ := Predicate.infixedShown column op (carriesOfArg inert)
  have whole := carriesAppend (carriesPlain (kind.onInert q.dialect named)) condition
  simp only [labelled, parsed]
  apply Fragments.labelsAdd labels .join (carriesOne whole) _ rfl
  rw [List.map_singleton, textAppend, shown, textPlain, textPlain, textOfArg]
  rintro (_ | _) <;> rfl

theorem labelledLabels {c : Call} (fair : c.Fair) {next : Query} (labels : t.Labels q) (ok : c.apply q = .ok next) :
    (c.labelled q next t).Labels next := by
  have names {columns : List Ident} (inert : ∀ column ∈ columns, column.Inert) :
      ∀ part ∈ columns.map (Ident.render q.dialect), part.Inert := by
    intro part member
    obtain ⟨column, inside, rfl⟩ := List.mem_map.mp member
    exact Ident.renderInert _ (inert column inside)
  have one {part : Text} (inert : part.Inert) : ∀ other ∈ [part], other.Inert := by
    intro other member
    cases List.mem_singleton.mp member
    exact inert
  cases applyIs ok with
  | test tested => exact Fragments.testLabels labels fair tested
  | testRaw kind sql args c => exact testRawLabels labels kind fair c _
  | @testColumns kind first operator second c _ tested =>
    have leaf : (Criterion.leaf first operator (.raw (q.dialect.wrap second)) c).Inert :=
      ⟨trivial, q.dialect.wrapInert second⟩
    exact Fragments.testLabels labels leaf (Query.columnsTest tested)
  | select columns => exact Fragments.labelsReplaced labels .select (names fair) (by rintro (_ | _) <;> rfl) rfl
  | addSelect columns => exact Fragments.labelsPlainly labels .select (names fair) (by rintro (_ | _) <;> rfl) rfl
  | selectRaw sql args => exact Fragments.labelsWritten labels .select fair (by rintro (_ | _) <;> rfl) rfl
  | selectFrom table =>
    exact Fragments.labelsReplaced labels .source (one (Ident.renderInert _ fair)) (by rintro (_ | _) <;> rfl) rfl
  | fromRaw sql args =>
    apply Fragments.labelsSet labels .source (carriesOne (carriesWritten fair)) _ rfl
    rw [List.map_singleton, Labelled.written, textMarked]
    rintro (_ | _) <;> rfl
  | crossJoin table =>
    have inert : Text.Inert (JoinKind.cross.sql ++ [' '] ++ table.render q.dialect) :=
      Text.inertAppend (by decide) (Ident.renderInert _ fair)
    exact Fragments.labelsPlainly labels .join (one inert) (by rintro (_ | _) <;> rfl) rfl
  | @join kind table first operator second op parsed =>
    have inert := Text.inertAppend (kind.onInert q.dialect fair) (q.onColumnsInert first op second)
    exact Fragments.labelsPlainly labels .join (one inert) (by rintro (_ | _) <;> rfl) rfl
  | joinWhere parsed single => exact joinWhereLabels labels fair.1 fair.2 parsed _
  | groupBy columns => exact Fragments.labelsPlainly labels .groups (names fair) (by rintro (_ | _) <;> rfl) rfl
  | groupByRaw sql args => exact Fragments.labelsWritten labels .groups fair (by rintro (_ | _) <;> rfl) rfl
  | orderBy written =>
    exact Fragments.labelsPlainly labels .order (one (Query.orderTermInert fair written)) (by rintro (_ | _) <;> rfl) rfl
  | orderRandom =>
    have inert : q.dialect.randomFunction.Inert := by cases q.dialect <;> decide
    exact Fragments.labelsPlainly labels .order (one inert) (by rintro (_ | _) <;> rfl) rfl
  | orderByRaw sql args => exact Fragments.labelsWritten labels .order fair (by rintro (_ | _) <;> rfl) rfl
  | unionOrderBy written =>
    have inert := Query.orderTermInert fair written
    exact Fragments.labelsPlainly labels .unionOrder (one inert) (by rintro (_ | _) <;> rfl) rfl
  | unionOrderByRaw sql args => exact Fragments.labelsWritten labels .unionOrder fair (by rintro (_ | _) <;> rfl) rfl
  | addBinding bucket arg => cases fair
  | restart => exact Fragments.blankLabels q.dialect q.backend
  | showDebug shown => exact labels
  | execute ran => exact labels
  | _ => exact Fragments.labelsSame labels (by rintro (_ | _) <;> rfl) rfl

end Call

namespace Nest

variable {q inner : Query} {t within : Fragments}

theorem beginLabels {n : Nest} {begun : Query} (labels : t.Labels q) (entered : n.enter q = .ok begun) :
    (n.begin q t).Labels begun := by
  rw [enterIs entered]
  cases n with
  | group kind c =>
    exact Fragments.labelsWithPart labels kind
      (Section.openGroupShown (Fragments.partShown labels kind) kind.keywordInert c)
  | copy => exact labels
  | _ => exact Fragments.blankLabels q.dialect q.backend

theorem compiledShown (inside : within.Labels inner) (backed : inner.Backed) :
    (Fragments.compile inner within).text = inner.compile ∧ Carries (Fragments.compile inner within) inner.allBindings :=
  ⟨Fragments.compileText fun b => (inside b).1, Fragments.compileCarries inside backed⟩

theorem enclosedShown (inside : within.Labels inner) (backed : inner.Backed) :
    (enclosedLabelled inner within).text = inner.enclosed ∧
      Carries (enclosedLabelled inner within) inner.allBindings := by
  obtain ⟨compiled, carries⟩ := compiledShown inside backed
  have opening : Carries (plain ['(']) [] := carriesPlain (by decide)
  have closing : Carries (plain [')']) [] := carriesPlain (by decide)
  have whole := carriesAppend (carriesAppend opening carries) closing
  rw [List.nil_append, List.append_nil] at whole
  refine ⟨?_, whole⟩
  rw [enclosedLabelled, textAppend, textAppend, textPlain, textPlain, compiled]
  rfl

theorem namedShown (inside : within.Labels inner) (backed : inner.Backed) (name : Text) :
    (namedLabelled q inner within name).text = q.named inner name ∧
      Carries (namedLabelled q inner within name) inner.allBindings := by
  obtain ⟨enclosed, carries⟩ := enclosedShown inside backed
  have mark : Text.Inert (" AS " ++ q.dialect.wrap name) := Text.inertAppend (by decide) (q.dialect.wrapInert name)
  have whole := carriesAppend carries (carriesPlain mark)
  rw [List.append_nil] at whole
  refine ⟨?_, whole⟩
  rw [namedLabelled, textAppend, textPlain, enclosed, Query.named, List.append_assoc]

theorem predicateLabels (labels : t.Labels q) (kind : ClauseKind) (c : Connective) {p : Predicate} {labelled : Labelled}
    (shown : p.Shown inner.allBindings labelled) :
    (predicateLabelled q t kind c labelled).Labels
      ((q.absorb kind.bucket inner).withPart kind (((q.absorb kind.bucket inner).part kind).add kind.keyword c p)) := by
  have added := Fragments.labelsWithPart labels kind
    (Section.addShown (Fragments.partShown labels kind) kind.keywordInert c shown)
  have same : (q.absorb kind.bucket inner).withPart kind
      (((q.absorb kind.bucket inner).part kind).add kind.keyword c p) =
      q.withPart kind ⟨((q.part kind).clause.connect kind.keyword c).term p.text,
        (q.part kind).bound ++ (inner.allBindings ++ p.bound)⟩ := by
    rw [← List.append_assoc]
    cases kind <;> rfl
  rw [same]
  exact added

theorem groupLabels {next : Query} (labels : t.Labels q) (inside : within.Labels inner) {kind : ClauseKind}
    {c : Connective}
    (grown : t.clause kind ++ plain ((q.clause kind).joint kind.keyword c ++ ['(']) <+: within.clause kind)
    (ok : q.closeGroup kind c inner = .ok next) :
    (within.withClause kind <| Clause.closedLabelled kind.keyword c (q.clause kind) (inner.clause kind) (t.clause kind)
      (within.clause kind)).Labels next := by
  obtain ⟨clause, closed, last⟩ := bindIsOk ok
  cases last
  have parts : (q.part kind).closeGroup kind.keyword c (inner.part kind) = .ok ⟨clause, (inner.part kind).bound⟩ := by
    change ((q.clause kind).closeGroup kind.keyword c (inner.clause kind) >>= fun clause =>
      Except.ok (⟨clause, (inner.part kind).bound⟩ : Section)) = _
    rw [closed, okBind]
  have shown :=
    Section.closeGroupShown kind.keywordInert (Fragments.partShown labels kind) (Fragments.partShown inside kind)
    grown parts
  have same : inner.withPart kind ⟨clause, (inner.part kind).bound⟩ = inner.withClause kind clause := by
    cases kind <;> rfl
  rw [← same]
  exact Fragments.labelsWithPart inside kind shown

theorem existenceLabels (labels : t.Labels q) (inside : within.Labels inner) (backed : inner.Backed) (kind : ClauseKind)
    (c : Connective) :
    (predicateLabelled q t kind c.exist (enclosedLabelled inner within)).Labels (q.testExistence kind c inner) := by
  obtain ⟨enclosed, carries⟩ := enclosedShown inside backed
  have shown : (Predicate.raw inner.enclosed []).Shown inner.allBindings (enclosedLabelled inner within) := by
    refine ⟨enclosed, ?_⟩
    rw [Predicate.raw, Arg.leavesOf, List.append_nil]
    exact carries
  exact predicateLabels labels kind c.exist shown

theorem valueSubLabels (labels : t.Labels q) (inside : within.Labels inner) (backed : inner.Backed) {kind : ClauseKind}
    {name : Ident} {operator : Text} {c : Connective} {next : Query} (inert : name.Inert)
    (ok : q.testValueSub kind (.ident name) operator c inner = .ok next) :
    (labelled q inner t within (.valueSub kind (.ident name) operator c)).Labels next := by
  obtain ⟨enclosed, carries⟩ := enclosedShown inside backed
  obtain ⟨s, pushed, last⟩ := bindIsOk ok
  obtain ⟨op, p, parsed, compared, rfl⟩ := Criterion.leafPushed pushed
  cases last
  have column : Carries (plain (name.render q.dialect)) [] := carriesPlain (Ident.renderInert _ inert)
  obtain ⟨written, carried⟩ := Predicate.infixedShown column op carries
  cases Predicate.compareRaw compared
  simp only [labelled, parsed]
  apply predicateLabels labels kind c
  refine ⟨?_, ?_⟩
  · rw [written, textPlain, enclosed]
    rfl
  · simpa [Predicate.infixed] using carried

theorem columnSubLabels (labels : t.Labels q) (inside : within.Labels inner) (backed : inner.Backed) {kind : ClauseKind}
    {operator : Text} {operand : Arg} {c : Connective} {next : Query} (inert : operand.Inert)
    (ok : q.testColumnSub kind operator operand c inner = .ok next) :
    (labelled q inner t within (.columnSub kind operator operand c)).Labels next := by
  obtain ⟨enclosed, carries⟩ := enclosedShown inside backed
  obtain ⟨s, pushed, last⟩ := bindIsOk ok
  obtain ⟨op, p, parsed, compared, rfl⟩ := Criterion.leafPushed pushed
  cases last
  have same : Predicate.compare (enclosedLabelled inner within).text op operand = .ok p := by
    rw [enclosed]
    exact compared
  simp only [labelled, parsed]
  exact predicateLabels labels kind c (Predicate.compareShown carries inert same)

theorem joinSubLabels (labels : t.Labels q) (inside : within.Labels inner) (backed : inner.Backed) {kind : JoinKind}
    {name first operator second : Text} {op : Operator} (parsed : Operator.parseComparison operator = .ok op) :
    (labelled q inner t within (.joinSub kind name first operator second)).Labels
      (q.joinSub kind name first op second inner) := by
  obtain ⟨named, carries⟩ := namedShown (q := q) inside backed name
  have word : Text.Inert (kind.sql ++ [' ']) := Text.inertAppend kind.sqlInert (by decide)
  have condition : Text.Inert (" ON " ++ q.onColumns first op second) :=
    Text.inertAppend (by decide) (q.onColumnsInert first op second)
  have whole := carriesAppend (carriesAppend (carriesPlain word) carries) (carriesPlain condition)
  rw [List.nil_append, List.append_nil] at whole
  simp only [labelled, parsed]
  apply Fragments.labelsAdd labels .join (carriesOne whole) _ rfl
  rw [List.map_singleton, textAppend, textAppend, textPlain, textPlain, named, ← List.append_assoc]
  rintro (_ | _) <;> rfl

theorem labelledLabels {n : Nest} {keeps : Prop} (fair : n.Fair keeps) {begun next : Query} (labels : t.Labels q)
    (inside : within.Labels inner) (backed : n.Compiles → inner.Backed) (entered : n.enter q = .ok begun)
    (grown : keeps → ∀ kind, (n.begin q t).clause kind <+: within.clause kind) (ok : n.leave q inner = .ok next) :
    (n.labelled q inner t within).Labels next := by
  cases leaveIs ok with
  | @group kind c _ closed =>
    have opened := grown fair kind
    rw [begin, Fragments.withClauseClause] at opened
    exact groupLabels labels inside opened closed
  | existence kind c => exact existenceLabels labels inside (backed trivial) kind c
  | valueSub tested => exact valueSubLabels labels inside (backed trivial) fair tested
  | columnSub tested => exact columnSubLabels labels inside (backed trivial) fair tested
  | selectSub name =>
    obtain ⟨named, carries⟩ := namedShown (q := q) inside (backed trivial) name
    apply Fragments.labelsAdd labels .select (carriesOne carries) _ rfl
    rw [List.map_singleton, named]
    rintro (_ | _) <;> rfl
  | fromSub name =>
    obtain ⟨named, carries⟩ := namedShown (q := q) inside (backed trivial) name
    apply Fragments.labelsSet labels .source (carriesOne carries) _ rfl
    rw [List.map_singleton, named]
    rintro (_ | _) <;> rfl
  | joinSub parsed => exact joinSubLabels labels inside (backed trivial) parsed
  | union all =>
    obtain ⟨compiled, carries⟩ := compiledShown inside (backed trivial)
    apply Fragments.labelsAdd labels .union (carriesOne carries) _ rfl
    rw [List.map_singleton, compiled]
    rintro (_ | _) <;> first | rfl | exact List.map_append
  | copy => exact labels
  | child => exact labels

end Nest

namespace Step

mutual
theorem stepLabels {s : Step} (fair : s.Fair) {q : Query} (backed : s.Backed q) {t : Fragments} (labels : t.Labels q) :
    (s.labelled q t).Labels (s.next q) := by
  cases s with
  | call c =>
    cases found : (Step.call c).apply q with
    | ok next =>
      rw [labelled, carriedOut found, (performOk found).2]
      exact Call.labelledLabels fair labels found
    | error fault =>
      rw [labelled, notCarriedOut found, (performError found).2]
      exact labels
  | nest n body =>
    cases found : (Step.nest n body).apply q with
    | ok next =>
      obtain ⟨inner, entered, worked, left⟩ := Nest.runIs found
      obtain ⟨carried, last⟩ := performAllOk worked
      simp only [Backed, entered, carried, last] at backed
      rw [labelled, carriedOut found, (performOk found).2]
      simp only [entered, last]
      have inside := runLabels fair.2 backed.1 (Nest.beginLabels labels entered)
      rw [runIsApplyAll worked] at inside
      apply Nest.labelledLabels fair.1 labels inside (fun compiles => backed.2 compiles trivial) entered _ left
      intro keeps kind
      exact labelledAllPrefix keeps (n.opened q) _ kind
    | error fault =>
      rw [labelled, notCarriedOut found, (performError found).2]
      exact labels
  | attempt s => exact stepLabels (s := s) fair backed labels

theorem runLabels {program : Program} (fair : AllFair program) {q : Query} (backed : AllBacked program q)
    {t : Fragments}
    (labels : t.Labels q) : (labelledAll program q t).Labels (run program q) := by
  cases program with
  | nil => exact labels
  | cons s rest => exact runLabels fair.2 backed.2 (stepLabels fair.1 backed.1 labels)
end

end Step

/-! Showing a statement whose placeholders are as many as its bindings. -/

theorem literalNeverShort (d : Dialect) (quote : Text → Text) (arg : Arg) :
    Arg.literal d quote arg ≠ .error .missingArgument ∧ Arg.literal d quote arg ≠ .error .surplusArgument := by
  cases arg with
  | value v => simp [Arg.literal]
  | «lazy» outcome => cases outcome <;> simp [Arg.literal]
  | raw sql => simp [Arg.literal]
  | list items => simp [Arg.literal]

theorem faultSource {render : Arg → Except Fault Text} {r : Region} {sql : Text} {args : List Arg} {fault : Fault}
    (refused : fill render r sql args = .error fault) :
    (∃ arg ∈ args, render arg = .error fault) ∨
      fault = .surplusArgument ∧ r.liveCount sql < args.length ∨
      fault = .missingArgument ∧ args.length < r.liveCount sql := by
  induction sql generalizing r args with
  | nil =>
    cases args with
    | nil => contradiction
    | cons arg later =>
      cases refused
      exact .inr (.inl ⟨rfl, Nat.zero_lt_succ _⟩)
  | cons c rest ih =>
    rw [Region.liveCount]
    unfold fill at refused
    split at refused
    · rename_i live
      rw [if_pos live, Region.nextOfLive live]
      cases args with
      | nil =>
        cases refused
        exact .inr (.inr ⟨rfl, by rw [List.length_nil]; omega⟩)
      | cons arg later =>
        rw [List.length_cons]
        cases shown : render arg with
        | error other =>
          simp only [shown, errorBind, Except.error.injEq] at refused
          exact .inl ⟨arg, List.mem_cons_self, by rw [shown, refused]⟩
        | ok text =>
          cases found : fill render .outside rest later with
          | error other =>
            simp only [shown, found, okBind, errorBind, Except.error.injEq] at refused
            rw [refused] at found
            obtain ⟨culprit, member, rendered⟩ | ⟨surplus, more⟩ | ⟨missing, fewer⟩ := ih found
            · exact .inl ⟨culprit, List.mem_cons_of_mem arg member, rendered⟩
            · exact .inr (.inl ⟨surplus, by omega⟩)
            · exact .inr (.inr ⟨missing, by omega⟩)
          | ok more => simp [shown, found] at refused
    · rename_i ordinary
      rw [if_neg ordinary, Nat.zero_add]
      cases found : fill render (r.next c) rest args with
      | error other =>
        simp only [found, errorBind, Except.error.injEq] at refused
        rw [refused] at found
        exact ih found
      | ok more => simp [found] at refused

theorem debugFault {q : Query} {fault : Fault} (refused : q.debugText = .error fault) :
    (fault = .surplusArgument → Region.liveCount .outside q.compile < q.allBindings.length) ∧
      (fault = .missingArgument → q.allBindings.length < Region.liveCount .outside q.compile) := by
  obtain ⟨arg, _, rendered⟩ | ⟨rfl, more⟩ | ⟨rfl, fewer⟩ := faultSource refused
  · obtain ⟨notMissing, notSurplus⟩ := literalNeverShort q.dialect q.literalRule arg
    exact ⟨fun same => absurd (same ▸ rendered) notSurplus, fun same => absurd (same ▸ rendered) notMissing⟩
  · exact ⟨fun _ => more, by simp⟩
  · exact ⟨by simp, fun _ => fewer⟩

theorem debugNeverShort {q : Query} (count : Region.liveCount .outside q.compile = q.allBindings.length) :
    q.debugText ≠ .error .missingArgument ∧ q.debugText ≠ .error .surplusArgument :=
  ⟨fun refused => Nat.ne_of_gt ((debugFault refused).2 rfl) count,
    fun refused => Nat.ne_of_lt ((debugFault refused).1 rfl) count⟩

namespace Step

def labelledStatement (program : Program) (q : Query) : Labelled :=
  Fragments.compile (run program q) (labelledAll program q .blank)

theorem placeholdersAlign {program : Program} (fair : AllFair program) (d : Dialect) (b : Option Backend)
    (backed : AllBacked program { dialect := d, backend := b })
    (last : (run program { dialect := d, backend := b }).Backed) :
    (labelledStatement program { dialect := d, backend := b }).text = (run program { dialect := d, backend := b }).compile ∧
      live .outside (labelledStatement program { dialect := d, backend := b }) =
        (run program { dialect := d, backend := b }).allBindings.map some ∧
      (run program { dialect := d, backend := b }).debugText ≠ .error .missingArgument ∧
      (run program { dialect := d, backend := b }).debugText ≠ .error .surplusArgument := by
  have labels := runLabels fair backed (Fragments.blankLabels d b)
  obtain ⟨text, _, aligned⟩ := Nest.compiledShown labels last
  have count := liveLength .outside (labelledStatement program { dialect := d, backend := b })
  rw [labelledStatement, aligned, text, List.length_map] at count
  exact ⟨text, aligned, debugNeverShort count.symm⟩

theorem placeholdersAlignInSubquery :
    let value (t : Text) : Arg := .value (.text t)
    let child : List Step :=
      [.nest (.union true) [.call (.testRaw .filter "a > ?" [value "a"] .and)],
        .call (.unionOrderByRaw "?" [value "b"])]
    let program : Program :=
      [.call (.selectRaw "f('?', ?)" [value "c"]), .call (.selectFrom "t?'"), .nest (.existence .filter .or) child,
        .nest (.group .filter .or) [.call (.joinWhere .left "u" "k" "=" (.lazy (.error "down"))),
          .attempt (.call (.test .filter (.leaf "z" "like" (.value .null) .and)))],
        .call (.setDialect .postgresql), .call (.test .having (.leaf "y" "in" (.list [value "d", .raw "NOW()"]) .and))]
    AllFair program ∧ AllBacked program (.blank .mysql) ∧ (run program (.blank .mysql)).Backed ∧
      (labelledStatement program (.blank .mysql)).text = (run program (.blank .mysql)).compile ∧
      live .outside (labelledStatement program (.blank .mysql)) = (run program (.blank .mysql)).allBindings.map some ∧
      (run program (.blank .mysql)).debugText ≠ .error .missingArgument ∧
      (run program (.blank .mysql)).debugText ≠ .error .surplusArgument := by
  intro value child program
  have fair : AllFair program := by
    simp [program, child, value, AllFair, AllKeep, AllHold, Holds, Nest.Fair, Call.Fair, Call.Keeps, Criterion.Inert,
      Ident.Inert, Arg.Inert, Arg.AllInert]
    decide
  have backed : AllBacked program (.blank .mysql) := by
    refine ⟨trivial, trivial, ⟨⟨⟨⟨trivial, trivial⟩, fun _ _ => ?_⟩, trivial, trivial⟩, fun _ _ => ?_⟩, ?_⟩
    · decide +kernel
    · decide +kernel
    · exact ⟨⟨⟨trivial, trivial, trivial⟩, False.elim⟩, trivial, trivial, trivial⟩
  have last : (run program (.blank .mysql)).Backed := by decide +kernel
  exact ⟨fair, backed, last, placeholdersAlign fair .mysql none backed last⟩

end Step
end SelectBuilder
