import SelectBuilder.Proofs.LabelledSteps
import SelectBuilder.Proofs.TwinQueries

/-! Programs with other names. A renaming gives each name another of the same shape: cut at the same kind of places,
with stars for the same segments, and blank or a request for a random order only if the name was. A call that writes no
SQL of its own makes twins of twins when its names are renamed on one side. -/
namespace SelectBuilder
open Text

structure Renaming where
  map : Text → Text
  shape : ∀ name, (map name).shape = name.shape
  blank : ∀ name, trim (map name) = [] ↔ trim name = []
  random : ∀ name, map name = Query.randomOrder ↔ name = Query.randomOrder

def Renaming.same : Renaming := ⟨id, fun _ => rfl, fun _ => Iff.rfl, fun _ => Iff.rfl⟩

variable (ρ : Renaming)

def Ident.rename : Ident → Ident
  | .name text => .name (ρ.map text)
  | .raw sql => .raw sql

namespace Criterion

mutual
def rename : Criterion → Criterion
  | .leaf column operator operand c => .leaf (column.rename ρ) operator operand c
  | .nest items operator operand c => .nest (renameAll items) operator operand c

def renameAll : List Criterion → List Criterion
  | [] => []
  | item :: rest => rename item :: renameAll rest
end

end Criterion

def Column.rename : Column → Column
  | .ident name => .ident (name.rename ρ)
  | .criteria items => .criteria (Criterion.renameAll ρ items)

def Call.rename : Call → Call
  | .test kind item => .test kind (item.rename ρ)
  | .testColumns kind first operator second c => .testColumns kind (ρ.map first) operator (ρ.map second) c
  | .select columns => .select (columns.map (Ident.rename ρ))
  | .addSelect columns => .addSelect (columns.map (Ident.rename ρ))
  | .selectFrom table => .selectFrom (table.rename ρ)
  | .crossJoin table => .crossJoin (table.rename ρ)
  | .join kind table first operator second =>
    .join kind (table.rename ρ) (ρ.map first) operator (ρ.map second)
  | .joinWhere kind table first operator operand => .joinWhere kind (table.rename ρ) (ρ.map first) operator operand
  | .groupBy columns => .groupBy (columns.map (Ident.rename ρ))
  | .orderBy column direction => .orderBy (column.rename ρ) direction
  | .unionOrderBy column direction => .unionOrderBy (column.rename ρ) direction
  | .showDebug => .describe
  | .execute => .describe
  | c => c

namespace Nest

def rename : Nest → Nest
  | .valueSub kind column operator c => .valueSub kind (column.rename ρ) operator c
  | .selectSub name => .selectSub (ρ.map name)
  | .fromSub name => .fromSub (ρ.map name)
  | .joinSub kind name first operator second => .joinSub kind (ρ.map name) (ρ.map first) operator (ρ.map second)
  | n => n

def isKept : Nest → Bool
  | .copy | .child => false
  | _ => true

end Nest

namespace Step

mutual
def rename : Step → Step
  | .call c => .call (c.rename ρ)
  | .nest n body => if n.isKept then .nest (n.rename ρ) (renameAll body) else .call .describe
  | .attempt s => .attempt (rename s)

def renameAll : List Step → List Step
  | [] => []
  | s :: rest => rename s :: renameAll rest
end

end Step

/-! Programs that write no SQL of their own. -/

def Ident.RawFree : Ident → Prop
  | .name _ => True
  | .raw _ => False

namespace Criterion

mutual
def RawFree : Criterion → Prop
  | .leaf column _ operand _ => column.RawFree ∧ operand.RawFree
  | .nest items _ _ _ => AllRawFree items

def AllRawFree : List Criterion → Prop
  | [] => True
  | item :: rest => RawFree item ∧ AllRawFree rest
end

end Criterion

def Call.RawFree : Call → Prop
  | .test _ item => item.RawFree
  | .testRaw _ _ _ _ => False
  | .select columns => ∀ column ∈ columns, column.RawFree
  | .addSelect columns => ∀ column ∈ columns, column.RawFree
  | .selectRaw _ _ => False
  | .selectFrom table => table.RawFree
  | .fromRaw _ _ => False
  | .crossJoin table => table.RawFree
  | .join _ table _ _ _ => table.RawFree
  | .joinWhere _ table _ _ operand => table.RawFree ∧ operand.RawFree
  | .groupBy columns => ∀ column ∈ columns, column.RawFree
  | .groupByRaw _ _ => False
  | .orderBy column _ => column.RawFree
  | .orderByRaw _ _ => False
  | .unionOrderBy column _ => column.RawFree
  | .unionOrderByRaw _ _ => False
  | _ => True

def Nest.RawFree (keeps : Prop) : Nest → Prop
  | .group _ _ => keeps
  | .valueSub _ (.ident name) _ _ => name.RawFree
  | .columnSub _ _ operand _ => operand.RawFree
  | _ => True

namespace Step

def RawFree : Step → Prop := Holds Call.RawFree (fun n body inside => n.RawFree (AllKeep body) ∧ inside) id

def AllRawFree : List Step → Prop := AllHold Call.RawFree (fun n body inside => n.RawFree (AllKeep body) ∧ inside) id

end Step

variable {ρ} {root root' q r next : Query}

/-! Names, conditions and orders. -/

theorem Dialect.randomTwin (d : Dialect) : Text.Twin tailWords d.randomFunction d.randomFunction := by
  cases d <;> exact twinSame (by decide +kernel)

theorem Dialect.randomEnds (d : Dialect) : endsWord d.randomFunction := by
  cases d <;> decide

theorem JoinKind.sqlLoose (kind : JoinKind) :
    Closed (kind.sql ++ [' ']) ∧ Plain tailWords (exposed (kind.sql ++ [' '])) ∧ LooseEnd (kind.sql ++ [' ']) := by
  cases kind <;> decide +kernel

theorem Renaming.wrapTwin (ρ : Renaming) (d : Dialect) (name : Text) :
    Text.Twin tailWords (d.wrap name) (d.wrap (ρ.map name)) := d.wrapTwin (ρ.shape name).symm

theorem Ident.renderTwin (ρ : Renaming) (d : Dialect) {column : Ident} (free : column.RawFree) :
    Text.Twin tailWords (column.render d) ((column.rename ρ).render d) := by
  cases column with
  | name text => exact ρ.wrapTwin d text
  | raw sql => cases free

theorem Ident.renderTwins (ρ : Renaming) (d : Dialect) {columns : List Ident}
    (free : ∀ column ∈ columns, column.RawFree) :
    Twins tailWords (columns.map (Ident.render d)) ((columns.map (Ident.rename ρ)).map (Ident.render d)) := by
  induction columns with
  | nil => exact .nil
  | cons column rest ih =>
    obtain ⟨first, later⟩ := List.forall_mem_cons.mp free
    exact .cons (renderTwin ρ d first) (ih later)

namespace Criterion

variable {d : Dialect} {kind : ClauseKind}

theorem leafTwin {clause clause' : Clause} {s s' t : Section} {column column' : Ident}
    (columns : Text.Twin tailWords (column.render d) (column'.render d)) {operator : Text} {operand operand' : Arg}
    (operands : operand.Twin operand') {c : Connective} (twin : Clause.Twin clause clause' s.clause t.clause)
    (ok : push d kind.keyword (.leaf column operator operand c) s = .ok s') :
    ∃ t', push d kind.keyword (.leaf column' operator operand' c) t = .ok t' ∧
      Clause.Twin clause clause' s'.clause t'.clause := by
  obtain ⟨op, p, parsed, compared, rfl⟩ := leafPushed ok
  obtain ⟨p', compared', predicates⟩ := Predicate.compareTwin columns operands compared
  refine ⟨t.add kind.keyword c p', ?_, Clause.termTwin kind c twin predicates⟩
  simp only [push, parsed, okBind, compared']

mutual
theorem pushTwin (ρ : Renaming) {item : Criterion} (free : item.RawFree) {clause clause' : Clause} {s s' t : Section}
    (twin : Clause.Twin clause clause' s.clause t.clause) (ok : push d kind.keyword item s = .ok s') :
    ∃ t', push d kind.keyword (item.rename ρ) t = .ok t' ∧ Clause.Twin clause clause' s'.clause t'.clause := by
  cases item with
  | leaf column operator operand c => exact leafTwin (Ident.renderTwin ρ d free.1) (.same free.2) twin ok
  | nest items operator operand c =>
    obtain ⟨op, parsed, rest⟩ := bindIsOk ok
    have asMany : (renameAll ρ items).isEmpty = items.isEmpty := by cases items <;> rfl
    simp only [rename, push, parsed, okBind, asMany]
    split at rest
    · rename_i group
      rw [if_pos group]
      split at rest
      · rename_i empty
        cases rest
        rw [if_pos empty]
        exact ⟨t, rfl, twin⟩
      · rename_i filled
        rw [if_neg filled]
        obtain ⟨inner, pushed, closing⟩ := bindIsOk rest
        have opened : Clause.Twin (s.clause.openGroup kind.keyword c) (t.clause.openGroup kind.keyword c)
            (s.openGroup kind.keyword c).clause (t.openGroup kind.keyword c).clause :=
          Clause.groupTwin kind c (Clause.twinSelf twin)
        obtain ⟨inner', pushed', inside⟩ := pushAllTwin ρ free opened pushed
        obtain ⟨closed, shut, last⟩ := bindIsOk closing
        cases last
        obtain ⟨closed', shut', both⟩ := Clause.closeGroupTwin kind c twin inside shut
        refine ⟨{ inner' with clause := closed' }, ?_, both⟩
        rw [pushed', okBind, Section.closeGroup, shut', okBind]
    · contradiction

theorem pushAllTwin (ρ : Renaming) {items : List Criterion} (free : AllRawFree items) {clause clause' : Clause}
    {s s' t : Section} (twin : Clause.Twin clause clause' s.clause t.clause)
    (ok : pushAll d kind.keyword items s = .ok s') :
    ∃ t', pushAll d kind.keyword (renameAll ρ items) t = .ok t' ∧ Clause.Twin clause clause' s'.clause t'.clause := by
  cases items with
  | nil =>
    cases ok
    exact ⟨t, rfl, twin⟩
  | cons item rest =>
    obtain ⟨middle, first, later⟩ := bindIsOk ok
    obtain ⟨middle', first', both⟩ := pushTwin ρ free.1 twin first
    obtain ⟨t', later', last⟩ := pushAllTwin ρ free.2 both later
    exact ⟨t', by rw [renameAll, pushAll, first', okBind, later'], last⟩
end

end Criterion

namespace Query

theorem withPartTwin (twin : Twin root root' q r) (kind : ClauseKind) {s t : Section}
    (clauses : Clause.Twin (root.clause kind) (root'.clause kind) s.clause t.clause) :
    Twin root root' (q.withPart kind s) (r.withPart kind t) := by
  have all (other : ClauseKind) : Clause.Twin (root.clause other) (root'.clause other)
      ((q.withPart kind s).clause other) ((r.withPart kind t).clause other) := by
    by_cases same : other = kind
    · subst same
      cases other <;> exact clauses
    · rw [clauseWithPartOther q same, clauseWithPartOther r same]
      exact twin.clauses other
  cases kind <;> exact { twin with clauses := all }

theorem testTwin (twin : Twin root root' q r) {kind : ClauseKind} {item item' : Criterion}
    (pushes : ∀ {s}, item.push q.dialect kind.keyword (q.part kind) = .ok s →
      ∃ t, item'.push q.dialect kind.keyword (r.part kind) = .ok t ∧
        Clause.Twin (root.clause kind) (root'.clause kind) s.clause t.clause)
    (ok : q.test kind item = .ok next) : ∃ next', r.test kind item' = .ok next' ∧ Twin root root' next next' := by
  obtain ⟨s, pushed, last⟩ := bindIsOk ok
  cases last
  obtain ⟨t, pushed', clauses⟩ := pushes pushed
  refine ⟨r.withPart kind t, ?_, withPartTwin twin kind clauses⟩
  rw [test, twin.dialect, pushed', okBind]

theorem partTwin (twin : Twin root root' q r) (kind : ClauseKind) :
    Clause.Twin (root.clause kind) (root'.clause kind) (q.part kind).clause (r.part kind).clause := twin.clauses kind

theorem testColumnsTwin (ρ : Renaming) (twin : Twin root root' q r) {kind : ClauseKind} {first operator second : Text}
    {c : Connective} (ok : q.testColumns kind first operator second c = .ok next) :
    ∃ next', r.testColumns kind (ρ.map first) operator (ρ.map second) c = .ok next' ∧ Twin root root' next next' := by
  obtain ⟨op, parsed, rest⟩ := bindIsOk ok
  obtain ⟨p, compared, last⟩ := bindIsOk rest
  cases last
  have operand : (Arg.raw (q.dialect.wrap second)).Twin (.raw (q.dialect.wrap (ρ.map second))) :=
    .raw (ρ.wrapTwin _ second) ⟨wrapEnds _ second, wrapEnds _ (ρ.map second)⟩
  obtain ⟨p', compared', predicates⟩ := Predicate.compareTwin (ρ.wrapTwin q.dialect first) operand compared
  refine ⟨r.withPart kind ((r.part kind).add kind.keyword c p'), ?_, withPartTwin twin kind ?_⟩
  · rw [testColumns, parsed, okBind, twin.dialect, compared', okBind]
  · exact Clause.termTwin kind c (partTwin twin kind) predicates

theorem orderTermTwin (ρ : Renaming) (twin : Twin root root' q r) {column : Ident} (free : column.RawFree)
    {direction term : Text} (ok : q.orderTerm column direction = .ok term) :
    ∃ term', r.orderTerm (column.rename ρ) direction = .ok term' ∧ Text.Twin tailWords term term' ∧ endsWord term := by
  have random : column.rename ρ = .name randomOrder ↔ column = .name randomOrder := by
    cases column with
    | name text => simpa [Ident.rename] using ρ.random text
    | raw sql => cases free
  have directed (word : Text) (known : word = "ASC" ∨ word = "DESC") :
      Text.Twin tailWords word word ∧ endsWord word := by
    obtain rfl | rfl := known <;> exact ⟨twinSame (by decide +kernel), by decide⟩
  have space : Spacer tailWords [' '] := spacerOf (by decide +kernel)
  unfold orderTerm at ok ⊢
  extract_lets given unknown at ok
  simp only [random, twin.dialect]
  split at ok
  · rename_i asked
    rw [if_pos asked]
    split at ok
    · rename_i nothing
      cases ok
      exact ⟨q.dialect.randomFunction, if_pos nothing, q.dialect.randomTwin, q.dialect.randomEnds⟩
    · contradiction
  · rename_i named
    rw [if_neg named]
    split at ok
    · rename_i known
      cases ok
      obtain ⟨same, ends⟩ := directed given known
      exact ⟨_, if_pos known, twinBetween space (Ident.renderTwin ρ q.dialect free) same, endsAppendWord _ ends⟩
    · contradiction

theorem joinedTwin (twin : Twin root root' q r) (kind : JoinKind) {table table' condition condition' : Text}
    (tables : Text.Twin tailWords table table') (conditions : Text.Twin tailWords condition condition') :
    Twin root root' (q.joined kind table condition) (r.joined kind table' condition') := by
  have on : Spacer tailWords " ON " := spacerOf (by decide +kernel)
  have whole := twinsOne (twinBetween on (twinAfter kind.sqlLoose tables) conditions)
  exact { twin with joins := twinsAppend twin.joins whole }

theorem wrapTwin (ρ : Renaming) (twin : Twin root root' q r) (name : Text) :
    Text.Twin tailWords (q.dialect.wrap name) (r.dialect.wrap (ρ.map name)) := by
  rw [twin.dialect]
  exact ρ.wrapTwin q.dialect name

theorem onColumnsTwin (ρ : Renaming) (twin : Twin root root' q r) (first : Text) (op : Operator) (second : Text) :
    Text.Twin tailWords (q.onColumns first op second) (r.onColumns (ρ.map first) op (ρ.map second)) := by
  have whole := twinBetween op.spacer (wrapTwin ρ twin first) (wrapTwin ρ twin second)
  rwa [← List.append_assoc, ← List.append_assoc, ← List.append_assoc, ← List.append_assoc] at whole

theorem childRootTwin (fresh : root.Fresh) (fresh' : root'.Fresh) (twin : Twin root root' q r) :
    Twin root root' q.child r.child := by
  have child := childTwin twin
  have clauses (kind : ClauseKind) : Clause.Twin (root.clause kind) (root'.clause kind) (q.child.clause kind)
      (r.child.clause kind) := by
    have same := child.clauses kind
    rw [childFresh q kind, childFresh r kind] at same ⊢
    rwa [fresh kind, fresh' kind]
  exact { child with clauses }

end Query

theorem Call.renameTwin {c : Call} (free : c.RawFree) (keeps : c.Keeps ∨ root.Fresh ∧ root'.Fresh)
    (twin : Query.Twin root root' q r) (ok : c.apply q = .ok next) :
    ∃ next', (c.rename ρ).apply r = .ok next' ∧ Query.Twin root root' next next' := by
  have renders {columns : List Ident} (free : ∀ column ∈ columns, column.RawFree) :
      Twins tailWords (columns.map (Ident.render q.dialect))
        ((columns.map (Ident.rename ρ)).map (Ident.render r.dialect)) := by
    rw [twin.dialect]
    exact Ident.renderTwins ρ q.dialect free
  have render {column : Ident} (free : column.RawFree) :
      Text.Twin tailWords (column.render q.dialect) ((column.rename ρ).render r.dialect) := by
    rw [twin.dialect]
    exact Ident.renderTwin ρ q.dialect free
  cases applyIs ok with
  | test tested =>
    exact Query.testTwin twin (fun pushed => Criterion.pushTwin ρ free (Query.partTwin twin _) pushed) tested
  | testColumns tested => exact Query.testColumnsTwin ρ twin tested
  | select columns => exact ⟨_, rfl, { twin with columns := renders free }⟩
  | addSelect columns => exact ⟨_, rfl, { twin with columns := twinsAppend twin.columns (renders free) }⟩
  | distinct => exact ⟨_, rfl, { twin with distinct := rfl }⟩
  | selectFrom table => exact ⟨_, rfl, { twin with source := twinsOne (render free) }⟩
  | crossJoin table =>
    have table := twinsOne (twinAfter JoinKind.cross.sqlLoose (render free))
    exact ⟨_, rfl, { twin with joins := twinsAppend twin.joins table }⟩
  | @join kind table first operator second op parsed =>
    refine ⟨_, ?_, Query.joinedTwin twin kind (render free) (Query.onColumnsTwin ρ twin first op second)⟩
    rw [rename, apply, parsed, okBind]
    rfl
  | @joinWhere kind table first operator operand op parsed single =>
    have condition := twinBetween op.spacer (Query.wrapTwin ρ twin first) (Arg.placeholderTwin free.2)
    rw [← List.append_assoc, ← List.append_assoc, ← List.append_assoc, ← List.append_assoc] at condition
    have both := Query.joinedTwin twin kind (render free.1) condition
    refine ⟨r.joinWhere kind (table.rename ρ) (ρ.map first) op operand, ?_, { both with }⟩
    rw [rename, apply, parsed, okBind, single, okBind]
  | groupBy columns => exact ⟨_, rfl, { twin with groups := twinsAppend twin.groups (renders free) }⟩
  | orderBy written =>
    obtain ⟨term', written', terms, ends⟩ := Query.orderTermTwin ρ twin free written
    refine ⟨_, by rw [rename, apply, written', okBind], ?_⟩
    exact { twin with tail := Tail.addOrderTwin twin.tail terms ends }
  | orderRandom =>
    have function : Text.Twin tailWords q.dialect.randomFunction r.dialect.randomFunction := by
      rw [twin.dialect]
      exact q.dialect.randomTwin
    exact ⟨_, rfl, { twin with tail := Tail.addOrderTwin twin.tail function q.dialect.randomEnds }⟩
  | limit n => exact ⟨_, rfl, { twin with tail := { twin.tail with limit := rfl } }⟩
  | offset n => exact ⟨_, rfl, { twin with tail := { twin.tail with offset := rfl } }⟩
  | unionOrderBy written =>
    obtain ⟨term', written', terms, ends⟩ := Query.orderTermTwin ρ twin free written
    refine ⟨_, by rw [rename, apply, written', okBind], ?_⟩
    exact { twin with unionTail := Tail.addOrderTwin twin.unionTail terms ends }
  | unionLimit n => exact ⟨_, rfl, { twin with unionTail := { twin.unionTail with limit := rfl } }⟩
  | unionOffset n => exact ⟨_, rfl, { twin with unionTail := { twin.unionTail with offset := rfl } }⟩
  | addBinding bucket arg => exact ⟨_, rfl, { twin with }⟩
  | setDialect d => exact ⟨_, rfl, { twin with dialect := rfl }⟩
  | restart =>
    obtain ⟨fresh, fresh'⟩ := keeps.resolve_left id
    exact ⟨_, rfl, Query.childRootTwin fresh fresh' twin⟩
  -- Renamed, a call that only reads is the one that describes the query.
  | showDebug shown | execute ran | describe | listBindings => exact ⟨r, rfl, twin⟩
  | testRaw | selectRaw | fromRaw | groupByRaw | orderByRaw | unionOrderByRaw => cases free

end SelectBuilder
