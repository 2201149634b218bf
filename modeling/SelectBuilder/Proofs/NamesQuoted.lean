import SelectBuilder.Proofs.Erasure
import SelectBuilder.Proofs.Renaming

/-! Names never leave their quotes. Every step takes twins to twins, so a program that writes no SQL of its own makes
the same statement outside quotes whatever its names are, as long as their shapes are kept. Reading that statement
ends outside quotes, its words are the builder's, and its parentheses are balanced. -/
namespace SelectBuilder
open Text

variable {ρ : Renaming} {root root' q r next : Query}

/-! Calls with a callback. -/

theorem Nest.requireNameTwin (ρ : Renaming) {name : Text} (ok : requireName name = .ok ()) :
    requireName (ρ.map name) = .ok () := by
  unfold requireName at ok ⊢
  simpa only [ρ.blank name] using ok

namespace Query

variable {inner inner' : Query}

theorem enclosedTwin {begun begun' : Query} (fresh : begun.Fresh) (fresh' : begun'.Fresh)
    (inside : Twin begun begun' inner inner') : Text.Twin tailWords inner.enclosed inner'.enclosed :=
  twinEnclosed (by decide) (twinAny (compileTwin fresh fresh' inside))

theorem enclosedEnds (q : Query) : q.enclosed.getLast? ≠ some '(' := by
  have bracket : Text.Settled [')'] := by decide
  exact (Clause.settledAppend (['('] ++ q.compile) bracket).2

theorem namedTwin (ρ : Renaming) (twin : Twin root root' q r)
    (enclosed : Text.Twin tailWords inner.enclosed inner'.enclosed) (name : Text) :
    Text.Twin tailWords (q.named inner name) (r.named inner' (ρ.map name)) :=
  twinBetween (spacerOf (by decide +kernel)) enclosed (wrapTwin ρ twin name)

theorem openGroupTwin (twin : Twin root root' q r) (kind : ClauseKind) (c : Connective) :
    Twin (q.openGroup kind c) (r.openGroup kind c) (q.openGroup kind c) (r.openGroup kind c) := by
  have self := twinSelf twin
  have clause := Clause.groupTwin kind c (self.clauses kind)
  have all (other : ClauseKind) : Clause.Twin ((q.openGroup kind c).clause other) ((r.openGroup kind c).clause other)
      ((q.openGroup kind c).clause other) ((r.openGroup kind c).clause other) := by
    by_cases same : other = kind
    · subst same
      cases other <;> exact clause
    · rw [clauseOpenGroupOther q same, clauseOpenGroupOther r same]
      exact self.clauses other
  cases kind <;> exact { self with clauses := all }

theorem closeGroupTwin (twin : Twin root root' q r) {kind : ClauseKind} {c : Connective}
    (inside : Twin (q.openGroup kind c) (r.openGroup kind c) inner inner')
    (ok : q.closeGroup kind c inner = .ok next) :
    ∃ next', r.closeGroup kind c inner' = .ok next' ∧ Twin root root' next next' := by
  obtain ⟨clause, closed, last⟩ := bindIsOk ok
  cases last
  have within := inside.clauses kind
  rw [clauseOpenGroup, clauseOpenGroup] at within
  obtain ⟨clause', closed', both⟩ := Clause.closeGroupTwin kind c (twin.clauses kind) within closed
  refine ⟨inner'.withClause kind clause', ?_, ?_⟩
  · rw [closeGroup, closed', okBind]
  · have all (other : ClauseKind) : Clause.Twin (root.clause other) (root'.clause other)
        ((inner.withClause kind clause).clause other) ((inner'.withClause kind clause').clause other) := by
      by_cases same : other = kind
      · subst same
        rwa [clauseWithClause, clauseWithClause]
      · have later := inside.clauses other
        rw [clauseOpenGroupOther q same, clauseOpenGroupOther r same] at later
        rw [clauseWithOther _ same, clauseWithOther _ same]
        exact Clause.twinTrans (twin.clauses other) later
    cases kind <;> exact { inside with clauses := all }

end Query

namespace Nest

variable {inner inner' : Query}

theorem openedTwin (ρ : Renaming) {n : Nest} (kept : n.isKept) (twin : Query.Twin root root' q r) :
    Query.Twin (n.opened q) ((n.rename ρ).opened r) (n.opened q) ((n.rename ρ).opened r) := by
  cases n with
  | group kind c => exact Query.openGroupTwin twin kind c
  | copy => contradiction
  | _ => exact Query.childTwin twin

theorem enterTwin (ρ : Renaming) {n : Nest} {begun : Query} (entered : n.enter q = .ok begun) (r : Query) :
    (n.rename ρ).enter r = .ok ((n.rename ρ).opened r) := by
  cases n with
  | valueSub kind column operator c =>
    obtain ⟨op, parsed, last⟩ := bindIsOk entered
    split at last
    · contradiction
    · rename_i single
      simp only [rename, enter, parsed, okBind, if_neg single]
      rfl
  | columnSub kind operator operand c =>
    obtain ⟨op, parsed, _⟩ := bindIsOk entered
    simp only [rename, enter, parsed, okBind]
    rfl
  | selectSub name =>
    obtain ⟨_, ok, _⟩ := bindIsOk entered
    simp only [rename, enter, requireNameTwin ρ ok, okBind]
    rfl
  | fromSub name =>
    obtain ⟨_, ok, _⟩ := bindIsOk entered
    simp only [rename, enter, requireNameTwin ρ ok, okBind]
    rfl
  | joinSub kind name first operator second =>
    obtain ⟨_, ok, rest⟩ := bindIsOk entered
    obtain ⟨op, parsed, _⟩ := bindIsOk rest
    simp only [rename, enter, requireNameTwin ρ ok, okBind, parsed]
    rfl
  | _ => rfl

theorem leaveTwin {n : Nest} {keeps : Prop} (free : n.RawFree keeps) (twin : Query.Twin root root' q r)
    (inside : Query.Twin (n.opened q) ((n.rename ρ).opened r) inner inner') (kept : n.isKept)
    (ok : n.leave q inner = .ok next) :
    ∃ next', (n.rename ρ).leave r inner' = .ok next' ∧ Query.Twin root root' next next' := by
  have enclosed (inside : Query.Twin q.child r.child inner inner') :
      Text.Twin tailWords inner.enclosed inner'.enclosed :=
    Query.enclosedTwin q.childFresh r.childFresh inside
  have ends := And.intro inner.enclosedEnds inner'.enclosedEnds
  have absorbed (b : Bucket) : Query.Twin root root' (q.absorb b inner) (r.absorb b inner') := { twin with }
  cases leaveIs ok with
  | group closed => exact Query.closeGroupTwin twin inside closed
  | existence kind c =>
    have predicate : Predicate.Twin (.raw inner.enclosed []) (.raw inner'.enclosed []) :=
      ⟨enclosed inside, ⟨by simp [Predicate.raw, Query.enclosed], ends.1⟩,
        ⟨by simp [Predicate.raw, Query.enclosed], ends.2⟩⟩
    exact ⟨_, rfl, Query.withPartTwin (absorbed _) kind
      (Clause.termTwin kind c.exist (Query.partTwin (absorbed _) kind) predicate)⟩
  | valueSub tested =>
    have operand : (Arg.raw inner.enclosed).Twin (.raw inner'.enclosed) := .raw (enclosed inside) ends
    refine Query.testTwin (absorbed _) ?_ tested
    exact fun pushed => Criterion.leafTwin (Ident.renderTwin ρ _ free) operand (Query.partTwin (absorbed _) _) pushed
  | columnSub tested =>
    have column : Text.Twin tailWords ((Ident.raw inner.enclosed).render q.dialect)
        ((Ident.raw inner'.enclosed).render q.dialect) := enclosed inside
    refine Query.testTwin (absorbed _) ?_ tested
    exact fun pushed => Criterion.leafTwin column (.same free) (Query.partTwin (absorbed _) _) pushed
  | selectSub name =>
    have named := Query.namedTwin ρ twin (enclosed inside) name
    exact ⟨_, rfl, { twin with columns := twinsAppend twin.columns (twinsOne named) }⟩
  | fromSub name =>
    have named := Query.namedTwin ρ twin (enclosed inside) name
    exact ⟨_, rfl, { twin with source := twinsOne named }⟩
  | @joinSub kind name first operator second op parsed =>
    have named := Query.namedTwin ρ twin (enclosed inside) name
    have both := Query.joinedTwin twin kind named (Query.onColumnsTwin ρ twin first op second)
    refine ⟨r.joinSub kind (ρ.map name) (ρ.map first) op (ρ.map second) inner', ?_, { both with }⟩
    rw [rename, leave, parsed, okBind]
  | union all =>
    have part : UnionPart.Twin ⟨all, inner.compile, inner.isClosed⟩ ⟨all, inner'.compile, inner'.isClosed⟩ :=
      ⟨rfl, Query.closedTwin inside, Query.compileTwin q.childFresh r.childFresh inside⟩
    exact ⟨_, rfl, { twin with unions := List.rel_append twin.unions (.cons part .nil) }⟩
  | copy => contradiction
  | child => contradiction

end Nest

namespace Step

mutual
theorem renameTwin (ρ : Renaming) {s : Step} (free : s.RawFree) (sure : s.AttemptsNothing) {root root' q r next : Query}
    (keeps : s.Keeps ∨ root.Fresh ∧ root'.Fresh) (twin : Query.Twin root root' q r) (ok : s.apply q = .ok next) :
    ∃ next', (s.rename ρ).apply r = .ok next' ∧ Query.Twin root root' next next' := by
  cases s with
  | call c => exact Call.renameTwin free keeps twin ok
  | nest n body =>
    obtain ⟨inner, entered, worked, left⟩ := Nest.runIs ok
    rw [rename]
    split
    · rename_i kept
      have inside : AllKeep body ∨ (n.opened q).Fresh ∧ ((n.rename ρ).opened r).Fresh := by
        cases n with
        | group kind c => exact .inl free.1
        | copy => contradiction
        | _ => exact .inr ⟨q.childFresh, r.childFresh⟩
      obtain ⟨inner', worked', within⟩ := renameAllTwin ρ free.2 sure inside (Nest.openedTwin ρ kept twin) worked
      obtain ⟨next', left', last⟩ := Nest.leaveTwin free.1 twin within kept left
      refine ⟨next', ?_, last⟩
      rw [apply, Nest.run, Nest.enterTwin ρ entered, okBind, worked', okBind, left']
    · rename_i dropped
      have same : next = q := by
        cases n with
        | copy => exact (Except.ok.inj left).symm
        | child => exact (Except.ok.inj left).symm
        | _ => exact absurd rfl dropped
      exact ⟨r, rfl, same ▸ twin⟩
  | attempt s => cases sure

theorem renameAllTwin (ρ : Renaming) {body : List Step} (free : AllRawFree body) (sure : AllAttemptNothing body)
    {root root' q r next : Query} (keeps : AllKeep body ∨ root.Fresh ∧ root'.Fresh)
    (twin : Query.Twin root root' q r) (ok : applyAll body q = .ok next) :
    ∃ next', applyAll (renameAll ρ body) r = .ok next' ∧ Query.Twin root root' next next' := by
  cases body with
  | nil =>
    cases ok
    exact ⟨r, rfl, twin⟩
  | cons s rest =>
    obtain ⟨middle, first, later⟩ := bindIsOk ok
    obtain ⟨middle', first', both⟩ := renameTwin ρ free.1 sure.1 (keeps.imp_left And.left) twin first
    obtain ⟨next', later', last⟩ := renameAllTwin ρ free.2 sure.2 (keeps.imp_left And.right) both later
    exact ⟨next', by rw [renameAll, applyAll, first', okBind, later'], last⟩
end

/-! The steps that are carried out are steps of the program. -/

mutual
theorem eraseKeeps {s : Step} (keeps : s.Keeps) (q : Query) : AllKeep (erase s q) := by
  have nothing : AllKeep [] := trivial
  cases s with
  | call c =>
    have one : AllKeep [.call c] := ⟨keeps, trivial⟩
    rw [erase]
    exact ifCarriedOutHolds one nothing _ q
  | nest n body =>
    rw [erase]
    refine ifCarriedOutHolds ?_ nothing _ q
    cases n.enter q with
    | error fault => exact nothing
    | ok begun =>
      have kept : n.Keeps (AllKeep (eraseAll body begun)) := by
        cases n with
        | group kind c => exact eraseAllKeep keeps begun
        | _ => trivial
      exact ⟨kept, trivial⟩
  | attempt s => exact eraseKeeps (s := s) keeps q

theorem eraseAllKeep {body : List Step} (keeps : AllKeep body) (q : Query) : AllKeep (eraseAll body q) := by
  cases body with
  | nil => trivial
  | cons s rest => exact allHoldAppend (eraseKeeps keeps.1 q) (eraseAllKeep keeps.2 (s.next q))
end

mutual
theorem eraseRawFree {s : Step} (free : s.RawFree) (q : Query) : AllRawFree (erase s q) := by
  have nothing : AllRawFree [] := trivial
  cases s with
  | call c =>
    have one : AllRawFree [.call c] := ⟨free, trivial⟩
    rw [erase]
    exact ifCarriedOutHolds one nothing _ q
  | nest n body =>
    rw [erase]
    refine ifCarriedOutHolds ?_ nothing _ q
    cases n.enter q with
    | error fault => exact nothing
    | ok begun =>
      have kept : n.RawFree (AllKeep (eraseAll body begun)) := by
        cases n with
        | group kind c => exact eraseAllKeep free.1 begun
        | valueSub kind column operator c => cases column <;> exact free.1
        | _ => exact free.1
      exact ⟨⟨kept, eraseAllRawFree free.2 begun⟩, trivial⟩
  | attempt s => exact eraseRawFree (s := s) free q

theorem eraseAllRawFree {body : List Step} (free : AllRawFree body) (q : Query) : AllRawFree (eraseAll body q) := by
  cases body with
  | nil => trivial
  | cons s rest => exact allHoldAppend (eraseRawFree free.1 q) (eraseAllRawFree free.2 (s.next q))
end

theorem runTwin (ρ : Renaming) {program : Program} (free : AllRawFree program) (d : Dialect) (b : Option Backend) :
    let start : Query := { dialect := d, backend := b }
    ∃ renamed, applyAll (renameAll ρ (eraseAll program start)) start = .ok renamed ∧
      Query.Twin start start (run program start) renamed := by
  intro start
  have fresh : start.Fresh := by
    intro kind
    cases kind <;> rfl
  exact renameAllTwin ρ (eraseAllRawFree free start) (eraseAllAttemptsNothing program start) (.inr ⟨fresh, fresh⟩)
    (Query.blankTwin d b b) (runErase program start)

theorem namesStayQuoted {program : Program} (free : AllRawFree program) (d : Dialect) (b : Option Backend) :
    let start : Query := { dialect := d, backend := b }
    let q := run program start
    q.compile.Closed ∧ (∀ word ∈ q.compile.exposed, word.Known) ∧ (outer q.compile.exposed).isSome ∧
      applyAll (eraseAll program start) start = .ok q ∧
      ∀ ρ : Renaming, ∃ renamed, applyAll (renameAll ρ (eraseAll program start)) start = .ok renamed ∧
        renamed.compile.Closed ∧ renamed.compile.exposed = q.compile.exposed := by
  intro start q
  have fresh : start.Fresh := by
    intro kind
    cases kind <;> rfl
  have texts (ρ : Renaming) : ∃ renamed, applyAll (renameAll ρ (eraseAll program start)) start = .ok renamed ∧
      Text.Twin (hiddenIn q.isClosed) q.compile renamed.compile := by
    obtain ⟨renamed, made, twin⟩ := runTwin ρ free d b
    exact ⟨renamed, made, Query.compileTwin fresh fresh twin⟩
  obtain ⟨_, _, twin⟩ := texts .same
  obtain ⟨known, found, balanced, _⟩ := twin.plain
  refine ⟨twin.closed, known, by simp [balanced], runErase program start, ?_⟩
  intro ρ
  obtain ⟨renamed, made, twin⟩ := texts ρ
  exact ⟨renamed, made, twin.closed', twin.same⟩

theorem namesStayQuotedInSubquery :
    let value (t : Text) : Arg := .value (.text t)
    let child : List Step :=
      [.call (.selectFrom "u\x60 UNION"), .nest (.union true) [.call (.selectFrom "v'")], .call (.limit 2)]
    let program : Program :=
      [.call (.select ["a\x60.\x22b AS c?(", "t.*", "*"]), .call (.selectFrom "x') OR (1=1 as \x60y"),
        .call (.setDialect .postgresql),
        .nest (.group .filter .or)
          [.call (.test .filter (.leaf "AND\x22)" "in" (.list [value "d", value "e"]) .and)),
            .attempt (.call (.test .filter (.leaf "z" "like" (.value .null) .and))),
            .nest (.existence .filter .xor) child],
        .nest (.joinSub .left "n.m" "k" "=" "l;") child, .call (.orderBy "<random>" ""), .call .execute]
    let start : Query := .blank .mysql
    let q := run program start
    AllRawFree program ∧ q.compile.Closed ∧ (∀ word ∈ q.compile.exposed, word.Known) ∧
      (outer q.compile.exposed).isSome ∧ applyAll (eraseAll program start) start = .ok q ∧
      ∀ ρ : Renaming, ∃ renamed, applyAll (renameAll ρ (eraseAll program start)) start = .ok renamed ∧
        renamed.compile.Closed ∧ renamed.compile.exposed = q.compile.exposed := by
  intro value child program start q
  have free : AllRawFree program := by
    simp [program, child, value, AllRawFree, AllKeep, AllHold, Holds, Nest.RawFree, Nest.Keeps, Call.RawFree, Call.Keeps,
      Criterion.RawFree, Ident.RawFree, Arg.RawFree, Arg.AllRawFree]
  exact ⟨free, namesStayQuoted free .mysql none⟩

end Step
end SelectBuilder
