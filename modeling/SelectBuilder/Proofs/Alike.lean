import SelectBuilder.Program.Step

/-! Programs that differ in their values only. Two arguments are alike when both are NULL, when both are bound,
when they are the same written SQL, or when they are lists whose members are alike. Alike programs are the
same but for alike arguments, whether these are operands, criteria, values of written SQL or bindings. -/
namespace SelectBuilder

namespace Arg

def isBound : Arg → Bool
  | .value .null => false
  | .value _ => true
  | .lazy _ => true
  | .raw _ => false
  | .list _ => false

mutual
inductive Alike : Arg → Arg → Prop
  | null : Alike (.value .null) (.value .null)
  | bound {a b : Arg} (left : a.isBound) (right : b.isBound) : Alike a b
  | raw (sql : Text) : Alike (.raw sql) (.raw sql)
  | list {a b : List Arg} (items : AllAlike a b) : Alike (.list a) (.list b)

inductive AllAlike : List Arg → List Arg → Prop
  | nil : AllAlike [] []
  | cons {a b : Arg} {as bs : List Arg} (first : Alike a b) (rest : AllAlike as bs) : AllAlike (a :: as) (b :: bs)
end

end Arg

namespace Criterion

mutual
inductive Alike : Criterion → Criterion → Prop
  | leaf (column : Ident) (operator : Text) {a b : Arg} (operand : a.Alike b) (c : Connective) :
      Alike (.leaf column operator a c) (.leaf column operator b c)
  | nest {as bs : List Criterion} (items : AllAlike as bs) (operator : Text) {a b : Arg} (operand : a.Alike b)
      (c : Connective) : Alike (.nest as operator a c) (.nest bs operator b c)

inductive AllAlike : List Criterion → List Criterion → Prop
  | nil : AllAlike [] []
  | cons {a b : Criterion} {as bs : List Criterion} (first : Alike a b) (rest : AllAlike as bs) :
      AllAlike (a :: as) (b :: bs)
end

end Criterion

inductive Column.Alike : Column → Column → Prop
  | ident (name : Ident) : Alike (.ident name) (.ident name)
  | criteria {as bs : List Criterion} (items : Criterion.AllAlike as bs) : Alike (.criteria as) (.criteria bs)

inductive Call.Alike : Call → Call → Prop
  | same (c : Call) : Alike c c
  | test (kind : ClauseKind) {a b : Criterion} (item : a.Alike b) : Alike (.test kind a) (.test kind b)
  | testRaw (kind : ClauseKind) (sql : Text) {a b : List Arg} (args : Arg.AllAlike a b) (c : Connective) :
      Alike (.testRaw kind sql a c) (.testRaw kind sql b c)
  | selectRaw (sql : Text) {a b : List Arg} (args : Arg.AllAlike a b) : Alike (.selectRaw sql a) (.selectRaw sql b)
  | fromRaw (sql : Text) {a b : List Arg} (args : Arg.AllAlike a b) : Alike (.fromRaw sql a) (.fromRaw sql b)
  | joinWhere (kind : JoinKind) (table : Ident) (first operator : Text) {a b : Arg} (operand : a.Alike b) :
      Alike (.joinWhere kind table first operator a) (.joinWhere kind table first operator b)
  | groupByRaw (sql : Text) {a b : List Arg} (args : Arg.AllAlike a b) : Alike (.groupByRaw sql a) (.groupByRaw sql b)
  | orderByRaw (sql : Text) {a b : List Arg} (args : Arg.AllAlike a b) : Alike (.orderByRaw sql a) (.orderByRaw sql b)
  | unionOrderByRaw (sql : Text) {a b : List Arg} (args : Arg.AllAlike a b) :
      Alike (.unionOrderByRaw sql a) (.unionOrderByRaw sql b)
  | addBinding (bucket : Bucket) {a b : Arg} (arg : a.Alike b) : Alike (.addBinding bucket a) (.addBinding bucket b)

inductive Nest.Alike : Nest → Nest → Prop
  | same (n : Nest) : Alike n n
  | valueSub (kind : ClauseKind) {a b : Column} (column : a.Alike b) (operator : Text) (c : Connective) :
      Alike (.valueSub kind a operator c) (.valueSub kind b operator c)
  | columnSub (kind : ClauseKind) (operator : Text) {a b : Arg} (operand : a.Alike b) (c : Connective) :
      Alike (.columnSub kind operator a c) (.columnSub kind operator b c)

namespace Step

mutual
inductive Alike : Step → Step → Prop
  | call {a b : Call} (calls : a.Alike b) : Alike (.call a) (.call b)
  | nest {m n : Nest} (nests : m.Alike n) {as bs : List Step} (body : AllAlike as bs) : Alike (.nest m as) (.nest n bs)
  | attempt {a b : Step} (step : Alike a b) : Alike (.attempt a) (.attempt b)

inductive AllAlike : List Step → List Step → Prop
  | nil : AllAlike [] []
  | cons {a b : Step} {as bs : List Step} (first : Alike a b) (rest : AllAlike as bs) : AllAlike (a :: as) (b :: bs)
end

end Step

/-! What is bound may differ, but not how much of it. -/

inductive Predicate.Alike : Predicate → Predicate → Prop
  | intro (text : Text) {a b : List Arg} (size : a.length = b.length) : Alike ⟨text, a⟩ ⟨text, b⟩

inductive Section.Alike : Section → Section → Prop
  | intro (clause : Clause) {a b : List Arg} (size : a.length = b.length) : Alike ⟨clause, a⟩ ⟨clause, b⟩

def Bindings.Alike (a b : Bindings) : Prop := ∀ bucket, (a.get bucket).length = (b.get bucket).length

inductive Query.Alike (q : Query) : Query → Prop
  | intro (bindings : Bindings) (sizes : q.bindings.Alike bindings) : Alike q { q with bindings }

inductive Together {α β : Type} (R : α → β → Prop) : Except Fault α → Except Fault β → Prop
  | ok {a : α} {b : β} (answers : R a b) : Together R (.ok a) (.ok b)
  | error (fault : Fault) : Together R (.error fault) (.error fault)

theorem togetherBind {α β γ δ : Type} {R : α → β → Prop} {S : γ → δ → Prop} {x : Except Fault α} {y : Except Fault β}
    {f : α → Except Fault γ} {g : β → Except Fault δ} (first : Together R x y)
    (later : ∀ a b, R a b → Together S (f a) (g b)) : Together S (x >>= f) (y >>= g) := by
  cases first with
  | ok answers => exact later _ _ answers
  | error fault => exact .error fault

theorem togetherSame {α : Type} (x : Except Fault α) : Together Eq x x := by
  cases x with
  | ok a => exact .ok rfl
  | error fault => exact .error fault

namespace Arg

mutual
theorem alikeRefl : (a : Arg) → Alike a a
  | .value .null => .null
  | .value (.bool _) | .value (.int _) | .value (.nat _) | .value (.float _) | .value (.text _)
  | .value (.bytes _) | .value (.moment _) => .bound rfl rfl
  | .lazy _ => .bound rfl rfl
  | .raw sql => .raw sql
  | .list items => .list (allAlikeRefl items)

theorem allAlikeRefl : (items : List Arg) → AllAlike items items
  | [] => .nil
  | a :: rest => .cons (alikeRefl a) (allAlikeRefl rest)
end

theorem boundPlaceholder {a : Arg} (bound : a.isBound) : a.placeholder = ['?'] := by
  cases a <;> first | rfl | cases bound

theorem boundLeaves {a : Arg} (bound : a.isBound) : a.leaves.length = 1 := by
  cases a <;> first | rfl | cases bound

mutual
theorem alikePlaceholder {a b : Arg} (alike : Alike a b) : a.placeholder = b.placeholder := by
  cases alike with
  | null => rfl
  | bound left right => rw [boundPlaceholder left, boundPlaceholder right]
  | raw sql => rfl
  | list items => simp only [placeholder, alikePlaceholders items]

theorem alikePlaceholders {a b : List Arg} (alike : AllAlike a b) : placeholders a = placeholders b := by
  cases alike with
  | nil => rfl
  | cons first rest => simp only [placeholders, alikePlaceholder first, alikePlaceholders rest]
end

mutual
theorem alikeLeaves {a b : Arg} (alike : Alike a b) : a.leaves.length = b.leaves.length := by
  cases alike with
  | null => rfl
  | bound left right => rw [boundLeaves left, boundLeaves right]
  | raw sql => rfl
  | list items => exact alikeLeavesOf items

theorem alikeLeavesOf {a b : List Arg} (alike : AllAlike a b) : (leavesOf a).length = (leavesOf b).length := by
  cases alike with
  | nil => rfl
  | cons first rest => simp only [leavesOf, List.length_append, alikeLeaves first, alikeLeavesOf rest]
end

theorem alikeLength {a b : List Arg} (alike : AllAlike a b) : a.length = b.length := by
  cases alike with
  | nil => rfl
  | cons first rest => simp only [List.length_cons, alikeLength rest]

theorem alikeIsNull {a b : Arg} (alike : Alike a b) : a.isNull = b.isNull := by
  have notNull {a : Arg} (bound : a.isBound) : a.isNull = false := by
    cases a with
    | value v => cases v <;> first | rfl | cases bound
    | _ => rfl
  cases alike with
  | null => rfl
  | bound left right => rw [notNull left, notNull right]
  | raw sql => rfl
  | list items => rfl

end Arg

namespace Predicate

theorem infixedAlike (column : Text) (op : Operator) {shown shown' : Text} {a b : List Arg} (text : shown = shown')
    (size : a.length = b.length) : Alike (infixed column op shown a) (infixed column op shown' b) := by
  subst text
  exact .intro _ size

theorem onNullAlike (column : Text) (op : Operator) : Together Alike (onNull column op) (onNull column op) := by
  unfold onNull
  cases op.nullForm with
  | some form => exact .ok (.intro _ rfl)
  | none => exact .error _

theorem onRangeAlike (column : Text) (op : Operator) {a b : Arg} (alike : a.Alike b) :
    Together Alike (onRange column op a) (onRange column op b) := by
  have single {a : Arg} (bound : a.isBound) : onRange column op a = .error (.betweenCount column 1) := by
    cases a <;> first | rfl | cases bound
  cases alike with
  | null => exact .error _
  | bound left right =>
    rw [single left, single right]
    exact .error _
  | raw sql => exact .error _
  | list items =>
    have shown := Arg.alikePlaceholders items
    have size := Arg.alikeLeavesOf items
    have count := Arg.alikeLength items
    cases items with
    | nil => exact .error _
    | cons low rest =>
      cases rest with
      | nil => exact .error _
      | cons high rest =>
        cases rest with
        | nil =>
          apply Together.ok
          apply infixedAlike column op _ size
          rw [Arg.alikePlaceholder low, Arg.alikePlaceholder high]
        | cons _ _ =>
          simp only [onRange, count]
          exact .error _

theorem onListAlike (column : Text) (op : Operator) {a b : Arg} (alike : a.Alike b) :
    Together Alike (onList column op a) (onList column op b) := by
  have single {a : Arg} (bound : a.isBound) : onList column op a = .error (.inOperand column) := by
    cases a <;> first | rfl | cases bound
  cases alike with
  | null => exact .error _
  | bound left right =>
    rw [single left, single right]
    exact .error _
  | raw sql => exact .ok (.intro _ rfl)
  | list items =>
    have shown := Arg.alikePlaceholders items
    have size := Arg.alikeLeavesOf items
    cases items with
    | nil => exact .error _
    | cons _ _ => exact .ok (infixedAlike column op (by rw [shown]) size)

theorem onSingleAlike (column : Text) (op : Operator) {a b : Arg} (alike : a.Alike b) :
    Together Alike (onSingle column op a) (onSingle column op b) := by
  have single {a : Arg} (bound : a.isBound) :
      onSingle column op a = .ok (infixed column op a.placeholder a.leaves) := by
    cases a <;> first | rfl | cases bound
  have written : Alike (infixed column op a.placeholder a.leaves) (infixed column op b.placeholder b.leaves) :=
    infixedAlike column op (Arg.alikePlaceholder alike) (Arg.alikeLeaves alike)
  cases alike with
  | null => exact .ok written
  | bound left right =>
    rw [single left, single right]
    exact .ok written
  | raw sql => exact .ok written
  | list items => exact .error _

theorem compareAlike (column : Text) (op : Operator) {a b : Arg} (alike : a.Alike b) :
    Together Alike (compare column op a) (compare column op b) := by
  unfold compare
  rw [Arg.alikeIsNull alike]
  split
  · exact onNullAlike column op
  · split
    · exact onRangeAlike column op alike
    · split
      · exact onListAlike column op alike
      · exact onSingleAlike column op alike

end Predicate

namespace Section

theorem addAlike {s t : Section} (same : s.Alike t) (keyword : Text) (c : Connective) {p p' : Predicate}
    (predicates : p.Alike p') : (s.add keyword c p).Alike (t.add keyword c p') := by
  obtain ⟨clause, bound⟩ := same
  obtain ⟨text, size⟩ := predicates
  exact .intro _ (by simp only [List.length_append, bound, size])

theorem openGroupAlike {s t : Section} (same : s.Alike t) (keyword : Text) (c : Connective) :
    (s.openGroup keyword c).Alike (t.openGroup keyword c) := by
  obtain ⟨clause, bound⟩ := same
  exact .intro _ bound

theorem closeGroupAlike (keyword : Text) (c : Connective) {s t inner inner' : Section} (outer : s.Alike t)
    (within : inner.Alike inner') :
    Together Alike (s.closeGroup keyword c inner) (t.closeGroup keyword c inner') := by
  obtain ⟨clause, bound⟩ := outer
  obtain ⟨closing, size⟩ := within
  refine togetherBind (togetherSame _) ?_
  intro a b answers
  subst answers
  exact .ok (.intro _ size)

end Section

namespace Criterion

mutual
theorem alikeRefl (item : Criterion) : Alike item item := by
  cases item with
  | leaf column operator operand c => exact .leaf column operator (Arg.alikeRefl operand) c
  | nest items operator operand c => exact .nest (allAlikeRefl items) operator (Arg.alikeRefl operand) c

theorem allAlikeRefl (items : List Criterion) : AllAlike items items := by
  cases items with
  | nil => exact .nil
  | cons item rest => exact .cons (alikeRefl item) (allAlikeRefl rest)
end

theorem isNoOperandAlike {a b : Arg} (alike : a.Alike b) : isNoOperand a = isNoOperand b := by
  have bound {a : Arg} (bound : a.isBound) : isNoOperand a = false := by
    cases a <;> first | rfl | cases bound
  cases alike with
  | null => rfl
  | bound left right => rw [bound left, bound right]
  | raw sql => rfl
  | list items => cases items <;> rfl

theorem isEmptyAlike {a b : List Criterion} (alike : AllAlike a b) : a.isEmpty = b.isEmpty := by
  cases alike <;> rfl

mutual
theorem pushAlike (d : Dialect) (keyword : Text) {a b : Criterion} (alike : Alike a b) {s t : Section}
    (same : s.Alike t) : Together Section.Alike (a.push d keyword s) (b.push d keyword t) := by
  cases alike with
  | leaf column operator operand c =>
    refine togetherBind (togetherSame _) ?_
    intro op _ rfl
    refine togetherBind (Predicate.compareAlike _ op operand) ?_
    intro p p' predicates
    exact .ok (Section.addAlike same keyword c predicates)
  | nest items operator operand c =>
    refine togetherBind (togetherSame _) ?_
    intro op _ rfl
    rw [isNoOperandAlike operand, isEmptyAlike items]
    split
    · split
      · exact .ok same
      · refine togetherBind (pushAllAlike d keyword items (Section.openGroupAlike same keyword c)) ?_
        intro inner inner' within
        exact Section.closeGroupAlike keyword c same within
    · exact .error _

theorem pushAllAlike (d : Dialect) (keyword : Text) {a b : List Criterion} (alike : AllAlike a b) {s t : Section}
    (same : s.Alike t) : Together Section.Alike (pushAll d keyword a s) (pushAll d keyword b t) := by
  cases alike with
  | nil => exact .ok same
  | cons first rest =>
    refine togetherBind (pushAlike d keyword first same) ?_
    intro s t same
    exact pushAllAlike d keyword rest same
end

end Criterion

theorem Column.alikeRefl (column : Column) : column.Alike column := by
  cases column with
  | ident name => exact .ident name
  | criteria items => exact .criteria (Criterion.allAlikeRefl items)

theorem Criterion.testAlike {a b : Column} (columns : a.Alike b) (operator : Text) {operand operand' : Arg}
    (operands : operand.Alike operand') (c : Connective) :
    Alike (test a operator operand c) (test b operator operand' c) := by
  cases columns with
  | ident name => exact .leaf name operator operands c
  | criteria items => exact .nest items operator operands c

end SelectBuilder
