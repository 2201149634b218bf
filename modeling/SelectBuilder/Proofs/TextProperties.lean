import SelectBuilder.Proofs.Retained
import SelectBuilder.Proofs.CollapsedStatements
import SelectBuilder.Proofs.Quotations

/-! Properties of all texts that a query is made of. If words without quotes have a property, alone and in front of a
text that has it, if two texts that do not meet in quotes keep it side by side, and if collapsing white space keeps
it, then every fragment and the statement have it as soon as the names in their quotes and the SQL that callers wrote
have it. What is empty need not have it: a clause before its first predicate, and a list of no values. Such a list
must then not be the upper end of a range. The callback of a group must not begin the query anew: the text it leaves
may then be cut anywhere. -/
namespace SelectBuilder
open Text

structure TextProperty (P : Text → Prop) : Prop where
  plain : ∀ {word : Text}, word.MarkFree → endsWord word → P word
  behind : ∀ {word text : Text}, word.MarkFree → P text → P (word ++ text)
  append : ∀ {a b : Text}, P a → P b → a.bareEnd ∨ b.bareStart → P (a ++ b)
  collapse : ∀ {text : Text}, P text → P (Text.collapse text)

namespace Text

theorem ofNatMarkFree (n : Nat) : (ofNat n).MarkFree := fun c member => (ofNatUnmarked n c member).1

theorem bareStartAppend {word : Text} (free : word.MarkFree ∧ word ≠ []) (text : Text) : (word ++ text).bareStart := by
  obtain ⟨c, rest, rfl⟩ := List.exists_cons_of_ne_nil free.2
  simp [bareStart, free.1 c List.mem_cons_self]

end Text

namespace TextProperty
variable {P : Text → Prop} (property : TextProperty P)
include property

theorem before {word text : Text} (holds : P text) (free : word.MarkFree) (ends : endsWord word) : P (text ++ word) :=
  property.append holds (property.plain free ends) (.inr (markFreeStart free))

theorem between {a b : Text} (left : a = [] ∨ P a) {word : Text} (free : word.MarkFree ∧ word ≠ []) (right : P b) :
    P (a ++ word ++ b) := by
  have later : P (word ++ b) := property.behind free.1 right
  rw [List.append_assoc]
  rcases left with rfl | holds
  · exact later
  · exact property.append holds later (.inr (bareStartAppend free b))

theorem enclosed {text : Text} (holds : text = [] ∨ P text) : P (['('] ++ text ++ [')']) := by
  rcases holds with rfl | holds
  · exact property.plain (by decide) (by decide)
  · exact property.before (property.behind (by decide) holds) (by decide) (by decide)

theorem joined {separator : Text} (free : separator.MarkFree ∧ separator ≠ []) {parts : List Text}
    (nonempty : parts ≠ [])
    (all : ∀ part ∈ parts, P part) : P (Text.joined separator parts) := by
  induction parts with
  | nil => contradiction
  | cons part rest ih =>
    obtain ⟨first, later⟩ := List.forall_mem_cons.mp all
    cases rest with
    | nil => simpa [Text.joined] using first
    | cons next rest =>
      rw [joinedCons separator part (by simp)]
      exact property.between (.inr first) free (ih (by simp) later)

theorem listed {separator : Text} (free : separator.MarkFree) (ends : endsWord separator) {parts : List Text}
    (all : ∀ part ∈ parts, part = [] ∨ P part) : Text.joined separator parts = [] ∨ P (Text.joined separator parts) := by
  have solid : separator ≠ [] := by
    rintro rfl
    contradiction
  induction parts with
  | nil => exact .inl rfl
  | cons part rest ih =>
    obtain ⟨first, later⟩ := List.forall_mem_cons.mp all
    cases rest with
    | nil => simpa [Text.joined] using first
    | cons next rest =>
      rw [joinedCons separator part (by simp)]
      rcases ih later with nothing | others
      · have alone : P (part ++ separator) := by
          rcases first with rfl | holds
          · exact property.plain free ends
          · exact property.before holds free ends
        rw [nothing, List.append_nil]
        exact .inr alone
      · exact .inr (property.between first ⟨free, solid⟩ others)

end TextProperty

theorem Connective.sqlPlain (c : Connective) :
    (c.sql.MarkFree ∧ endsWord c.sql) ∧ ∀ word ∈ c.modifiers.toList, word.MarkFree ∧ endsWord word := by
  obtain ⟨logic, negated, existential⟩ := c
  cases logic <;> cases negated <;> cases existential <;> decide

theorem ClauseKind.keywordPlain (kind : ClauseKind) : kind.keyword.MarkFree ∧ endsWord kind.keyword := by
  cases kind <;> decide

theorem Dialect.randomPlain (d : Dialect) : d.randomFunction.MarkFree ∧ endsWord d.randomFunction := by
  cases d <;> decide

theorem Query.selectMarkFree (q : Query) :
    MarkFree (if q.distinct then "SELECT DISTINCT " else "SELECT " : String).toList := by
  cases q.distinct <;> decide

theorem Query.unionKeywordPlain (all : Bool) : (unionKeyword all).MarkFree ∧ endsWord (unionKeyword all) := by
  cases all <;> decide

/-! What is asked of a program: the property for its names, in every dialect, and for its SQL. -/

section
variable (P : Text → Prop)

def Dialect.Names (name : Text) : Prop := ∀ d : Dialect, P (d.wrap name)

def Ident.Made : Ident → Prop
  | .name text => Dialect.Names P text
  | .raw sql => P sql

mutual
def Arg.Made : Arg → Prop
  | .raw sql => P sql
  | .list items => AllMade items
  | _ => True

def Arg.AllMade : List Arg → Prop
  | [] => True
  | arg :: rest => Made arg ∧ AllMade rest
end

mutual
def Criterion.Made : Criterion → Prop
  | .leaf column _ operand _ => column.Made P ∧ operand.Made P
  | .nest items _ _ _ => AllMade items

def Criterion.AllMade : List Criterion → Prop
  | [] => True
  | item :: rest => Made item ∧ AllMade rest
end

def Column.Made : Column → Prop
  | .ident name => name.Made P
  | .criteria _ => True

def Call.Made : Call → Prop
  | .test _ item => item.Made P
  | .testRaw _ sql _ _ => P sql
  | .testColumns _ first _ second _ => Dialect.Names P first ∧ Dialect.Names P second
  | .select columns => ∀ column ∈ columns, column.Made P
  | .addSelect columns => ∀ column ∈ columns, column.Made P
  | .selectRaw sql _ => P sql
  | .selectFrom table => table.Made P
  | .fromRaw sql _ => P sql
  | .crossJoin table => table.Made P
  | .join _ table first _ second => table.Made P ∧ Dialect.Names P first ∧ Dialect.Names P second
  | .joinWhere _ table first _ operand => table.Made P ∧ Dialect.Names P first ∧ operand.Made P
  | .groupBy columns => ∀ column ∈ columns, column.Made P
  | .groupByRaw sql _ => P sql
  | .orderBy column _ => column.Made P
  | .orderByRaw sql _ => P sql
  | .unionOrderBy column _ => column.Made P
  | .unionOrderByRaw sql _ => P sql
  | _ => True

def Nest.Made (keeps : Prop) : Nest → Prop
  | .group _ _ => keeps
  | .valueSub _ column _ _ => column.Made P
  | .columnSub _ _ operand _ => operand.Made P
  | .selectSub name => Dialect.Names P name
  | .fromSub name => Dialect.Names P name
  | .joinSub _ name first _ second => Dialect.Names P name ∧ Dialect.Names P first ∧ Dialect.Names P second
  | _ => True

def Step.Made : Step → Prop := Holds (Call.Made P) (fun n body inside => n.Made P (AllKeep body) ∧ inside) id

def Step.AllMade : List Step → Prop :=
  AllHold (Call.Made P) (fun n body inside => n.Made P (AllKeep body) ∧ inside) id

end

/-! What is asked for besides where the property does not hold of nothing: an upper end is written for every range. -/

def Arg.RangeEnds (op : Operator) : Arg → Prop
  | .list [_, high] => op.takesRange → high.placeholder ≠ []
  | _ => True

mutual
def Criterion.RangesEnd : Criterion → Prop
  | .leaf _ operator operand _ => ∀ op, Operator.parse operator = .ok op → operand.RangeEnds op
  | .nest items _ _ _ => AllRangesEnd items

def Criterion.AllRangesEnd : List Criterion → Prop
  | [] => True
  | item :: rest => RangesEnd item ∧ AllRangesEnd rest
end

def Call.RangesEnd : Call → Prop
  | .test _ item => item.RangesEnd
  | _ => True

def Nest.RangesEnd : Nest → Prop
  | .columnSub _ operator operand _ => ∀ op, Operator.parse operator = .ok op → operand.RangeEnds op
  | _ => True

def Step.RangesEnd : Step → Prop := Holds Call.RangesEnd (fun n _ inside => n.RangesEnd ∧ inside) id

def Step.AllRangesEnd : List Step → Prop := AllHold Call.RangesEnd (fun n _ inside => n.RangesEnd ∧ inside) id

/-- Every fragment has the property, but for a clause that has nothing yet. -/
def Query.EveryText (P : Text → Prop) (q : Query) : Prop :=
  ∀ b, ∀ text ∈ q.texts b, (text = [] ∧ (b = .filter ∨ b = .having)) ∨ P text

variable {P : Text → Prop}

theorem Ident.renderMade (d : Dialect) {column : Ident} (made : column.Made P) : P (column.render d) := by
  cases column with
  | name text => exact made d
  | raw sql => exact made

mutual
theorem Arg.placeholderMade (property : TextProperty P) {arg : Arg} (made : arg.Made P) :
    arg.placeholder = [] ∨ P arg.placeholder := by
  have hole : P ['?'] := property.plain (by decide) (by decide)
  cases arg with
  | value v => exact .inr hole
  | «lazy» outcome => exact .inr hole
  | raw sql => exact .inr made
  | list items => exact property.listed (by decide) (by decide) (Arg.placeholdersMade property made)

theorem Arg.placeholdersMade (property : TextProperty P) {items : List Arg} (made : Arg.AllMade P items) :
    ∀ part ∈ Arg.placeholders items, part = [] ∨ P part := by
  cases items with
  | nil => exact nofun
  | cons arg rest =>
    exact List.forall_mem_cons.mpr ⟨Arg.placeholderMade property made.1, Arg.placeholdersMade property made.2⟩
end

section
variable (property : TextProperty P)
include property

theorem Arg.singleMade {arg : Arg} (made : arg.Made P) (alone : ∀ items, arg ≠ .list items) : P arg.placeholder := by
  have hole : P ['?'] := property.plain (by decide) (by decide)
  cases arg with
  | raw sql => exact made
  | list items => exact absurd rfl (alone items)
  | _ => exact hole

namespace Predicate

theorem infixedMade {column shown : Text} (op : Operator) (left : P column) (right : P shown) (bound : List Arg) :
    P (infixed column op shown bound).text := by
  have words : MarkFree ([' '] ++ op.sql ++ [' ']) := by cases op <;> decide
  have whole := property.between (.inr left) ⟨words, by simp⟩ right
  simpa [infixed] using whole

theorem compareMade {column : Text} {op : Operator} {operand : Arg} {p : Predicate}
    (ok : compare column op operand = .ok p) (left : P column) (made : operand.Made P)
    (ends : P [] ∨ operand.RangeEnds op) : P p.text := by
  cases compareIs ok with
  | null found => exact infixedMade property _ left (property.plain (by decide) (by decide)) _
  | @range low high ranges =>
    have upper : P high.placeholder := by
      rcases Arg.placeholderMade property made.2.1 with nothing | holds
      · rcases ends with empty | written
        · rwa [nothing]
        · exact absurd nothing (written ranges)
      · exact holds
    have bounds : P (low.placeholder ++ " AND " ++ high.placeholder) :=
      property.between (Arg.placeholderMade property made.1) (by decide) upper
    exact infixedMade property op left bounds _
  | list lists =>
    have items : Text.joined "," _ = [] ∨ P (Text.joined "," _) :=
      property.listed (by decide) (by decide) (Arg.placeholdersMade property made)
    exact infixedMade property op left (property.enclosed items) _
  | raw lists => exact infixedMade property op left made _
  | single plain given alone => exact infixedMade property op left (Arg.singleMade property made alone) _

end Predicate

namespace Clause

theorem leadMade {clause : Clause} {word : Text} (holds : clause.text = [] ∨ P clause.text) (more : P word) :
    P (clause.lead word) := by
  unfold lead
  rcases holds with nothing | holds
  · simpa [nothing] using more
  · split
    · rename_i start
      refine property.append holds more (.inl ?_)
      rcases start with nothing | opened
      · rw [nothing]
        rfl
      · simp only [bareEnd, opened]
        decide
    · have spaced : P (clause.text ++ [' '] ++ word) := property.between (.inr holds) (by decide) more
      simpa using spaced

theorem openWithMade {clause : Clause} {word : Option Text} (holds : clause.text = [] ∨ P clause.text)
    (plain : ∀ text ∈ word.toList, text.MarkFree ∧ endsWord text) :
    (clause.openWith? word).text = [] ∨ P (clause.openWith? word).text := by
  cases word with
  | none => exact holds
  | some text =>
    obtain ⟨free, ends⟩ := plain text (by simp)
    exact .inr (leadMade property holds (property.plain free ends))

theorem connectMade {clause : Clause} (holds : clause.text = [] ∨ P clause.text) (kind : ClauseKind) (c : Connective) :
    (clause.connect kind.keyword c).text = [] ∨ P (clause.connect kind.keyword c).text := by
  obtain ⟨sql, modifiers⟩ := c.sqlPlain
  obtain ⟨keyword, ends⟩ := kind.keywordPlain
  unfold connect
  split
  · exact openWithMade property (.inr (leadMade property holds (property.plain keyword ends))) modifiers
  · exact openWithMade property holds modifiers
  · exact .inr (leadMade property holds (property.plain sql.1 sql.2))

theorem openGroupMade {clause : Clause} (holds : clause.text = [] ∨ P clause.text) (kind : ClauseKind)
    (c : Connective) :
    P (clause.openGroup kind.keyword c).text :=
  leadMade property (connectMade property holds kind c) (property.plain (by decide) (by decide))

theorem closeGroupMade {kind : ClauseKind} {c : Connective} {outer inner clause : Clause}
    (ok : outer.closeGroup kind.keyword c inner = .ok clause) (holds : outer.text = [] ∨ P outer.text)
    (within : inner.text = [] ∨ P inner.text) (opened : (outer.openGroup kind.keyword c).text <+: inner.text) :
    clause.text = [] ∨ P clause.text := by
  unfold closeGroup at ok
  split at ok
  · rename_i size
    rw [(Text.byteLengthPrefix opened).mp size, openGroupTaken] at ok
    cases ok
    exact holds
  · cases ok
    rcases within with nothing | holds
    · rw [nothing]
      exact .inr (property.plain (by decide) (by decide))
    · exact .inr (property.before holds (by decide) (by decide))

end Clause

theorem Section.addMade {s : Section} (holds : s.clause.text = [] ∨ P s.clause.text) (kind : ClauseKind)
    (c : Connective) {p : Predicate} (made : P p.text) : P (s.add kind.keyword c p).clause.text :=
  Clause.leadMade property (Clause.connectMade property holds kind c) made

end

mutual
theorem Criterion.pushMade (property : TextProperty P) {d : Dialect} {kind : ClauseKind} {item : Criterion}
    {s t : Section}
    (ok : item.push d kind.keyword s = .ok t) (made : item.Made P) (ends : P [] ∨ item.RangesEnd)
    (holds : s.clause.text = [] ∨ P s.clause.text) : t.clause.text = [] ∨ P t.clause.text := by
  cases item with
  | leaf column operator operand c =>
    obtain ⟨op, p, parsed, compared, rfl⟩ := leafPushed ok
    have ends : P [] ∨ operand.RangeEnds op := ends.imp_right fun all => all op parsed
    have predicate := Predicate.compareMade property compared (Ident.renderMade d made.1) made.2 ends
    exact .inr (Section.addMade property holds kind c predicate)
  | nest items operator operand c =>
    obtain ⟨op, _, rest⟩ := bindIsOk ok
    split at rest
    · split at rest
      · cases rest
        exact holds
      · obtain ⟨inner, pushed, closed⟩ := bindIsOk rest
        obtain ⟨clause, same, last⟩ := bindIsOk closed
        cases last
        have opened : P (s.openGroup kind.keyword c).clause.text := Clause.openGroupMade property holds kind c
        have within := Criterion.pushAllMade property pushed made ends (.inr opened)
        exact Clause.closeGroupMade property same holds within (pushAllExtends pushed)
    · contradiction

theorem Criterion.pushAllMade (property : TextProperty P) {d : Dialect} {kind : ClauseKind} {items : List Criterion}
    {s t : Section} (ok : Criterion.pushAll d kind.keyword items s = .ok t) (made : Criterion.AllMade P items)
    (ends : P [] ∨ Criterion.AllRangesEnd items) (holds : s.clause.text = [] ∨ P s.clause.text) :
    t.clause.text = [] ∨ P t.clause.text := by
  cases items with
  | nil =>
    cases ok
    exact holds
  | cons item rest =>
    obtain ⟨next, first, later⟩ := bindIsOk ok
    have before := Criterion.pushMade property first made.1 (ends.imp_right And.left) holds
    exact Criterion.pushAllMade property later made.2 (ends.imp_right And.right) before
end

/-! Queries. -/

namespace Query
variable {q next inner : Query}

theorem everyTextIn (every : q.EveryText P) {b : Bucket} (plain : b ≠ .filter ∧ b ≠ .having) :
    ∀ text ∈ q.texts b, P text := by
  intro text member
  rcases every b text member with ⟨_, clause⟩ | holds
  · exact (clause.elim plain.1 plain.2).elim
  · exact holds

theorem everyTextHolds (every : q.EveryText P) (nothing : P []) : ∀ b, ∀ text ∈ q.texts b, P text := by
  intro b text member
  rcases every b text member with ⟨rfl, _⟩ | holds
  · exact nothing
  · exact holds

theorem everyMore (every : q.EveryText P) (more : List Text) (made : ∀ text ∈ more, P text)
    (grown : ∀ b, next.texts b ⊆ q.texts b ++ more) : next.EveryText P := by
  intro b text member
  rcases List.mem_append.mp (grown b member) with before | new
  · exact every b text before
  · exact .inr (made text new)

theorem everyOne (every : q.EveryText P) {text : Text} (made : P text)
    (grown : ∀ b, next.texts b ⊆ q.texts b ++ [text]) :
    next.EveryText P :=
  everyMore every [text] (List.forall_mem_singleton.mpr made) grown

theorem everyClause (every : q.EveryText P) (kind : ClauseKind) :
    (q.clause kind).text = [] ∨ P (q.clause kind).text := by
  cases kind
  · exact (every .filter _ (List.mem_singleton_self _)).imp_left And.left
  · exact (every .having _ (List.mem_singleton_self _)).imp_left And.left

theorem everyWithClause (every : q.EveryText P) {kind : ClauseKind} {clause : Clause}
    (made : clause.text = [] ∨ P clause.text) : (q.withClause kind clause).EveryText P := by
  have own {b : Bucket} (place : b = .filter ∨ b = .having) :
      (clause.text = [] ∧ (b = .filter ∨ b = .having)) ∨ P clause.text := made.imp_left fun nothing => ⟨nothing, place⟩
  intro b text member
  cases kind <;> cases b <;>
    first
    | exact every _ text member
    | (cases List.mem_singleton.mp member; exact own (by simp))

theorem everyPart (every : q.EveryText P) {kind : ClauseKind} {s : Section}
    (made : s.clause.text = [] ∨ P s.clause.text) :
    (q.withPart kind s).EveryText P :=
  have clause : (q.withClause kind s.clause).EveryText P := everyWithClause every made
  clause

theorem everyJoin (every : q.EveryText P) {sql : Text} (made : P sql) : (q.addJoin sql).EveryText P := by
  refine everyOne every made fun b => ?_
  cases b <;> first | exact List.subset_append_left _ _ | exact List.Subset.refl _

theorem startEvery (d : Dialect) (b : Option Backend) : EveryText P { dialect := d, backend := b } := by
  intro bucket text member
  cases bucket <;> first | contradiction | (cases List.mem_singleton.mp member; exact .inl ⟨rfl, by simp⟩)

section
variable (property : TextProperty P)
include property

theorem everyTest (every : q.EveryText P) {kind : ClauseKind} {item : Criterion} (made : item.Made P)
    (ends : P [] ∨ item.RangesEnd) (ok : q.test kind item = .ok next) : next.EveryText P := by
  obtain ⟨s, pushed, last⟩ := bindIsOk ok
  cases last
  exact everyPart every (Criterion.pushMade property pushed made ends (everyClause every kind))

theorem everyTestRaw (every : q.EveryText P) {kind : ClauseKind} {sql : Text} (made : P sql) (args : List Arg)
    (c : Connective) : (q.testRaw kind sql args c).EveryText P :=
  everyPart every (.inr (Section.addMade property (everyClause every kind) kind c made))

theorem everyOpened (every : q.EveryText P) (kind : ClauseKind) (c : Connective) : (q.openGroup kind c).EveryText P :=
  everyPart every (.inr (Clause.openGroupMade property (everyClause every kind) kind c))

theorem onMade (kind : JoinKind) {table condition : Text} (left : P table) (right : P condition) :
    P (kind.sql ++ [' '] ++ table ++ " ON " ++ condition) := by
  have words : MarkFree (kind.sql ++ [' ']) := by cases kind <;> decide
  exact property.between (.inr (property.behind words left)) (by decide) right

theorem columnsMade (q : Query) {first second : Text} (op : Operator) (left : Dialect.Names P first)
    (right : Dialect.Names P second) : P (q.onColumns first op second) :=
  Predicate.infixedMade property op (left q.dialect) (right q.dialect) []

theorem namedMade (q : Query) {name : Text} (names : Dialect.Names P name) (compiled : P inner.compile) :
    P (q.named inner name) :=
  property.between (.inr (property.enclosed (.inr compiled))) (by decide) (names q.dialect)

theorem termMade {column : Ident} {direction term : Text} (made : column.Made P)
    (ok : q.orderTerm column direction = .ok term) : P term := by
  unfold orderTerm at ok
  extract_lets given unknown at ok
  split at ok
  · split at ok
    · cases ok
      exact property.plain q.dialect.randomPlain.1 q.dialect.randomPlain.2
    · contradiction
  · split at ok
    · rename_i known
      cases ok
      have free : MarkFree ([' '] ++ given) ∧ endsWord ([' '] ++ given) := by
        rcases known with asc | desc <;> simp only [*] <;> decide
      have whole := property.before (Ident.renderMade q.dialect made) free.1 free.2
      rwa [← List.append_assoc] at whole
    · contradiction

/-! The statement is made of its fragments. -/

theorem listedMade {word : Text} (free : word.MarkFree) {parts : List Text} (all : ∀ part ∈ parts, P part) :
    ∀ part ∈ (if parts = [] then [] else [word ++ Text.joined ", " parts]), P part := by
  split
  · exact nofun
  · rename_i nonempty
    exact List.forall_mem_singleton.mpr (property.behind free (property.joined (by decide) nonempty all))

theorem tailMade {t : Tail} (all : ∀ text ∈ t.orders, P text) : ∀ part ∈ t.parts, P part := by
  have number {word : Text} (free : word.MarkFree) (n : Option Nat) :
      ∀ part ∈ n.toList.map fun n => word ++ ofNat n, P part := by
    cases n with
    | none => exact nofun
    | some n =>
      exact List.forall_mem_singleton.mpr (property.behind free (property.plain (ofNatMarkFree n) (numberEnds n)))
  rw [Tail.parts]
  refine List.forall_mem_append.mpr ⟨List.forall_mem_append.mpr ⟨?_, ?_⟩, ?_⟩
  · exact listedMade property (by decide) all
  · exact number (by decide) t.limit
  · exact number (by decide) t.offset

theorem encloseMade (d : Dialect) {sql : Text} (made : P sql) (closed : Bool) : P (enclose d sql closed) := by
  unfold enclose
  split
  · exact property.enclosed (.inr made)
  · split
    · exact property.before (property.behind (by decide) made) (by decide) (by decide)
    · exact made

theorem basePartsMade (every : q.EveryText P) : ∀ part ∈ q.baseParts, P part := by
  have select : P q.selectPart := by
    refine property.behind (selectMarkFree q) ?_
    split
    · exact property.plain (by decide) (by decide)
    · rename_i nonempty
      exact property.joined (by decide) nonempty (everyTextIn (b := .select) every (by decide))
  have clause (kind : ClauseKind) : ∀ part ∈ clausePart (q.clause kind), P part := by
    unfold clausePart
    split
    · exact nofun
    · rename_i written
      exact List.forall_mem_singleton.mpr ((everyClause every kind).resolve_left written)
  have source : ∀ part ∈ q.source.toList.map fun table => ("FROM " ++ table : Text), P part := by
    intro part member
    obtain ⟨table, inside, rfl⟩ := List.mem_map.mp member
    exact property.behind (by decide) (everyTextIn (b := .source) every (by decide) table inside)
  have groups : ∀ part ∈ (if q.groups = [] then [] else ["GROUP BY " ++ Text.joined ", " q.groups] : List Text), P part :=
    listedMade property (by decide) (everyTextIn (b := .groups) every (by decide))
  intro part member
  rw [basePart] at member
  rcases member with rfl | inSource | inJoins | inFilter | inGroups | inHaving | inTail
  · exact select
  · exact source part inSource
  · exact everyTextIn (b := .join) every (by decide) part inJoins
  · exact clause .filter part inFilter
  · exact groups part inGroups
  · exact clause .having part inHaving
  · exact tailMade property (everyTextIn (b := .order) every (by decide)) part inTail

theorem baseMade (every : q.EveryText P) : P q.base :=
  property.joined (by decide) (List.cons_ne_nil _ _) (basePartsMade property every)

theorem partsMade (every : q.EveryText P) : ∀ part ∈ q.parts, P part := by
  have base := baseMade property every
  unfold parts
  split
  · exact List.forall_mem_singleton.mpr base
  · refine List.forall_mem_append.mpr ⟨List.forall_mem_append.mpr ⟨?_, ?_⟩, ?_⟩
    · exact List.forall_mem_singleton.mpr (encloseMade property q.dialect base _)
    · intro part member
      obtain ⟨operand, inside, among⟩ := List.mem_flatMap.mp member
      have sql : P operand.sql := everyTextIn (b := .union) every (by decide) _ (List.mem_map_of_mem inside)
      rcases List.mem_cons.mp among with rfl | last
      · obtain ⟨free, ends⟩ := unionKeywordPlain operand.all
        exact property.plain free ends
      · rw [List.mem_singleton.mp last]
        exact encloseMade property q.dialect sql _
    · exact tailMade property (everyTextIn (b := .unionOrder) every (by decide))

theorem joinedMade (every : q.EveryText P) : P (Text.joined " " q.parts) := by
  have nonempty : q.parts ≠ [] := by
    unfold parts
    split <;> simp
  exact property.joined (by decide) nonempty (partsMade property every)

theorem compileMade (every : q.EveryText P) : P q.compile := property.collapse (joinedMade property every)

end
end Query

theorem renderedMade {columns : List Ident} (d : Dialect) (made : ∀ column ∈ columns, column.Made P) :
    ∀ text ∈ columns.map (Ident.render d), P text := by
  intro text member
  obtain ⟨column, inside, rfl⟩ := List.mem_map.mp member
  exact Ident.renderMade d (made column inside)

theorem Call.applyEvery (property : TextProperty P) {c : Call} {q next : Query} (made : c.Made P)
    (ends : P [] ∨ c.RangesEnd) (every : q.EveryText P) (ok : c.apply q = .ok next) : next.EveryText P := by
  cases applyIs ok with
  | test tested => exact Query.everyTest property every made ends tested
  | testRaw kind sql args c => exact Query.everyTestRaw property every made args c
  | @testColumns kind first operator second c _ tested =>
    have leaf : (Criterion.leaf first operator (.raw (q.dialect.wrap second)) c).Made P := ⟨made.1, made.2 q.dialect⟩
    exact Query.everyTest property every leaf (.inr fun _ _ => trivial) (Query.columnsTest tested)
  | select columns =>
    refine Query.everyMore every _ (renderedMade q.dialect made) fun b => ?_
    cases b <;> first | exact List.subset_append_left _ _ | exact List.subset_append_right _ _
  | addSelect columns | groupBy columns =>
    refine Query.everyMore every _ (renderedMade q.dialect made) fun b => ?_
    cases b <;> first | exact List.subset_append_left _ _ | exact List.Subset.refl _
  | selectRaw sql args | groupByRaw sql args | orderByRaw sql args | unionOrderByRaw sql args =>
    refine Query.everyOne every made fun b => ?_
    cases b <;> first | exact List.subset_append_left _ _ | exact List.Subset.refl _
  | selectFrom table =>
    refine Query.everyOne every (Ident.renderMade q.dialect made) fun b => ?_
    cases b <;> first | exact List.subset_append_left _ _ | exact List.subset_append_right _ _
  | fromRaw sql args =>
    refine Query.everyOne every made fun b => ?_
    cases b <;> first | exact List.subset_append_left _ _ | exact List.subset_append_right _ _
  | crossJoin table => exact Query.everyJoin every (property.behind (by decide) (Ident.renderMade q.dialect made))
  | @join kind table first operator second op parsed =>
    obtain ⟨table, first, second⟩ := made
    have condition := Query.columnsMade property q op first second
    exact Query.everyJoin every (Query.onMade property kind (Ident.renderMade q.dialect table) condition)
  | @joinWhere kind table first operator operand op parsed single =>
    obtain ⟨table, first, operands⟩ := made
    have alone : ∀ items, operand ≠ .list items := by
      rintro items rfl
      contradiction
    have condition := Predicate.infixedMade property op (first q.dialect) (Arg.singleMade property operands alone) []
    exact Query.everyJoin every (Query.onMade property kind (Ident.renderMade q.dialect table) condition)
  | orderBy written | unionOrderBy written =>
    refine Query.everyOne every (Query.termMade property made written) fun b => ?_
    cases b <;> first | exact List.subset_append_left _ _ | exact List.Subset.refl _
  | orderRandom =>
    refine Query.everyOne every (property.plain q.dialect.randomPlain.1 q.dialect.randomPlain.2) fun b => ?_
    cases b <;> first | exact List.subset_append_left _ _ | exact List.Subset.refl _
  | restart => exact Query.startEvery q.dialect q.backend
  | _ => exact every

namespace Nest

theorem openedEvery (property : TextProperty P) (n : Nest) {q : Query} (every : q.EveryText P) :
    (n.opened q).EveryText P := by
  cases n with
  | group kind c => exact Query.everyOpened property every kind c
  | copy => exact every
  | _ => exact Query.startEvery q.dialect q.backend

theorem leaveEvery (property : TextProperty P) {n : Nest} {keeps : Prop} {q inner next : Query} (made : n.Made P keeps)
    (ends : P [] ∨ n.RangesEnd) (every : q.EveryText P) (within : inner.EveryText P)
    (grown : keeps → ∀ kind : ClauseKind, (n.opened q).Retains kind.bucket inner) (ok : n.leave q inner = .ok next) :
    next.EveryText P := by
  have compiled : P inner.compile := Query.compileMade property within
  have enclosed : P inner.enclosed := property.enclosed (.inr compiled)
  cases leaveIs ok with
  | @group kind c _ closed =>
    obtain ⟨clause, shut, last⟩ := bindIsOk closed
    cases last
    -- Closing may cut the text back to its old length, which gives the old text only where that still stands in front.
    have opened := Query.retainsText (grown made kind)
    rw [Nest.opened, Query.clauseOpenGroup] at opened
    exact Query.everyWithClause within
      (Clause.closeGroupMade property shut (Query.everyClause every kind) (Query.everyClause within kind) opened)
  | existence kind c =>
    exact Query.everyTestRaw property (q := q.absorb kind.bucket inner) every enclosed [] c.exist
  | @valueSub kind name operator c _ tested =>
    have leaf : (Criterion.leaf name operator (.raw inner.enclosed) c).Made P := ⟨made, enclosed⟩
    exact Query.everyTest property (q := q.absorb kind.bucket inner) every leaf (.inr fun _ _ => trivial) tested
  | @columnSub kind operator operand c _ tested =>
    have leaf : (Criterion.leaf (.raw inner.enclosed) operator operand c).Made P := ⟨enclosed, made⟩
    exact Query.everyTest property (q := q.absorb kind.bucket inner) every leaf ends tested
  | selectSub name =>
    refine Query.everyOne every (Query.namedMade property q made compiled) fun b => ?_
    cases b <;> first | exact List.subset_append_left _ _ | exact List.Subset.refl _
  | fromSub name =>
    refine Query.everyOne every (Query.namedMade property q made compiled) fun b => ?_
    cases b <;> first | exact List.subset_append_left _ _ | exact List.subset_append_right _ _
  | @joinSub kind name first operator second op parsed =>
    obtain ⟨name, first, second⟩ := made
    have table := Query.namedMade property q name compiled
    have sql := Query.onMade property kind table (Query.columnsMade property q op first second)
    refine Query.everyOne every sql fun b => ?_
    cases b <;> first | exact List.subset_append_left _ _ | exact List.Subset.refl _
  | union all =>
    refine Query.everyOne every compiled fun b => ?_
    cases b <;> first | exact List.subset_append_left _ _ | simp [Query.texts, Query.addUnion]
  | copy => exact every
  | child => exact every

end Nest

namespace Step

mutual
theorem stepEvery (property : TextProperty P) {s : Step} (made : s.Made P) (ends : P [] ∨ s.RangesEnd) {q : Query}
    (every : q.EveryText P) : (s.next q).EveryText P := by
  cases s with
  | call c =>
    cases found : (Step.call c).apply q with
    | error fault =>
      rw [(performError found).2]
      exact every
    | ok next =>
      rw [(performOk found).2]
      exact Call.applyEvery property made ends every found
  | nest n body =>
    cases found : (Step.nest n body).apply q with
    | error fault =>
      rw [(performError found).2]
      exact every
    | ok next =>
      rw [(performOk found).2]
      obtain ⟨inner, _, worked, left⟩ := Nest.runIs found
      have within := runEvery property made.2 (ends.imp_right And.right) (n.openedEvery property every)
      have grown (keeps : AllKeep body) := runRetains keeps (n.opened q)
      rw [runIsApplyAll worked] at within grown
      exact Nest.leaveEvery property made.1 (ends.imp_right And.left) every within grown left
  | attempt s => exact stepEvery property (s := s) made ends every

theorem runEvery (property : TextProperty P) {body : List Step} (made : AllMade P body)
    (ends : P [] ∨ AllRangesEnd body)
    {q : Query} (every : q.EveryText P) : (run body q).EveryText P := by
  cases body with
  | nil => exact every
  | cons s rest =>
    have first := stepEvery property made.1 (ends.imp_right And.left) every
    exact runEvery property made.2 (ends.imp_right And.right) first
end

end Step
end SelectBuilder
