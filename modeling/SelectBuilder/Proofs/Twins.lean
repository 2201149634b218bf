import SelectBuilder.Proofs.ClauseTree
import SelectBuilder.Proofs.Wording
import SelectBuilder.Query.Statement

/-! Queries that are twins fragment by fragment compile to twins. A clause is compared with what it was at some
earlier moment, its root, say when the group around it was opened: what was added since shows the same words on both
sides, and it was nothing on both sides or on neither. -/
namespace SelectBuilder
open Text

/-! Predicates. -/

namespace Arg

mutual
def RawFree : Arg → Prop
  | .value _ => True
  | .lazy _ => True
  | .raw _ => False
  | .list items => AllRawFree items

def AllRawFree : List Arg → Prop
  | [] => True
  | arg :: rest => RawFree arg ∧ AllRawFree rest
end

mutual
theorem rawFreeWhole {arg : Arg} (free : arg.RawFree) : arg.Whole := by
  cases arg with
  | value v => trivial
  | «lazy» outcome => trivial
  | raw sql => cases free
  | list items => exact allRawFreeWhole free

theorem allRawFreeWhole {items : List Arg} (free : AllRawFree items) : AllWhole items := by
  cases items with
  | nil => trivial
  | cons arg rest => exact ⟨rawFreeWhole free.1, allRawFreeWhole free.2⟩
end

mutual
theorem placeholderTwin {arg : Arg} (free : arg.RawFree) : Twin tailWords arg.placeholder arg.placeholder := by
  have mark : Twin tailWords ['?'] ['?'] := twinSame (by decide)
  cases arg with
  | value v => exact mark
  | «lazy» outcome => exact mark
  | raw sql => cases free
  | list items => exact twinJoined (spacerOf (by decide)) (placeholdersTwin free)

theorem placeholdersTwin {items : List Arg} (free : AllRawFree items) :
    Twins tailWords (placeholders items) (placeholders items) := by
  cases items with
  | nil => exact .nil
  | cons arg rest => exact .cons (placeholderTwin free.1) (placeholdersTwin free.2)
end

inductive Twin : Arg → Arg → Prop
  | same {arg : Arg} (free : arg.RawFree) : Twin arg arg
  | raw {a b : Text} (sql : Text.Twin tailWords a b) (whole : a.getLast? ≠ some '(' ∧ b.getLast? ≠ some '(') :
      Twin (.raw a) (.raw b)

end Arg

theorem Operator.spacer (op : Operator) : Spacer tailWords ([' '] ++ op.sql ++ [' ']) := by
  cases op <;> exact spacerOf (by decide +kernel)

namespace Predicate

structure Twin (p p' : Predicate) : Prop where
  text : Text.Twin tailWords p.text p'.text
  settled : p.text.Settled ∧ p'.text.Settled

variable {column column' : Text} (columns : Text.Twin tailWords column column')
include columns

theorem infixedTwin (op : Operator) {operand operand' : Text} (operands : Text.Twin tailWords operand operand')
    (bound bound' : List Arg) :
    Text.Twin tailWords (infixed column op operand bound).text (infixed column' op operand' bound').text := by
  have whole := twinBetween op.spacer columns operands
  rwa [← List.append_assoc, ← List.append_assoc, ← List.append_assoc, ← List.append_assoc] at whole

theorem compareTwin {op : Operator} {operand operand' : Arg} (operands : operand.Twin operand') {p : Predicate}
    (ok : compare column op operand = .ok p) : ∃ p', compare column' op operand' = .ok p' ∧ p.Twin p' := by
  have whole : operand.Whole ∧ operand'.Whole := by
    cases operands with
    | raw sql whole => exact whole
    | same free => exact ⟨Arg.rawFreeWhole free, Arg.rawFreeWhole free⟩
  have there : ∃ p', Compared column' op operand' p' ∧ Text.Twin tailWords p.text p'.text := by
    cases operands with
    | raw sql whole =>
      cases compareIs ok with
      | raw lists => exact ⟨_, .raw lists, infixedTwin columns op sql [] []⟩
      | single plain => exact ⟨_, .single plain rfl (by simp), infixedTwin columns op sql _ _⟩
    | same free =>
      cases compareIs ok with
      | null found => exact ⟨_, .null found, infixedTwin columns _ (twinSame (by decide)) [] []⟩
      | range ranges =>
        have both := twinBetween (spacerOf (s := " AND ") (by decide)) (Arg.placeholderTwin free.1)
          (Arg.placeholderTwin free.2.1)
        exact ⟨_, .range ranges, infixedTwin columns op both _ _⟩
      | list lists =>
        have items := twinJoined (spacerOf (s := ",") (by decide)) (Arg.placeholdersTwin free)
        exact ⟨_, .list lists, infixedTwin columns op (twinEnclosed (by decide) (twinAny items)) _ _⟩
      | raw lists => cases free
      | single plain given alone =>
        exact ⟨_, .single plain given alone, infixedTwin columns op (Arg.placeholderTwin free) _ _⟩
  obtain ⟨p', compared, text⟩ := there
  have ok' := comparedOk compared
  exact ⟨p', ok', text, compareSettled whole.1 ok, compareSettled whole.2 ok'⟩

end Predicate

/-! Clauses. -/
namespace Clause

theorem bracketLoose (text : Text) : LooseEnd (text ++ ['(']) := by
  have last : ∃ front, Region.bare .outside (text ++ ['(']) = front ++ [' '] := by
    rw [Region.bareAppend]
    cases Region.outside.after text with
    | outside => exact ⟨Region.bare .outside text ++ [' ', '('], by simp [Region.bare, Region.glimpse]; decide⟩
    | quoted mark => exact ⟨Region.bare .outside text, rfl⟩
    | escaped => exact ⟨Region.bare .outside text, rfl⟩
  obtain ⟨front, same⟩ := last
  rw [LooseEnd, endsWord, same, List.reverse_append]
  rfl

theorem ledClosed {text word : Text} (closed : text.Closed) (closed' : word.Closed) : (led text word).Closed := by
  by_cases settled : text.Settled
  · rw [ledSettled settled]
    exact closedAppend closed (closedAppend (a := [' ']) (by decide) closed')
  · rw [ledAtStart settled]
    exact closedAppend closed closed'

theorem ledExposed {text : Text} (closed : text.Closed) (word : Text) :
    (led text word).exposed = text.exposed ++ word.exposed := by
  by_cases settled : text.Settled
  · have spaced : exposed ([' '] ++ word) = word.exposed := exposedAppend (by decide) (.inl (by decide))
    have start : LooseStart ([' '] ++ word) := rfl
    rw [ledSettled settled, ← List.singleton_append, exposedAppend closed (.inr start), spaced]
  · rw [ledAtStart settled]
    by_cases nothing : text = []
    · subst nothing
      rfl
    · have opens : text.getLast? = some '(' := by
        by_contra other
        exact settled ⟨nothing, other⟩
      obtain ⟨front, rfl⟩ := List.getLast?_eq_some_iff.mp opens
      exact exposedAppend closed (.inl (bracketLoose front))

theorem ledAllClosed {text : Text} (closed : text.Closed) {words : List Text} (all : ∀ word ∈ words, word.Closed) :
    (ledAll text words).Closed := by
  induction words generalizing text with
  | nil => exact closed
  | cons word rest ih =>
    have first := ledClosed closed (all word List.mem_cons_self)
    exact ih first fun word member => all word (List.mem_cons_of_mem _ member)

theorem ledAllExposed {text : Text} (closed : text.Closed) {words : List Text} (all : ∀ word ∈ words, word.Closed) :
    (ledAll text words).exposed = text.exposed ++ words.flatMap exposed := by
  induction words generalizing text with
  | nil => simp [ledAll]
  | cons word rest ih =>
    have first := ledClosed closed (all word List.mem_cons_self)
    change (ledAll (led text word) rest).exposed = _
    rw [ih first fun word member => all word (List.mem_cons_of_mem _ member), ledExposed closed, List.append_assoc,
      List.flatMap_cons]

theorem headsTwin (kind : ClauseKind) (c : Connective) (ending : Ending) :
    ∀ word ∈ heads kind.keyword c ending, Text.Twin tailWords word word := by
  have keyword : Text.Twin tailWords kind.keyword kind.keyword := by
    cases kind <;> exact twinSame (by decide +kernel)
  have words : ∀ word ∈ c.laterWords, Text.Twin tailWords word word := by
    have spelled : c.laterWords ⊆ ["AND", "OR", "XOR", "NOT", "EXISTS"] := by
      obtain ⟨logic, negated, existential⟩ := c
      cases logic <;> cases negated <;> cases existential <;> decide
    intro word member
    have one := spelled member
    simp only [List.mem_cons, List.not_mem_nil, or_false] at one
    rcases one with rfl | rfl | rfl | rfl | rfl <;> exact twinSame (by decide +kernel)
  have first := fun word member => words word (List.mem_cons_of_mem _ member)
  cases ending with
  | empty => exact List.forall_mem_cons.mpr ⟨keyword, first⟩
  | opened => exact first
  | complete => exact words

theorem headsPlain (kind : ClauseKind) (c : Connective) (ending : Ending) :
    Plain tailWords ((heads kind.keyword c ending).flatMap exposed) := by
  have flat {words : List Text} (all : ∀ word ∈ words, Text.Twin tailWords word word) :
      Plain tailWords (words.flatMap exposed) := by
    induction words with
    | nil => exact plainNil tailWords
    | cons word rest ih =>
      obtain ⟨first, later⟩ := List.forall_mem_cons.mp all
      exact plainAppend first.plain (ih later)
  exact flat (headsTwin kind c ending)

/-- `a` and `b` have grown from `root` and `root'` by the same words. -/
structure Twin (root root' a b : Clause) : Prop where
  grown : root.text <+: a.text
  grown' : root'.text <+: b.text
  closed : a.text.Closed
  closed' : b.text.Closed
  ending : b.ending = a.ending
  still : a.text = root.text ↔ b.text = root'.text
  added : ∃ words, Plain tailWords words ∧ a.text.exposed = root.text.exposed ++ words ∧
    b.text.exposed = root'.text.exposed ++ words

variable {root root' a b : Clause}

theorem twinSelf (twin : Twin root root' a b) : Twin a b a b :=
  ⟨List.prefix_rfl, List.prefix_rfl, twin.closed, twin.closed', twin.ending, by simp, [], plainNil _, by simp, by simp⟩

theorem twinTrans {c d : Clause} (first : Twin root root' a b) (later : Twin a b c d) : Twin root root' c d := by
  obtain ⟨x, plain, left, right⟩ := first.added
  obtain ⟨y, plain', left', right'⟩ := later.added
  have back {p q r : Text} (low : p <+: q) (high : q <+: r) : r = p ↔ q = p ∧ r = q := by
    constructor
    · rintro rfl
      have same : q = r := high.eq_of_length_le low.length_le
      exact ⟨same, same.symm⟩
    · rintro ⟨rfl, rfl⟩
      rfl
  refine ⟨first.grown.trans later.grown, first.grown'.trans later.grown', later.closed, later.closed', later.ending, ?_,
    x ++ y, plainAppend plain plain', ?_, ?_⟩
  · rw [back first.grown later.grown, back first.grown' later.grown', first.still, later.still]
  · rw [left', left, List.append_assoc]
  · rw [right', right, List.append_assoc]

theorem ledTwin (kind : ClauseKind) (c : Connective) (start : Twin a b a b) {word word' : Text}
    (closed : word.Closed ∧ word'.Closed) (nonempty : word ≠ [] ∧ word' ≠ []) :
    let left := led (ledAll a.text (heads kind.keyword c a.ending)) word
    let right := led (ledAll b.text (heads kind.keyword c b.ending)) word'
    a.text <+: left ∧ b.text <+: right ∧ left.Closed ∧ right.Closed ∧ left ≠ a.text ∧ right ≠ b.text ∧
      left.exposed = a.text.exposed ++ ((heads kind.keyword c a.ending).flatMap exposed ++ word.exposed) ∧
      right.exposed = b.text.exposed ++ ((heads kind.keyword c a.ending).flatMap exposed ++ word'.exposed) := by
  have inside := fun word member => (headsTwin kind c a.ending word member).closed
  have one {clause : Clause} (read : clause.text.Closed) {word : Text} (closed : word.Closed) (nonempty : word ≠ []) :
      let text := led (ledAll clause.text (heads kind.keyword c a.ending)) word
      clause.text <+: text ∧ text.Closed ∧ text ≠ clause.text ∧
        text.exposed = clause.text.exposed ++ ((heads kind.keyword c a.ending).flatMap exposed ++ word.exposed) := by
    intro text
    obtain ⟨front, joined⟩ := ledAllPrefix clause.text (heads kind.keyword c a.ending)
    have middle := ledAllClosed read inside
    have grown : ∃ more, text = clause.text ++ more ∧ more ≠ [] := by
      by_cases settled : (ledAll clause.text (heads kind.keyword c a.ending)).Settled
      · exact ⟨front ++ ' ' :: word, by simp only [text, ledSettled settled, joined, List.append_assoc], by simp⟩
      · exact ⟨front ++ word, by simp only [text, ledAtStart settled, joined, List.append_assoc], by simp [nonempty]⟩
    obtain ⟨more, same, longer⟩ := grown
    refine ⟨⟨more, same.symm⟩, ledClosed middle closed, ?_, ?_⟩
    · rw [same]
      simpa using longer
    · rw [ledExposed middle, ledAllExposed read inside, List.append_assoc]
  obtain ⟨grown, read, longer, shown⟩ := one start.closed closed.1 nonempty.1
  obtain ⟨grown', read', longer', shown'⟩ := one start.closed' closed.2 nonempty.2
  simp only [start.ending]
  exact ⟨grown, grown', read, read', longer, longer', shown, shown'⟩

theorem termTwin (kind : ClauseKind) (c : Connective) (twin : Twin root root' a b) {p p' : Predicate}
    (predicates : p.Twin p') :
    Twin root root' ((a.connect kind.keyword c).term p.text) ((b.connect kind.keyword c).term p'.text) := by
  obtain ⟨texts, settled, settled'⟩ := predicates
  obtain ⟨grown, grown', closed, closed', longer, longer', shown, shown'⟩ :=
    ledTwin kind c (twinSelf twin) ⟨texts.closed, texts.closed'⟩ ⟨settled.1, settled'.1⟩
  rw [← connectText] at grown grown' closed closed' longer longer' shown shown'
  rw [texts.same] at shown'
  refine twinTrans twin ⟨grown, grown', closed, closed', rfl, ⟨fun same => absurd same longer, ?_⟩, _, ?_, shown, shown'⟩
  · exact fun same => absurd same longer'
  · exact plainAppend (headsPlain kind c a.ending) texts.plain

theorem groupTwin (kind : ClauseKind) (c : Connective) (start : Twin a b a b) :
    Twin (a.openGroup kind.keyword c) (b.openGroup kind.keyword c) (a.openGroup kind.keyword c)
      (b.openGroup kind.keyword c) := by
  have mark : Closed ['('] ∧ (['('] : Text) ≠ [] := by decide
  obtain ⟨_, _, closed, closed', _⟩ := ledTwin kind c start ⟨mark.1, mark.1⟩ ⟨mark.2, mark.2⟩
  rw [← openGroupText] at closed closed'
  exact ⟨List.prefix_rfl, List.prefix_rfl, closed, closed', rfl, by simp, [], plainNil _, by simp, by simp⟩

theorem closeGroupTwin (kind : ClauseKind) (c : Connective) (twin : Twin root root' a b) {inner inner' next : Clause}
    (inside : Twin (a.openGroup kind.keyword c) (b.openGroup kind.keyword c) inner inner')
    (ok : a.closeGroup kind.keyword c inner = .ok next) :
    ∃ next', b.closeGroup kind.keyword c inner' = .ok next' ∧ Twin root root' next next' := by
  -- Both groups received nothing or neither did, although the lengths that decide it differ.
  have sizes := (byteLengthPrefix inside.grown).trans (inside.still.trans (byteLengthPrefix inside.grown').symm)
  unfold closeGroup at ok ⊢
  split at ok
  · rename_i same
    rw [if_pos (sizes.mp same), (byteLengthPrefix inside.grown').mp (sizes.mp same), openGroupTaken]
    rw [(byteLengthPrefix inside.grown).mp same, openGroupTaken] at ok
    cases ok
    exact ⟨b, rfl, twin⟩
  · rename_i more
    rw [if_neg (mt sizes.mpr more)]
    cases ok
    refine ⟨_, rfl, twinTrans twin ?_⟩
    have bracket : Closed ['('] ∧ Closed [')'] ∧ LooseStart [')'] ∧ (['('] : Text) ≠ [] := by decide
    obtain ⟨grown, grown', _, _, longer, longer', shown, shown'⟩ :=
      ledTwin kind c (twinSelf twin) ⟨bracket.1, bracket.1⟩ ⟨bracket.2.2.2, bracket.2.2.2⟩
    rw [← openGroupText] at grown grown' longer longer' shown shown'
    obtain ⟨words, plain, left, right⟩ := inside.added
    have longerStill {root inner opened : Text} (grown : root <+: opened) (more : opened <+: inner) :
        inner ++ [')'] ≠ root := by
      intro same
      have length := congrArg List.length same
      have low := (grown.trans more).length_le
      simp only [List.length_append, List.length_singleton] at length
      omega
    have group : Plain tailWords ((heads kind.keyword c a.ending).flatMap exposed ++ (['('] :: words ++ [[')']])) :=
      plainAppend (headsPlain kind c a.ending) (plainEnclosed (by decide) (plainLess (by simp) plain))
    refine ⟨grown.trans (inside.grown.trans (List.prefix_append _ _)),
      grown'.trans (inside.grown'.trans (List.prefix_append _ _)), closedAppend inside.closed bracket.2.1,
      closedAppend inside.closed' bracket.2.1, rfl, ?_, _, group, ?_, ?_⟩
    · exact ⟨fun same => absurd same (longerStill grown inside.grown),
        fun same => absurd same (longerStill grown' inside.grown')⟩
    · change exposed (inner.text ++ [')']) = _
      rw [exposedAppend inside.closed (.inr bracket.2.2.1), left, shown]
      simp only [List.append_assoc]
      rfl
    · change exposed (inner'.text ++ [')']) = _
      rw [exposedAppend inside.closed' (.inr bracket.2.2.1), right, shown']
      simp only [List.append_assoc]
      rfl

end Clause

end SelectBuilder
