import SelectBuilder.Placeholder
import SelectBuilder.Query.Fragments

/-! Inert texts: no live placeholder is read in them, and reading ends outside quotes, where it began. The words
of the builder are inert, and so is a name in its quotes, whatever the name is. -/
namespace SelectBuilder

theorem Region.apartFromMarks {holds : Char → Bool}
    (apart : holds '\x27' = false ∧ holds '\x22' = false ∧ holds '\x60' = false ∧ holds '?' = false ∧
      holds '\\' = false) {c : Char} (inside : holds c) : isMark c = false ∧ c ≠ '?' ∧ c ≠ '\\' := by
  have other {d : Char} (outside : holds d = false) : c ≠ d := by
    rintro rfl
    rw [outside] at inside
    contradiction
  obtain ⟨quote, double, tick, placeholder, slash⟩ := apart
  exact ⟨by simp [isMark, other quote, other double, other tick], other placeholder, other slash⟩

def Text.Inert (text : Text) : Prop := Region.outside.after text = .outside ∧ Region.liveCount .outside text = 0

namespace Text

instance (text : Text) : Decidable text.Inert := inferInstanceAs (Decidable (_ ∧ _))

theorem inertAppend {a b : Text} (left : a.Inert) (right : b.Inert) : (a ++ b).Inert := by
  unfold Inert at *
  rw [Region.afterAppend, Region.liveCountAppend, left.1, left.2, right.1, right.2]
  exact ⟨rfl, rfl⟩

theorem inertJoined {separator : Text} (apart : separator.Inert) {parts : List Text}
    (all : ∀ part ∈ parts, part.Inert) : (joined separator parts).Inert :=
  joinedHolds ⟨rfl, rfl⟩ inertAppend apart all

theorem inertPlain {text : Text} (plain : ∀ c ∈ text, Region.isMark c = false ∧ c ≠ '?') : text.Inert := by
  induction text with
  | nil => exact ⟨rfl, rfl⟩
  | cons c rest ih =>
    obtain ⟨mark, placeholder⟩ := plain c List.mem_cons_self
    obtain ⟨closed, silent⟩ := ih fun c member => plain c (List.mem_cons_of_mem _ member)
    have next : Region.outside.next c = .outside := by simp [Region.next, mark]
    have live : Region.outside.isLive c = false := by simp [Region.isLive, placeholder]
    constructor
    · rw [Region.after, next, closed]
    · simp [Region.liveCount, next, live, silent]

def Unmarked (text : Text) : Prop := ∀ c ∈ text, Region.isMark c = false ∧ c ≠ '?' ∧ c ≠ '\\'

instance (text : Text) : Decidable text.Unmarked := List.decidableBAll _ text

theorem unmarkedInert {text : Text} (unmarked : text.Unmarked) : text.Inert :=
  inertPlain fun c member => ⟨(unmarked c member).1, (unmarked c member).2.1⟩

theorem ofNatUnmarked (n : Nat) : (ofNat n).Unmarked :=
  fun c member => Region.apartFromMarks ⟨rfl, rfl, rfl, rfl, rfl⟩ (ofNatDigits n c member)

theorem ofNatInert (n : Nat) : (ofNat n).Inert := unmarkedInert (ofNatUnmarked n)

end Text

namespace Dialect
open Region

theorem doubledStays {mark : Char} (known : isMark mark) (single : mark ≠ '\x27') (text : Text) :
    after (.quoted mark) (doubled mark text) = .quoted mark ∧ liveCount (.quoted mark) (doubled mark text) = 0 := by
  induction text with
  | nil => exact ⟨rfl, rfl⟩
  | cons c rest ih =>
    obtain ⟨stays, silent⟩ := ih
    have reopened : Region.outside.next mark = .quoted mark := by simp [Region.next, known]
    by_cases same : c = mark
    · subst same
      -- A doubled mark closes the quotes and opens them again.
      have closed : (Region.quoted c).next c = .outside := by simp [Region.next, single]
      have other : c ≠ '?' := by
        rintro rfl
        revert known
        decide
      have split : doubled c (c :: rest) = c :: c :: doubled c rest := by simp [doubled]
      rw [split]
      simp [after, liveCount, isLive, closed, reopened, stays, silent, other]
    · have inside : (Region.quoted mark).next c = .quoted mark := by simp [Region.next, single, same]
      have split : doubled mark (c :: rest) = c :: doubled mark rest := by simp [doubled, same]
      rw [split]
      simp [after, liveCount, isLive, inside, stays, silent]

theorem quoteInert (d : Dialect) (segment : Text) : (d.quote segment).Inert := by
  have known : isMark d.quoteChar := by cases d <;> rfl
  have single : d.quoteChar ≠ '\x27' := by cases d <;> decide
  have other : d.quoteChar ≠ '?' := by cases d <;> decide
  obtain ⟨stays, silent⟩ := doubledStays known single segment
  have opened : Region.outside.next d.quoteChar = .quoted d.quoteChar := by simp [Region.next, known]
  have closed : (Region.quoted d.quoteChar).next d.quoteChar = .outside := by simp [Region.next, single]
  unfold quote Text.Inert
  rw [List.cons_append]
  simp only [after, liveCount, afterAppend, liveCountAppend, opened, stays, silent, closed]
  simp [isLive, other]

theorem quotePathInert (d : Dialect) (path : Text) : (d.quotePath path).Inert := by
  apply Text.inertJoined (by decide)
  intro part member
  obtain ⟨segment, _, rfl⟩ := List.mem_map.mp member
  unfold quoteSegment
  split
  · subst segment
    decide
  · exact quoteInert d segment

theorem wrapInert (d : Dialect) (name : Text) : (d.wrap name).Inert := by
  unfold wrap
  split
  · exact Text.inertAppend (Text.inertAppend (quotePathInert d _) (by decide)) (quotePathInert d _)
  · exact quotePathInert d name

end Dialect

/-! Names are inert by themselves; written SQL is if the caller says so. -/

def Ident.Inert : Ident → Prop
  | .name _ => True
  | .raw sql => sql.Inert

theorem Ident.renderInert (d : Dialect) {column : Ident} (inert : column.Inert) : (column.render d).Inert := by
  cases column with
  | name text => exact d.wrapInert text
  | raw sql => exact inert

theorem Operator.sqlInert (op : Operator) : op.sql.Inert := by
  cases op <;> decide

theorem ClauseKind.keywordInert (kind : ClauseKind) : kind.keyword.Inert := by
  cases kind <;> decide

theorem JoinKind.sqlInert (kind : JoinKind) : kind.sql.Inert := by
  cases kind <;> decide

theorem JoinKind.onInert (kind : JoinKind) (d : Dialect) {table : Ident} (inert : table.Inert) :
    Text.Inert (kind.sql ++ [' '] ++ table.render d ++ " ON ") := by
  have words : Text.Inert (kind.sql ++ [' ']) := Text.inertAppend kind.sqlInert (by decide)
  exact Text.inertAppend (Text.inertAppend words (Ident.renderInert d inert)) (by decide)

theorem Query.onColumnsInert (q : Query) (first : Text) (op : Operator) (second : Text) :
    (q.onColumns first op second).Inert := by
  have left := Text.inertAppend (q.dialect.wrapInert first) (b := [' ']) (by decide)
  exact Text.inertAppend (Text.inertAppend (Text.inertAppend left op.sqlInert) (by decide)) (q.dialect.wrapInert second)

theorem Query.orderTermInert {q : Query} {column : Ident} {direction term : Text} (inert : column.Inert)
    (ok : q.orderTerm column direction = .ok term) : term.Inert := by
  unfold orderTerm at ok
  extract_lets given unknown at ok
  split at ok
  · split at ok
    · cases ok
      cases q.dialect <;> decide
    · contradiction
  · split at ok
    · rename_i known
      cases ok
      have shown : given.Inert := by
        rcases known with asc | desc
        · rw [asc]
          decide
        · rw [desc]
          decide
      exact Text.inertAppend (Text.inertAppend (Ident.renderInert _ inert) (by decide)) shown
    · contradiction

end SelectBuilder
