import SelectBuilder.Proofs.Renaming
import SelectBuilder.Proofs.TextProperties

/-! Where statements end. Without SQL of the callers' own only names and the builder's words are written, and these
end in no white space. So neither does a statement, collapsed or not, unless a range is written without its upper end.
-/
namespace SelectBuilder
open Text

/-! Without SQL, names having a property is all that is asked of a program. -/

variable {P : Text → Prop}

theorem Ident.rawFreeMade (names : ∀ name, Dialect.Names P name) {column : Ident} (free : column.RawFree) :
    column.Made P := by
  cases column with
  | name text => exact names text
  | raw sql => exact free.elim

mutual
theorem Arg.rawFreeMade {arg : Arg} (free : arg.RawFree) : arg.Made P := by
  cases arg with
  | raw sql => exact free.elim
  | list items => exact Arg.allRawFreeMade free
  | _ => trivial

theorem Arg.allRawFreeMade {items : List Arg} (free : Arg.AllRawFree items) : Arg.AllMade P items := by
  cases items with
  | nil => trivial
  | cons arg rest => exact ⟨Arg.rawFreeMade free.1, Arg.allRawFreeMade free.2⟩
end

mutual
theorem Criterion.rawFreeMade (names : ∀ name, Dialect.Names P name) {item : Criterion} (free : item.RawFree) :
    item.Made P := by
  cases item with
  | leaf column operator operand c => exact ⟨Ident.rawFreeMade names free.1, Arg.rawFreeMade free.2⟩
  | nest items operator operand c => exact Criterion.allRawFreeMade names free

theorem Criterion.allRawFreeMade (names : ∀ name, Dialect.Names P name) {items : List Criterion}
    (free : Criterion.AllRawFree items) : Criterion.AllMade P items := by
  cases items with
  | nil => trivial
  | cons item rest => exact ⟨Criterion.rawFreeMade names free.1, Criterion.allRawFreeMade names free.2⟩
end

theorem Call.rawFreeMade (names : ∀ name, Dialect.Names P name) {c : Call} (free : c.RawFree) : c.Made P := by
  have columns {columns : List Ident} (free : ∀ column ∈ columns, column.RawFree) : ∀ column ∈ columns, column.Made P :=
    fun column member => Ident.rawFreeMade names (free column member)
  cases c with
  | test kind item => exact Criterion.rawFreeMade names free
  | testColumns kind first operator second c => exact ⟨names first, names second⟩
  | select list | addSelect list | groupBy list => exact columns free
  | selectFrom table | crossJoin table => exact Ident.rawFreeMade names free
  | join kind table first operator second => exact ⟨Ident.rawFreeMade names free, names first, names second⟩
  | joinWhere kind table first operator operand =>
    exact ⟨Ident.rawFreeMade names free.1, names first, Arg.rawFreeMade free.2⟩
  | orderBy column direction | unionOrderBy column direction => exact Ident.rawFreeMade names free
  | testRaw | selectRaw | fromRaw | groupByRaw | orderByRaw | unionOrderByRaw => exact free.elim
  | _ => trivial

theorem Nest.rawFreeMade (names : ∀ name, Dialect.Names P name) {n : Nest} {keeps : Prop} (free : n.RawFree keeps) :
    n.Made P keeps := by
  cases n with
  | group kind c => exact free
  | valueSub kind column operator c =>
    cases column with
    | ident name => exact Ident.rawFreeMade names free
    | criteria items => trivial
  | columnSub kind operator operand c => exact Arg.rawFreeMade free
  | selectSub name | fromSub name => exact names name
  | joinSub kind name first operator second => exact ⟨names name, names first, names second⟩
  | _ => trivial

mutual
theorem Step.rawFreeMade (names : ∀ name, Dialect.Names P name) {s : Step} (free : s.RawFree) : s.Made P := by
  cases s with
  | call c => exact Call.rawFreeMade names free
  | nest n body => exact ⟨Nest.rawFreeMade names free.1, Step.allRawFreeMade names free.2⟩
  | attempt s => exact Step.rawFreeMade names (s := s) free

theorem Step.allRawFreeMade (names : ∀ name, Dialect.Names P name) {body : List Step} (free : Step.AllRawFree body) :
    Step.AllMade P body := by
  cases body with
  | nil => trivial
  | cons s rest => exact ⟨Step.rawFreeMade names free.1, Step.allRawFreeMade names free.2⟩
end

/-! Names end in their quote, or in a star. -/

theorem Dialect.quotePathEnds (d : Dialect) (path : Text) : endsWord (d.quotePath path) := by
  have segment (text : Text) : endsWord (d.quoteSegment text) := by
    unfold quoteSegment
    split
    · subst text
      decide
    · have mark : endsWord [d.quoteChar] := by cases d <;> decide
      exact endsAppendWord _ mark
  refine joinedEndsWord _ (by simpa using segmentsNonempty path) fun part member => ?_
  obtain ⟨text, _, rfl⟩ := List.mem_map.mp member
  exact segment text

theorem Dialect.wrapEndsWord (d : Dialect) (name : Text) : endsWord (d.wrap name) := by
  unfold wrap
  split
  · exact endsAppendWord _ (d.quotePathEnds _)
  · exact d.quotePathEnds name

theorem Text.endsProperty : TextProperty fun text => endsWord text where
  plain _ ends := ends
  behind _ ends := endsAppendWord _ ends
  append _ ends _ := endsAppendWord _ ends
  collapse ends := endsCollapse (wordsAtEnd ends)

theorem Step.runEndsInWord {program : Program} (free : AllRawFree program) (ends : AllRangesEnd program) (d : Dialect)
    (b : Option Backend) : endsWord (run program { dialect := d, backend := b }).base := by
  have made : AllMade (fun text => endsWord text) program := allRawFreeMade (fun name d => d.wrapEndsWord name) free
  exact Query.baseMade endsProperty (runEvery endsProperty made (.inr ends) (Query.startEvery d b))

end SelectBuilder
