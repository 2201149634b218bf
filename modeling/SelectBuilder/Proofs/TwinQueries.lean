import SelectBuilder.Proofs.CollapsedSpace
import SelectBuilder.Proofs.Twins
import SelectBuilder.Query.Fragments

/-! Queries that are twins, fragment by fragment. What they compile to are twins too, as texts: reading ends outside
quotes, parentheses are balanced, and no word of a tail stands outside all parentheses, unless the query itself has a
tail or a union. -/
namespace SelectBuilder
open Text

structure Tail.Twin (t t' : Tail) : Prop where
  orders : Twins tailWords t.orders t'.orders
  ends : ∀ term ∈ t.orders, endsWord term
  limit : t'.limit = t.limit
  offset : t'.offset = t.offset

def hiddenIn (closed : Bool) : List Text := if closed then [] else tailWords

structure UnionPart.Twin (part part' : UnionPart) : Prop where
  all : part'.all = part.all
  closed : part'.closed = part.closed
  sql : Text.Twin (hiddenIn part.closed) part.sql part'.sql

structure Query.Twin (root root' q r : Query) : Prop where
  dialect : r.dialect = q.dialect
  distinct : r.distinct = q.distinct
  columns : Twins tailWords q.columns r.columns
  source : Twins tailWords q.source.toList r.source.toList
  joins : Twins tailWords q.joins r.joins
  groups : Twins tailWords q.groups r.groups
  clauses : ∀ kind, Clause.Twin (root.clause kind) (root'.clause kind) (q.clause kind) (r.clause kind)
  tail : q.tail.Twin r.tail
  unions : List.Forall₂ UnionPart.Twin q.unions r.unions
  unionTail : q.unionTail.Twin r.unionTail

namespace Tail

theorem partsTwin {t t' : Tail} (twin : t.Twin t') : Twins unionWords t.parts t'.parts := by
  obtain ⟨orders, _, limit, offset⟩ := twin
  have less : ∀ word ∈ unionWords, word ∈ tailWords := by decide
  have comma : Spacer unionWords ", " := spacerOf (by decide +kernel)
  have order : Closed "ORDER BY " ∧ Plain unionWords (exposed "ORDER BY ") ∧ LooseEnd "ORDER BY " := by decide +kernel
  have count : Closed "LIMIT " ∧ Plain unionWords (exposed "LIMIT ") ∧ LooseEnd "LIMIT " := by decide +kernel
  have skip : Closed "OFFSET " ∧ Plain unionWords (exposed "OFFSET ") ∧ LooseEnd "OFFSET " := by decide +kernel
  have numbers {word : Text} (holds : word.Closed ∧ Plain unionWords word.exposed ∧ word.LooseEnd) (n : Option Nat) :
      Twins unionWords (n.toList.map (word ++ ofNat ·)) (n.toList.map (word ++ ofNat ·)) := by
    cases n with
    | none => exact .nil
    | some n => exact twinsOne (twinAfter holds (numberTwin n))
  unfold parts
  rw [limit, offset]
  refine twinsAppend (twinsAppend ?_ (numbers count t.limit)) (numbers skip t.offset)
  simp only [bothNothing orders]
  split
  · exact .nil
  · exact twinsOne (twinAfter order (twinJoined comma (orders.imp fun _ _ => twinLess less)))

theorem emptyTwin {t t' : Tail} (twin : t.Twin t') : t'.isEmpty = t.isEmpty := by
  obtain ⟨orders, _, limit, offset⟩ := twin
  have orders : t'.orders.isEmpty = t.orders.isEmpty := by
    rw [Bool.eq_iff_iff, List.isEmpty_iff, List.isEmpty_iff, bothNothing orders]
  rw [isEmpty, isEmpty, limit, offset, orders]

theorem addOrderTwin {t t' : Tail} (twin : t.Twin t') {term term' : Text} (terms : Text.Twin tailWords term term')
    (ends : endsWord term) : Twin (Query.addOrder t term) (Query.addOrder t' term') := by
  have all : ∀ other ∈ t.orders ++ [term], endsWord other := by
    intro other member
    rcases List.mem_append.mp member with before | last
    · exact twin.ends other before
    · rwa [List.mem_singleton.mp last]
  exact { twin with orders := twinsAppend twin.orders (twinsOne terms), ends := all }

theorem emptyParts {t : Tail} (empty : t.isEmpty) : t.parts = [] := by
  obtain ⟨orders, limit, offset⟩ := t
  simp only [isEmpty, Bool.and_eq_true, List.isEmpty_iff, Option.isNone_iff_eq_none] at empty
  obtain ⟨⟨rfl, rfl⟩, rfl⟩ := empty
  rfl

end Tail

namespace Query

variable {root root' q r : Query}

def Fresh (root : Query) : Prop := ∀ kind, root.clause kind = .empty

theorem blankTwin (d : Dialect) (b b' : Option Backend) :
    Twin { dialect := d, backend := b } { dialect := d, backend := b' } { dialect := d, backend := b }
      { dialect := d, backend := b' } := by
  have nothing : Clause.Twin .empty .empty .empty .empty :=
    ⟨List.prefix_rfl, List.prefix_rfl, rfl, rfl, rfl, by simp, [], plainNil _, by simp, by simp⟩
  have tail : Tail.Twin {} {} := ⟨.nil, by simp, rfl, rfl⟩
  exact ⟨rfl, rfl, .nil, .nil, .nil, .nil, fun kind => by cases kind <;> exact nothing, tail, .nil, tail⟩

theorem childFresh (q : Query) : q.child.Fresh := by
  intro kind
  cases kind <;> rfl

theorem childTwin (twin : Twin root root' q r) : Twin q.child r.child q.child r.child := by
  have blank := blankTwin q.dialect q.backend r.backend
  have same : r.child = { dialect := q.dialect, backend := r.backend } := by rw [child, twin.dialect]
  rw [same]
  exact blank

theorem twinSelf (twin : Twin root root' q r) : Twin q r q r :=
  { twin with clauses := fun kind => Clause.twinSelf (twin.clauses kind) }

theorem clauseNothing (fresh : root.Fresh) (fresh' : root'.Fresh) (twin : Twin root root' q r) (kind : ClauseKind) :
    Twins tailWords (clausePart (q.clause kind)) (clausePart (r.clause kind)) := by
  have clause := twin.clauses kind
  rw [fresh kind, fresh' kind] at clause
  obtain ⟨words, plain, left, right⟩ := clause.added
  have nothing : (Clause.empty).text.exposed = [] := rfl
  rw [nothing, List.nil_append] at left right
  have still : (q.clause kind).text = [] ↔ (r.clause kind).text = [] := clause.still
  unfold clausePart
  simp only [still]
  split
  · exact .nil
  · refine twinsOne ⟨clause.closed, clause.closed', ?_, ?_⟩
    · rw [left, right]
    · rw [left]
      exact plain

theorem selectTwin (twin : Twin root root' q r) : Text.Twin tailWords q.selectPart r.selectPart := by
  have comma : Spacer tailWords ", " := spacerOf (by decide +kernel)
  have star : Text.Twin tailWords ['*'] ['*'] := twinSame (by decide +kernel)
  have head (distinct : Bool) : let word : Text := String.toList (if distinct then "SELECT DISTINCT " else "SELECT ")
      word.Closed ∧ Plain tailWords word.exposed ∧ word.LooseEnd := by
    cases distinct <;> decide +kernel
  unfold selectPart
  rw [twin.distinct]
  refine twinAfter (head q.distinct) ?_
  simp only [bothNothing twin.columns]
  split
  · exact star
  · exact twinJoined comma twin.columns

def bodyParts (q : Query) : List Text :=
  [q.selectPart] ++ (q.source.toList.map fun table => ("FROM " ++ table : Text)) ++ q.joins ++ clausePart q.filter ++
    (if q.groups = [] then [] else ["GROUP BY " ++ Text.joined ", " q.groups]) ++ clausePart q.having

theorem bodyTwins (fresh : root.Fresh) (fresh' : root'.Fresh) (twin : Twin root root' q r) :
    Twins tailWords q.bodyParts r.bodyParts := by
  have comma : Spacer tailWords ", " := spacerOf (by decide +kernel)
  have word : Closed "FROM " ∧ Plain tailWords (exposed "FROM ") ∧ LooseEnd "FROM " := by decide +kernel
  have group : Closed "GROUP BY " ∧ Plain tailWords (exposed "GROUP BY ") ∧ LooseEnd "GROUP BY " := by decide +kernel
  have filter := clauseNothing fresh fresh' twin .filter
  have having := clauseNothing fresh fresh' twin .having
  have source : Twins tailWords (q.source.toList.map fun table => ("FROM " ++ table : Text))
      (r.source.toList.map fun table => ("FROM " ++ table : Text)) :=
    List.rel_map (fun _ _ table => twinAfter word table) twin.source
  have groups : Twins tailWords (if q.groups = [] then [] else ["GROUP BY " ++ Text.joined ", " q.groups])
      (if r.groups = [] then [] else ["GROUP BY " ++ Text.joined ", " r.groups]) := by
    simp only [bothNothing twin.groups]
    split
    · exact .nil
    · exact twinsOne (twinAfter group (twinJoined comma twin.groups))
  have front := twinsAppend (twinsAppend (twinsOne (selectTwin twin)) source) twin.joins
  exact twinsAppend (twinsAppend (twinsAppend front filter) groups) having

theorem baseTwin (fresh : root.Fresh) (fresh' : root'.Fresh) (twin : Twin root root' q r) :
    Text.Twin (hiddenIn !q.tail.isEmpty) q.base r.base := by
  have body := bodyTwins fresh fresh' twin
  have space {hidden : List Text} (kind : hidden = [] ∨ hidden = tailWords) : Spacer hidden " " := by
    obtain rfl | rfl := kind <;> exact spacerOf (by decide +kernel)
  have split (q : Query) : q.base = Text.joined " " (q.bodyParts ++ q.tail.parts) := rfl
  rw [split, split]
  unfold hiddenIn
  cases empty : q.tail.isEmpty with
  | true =>
    have empty' : r.tail.isEmpty := by rw [Tail.emptyTwin twin.tail, empty]
    rw [Tail.emptyParts empty, Tail.emptyParts empty', List.append_nil, List.append_nil]
    exact twinJoined (space (.inr rfl)) body
  | false =>
    have tail := (Tail.partsTwin twin.tail).imp fun _ _ => twinAny
    exact twinJoined (space (.inl rfl)) (twinsAppend (body.imp fun _ _ => twinAny) tail)

theorem encloseTwin (d : Dialect) (closed : Bool) {sql sql' : Text} (twin : Text.Twin (hiddenIn closed) sql sql') :
    Text.Twin tailWords (enclose d sql closed) (enclose d sql' closed) := by
  have bracket : ['('] ∉ tailWords ∧ [')'] ∉ tailWords := by decide
  have derived : Closed "SELECT * FROM " ∧ Plain tailWords (exposed "SELECT * FROM ") ∧ LooseEnd "SELECT * FROM " := by
    decide +kernel
  have split (text : Text) : "SELECT * FROM (" ++ text ++ ")" = ("SELECT * FROM " : Text) ++ (['('] ++ text ++ [')']) :=
    rfl
  unfold enclose
  split
  · exact twinEnclosed bracket (twinAny twin)
  · cases closed with
    | true =>
      simp only [if_true, split]
      exact twinAfter derived (twinEnclosed bracket twin)
    | false => exact twin

theorem partsTwins (fresh : root.Fresh) (fresh' : root'.Fresh) (twin : Twin root root' q r) (united : q.unions ≠ []) :
    Twins [] q.parts r.parts := by
  have united' : r.unions ≠ [] := mt (bothNothing twin.unions).mpr united
  have word (all : Bool) : Text.Twin [] (unionKeyword all) (unionKeyword all) := by
    cases all <;> exact twinSame (by decide +kernel)
  have unions : Twins [] (unionParts q.dialect q.unions) (unionParts q.dialect r.unions) := by
    refine List.rel_flatMap twin.unions ?_
    intro part part' parts
    obtain ⟨all, closed, sql⟩ := parts
    simp only [all, closed]
    exact .cons (word part.all) (twinsOne (twinAny (encloseTwin q.dialect part.closed sql)))
  have first := twinsOne (twinAny (encloseTwin q.dialect (!q.tail.isEmpty) (baseTwin fresh fresh' twin)))
  have tail := (Tail.partsTwin twin.unionTail).imp fun _ _ => twinAny
  unfold parts
  rw [if_neg united, if_neg united', twin.dialect, Tail.emptyTwin twin.tail]
  exact twinsAppend (twinsAppend first unions) tail

theorem closedTwin (twin : Twin root root' q r) : r.isClosed = q.isClosed := by
  have united : r.unions.isEmpty = q.unions.isEmpty := by
    rw [Bool.eq_iff_iff, List.isEmpty_iff, List.isEmpty_iff, bothNothing twin.unions]
  rw [isClosed, isClosed, Tail.emptyTwin twin.tail, united]

theorem compileTwin (fresh : root.Fresh) (fresh' : root'.Fresh) (twin : Twin root root' q r) :
    Text.Twin (hiddenIn q.isClosed) q.compile r.compile := by
  apply twinCollapse
  by_cases single : q.unions = []
  · have base := baseTwin fresh fresh' twin
    have alone (text : Text) : Text.joined " " [text] = text := by simp [Text.joined]
    rw [parts, parts, if_pos single, if_pos ((bothNothing twin.unions).mp single), isClosed, single, alone, alone]
    simpa using base
  · have closed : hiddenIn q.isClosed = [] := by simp [hiddenIn, isClosed, single]
    rw [closed]
    exact twinJoined (spacerOf (by decide +kernel)) (partsTwins fresh fresh' twin single)

end Query
end SelectBuilder
