import SelectBuilder.Proofs.Operands
import SelectBuilder.Proofs.LabelledFragments

/-! Statements are collapsed: words with one space between two of them, and nothing else that is white space. A text
that is collapsed already is not touched by collapsing what it stands in, so it is enough to know in which fragment it
stands. -/
namespace SelectBuilder
open Text

namespace Text

structure Collapsed (text : Text) : Prop where
  nonempty : text ≠ []
  starts : startsWord text
  ends : endsWord text
  spaces : ∀ c ∈ text, isBlank c → c = ' '
  single : ¬ [' ', ' '] <:+: text
  stable : collapse text = text

theorem collapseSpaces (text : Text) : ∀ c ∈ collapse text, isBlank c → c = ' ' := by
  induction text with
  | nil => simp [collapse, words, joined]
  | cons c rest ih =>
    rw [collapseCons]
    split
    · exact ih
    · rename_i visible
      split <;> simp [visible] <;> exact ih

theorem collapseSingle (text : Text) : ¬ [' ', ' '] <:+: collapse text := by
  induction text with
  | nil => simp [collapse, words, joined]
  | cons c rest ih =>
    rw [collapseCons]
    split
    · exact ih
    · rename_i visible
      have other : c ≠ ' ' := by
        rintro rfl
        exact visible (by decide)
      split
      · simp [List.infix_cons_iff, other.symm, ih]
      · rename_i apart
        have starts := startsCollapse (mt collapseNothing.mpr fun nothing => apart (.inr nothing))
        have visible' : ¬ [' '] <+: collapse rest := by
          rintro ⟨more, same⟩
          rw [← same] at starts
          contradiction
        simp [List.infix_cons_iff, other.symm, ih, visible']

theorem collapsedCollapse {text : Text} (visible : words text ≠ []) : (collapse text).Collapsed where
  nonempty := collapseSome visible
  starts := startsCollapse visible
  ends := endsCollapse visible
  spaces := collapseSpaces text
  single := collapseSingle text
  stable := collapseTwice text

theorem collapsedEnclosed {text : Text} (collapsed : text.Collapsed) : Collapsed (['('] ++ text ++ [')']) := by
  have visible : words (['('] ++ text ++ [')']) ≠ [] := wordsNonempty rfl
  have same : collapse (['('] ++ text ++ [')']) = ['('] ++ text ++ [')'] := by
    have marks : collapse ['('] = ['('] ∧ collapse [')'] = [')'] := by decide
    have closed : text.gap = [] := by rw [gap, if_pos collapsed.ends]
    rw [collapseBetween rfl collapsed.starts rfl, collapsed.stable, closed, marks.1, marks.2, List.append_nil]
  have whole := collapsedCollapse visible
  rwa [same] at whole

theorem collapseBehind (front : Text) {text : Text} (starts : startsWord text) :
    collapse text <:+ collapse (front ++ text) := by
  by_cases ends : endsWord front
  · rw [collapseAppend ends starts]
    exact List.suffix_append _ _
  · have apart : endsWord front = false := by simpa using ends
    by_cases blank : words front = []
    · have same : collapse (front ++ text) = collapse text := by
        rw [collapse, wordsApart (.inl apart), blank, List.nil_append, ← collapse]
      exact same ▸ List.suffix_rfl
    · rw [collapseApart blank (wordsNonempty starts) (.inl apart)]
      exact ⟨collapse front ++ [' '], by simp⟩

theorem collapseBefore {text : Text} (ends : endsWord text) (back : Text) :
    collapse text <+: collapse (text ++ back) := by
  by_cases starts : startsWord back
  · rw [collapseAppend ends starts]
    exact List.prefix_append _ _
  · have apart : startsWord back = false := by simpa using starts
    by_cases blank : words back = []
    · have same : collapse (text ++ back) = collapse text := by
        rw [collapse, wordsApart (.inr apart), blank, List.append_nil, ← collapse]
      exact same ▸ List.prefix_rfl
    · rw [collapseApart (wordsAtEnd ends) blank (.inr apart)]
      exact List.prefix_append _ _

theorem collapsedStays {text whole : Text} (collapsed : text.Collapsed) (inside : text <:+: whole) :
    text <:+: collapse whole := by
  obtain ⟨front, back, rfl⟩ := inside
  have before := collapseBefore collapsed.ends back
  have behind := collapseBehind front (startsAppendWord collapsed.starts back)
  rw [collapsed.stable] at before
  rw [List.append_assoc]
  exact before.isInfix.trans behind.isInfix

theorem partInside {separator part : Text} {parts : List Text} (member : part ∈ parts) :
    part <:+: joined separator parts := by
  induction parts with
  | nil => contradiction
  | cons first rest ih =>
    cases rest with
    | nil =>
      cases List.mem_singleton.mp member
      simp [joined]
    | cons next rest =>
      rw [joinedCons separator first (by simp), List.append_assoc]
      rcases List.mem_cons.mp member with rfl | later
      · exact (List.prefix_append _ _).isInfix
      · have behind : joined separator (next :: rest) <:+ first ++ (separator ++ joined separator (next :: rest)) :=
          ⟨first ++ separator, by simp⟩
        exact (ih later).trans behind.isInfix

end Text

/-! Where the fragments stand in the statement. -/

namespace Query
variable {q : Query}

theorem compileCollapsed (q : Query) : q.compile.Collapsed := by
  have collapsed := collapsedCollapse q.compileVisible
  have same : collapse q.compile = q.compile := collapseTwice _
  rwa [same] at collapsed

theorem enclosedCollapsed (q : Query) : q.enclosed.Collapsed := collapsedEnclosed q.compileCollapsed

theorem encloseHolds (d : Dialect) (sql : Text) (closed : Bool) : sql <:+: enclose d sql closed := by
  unfold enclose
  split
  · exact ⟨['('], [')'], rfl⟩
  · split
    · exact ⟨"SELECT * FROM (", [')'], rfl⟩
    · exact List.infix_rfl

theorem baseInside (q : Query) : q.base <:+: Text.joined " " q.parts := by
  unfold parts
  split
  · exact partInside (List.mem_singleton_self _)
  · exact (encloseHolds q.dialect q.base _).trans (partInside (List.mem_append_left _ List.mem_cons_self))

theorem tailInside {t : Tail} {text : Text} (member : text ∈ t.orders) : ∃ part ∈ t.parts, text <:+: part := by
  have ordered : t.orders ≠ [] := List.ne_nil_of_mem member
  refine ⟨"ORDER BY " ++ Text.joined ", " t.orders, by simp [Tail.parts, ordered], ?_⟩
  exact (partInside member).trans (List.suffix_append _ _).isInfix

theorem clauseInside (clause : Clause) {parts : List Text} (written : clausePart clause ⊆ parts) :
    clause.text <:+: Text.joined " " parts := by
  by_cases empty : clause.text = []
  · rw [empty]
    exact List.nil_infix
  · have part : clause.text ∈ clausePart clause := by simp [clausePart, empty]
    exact partInside (written part)

theorem basePart {part : Text} : part ∈ q.baseParts ↔
    part = q.selectPart ∨ part ∈ q.source.toList.map (fun table => ("FROM " ++ table : Text)) ∨ part ∈ q.joins ∨
      part ∈ clausePart q.filter ∨ part ∈ (if q.groups = [] then [] else ["GROUP BY " ++ Text.joined ", " q.groups]) ∨
      part ∈ clausePart q.having ∨ part ∈ q.tail.parts := by
  simp only [baseParts, List.mem_append, List.mem_singleton, or_assoc]

theorem textInside {b : Bucket} {text : Text} (member : text ∈ q.texts b) (own : b ≠ .union ∧ b ≠ .unionOrder) :
    text <:+: q.base := by
  have within {part : Text} (among : part ∈ q.baseParts) (inside : text <:+: part) : text <:+: q.base :=
    inside.trans (partInside among)
  have behind {part : Text} (word : Text) (inside : text <:+: part) : text <:+: word ++ part :=
    inside.trans (List.suffix_append _ _).isInfix
  cases b with
  | select =>
    have columns : text ∈ q.columns := member
    have part : q.selectPart ∈ q.baseParts := by simp only [basePart, true_or]
    apply within part
    rw [selectPart, if_neg (List.ne_nil_of_mem columns)]
    exact behind _ (partInside columns)
  | source =>
    have source : text ∈ q.source.toList := member
    have among : ("FROM " ++ text : Text) ∈ q.source.toList.map fun table => ("FROM " ++ table : Text) :=
      List.mem_map_of_mem source
    have part : ("FROM " ++ text : Text) ∈ q.baseParts := by simp only [basePart, among, true_or, or_true]
    exact within part (behind _ List.infix_rfl)
  | join =>
    have among : text ∈ q.joins := member
    exact within (by simp only [basePart, among, true_or, or_true]) List.infix_rfl
  | filter =>
    cases List.mem_singleton.mp member
    exact clauseInside q.filter fun part among => by simp only [basePart, among, true_or, or_true]
  | groups =>
    have groups : text ∈ q.groups := member
    have among : ("GROUP BY " ++ Text.joined ", " q.groups : Text) ∈
        (if q.groups = [] then [] else ["GROUP BY " ++ Text.joined ", " q.groups] : List Text) := by
      rw [if_neg (List.ne_nil_of_mem groups)]
      exact List.mem_singleton_self _
    have part : ("GROUP BY " ++ Text.joined ", " q.groups : Text) ∈ q.baseParts := by
      simp only [basePart, among, true_or, or_true]
    exact within part (behind _ (partInside groups))
  | having =>
    cases List.mem_singleton.mp member
    exact clauseInside q.having fun part among => by simp only [basePart, among, true_or, or_true]
  | order =>
    obtain ⟨part, among, inside⟩ := tailInside member
    exact within (by simp only [basePart, among, or_true]) inside
  | union => exact absurd rfl own.1
  | unionOrder => exact absurd rfl own.2

theorem unionInside {part : UnionPart} (member : part ∈ q.unions) :
    enclose q.dialect part.sql part.closed <:+: Text.joined " " q.parts := by
  have united : q.unions ≠ [] := List.ne_nil_of_mem member
  apply partInside
  rw [parts, if_neg united]
  apply List.mem_append_left
  apply List.mem_append_right
  exact List.mem_flatMap.mpr ⟨part, member, by simp⟩

end Query

end SelectBuilder
