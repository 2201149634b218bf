import SelectBuilder.Criterion
import SelectBuilder.Proofs.ClauseTree
import SelectBuilder.Proofs.LabelledText

/-! Predicates and criteria as labelled texts. Between what a clause holds and a new predicate stands plain text; a
group that is withdrawn leaves the text as it was before the group was opened. -/
namespace SelectBuilder
open Labelled

namespace Clause

def joint (keyword : Text) (c : Connective) (clause : Clause) : Text :=
  ((clause.connect keyword c).lead []).drop clause.text.length

def closedLabelled (keyword : Text) (c : Connective) (outer inner : Clause) (before within : Labelled) : Labelled :=
  if Text.byteLength inner.text = Text.byteLength (outer.openGroup keyword c).text then before
  else within ++ plain [')']

theorem ledInert (text word : Text) (inert : word.Inert) :
    ∃ more : Text, more.Inert ∧ led text word = text ++ more := by
  by_cases settled : text.Settled
  · have spaced : Text.Inert ([' '] ++ word) := Text.inertAppend (by decide) inert
    exact ⟨' ' :: word, spaced, ledSettled settled word⟩
  · exact ⟨word, inert, ledAtStart settled word⟩

theorem ledAllInert (text : Text) {words : List Text} (inert : ∀ word ∈ words, word.Inert) :
    ∃ more : Text, more.Inert ∧ ledAll text words = text ++ more := by
  induction words generalizing text with
  | nil => exact ⟨[], ⟨rfl, rfl⟩, by simp [ledAll]⟩
  | cons word rest ih =>
    obtain ⟨front, first, one⟩ := ledInert text word (inert word List.mem_cons_self)
    obtain ⟨more, later, longer⟩ := ih (led text word) fun word member => inert word (List.mem_cons_of_mem _ member)
    refine ⟨front ++ more, Text.inertAppend first later, ?_⟩
    rw [← List.append_assoc, ← one]
    exact longer

theorem headsInert {keyword : Text} (inert : keyword.Inert) (c : Connective) (ending : Ending) :
    ∀ word ∈ heads keyword c ending, word.Inert := by
  have words : ∀ word ∈ c.laterWords, word.Inert := by
    obtain ⟨logic, negated, existential⟩ := c
    cases logic <;> cases negated <;> cases existential <;> decide
  have first := fun word member => words word (List.mem_cons_of_mem _ member)
  cases ending with
  | empty => exact List.forall_mem_cons.mpr ⟨inert, first⟩
  | opened => exact first
  | complete => exact words

theorem jointSpec {keyword : Text} (inert : keyword.Inert) (c : Connective) (clause : Clause) :
    (clause.joint keyword c).Inert ∧ (clause.connect keyword c).lead [] = clause.text ++ clause.joint keyword c := by
  obtain ⟨words, first, connected⟩ := ledAllInert clause.text (headsInert inert c clause.ending)
  obtain ⟨gap, later, spaced⟩ := ledInert (clause.text ++ words) [] ⟨rfl, rfl⟩
  have whole : (clause.connect keyword c).lead [] = clause.text ++ (words ++ gap) := by
    change led (clause.connect keyword c).text [] = _
    rw [connectText, connected, spaced, List.append_assoc]
  have same : clause.joint keyword c = words ++ gap := by rw [joint, whole, List.drop_left]
  rw [same]
  exact ⟨Text.inertAppend first later, whole⟩

theorem termText {keyword : Text} (inert : keyword.Inert) (c : Connective) (clause : Clause) (word : Text) :
    (clause.connect keyword c).lead word = clause.text ++ clause.joint keyword c ++ word := by
  have split := ledAppend (clause.connect keyword c).text [] word
  change led (clause.connect keyword c).text word = _
  rw [← List.nil_append word, ← split]
  change (clause.connect keyword c).lead [] ++ word = _
  rw [(jointSpec inert c clause).2, List.nil_append]

end Clause

/-! One predicate. -/
namespace Predicate

def infixedLabelled (column : Labelled) (op : Operator) (operand : Labelled) : Labelled :=
  column ++ plain ([' '] ++ op.sql ++ [' ']) ++ operand

def rangeLabelled : Arg → Labelled
  | .list [low, high] => ofArg low ++ plain " AND " ++ ofArg high
  | _ => []

def listLabelled : Arg → Labelled
  | .list items => plain ['('] ++ joined (plain ",") (ofArgs items) ++ plain [')']
  | arg => ofArg arg

def labelled (column : Labelled) (op : Operator) (operand : Arg) : Labelled :=
  if operand.isNull then infixedLabelled column (op.nullForm.getD op) (plain "NULL")
  else if op.takesRange then infixedLabelled column op (rangeLabelled operand)
  else if op.takesList then infixedLabelled column op (listLabelled operand)
  else infixedLabelled column op (ofArg operand)

def Shown (p : Predicate) (before : List Arg) (labelled : Labelled) : Prop :=
  labelled.text = p.text ∧ Carries labelled (before ++ p.bound)

theorem compareRaw {column : Text} {op : Operator} {sql : Text} {p : Predicate}
    (ok : compare column op (.raw sql) = .ok p) : p = infixed column op sql [] := by
  cases compareIs ok with
  | raw lists => rfl
  | single plain given alone => rfl

variable {column : Labelled} {before : List Arg} (left : Carries column before)
include left

theorem infixedShown (op : Operator) {operand : Labelled} {bound : List Arg} (right : Carries operand bound) :
    (infixed column.text op operand.text bound).Shown before (infixedLabelled column op operand) := by
  have middle : Text.Inert ([' '] ++ op.sql ++ [' ']) :=
    Text.inertAppend (Text.inertAppend (by decide) op.sqlInert) (by decide)
  have whole := carriesAppend (carriesAppend left (carriesPlain middle)) right
  rw [List.append_nil] at whole
  refine ⟨?_, whole⟩
  simp [infixedLabelled, infixed]

theorem compareShown {op : Operator} {operand : Arg} {p : Predicate} (inert : operand.Inert)
    (ok : compare column.text op operand = .ok p) : p.Shown before (labelled column op operand) := by
  cases compareIs ok with
  | @null form found =>
    have null : Carries (plain "NULL") [] := carriesPlain (by decide)
    have shown := infixedShown left form null
    rw [textPlain] at shown
    simpa only [labelled, Arg.isNull, if_true, found, Option.getD_some] using shown
  | @range low high ranges =>
    have word : Carries (plain " AND ") [] := carriesPlain (by decide)
    have both := carriesAppend (carriesAppend (carriesOfArg inert.1) word) (carriesOfArg inert.2.1)
    have bound : low.leaves ++ [] ++ high.leaves = Arg.leavesOf [low, high] := by simp [Arg.leavesOf]
    rw [bound] at both
    have shown := infixedShown left op both
    rw [textAppend, textAppend, textOfArg, textOfArg, textPlain] at shown
    simpa only [labelled, Arg.isNull, Bool.false_eq_true, if_false, ranges, if_true, rangeLabelled] using shown
  | @list first rest lists =>
    have noRange (ranges : op.takesRange) := Operator.rangeTakesNoList ranges lists
    have opening : Carries (plain ['(']) [] := carriesPlain (by decide)
    have closing : Carries (plain [')']) [] := carriesPlain (by decide)
    have comma : Carries (plain ",") [] := carriesPlain (by decide)
    have inside := carriesAppend (carriesAppend opening (carriesJoined comma (allCarryOfArgs inert))) closing
    rw [List.nil_append, List.append_nil] at inside
    have shown := infixedShown left op inside
    rw [textAppend, textAppend, textJoined, textOfArgs, textPlain, textPlain, textPlain] at shown
    simpa only [labelled, Arg.isNull, Bool.false_eq_true, if_false, if_neg noRange, lists, if_true, listLabelled]
      using shown
  | @raw sql lists =>
    have noRange (ranges : op.takesRange) := Operator.rangeTakesNoList ranges lists
    have shown := infixedShown left op (carriesPlain (inert : sql.Inert))
    rw [textPlain] at shown
    simpa only [labelled, Arg.isNull, Bool.false_eq_true, if_false, if_neg noRange, lists, if_true, listLabelled, ofArg]
      using shown
  | single plain given alone =>
    have shown := infixedShown left op (carriesOfArg inert)
    rw [textOfArg] at shown
    simpa only [labelled, given, plain, Bool.false_eq_true, if_false] using shown

end Predicate

/-! Predicates one after the other, and in groups. -/
namespace Criterion

mutual
def labelled (d : Dialect) (keyword : Text) : Criterion → Section → Labelled → Labelled
  | .leaf column operator operand c, s, before =>
    match Operator.parse operator with
    | .ok op => before ++ plain (s.clause.joint keyword c) ++ Predicate.labelled (plain (column.render d)) op operand
    | .error _ => before
  | .nest items _ _ c, s, before =>
    match pushAll d keyword items (s.openGroup keyword c) with
    | .ok inner =>
      Clause.closedLabelled keyword c s.clause inner.clause before <|
        labelledAll d keyword items (s.openGroup keyword c) (before ++ plain (s.clause.joint keyword c ++ ['(']))
    | .error _ => before

def labelledAll (d : Dialect) (keyword : Text) : List Criterion → Section → Labelled → Labelled
  | [], _, before => before
  | item :: rest, s, before =>
    match push d keyword item s with
    | .ok next => labelledAll d keyword rest next (labelled d keyword item s before)
    | .error _ => before
end

mutual
def Inert : Criterion → Prop
  | .leaf column _ operand _ => column.Inert ∧ operand.Inert
  | .nest items _ _ _ => AllInert items

def AllInert : List Criterion → Prop
  | [] => True
  | item :: rest => Inert item ∧ AllInert rest
end

end Criterion

def Section.Shown (s : Section) (labelled : Labelled) : Prop := labelled.text = s.clause.text ∧ Carries labelled s.bound

namespace Section

theorem addShown {s : Section} {labelled : Labelled} (shown : s.Shown labelled) {keyword : Text} (inert : keyword.Inert)
    (c : Connective) {p : Predicate} {before : List Arg} {added : Labelled} (predicate : p.Shown before added) :
    Shown ⟨(s.clause.connect keyword c).term p.text, s.bound ++ (before ++ p.bound)⟩
      (labelled ++ plain (s.clause.joint keyword c) ++ added) := by
  obtain ⟨text, carries⟩ := shown
  obtain ⟨written, added⟩ := predicate
  have joint := carriesPlain (Clause.jointSpec inert c s.clause).1
  constructor
  · change _ = (s.clause.connect keyword c).lead p.text
    rw [Clause.termText inert, textAppend, textAppend, textPlain, text, written]
  · have whole := carriesAppend (carriesAppend carries joint) added
    rwa [List.append_nil] at whole

theorem openGroupShown {s : Section} {labelled : Labelled} (shown : s.Shown labelled) {keyword : Text}
    (inert : keyword.Inert)
    (c : Connective) : (s.openGroup keyword c).Shown (labelled ++ plain (s.clause.joint keyword c ++ ['('])) := by
  obtain ⟨text, carries⟩ := shown
  have opening : Text.Inert (s.clause.joint keyword c ++ ['(']) :=
    Text.inertAppend (Clause.jointSpec inert c s.clause).1 (by decide)
  constructor
  · change _ = (s.clause.connect keyword c).lead ['(']
    rw [Clause.termText inert, textAppend, textPlain, text, List.append_assoc]
  · have whole := carriesAppend carries (carriesPlain opening)
    rwa [List.append_nil] at whole

theorem closeGroupShown {outer inner next : Section} {before within : Labelled} {keyword : Text} (inert : keyword.Inert)
    {c : Connective} (outside : outer.Shown before) (inside : inner.Shown within)
    (grown : before ++ plain (outer.clause.joint keyword c ++ ['(']) <+: within)
    (ok : outer.closeGroup keyword c inner = .ok next) :
    next.Shown (Clause.closedLabelled keyword c outer.clause inner.clause before within) := by
  obtain ⟨more, whole⟩ := grown
  obtain ⟨text, carries⟩ := inside
  have opened := openGroupShown outside inert c
  obtain ⟨clause, closed, last⟩ := bindIsOk ok
  cases last
  unfold Clause.closeGroup at closed
  unfold Clause.closedLabelled
  split at closed
  · rename_i same
    have openedText : (before ++ plain (outer.clause.joint keyword c ++ ['('])).text =
        (outer.clause.openGroup keyword c).text := opened.1
    -- A group that received no text received no values either.
    have noMore : more = [] := by
      have bytes := congrArg Text.byteLength text
      rw [← whole, textAppend, openedText, Text.byteLengthAppend, same] at bytes
      exact textNothing.mp (Text.byteLengthZero (by omega))
    rw [noMore, List.append_nil] at whole
    have bound : inner.bound = outer.bound := by
      have both := carries.2
      rw [← whole, opened.2.2] at both
      exact ((List.map_inj_right fun _ _ => Option.some.inj).mp both).symm
    have taken : Text.takeBytes? (Text.byteLength outer.clause.text) inner.clause.text = some outer.clause.text := by
      rw [← text, ← whole, textAppend, outside.1, Text.takeBytesAppend]
    rw [taken] at closed
    cases closed
    rw [if_pos same]
    refine ⟨outside.1, ?_⟩
    rw [bound]
    exact outside.2
  · rename_i longer
    cases closed
    rw [if_neg longer]
    constructor
    · rw [textAppend, textPlain, text]
    · have both := carriesAppend carries (carriesPlain (t := [')']) (by decide))
      rwa [List.append_nil] at both

end Section

namespace Clause

theorem closedPrefix {keyword : Text} {c : Connective} {outer inner : Clause} {before within : Labelled}
    {more : Labelled}
    (grown : before ++ more <+: within) : before <+: closedLabelled keyword c outer inner before within := by
  unfold closedLabelled
  split
  · exact List.prefix_rfl
  · exact (List.prefix_append before more).trans (grown.trans (List.prefix_append within _))

end Clause

namespace Criterion

mutual
theorem labelledPrefix (d : Dialect) (keyword : Text) (item : Criterion) (s : Section) (before : Labelled) :
    before <+: labelled d keyword item s before := by
  cases item with
  | leaf column operator operand c =>
    rw [labelled]
    split
    · rw [List.append_assoc]
      exact List.prefix_append _ _
    · exact List.prefix_rfl
  | nest items operator operand c =>
    rw [labelled]
    split
    · exact Clause.closedPrefix (labelledAllPrefix d keyword items _ _)
    · exact List.prefix_rfl

theorem labelledAllPrefix (d : Dialect) (keyword : Text) (items : List Criterion) (s : Section) (before : Labelled) :
    before <+: labelledAll d keyword items s before := by
  cases items with
  | nil => exact List.prefix_rfl
  | cons item rest =>
    rw [labelledAll]
    split
    · exact (labelledPrefix d keyword item s before).trans (labelledAllPrefix d keyword rest _ _)
    · exact List.prefix_rfl
end

mutual
theorem labelledShown (d : Dialect) {keyword : Text} (word : keyword.Inert) {item : Criterion} (inert : item.Inert)
    {s next : Section} {before : Labelled} (shown : s.Shown before) (ok : item.push d keyword s = .ok next) :
    next.Shown (item.labelled d keyword s before) := by
  cases item with
  | leaf column operator operand c =>
    obtain ⟨op, p, parsed, compared, rfl⟩ := leafPushed ok
    have name : Carries (plain (column.render d)) [] := carriesPlain (Ident.renderInert d inert.1)
    have same : Predicate.compare (plain (column.render d)).text op operand = .ok p := by rw [textPlain, compared]
    simp only [labelled, parsed]
    exact Section.addShown shown word c (Predicate.compareShown name inert.2 same)
  | nest items operator operand c =>
    obtain ⟨op, parsed, rest⟩ := bindIsOk ok
    have opened := Section.openGroupShown shown word c
    rw [labelled]
    split at rest
    · split at rest
      · rename_i nothing
        cases rest
        cases List.isEmpty_iff.mp nothing
        simp only [pushAll, Clause.closedLabelled, Section.openGroup, if_true]
        exact shown
      · obtain ⟨inner, pushed, closed⟩ := bindIsOk rest
        have inside := labelledAllShown d word inert opened pushed
        simp only [pushed]
        exact Section.closeGroupShown word shown inside (labelledAllPrefix d keyword items _ _) closed
    · contradiction

theorem labelledAllShown (d : Dialect) {keyword : Text} (word : keyword.Inert) {items : List Criterion}
    (inert : AllInert items) {s next : Section} {before : Labelled} (shown : s.Shown before)
    (ok : pushAll d keyword items s = .ok next) : next.Shown (labelledAll d keyword items s before) := by
  cases items with
  | nil =>
    cases ok
    exact shown
  | cons item rest =>
    obtain ⟨middle, first, later⟩ := bindIsOk ok
    simp only [labelledAll, first]
    exact labelledAllShown d word inert.2 (labelledShown d word inert.1 shown first) later
end

end Criterion
end SelectBuilder
