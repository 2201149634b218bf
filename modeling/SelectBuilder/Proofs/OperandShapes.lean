import SelectBuilder.Proofs.InPlace

/-! What a test of one column writes, and what it binds. The operands in lists are laid out flat, each in one place of
the statement, but whether they fit is judged by the outermost list. So the text has the shape the operator asks for
exactly when no list inside is empty and a range has two ends; a question mark stands for each bound value in any
case. Where the members of a list are single operands the judgement is right: what does not fit is refused. -/
namespace SelectBuilder

/-- A place of a statement: a question mark for a value, or written SQL. -/
inductive Slot
  | hole (arg : Arg)
  | written (sql : Text)

namespace Slot

def text : Slot → Text
  | .hole _ => ['?']
  | .written sql => sql

def sql : Slot → Text
  | .hole _ => []
  | .written sql => sql

def bound : Slot → List Arg
  | .hole arg => [arg]
  | .written _ => []

end Slot

namespace Arg

mutual
def slots : Arg → List Slot
  | .value v => [.hole (.value v)]
  | .lazy outcome => [.hole (.lazy outcome)]
  | .raw sql => [.written sql]
  | .list items => slotsOf items

def slotsOf : List Arg → List Slot
  | [] => []
  | arg :: rest => slots arg ++ slotsOf rest
end

mutual
def Gapless : Arg → Prop
  | .value _ => True
  | .lazy _ => True
  | .raw _ => True
  | .list items => items ≠ [] ∧ AllGapless items

def AllGapless : List Arg → Prop
  | [] => True
  | arg :: rest => Gapless arg ∧ AllGapless rest
end

def EachSingle : Arg → Prop
  | .list items => ∀ item ∈ items, item.slots.length = 1
  | _ => False

def room : List Text → Nat
  | [] => 0
  | text :: rest => text.length + 1 + room rest

theorem roomAppend (a b : List Text) : room (a ++ b) = room a + room b := by
  induction a with
  | nil => simp [room]
  | cons text rest ih => simp only [List.cons_append, room, ih, Nat.add_assoc]

theorem joinedRoom {parts : List Text} (nonempty : parts ≠ []) : (Text.joined "," parts).length + 1 = room parts := by
  induction parts with
  | nil => contradiction
  | cons part rest ih =>
    cases rest with
    | nil => simp [Text.joined, room]
    | cons next more =>
      have comma : (("," : String) : Text).length = 1 := rfl
      have later := ih (List.cons_ne_nil next more)
      rw [Text.joinedCons "," part (List.cons_ne_nil next more), room, ← later]
      simp only [List.length_append]
      omega

mutual
theorem leavesSlots (arg : Arg) : arg.leaves = arg.slots.flatMap Slot.bound := by
  cases arg with
  | value v => rfl
  | «lazy» outcome => rfl
  | raw sql => rfl
  | list items => exact leavesSlotsOf items

theorem leavesSlotsOf (items : List Arg) : leavesOf items = (slotsOf items).flatMap Slot.bound := by
  cases items with
  | nil => rfl
  | cons arg rest => rw [leavesOf, slotsOf, List.flatMap_append, leavesSlots arg, leavesSlotsOf rest]
end

/-! Every empty list inside takes room, so only without one is the room that of the operands. -/

mutual
theorem slotsFit (arg : Arg) : room (arg.slots.map Slot.text) ≤ arg.placeholder.length + 1 ∧
    (room (arg.slots.map Slot.text) = arg.placeholder.length + 1 ↔ arg.Gapless) := by
  cases arg with
  | value v => exact ⟨Nat.le_refl _, iff_of_true rfl trivial⟩
  | «lazy» outcome => exact ⟨Nat.le_refl _, iff_of_true rfl trivial⟩
  | raw sql => exact ⟨Nat.le_refl _, iff_of_true rfl trivial⟩
  | list items =>
    obtain ⟨fits, exact⟩ := slotsOfFit items
    simp only [slots, placeholder, Gapless]
    cases items with
    | nil => simp [slotsOf, room]
    | cons first rest =>
      have nonempty : placeholders (first :: rest) ≠ [] := List.cons_ne_nil _ _
      rw [joinedRoom nonempty]
      exact ⟨fits, exact.trans (and_iff_right (List.cons_ne_nil first rest)).symm⟩

theorem slotsOfFit (items : List Arg) : room ((slotsOf items).map Slot.text) ≤ room (placeholders items) ∧
    (room ((slotsOf items).map Slot.text) = room (placeholders items) ↔ AllGapless items) := by
  cases items with
  | nil => exact ⟨Nat.le_refl _, iff_of_true rfl trivial⟩
  | cons arg rest =>
    obtain ⟨first, one⟩ := slotsFit arg
    obtain ⟨later, others⟩ := slotsOfFit rest
    simp only [slotsOf, List.map_append, roomAppend, placeholders, room, AllGapless, ← one, ← others]
    exact ⟨Nat.add_le_add first later, by omega⟩
end

mutual
theorem gaplessPlaceholder {arg : Arg} (gapless : arg.Gapless) :
    arg.slots ≠ [] ∧ arg.placeholder = Text.joined "," (arg.slots.map Slot.text) := by
  cases arg with
  | value v => exact ⟨List.cons_ne_nil _ _, rfl⟩
  | «lazy» outcome => exact ⟨List.cons_ne_nil _ _, rfl⟩
  | raw sql => exact ⟨List.cons_ne_nil _ _, by simp [placeholder, slots, Slot.text, Text.joined]⟩
  | list items => exact gaplessPlaceholders gapless.1 gapless.2

theorem gaplessPlaceholders {items : List Arg} (nonempty : items ≠ []) (gapless : AllGapless items) :
    slotsOf items ≠ [] ∧ Text.joined "," (placeholders items) = Text.joined "," ((slotsOf items).map Slot.text) := by
  cases items with
  | nil => contradiction
  | cons arg rest =>
    obtain ⟨first, one⟩ := gaplessPlaceholder gapless.1
    refine ⟨by simp [slotsOf, first], ?_⟩
    cases rest with
    | nil => simp [placeholders, slotsOf, one, Text.joined]
    | cons next more =>
      obtain ⟨later, others⟩ := gaplessPlaceholders (List.cons_ne_nil next more) gapless.2
      have parts : placeholders (next :: more) ≠ [] := List.cons_ne_nil _ _
      rw [placeholders, Text.joinedCons "," _ parts, slotsOf, List.map_append,
        Text.joinedAppend "," (by simpa using first) (by simpa using later), one, others]
end

theorem singlePlaceholder {arg : Arg} (gapless : arg.Gapless) {slot : Slot} (one : arg.slots = [slot]) :
    arg.placeholder = slot.text := by
  rw [(gaplessPlaceholder gapless).2, one]
  simp [Text.joined]

/-! Question marks. -/

def rawText (slots : List Slot) : Text := slots.flatMap Slot.sql

theorem joinedMarks (parts : List Text) : (Text.joined "," parts).count '?' = parts.flatten.count '?' := by
  induction parts with
  | nil => rfl
  | cons part rest ih =>
    cases rest with
    | nil => simp [Text.joined]
    | cons next more =>
      have comma : (("," : String) : Text).count '?' = 0 := rfl
      rw [Text.joinedCons "," part (List.cons_ne_nil next more), List.flatten_cons, List.count_append,
        List.count_append, List.count_append, ih, comma, Nat.add_zero]

mutual
theorem placeholderMarks (arg : Arg) :
    arg.placeholder.count '?' = arg.leaves.length + (rawText arg.slots).count '?' := by
  cases arg with
  | value v => rfl
  | «lazy» outcome => rfl
  | raw sql => simp [placeholder, leaves, slots, rawText, Slot.sql]
  | list items =>
    rw [placeholder, joinedMarks]
    exact placeholdersMarks items

theorem placeholdersMarks (items : List Arg) :
    (placeholders items).flatten.count '?' = (leavesOf items).length + (rawText (slotsOf items)).count '?' := by
  cases items with
  | nil => rfl
  | cons arg rest =>
    have first := placeholderMarks arg
    have later := placeholdersMarks rest
    simp only [rawText] at first later
    simp only [placeholders, leavesOf, slotsOf, rawText, List.flatten_cons, List.length_append, List.flatMap_append,
      List.count_append]
    omega
end

end Arg

open Arg (Gapless rawText)

inductive Shaped (column : Text) (op : Operator) (operand : Arg) (text : Text) : Prop
  | single {slot : Slot} (plain : op.takesRange = false ∧ op.takesList = false) (given : operand.isNull = false)
      (one : operand.slots = [slot]) (same : text = Text.joined " " [column, op.sql, slot.text])
  | range {low high : Slot} (ranges : op.takesRange) (two : operand.slots = [low, high])
      (same : text = Text.joined " " [column, op.sql, low.text, "AND", high.text])
  | list {items : List Arg} (lists : op.takesList) (all : operand = .list items) (spread : operand.slots ≠ [])
      (same : text = Text.joined " " [column, op.sql, ['('] ++ Text.joined "," (operand.slots.map Slot.text) ++ [')']])
  | raw {sql : Text} (lists : op.takesList) (alone : operand = .raw sql)
      (same : text = Text.joined " " [column, op.sql, sql])
  | null {form : Operator} (absent : operand.isNull) (found : op.nullForm = some form)
      (tests : form = .is ∨ form = .isNot) (same : text = Text.joined " " [column, form.sql, "NULL"])

namespace Predicate
variable {column : Text} {op : Operator}

theorem infixedJoined (column : Text) (op : Operator) (operand : Text) (bound : List Arg) :
    (infixed column op operand bound).text = Text.joined " " [column, op.sql, operand] := by
  simp [infixed, Text.joined, List.intercalate, List.intersperse]

theorem infixedOperand {given wanted : Text} {bound : List Arg}
    (same : (infixed column op given bound).text = Text.joined " " [column, op.sql, wanted]) : given = wanted :=
  List.append_cancel_left (same.trans (infixedJoined column op wanted bound).symm)

theorem rangeJoined (column : Text) (op : Operator) (low high : Text) :
    Text.joined " " [column, op.sql, low, "AND", high] = Text.joined " " [column, op.sql, low ++ " AND " ++ high] := by
  simp [Text.joined, List.intercalate, List.intersperse]

theorem rangeShaped (ranges : op.takesRange) (low high : Arg) (bound : List Arg) :
    Shaped column op (.list [low, high])
        (infixed column op (low.placeholder ++ " AND " ++ high.placeholder) bound).text ↔
      (Arg.list [low, high]).Gapless ∧ (Arg.list [low, high]).slots.length = 2 := by
  have slots : (Arg.list [low, high]).slots = low.slots ++ high.slots := by simp [Arg.slots, Arg.slotsOf]
  have gapless : (Arg.list [low, high]).Gapless ↔ low.Gapless ∧ high.Gapless := by simp [Arg.Gapless, Arg.AllGapless]
  constructor
  · intro shaped
    cases shaped with
    | single plain => simp [ranges] at plain
    | @range first last _ two same =>
      refine ⟨gapless.mpr ?_, by rw [two]; rfl⟩
      obtain ⟨lowFits, lowExact⟩ := low.slotsFit
      obtain ⟨highFits, highExact⟩ := high.slotsFit
      have room : Arg.room (low.slots.map Slot.text) + Arg.room (high.slots.map Slot.text) =
          first.text.length + last.text.length + 2 := by
        rw [← Arg.roomAppend, ← List.map_append, ← slots, two]
        simp only [List.map_cons, List.map_nil, Arg.room]
        omega
      -- Both texts are equally long, and neither end has less room than its operands take.
      have length := congrArg List.length (infixedOperand (same.trans (rangeJoined ..)))
      simp only [List.length_append] at length
      exact ⟨lowExact.mp (by omega), highExact.mp (by omega)⟩
    | list lists => exact absurd lists (Operator.rangeTakesNoList ranges)
    | raw lists => exact absurd lists (Operator.rangeTakesNoList ranges)
    | null absent => contradiction
  · rintro ⟨whole, two⟩
    obtain ⟨lowWhole, highWhole⟩ := gapless.mp whole
    have lowSome := List.length_pos_iff.mpr (Arg.gaplessPlaceholder lowWhole).1
    have highSome := List.length_pos_iff.mpr (Arg.gaplessPlaceholder highWhole).1
    rw [slots, List.length_append] at two
    obtain ⟨first, lowOne⟩ := List.length_eq_one_iff.mp (show low.slots.length = 1 by omega)
    obtain ⟨last, highOne⟩ := List.length_eq_one_iff.mp (show high.slots.length = 1 by omega)
    have both : (Arg.list [low, high]).slots = [first, last] := by rw [slots, lowOne, highOne]; rfl
    refine .range ranges both ?_
    rw [rangeJoined, infixedJoined, Arg.singlePlaceholder lowWhole lowOne, Arg.singlePlaceholder highWhole highOne]

theorem listShaped (lists : op.takesList) (items : List Arg) (bound : List Arg) :
    Shaped column op (.list items)
        (infixed column op (['('] ++ Text.joined "," (Arg.placeholders items) ++ [')']) bound).text ↔
      (Arg.list items).Gapless := by
  constructor
  · intro shaped
    cases shaped with
    | single plain => simp [lists] at plain
    | range ranges => exact absurd lists (Operator.rangeTakesNoList ranges)
    | list _ _ spread same =>
      obtain ⟨_, exact⟩ := (Arg.list items).slotsFit
      have inside := List.append_cancel_left (List.append_cancel_right (infixedOperand same))
      refine exact.mp ?_
      rw [← Arg.joinedRoom (by simpa using spread), ← inside]
      rfl
    | raw _ alone => contradiction
    | null absent => contradiction
  · intro whole
    obtain ⟨spread, same⟩ := Arg.gaplessPlaceholder whole
    refine .list lists rfl spread ?_
    rw [infixedJoined, ← same]
    rfl

theorem singleSlot {operand : Arg} (alone : ∀ items, operand ≠ .list items) :
    operand.Gapless ∧ ∃ slot, operand.slots = [slot] ∧ operand.placeholder = slot.text := by
  cases operand with
  | value v => exact ⟨trivial, _, rfl, rfl⟩
  | «lazy» outcome => exact ⟨trivial, _, rfl, rfl⟩
  | raw sql => exact ⟨trivial, _, rfl, rfl⟩
  | list items => exact absurd rfl (alone items)

theorem infixedMarks {operand : Text} {n : Nat} (marks : operand.count '?' = n) (bound : List Arg) :
    ∃ rest, (infixed column op operand bound).text = column ++ rest ∧ rest.count '?' = n := by
  have silent : op.sql.count '?' = 0 := by cases op <;> rfl
  refine ⟨[' '] ++ op.sql ++ [' '] ++ operand, by simp [infixed], ?_⟩
  simp [List.count_append, silent, marks]

variable {operand : Arg} {p : Predicate} (ok : compare column op operand = .ok p)
include ok

theorem compareBound : p.bound = if operand.isNull then [] else operand.slots.flatMap Slot.bound := by
  cases compareIs ok with
  | null found => rfl
  | range ranges => exact Arg.leavesSlotsOf _
  | list lists => exact Arg.leavesSlotsOf _
  | raw lists => rfl
  | single plain given alone => simp only [infixed, given, Arg.leavesSlots, Bool.false_eq_true, if_false]

theorem compareMarks :
    ∃ rest, p.text = column ++ rest ∧ rest.count '?' = p.bound.length + (rawText operand.slots).count '?' := by
  cases compareIs ok with
  | null found => exact infixedMarks rfl []
  | @range low high ranges =>
    refine infixedMarks ?_ (Arg.leavesOf [low, high])
    have word : ((" AND " : String) : Text).count '?' = 0 := rfl
    have both := Arg.placeholdersMarks [low, high]
    simp only [Arg.placeholders, List.flatten_cons, List.flatten_nil, List.append_nil, List.count_append] at both
    rw [List.count_append, List.count_append, word]
    exact both
  | @list first others lists =>
    refine infixedMarks ?_ (Arg.leavesOf (first :: others))
    rw [List.count_append, List.count_append]
    exact (Nat.zero_add _).trans (Arg.placeholderMarks (.list (first :: others)))
  | @raw sql lists => exact infixedMarks (Arg.placeholderMarks (.raw sql)) []
  | single plain given alone => exact infixedMarks operand.placeholderMarks operand.leaves

theorem compareShaped :
    Shaped column op operand p.text ↔ operand.Gapless ∧ (op.takesRange → operand.slots.length = 2) := by
  cases compareIs ok with
  | null found =>
    obtain ⟨tests, noRange⟩ := Operator.nullFormTests found
    exact iff_of_true (.null rfl found tests (infixedJoined ..)) ⟨trivial, fun ranges => absurd ranges noRange⟩
  | range ranges => exact (rangeShaped ranges _ _ _).trans (and_congr_right fun _ => (imp_iff_right ranges).symm)
  | list lists =>
    have noRange (ranges : op.takesRange) := Operator.rangeTakesNoList ranges lists
    exact (listShaped lists _ _).trans (and_iff_left fun ranges => (noRange ranges).elim).symm
  | raw lists =>
    have noRange (ranges : op.takesRange) := Operator.rangeTakesNoList ranges lists
    exact iff_of_true (.raw lists rfl (infixedJoined ..)) ⟨trivial, fun ranges => (noRange ranges).elim⟩
  | single plain given alone =>
    obtain ⟨whole, slot, one, same⟩ := singleSlot alone
    refine iff_of_true (.single plain given one ?_) ⟨whole, fun ranges => absurd ranges (by simp [plain.1])⟩
    rw [infixedJoined, same]

omit ok

/-! Lists of single operands that do not fit. -/

theorem slotsCount {items : List Arg} (single : ∀ item ∈ items, item.slots.length = 1) :
    (Arg.list items).slots.length = items.length := by
  induction items with
  | nil => rfl
  | cons item rest ih =>
    obtain ⟨first, others⟩ := List.forall_mem_cons.mp single
    have later := ih others
    simp only [Arg.slots, Arg.slotsOf, List.length_append, List.length_cons] at later ⊢
    omega

theorem compareEmpty (lists : op.takesList) : compare column op (.list []) = .error (.emptyIn column) := by
  cases op <;> first | contradiction | rfl

theorem compareCount (ranges : op.takesRange) {items : List Arg} (other : items.length ≠ 2) :
    compare column op (.list items) = .error (.betweenCount column items.length) := by
  have refused : onRange column op (.list items) = .error (.betweenCount column items.length) := by
    unfold onRange
    split
    · rename_i same
      cases same
      contradiction
    · rename_i same
      cases same
      rfl
    · rename_i unlisted
      exact absurd rfl (unlisted items)
  simp only [compare, Arg.isNull, ranges, refused, Bool.false_eq_true, if_false, if_true]

end Predicate

namespace Step

theorem acceptedTestShape (q : Query) (kind : ClauseKind) (column : Ident) (operator : Text) (operand : Arg)
    (c : Connective) :
    let name := column.render q.dialect
    let added : Step := .call (.test kind (.leaf column operator operand c))
    ((added.perform q).result = .ok () → ∃ op p rest, Operator.parse operator = .ok op ∧
      added.next q = q.withPart kind ((q.part kind).add kind.keyword c p) ∧
      p.bound = (if operand.isNull then [] else operand.slots.flatMap Slot.bound) ∧
      p.text = name ++ rest ∧ rest.count '?' = p.bound.length + (rawText operand.slots).count '?' ∧
      (Shaped name op operand p.text ↔ operand.Gapless ∧ (op.takesRange → operand.slots.length = 2))) ∧
    (∀ fault, (added.perform q).result = .error fault → added.next q = q) ∧
    ∀ op, Operator.parse operator = .ok op → operand.EachSingle →
      (op.takesList → operand.slots = [] → (added.perform q).result = .error (.emptyIn name)) ∧
      (op.takesRange → operand.slots.length ≠ 2 →
        (added.perform q).result = .error (.betweenCount name operand.slots.length)) := by
  intro name added
  have refusedFor {op : Operator} {fault : Fault} (parsed : Operator.parse operator = .ok op)
      (refused : Predicate.compare name op operand = .error fault) : (added.perform q).result = .error fault := by
    have applied : added.apply q = .error fault := by
      change q.test kind (.leaf column operator operand c) = _
      simp only [Query.test, Criterion.push, parsed, okBind]
      rw [refused]
      rfl
    exact (performError applied).1
  refine ⟨?_, performSteady added q, ?_⟩
  · intro accepted
    cases found : added.apply q with
    | error fault => simp [(performError found).1] at accepted
    | ok next =>
      obtain ⟨s, pushed, last⟩ := bindIsOk found
      obtain ⟨op, p, parsed, compared, rfl⟩ := Criterion.leafPushed pushed
      obtain ⟨rest, text, marks⟩ := Predicate.compareMarks compared
      refine ⟨op, p, rest, parsed, ?_, Predicate.compareBound compared, text, marks, Predicate.compareShaped compared⟩
      rw [(performOk found).2, ← Except.ok.inj last]
  · intro op parsed single
    cases operand with
    | list items =>
      have count := Predicate.slotsCount single
      refine ⟨fun lists nothing => ?_, fun ranges other => ?_⟩
      · rw [nothing] at count
        cases List.length_eq_zero_iff.mp count.symm
        exact refusedFor parsed (Predicate.compareEmpty lists)
      · rw [count] at other ⊢
        exact refusedFor parsed (Predicate.compareCount ranges other)
    | _ => exact single.elim

theorem nestedListsPass :
    let added (operator : Text) (operand : Arg) : Step := .call (.test .filter (.leaf "a" operator operand .and))
    let one : Arg := .value (.int 1)
    let passes (operator : Text) (operand : Arg) (sql : Text) : Prop :=
      ((added operator operand).perform (.blank .postgresql)).result = .ok () ∧
        ((added operator operand).next (.blank .postgresql)).compile = sql
    passes "in" (.list [.list []]) "SELECT * WHERE \"a\" IN ()" ∧
      passes "in" (.list [one, .list []]) "SELECT * WHERE \"a\" IN (?,)" ∧
      passes "between" (.list [one, .list []]) "SELECT * WHERE \"a\" BETWEEN ? AND" ∧
      passes "not between" (.list [.list [one, one], one]) "SELECT * WHERE \"a\" NOT BETWEEN ?,? AND ?" := by
  refine ⟨⟨rfl, ?_⟩, ⟨rfl, ?_⟩, ⟨rfl, ?_⟩, rfl, ?_⟩ <;> decide +kernel

end Step
end SelectBuilder
