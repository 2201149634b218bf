import SelectBuilder.Clause

/-! What a clause stands for: a list of items, each a predicate or a group of items in parentheses, joined to
what is before it by a connective. Groups without a predicate in them do not count. Printing such a list is
straightforward, with every word of a connective spelled out; a clause that grows by one item after the other has the
same text, as long as no predicate is empty or ends in an opening parenthesis. -/
namespace SelectBuilder

def Logic.word : Logic → Text
  | .and => "AND"
  | .or => "OR"
  | .xor => "XOR"

namespace Connective

def modifierWords (negated existential : Bool) : List Text :=
  (if negated then [("NOT" : Text)] else []) ++ (if existential then [("EXISTS" : Text)] else [])

def firstWords (c : Connective) : List Text := modifierWords c.negated c.existential

def laterWords (c : Connective) : List Text := c.logic.word :: c.firstWords

end Connective

inductive Item
  | predicate (c : Connective) (text : Text)
  | group (c : Connective) (items : List Item)

namespace Item

mutual
/-- The item without the groups that hold nothing; none at all if it is such a group. -/
def prune : Item → List Item
  | .predicate c text => [.predicate c text]
  | .group c items =>
    match pruneAll items with
    | [] => []
    | first :: rest => [.group c (first :: rest)]

def pruneAll : List Item → List Item
  | [] => []
  | item :: rest => prune item ++ pruneAll rest
end

def connective : Item → Connective
  | .predicate c _ => c
  | .group c _ => c

mutual
def body : Item → Text
  | .predicate _ text => text
  | .group _ items => ['('] ++ Text.joined " " (line items) ++ [')']

def line : List Item → List Text
  | [] => []
  | item :: rest => item.connective.firstWords ++ body item :: laterLine rest

def laterLine : List Item → List Text
  | [] => []
  | item :: rest => item.connective.laterWords ++ body item :: laterLine rest
end

def print (keyword : Text) : List Item → Text
  | [] => []
  | item :: rest => Text.joined " " (keyword :: line (item :: rest))

end Item

/-! A word after which a space is due. -/

def Text.Settled (text : Text) : Prop := text ≠ [] ∧ text.getLast? ≠ some '('

instance (text : Text) : Decidable text.Settled := inferInstanceAs (Decidable (_ ∧ _))

namespace Clause

def led (text word : Text) : Text := lead ⟨text, .empty⟩ word

def ledAll (text : Text) (words : List Text) : Text := words.foldl led text

theorem ledSettled {text : Text} (settled : text.Settled) (word : Text) : led text word = text ++ ' ' :: word := by
  have due : ¬ (text = [] ∨ text.getLast? = some '(') := not_or.mpr settled
  simp only [led, lead, if_neg due]

theorem ledAtStart {text : Text} (start : ¬ text.Settled) (word : Text) : led text word = text ++ word := by
  have early : text = [] ∨ text.getLast? = some '(' := by
    by_cases empty : text = []
    · exact .inl empty
    · by_cases opens : text.getLast? = some '('
      · exact .inr opens
      · exact absurd ⟨empty, opens⟩ start
  simp only [led, lead, if_pos early]

theorem ledAppend (text word more : Text) : led text word ++ more = led text (word ++ more) := by
  by_cases settled : text.Settled
  · simp only [ledSettled settled, List.append_assoc, List.cons_append]
  · simp only [ledAtStart settled, List.append_assoc]

theorem settledAppend (text : Text) {word : Text} (settled : word.Settled) : (text ++ word).Settled := by
  obtain ⟨nonempty, closed⟩ := settled
  rw [List.getLast?_eq_some_getLast nonempty] at closed
  constructor
  · simp [nonempty]
  · rwa [List.getLast?_append, List.getLast?_eq_some_getLast nonempty]

theorem ledIsSettled (text : Text) {word : Text} (settled : word.Settled) : (led text word).Settled := by
  by_cases due : text.Settled
  · rw [ledSettled due, ← List.singleton_append, ← List.append_assoc]
    exact settledAppend _ settled
  · rw [ledAtStart due]
    exact settledAppend _ settled

theorem ledAllSettled {words : List Text} (all : ∀ word ∈ words, word.Settled) {text : Text}
    (settled : text.Settled) : ledAll text words = text ++ words.flatMap (' ' :: ·) := by
  induction words generalizing text with
  | nil => simp [ledAll]
  | cons word rest ih =>
    have first := all word List.mem_cons_self
    have later := fun word member => all word (List.mem_cons_of_mem _ member)
    change ledAll (led text word) rest = _
    rw [ih later (ledIsSettled text first), ledSettled settled]
    simp

theorem joinedSpace (word : Text) (rest : List Text) :
    Text.joined " " (word :: rest) = word ++ rest.flatMap (' ' :: ·) := by
  induction rest generalizing word with
  | nil => simp [Text.joined]
  | cons next rest ih =>
    have tail := ih next
    simp only [Text.joined, List.flatMap_cons] at tail ⊢
    rw [List.intercalate_cons_cons, tail]
    simp

theorem ledAllAtStart {words : List Text} (all : ∀ word ∈ words, word.Settled) {text : Text}
    (start : ¬ text.Settled) : ledAll text words = text ++ Text.joined " " words := by
  cases words with
  | nil => simp [ledAll, Text.joined]
  | cons word rest =>
    have first := all word List.mem_cons_self
    have later := fun word member => all word (List.mem_cons_of_mem _ member)
    change ledAll (led text word) rest = _
    rw [ledAllSettled later (ledIsSettled text first), ledAtStart start, joinedSpace, List.append_assoc]

theorem ledPrefix (text word : Text) : ∃ more, led text word = text ++ more := by
  by_cases settled : text.Settled
  · exact ⟨' ' :: word, ledSettled settled word⟩
  · exact ⟨word, ledAtStart settled word⟩

theorem ledAllPrefix (text : Text) (words : List Text) : ∃ more, ledAll text words = text ++ more := by
  induction words generalizing text with
  | nil => exact ⟨[], by simp [ledAll]⟩
  | cons word rest ih =>
    obtain ⟨front, one⟩ := ledPrefix text word
    obtain ⟨more, longer⟩ := ih (led text word)
    exact ⟨front ++ more, by rw [← List.append_assoc, ← one]; exact longer⟩

theorem ledBytes (text word : Text) :
    Text.byteLength text + Text.byteLength word ≤ Text.byteLength (led text word) := by
  by_cases settled : text.Settled
  · rw [ledSettled settled, Text.byteLengthAppend, Text.byteLength]
    omega
  · exact Nat.le_of_eq (by rw [ledAtStart settled, Text.byteLengthAppend])

theorem ledAllBytes {words : List Text} {word : Text} (member : word ∈ words) (text : Text) :
    Text.byteLength text + Text.byteLength word ≤ Text.byteLength (ledAll text words) := by
  induction words generalizing text with
  | nil => cases member
  | cons first rest ih =>
    have grown := ledBytes text first
    rcases List.mem_cons.mp member with rfl | later
    · obtain ⟨more, longer⟩ := ledAllPrefix (led text word) rest
      change _ ≤ Text.byteLength (ledAll (led text word) rest)
      rw [longer, Text.byteLengthAppend]
      omega
    · have rest := ih later (led text first)
      change _ ≤ Text.byteLength (ledAll (led text first) _)
      omega

/-! Growing by items. -/

mutual
def grow (keyword : Text) : Item → Clause → Clause
  | .predicate c text, clause => (clause.connect keyword c).term text
  | .group c items, clause => ⟨(growAll keyword items (clause.openGroup keyword c)).text ++ [')'], .complete⟩

def growAll (keyword : Text) : List Item → Clause → Clause
  | [], clause => clause
  | item :: rest, clause => growAll keyword rest (grow keyword item clause)
end

theorem growAllAppend (keyword : Text) (a b : List Item) (clause : Clause) :
    growAll keyword (a ++ b) clause = growAll keyword b (growAll keyword a clause) := by
  induction a generalizing clause with
  | nil => rfl
  | cons item rest ih => exact ih (grow keyword item clause)

def heads (keyword : Text) (c : Connective) : Ending → List Text
  | .empty => keyword :: c.firstWords
  | .opened => c.firstWords
  | .complete => c.laterWords

def words (keyword : Text) (items : List Item) (ending : Ending) : List Text :=
  match items with
  | [] => []
  | item :: rest => heads keyword item.connective ending ++ item.body :: Item.laterLine rest

theorem wordsOpened (keyword : Text) (items : List Item) : words keyword items .opened = Item.line items := by
  cases items <;> rfl

theorem wordsComplete (keyword : Text) (items : List Item) : words keyword items .complete = Item.laterLine items := by
  cases items <;> rfl

theorem ledAllAppend (text : Text) (a b : List Text) : ledAll text (a ++ b) = ledAll (ledAll text a) b := by
  simp only [ledAll, List.foldl_append]

theorem logicSettled (logic : Logic) : logic.sql.Settled := by
  cases logic <;> decide

theorem ledTwoWords (text : Text) {word : Text} (settled : word.Settled) (next : Text) :
    led text (word ++ ' ' :: next) = led (led text word) next := by
  rw [ledSettled (ledIsSettled text settled), ledAppend]

theorem ledModifiers (text : Text) (c : Connective) : ledAll text c.modifiers.toList = ledAll text c.firstWords := by
  obtain ⟨logic, negated, existential⟩ := c
  cases negated
  · cases existential <;> rfl
  · cases existential
    · rfl
    · exact @ledTwoWords text "NOT" (by decide) "EXISTS"

theorem ledConnective (text : Text) (c : Connective) : led text c.sql = ledAll text c.laterWords := by
  have logic : c.logic.sql = c.logic.word := by cases c.logic <;> rfl
  have apart : led text c.sql = ledAll (led text c.logic.sql) c.modifiers.toList := by
    unfold Connective.sql
    cases c.modifiers with
    | none => rfl
    | some words =>
      simp only [List.append_assoc]
      exact ledTwoWords text (logicSettled c.logic) words
  rw [apart, ledModifiers, logic]
  rfl

theorem openWithText (clause : Clause) (c : Connective) :
    (clause.openWith? c.modifiers).text = ledAll clause.text c.firstWords := by
  rw [← ledModifiers]
  cases c.modifiers <;> rfl

theorem connectText (keyword : Text) (c : Connective) (clause : Clause) :
    (clause.connect keyword c).text = ledAll clause.text (heads keyword c clause.ending) := by
  unfold connect heads
  cases clause.ending with
  | empty => exact openWithText _ _
  | opened => exact openWithText _ _
  | complete => exact ledConnective _ _

end Clause

namespace Item

mutual
def Settled : Item → Prop
  | .predicate _ text => text.Settled
  | .group _ items => AllSettled items

def AllSettled : List Item → Prop
  | [] => True
  | item :: rest => Settled item ∧ AllSettled rest
end

theorem wordsSettled (c : Connective) : ∀ word ∈ c.laterWords, word.Settled := by
  obtain ⟨logic, negated, existential⟩ := c
  cases logic <;> cases negated <;> cases existential <;> decide

theorem bodySettled {item : Item} (settled : item.Settled) : item.body.Settled := by
  cases item with
  | predicate c text => exact settled
  | group c items =>
    rw [body]
    exact Clause.settledAppend _ (by decide)

theorem laterLineSettled {items : List Item} (settled : AllSettled items) :
    ∀ word ∈ laterLine items, word.Settled := by
  induction items with
  | nil => simp [laterLine]
  | cons item rest ih =>
    intro word member
    simp only [laterLine, List.mem_append, List.mem_cons] at member
    rcases member with member | rfl | member
    · exact wordsSettled _ word member
    · exact bodySettled settled.1
    · exact ih settled.2 word member

theorem lineSettled {items : List Item} (settled : AllSettled items) : ∀ word ∈ line items, word.Settled := by
  cases items with
  | nil => simp [line]
  | cons item rest =>
    intro word member
    simp only [line, List.mem_append, List.mem_cons] at member
    rcases member with member | rfl | member
    · exact wordsSettled _ word (List.mem_cons_of_mem _ member)
    · exact bodySettled settled.1
    · exact laterLineSettled settled.2 word member

end Item

namespace Clause

theorem openGroupText (keyword : Text) (c : Connective) (clause : Clause) :
    (clause.openGroup keyword c).text = led (ledAll clause.text (heads keyword c clause.ending)) ['('] := by
  rw [← connectText]
  rfl

theorem notSettledOpened (text : Text) : ¬ (led text ['(']).Settled := by
  intro settled
  obtain ⟨_, closed⟩ := settled
  apply closed
  by_cases due : text.Settled
  · rw [ledSettled due]
    simp
  · rw [ledAtStart due]
    simp

mutual
theorem growText (keyword : Text) {item : Item} (settled : item.Settled) (clause : Clause) :
    (grow keyword item clause).text =
      ledAll clause.text (heads keyword item.connective clause.ending ++ [item.body]) := by
  cases item with
  | predicate c text =>
    rw [ledAllAppend]
    change led (clause.connect keyword c).text text = led (ledAll clause.text (heads keyword c clause.ending)) text
    rw [connectText]
  | group c items =>
    have inner := growAllText keyword settled (clause.openGroup keyword c)
    have ending : (clause.openGroup keyword c).ending = .opened := rfl
    rw [openGroupText, ending, wordsOpened, ledAllAtStart (Item.lineSettled settled) (notSettledOpened _)] at inner
    rw [ledAllAppend]
    change (growAll keyword items (clause.openGroup keyword c)).text ++ [')'] =
      led (ledAll clause.text (heads keyword c clause.ending)) (Item.body (.group c items))
    rw [inner, List.append_assoc, ledAppend, Item.body, List.append_assoc]

theorem growAllText (keyword : Text) {items : List Item} (settled : Item.AllSettled items) (clause : Clause) :
    (growAll keyword items clause).text = ledAll clause.text (words keyword items clause.ending) := by
  cases items with
  | nil => rfl
  | cons item rest =>
    have first := growText keyword settled.1 clause
    have later := growAllText keyword settled.2 (grow keyword item clause)
    have ending : (grow keyword item clause).ending = .complete := by cases item <;> rfl
    rw [ending, wordsComplete, first, ← ledAllAppend] at later
    rw [growAll, later, words, List.append_assoc, List.singleton_append]
end

theorem growAllPrint {keyword : Text} (word : keyword.Settled) {items : List Item} (settled : Item.AllSettled items) :
    (growAll keyword items .empty).text = Item.print keyword items := by
  have nothing : ¬ Text.Settled [] := fun settled => settled.1 rfl
  rw [growAllText keyword settled]
  cases items with
  | nil => rfl
  | cons item rest =>
    have all : ∀ next ∈ keyword :: Item.line (item :: rest), next.Settled := by
      intro next member
      rcases List.mem_cons.mp member with rfl | member
      · exact word
      · exact Item.lineSettled settled next member
    exact ledAllAtStart all nothing

theorem growAllBytes (keyword : Text) {items : List Item} (settled : Item.AllSettled items) (nonempty : items ≠ [])
    (clause : Clause) : Text.byteLength clause.text < Text.byteLength (growAll keyword items clause).text := by
  cases items with
  | nil => contradiction
  | cons item rest =>
    have member : item.body ∈ words keyword (item :: rest) clause.ending := by simp [words]
    have longer := ledAllBytes member clause.text
    have positive : 0 < Text.byteLength item.body := by
      obtain ⟨c, more, same⟩ := List.exists_cons_of_ne_nil (Item.bodySettled settled.1).1
      have size := c.utf8Size_pos
      rw [same, Text.byteLength]
      omega
    rw [growAllText keyword settled]
    omega

theorem termPrefix (keyword : Text) (c : Connective) (clause : Clause) (text : Text) :
    clause.text <+: ((clause.connect keyword c).term text).text := by
  obtain ⟨front, connected⟩ := ledAllPrefix clause.text (heads keyword c clause.ending)
  obtain ⟨more, longer⟩ := ledPrefix (clause.connect keyword c).text text
  refine ⟨front ++ more, ?_⟩
  change _ = led (clause.connect keyword c).text text
  rw [longer, connectText, connected, List.append_assoc]

theorem openGroupPrefix (keyword : Text) (c : Connective) (clause : Clause) :
    ∃ more, (clause.openGroup keyword c).text = clause.text ++ more := by
  obtain ⟨more, opened⟩ := termPrefix keyword c clause ['(']
  exact ⟨more, opened.symm⟩

theorem openGroupTaken (keyword : Text) (c : Connective) (clause : Clause) :
    Text.takeBytes? (Text.byteLength clause.text) (clause.openGroup keyword c).text = some clause.text := by
  obtain ⟨more, opened⟩ := openGroupPrefix keyword c clause
  rw [opened, Text.takeBytesAppend]

end Clause
end SelectBuilder
