import SelectBuilder.Arg
import SelectBuilder.Proofs.Inert
import SelectBuilder.Text.Blank

/-! Text that remembers which of its characters are placeholders of which argument. An argument's own question
mark carries the argument; in SQL written with bindings the live question marks carry these one after the other;
all else carries nothing. What a labelled text carries is read from its live placeholders, from left to right. -/
namespace SelectBuilder

structure LabelledChar where
  char : Char
  source : Option Arg

abbrev Labelled := List LabelledChar

namespace Labelled

def text (labelled : Labelled) : Text := labelled.map LabelledChar.char

def plain (text : Text) : Labelled := text.map fun c => ⟨c, none⟩

def space : LabelledChar := ⟨' ', none⟩

def joined (separator : Labelled) (parts : List Labelled) : Labelled := List.intercalate separator parts

mutual
def ofArg : Arg → Labelled
  | .value v => [⟨'?', some (.value v)⟩]
  | .lazy outcome => [⟨'?', some (.lazy outcome)⟩]
  | .raw sql => plain sql
  | .list items => joined (plain ",") (ofArgs items)

def ofArgs : List Arg → List Labelled
  | [] => []
  | arg :: rest => ofArg arg :: ofArgs rest
end

def marked : Region → Text → List Arg → Labelled
  | _, [], _ => []
  | r, c :: rest, args =>
    if r.isLive c then ⟨c, args.head?⟩ :: marked (r.next c) rest args.tail
    else ⟨c, none⟩ :: marked (r.next c) rest args

def written (sql : Text) (args : List Arg) : Labelled := marked .outside sql (Arg.leavesOf args)

def collapse : Labelled → Labelled
  | [] => []
  | g :: rest =>
    if Text.isBlank g.char then collapse rest
    else if Text.startsWord (text rest) ∨ collapse rest = [] then g :: collapse rest
    else g :: space :: collapse rest

def live : Region → Labelled → List (Option Arg)
  | _, [] => []
  | r, g :: rest => if r.isLive g.char then g.source :: live (r.next g.char) rest else live (r.next g.char) rest

/-- Reading the text ends outside quotes, and its live placeholders are those of the arguments, in order. -/
def Carries (labelled : Labelled) (args : List Arg) : Prop :=
  Region.outside.after labelled.text = .outside ∧ live .outside labelled = args.map some

def AllCarry (labelledParts : List Labelled) (args : List Arg) : Prop :=
  (∀ labelled ∈ labelledParts, Region.outside.after labelled.text = .outside) ∧
    labelledParts.flatMap (live .outside) = args.map some

@[simp] theorem textCons (g : LabelledChar) (labelled : Labelled) : text (g :: labelled) = g.char :: text labelled :=
  rfl

@[simp] theorem textAppend (a b : Labelled) : (a ++ b).text = a.text ++ b.text := List.map_append

@[simp] theorem textPlain (t : Text) : (plain t).text = t := by
  simp [text, plain, List.map_map, Function.comp_def]

@[simp] theorem textJoined (separator : Labelled) (parts : List Labelled) :
    (joined separator parts).text = Text.joined separator.text (parts.map text) := by
  induction parts with
  | nil => rfl
  | cons part rest ih =>
    cases rest with
    | nil => simp [joined, Text.joined]
    | cons next rest =>
      simp only [joined, Text.joined, List.map_cons, List.intercalate_cons_cons, textAppend] at ih ⊢
      rw [ih]

mutual
theorem textOfArg (arg : Arg) : (ofArg arg).text = arg.placeholder := by
  cases arg with
  | value v => rfl
  | «lazy» outcome => rfl
  | raw sql => exact textPlain sql
  | list items =>
    rw [ofArg, Arg.placeholder, textJoined, textPlain, textOfArgs]

theorem textOfArgs (items : List Arg) : (ofArgs items).map text = Arg.placeholders items := by
  cases items with
  | nil => rfl
  | cons arg rest => rw [ofArgs, Arg.placeholders, List.map_cons, textOfArg, textOfArgs]
end

theorem textMarked (r : Region) (sql : Text) (args : List Arg) : (marked r sql args).text = sql := by
  induction sql generalizing r args with
  | nil => rfl
  | cons c rest ih =>
    rw [marked]
    split <;> rw [textCons, ih]

theorem textNothing {labelled : Labelled} : labelled.text = [] ↔ labelled = [] := List.map_eq_nil_iff

theorem textCollapse (labelled : Labelled) : (collapse labelled).text = Text.collapse labelled.text := by
  induction labelled with
  | nil => rfl
  | cons g rest ih =>
    have nothing : Text.collapse (text rest) = [] ↔ collapse rest = [] := by rw [← ih, textNothing]
    rw [collapse, textCons, Text.collapseCons]
    simp only [nothing]
    split
    · exact ih
    · split
      · rw [textCons, ih]
      · rw [textCons, textCons, ih, space]

theorem liveAppend (r : Region) (a b : Labelled) : live r (a ++ b) = live r a ++ live (r.after a.text) b := by
  induction a generalizing r with
  | nil => rfl
  | cons g rest ih =>
    simp only [List.cons_append, live, textCons, Region.after, ih]
    split <;> rfl

theorem liveLength (r : Region) (labelled : Labelled) : (live r labelled).length = r.liveCount labelled.text := by
  induction labelled generalizing r with
  | nil => rfl
  | cons g rest ih =>
    rw [live, textCons, Region.liveCount, ← ih]
    split
    · rw [List.length_cons, Nat.add_comm]
    · rw [Nat.zero_add]

theorem carriesNothing {labelled : Labelled} (inert : labelled.text.Inert) : Carries labelled [] := by
  have noValues : (live .outside labelled).length = 0 := by rw [liveLength, inert.2]
  exact ⟨inert.1, by simpa using noValues⟩

theorem carriesPlain {t : Text} (inert : t.Inert) : Carries (plain t) [] := by
  apply carriesNothing
  rwa [textPlain]

theorem carriesAppend {a b : Labelled} {x y : List Arg} (left : Carries a x) (right : Carries b y) :
    Carries (a ++ b) (x ++ y) := by
  obtain ⟨closed, shown⟩ := left
  constructor
  · rw [textAppend, Region.afterAppend, closed, right.1]
  · rw [liveAppend, closed, shown, right.2, List.map_append]

theorem carriesOne {labelled : Labelled} {args : List Arg} (carries : Carries labelled args) :
    AllCarry [labelled] args := by
  obtain ⟨closed, shown⟩ := carries
  exact ⟨by simpa using closed, by simpa using shown⟩

theorem oneCarries {labelled : Labelled} {args : List Arg} (carries : AllCarry [labelled] args) :
    Carries labelled args := by
  obtain ⟨closed, shown⟩ := carries
  exact ⟨by simpa using closed, by simpa using shown⟩

theorem allCarryNil : AllCarry [] [] := ⟨by simp, rfl⟩

theorem allCarryAppend {a b : List Labelled} {x y : List Arg} (left : AllCarry a x) (right : AllCarry b y) :
    AllCarry (a ++ b) (x ++ y) := by
  obtain ⟨closed, shown⟩ := left
  constructor
  · intro labelled member
    rcases List.mem_append.mp member with before | later
    · exact closed labelled before
    · exact right.1 labelled later
  · rw [List.flatMap_append, shown, right.2, List.map_append]

theorem allCarryPlain {texts : List Text} (inert : ∀ t ∈ texts, t.Inert) : AllCarry (texts.map plain) [] := by
  induction texts with
  | nil => exact allCarryNil
  | cons t rest ih =>
    have first := carriesOne (carriesPlain (inert t List.mem_cons_self))
    have later := ih fun t member => inert t (List.mem_cons_of_mem _ member)
    exact allCarryAppend first later

theorem allCarryCons {labelled : Labelled} {rest : List Labelled} {args : List Arg}
    (all : AllCarry (labelled :: rest) args) :
    ∃ x y, args = x ++ y ∧ Carries labelled x ∧ AllCarry rest y := by
  obtain ⟨closed, shown⟩ := all
  rw [List.flatMap_cons] at shown
  obtain ⟨x, y, same, left, right⟩ := List.append_eq_map_iff.mp shown
  have later := fun labelled member => closed labelled (List.mem_cons_of_mem _ member)
  exact ⟨x, y, same, ⟨closed labelled List.mem_cons_self, left.symm⟩, later, right.symm⟩

theorem allCarryMap (word : Text) (inert : word.Inert) {labelledParts : List Labelled} {args : List Arg}
    (all : AllCarry labelledParts args) :
    AllCarry (labelledParts.map (plain word ++ ·)) args := by
  induction labelledParts generalizing args with
  | nil => exact all
  | cons labelled rest ih =>
    obtain ⟨x, y, rfl, first, later⟩ := allCarryCons all
    exact allCarryAppend (carriesOne (carriesAppend (carriesPlain inert) first)) (ih later)

theorem carriesJoined {separator : Labelled} (apart : Carries separator []) {parts : List Labelled} {args : List Arg}
    (all : AllCarry parts args) : Carries (joined separator parts) args := by
  induction parts generalizing args with
  | nil =>
    obtain ⟨_, shown⟩ := all
    exact ⟨rfl, shown⟩
  | cons part rest ih =>
    obtain ⟨x, y, rfl, first, later⟩ := allCarryCons all
    cases rest with
    | nil =>
      obtain ⟨_, shown⟩ := later
      cases List.map_eq_nil_iff.mp shown.symm
      simpa [joined] using first
    | cons next rest =>
      have both := carriesAppend (carriesAppend first apart) (ih later)
      rw [List.append_nil] at both
      rw [joined, List.intercalate_cons_cons]
      exact both

theorem liveMarked {r : Region} {sql : Text} {args : List Arg} (count : r.liveCount sql = args.length) :
    live r (marked r sql args) = args.map some := by
  induction sql generalizing r args with
  | nil =>
    cases args with
    | nil => rfl
    | cons arg later => simp [Region.liveCount] at count
  | cons c rest ih =>
    rw [Region.liveCount] at count
    rw [marked]
    split
    · rename_i placeholder
      rw [if_pos placeholder] at count
      cases args with
      | nil =>
        rw [List.length_nil] at count
        omega
      | cons arg later =>
        have fewer : (r.next c).liveCount rest = later.length := by
          rw [List.length_cons] at count
          omega
        simp only [live, if_pos placeholder, List.head?_cons, List.tail_cons, ih fewer, List.map_cons]
    · rename_i ordinary
      rw [if_neg ordinary, Nat.zero_add] at count
      simp only [live, if_neg ordinary, ih count]

/-- SQL with its bindings: as many live question marks as values, and reading ends outside quotes. -/
def Fits (sql : Text) (args : List Arg) : Prop :=
  Region.outside.after sql = .outside ∧ Region.liveCount .outside sql = (Arg.leavesOf args).length

instance (sql : Text) (args : List Arg) : Decidable (Fits sql args) := inferInstanceAs (Decidable (_ ∧ _))

theorem carriesWritten {sql : Text} {args : List Arg} (fits : Fits sql args) :
    Carries (written sql args) (Arg.leavesOf args) := by
  obtain ⟨closed, count⟩ := fits
  refine ⟨?_, liveMarked count⟩
  rw [written, textMarked, closed]

end Labelled

namespace Arg

mutual
def Inert : Arg → Prop
  | .value _ => True
  | .lazy _ => True
  | .raw sql => sql.Inert
  | .list items => AllInert items

def AllInert : List Arg → Prop
  | [] => True
  | arg :: rest => Inert arg ∧ AllInert rest
end

end Arg

namespace Labelled

mutual
theorem carriesOfArg {arg : Arg} (inert : arg.Inert) : Carries (ofArg arg) arg.leaves := by
  cases arg with
  | value v => exact ⟨rfl, rfl⟩
  | «lazy» outcome => exact ⟨rfl, rfl⟩
  | raw sql => exact carriesPlain inert
  | list items => exact carriesJoined (carriesPlain (by decide)) (allCarryOfArgs inert)

theorem allCarryOfArgs {items : List Arg} (inert : Arg.AllInert items) :
    AllCarry (ofArgs items) (Arg.leavesOf items) := by
  cases items with
  | nil => exact allCarryNil
  | cons arg rest => exact allCarryAppend (carriesOne (carriesOfArg inert.1)) (allCarryOfArgs inert.2)
end

end Labelled

/-! Blanks while reading: outside quotes and inside them they change nothing, whatever their number. -/
namespace Region

def Known : Region → Prop
  | .quoted mark => isMark mark
  | _ => True

theorem nextKnown {r : Region} (known : r.Known) (c : Char) : (r.next c).Known := by
  cases r with
  | outside =>
    by_cases mark : isMark c
    · simp only [next, if_pos mark]
      exact mark
    · simp [next, mark, Known]
  | quoted mark =>
    by_cases protects : mark = '\x27' ∧ c = '\\'
    · simp [next, protects, Known]
    · by_cases closes : c = mark
      · simp only [next, if_neg protects, if_pos closes]
        trivial
      · simp only [next, if_neg protects, if_neg closes]
        exact known
  | escaped => exact (rfl : isMark '\x27' = true)

theorem blankIsPlain {c : Char} (blank : Text.isBlank c) : isMark c = false ∧ c ≠ '?' ∧ c ≠ '\\' :=
  apartFromMarks ⟨rfl, rfl, rfl, rfl, rfl⟩ blank

theorem blankNotLive {c : Char} (blank : Text.isBlank c) (r : Region) : r.isLive c = false := by
  simp [isLive, (blankIsPlain blank).2.1]

theorem blankStays {r : Region} (known : r.Known) (calm : r ≠ .escaped) {c : Char} (blank : Text.isBlank c) :
    r.next c = r := by
  obtain ⟨mark, _, slash⟩ := blankIsPlain blank
  cases r with
  | outside => simp [next, mark]
  | quoted opened =>
    have other : c ≠ opened := by
      rintro rfl
      rw [Known, mark] at known
      contradiction
    simp [next, slash, other]
  | escaped => contradiction

theorem blankCalms (r : Region) {c : Char} (blank : Text.isBlank c) : r.next c ≠ .escaped := by
  obtain ⟨mark, _, slash⟩ := blankIsPlain blank
  cases r with
  | outside => simp [next, mark]
  | quoted opened =>
    simp only [next, slash, and_false, if_false]
    split <;> simp
  | escaped => simp [next]

theorem blankSame {r : Region} (known : r.Known) {c d : Char} (first : Text.isBlank c) (second : Text.isBlank d) :
    r.next c = r.next d := by
  by_cases calm : r = .escaped
  · subst calm
    rfl
  · rw [blankStays known calm first, blankStays known calm second]

theorem spaceOutside {r : Region} (known : r.Known) (closed : r.next ' ' = .outside) : r = .outside := by
  by_cases calm : r = .escaped
  · subst calm
    contradiction
  · rwa [blankStays known calm (by decide)] at closed

end Region

namespace Labelled
open Region

theorem leadingSpace {labelled : Labelled} (apart : ¬ Text.startsWord labelled.text) {r : Region} (known : r.Known)
    (closed : r.after labelled.text = .outside) :
    live (r.next ' ') labelled = live r labelled ∧ (r.next ' ').after labelled.text = .outside := by
  cases labelled with
  | nil =>
    cases (closed : r = .outside)
    exact ⟨rfl, rfl⟩
  | cons g rest =>
    have blank : Text.isBlank g.char := by simpa [Text.startsWord] using apart
    have once : (r.next ' ').next g.char = r.next g.char := by
      rw [blankStays (nextKnown known ' ') (blankCalms r (by decide)) blank, blankSame known (by decide) blank]
    rw [textCons, Region.after] at closed ⊢
    rw [live, live, once, blankNotLive blank, blankNotLive blank]
    exact ⟨rfl, closed⟩

theorem collapseReads (labelled : Labelled) {r : Region} (known : r.Known)
    (calm : r ≠ .escaped ∨ Text.startsWord labelled.text)
    (closed : r.after labelled.text = .outside) :
    live r (collapse labelled) = live r labelled ∧ r.after (collapse labelled).text = .outside := by
  -- The induction keeps away from a backslash that would protect the blank to be dropped.
  induction labelled generalizing r with
  | nil => exact ⟨rfl, closed⟩
  | cons g rest ih =>
    rw [textCons, Region.after] at closed
    rw [collapse]
    by_cases blank : Text.isBlank g.char
    · have calm : r ≠ .escaped := by simpa [Text.startsWord, blank] using calm
      rw [blankStays known calm blank] at closed
      rw [if_pos blank, live, blankStays known calm blank, blankNotLive blank]
      exact ih known (.inl calm) closed
    · have known := nextKnown known g.char
      rw [if_neg blank]
      by_cases starts : Text.startsWord (text rest)
      · obtain ⟨same, after⟩ := ih known (.inr starts) closed
        rw [if_pos (Or.inl starts), live, live, same, textCons, Region.after]
        exact ⟨rfl, after⟩
      · obtain ⟨moved, later⟩ := leadingSpace starts known closed
        obtain ⟨same, after⟩ := ih (nextKnown known ' ') (.inl (blankCalms _ (by decide))) later
        rw [moved] at same
        by_cases nothing : collapse rest = []
        · rw [nothing] at same after
          have silent : live (r.next g.char) rest = [] := same.symm
          rw [if_pos (Or.inr nothing), nothing]
          simp only [live, silent, textCons, Region.after]
          exact ⟨trivial, spaceOutside known after⟩
        · have two : ¬ (Text.startsWord (text rest) ∨ collapse rest = []) := by simp [starts, nothing]
          have spaceChar : space.char = ' ' := rfl
          have dead : (r.next g.char).isLive ' ' = false := blankNotLive (by decide) _
          rw [if_neg two, textCons, textCons, Region.after, Region.after, spaceChar, live, live, live, spaceChar, dead,
            same]
          exact ⟨rfl, after⟩

theorem carriesCollapse {labelled : Labelled} {args : List Arg} (carries : Carries labelled args) :
    Carries (collapse labelled) args := by
  obtain ⟨closed, shown⟩ := carries
  have outside : Region.outside ≠ .escaped := by simp
  obtain ⟨same, after⟩ := collapseReads labelled (r := .outside) trivial (.inl outside) closed
  exact ⟨after, by rw [same, shown]⟩

end Labelled
end SelectBuilder
