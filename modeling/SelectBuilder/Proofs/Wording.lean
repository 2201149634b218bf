import Mathlib.Data.List.Forall2
import SelectBuilder.Proofs.Exposed
import SelectBuilder.Proofs.Settled

/-! The words that a statement may show outside its quotes, and texts that show the same ones. Twins are two texts that
may differ inside quotes only. Their words are those of the builder, their parentheses are balanced, and words that
are hidden stand inside parentheses only. A name shows no more than its shape: where it is cut, and which segments
are a lone star. -/
namespace SelectBuilder

def vocabulary : List Text :=
  ["(", ")", ",", ".", "*", "?", "=", "<", ">", "<=", ">=", "<>", "!=", "<=>", "AS", "AND", "OR", "XOR", "NOT", "IN",
    "IS", "LIKE", "NULL", "EXISTS", "BETWEEN", "ON", "BY", "ASC", "DESC", "ALL", "FROM", "JOIN", "WHERE", "GROUP",
    "ORDER", "UNION", "LIMIT", "OFFSET", "SELECT", "HAVING", "INNER", "LEFT", "RIGHT", "OUTER", "CROSS", "DISTINCT",
    "RAND", "RANDOM", "NEWID"]

def unionWords : List Text := ["UNION", "ALL"]

def tailWords : List Text := ["UNION", "ALL", "ORDER", "LIMIT", "OFFSET"]

namespace Text

def Known (word : Text) : Prop := word ∈ vocabulary ∨ ∀ c ∈ word, c.isDigit

instance (word : Text) : Decidable word.Known := inferInstanceAs (Decidable (_ ∨ _))

end Text

open Text

def Plain (hidden words : List Text) : Prop :=
  (∀ word ∈ words, word.Known) ∧ ∃ found, outer words = some found ∧ ∀ word ∈ found, word ∉ hidden

instance (hidden words : List Text) : Decidable (Plain hidden words) := inferInstanceAs (Decidable (_ ∧ _))

variable {hidden : List Text}

theorem plainNil (hidden : List Text) : Plain hidden [] := ⟨by simp, [], rfl, by simp⟩

theorem plainAppend {a b : List Text} (left : Plain hidden a) (right : Plain hidden b) : Plain hidden (a ++ b) := by
  obtain ⟨known, x, outside, apart⟩ := left
  obtain ⟨known', y, outside', apart'⟩ := right
  refine ⟨?_, x ++ y, outerAppend outside outside', ?_⟩
  · intro word member
    rcases List.mem_append.mp member with before | later
    · exact known word before
    · exact known' word later
  · intro word member
    rcases List.mem_append.mp member with before | later
    · exact apart word before
    · exact apart' word later

theorem plainLess {fewer words : List Text} (less : ∀ word ∈ fewer, word ∈ hidden) (plain : Plain hidden words) :
    Plain fewer words := by
  obtain ⟨known, found, outside, apart⟩ := plain
  exact ⟨known, found, outside, fun word member inside => apart word member (less word inside)⟩

theorem plainEnclosed (apart : ['('] ∉ hidden ∧ [')'] ∉ hidden) {words : List Text} (plain : Plain [] words) :
    Plain hidden (['('] :: words ++ [[')']]) := by
  obtain ⟨known, found, outside, _⟩ := plain
  refine ⟨?_, _, outerEnclosed outside, ?_⟩
  · intro word member
    have marks : Known ['('] ∧ Known [')'] := by decide
    simp only [List.cons_append, List.mem_cons, List.mem_append, List.not_mem_nil, or_false] at member
    obtain rfl | inside | rfl := member
    · exact marks.1
    · exact known word inside
    · exact marks.2
  · intro word member
    simp only [List.mem_cons, List.not_mem_nil, or_false] at member
    obtain rfl | rfl := member
    · exact apart.1
    · exact apart.2

/-! Twins. -/

structure Text.Twin (hidden : List Text) (a b : Text) : Prop where
  closed : a.Closed
  closed' : b.Closed
  same : b.exposed = a.exposed
  plain : Plain hidden a.exposed

structure Text.Spacer (hidden : List Text) (s : Text) : Prop where
  closed : s.Closed
  start : s.LooseStart
  finish : s.LooseEnd
  shown : Region.bare .outside s ≠ []
  plain : Plain hidden s.exposed

namespace Text

theorem spacerOf {s : Text}
    (holds : s.Closed ∧ s.LooseStart ∧ s.LooseEnd ∧ Region.bare .outside s ≠ [] ∧ Plain hidden s.exposed) :
    Spacer hidden s :=
  ⟨holds.1, holds.2.1, holds.2.2.1, holds.2.2.2.1, holds.2.2.2.2⟩

theorem twinSame {s : Text} (holds : s.Closed ∧ Plain hidden s.exposed) : Twin hidden s s :=
  ⟨holds.1, holds.1, rfl, holds.2⟩

theorem twinNil (hidden : List Text) : Twin hidden [] [] := ⟨rfl, rfl, rfl, plainNil hidden⟩

theorem twinLess {fewer : List Text} (less : ∀ word ∈ fewer, word ∈ hidden) {a b : Text} (twin : Twin hidden a b) :
    Twin fewer a b :=
  ⟨twin.closed, twin.closed', twin.same, plainLess less twin.plain⟩

theorem twinAny {a b : Text} (twin : Twin hidden a b) : Twin [] a b := twinLess (by simp) twin

theorem twinAppend {a b x y : Text} (left : Twin hidden a b) (right : Twin hidden x y)
    (apart : a.LooseEnd ∧ b.LooseEnd ∨ x.LooseStart ∧ y.LooseStart) : Twin hidden (a ++ x) (b ++ y) := by
  have first : (a ++ x).exposed = a.exposed ++ x.exposed :=
    exposedAppend left.closed (apart.imp And.left And.left)
  have second : (b ++ y).exposed = b.exposed ++ y.exposed :=
    exposedAppend left.closed' (apart.imp And.right And.right)
  refine ⟨closedAppend left.closed right.closed, closedAppend left.closed' right.closed', ?_, ?_⟩
  · rw [first, second, left.same, right.same]
  · rw [first]
    exact plainAppend left.plain right.plain

theorem twinBetween {s : Text} (spacer : Spacer hidden s) {a b x y : Text} (left : Twin hidden a b)
    (right : Twin hidden x y) : Twin hidden (a ++ s ++ x) (b ++ s ++ y) := by
  have middle : Twin hidden s s := twinSame ⟨spacer.closed, spacer.plain⟩
  have front := twinAppend left middle (.inr ⟨spacer.start, spacer.start⟩)
  exact twinAppend front right
    (.inl ⟨looseAppend left.closed spacer.shown spacer.finish, looseAppend left.closed' spacer.shown spacer.finish⟩)

theorem twinAfter {s : Text} (holds : s.Closed ∧ Plain hidden s.exposed ∧ s.LooseEnd) {a b : Text}
    (twin : Twin hidden a b) : Twin hidden (s ++ a) (s ++ b) := by
  obtain ⟨closed, plain, loose⟩ := holds
  exact twinAppend (twinSame ⟨closed, plain⟩) twin (.inl ⟨loose, loose⟩)

theorem closedEnclosed {text : Text} (closed : text.Closed) : Closed (['('] ++ text ++ [')']) :=
  closedAppend (closedAppend (by decide) closed) (by decide)

theorem exposedEnclosed {text : Text} (closed : text.Closed) :
    exposed (['('] ++ text ++ [')']) = ['('] :: text.exposed ++ [[')']] := by
  have opened : exposed (['('] ++ text) = ['('] :: text.exposed := exposedAppend (by decide) (.inl (by decide))
  rw [exposedAppend (closedAppend (by decide) closed) (.inr (by decide)), opened]
  rfl

theorem twinEnclosed (apart : ['('] ∉ hidden ∧ [')'] ∉ hidden) {a b : Text} (twin : Twin [] a b) :
    Twin hidden (['('] ++ a ++ [')']) (['('] ++ b ++ [')']) := by
  refine ⟨closedEnclosed twin.closed, closedEnclosed twin.closed', ?_, ?_⟩
  · rw [exposedEnclosed twin.closed, exposedEnclosed twin.closed', twin.same]
  · rw [exposedEnclosed twin.closed]
    exact plainEnclosed apart twin.plain

abbrev Twins (hidden : List Text) : List Text → List Text → Prop := List.Forall₂ (Twin hidden)

theorem twinsAppend {a b x y : List Text} (left : Twins hidden a b) (right : Twins hidden x y) :
    Twins hidden (a ++ x) (b ++ y) := List.rel_append left right

theorem twinsOne {a b : Text} (twin : Twin hidden a b) : Twins hidden [a] [b] := .cons twin .nil

theorem bothNothing {α β : Type} {R : α → β → Prop} {a : List α} {b : List β} (both : List.Forall₂ R a b) :
    a = [] ↔ b = [] := by
  cases both <;> simp

theorem twinJoined {separator : Text} (spacer : Spacer hidden separator) {parts parts' : List Text}
    (twins : Twins hidden parts parts') : Twin hidden (joined separator parts) (joined separator parts') := by
  induction twins with
  | nil => exact twinNil hidden
  | @cons part part' rest rest' first later ih =>
    cases later with
    | nil => simpa [joined] using first
    | cons next others =>
      rw [joined, joined, List.intercalate_cons_cons, List.intercalate_cons_cons]
      exact twinBetween spacer first ih

theorem twinCollapse {a b : Text} (twin : Twin hidden a b) : Twin hidden (collapse a) (collapse b) := by
  refine ⟨closedCollapse twin.closed, closedCollapse twin.closed', ?_, ?_⟩
  · rw [exposedCollapse, exposedCollapse, twin.same]
  · rw [exposedCollapse]
    exact twin.plain

theorem numberTwin (n : Nat) : Twin unionWords (ofNat n) (ofNat n) := by
  have shown : ∀ word ∈ (ofNat n).exposed, ∀ c ∈ word, c.isDigit := by
    intro word member c inside
    refine ofNatDigits n c (exposedChars ?_ word member c inside)
    intro d among
    have other {e : Char} (apart : e.isDigit = false) : d ≠ e := by
      rintro rfl
      rw [ofNatDigits n d among] at apart
      contradiction
    simp [Region.isMark, Region.isPunctuation, other (e := '\x27') rfl, other (e := '\x22') rfl,
      other (e := '\x60') rfl, other (e := '(') rfl, other (e := ')') rfl, other (e := ',') rfl, other (e := '.') rfl,
      other (e := '*') rfl, other (e := '?') rfl]
  have alone {words : List Text} (all : ∀ word ∈ words, ∀ c ∈ word, c.isDigit) : outer words = some words := by
    have found : scan 0 words = some (0, words) := by
      induction words with
      | nil => rfl
      | cons word rest ih =>
        obtain ⟨first, later⟩ := List.forall_mem_cons.mp all
        have opens : word ≠ ['('] := by
          rintro rfl
          exact absurd (first '(' List.mem_cons_self) (by decide)
        have closes : word ≠ [')'] := by
          rintro rfl
          exact absurd (first ')' List.mem_cons_self) (by decide)
        simp [scan, opens, closes, ih later, shownAt]
    simp [outer, found]
  refine ⟨(ofNatInert n).1, (ofNatInert n).1, rfl, fun word member => .inr (shown word member), _, alone shown, ?_⟩
  intro word member hidden
  have letters : ∀ word ∈ unionWords, ∃ c ∈ word, c.isDigit = false := by
    simp only [unionWords, List.forall_mem_cons]
    exact ⟨⟨'U', by simp, rfl⟩, ⟨'A', by simp, rfl⟩, by simp⟩
  obtain ⟨c, inside, other⟩ := letters word hidden
  rw [shown word member c inside] at other
  cases other

/-! Names. -/

def stars (path : Text) : List Bool := (segments path).map fun segment => segment = ['*']

def shape (name : Text) : List (List Bool) :=
  match cutAlias name with
  | some (path, short) => [stars (trim path), stars (trim short)]
  | none => [stars name]

end Text

namespace Dialect
open Region

theorem doubledBlank {mark : Char} (known : isMark mark) (single : mark ≠ '\x27') (text : Text) :
    ∀ c ∈ bare (.quoted mark) (doubled mark text), isBlank c := by
  have reopened : Region.outside.next mark = .quoted mark := by simp [Region.next, known]
  have closed : (Region.quoted mark).next mark = .outside := by simp [Region.next, single]
  have blank : isBlank ' ' := by decide
  induction text with
  | nil => simp [doubled, bare]
  | cons c rest ih =>
    by_cases same : c = mark
    · subst same
      have split : doubled c (c :: rest) = c :: c :: doubled c rest := by simp [doubled]
      rw [split]
      simpa [bare, glimpse, closed, reopened, known, blank] using ih
    · have inside : (Region.quoted mark).next c = .quoted mark := by simp [Region.next, single, same]
      have split : doubled mark (c :: rest) = c :: doubled mark rest := by simp [doubled, same]
      rw [split]
      simpa [bare, glimpse, inside, blank] using ih

theorem quoteExposed (d : Dialect) (segment : Text) : (d.quote segment).exposed = [] := by
  have known : isMark d.quoteChar := by cases d <;> rfl
  have single : d.quoteChar ≠ '\x27' := by cases d <;> decide
  have opened : Region.outside.next d.quoteChar = .quoted d.quoteChar := by simp [Region.next, known]
  have stays := (doubledStays known single segment).1
  have blank : isBlank ' ' := by decide
  apply wordsOfBlanks
  intro c member
  have split : bare .outside (d.quote segment) =
      ' ' :: bare (.quoted d.quoteChar) (doubled d.quoteChar segment) ++ [' '] := by
    rw [quote, List.cons_append, bare, opened, bareAppend, stays]
    simp [glimpse, known, bare]
  rw [split] at member
  simp only [List.cons_append, List.mem_cons, List.mem_append, List.not_mem_nil, or_false] at member
  obtain rfl | inside | rfl := member
  · exact blank
  · exact doubledBlank known single segment c inside
  · exact blank

theorem segmentTwin (d : Dialect) {a b : Text} (same : a = ['*'] ↔ b = ['*']) :
    Twin tailWords (d.quoteSegment a) (d.quoteSegment b) := by
  unfold quoteSegment
  by_cases star : a = ['*']
  · rw [if_pos star, if_pos (same.mp star), star, same.mp star]
    exact twinSame (by decide)
  · rw [if_neg star, if_neg fun other => star (same.mpr other)]
    refine ⟨(quoteInert d a).1, (quoteInert d b).1, ?_, ?_⟩
    · rw [quoteExposed, quoteExposed]
    · rw [quoteExposed]
      exact plainNil tailWords

theorem pathTwin (d : Dialect) {a b : Text} (same : stars a = stars b) :
    Twin tailWords (d.quotePath a) (d.quotePath b) := by
  apply twinJoined (spacerOf (by decide))
  unfold stars at same
  generalize segments a = x at same
  generalize segments b = y at same
  induction x generalizing y with
  | nil =>
    cases List.map_eq_nil_iff.mp same.symm
    exact .nil
  | cons segment rest ih =>
    cases y with
    | nil => contradiction
    | cons segment' rest' =>
      obtain ⟨first, later⟩ := List.cons.inj same
      exact .cons (segmentTwin d (decide_eq_decide.mp first)) (ih rest' later)

theorem wrapTwin (d : Dialect) {a b : Text} (same : shape a = shape b) : Twin tailWords (d.wrap a) (d.wrap b) := by
  unfold shape at same
  unfold wrap
  cases left : cutAlias a with
  | none =>
    cases right : cutAlias b with
    | none =>
      simp only [left, right, List.cons.injEq, and_true] at same
      exact pathTwin d same
    | some cut => simp [left, right] at same
  | some cut =>
    cases right : cutAlias b with
    | none => simp [left, right] at same
    | some cut' =>
      simp only [left, right, List.cons.injEq, and_true] at same
      exact twinBetween (spacerOf (by decide)) (pathTwin d same.1) (pathTwin d same.2)

end Dialect

end SelectBuilder
