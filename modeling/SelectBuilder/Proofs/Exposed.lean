import SelectBuilder.Proofs.LabelledText

/-! What a statement shows outside its quotes, word by word. Quoted regions, with their marks, read as blanks; a
parenthesis, a comma, a dot, a star and a question mark are words of their own. Parentheses nest; the outer words are
those outside all parentheses. White space between words does not count. -/
namespace SelectBuilder

namespace Region

def isPunctuation (c : Char) : Bool := c = '(' || c = ')' || c = ',' || c = '.' || c = '*' || c = '?'

def glimpse : Region → Char → Text
  | .outside, c => if isMark c then [' '] else if isPunctuation c then [' ', c, ' '] else [c]
  | _, _ => [' ']

def bare : Region → Text → Text
  | _, [] => []
  | r, c :: rest => r.glimpse c ++ bare (r.next c) rest

end Region

namespace Text

def exposed (text : Text) : List Text := words (Region.bare .outside text)

def shownAt (depth : Nat) (word : Text) (found : Nat × List Text) : Nat × List Text :=
  (found.1, if depth = 0 then word :: found.2 else found.2)

/-- Going through words from a depth of parentheses: the depth at the end and the words at depth zero. -/
def scan : Nat → List Text → Option (Nat × List Text)
  | n, [] => some (n, [])
  | n, word :: rest =>
    if word = ['('] then (scan (n + 1) rest).map (shownAt n word)
    else if word = [')'] then
      match n with
      | 0 => none
      | m + 1 => (scan m rest).map (shownAt m word)
    else (scan n rest).map (shownAt n word)

def outer (words : List Text) : Option (List Text) :=
  match scan 0 words with
  | some (0, found) => some found
  | _ => none

theorem scanAppend (n : Nat) (a b : List Text) :
    scan n (a ++ b) =
      (scan n a).bind fun found => (scan found.1 b).map fun more => (more.1, found.2 ++ more.2) := by
  induction a generalizing n with
  | nil => simp [scan]
  | cons word rest ih =>
    have later (k depth : Nat) : (scan k (rest ++ b)).map (shownAt depth word) =
        ((scan k rest).map (shownAt depth word)).bind fun found =>
          (scan found.1 b).map fun more => (more.1, found.2 ++ more.2) := by
      rw [ih]
      cases scan k rest with
      | none => rfl
      | some found => by_cases zero : depth = 0 <;> simp [shownAt, zero, Function.comp_def]
    simp only [List.cons_append, scan]
    split
    · exact later _ _
    · split
      · cases n with
        | zero => rfl
        | succ m => exact later _ _
      · exact later _ _

theorem scanDeeper {n m : Nat} {words found : List Text} (scanned : scan n words = some (m, found)) :
    scan (n + 1) words = some (m + 1, []) := by
  induction words generalizing n found with
  | nil =>
    cases scanned
    rfl
  | cons word rest ih =>
    have later {k depth : Nat} (scanned : (scan k rest).map (shownAt depth word) = some (m, found)) :
        (scan (k + 1) rest).map (shownAt (depth + 1) word) = some (m + 1, []) := by
      obtain ⟨_, first, last⟩ := Option.map_eq_some_iff.mp scanned
      cases last
      simp [ih first, shownAt]
    simp only [scan] at scanned ⊢
    split at scanned
    · rename_i opens
      rw [if_pos opens]
      exact later scanned
    · rename_i inner
      rw [if_neg inner]
      split at scanned
      · rename_i closes
        rw [if_pos closes]
        cases n with
        | zero => contradiction
        | succ k => exact later scanned
      · rename_i plain
        rw [if_neg plain]
        exact later scanned

theorem outerIs {words found : List Text} (balanced : outer words = some found) : scan 0 words = some (0, found) := by
  unfold outer at balanced
  split at balanced
  · cases balanced
    assumption
  · contradiction

theorem outerAppend {a b x y : List Text} (left : outer a = some x) (right : outer b = some y) :
    outer (a ++ b) = some (x ++ y) := by
  simp [outer, scanAppend, outerIs left, outerIs right]

theorem outerEnclosed {words found : List Text} (balanced : outer words = some found) :
    outer (['('] :: words ++ [[')']]) = some [['('], [')']] := by
  have inside := scanDeeper (outerIs balanced)
  simp [outer, scan, scanAppend, inside, shownAt]

/-! Words apart from each other. -/

def endsWord (text : Text) : Bool := startsWord text.reverse

theorem wordsApart {a b : Text} (apart : endsWord a = false ∨ startsWord b = false) :
    words (a ++ b) = words a ++ words b := by
  obtain ends | starts := apart
  · obtain rfl | ⟨front, c, rfl⟩ := List.eq_nil_or_concat a
    · rfl
    · have blank : isBlank c := by simpa [endsWord, startsWord] using ends
      have alone := wordsAppendBlank blank front []
      rw [List.concat_eq_append, List.append_assoc, List.singleton_append, wordsAppendBlank blank, alone]
      simp [words]
  · cases b with
    | nil => simp [words]
    | cons c rest =>
      have blank : isBlank c := by simpa [startsWord] using starts
      rw [wordsAppendBlank blank, wordsBlank blank]

theorem wordsAfter (a : Text) {b c : Text} (starts : startsWord b = startsWord c) (same : words b = words c) :
    words (a ++ b) = words (a ++ c) := by
  have front (rest : Text) : startsWord (rest ++ b) = startsWord (rest ++ c) := by
    cases rest with
    | nil => exact starts
    | cons d rest => rfl
  induction a with
  | nil => exact same
  | cons d rest ih => simp only [List.cons_append, words, front, ih]

theorem wordsOfBlanks {text : Text} (blank : ∀ c ∈ text, isBlank c) : words text = [] := by
  induction text with
  | nil => rfl
  | cons c rest ih =>
    rw [wordsBlank (blank c List.mem_cons_self)]
    exact ih fun d member => blank d (List.mem_cons_of_mem c member)

end Text

namespace Region
open Text

theorem bareAppend (r : Region) (a b : Text) : bare r (a ++ b) = bare r a ++ bare (r.after a) b := by
  induction a generalizing r with
  | nil => rfl
  | cons c rest ih => simp only [List.cons_append, bare, after, ih, List.append_assoc]

theorem bareBlank (r : Region) {c : Char} (blank : isBlank c) (rest : Text) :
    ∃ d, isBlank d ∧ bare r (c :: rest) = d :: bare (r.next c) rest := by
  have plain : isMark c = false := (blankIsPlain blank).1
  have word : isPunctuation c = false := by
    have other {d : Char} (visible : isBlank d = false) : c ≠ d := by
      intro same
      rw [same, visible] at blank
      contradiction
    simp [isPunctuation, other (d := '(') rfl, other (d := ')') rfl, other (d := ',') rfl, other (d := '.') rfl,
      other (d := '*') rfl, other (d := '?') rfl]
  cases r with
  | outside => exact ⟨c, blank, by simp [bare, glimpse, plain, word]⟩
  | quoted mark => exact ⟨' ', rfl, rfl⟩
  | escaped => exact ⟨' ', rfl, rfl⟩

theorem startsBare {a b : Text} (r : Region) (same : a.head? = b.head?) :
    startsWord (bare r a) = startsWord (bare r b) := by
  cases a with
  | nil =>
    cases b with
    | nil => rfl
    | cons d rest => contradiction
  | cons c rest =>
    cases b with
    | nil => contradiction
    | cons d rest' =>
      cases Option.some.inj same
      simp only [bare]
      cases r with
      | outside =>
        simp only [glimpse]
        split
        · rfl
        · split <;> rfl
      | quoted mark => rfl
      | escaped => rfl

theorem bareCollapse (text : Text) {r : Region} (known : r.Known) (calm : r ≠ .escaped ∨ startsWord text) :
    words (bare r (collapse text)) = words (bare r text) := by
  induction text generalizing r with
  | nil => rfl
  | cons c rest ih =>
    rw [collapseCons]
    by_cases blank : isBlank c
    · have calm : r ≠ .escaped := by simpa [startsWord, blank] using calm
      obtain ⟨d, white, same⟩ := bareBlank r blank rest
      rw [if_pos blank, same, wordsBlank white, blankStays known calm blank]
      exact ih known (.inl calm)
    · have known := nextKnown known c
      rw [if_neg blank]
      cases rest with
      | nil => rfl
      | cons e rest =>
        by_cases starts : startsWord (e :: rest)
        · have first : (collapse (e :: rest)).head? = some e := by
            have visible : ¬ isBlank e := by simpa [startsWord] using starts
            rw [collapseCons, if_neg visible]
            split <;> rfl
          rw [if_pos (Or.inl starts)]
          exact wordsAfter _ (startsBare _ first) (ih known (.inr starts))
        · have white : isBlank e := by simpa [startsWord] using starts
          have same := ih (nextKnown known ' ') (.inl (blankCalms _ (by decide)))
          -- The space that is written leaves the same region as the blank it stands for.
          have once : ((r.next c).next ' ').next e = (r.next c).next e := by
            rw [blankStays (nextKnown known ' ') (blankCalms _ (by decide)) white, blankSame known (by decide) white]
          obtain ⟨d, blank, left⟩ := bareBlank ((r.next c).next ' ') white rest
          obtain ⟨d', blank', right⟩ := bareBlank (r.next c) white rest
          rw [left, once, wordsBlank blank] at same
          have split : words (bare r (c :: e :: rest)) =
              words (r.glimpse c) ++ words (bare ((r.next c).next e) rest) := by
            rw [bare, right, wordsAppendBlank blank']
          rw [split, ← same]
          by_cases nothing : collapse (e :: rest) = []
          · rw [if_pos (Or.inr nothing), nothing]
            simp [bare, words]
          · have two : ¬ (startsWord (e :: rest) ∨ collapse (e :: rest) = []) := by simp [starts, nothing]
            obtain ⟨d'', blank'', spaced⟩ := bareBlank (r.next c) (c := ' ') (by decide) (collapse (e :: rest))
            rw [if_neg two, bare, spaced, wordsAppendBlank blank'']

end Region

namespace Text

def Closed (text : Text) : Prop := Region.outside.after text = .outside

instance (text : Text) : Decidable text.Closed := inferInstanceAs (Decidable (_ = _))

theorem closedAppend {a b : Text} (left : a.Closed) (right : b.Closed) : (a ++ b).Closed := by
  unfold Closed at *
  rw [Region.afterAppend, left, right]

theorem closedCollapse {text : Text} (closed : text.Closed) : (collapse text).Closed := by
  have read := (Labelled.collapseReads (Labelled.plain text) (r := .outside) trivial (.inl (by simp))
    (by rwa [Labelled.textPlain])).2
  rwa [Labelled.textCollapse, Labelled.textPlain] at read

theorem exposedCollapse (text : Text) : (collapse text).exposed = text.exposed :=
  Region.bareCollapse text (r := .outside) trivial (.inl (by simp))

def LooseEnd (text : Text) : Prop := endsWord (Region.bare .outside text) = false

def LooseStart (text : Text) : Prop := startsWord (Region.bare .outside text) = false

instance (text : Text) : Decidable text.LooseEnd := inferInstanceAs (Decidable (_ = _))

instance (text : Text) : Decidable text.LooseStart := inferInstanceAs (Decidable (_ = _))

theorem exposedAppend {a b : Text} (closed : a.Closed) (apart : a.LooseEnd ∨ b.LooseStart) :
    (a ++ b).exposed = a.exposed ++ b.exposed := by
  have split := Region.bareAppend .outside a b
  rw [closed] at split
  rw [exposed, split]
  exact wordsApart apart

theorem looseAppend {a b : Text} (closed : a.Closed) (shown : Region.bare .outside b ≠ []) (loose : b.LooseEnd) :
    (a ++ b).LooseEnd := by
  have split := Region.bareAppend .outside a b
  rw [closed] at split
  unfold LooseEnd endsWord at *
  rw [split, List.reverse_append]
  cases found : (Region.bare .outside b).reverse with
  | nil => exact absurd (List.reverse_eq_nil_iff.mp found) shown
  | cons c rest =>
    rw [found] at loose
    exact loose

theorem exposedChars {text : Text} (plain : ∀ c ∈ text, Region.isMark c = false ∧ Region.isPunctuation c = false) :
    ∀ word ∈ text.exposed, ∀ c ∈ word, c ∈ text := by
  have bare : Region.bare .outside text = text := by
    induction text with
    | nil => rfl
    | cons c rest ih =>
      obtain ⟨mark, word⟩ := plain c List.mem_cons_self
      have later := ih fun d member => plain d (List.mem_cons_of_mem c member)
      simp [Region.bare, Region.glimpse, Region.next, mark, word, later]
  rw [exposed, bare]
  clear plain bare
  induction text with
  | nil => simp [words]
  | cons c rest ih =>
    intro word member d inside
    simp only [words] at member
    split at member
    · exact List.mem_cons_of_mem c (ih word member d inside)
    · split at member
      · rcases memberOfGlue member with rfl | known | ⟨tail, known, rfl⟩
        · rw [List.mem_singleton.mp inside]
          exact List.mem_cons_self
        · exact List.mem_cons_of_mem c (ih word known d inside)
        · rcases List.mem_cons.mp inside with rfl | later
          · exact List.mem_cons_self
          · exact List.mem_cons_of_mem c (ih tail known d later)
      · rcases List.mem_cons.mp member with rfl | known
        · rw [List.mem_singleton.mp inside]
          exact List.mem_cons_self
        · exact List.mem_cons_of_mem c (ih word known d inside)

end Text
end SelectBuilder
