import SelectBuilder.Text.Basic

/-! The Unicode property White_Space, and words: the maximal runs of other characters.
Collapsing white space keeps the words and puts one space between them; it does not look at quotes. -/
namespace SelectBuilder.Text

def blankRanges : List (Nat × Nat) :=
  [(0x9, 0xD), (0x20, 0x20), (0x85, 0x85), (0xA0, 0xA0), (0x1680, 0x1680), (0x2000, 0x200A),
   (0x2028, 0x2029), (0x202F, 0x202F), (0x205F, 0x205F), (0x3000, 0x3000)]

def isBlank (c : Char) : Bool :=
  blankRanges.any fun range => range.1 ≤ c.toNat && c.toNat ≤ range.2

def trimStart (text : Text) : Text := text.dropWhile isBlank

def trim (text : Text) : Text := (trimStart (trimStart text).reverse).reverse

def startsWord : Text → Bool
  | [] => false
  | c :: _ => !isBlank c

def words : Text → List Text
  | [] => []
  | c :: rest =>
    if isBlank c then words rest
    else if startsWord rest then glue c (words rest)
    else [c] :: words rest

def collapse (text : Text) : Text := joined " " (words text)

theorem wordsBlank {c : Char} (blank : isBlank c) (text : Text) : words (c :: text) = words text := by
  simp [words, blank]

theorem wordsNonempty {text : Text} (starts : startsWord text) : words text ≠ [] := by
  cases text with
  | nil => cases starts
  | cons c rest =>
    have visible : ¬ isBlank c := by simpa [startsWord] using starts
    simp only [words, if_neg visible]
    split
    · exact glueNonempty c (words rest)
    · exact List.cons_ne_nil _ _

theorem wordsAppendBlank {c : Char} (blank : isBlank c) (a b : Text) :
    words (a ++ c :: b) = words a ++ words b := by
  induction a with
  | nil => simpa [words] using wordsBlank blank b
  | cons d rest ih =>
    have front : startsWord (rest ++ c :: b) = startsWord rest := by cases rest <;> simp [startsWord, blank]
    simp only [List.cons_append, words, front, ih]
    split
    · rfl
    · split
      · exact glueAppend d (wordsNonempty ‹_›) (words b)
      · rfl

theorem memberOfGlue {c : Char} {parts : List Text} {part : Text} (member : part ∈ glue c parts) :
    part = [c] ∨ part ∈ parts ∨ ∃ rest ∈ parts, part = c :: rest := by
  cases parts with
  | nil => exact .inl (by simpa [glue] using member)
  | cons first rest =>
    rcases List.mem_cons.mp member with same | later
    · exact .inr (.inr ⟨first, List.mem_cons_self, same⟩)
    · exact .inr (.inl (List.mem_cons_of_mem _ later))

theorem wordsVisible {text word : Text} (member : word ∈ words text) :
    word ≠ [] ∧ ∀ c ∈ word, isBlank c = false := by
  induction text generalizing word with
  | nil => simp [words] at member
  | cons c rest ih =>
    simp only [words] at member
    split at member
    · exact ih member
    · rename_i visible
      have alone : ∀ d ∈ [c], isBlank d = false := by simpa using visible
      split at member
      · rcases memberOfGlue member with rfl | inside | ⟨tail, inside, rfl⟩
        · exact ⟨List.cons_ne_nil _ _, alone⟩
        · exact ih inside
        · exact ⟨List.cons_ne_nil _ _, by simpa using ⟨by simpa using visible, (ih inside).2⟩⟩
      · rcases List.mem_cons.mp member with rfl | inside
        · exact ⟨List.cons_ne_nil _ _, alone⟩
        · exact ih inside

theorem collapseNothing {text : Text} : collapse text = [] ↔ words text = [] := by
  constructor
  · intro nothing
    cases found : words text with
    | nil => rfl
    | cons word rest =>
      have visible : word ≠ [] := (wordsVisible (found ▸ List.mem_cons_self)).1
      obtain ⟨c, more, rfl⟩ := List.exists_cons_of_ne_nil visible
      rw [collapse, found] at nothing
      cases rest <;> simp [joined, List.intercalate, List.intersperse] at nothing
  · intro blank
    rw [collapse, blank]
    rfl

theorem collapseCons (c : Char) (rest : Text) :
    collapse (c :: rest) =
      if isBlank c then collapse rest
      else if startsWord rest ∨ collapse rest = [] then c :: collapse rest
      else c :: ' ' :: collapse rest := by
  by_cases blank : isBlank c
  · simp only [collapse, wordsBlank blank, if_pos blank]
  · rw [if_neg blank]
    by_cases starts : startsWord rest
    · rw [if_pos (Or.inl starts), collapse, words, if_neg blank, if_pos starts, joinedGlue _ c (wordsNonempty starts)]
      rfl
    · rw [collapse, words, if_neg blank, if_neg starts]
      cases found : words rest with
      | nil =>
        have nothing : collapse rest = [] := collapseNothing.mpr found
        rw [if_pos (Or.inr nothing), nothing]
        rfl
      | cons word more =>
        have something : ¬ (startsWord rest ∨ collapse rest = []) := by
          simp [starts, collapseNothing, found]
        rw [if_neg something, collapse, found]
        simp [joined, List.intercalate, List.intersperse]

end SelectBuilder.Text
