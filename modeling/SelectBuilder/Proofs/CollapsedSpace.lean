import SelectBuilder.Proofs.Exposed

/-! White space after it was collapsed. The words are the same, so collapsing once is enough, and texts with spaces
between them can be collapsed one by one. Two texts that meet in the middle of a word are collapsed apart; otherwise
one space is left between them. -/
namespace SelectBuilder.Text

theorem wordsJoined (parts : List Text) : words (joined " " parts) = parts.flatMap words := by
  induction parts with
  | nil => rfl
  | cons part rest ih =>
    cases rest with
    | nil => simp [joined]
    | cons next rest =>
      have blank : isBlank ' ' := by decide
      have split : joined " " (part :: next :: rest) = part ++ ' ' :: joined " " (next :: rest) := by
        rw [joinedCons " " part (by simp), List.append_assoc]
        rfl
      rw [split, wordsAppendBlank blank, ih]
      rfl

theorem wordsOfWord {word : Text} (nonempty : word ≠ []) (visible : ∀ c ∈ word, isBlank c = false) :
    words word = [word] := by
  induction word with
  | nil => contradiction
  | cons c rest ih =>
    obtain ⟨first, later⟩ := List.forall_mem_cons.mp visible
    cases rest with
    | nil => simp [words, first, startsWord]
    | cons d rest =>
      have starts : startsWord (d :: rest) := by simp [startsWord, later d List.mem_cons_self]
      rw [words, if_neg (by simp [first]), if_pos starts, ih (by simp) later]
      rfl

theorem wordsCollapse (text : Text) : words (collapse text) = words text := by
  have alone {found : List Text} (visible : ∀ word ∈ found, words word = [word]) : found.flatMap words = found := by
    induction found with
    | nil => rfl
    | cons word rest ih =>
      obtain ⟨first, later⟩ := List.forall_mem_cons.mp visible
      rw [List.flatMap_cons, first, ih later, List.singleton_append]
  rw [collapse, wordsJoined]
  exact alone fun word member => wordsOfWord (wordsVisible member).1 (wordsVisible member).2

theorem collapseTwice (text : Text) : collapse (collapse text) = collapse text := by
  rw [collapse, wordsCollapse, ← collapse]

theorem collapseJoined {parts : List Text} (visible : ∀ part ∈ parts, words part ≠ []) :
    collapse (joined " " parts) = joined " " (parts.map collapse) := by
  rw [collapse, wordsJoined]
  induction parts with
  | nil => rfl
  | cons part rest ih =>
    obtain ⟨first, later⟩ := List.forall_mem_cons.mp visible
    cases rest with
    | nil => simp [joined, collapse]
    | cons next rest =>
      have more : (next :: rest).flatMap words ≠ [] := by simp [later next List.mem_cons_self]
      have others : (next :: rest).map collapse ≠ [] := by simp
      rw [List.flatMap_cons, joinedAppend " " first more, ih later, List.map_cons (a := part),
        joinedCons " " part.collapse others]
      rfl

/-! Ends of texts. -/

theorem endsAppendWord (a : Text) {b : Text} (ends : endsWord b) : endsWord (a ++ b) := by
  unfold endsWord at *
  rw [List.reverse_append]
  cases found : b.reverse with
  | nil =>
    rw [found] at ends
    contradiction
  | cons c rest =>
    rw [found] at ends
    exact ends

theorem startsAppendWord {a : Text} (starts : startsWord a) (b : Text) : startsWord (a ++ b) := by
  cases a with
  | nil => contradiction
  | cons c rest => exact starts

theorem joinedEndsWord (separator : Text) {parts : List Text} (nonempty : parts ≠ [])
    (ends : ∀ part ∈ parts, endsWord part) : endsWord (joined separator parts) := by
  induction parts with
  | nil => contradiction
  | cons part rest ih =>
    obtain ⟨first, later⟩ := List.forall_mem_cons.mp ends
    cases rest with
    | nil => simpa [joined] using first
    | cons next rest =>
      rw [joinedCons separator part (by simp)]
      exact endsAppendWord _ (ih (by simp) later)

theorem digitVisible {c : Char} (digit : c.isDigit) : isBlank c = false := by
  obtain ⟨low, high⟩ := Char.isDigit_iff_toNat.mp digit
  have apart : ∀ range ∈ blankRanges, range.2 < '0'.toNat ∨ '9'.toNat < range.1 := by decide
  rw [isBlank, List.any_eq_false]
  intro range member inside
  have outside := apart range member
  simp only [Bool.and_eq_true, decide_eq_true_eq] at inside
  omega

theorem numberEnds (n : Nat) : endsWord (ofNat n) := by
  obtain nothing | ⟨front, c, same⟩ := List.eq_nil_or_concat (ofNat n)
  · exact absurd nothing (ofNatNonempty n)
  · have visible := digitVisible (ofNatDigits n c (by simp [same]))
    simp [same, endsWord, startsWord, visible]

theorem endsCons (c : Char) {text : Text} (nonempty : text ≠ []) : endsWord (c :: text) = endsWord text := by
  obtain rfl | ⟨front, d, rfl⟩ := List.eq_nil_or_concat text
  · contradiction
  · simp [endsWord, startsWord]

theorem wordsAtEnd {text : Text} (ends : endsWord text) : words text ≠ [] := by
  induction text with
  | nil => contradiction
  | cons c rest ih =>
    by_cases starts : startsWord (c :: rest)
    · exact wordsNonempty starts
    · have blank : isBlank c := by simpa [startsWord] using starts
      rw [wordsBlank blank]
      cases rest with
      | nil => exact absurd ends starts
      | cons d rest => exact ih (by rwa [endsCons c (by simp)] at ends)

theorem collapseSome {text : Text} (visible : words text ≠ []) : collapse text ≠ [] :=
  mt collapseNothing.mp visible

theorem startsCollapse {text : Text} (visible : words text ≠ []) : startsWord (collapse text) := by
  induction text with
  | nil => contradiction
  | cons c rest ih =>
    rw [collapseCons]
    split
    · rename_i blank
      exact ih (by rwa [wordsBlank blank] at visible)
    · rename_i seen
      have starts (more : Text) : startsWord (c :: more) := by simpa [startsWord] using seen
      split <;> exact starts _

theorem endsCollapse {text : Text} (visible : words text ≠ []) : endsWord (collapse text) := by
  induction text with
  | nil => contradiction
  | cons c rest ih =>
    rw [collapseCons]
    split
    · rename_i blank
      exact ih (by rwa [wordsBlank blank] at visible)
    · rename_i seen
      by_cases nothing : collapse rest = []
      · simpa [nothing, endsWord, startsWord] using seen
      · have later := ih (mt collapseNothing.mpr nothing)
        split
        · rwa [endsCons c nothing]
        · rwa [endsCons c (by simp), endsCons ' ' nothing]

/-! Two texts side by side. -/

theorem collapseAppend {a b : Text} (ends : endsWord a) (starts : startsWord b) :
    collapse (a ++ b) = collapse a ++ collapse b := by
  induction a with
  | nil => contradiction
  | cons c rest ih =>
    cases rest with
    | nil =>
      have visible : ¬ isBlank c := by simpa [endsWord, startsWord] using ends
      have alone : collapse [c] = [c] := by simp [collapse, words, visible, startsWord, joined]
      rw [List.singleton_append, collapseCons, if_neg visible, if_pos (.inl starts), alone, List.singleton_append]
    | cons d rest =>
      have ends' : endsWord (d :: rest) := by rwa [endsCons c (by simp)] at ends
      have visible := collapseSome (wordsAtEnd ends')
      have same : startsWord (d :: rest ++ b) = startsWord (d :: rest) := rfl
      rw [List.cons_append, collapseCons, collapseCons c, ih ends', same]
      by_cases blank : isBlank c
      · simp only [if_pos blank]
      · simp only [if_neg blank, List.append_eq_nil_iff, visible, false_and, or_false]
        split <;> rfl

theorem collapseApart {a b : Text} (visible : words a ≠ []) (visible' : words b ≠ [])
    (apart : endsWord a = false ∨ startsWord b = false) : collapse (a ++ b) = collapse a ++ ' ' :: collapse b := by
  rw [collapse, wordsApart apart, joinedAppend " " visible visible', List.append_assoc]
  rfl

def gap (text : Text) : Text := if endsWord text then [] else [' ']

theorem collapseBetween {front text back : Text} (opens : endsWord front) (starts : startsWord text)
    (closes : startsWord back) :
    collapse (front ++ text ++ back) = collapse front ++ collapse text ++ text.gap ++ collapse back := by
  have whole := collapseAppend opens starts
  unfold gap
  split
  · rename_i ends
    rw [collapseAppend (endsAppendWord front ends) closes, whole, List.append_nil]
  · rename_i blank
    have open' : endsWord (front ++ text) = false := by
      obtain rfl | ⟨rest, c, rfl⟩ := List.eq_nil_or_concat text
      · contradiction
      · simpa [endsWord, startsWord] using blank
    have visible : words (front ++ text) ≠ [] := by
      refine mt collapseNothing.mpr ?_
      simp [whole, collapseSome (wordsNonempty starts)]
    rw [collapseApart visible (wordsNonempty closes) (.inl open'), whole]
    simp

end SelectBuilder.Text
