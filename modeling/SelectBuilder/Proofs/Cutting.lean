import SelectBuilder.Placeholder

/-! A statement cut at its live placeholders. A quoted region stays in one piece, whatever is in it: only its own mark
closes it, and one that is never closed takes the rest of the statement. Every statement is cut in one way, and that is
how a scan of it from left to right finds the placeholders. -/
namespace SelectBuilder
open Region (isMark)

/-- What may stand in a region before its mark comes again. Only in a string a backslash takes the next character
with it. -/
inductive Within (mark : Char) : Text → Prop
  | nothing : Within mark []
  | char {c : Char} {body : Text} (other : c ≠ mark) (plain : ¬ (mark = '\x27' ∧ c = '\\')) (later : Within mark body) :
      Within mark (c :: body)
  | escape (c : Char) {body : Text} (string : mark = '\x27') (later : Within mark body) :
      Within mark ('\\' :: c :: body)

inductive Cut : Text → List Text → Region → Prop
  | nothing : Cut [] [[]] .outside
  | hole {sql : Text} {pieces : List Text} {ends : Region} (later : Cut sql pieces ends) :
      Cut ('?' :: sql) ([] :: pieces) ends
  | char {c : Char} {sql piece : Text} {rest : List Text} {ends : Region} (unquoted : isMark c = false)
      (other : c ≠ '?') (later : Cut sql (piece :: rest) ends) : Cut (c :: sql) ((c :: piece) :: rest) ends
  | region {mark : Char} {body sql piece : Text} {rest : List Text} {ends : Region} (opens : isMark mark)
      (inside : Within mark body) (later : Cut sql (piece :: rest) ends) :
      Cut (mark :: body ++ mark :: sql) ((mark :: body ++ mark :: piece) :: rest) ends
  | unclosed {mark : Char} {body : Text} (opens : isMark mark) (inside : Within mark body) :
      Cut (mark :: body) [mark :: body] (.quoted mark)
  | unescaped {body : Text} (inside : Within '\x27' body) :
      Cut ('\x27' :: body ++ ['\\']) ['\x27' :: body ++ ['\\']] .escaped

/-! The pieces as a scan finds them. -/

namespace Text

theorem glueAll (text piece : Text) (rest : List Text) : text.foldr glue (piece :: rest) = (text ++ piece) :: rest := by
  induction text with
  | nil => rfl
  | cons c more ih => rw [List.foldr_cons, ih, glue, List.cons_append]

end Text

namespace Region

def pieces : Region → Text → List Text
  | _, [] => [[]]
  | r, c :: rest => if r.isLive c then [] :: pieces .outside rest else Text.glue c (pieces (r.next c) rest)

theorem piecesSome (r : Region) (sql : Text) : ∃ piece rest, pieces r sql = piece :: rest := by
  cases sql with
  | nil => exact ⟨[], [], rfl⟩
  | cons c rest =>
    unfold pieces
    split
    · exact ⟨_, _, rfl⟩
    · exact List.exists_cons_of_ne_nil (Text.glueNonempty _ _)

theorem piecesCount (r : Region) (sql : Text) : (pieces r sql).length = r.liveCount sql + 1 := by
  induction sql generalizing r with
  | nil => rfl
  | cons c rest ih =>
    rw [pieces, liveCount]
    split
    · rename_i live
      rw [List.length_cons, ih, nextOfLive live]
      omega
    · obtain ⟨piece, more, found⟩ := piecesSome (r.next c) rest
      have count := ih (r.next c)
      rw [found] at count ⊢
      rw [Text.glue, List.length_cons, Nat.zero_add, ← count, List.length_cons]

theorem piecesJoined (r : Region) (sql : Text) : Text.joined "?" (pieces r sql) = sql := by
  induction sql generalizing r with
  | nil => rfl
  | cons c rest ih =>
    rw [pieces]
    split
    · rename_i live
      obtain ⟨piece, more, found⟩ := piecesSome .outside rest
      simp only [isLive, Bool.and_eq_true, decide_eq_true_eq] at live
      have later := ih .outside
      rw [found] at later ⊢
      rw [Text.joined, List.intercalate_cons_cons, List.nil_append, live.2]
      exact congrArg _ later
    · have nonempty : pieces (r.next c) rest ≠ [] := by
        obtain ⟨piece, more, found⟩ := piecesSome (r.next c) rest
        simp [found]
      rw [Text.joinedGlue "?" c nonempty, ih]

theorem piecesQuiet {r : Region} {text : Text} (quiet : r.liveCount text = 0) (more : Text) :
    pieces r (text ++ more) = text.foldr Text.glue (pieces (r.after text) more) := by
  induction text generalizing r with
  | nil => rfl
  | cons c rest ih =>
    rw [liveCount] at quiet
    have still : ¬ r.isLive c := by
      intro live
      rw [if_pos live] at quiet
      omega
    rw [if_neg still, Nat.zero_add] at quiet
    rw [List.cons_append, pieces, if_neg still, ih quiet, List.foldr_cons, after]

theorem quotedQuiet (mark : Char) (c : Char) : (quoted mark).isLive c = false := by simp [isLive]

theorem opensRegion {mark : Char} (opens : isMark mark) :
    (outside).next mark = .quoted mark ∧ (outside).isLive mark = false := by
  constructor
  · rw [next, if_pos opens]
  · have other : mark ≠ '?' := by
      rintro rfl
      contradiction
    simp [isLive, other]

theorem closesRegion {mark : Char} (opens : isMark mark) : (quoted mark).next mark = .outside := by
  have apart : ¬ (mark = '\x27' ∧ mark = '\\') := by
    rintro ⟨rfl, same⟩
    contradiction
  rw [next, if_neg apart, if_pos rfl]

theorem withinQuiet {mark : Char} {body : Text} (inside : Within mark body) :
    (quoted mark).after body = .quoted mark ∧ (quoted mark).liveCount body = 0 := by
  induction inside with
  | nothing => exact ⟨rfl, rfl⟩
  | char other plain _ ih =>
    rw [after, liveCount, next, if_neg plain, if_neg other, quotedQuiet]
    exact ⟨ih.1, by simpa using ih.2⟩
  | escape c string _ ih =>
    subst string
    exact ⟨ih.1, by simpa [liveCount, isLive, next] using ih.2⟩

theorem unclosedQuiet {mark : Char} {body : Text} (opens : isMark mark) (inside : Within mark body) :
    (outside).after (mark :: body) = .quoted mark ∧ (outside).liveCount (mark :: body) = 0 := by
  obtain ⟨ends, quiet⟩ := withinQuiet inside
  obtain ⟨opened, still⟩ := opensRegion opens
  rw [after, liveCount, opened, still]
  exact ⟨ends, by simpa using quiet⟩

theorem regionQuiet {mark : Char} {body : Text} (opens : isMark mark) (inside : Within mark body) :
    (outside).after (mark :: body ++ [mark]) = .outside ∧ (outside).liveCount (mark :: body ++ [mark]) = 0 := by
  obtain ⟨ends, quiet⟩ := unclosedQuiet opens inside
  rw [afterAppend, liveCountAppend, ends, quiet, after, closesRegion opens, liveCount, quotedQuiet]
  exact ⟨rfl, rfl⟩

end Region

open Region

theorem cutScan {sql : Text} {found : List Text} {ends : Region} (cut : Cut sql found ends) :
    pieces .outside sql = found ∧ (outside).after sql = ends := by
  induction cut with
  | nothing => exact ⟨rfl, rfl⟩
  | hole _ ih => exact ⟨congrArg _ ih.1, ih.2⟩
  | @char c sql piece rest ends unquoted other _ ih =>
    have still : ¬ (outside).isLive c := by simp [isLive, other]
    rw [pieces, if_neg still, after, next, unquoted]
    exact ⟨by simp [ih.1, Text.glue], ih.2⟩
  | @region mark body sql piece rest ends opens inside _ ih =>
    obtain ⟨closed, quiet⟩ := regionQuiet opens inside
    have split : mark :: body ++ mark :: sql = (mark :: body ++ [mark]) ++ sql := by simp
    rw [split, piecesQuiet quiet, closed, ih.1, Text.glueAll, afterAppend, closed]
    exact ⟨by simp, ih.2⟩
  | @unclosed mark body opens inside =>
    obtain ⟨ends, quiet⟩ := unclosedQuiet opens inside
    have whole := piecesQuiet quiet []
    rw [List.append_nil, pieces, Text.glueAll, List.append_nil] at whole
    exact ⟨whole, ends⟩
  | @unescaped body inside =>
    have opens : isMark '\x27' := rfl
    obtain ⟨ends, quiet⟩ := unclosedQuiet opens inside
    have last : (outside).liveCount ('\x27' :: body ++ ['\\']) = 0 := by
      rw [liveCountAppend, ends, quiet]
      rfl
    have whole := piecesQuiet last []
    rw [List.append_nil, pieces, Text.glueAll, List.append_nil] at whole
    exact ⟨whole, by rw [afterAppend, ends]; rfl⟩

theorem cutUnique {sql : Text} {a b : List Text} {x y : Region} (first : Cut sql a x) (second : Cut sql b y) :
    a = b ∧ x = y := by
  obtain ⟨sameA, sameX⟩ := cutScan first
  obtain ⟨sameB, sameY⟩ := cutScan second
  exact ⟨sameA.symm.trans sameB, sameX.symm.trans sameY⟩

inductive Remains (mark : Char) : Text → Prop
  | closed {body sql piece : Text} {rest : List Text} {ends : Region} (inside : Within mark body)
      (later : Cut sql (piece :: rest) ends) : Remains mark (body ++ mark :: sql)
  | unclosed {body : Text} (inside : Within mark body) : Remains mark body
  | unescaped {body : Text} (string : mark = '\x27') (inside : Within mark body) : Remains mark (body ++ ['\\'])

theorem remainsChar {mark c : Char} {sql : Text} (other : c ≠ mark) (plain : ¬ (mark = '\x27' ∧ c = '\\'))
    (remains : Remains mark sql) : Remains mark (c :: sql) := by
  cases remains with
  | closed inside later => exact .closed (.char other plain inside) later
  | unclosed inside => exact .unclosed (.char other plain inside)
  | unescaped string inside => exact .unescaped string (.char other plain inside)

theorem remainsEscape (c : Char) {mark : Char} {sql : Text} (string : mark = '\x27') (remains : Remains mark sql) :
    Remains mark ('\\' :: c :: sql) := by
  cases remains with
  | closed inside later => exact .closed (.escape c string inside) later
  | unclosed inside => exact .unclosed (.escape c string inside)
  | unescaped string inside => exact .unescaped string (.escape c string inside)

theorem cutRegion {mark : Char} {sql : Text} (opens : isMark mark) (remains : Remains mark sql) :
    ∃ piece rest ends, Cut (mark :: sql) (piece :: rest) ends := by
  cases remains with
  | closed inside later => exact ⟨_, _, _, .region opens inside later⟩
  | unclosed inside => exact ⟨_, _, _, .unclosed opens inside⟩
  | unescaped string inside =>
    subst string
    exact ⟨_, _, _, .unescaped inside⟩

theorem cutOrRemains (sql : Text) :
    (∃ piece rest ends, Cut sql (piece :: rest) ends) ∧ (∀ mark, Remains mark sql) ∧ Remains '\x27' ('\\' :: sql) := by
  induction sql with
  | nil => exact ⟨⟨_, _, _, .nothing⟩, fun mark => .unclosed .nothing, .unescaped rfl .nothing⟩
  | cons c sql ih =>
    obtain ⟨⟨piece, rest, ends, later⟩, remains, behind⟩ := ih
    refine ⟨?_, ?_, remainsEscape c rfl (remains '\x27')⟩
    · cases opens : isMark c with
      | true => exact cutRegion opens (remains c)
      | false =>
        rcases Decidable.em (c = '?') with rfl | other
        · exact ⟨_, _, _, .hole later⟩
        · exact ⟨_, _, _, .char opens other later⟩
    · intro mark
      rcases Decidable.em (c = mark) with rfl | other
      · exact .closed .nothing later
      · by_cases escape : mark = '\x27' ∧ c = '\\'
        · obtain ⟨rfl, rfl⟩ := escape
          exact behind
        · exact remainsChar other escape (remains mark)

theorem cutFound (sql : Text) : Cut sql (pieces .outside sql) ((outside).after sql) := by
  obtain ⟨⟨piece, rest, ends, cut⟩, _⟩ := cutOrRemains sql
  obtain ⟨found, last⟩ := cutScan cut
  rw [found, last]
  exact cut

end SelectBuilder
