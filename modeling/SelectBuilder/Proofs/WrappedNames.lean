import Mathlib.Data.List.Basic
import SelectBuilder.Dialect
import SelectBuilder.Text.Basic

/-! A wrapped name is read back, whatever characters it has. The reader knows quoted identifiers only, in which two
quotes stand for one, a star, dots and AS; it returns the segments of the name in order, and those of the alias behind
AS. The alias mark is looked for in a lower-case copy of the name, in which every character has its place and its
size. -/
namespace SelectBuilder

namespace Text

theorem toLowerSize (c : Char) : c.toLower.utf8Size = c.utf8Size := by
  unfold Char.toLower
  split
  · rename_i upper
    obtain ⟨low, high⟩ := upper
    have small : c.val.toNat ≤ 90 := UInt32.le_iff_toNat_le.mp high
    have here : c.val ≤ 127 := UInt32.le_iff_toNat_le.mpr (Nat.le_trans small (by decide))
    have there : c.val + ('a'.val - 'A'.val) ≤ 127 := by
      rw [UInt32.le_iff_toNat_le, UInt32.toNat_add]
      change (c.val.toNat + 32) % 2 ^ 32 ≤ 127
      omega
    exact (Char.utf8Size_eq_one_iff.mpr there).trans (Char.utf8Size_eq_one_iff.mpr here).symm
  · rfl

theorem lowerByteLength (text : Text) : byteLength (lower text) = byteLength text := by
  induction text with
  | nil => rfl
  | cons c rest ih =>
    change byteLength (c.toLower :: lower rest) = _
    rw [byteLength, toLowerSize, ih, byteLength]

/-- The first alias mark in the lower-case copy of the name stands between the two. -/
structure AliasCut (name path mark short : Text) : Prop where
  whole : name = path ++ mark ++ short
  marked : lower mark = aliasMark
  first : ∀ before after, lower name = before ++ aliasMark ++ after → path.length ≤ before.length

inductive Cuts (name : Text) : Option (Text × Text) → Prop
  | nowhere (unmarked : ¬ aliasMark <:+: lower name) : Cuts name none
  | once {path mark short : Text} (cut : AliasCut name path mark short) : Cuts name (some (path, short))

theorem cutIs (name : Text) : Cuts name (cutAlias name) := by
  induction name with
  | nil => exact .nowhere (by decide)
  | cons c rest ih =>
    by_cases marked : lower ((c :: rest).take 4) = aliasMark
    · rw [cutAlias, if_pos marked]
      exact .once ⟨(List.take_append_drop 4 (c :: rest)).symm, marked, fun _ _ _ => Nat.zero_le _⟩
    · rw [cutAlias, if_neg marked]
      -- A mark of the whole name is one of the rest: it does not begin at once.
      have later {before after : Text} (found : lower (c :: rest) = before ++ aliasMark ++ after) :
          ∃ front, before = c.toLower :: front ∧ lower rest = front ++ aliasMark ++ after := by
        cases before with
        | nil =>
          refine absurd ?_ marked
          rw [lower, List.map_take]
          exact congrArg (List.take 4) found
        | cons d front =>
          obtain ⟨rfl, same⟩ := List.cons.inj found
          exact ⟨front, rfl, same⟩
      generalize cutAlias rest = found at ih ⊢
      cases ih with
      | nowhere unmarked =>
        refine .nowhere ?_
        rintro ⟨before, after, same⟩
        obtain ⟨front, _, inside⟩ := later same.symm
        exact unmarked ⟨front, after, inside.symm⟩
      | once cut =>
        refine .once ⟨congrArg (c :: ·) cut.whole, cut.marked, ?_⟩
        intro before after same
        obtain ⟨front, rfl, inside⟩ := later same
        exact Nat.succ_le_succ (cut.first front after inside)

theorem markCuts {name : Text} (marked : aliasMark <:+: lower name) :
    ∃ path mark short, AliasCut name path mark short := by
  have found := cutIs name
  generalize cutAlias name = answer at found
  cases found with
  | nowhere unmarked => exact absurd marked unmarked
  | once cut => exact ⟨_, _, _, cut⟩

section
variable {name path mark short : Text} (cut : AliasCut name path mark short)
include cut

theorem cutLower : lower name = lower path ++ aliasMark ++ lower short := by
  rw [cut.whole, lowerAppend, lowerAppend, cut.marked]

theorem cutInfix : aliasMark <:+: lower name := ⟨_, _, (cutLower cut).symm⟩

theorem cutLength : mark.length = aliasMark.length := by
  rw [← cut.marked, lower, List.length_map]

theorem cutUnique {path' mark' short' : Text} (other : AliasCut name path' mark' short') :
    path' = path ∧ short' = short := by
  have sameLength : path'.length = path.length := by
    have before := other.first _ _ (cutLower cut)
    have after := cut.first _ _ (cutLower other)
    rw [lower, List.length_map] at before after
    exact Nat.le_antisymm before after
  have whole : path' ++ (mark' ++ short') = path ++ (mark ++ short) := by
    rw [← List.append_assoc, ← List.append_assoc, ← other.whole, ← cut.whole]
  obtain ⟨paths, behind⟩ := List.append_inj whole sameLength
  have marks : mark'.length = mark.length := (cutLength other).trans (cutLength cut).symm
  exact ⟨paths, (List.append_inj behind marks).2⟩

theorem cutAliasIs : cutAlias name = some (path, short) := by
  have found := cutIs name
  generalize cutAlias name = answer at found ⊢
  cases found with
  | nowhere unmarked => exact absurd (cutInfix cut) unmarked
  | once other =>
    obtain ⟨rfl, rfl⟩ := cutUnique cut other
    rfl

theorem cutBytes : takeBytes? (byteLength (lower path)) name = some path ∧
    takeBytes? (byteLength (lower path ++ aliasMark)) name = some (path ++ mark) := by
  rw [← cut.marked, ← lowerAppend, lowerByteLength, lowerByteLength, cut.whole]
  refine ⟨?_, takeBytesAppend (path ++ mark) short⟩
  rw [List.append_assoc]
  exact takeBytesAppend path (mark ++ short)

end
end Text

/-! What a reader of quoted identifiers finds. -/

inductive NameToken
  | star
  | segment (text : Text)
  | dot
  | mark
  deriving DecidableEq, Repr

namespace NameToken

def ofSegment (segment : Text) : NameToken := if segment = ['*'] then .star else .segment segment

def ofPath (path : Text) : List NameToken := ((Text.segments path).map ofSegment).intersperse .dot

def written : NameToken → Text
  | .star => ['*']
  | .segment text => text
  | .dot => ['.']
  | .mark => Text.aliasMark

theorem segmentWritten (segment : Text) : (ofSegment segment).written = segment := by
  unfold ofSegment
  split
  · subst segment
    rfl
  · rfl

theorem dottedTokens (segments : List Text) :
    ((segments.map ofSegment).intersperse .dot).flatMap written = Text.joined ['.'] segments ∧
      .mark ∉ (segments.map ofSegment).intersperse .dot := by
  have plain (segment : Text) : .mark ≠ ofSegment segment := by
    unfold ofSegment
    split <;> simp
  induction segments with
  | nil => exact ⟨rfl, by simp⟩
  | cons segment rest ih =>
    cases rest with
    | nil => simp [segmentWritten, plain, Text.joined]
    | cons next more =>
      rw [List.map_cons, List.map_cons, List.intersperse_cons_cons, ← List.map_cons, Text.joinedCons _ _ (by simp),
        ← ih.1]
      constructor
      · rw [List.flatMap_cons, List.flatMap_cons, segmentWritten, List.append_assoc]
        rfl
      · simp only [List.mem_cons, not_or]
        exact ⟨plain segment, by simp, ih.2⟩

theorem pathWritten (path : Text) : (ofPath path).flatMap written = path :=
  (dottedTokens _).1.trans (Text.joinedSegments path)

theorem pathMarkless (path : Text) : .mark ∉ ofPath path := (dottedTokens _).2

theorem pathSame {a b : Text} (same : ofPath a = ofPath b) : a = b := by
  rw [← pathWritten a, ← pathWritten b, same]

/-- With a segment begun, the reader is inside its quotes. -/
def read (quote : Char) : Option Text → Text → Option (List NameToken)
  | none, [] => some []
  | none, ' ' :: 'A' :: 'S' :: ' ' :: rest => (read quote none rest).map (.mark :: ·)
  | none, c :: rest =>
    if c = quote then read quote (some []) rest
    else if c = '*' then (read quote none rest).map (.star :: ·)
    else if c = '.' then (read quote none rest).map (.dot :: ·)
    else none
  | some _, [] => none
  | some begun, [c] => if c = quote then some [.segment begun] else none
  | some begun, c :: next :: rest =>
    if c = quote then
      if next = quote then read quote (some (begun ++ [quote])) rest
      else (read quote none (next :: rest)).map (.segment begun :: ·)
    else read quote (some (begun ++ [c])) (next :: rest)

section
variable {quote : Char}

theorem readChar {c : Char} (plain : c ≠ quote) (begun : Text) {rest : Text} (more : rest ≠ []) :
    read quote (some begun) (c :: rest) = read quote (some (begun ++ [c])) rest := by
  obtain ⟨next, rest, rfl⟩ := List.exists_cons_of_ne_nil more
  rw [read, if_neg plain]

theorem readWithin (begun text : Text) {rest : Text} (apart : rest.head? ≠ some quote) :
    read quote (some begun) (Dialect.doubled quote text ++ quote :: rest) =
      (read quote none rest).map (.segment (begun ++ text) :: ·) := by
  induction text generalizing begun with
  | nil =>
    rw [List.append_nil]
    cases rest with
    | nil => simp [Dialect.doubled, read]
    | cons next rest =>
      have other : next ≠ quote := by simpa using apart
      simp [Dialect.doubled, read, other]
  | cons c text ih =>
    have later := ih (begun ++ [c])
    rw [List.append_assoc, List.singleton_append] at later
    by_cases same : c = quote
    · subst same
      have twice : Dialect.doubled c (c :: text) = c :: c :: Dialect.doubled c text := by simp [Dialect.doubled]
      rw [twice, List.cons_append, List.cons_append, read, if_pos rfl, if_pos rfl, later]
    · have once : Dialect.doubled quote (c :: text) = c :: Dialect.doubled quote text := by
        simp [Dialect.doubled, same]
      rw [once, List.cons_append, readChar same begun (by simp), later]

theorem readMark (rest : Text) : read quote none (" AS " ++ rest) = (read quote none rest).map (.mark :: ·) := by
  change read quote none (' ' :: 'A' :: 'S' :: ' ' :: rest) = _
  rw [read]

theorem readBetween {c : Char} (other : c ≠ ' ') (rest : Text) :
    read quote none (c :: rest) =
      if c = quote then read quote (some []) rest
      else if c = '*' then (read quote none rest).map (.star :: ·)
      else if c = '.' then (read quote none rest).map (.dot :: ·)
      else none := by
  rw [read]
  rintro _ rfl
  contradiction

end

end NameToken

namespace Dialect
open NameToken (read ofSegment ofPath)
open Text (AliasCut aliasMark lower trim)

variable (d : Dialect)

def readName (sql : Text) : Option (List NameToken) := read d.quoteChar none sql

theorem quoteCharApart : d.quoteChar ≠ ' ' ∧ '*' ≠ d.quoteChar ∧ '.' ≠ d.quoteChar := by
  cases d <;> decide

theorem readSegment (segment : Text) {rest : Text} (apart : rest.head? ≠ some d.quoteChar) :
    d.readName (d.quoteSegment segment ++ rest) = (d.readName rest).map (ofSegment segment :: ·) := by
  obtain ⟨space, star, _⟩ := d.quoteCharApart
  unfold readName quoteSegment ofSegment
  split
  · subst segment
    change read d.quoteChar none ('*' :: rest) = _
    rw [NameToken.readBetween (by decide), if_neg star, if_pos rfl]
  · rw [quote, List.append_assoc, List.cons_append, NameToken.readBetween space, if_pos rfl]
    exact NameToken.readWithin [] segment apart

theorem readDot (rest : Text) : d.readName ('.' :: rest) = (d.readName rest).map (.dot :: ·) := by
  unfold readName
  rw [NameToken.readBetween (by decide), if_neg d.quoteCharApart.2.2, if_neg (by decide), if_pos rfl]

theorem readPath (path : Text) {rest : Text} (apart : rest.head? ≠ some d.quoteChar) :
    d.readName (d.quotePath path ++ rest) = (d.readName rest).map (ofPath path ++ ·) := by
  unfold quotePath ofPath
  have nonempty := Text.segmentsNonempty path
  generalize Text.segments path = found at nonempty
  induction found with
  | nil => contradiction
  | cons segment later ih =>
    cases later with
    | nil => simpa [Text.joined] using d.readSegment segment apart
    | cons next more =>
      have dotted : ('.' :: (Text.joined "." ((next :: more).map d.quoteSegment) ++ rest)).head? ≠ some d.quoteChar := by
        simpa using d.quoteCharApart.2.2
      have split : Text.joined "." ((segment :: next :: more).map d.quoteSegment) ++ rest =
          d.quoteSegment segment ++ '.' :: (Text.joined "." ((next :: more).map d.quoteSegment) ++ rest) := by
        rw [List.map_cons, Text.joinedCons _ _ (by simp), List.append_assoc, List.append_assoc]
        rfl
      rw [split, d.readSegment segment dotted, d.readDot, ih (by simp), Option.map_map, Option.map_map]
      rfl

theorem readWhole (path : Text) : d.readName (d.quotePath path) = some (ofPath path) := by
  have read := @readPath d path [] (by simp)
  rw [List.append_nil] at read
  rw [read]
  exact congrArg some (List.append_nil _)

theorem readUnmarked {name : Text} (unmarked : ¬ aliasMark <:+: lower name) :
    d.readName (d.wrap name) = some (ofPath name) := by
  have found := Text.cutIs name
  unfold wrap
  generalize Text.cutAlias name = answer at found ⊢
  cases found with
  | nowhere => exact d.readWhole name
  | once cut => exact absurd (Text.cutInfix cut) unmarked

theorem readMarked {name path mark short : Text} (cut : AliasCut name path mark short) :
    d.readName (d.wrap name) = some (ofPath (trim path) ++ .mark :: ofPath (trim short)) := by
  have space : (" AS " ++ d.quotePath (trim short) : Text).head? ≠ some d.quoteChar := by
    simpa using d.quoteCharApart.1.symm
  have short : d.readName (" AS " ++ d.quotePath (trim short)) = some (.mark :: ofPath (trim short)) := by
    rw [readName, NameToken.readMark, ← readName, d.readWhole, Option.map_some]
  simp only [wrap, Text.cutAliasIs cut]
  rw [List.append_assoc, d.readPath _ space, short, Option.map_some]

theorem wrapUnmarkedSame {a b : Text} (unmarked : ¬ aliasMark <:+: lower a) (unmarked' : ¬ aliasMark <:+: lower b) :
    d.wrap a = d.wrap b ↔ a = b := by
  refine ⟨?_, congrArg d.wrap⟩
  intro same
  have read := congrArg d.readName same
  rw [d.readUnmarked unmarked, d.readUnmarked unmarked'] at read
  exact NameToken.pathSame (Option.some.inj read)

theorem wrapMarkedSame {a path mark short b path' mark' short' : Text} (cut : AliasCut a path mark short)
    (cut' : AliasCut b path' mark' short') :
    d.wrap a = d.wrap b ↔ trim path = trim path' ∧ trim short = trim short' := by
  constructor
  · intro same
    have read := congrArg d.readName same
    rw [d.readMarked cut, d.readMarked cut'] at read
    obtain ⟨paths, _, shorts⟩ := (List.append_cons_inj_of_notMem (NameToken.pathMarkless _)
      (NameToken.pathMarkless _)).mp (Option.some.inj read)
    exact ⟨NameToken.pathSame paths, NameToken.pathSame shorts⟩
  · rintro ⟨paths, shorts⟩
    simp only [wrap, Text.cutAliasIs cut, Text.cutAliasIs cut', paths, shorts]

end Dialect

open Text (AliasCut aliasMark lower trim byteLength takeBytes?)
open NameToken (ofPath)

theorem wrappedNamesReadBack (d : Dialect) :
    (∀ name, (¬ aliasMark <:+: lower name) → d.readName (d.wrap name) = some (ofPath name)) ∧
    (∀ name, aliasMark <:+: lower name → ∃ path mark short, AliasCut name path mark short ∧
      takeBytes? (byteLength (lower path)) name = some path ∧
      takeBytes? (byteLength (lower path ++ aliasMark)) name = some (path ++ mark) ∧
      d.readName (d.wrap name) = some (ofPath (trim path) ++ .mark :: ofPath (trim short))) ∧
    (∀ a b, (¬ aliasMark <:+: lower a) → (¬ aliasMark <:+: lower b) → (d.wrap a = d.wrap b ↔ a = b)) ∧
    ∀ a b path mark short path' mark' short', AliasCut a path mark short → AliasCut b path' mark' short' →
      (d.wrap a = d.wrap b ↔ trim path = trim path' ∧ trim short = trim short') := by
  refine ⟨fun name => d.readUnmarked, ?_, fun a b => d.wrapUnmarkedSame, ?_⟩
  · intro name marked
    obtain ⟨path, mark, short, cut⟩ := Text.markCuts marked
    obtain ⟨before, through⟩ := Text.cutBytes cut
    exact ⟨path, mark, short, cut, before, through, d.readMarked cut⟩
  · intro a b path mark short path' mark' short'
    exact d.wrapMarkedSame

theorem wrappedNameReadsBackAmongLetters :
    let d := Dialect.mysql
    let name : Text := "é\x60.*\t aS Ü.* as \x60y\x60 "
    let other : Text := "é\x60.* As Ü.* as \x60y\x60"
    let plain : Text := " *.*. as"
    (aliasMark <:+: lower name ∧ ∃ path mark short, AliasCut name path mark short ∧
      takeBytes? (byteLength (lower path)) name = some path ∧
      takeBytes? (byteLength (lower path ++ aliasMark)) name = some (path ++ mark) ∧
      d.readName (d.wrap name) = some (ofPath (trim path) ++ .mark :: ofPath (trim short))) ∧
    d.readName (d.wrap name) = some [.segment "é\x60".toList, .dot, .star, .mark, .segment "Ü".toList, .dot,
      .segment "* as \x60y\x60".toList] ∧
    ((¬ aliasMark <:+: lower plain) ∧ d.readName (d.wrap plain) = some (ofPath plain)) ∧
    ((¬ aliasMark <:+: lower (trim plain)) ∧ d.wrap plain ≠ d.wrap (trim plain)) ∧
    ∃ path mark short path' mark' short', AliasCut name path mark short ∧ AliasCut other path' mark' short' ∧
      trim path = trim path' ∧ trim short = trim short' ∧ d.wrap name = d.wrap other := by
  intro d name other plain
  obtain ⟨unmarked, marked, plainSame, cutSame⟩ := wrappedNamesReadBack d
  have within : aliasMark <:+: lower name := by decide +kernel
  have apart : ¬ aliasMark <:+: lower plain := by decide +kernel
  have apart' : ¬ aliasMark <:+: lower (trim plain) := by decide +kernel
  have differ : plain ≠ trim plain := by decide +kernel
  have cutting : Text.cutAlias name = some ("é\x60.*\t".toList, "Ü.* as \x60y\x60 ".toList) := by decide +kernel
  have cutting' : Text.cutAlias other = some ("é\x60.*".toList, "Ü.* as \x60y\x60".toList) := by decide +kernel
  have found := Text.cutIs name
  have found' := Text.cutIs other
  rw [cutting] at found
  rw [cutting'] at found'
  refine ⟨⟨within, marked name within⟩, by decide +kernel, ⟨apart, unmarked plain apart⟩,
    ⟨apart', fun same => differ ((plainSame _ _ apart apart').mp same)⟩, ?_⟩
  cases found with
  | once cut => cases found' with
    | once cut' =>
      have parts : trim "é\x60.*\t" = trim "é\x60.*" ∧ trim "Ü.* as \x60y\x60 " = trim "Ü.* as \x60y\x60" := by
        decide +kernel
      exact ⟨_, _, _, _, _, _, cut, cut', parts.1, parts.2, (cutSame _ _ _ _ _ _ _ _ cut cut').mpr parts⟩

end SelectBuilder
