import SelectBuilder.Proofs.Filling
import SelectBuilder.Proofs.ReadableLiterals
import SelectBuilder.Query.Statement
import SelectBuilder.Query.Fragments

/-! What a string literal says to a reader who knows no escape but the doubled quote, as SQLite and SQL Server do. A
backslash is a character like any other there, so what is written behind one stays two characters: the literal denotes
the string with these characters spelled out, and the string itself exactly when it has none of them. Statements shown
with their values say the same of every string bound in them. -/
namespace SelectBuilder
open Region (pieces)

def letterOf : Char → Option Char
  | '\x00' => some '0'
  | '\x08' => some 'b'
  | '\n' => some 'n'
  | '\r' => some 'r'
  | '\t' => some 't'
  | '\x1a' => some 'Z'
  | '\x22' => some '\x22'
  | '\\' => some '\\'
  | _ => none

def spelledOut (c : Char) : Text :=
  match letterOf c with
  | some letter => ['\\', letter]
  | none => [c]

def Text.spelling (text : Text) : Text := text.flatMap spelledOut

def undoubled : Text → Option Text
  | [] => some []
  | [c] => if c = '\x27' then none else some [c]
  | c :: next :: rest =>
    if c = '\x27' then if next = '\x27' then (undoubled rest).map ('\x27' :: ·) else none
    else (undoubled (next :: rest)).map (c :: ·)

theorem undoubledQuote (rest : Text) : undoubled ('\x27' :: '\x27' :: rest) = (undoubled rest).map ('\x27' :: ·) := by
  rw [undoubled, if_pos rfl, if_pos rfl]

theorem undoubledOther {c : Char} (other : c ≠ '\x27') (rest : Text) :
    undoubled (c :: rest) = (undoubled rest).map (c :: ·) := by
  cases rest with
  | nil => simp [undoubled, other]
  | cons next rest => rw [undoubled, if_neg other]

theorem undoubledBare {word : Text} (bare : '\x27' ∉ word) (rest : Text) :
    undoubled (word ++ rest) = (undoubled rest).map (word ++ ·) := by
  induction word with
  | nil => simp
  | cons c word ih =>
    obtain ⟨first, later⟩ := List.ne_and_not_mem_of_not_mem_cons bare
    rw [List.cons_append, undoubledOther first.symm, ih later, Option.map_map]
    rfl

theorem letterBare {c letter : Char} (names : letterOf c = some letter) : letter ≠ '\x27' := by
  unfold letterOf at names
  split at names <;> cases names <;> decide

theorem spelledBare {c : Char} (other : c ≠ '\x27') : '\x27' ∉ spelledOut c := by
  unfold spelledOut
  split
  · rename_i names
    simp [(letterBare names).symm]
  · simp [other.symm]

theorem spelledLength (c : Char) : 1 ≤ (spelledOut c).length ∧ ((spelledOut c).length = 1 → letterOf c = none) := by
  unfold spelledOut
  split
  · simp
  · exact ⟨Nat.le_refl 1, fun _ => ‹_›⟩

theorem spellingLength (text : Text) : text.length ≤ text.spelling.length := by
  induction text with
  | nil => exact Nat.zero_le _
  | cons c rest ih =>
    have one := (spelledLength c).1
    simp only [Text.spelling, List.flatMap_cons, List.length_append, List.length_cons] at ih ⊢
    omega

theorem spellingSame {text : Text} : text.spelling = text ↔ ∀ c ∈ text, letterOf c = none := by
  induction text with
  | nil => simp [Text.spelling]
  | cons c rest ih =>
    have split : Text.spelling (c :: rest) = spelledOut c ++ Text.spelling rest := List.flatMap_cons
    rw [split, List.forall_mem_cons, ← ih]
    constructor
    · intro same
      have lengths := congrArg List.length same
      have longer := spellingLength rest
      obtain ⟨one, plain⟩ := spelledLength c
      rw [List.length_append, List.length_cons] at lengths
      have bare := plain (by omega)
      rw [spelledOut, bare] at same
      exact ⟨bare, List.tail_eq_of_cons_eq same⟩
    · rintro ⟨bare, later⟩
      rw [spelledOut, bare, later]
      rfl

namespace Dialect

def denoted (d : Dialect) (sql : Text) : Option (Text × Text) := do
  let (body, rest) ← d.readString sql
  let text ← undoubled body
  some (text, rest)

/-- A string as the value is shown by its spelling, and so by itself exactly when nothing of it is spelled out. -/
def Tells (d : Dialect) (v : Value) (literal : Text) : Prop :=
  ∀ text, v = .text text → d.denoted literal = some (text.spelling, []) ∧
    (d.denoted literal = some (text, []) ↔ ∀ c ∈ text, letterOf c = none)

variable {d : Dialect} (doubling : d = .sqlite ∨ d = .sqlserver)
include doubling

theorem escapeQuote : d.escape '\x27' = ['\x27', '\x27'] := by
  rcases doubling with rfl | rfl <;> rfl

omit doubling in
theorem escapeSpells {c : Char} (other : c ≠ '\x27') : d.escape c = spelledOut c := by
  simp only [escape, if_neg other]
  repeat' split
  any_goals
    subst c
    rfl
  simp only [spelledOut, letterOf]

theorem undoubledBody (text : Text) : undoubled (text.flatMap d.escape) = some text.spelling := by
  induction text with
  | nil => rfl
  | cons c rest ih =>
    rw [List.flatMap_cons, Text.spelling, List.flatMap_cons]
    rcases Decidable.em (c = '\x27') with rfl | other
    · rw [escapeQuote doubling, List.cons_append, List.cons_append, List.nil_append, undoubledQuote, ih]
      rfl
    · rw [escapeSpells other, undoubledBare (spelledBare other), ih]
      rfl

theorem literalDenotes (text : Text) : d.denoted (d.quoteLiteral text) = some (text.spelling, []) := by
  have read := @readLiteral d text [] (by simp)
  rw [List.append_nil] at read
  simp [denoted, read, undoubledBody doubling]

theorem literalTells (e : Dialect) (v : Value) : d.Tells v (v.literal e d.quoteLiteral) := by
  rintro text rfl
  rw [Value.literal, literalDenotes doubling text]
  refine ⟨rfl, ?_⟩
  rw [Option.some.injEq, Prod.mk.injEq, and_iff_left rfl]
  exact spellingSame

end Dialect

theorem shownFilled {d : Dialect} {quote : Text → Text} {found : List Text} {args : List Arg} {shown : Text}
    (filled : Filled d quote found args (.ok shown)) :
    ∃ piece rest values, found = piece :: rest ∧ rest.length = args.length ∧ Arg.AllGive args values ∧
      shown = Text.interleaved piece rest (values.map (Value.literal d quote)) := by
  cases filled with
  | shown given count => exact ⟨_, _, _, rfl, count, given, rfl⟩

theorem shownStringsAreSpelledOut {d : Dialect} (doubling : d = .sqlite ∨ d = .sqlserver) :
    (∀ text : Text, ∃ body, d.quoteLiteral text = d.literalMark ++ ['\x27'] ++ body ++ ['\x27'] ∧
      undoubled body = some text.spelling ∧ (undoubled body = some text ↔ ∀ c ∈ text, letterOf c = none)) ∧
    ∀ (q : Query) (shown : Text), q.literalRule = d.quoteLiteral → q.debugText = .ok shown →
      ∃ piece rest values literals, pieces .outside q.compile = piece :: rest ∧ rest.length = literals.length ∧
        Arg.AllGive q.allBindings values ∧ shown = Text.interleaved piece rest literals ∧
        List.Forall₂ d.Tells values literals := by
  refine ⟨?_, ?_⟩
  · intro text
    have body := Dialect.undoubledBody doubling text
    refine ⟨_, rfl, body, ?_⟩
    rw [body, Option.some.injEq]
    exact spellingSame
  · intro q shown rule ok
    have filled := interpolateFilled q.dialect q.literalRule q.compile q.allBindings
    rw [show interpolate q.dialect q.literalRule q.compile q.allBindings = .ok shown from ok] at filled
    obtain ⟨piece, rest, values, found, count, given, rfl⟩ := shownFilled filled
    rw [rule]
    refine ⟨piece, rest, values, _, found, ?_, given, rfl, ?_⟩
    · rw [List.length_map, count, given.length_eq]
    · rw [List.forall₂_map_right_iff]
      exact List.forall₂_same.mpr fun v _ => Dialect.literalTells doubling q.dialect v

theorem shownStringsAreSpelledOutBesideText :
    let q : Query := (Query.blank .sqlserver).selectRaw "'\\n', ?, ?" [.value (.text "\n"), .lazy (.ok (.text "it's"))]
    let shown : Text := "SELECT '\\n', N'\\n', N'it''s'"
    q.literalRule = Dialect.sqlserver.quoteLiteral ∧ q.debugText = .ok shown ∧
      ∃ piece rest values literals, pieces .outside q.compile = piece :: rest ∧ rest.length = literals.length ∧
        Arg.AllGive q.allBindings values ∧ shown = Text.interleaved piece rest literals ∧
        List.Forall₂ Dialect.sqlserver.Tells values literals := by
  intro q shown
  have ok : q.debugText = .ok shown := by decide +kernel
  exact ⟨rfl, ok, (shownStringsAreSpelledOut (.inr rfl)).2 q shown rfl ok⟩

theorem backslashDenotesTwo :
    Dialect.sqlite.denoted (Dialect.sqlite.quoteLiteral "a\\b") = some ("a\\\\b".toList, []) ∧
      Dialect.sqlserver.denoted (Dialect.sqlserver.quoteLiteral "\n") = some ("\\n".toList, []) ∧
      ((Query.blank .sqlite).selectRaw "?" [.value (.text "a\\b")]).debugText = .ok "SELECT 'a\\\\b'" := by
  refine ⟨?_, ?_, ?_⟩ <;> decide +kernel

end SelectBuilder
