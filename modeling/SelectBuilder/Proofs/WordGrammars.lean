import SelectBuilder.Clause
import SelectBuilder.Operator
import SelectBuilder.Proofs.ClauseTree
import SelectBuilder.Proofs.CollapsedSpace

/-! What operators and connectives are read from. Only the words count, and of their letters only which they are: an
operator is read from the words it is written with, a connective from a logical word, NOT and EXISTS in this order,
each of which may be left out. Everything else is refused with the text as it was given. -/
namespace SelectBuilder

namespace Text

/-! Letters in either case. -/

theorem lowerCode (c : Char) :
    c.toLower.toNat = if 65 ≤ c.toNat ∧ c.toNat ≤ 90 then c.toNat + 32 else c.toNat := by
  have capital : (c.val ≥ 'A'.val ∧ c.val ≤ 'Z'.val) ↔ 65 ≤ c.toNat ∧ c.toNat ≤ 90 := by
    simp only [ge_iff_le, UInt32.le_iff_toNat_le]
    exact Iff.rfl
  unfold Char.toLower
  by_cases letter : 65 ≤ c.toNat ∧ c.toNat ≤ 90
  · rw [if_pos letter, dif_pos (capital.mpr letter)]
    change (c.val + 32).toNat = c.val.toNat + 32
    rw [UInt32.toNat_add]
    change (c.toNat + 32) % 2 ^ 32 = c.toNat + 32
    omega
  · rw [if_neg letter, dif_neg (mt capital.mp letter)]

theorem upperCode (c : Char) :
    c.toUpper.toNat = if 97 ≤ c.toNat ∧ c.toNat ≤ 122 then c.toNat - 32 else c.toNat := by
  have small : ('a'.val ≤ c.val ∧ c.val ≤ 'z'.val) ↔ 97 ≤ c.toNat ∧ c.toNat ≤ 122 := by
    simp only [UInt32.le_iff_toNat_le]
    exact Iff.rfl
  unfold Char.toUpper
  by_cases letter : 97 ≤ c.toNat ∧ c.toNat ≤ 122
  · rw [if_pos letter, dif_pos (small.mpr letter)]
    have down : ('A'.val - 'a'.val).toNat = 2 ^ 32 - 32 := by decide
    change (c.val + ('A'.val - 'a'.val)).toNat = c.toNat - 32
    rw [UInt32.toNat_add, down]
    change (c.toNat + (2 ^ 32 - 32)) % 2 ^ 32 = c.toNat - 32
    omega
  · rw [if_neg letter, dif_neg (mt small.mp letter)]

theorem lowerOfUpper (c : Char) : c.toUpper.toLower = c.toLower := by
  rw [← Char.toNat_inj, lowerCode, lowerCode, upperCode]
  grind

theorem upperOfLower (c : Char) : c.toLower.toUpper = c.toUpper := by
  rw [← Char.toNat_inj, upperCode, upperCode, lowerCode]
  grind

theorem letterVisible {c : Char} (letter : 65 ≤ c.toNat ∧ c.toNat ≤ 90 ∨ 97 ≤ c.toNat ∧ c.toNat ≤ 122) :
    isBlank c = false := by
  simp only [isBlank, blankRanges, List.any_cons, List.any_nil, Bool.or_false, Bool.or_eq_false_iff,
    Bool.and_eq_false_iff, decide_eq_false_iff_not]
  omega

theorem blankLower (c : Char) : isBlank c.toLower = isBlank c := by
  have code := lowerCode c
  by_cases letter : 65 ≤ c.toNat ∧ c.toNat ≤ 90
  · rw [if_pos letter] at code
    rw [letterVisible (.inl letter), letterVisible (.inr (by omega))]
  · rw [if_neg letter, Char.toNat_inj] at code
    rw [code]

theorem blankUpper (c : Char) : isBlank c.toUpper = isBlank c := by
  rw [← blankLower, lowerOfUpper, blankLower]

theorem glueMap (f : Char → Char) (c : Char) (parts : List Text) :
    glue (f c) (parts.map (List.map f)) = (glue c parts).map (List.map f) := by
  cases parts <;> rfl

theorem wordsMap {f : Char → Char} (blank : ∀ c, isBlank (f c) = isBlank c) (text : Text) :
    words (text.map f) = (words text).map (List.map f) := by
  induction text with
  | nil => rfl
  | cons c rest ih =>
    have starts : startsWord (rest.map f) = startsWord rest := by
      cases rest with
      | nil => rfl
      | cons d rest => rw [List.map_cons, startsWord, startsWord, blank]
    rw [List.map_cons, words, words, blank, starts, ih, glueMap]
    split
    · rfl
    · split <;> rfl

theorem wordsLower (text : Text) : words (lower text) = (words text).map lower := wordsMap blankLower text

theorem wordsUpper (text : Text) : words (upper text) = (words text).map upper := wordsMap blankUpper text

def SameWords (a b : List Text) : Prop := a.map lower = b.map lower

instance (a b : List Text) : Decidable (SameWords a b) := inferInstanceAs (Decidable (_ = _))

theorem upperLower (text : Text) : upper (lower text) = upper text := by
  rw [upper, lower, List.map_map, upper]
  exact List.map_congr_left fun c _ => upperOfLower c

theorem lowerUpper (text : Text) : lower (upper text) = lower text := by
  rw [lower, upper, List.map_map, lower]
  exact List.map_congr_left fun c _ => lowerOfUpper c

theorem sameInCapitals {a b : List Text} : SameWords a b ↔ a.map upper = b.map upper := by
  constructor
  · intro same
    have raised := congrArg (List.map upper) same
    simpa only [List.map_map, Function.comp_def, upperLower] using raised
  · intro same
    have lowered := congrArg (List.map lower) same
    rw [SameWords]
    simpa only [List.map_map, Function.comp_def, lowerUpper] using lowered

theorem sameWordsLeft {a b : List Text} (same : SameWords a b) (other : List Text) :
    SameWords a other ↔ SameWords b other := by
  rw [SameWords, SameWords, same]

theorem collapseSame {a b : Text} : collapse a = collapse b ↔ words a = words b := by
  constructor
  · intro same
    rw [← wordsCollapse a, same, wordsCollapse]
  · intro same
    rw [collapse, same, collapse]

theorem lowerJoined (parts : List Text) : lower (joined " " parts) = joined " " (parts.map lower) := by
  induction parts with
  | nil => rfl
  | cons part rest ih =>
    cases rest with
    | nil => simp [joined]
    | cons next more =>
      rw [joinedCons _ _ (by simp), lowerAppend, lowerAppend, ih, List.map_cons (a := part), joinedCons _ _ (by simp)]
      rfl

theorem lowerCollapse (text : Text) : lower (collapse text) = collapse (lower text) := by
  rw [collapse, lowerJoined, ← wordsLower, ← collapse]

end Text

open Text (words SameWords)

namespace Operator

theorem spelledBySql (op : Operator) : spelledBy (Text.lower op.sql) = some op := by
  cases op <;> decide

theorem spelledByIs {text : Text} {op : Operator} (found : spelledBy text = some op) : text = Text.lower op.sql := by
  obtain ⟨entry, inside, rfl⟩ := Option.map_eq_some_iff.mp found
  have same : entry.1 = text := by simpa using List.find?_some inside
  have all : ∀ entry ∈ spellings, entry.1 = Text.lower entry.2.sql := by decide
  rw [← same]
  exact all entry (List.mem_of_find?_eq_some inside)

theorem sqlCollapsed (op : Operator) : Text.collapse (Text.lower op.sql) = Text.lower op.sql := by
  cases op <;> decide

theorem parseIs {given : Text} {op : Operator} : parse? given = some op ↔ SameWords (words given) (words op.sql) := by
  rw [SameWords, ← Text.wordsLower, ← Text.wordsLower, ← Text.collapseSame, sqlCollapsed, ← Text.lowerCollapse]
  constructor
  · exact spelledByIs
  · intro same
    rw [parse?, same, spelledBySql]

end Operator

namespace Connective

def wordsWith (logic : Option Logic) (negated existential : Bool) : List Text :=
  logic.toList.map Logic.word ++ modifierWords negated existential

/-- A logical word that is left out is AND. -/
def Spelled (c : Connective) (words : List Text) : Prop :=
  ∃ logic : Option Logic, c.logic = logic.getD .and ∧ SameWords words (wordsWith logic c.negated c.existential)

theorem wordsCapital (logic : Option Logic) (negated existential : Bool) :
    (wordsWith logic negated existential).map Text.upper = wordsWith logic negated existential := by
  rcases logic with _ | (_ | _ | _) <;> cases negated <;> cases existential <;> decide

theorem modifiersOver {l : Logic} {n : Bool} {found : List Text} {c : Connective} :
    parseModifiers ⟨l, n, true⟩ found = some c ↔ c = ⟨l, n, true⟩ ∧ found = [] := by
  cases found with
  | nil => simp [parseModifiers, eq_comm]
  | cons word rest => simp [parseModifiers]

theorem modifiersNegated {l : Logic} {found : List Text} {c : Connective} :
    parseModifiers ⟨l, true, false⟩ found = some c ↔ ∃ e, c = ⟨l, true, e⟩ ∧ found = modifierWords false e := by
  cases found with
  | nil =>
    constructor
    · rintro ⟨⟩
      exact ⟨false, rfl, rfl⟩
    · rintro ⟨_ | _, rfl, nothing⟩
      · rfl
      · contradiction
  | cons word rest =>
    rw [parseModifiers, if_neg (by simp)]
    constructor
    · intro parsed
      split at parsed
      · rename_i last
        obtain ⟨rfl, rfl⟩ := modifiersOver.mp parsed
        exact ⟨true, rfl, by rw [last.1]; rfl⟩
      · contradiction
    · rintro ⟨_ | _, rfl, same⟩
      · contradiction
      · obtain ⟨rfl, rfl⟩ := List.cons.inj same
        rfl

theorem modifiersParsed {l : Logic} {found : List Text} {c : Connective} :
    parseModifiers ⟨l, false, false⟩ found = some c ↔ ∃ n e, c = ⟨l, n, e⟩ ∧ found = modifierWords n e := by
  cases found with
  | nil =>
    constructor
    · rintro ⟨⟩
      exact ⟨false, false, rfl, rfl⟩
    · rintro ⟨_ | _, _ | _, rfl, nothing⟩ <;> first | rfl | contradiction
  | cons word rest =>
    rw [parseModifiers]
    constructor
    · intro parsed
      split at parsed
      · rename_i first
        obtain ⟨e, rfl, rfl⟩ := modifiersNegated.mp parsed
        exact ⟨true, e, rfl, by rw [first.1]; rfl⟩
      · split at parsed
        · rename_i last
          obtain ⟨rfl, rfl⟩ := modifiersOver.mp parsed
          exact ⟨false, true, rfl, by rw [last.1]; rfl⟩
        · contradiction
    · rintro ⟨_ | _, e, rfl, same⟩
      · cases e with
        | false => contradiction
        | true =>
          obtain ⟨rfl, rfl⟩ := List.cons.inj same
          rfl
      · obtain ⟨rfl, rfl⟩ := List.cons.inj same
        cases e <;> rfl

theorem logicOfIs {word : Text} {l : Logic} : logicOf word = some l ↔ word = l.word := by
  constructor
  · intro found
    unfold logicOf at found
    split at found <;> cases found <;> rfl
  · rintro rfl
    cases l <;> rfl

theorem modifierIsNoLogic {n e : Bool} {word : Text} {rest : List Text} (same : word :: rest = modifierWords n e) :
    logicOf word = none := by
  cases n <;> cases e <;> cases same <;> rfl

theorem parseIs {given : Text} {c : Connective} : parse? given = some c ↔ c.Spelled (words given) := by
  simp only [Spelled, Text.sameInCapitals, wordsCapital, parse?, Text.wordsUpper]
  cases (words given).map Text.upper with
  | nil =>
    constructor
    · rintro ⟨⟩
      exact ⟨none, rfl, rfl⟩
    · rintro ⟨_ | l, same, nothing⟩
      · obtain ⟨l, _ | _, _ | _⟩ := c <;> first | contradiction | cases same
        rfl
      · contradiction
  | cons first rest =>
    simp only
    cases found : logicOf first with
    | some l =>
      cases logicOfIs.mp found
      simp only [modifiersParsed]
      constructor
      · rintro ⟨n, e, rfl, rfl⟩
        exact ⟨some l, rfl, rfl⟩
      · rintro ⟨_ | other, same, spelled⟩
        · rw [modifierIsNoLogic spelled] at found
          contradiction
        · obtain ⟨firsts, rests⟩ := List.cons.inj spelled
          rw [logicOfIs.mpr firsts] at found
          cases found
          obtain ⟨_, n, e⟩ := c
          cases same
          exact ⟨n, e, rfl, rests⟩
    | none =>
      have parsed := @modifiersParsed .and (first :: rest) c
      rw [and, parsed]
      constructor
      · rintro ⟨n, e, rfl, spelled⟩
        exact ⟨none, rfl, spelled⟩
      · rintro ⟨_ | l, same, spelled⟩
        · obtain ⟨_, n, e⟩ := c
          cases same
          exact ⟨n, e, rfl, spelled⟩
        · rw [logicOfIs.mpr (List.cons.inj spelled).1] at found
          contradiction

theorem parseOk {given : Text} {c : Connective} : parse given = .ok c ↔ c.Spelled (words given) := by
  rw [← parseIs, parse]
  split <;> simp [*]

theorem parseRefused {given : Text} {fault : Fault} :
    parse given = .error fault ↔ fault = .unknownConnective given ∧ ∀ c : Connective, ¬ c.Spelled (words given) := by
  simp only [← parseIs, ← Option.eq_none_iff_forall_ne_some, parse]
  split <;> simp [*, eq_comm]

theorem spelledAlike {a b : List Text} (same : SameWords a b) (c : Connective) : c.Spelled a ↔ c.Spelled b := by
  simp only [Spelled, Text.sameWordsLeft same]

theorem parseSql (c : Connective) : parse c.sql = .ok c := by
  refine parseOk.mpr ⟨some c.logic, rfl, ?_⟩
  obtain ⟨_ | _ | _, _ | _, _ | _⟩ := c <;> decide

end Connective

namespace Operator

theorem parseOk {given : Text} {op : Operator} :
    parse given = .ok op ↔ SameWords (words given) (words op.sql) := by
  rw [← parseIs, parse]
  split <;> simp [*]

theorem parseRefused {given : Text} {fault : Fault} :
    parse given = .error fault ↔
      fault = .unknownOperator given ∧ ∀ op : Operator, ¬ SameWords (words given) (words op.sql) := by
  simp only [← parseIs, ← Option.eq_none_iff_forall_ne_some, parse]
  split <;> simp [*, eq_comm]

theorem parseSql (op : Operator) : parse op.sql = .ok op := parseOk.mpr rfl

theorem sqlHasWords (op : Operator) : words op.sql ≠ [] := by
  cases op <;> decide

end Operator

theorem wordsAreParsed :
    (∀ (given : Text) (c : Connective), Connective.parse given = .ok c ↔ c.Spelled (words given)) ∧
    (∀ given fault, Connective.parse given = .error fault ↔
      fault = .unknownConnective given ∧ ∀ c : Connective, ¬ c.Spelled (words given)) ∧
    (∀ (given : Text) (op : Operator), Operator.parse given = .ok op ↔ SameWords (words given) (words op.sql)) ∧
    (∀ given fault, Operator.parse given = .error fault ↔
      fault = .unknownOperator given ∧ ∀ op : Operator, ¬ SameWords (words given) (words op.sql)) ∧
    (∀ op : Operator, words op.sql ≠ []) ∧
    (∀ a b, SameWords (words a) (words b) →
      Connective.parse? a = Connective.parse? b ∧ Operator.parse? a = Operator.parse? b) ∧
    (∀ c : Connective, Connective.parse c.sql = .ok c) ∧ ∀ op : Operator, Operator.parse op.sql = .ok op := by
  refine ⟨fun _ _ => Connective.parseOk, fun _ _ => Connective.parseRefused, fun _ _ => Operator.parseOk,
    fun _ _ => Operator.parseRefused, Operator.sqlHasWords, ?_, Connective.parseSql, Operator.parseSql⟩
  intro a b same
  constructor
  · refine Option.ext fun c => ?_
    rw [Connective.parseIs, Connective.parseIs, Connective.spelledAlike same]
  · refine Option.ext fun op => ?_
    rw [Operator.parseIs, Operator.parseIs, Text.sameWordsLeft same]

theorem wordsAreParsedAmongBlanks :
    let a : Text := "\u3000or\tNoT\u2003 exists"
    let b : Text := " OR not EXISTS\n"
    let like : Text := "not li\u212Ae"
    SameWords (words a) (words b) ∧ Connective.parse? a = Connective.parse? b ∧
      Connective.parse b = .ok ⟨.or, true, true⟩ ∧ Operator.parse? a = Operator.parse? b ∧
      Operator.parse like = .error (.unknownOperator like) ∧
      ∀ op : Operator, ¬ SameWords (words like) (words op.sql) := by
  intro a b like
  have same : SameWords (words a) (words b) := by decide
  obtain ⟨_, _, _, refused, _, alike, _⟩ := wordsAreParsed
  have unknown : Operator.parse like = .error (.unknownOperator like) := by rfl
  exact ⟨same, (alike a b same).1, Connective.parseOk.mpr ⟨some .or, rfl, by decide⟩, (alike a b same).2, unknown,
    ((refused like _).mp unknown).2⟩

end SelectBuilder
