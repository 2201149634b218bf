import SelectBuilder.Proofs.Cutting
import SelectBuilder.Proofs.Filling
import SelectBuilder.Proofs.Inert

/-! Values written into a statement are inert, in all dialects: numbers, times and bytes because of the characters they
are made of, strings because every quote and backslash of the caller is written so that a reader stays inside the
literal. So filling placeholders changes nothing for the rest of the statement, and leaves none to be filled. -/
namespace SelectBuilder
open Region (isMark after liveCount)

namespace Text

theorem unmarkedAppend {a b : Text} (left : a.Unmarked) (right : b.Unmarked) : (a ++ b).Unmarked :=
  List.forall_mem_append.mpr ⟨left, right⟩

theorem unmarkedPart {part whole : Text} (among : part ⊆ whole) (unmarked : whole.Unmarked) : part.Unmarked :=
  fun c member => unmarked c (among member)

theorem unmarkedWithin {text : Text} (unmarked : text.Unmarked) : Within '\x27' text := by
  induction text with
  | nil => exact .nothing
  | cons c rest ih =>
    obtain ⟨⟨mark, _, slash⟩, later⟩ := List.forall_mem_cons.mp unmarked
    have other : c ≠ '\x27' := by
      rintro rfl
      contradiction
    exact .char other (fun escape => slash escape.2) (ih later)

theorem ofIntUnmarked (n : Int) : (ofInt n).Unmarked := by
  cases n with
  | ofNat n => exact ofNatUnmarked n
  | negSucc n =>
    have sign : Unmarked ['-'] := by decide
    exact unmarkedAppend sign (ofNatUnmarked (n + 1))

theorem zerosUnmarked (n : Nat) : Unmarked (List.replicate n '0') := by
  intro c member
  rw [List.eq_of_mem_replicate member]
  decide

theorem paddedUnmarked (width n : Nat) : (padded width n).Unmarked :=
  unmarkedAppend (zerosUnmarked _) (ofNatUnmarked n)

end Text

open Text

namespace Decimal

theorem Numeral.positionalUnmarked (d : Numeral) {whole : Text} (unmarked : whole.Unmarked) :
    (d.positional whole).Unmarked := by
  have digits := ofNatUnmarked d.digits
  have point : Unmarked ['.'] := by decide
  have leading : Unmarked "0." := by decide
  unfold positional
  split
  · exact unmarkedAppend (unmarkedAppend digits (zerosUnmarked _)) unmarked
  · split
    · exact unmarkedAppend (unmarkedAppend leading (zerosUnmarked _)) digits
    · have front := unmarkedPart (List.take_subset d.point.toNat _) digits
      have back := unmarkedPart (List.drop_subset d.point.toNat _) digits
      exact unmarkedAppend (unmarkedAppend front point) back

theorem Binary64.plainUnmarked (x : Binary64) : x.plain.Unmarked := by
  have sign : Unmarked ['-'] := by decide
  unfold plain written
  split
  · decide
  · extract_lets body
    have unmarked : body.Unmarked := by
      subst body
      split
      · decide
      · split
        · decide
        · exact Numeral.positionalUnmarked _ (by decide)
    split
    · exact unmarkedAppend sign unmarked
    · exact unmarked

end Decimal

namespace Timestamp
variable (t : Timestamp)

theorem dateTextUnmarked : t.dateText.Unmarked := by
  have hyphen : Unmarked ['-'] := by decide
  have year : t.yearText.Unmarked := by
    unfold yearText
    split
    · exact unmarkedAppend hyphen (paddedUnmarked _ _)
    · exact paddedUnmarked _ _
  have month := unmarkedAppend (unmarkedAppend year hyphen) (paddedUnmarked 2 t.month)
  exact unmarkedAppend (unmarkedAppend month hyphen) (paddedUnmarked 2 t.day)

theorem localTextUnmarked (digits : Nat) : (t.localText digits).Unmarked := by
  have colon : Unmarked [':'] := by decide
  have hour := unmarkedAppend (unmarkedAppend t.dateTextUnmarked (b := [' ']) (by decide)) (paddedUnmarked 2 t.hour)
  have minute := unmarkedAppend (unmarkedAppend colon (paddedUnmarked 2 t.minute)) colon
  have second := unmarkedAppend (unmarkedAppend minute (paddedUnmarked 2 t.second)) (b := ['.']) (by decide)
  have fraction := unmarkedPart (List.take_subset digits _) (paddedUnmarked 9 t.nanosecond)
  exact unmarkedAppend (unmarkedAppend hour second) fraction

theorem shortOffsetUnmarked : t.shortOffset.Unmarked := by
  have sign : Unmarked [t.offsetSign] := by
    unfold offsetSign
    split <;> decide
  have hour : Unmarked (t.offsetSign :: t.offsetHour) := unmarkedAppend sign (paddedUnmarked 2 _)
  exact unmarkedAppend (unmarkedAppend hour (b := [':']) (by decide)) (paddedUnmarked 2 _)

end Timestamp

theorem hexTextUnmarked (data : List UInt8) : (hexText data).Unmarked := by
  have digit (n : Nat) : Unmarked [hexDigit n] := by
    have known : Unmarked ("0123456789ABCDEF" ++ ['0']) := by decide
    intro c member
    rw [List.mem_singleton.mp member, hexDigit, List.getD_eq_getElem?_getD]
    cases found : "0123456789ABCDEF".toList[n]? with
    | none => exact known _ (by simp)
    | some d => exact known _ (List.mem_append_left _ (List.mem_of_getElem? found))
  intro c member
  obtain ⟨b, _, inside⟩ := List.mem_flatMap.mp member
  exact unmarkedAppend (digit _) (digit _) c inside

namespace Dialect
variable (d : Dialect)

theorem stringInert {body : Text} (inside : Within '\x27' body) : Text.Inert (['\x27'] ++ body ++ ['\x27']) :=
  Region.regionQuiet rfl inside

theorem bytesLiteralInert (data : List UInt8) : (d.bytesLiteral data).Inert := by
  have digits := hexTextUnmarked data
  have hex : Text.Inert (['\x27'] ++ hexText data ++ ['\x27']) := stringInert (unmarkedWithin digits)
  have marked : Text.Inert (['X', '\x27'] ++ hexText data ++ ['\x27']) := inertAppend (a := ['X']) (by decide) hex
  unfold bytesLiteral
  split
  · decide
  · cases d with
    | mysql => exact marked
    | sqlite => exact marked
    | postgresql =>
      -- The two backslashes are one escaped backslash to a reader.
      have inside : Within '\x27' ('\\' :: '\\' :: 'x' :: hexText data) :=
        .escape '\\' rfl (.char (by decide) (by decide) (unmarkedWithin digits))
      have escaped : Text.Inert (['\x27'] ++ ('\\' :: '\\' :: 'x' :: hexText data) ++ ['\x27']) := stringInert inside
      have whole := inertAppend (inertAppend (a := ['E']) (by decide) escaped) (b := "::bytea") (by decide)
      have split : ['E'] ++ (['\x27'] ++ ('\\' :: '\\' :: 'x' :: hexText data) ++ ['\x27']) ++ "::bytea" =
          ['E', '\x27', '\\', '\\', 'x'] ++ hexText data ++ "'::bytea" := by simp
      rwa [split] at whole
    | sqlserver => exact inertAppend (by decide) (unmarkedInert digits)

theorem momentLiteralInert (t : Timestamp) : (d.momentLiteral t).Inert := by
  apply stringInert
  apply unmarkedWithin
  cases d with
  | mysql => exact t.localTextUnmarked 6
  | postgresql => exact t.localTextUnmarked 6
  | sqlite => exact t.localTextUnmarked 3
  | sqlserver => exact unmarkedAppend (unmarkedAppend (t.localTextUnmarked 6) (by decide)) t.shortOffsetUnmarked

/-- A quote that is doubled closes the literal and opens it again; one behind a backslash, and a backslash behind
another, do not count. -/
theorem escapeStays (c : Char) :
    after (.quoted '\x27') (d.escape c) = .quoted '\x27' ∧ liveCount (.quoted '\x27') (d.escape c) = 0 := by
  unfold escape
  repeat' split
  any_goals exact ⟨rfl, rfl⟩
  rename_i quote _ slash
  have inside : Within '\x27' [c] := .char quote (fun escape => slash escape.2) .nothing
  exact Region.withinQuiet inside

theorem escapedStays (text : Text) :
    after (.quoted '\x27') (text.flatMap d.escape) = .quoted '\x27' ∧
      liveCount (.quoted '\x27') (text.flatMap d.escape) = 0 := by
  induction text with
  | nil => exact ⟨rfl, rfl⟩
  | cons c rest ih =>
    obtain ⟨stays, silent⟩ := d.escapeStays c
    rw [List.flatMap_cons, Region.afterAppend, Region.liveCountAppend, stays, silent, ih.1, ih.2]
    exact ⟨rfl, rfl⟩

theorem quoteLiteralInert (text : Text) : (d.quoteLiteral text).Inert := by
  have mark : d.literalMark.Inert := by cases d <;> decide
  obtain ⟨stays, silent⟩ := d.escapedStays text
  have string : Text.Inert ('\x27' :: text.flatMap d.escape ++ ['\x27']) := by
    have opened : Region.outside.next '\x27' = .quoted '\x27' := rfl
    unfold Text.Inert
    rw [List.cons_append, after, liveCount, Region.afterAppend, Region.liveCountAppend, opened, stays, silent]
    exact ⟨rfl, rfl⟩
  have whole := inertAppend mark string
  rwa [← List.singleton_append, ← List.append_assoc, ← List.append_assoc] at whole

end Dialect

theorem Value.literalInert (v : Value) (d : Dialect) {quote : Text → Text} (inert : ∀ text, (quote text).Inert) :
    (v.literal d quote).Inert := by
  have words : Text.Inert "NULL" ∧ Text.Inert ['0'] ∧ Text.Inert ['1'] := by decide
  cases v with
  | null => exact words.1
  | bool b =>
    cases b with
    | false => exact words.2.1
    | true => exact words.2.2
  | int n => exact unmarkedInert (ofIntUnmarked _)
  | nat n => exact ofNatInert _
  | float x => exact unmarkedInert x.plainUnmarked
  | text t => exact inert t
  | bytes data => exact d.bytesLiteralInert data
  | moment t => exact d.momentLiteralInert t

theorem Arg.literalInert {arg : Arg} {d : Dialect} {quote : Text → Text} (inert : ∀ text, (quote text).Inert)
    {shown : Text} (ok : arg.literal d quote = .ok shown) : shown.Inert := by
  rcases arg.givesOrRefuses with ⟨v, gives⟩ | ⟨fault, refuses⟩
  · rw [literalGives gives] at ok
    cases ok
    exact v.literalInert d inert
  · rw [literalRefuses refuses] at ok
    contradiction

/-! Filling with inert texts, and filling again. -/

section
variable {render : Arg → Except Fault Text}

theorem fillInert (inert : ∀ {arg shown}, render arg = .ok shown → shown.Inert) {r : Region} {sql out : Text}
    {args : List Arg} (ok : fill render r sql args = .ok out) : liveCount r out = 0 ∧ after r out = after r sql := by
  induction sql generalizing r args out with
  | nil =>
    cases args with
    | nil =>
      cases ok
      exact ⟨rfl, rfl⟩
    | cons arg later => contradiction
  | cons c rest ih =>
    unfold fill at ok
    split at ok
    · rename_i live
      cases args with
      | nil => contradiction
      | cons arg later =>
        obtain ⟨shown, found, ok⟩ := bindIsOk ok
        obtain ⟨tail, filled, ok⟩ := bindIsOk ok
        cases ok
        obtain ⟨closed, silent⟩ := inert found
        obtain ⟨quiet, ends⟩ := ih filled
        have here : r = .outside := by
          simp only [Region.isLive, Bool.and_eq_true, decide_eq_true_eq] at live
          exact live.1
        rw [after, Region.nextOfLive live, here, Region.liveCountAppend, Region.afterAppend, closed, silent, quiet, ends]
        exact ⟨rfl, rfl⟩
    · rename_i still
      obtain ⟨tail, filled, ok⟩ := bindIsOk ok
      cases ok
      obtain ⟨quiet, ends⟩ := ih filled
      rw [liveCount, if_neg still, quiet, after, ends]
      exact ⟨rfl, rfl⟩

theorem fillNothing {r : Region} {sql : Text} (quiet : liveCount r sql = 0) : fill render r sql [] = .ok sql := by
  induction sql generalizing r with
  | nil => rfl
  | cons c rest ih =>
    rw [liveCount] at quiet
    have still : ¬ r.isLive c := by
      intro live
      rw [if_pos live] at quiet
      omega
    rw [if_neg still, Nat.zero_add] at quiet
    rw [fill, if_neg still, ih quiet]
    rfl

end

theorem shownValuesAreInert (d e : Dialect) :
    (∀ v : Value, (v.literal d e.quoteLiteral).Inert) ∧
    ∀ (sql out : Text) (args : List Arg), interpolate d e.quoteLiteral sql args = .ok out →
      liveCount .outside out = 0 ∧ after .outside out = after .outside sql ∧
      interpolate d e.quoteLiteral out [] = .ok out := by
  refine ⟨fun v => v.literalInert d e.quoteLiteralInert, ?_⟩
  intro sql out args ok
  obtain ⟨quiet, ends⟩ := fillInert (Arg.literalInert e.quoteLiteralInert) ok
  exact ⟨quiet, ends, fillNothing quiet⟩

theorem shownQuotesAreInert :
    let sql : Text := "a = ? AND b IN (?,?) AND \x60c?\x60 = ? AND d < ? AND e = '? \\"
    let marks : Text := "it's ''\x22?\x22 \x60?\x60 ?\\"
    let moment : Timestamp := ⟨-44, 3, 15, 12, 0, 0, 500000000, -3600⟩
    let args : List Arg := [.value (.text marks), .lazy (.ok (.text "\x00\n?'")), .value (.bytes [0x27, 0x3F, 0x5C]),
      .value (.float ⟨0xbfb999999999999a⟩), .value (.moment moment)]
    let strings : Text := "a = N'it''s ''''\\\x22?\\\x22 \x60?\x60 ?\\\\' AND b IN (N'\\0\\n?''',E'\\\\x273F5C'::bytea)"
    let rest : Text := " AND \x60c?\x60 = -0.1 AND d < '-0044-03-15 12:00:00.500000' AND e = '? \\"
    interpolate .postgresql Dialect.sqlserver.quoteLiteral sql args = .ok (strings ++ rest) ∧
      interpolate .postgresql Dialect.sqlserver.quoteLiteral (strings ++ rest) [] = .ok (strings ++ rest) := by
  intro sql marks moment args strings rest
  have shown : interpolate .postgresql Dialect.sqlserver.quoteLiteral sql args = .ok (strings ++ rest) := by
    decide +kernel
  exact ⟨shown, ((shownValuesAreInert .postgresql .sqlserver).2 sql _ args shown).2.2⟩

end SelectBuilder
