import SelectBuilder.Proofs.Alignment
import SelectBuilder.Proofs.Filling

/-! Statements of dialects that write a quote inside quotes twice and have no other escape, so that a backslash is a
character like any other. A scan reads a backslash in a string as one that protects the next character, in all dialects
alike. Both readings find the same placeholders as long as no quote of a string stands behind such a backslash; a
string that ends in a backslash is read on, and what follows it is taken for its text. -/
namespace SelectBuilder
open Region (isMark pieces)

inductive Doubling (mark : Char) : Text → Prop
  | nothing : Doubling mark []
  | char {c : Char} {body : Text} (other : c ≠ mark) (later : Doubling mark body) : Doubling mark (c :: body)
  | twice {body : Text} (later : Doubling mark body) : Doubling mark (mark :: mark :: body)

/-- A statement and its pieces between placeholders. A mark closes a region unless it is written twice. -/
inductive DoubledCut : Text → List Text → Prop
  | nothing : DoubledCut [] [[]]
  | hole {sql : Text} {pieces : List Text} (later : DoubledCut sql pieces) : DoubledCut ('?' :: sql) ([] :: pieces)
  | char {c : Char} {sql piece : Text} {rest : List Text} (unquoted : isMark c = false) (other : c ≠ '?')
      (later : DoubledCut sql (piece :: rest)) : DoubledCut (c :: sql) ((c :: piece) :: rest)
  | region {mark : Char} {body sql piece : Text} {rest : List Text} (opens : isMark mark)
      (inside : Doubling mark body) (single : sql.head? ≠ some mark) (later : DoubledCut sql (piece :: rest)) :
      DoubledCut (mark :: body ++ mark :: sql) ((mark :: body ++ mark :: piece) :: rest)
  | unclosed {mark : Char} {body : Text} (opens : isMark mark) (inside : Doubling mark body) :
      DoubledCut (mark :: body) [mark :: body]

/-! The pieces as a scan finds them: a mark written twice closes its region and opens it again. -/

def doubledNext : Option Char → Char → Option Char
  | none, c => if isMark c then some c else none
  | some mark, c => if c = mark then none else some mark

def doubledPieces : Option Char → Text → List Text
  | _, [] => [[]]
  | mark, c :: rest =>
    if mark = none ∧ c = '?' then [] :: doubledPieces none rest
    else Text.glue c (doubledPieces (doubledNext mark c) rest)

theorem insideDoubled {mark c : Char} (sql : Text) :
    doubledPieces (some mark) (c :: sql) = Text.glue c (doubledPieces (doubledNext (some mark) c) sql) := by
  rw [doubledPieces, if_neg (by simp)]

theorem openDoubled {mark : Char} (opens : isMark mark) (sql : Text) :
    doubledPieces none (mark :: sql) = Text.glue mark (doubledPieces (some mark) sql) := by
  have other : mark ≠ '?' := by
    rintro rfl
    contradiction
  rw [doubledPieces, if_neg (fun hole => other hole.2), doubledNext, if_pos opens]

theorem doublingStays {mark : Char} (opens : isMark mark) {body : Text} (inside : Doubling mark body) (sql : Text) :
    doubledPieces (some mark) (body ++ sql) = body.foldr Text.glue (doubledPieces (some mark) sql) := by
  induction inside with
  | nothing => rfl
  | char other _ ih => rw [List.cons_append, insideDoubled, doubledNext, if_neg other, ih, List.foldr_cons]
  | @twice body _ ih =>
    rw [List.cons_append, List.cons_append, insideDoubled, doubledNext, if_pos rfl, openDoubled opens, ih,
      List.foldr_cons, List.foldr_cons]

theorem doubledScan {sql : Text} {found : List Text} (cut : DoubledCut sql found) : doubledPieces none sql = found := by
  induction cut with
  | nothing => rfl
  | hole _ ih => rw [doubledPieces, if_pos ⟨rfl, rfl⟩, ih]
  | char unquoted other _ ih =>
    rw [doubledPieces, if_neg (fun hole => other hole.2), doubledNext, unquoted, if_neg (by simp), ih, Text.glue]
  | @region mark body sql piece rest opens inside single _ ih =>
    rw [List.cons_append, openDoubled opens, doublingStays opens inside, insideDoubled, doubledNext, if_pos rfl, ih,
      Text.glue, Text.glueAll, Text.glue]
    simp
  | @unclosed mark body opens inside =>
    have whole := doublingStays opens inside []
    rw [List.append_nil, doubledPieces, Text.glueAll, List.append_nil] at whole
    rw [openDoubled opens, whole, Text.glue]

inductive DoubledRest (mark : Char) : Text → Prop
  | closed {body sql piece : Text} {rest : List Text} (inside : Doubling mark body) (single : sql.head? ≠ some mark)
      (later : DoubledCut sql (piece :: rest)) : DoubledRest mark (body ++ mark :: sql)
  | unclosed {body : Text} (inside : Doubling mark body) : DoubledRest mark body

theorem doubledRestBehind {mark : Char} (front : Text) {sql : Text}
    (longer : ∀ {body : Text}, Doubling mark body → Doubling mark (front ++ body)) (remains : DoubledRest mark sql) :
    DoubledRest mark (front ++ sql) := by
  cases remains with
  | closed inside single later =>
    rw [← List.append_assoc]
    exact .closed (longer inside) single later
  | unclosed inside => exact .unclosed (longer inside)

theorem doubledRegion {mark : Char} {sql : Text} (opens : isMark mark) (remains : DoubledRest mark sql) :
    ∃ piece rest, DoubledCut (mark :: sql) (piece :: rest) := by
  cases remains with
  | closed inside single later => exact ⟨_, _, .region opens inside single later⟩
  | unclosed inside => exact ⟨_, _, .unclosed opens inside⟩

theorem doubledOrRest (sql : Text) :
    (∃ piece rest, DoubledCut sql (piece :: rest)) ∧ (∀ mark, DoubledRest mark sql) ∧
      ∀ mark, DoubledRest mark (mark :: sql) := by
  induction sql with
  | nil =>
    have blank : DoubledCut [] [[]] := .nothing
    exact ⟨⟨_, _, blank⟩, fun mark => .unclosed .nothing, fun mark => .closed .nothing (by simp) blank⟩
  | cons c sql ih =>
    obtain ⟨⟨piece, rest, later⟩, remains, marked⟩ := ih
    have cut : ∃ piece rest, DoubledCut (c :: sql) (piece :: rest) := by
      cases opens : isMark c with
      | true => exact doubledRegion opens (remains c)
      | false =>
        rcases Decidable.em (c = '?') with rfl | other
        · exact ⟨_, _, .hole later⟩
        · exact ⟨_, _, .char opens other later⟩
    refine ⟨cut, ?_, ?_⟩
    · intro mark
      rcases Decidable.em (c = mark) with rfl | other
      · exact marked c
      · exact doubledRestBehind [c] (.char other) (remains mark)
    · intro mark
      rcases Decidable.em (c = mark) with rfl | other
      · exact doubledRestBehind [c, c] .twice (remains c)
      · obtain ⟨piece, rest, found⟩ := cut
        exact .closed .nothing (by simpa using other) found

theorem doubledFound (sql : Text) : DoubledCut sql (doubledPieces none sql) := by
  obtain ⟨⟨piece, rest, cut⟩, _⟩ := doubledOrRest sql
  rw [doubledScan cut]
  exact cut

/-! The two readings compared. -/

namespace Region

/-- No quote stands where a backslash of a string protects it. -/
def Calm (r : Region) (text : Text) : Prop := ∀ front back, text = front ++ '\x27' :: back → r.after front ≠ .escaped

def isCalm : Region → Text → Bool
  | _, [] => true
  | r, c :: rest => !(r = .escaped && c = '\x27') && isCalm (r.next c) rest

theorem calmCons {r : Region} {c : Char} {rest : Text} :
    r.Calm (c :: rest) ↔ ¬ (r = .escaped ∧ c = '\x27') ∧ (r.next c).Calm rest := by
  constructor
  · intro calm
    refine ⟨?_, ?_⟩
    · rintro ⟨escaped, rfl⟩
      exact calm [] rest rfl escaped
    · rintro front back rfl
      exact calm (c :: front) back rfl
  · rintro ⟨first, later⟩ front back same
    cases front with
    | nil =>
      cases same
      exact fun escaped => first ⟨escaped, rfl⟩
    | cons d front =>
      cases same
      exact later front back rfl

theorem calmIs (r : Region) (text : Text) : r.Calm text ↔ isCalm r text := by
  induction text generalizing r with
  | nil => simp [Calm, isCalm]
  | cons c rest ih => rw [calmCons, ih, isCalm, Bool.and_eq_true, Bool.not_eq_true', ← Bool.not_eq_true,
      Bool.and_eq_true, decide_eq_true_eq, decide_eq_true_eq]

instance (r : Region) (text : Text) : Decidable (r.Calm text) := decidable_of_iff _ (calmIs r text).symm

def awaits : Region → Option Char
  | .outside => none
  | .quoted mark => some mark
  | .escaped => some '\x27'

theorem awaitsNext {r : Region} {c : Char} (calm : ¬ (r = .escaped ∧ c = '\x27')) :
    (r.next c).awaits = doubledNext r.awaits c := by
  cases r with
  | outside =>
    rw [next, awaits, doubledNext]
    split <;> rfl
  | quoted mark =>
    rw [next, awaits, doubledNext]
    split
    · rename_i escape
      obtain ⟨rfl, rfl⟩ := escape
      rfl
    · split <;> rfl
  | escaped =>
    have other : c ≠ '\x27' := fun same => calm ⟨rfl, same⟩
    rw [awaits, doubledNext, if_neg other]
    rfl

theorem calmPieces {r : Region} {text : Text} (calm : r.Calm text) : doubledPieces r.awaits text = pieces r text := by
  induction text generalizing r with
  | nil => rfl
  | cons c rest ih =>
    obtain ⟨first, later⟩ := calmCons.mp calm
    have live : r.isLive c ↔ r.awaits = none ∧ c = '?' := by
      cases r <;> simp [isLive, awaits]
    have found := ih later
    rw [awaitsNext first] at found
    rw [doubledPieces, pieces]
    by_cases hole : r.isLive c
    · rw [nextOfLive hole] at later
      rw [if_pos hole, if_pos (live.mp hole), ← ih later]
      rfl
    · rw [if_neg hole, if_neg (mt live.mpr hole), found]

end Region

theorem calmCut {sql : Text} (calm : (Region.outside).Calm sql) {found : List Text} (cut : DoubledCut sql found) :
    pieces .outside sql = found := by
  rw [← Region.calmPieces calm]
  exact doubledScan cut

theorem calmStatementIsFilledByDoubledPieces :
    (∀ (d : Dialect) (quote : Text → Text) (sql : Text), (Region.outside).Calm sql →
      ∃ found, DoubledCut sql found ∧ (∀ others, DoubledCut sql others → others = found) ∧
        ∀ args answer, Filled d quote found args answer ↔ interpolate d quote sql args = answer) ∧
    ∀ (q : Query) (piece : Text) (rest : List Text), (Region.outside).Calm q.compile →
      DoubledCut q.compile (piece :: rest) → rest.length = q.allBindings.length →
      q.debugText ≠ .error .missingArgument ∧ q.debugText ≠ .error .surplusArgument ∧
        ∀ values, Arg.AllGive q.allBindings values →
          q.debugText = .ok (Text.interleaved piece rest (values.map (Value.literal q.dialect q.literalRule))) := by
  refine ⟨?_, ?_⟩
  · intro d quote sql calm
    have cut := doubledFound sql
    have same := calmCut calm cut
    refine ⟨_, cut, fun others other => (doubledScan other).symm, ?_⟩
    intro args answer
    rw [← same]
    refine ⟨interpolateIs, ?_⟩
    rintro rfl
    exact interpolateFilled d quote sql args
  · intro q piece rest calm cut count
    have same := calmCut calm cut
    have places := Region.piecesCount .outside q.compile
    rw [same, List.length_cons, count] at places
    obtain ⟨missing, surplus⟩ := debugNeverShort (Nat.succ.inj places).symm
    refine ⟨missing, surplus, ?_⟩
    intro values given
    have filled : Filled q.dialect q.literalRule (piece :: rest) q.allBindings
        (.ok (Text.interleaved piece rest (values.map (Value.literal q.dialect q.literalRule)))) := .shown given count
    rw [← same] at filled
    exact interpolateIs filled

theorem calmStatementIsFilled :
    let front : Text := "path = 'C:\\it''s ?' AND \x22b?\\\x22 = "
    let rest : List Text := [" AND c LIKE ", " ESCAPE '!'"]
    let sql : Text := Text.joined "?" (front :: rest)
    let args : List Arg := [.value (.text "x\\"), .lazy (.ok (.int 2))]
    let q : Query := (Query.blank .sqlite).selectRaw sql args
    let quote := Dialect.sqlserver.quoteLiteral
    (Region.outside).Calm sql ∧ DoubledCut sql (front :: rest) ∧
      interpolate .sqlserver quote sql args = .ok (front ++ "N'x\\\\' AND c LIKE 2 ESCAPE '!'") ∧
      (Region.outside).Calm q.compile ∧ DoubledCut q.compile (("SELECT " ++ front) :: rest) ∧
      rest.length = q.allBindings.length ∧
      q.debugText = .ok ("SELECT " ++ front ++ "'x\\\\' AND c LIKE 2 ESCAPE '!'") := by
  intro front rest sql args q quote
  have calm : (Region.outside).Calm sql := by decide +kernel
  have calm' : (Region.outside).Calm q.compile := by decide +kernel
  have cutAs {text : Text} {found : List Text} (same : doubledPieces none text = found) : DoubledCut text found := by
    rw [← same]
    exact doubledFound text
  have cut : DoubledCut sql (front :: rest) := cutAs (by decide +kernel)
  have cut' : DoubledCut q.compile (("SELECT " ++ front) :: rest) := cutAs (by decide +kernel)
  have given : Arg.AllGive args [.text "x\\", .int 2] := .cons (.value _) (.cons (.computed _) .nil)
  obtain ⟨found, _, unique, filled⟩ := calmStatementIsFilledByDoubledPieces.1 .sqlserver quote sql calm
  cases unique _ cut
  have shown : interpolate .sqlserver quote sql args = .ok (front ++ "N'x\\\\' AND c LIKE 2 ESCAPE '!'") :=
    (filled args _).mp (.shown given rfl)
  have shown' := (calmStatementIsFilledByDoubledPieces.2 q _ rest calm' cut' rfl).2.2 _ given
  exact ⟨calm, cut, shown, calm', cut', rfl, shown'⟩

/-- A string that is one backslash is not closed by its quote, and the placeholder behind it is taken for its text. -/
theorem backslashKeepsStringOpen :
    let sql : Text := "a LIKE ? ESCAPE '\\' AND b = ?"
    let args : List Arg := [.value (.text "x"), .value (.text "y")]
    let found : List Text := ["a LIKE ", " ESCAPE '\\' AND b = ", ""]
    let quote := Dialect.sqlite.quoteLiteral
    DoubledCut sql found ∧ Filled .sqlite quote found args (.ok "a LIKE 'x' ESCAPE '\\' AND b = 'y'") ∧
      interpolate .sqlite quote sql args = .error .surplusArgument ∧
      ((Query.blank .sqlserver).testRaw .filter sql args .and).debugText = .error .surplusArgument := by
  intro sql args found quote
  have cut : DoubledCut sql found := by
    have same : doubledPieces none sql = found := by decide +kernel
    rw [← same]
    exact doubledFound sql
  have given : Arg.AllGive args [.text "x", .text "y"] := .cons (.value _) (.cons (.value _) .nil)
  have filled : Filled .sqlite quote found args (.ok "a LIKE 'x' ESCAPE '\\' AND b = 'y'") := .shown given rfl
  have refused : interpolate .sqlite quote sql args = .error .surplusArgument := by decide +kernel
  exact ⟨cut, filled, refused, by decide +kernel⟩

end SelectBuilder
