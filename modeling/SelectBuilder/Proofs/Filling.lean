import Mathlib.Data.List.Forall2
import SelectBuilder.Proofs.Cutting
import SelectBuilder.Query.Statement

/-! A statement with its placeholders filled, told by its pieces. The answer has a literal between any two pieces, one
for each argument, and nothing else of the statement is changed. Otherwise the first place from left to right that can
not be filled is the fault; arguments left over are one only when every place was filled. Two statements in a row, the
first of which ends outside quotes, are filled one after the other. -/
namespace SelectBuilder
open Region (pieces)

/-! What an argument comes to when a statement is used: a value, or a reason why there is none. Which of the two
it is depends on the argument alone. In a row of arguments either all give values, or there is a first one that
does not. -/

namespace Arg

inductive Gives : Arg → Value → Prop
  | value (v : Value) : Gives (.value v) v
  | computed (v : Value) : Gives (.lazy (.ok v)) v

inductive Refuses : Arg → Fault → Prop
  | failing (message : Text) : Refuses (.lazy (.error message)) (.evaluation message)
  | raw (sql : Text) : Refuses (.raw sql) .unsupportedArgument
  | list (items : List Arg) : Refuses (.list items) .unsupportedArgument

theorem givesOrRefuses (arg : Arg) : (∃ v, arg.Gives v) ∨ ∃ fault, arg.Refuses fault := by
  rcases arg with v | (message | v) | sql | items
  · exact .inl ⟨v, .value v⟩
  · exact .inr ⟨_, .failing message⟩
  · exact .inl ⟨v, .computed v⟩
  · exact .inr ⟨_, .raw sql⟩
  · exact .inr ⟨_, .list items⟩

theorem literalGives {arg : Arg} {v : Value} (gives : arg.Gives v) (d : Dialect) (quote : Text → Text) :
    arg.literal d quote = .ok (v.literal d quote) := by
  cases gives <;> rfl

theorem literalRefuses {arg : Arg} {fault : Fault} (refuses : arg.Refuses fault) (d : Dialect) (quote : Text → Text) :
    arg.literal d quote = .error fault := by
  cases refuses <;> rfl

/-! Rows of arguments. -/

abbrev AllGive (args : List Arg) (values : List Value) : Prop := List.Forall₂ Gives args values

inductive FailsFirst : List Arg → Text → Prop
  | after {done later : List Arg} {values : List Value} {message : Text} (given : AllGive done values) :
      FailsFirst (done ++ .lazy (.error message) :: later) message

theorem failsFirstLater {arg : Arg} {v : Value} (gives : arg.Gives v) {rest : List Arg} {message : Text}
    (first : FailsFirst rest message) : FailsFirst (arg :: rest) message := by
  cases first with
  | @after done later values message given =>
    have behind : FailsFirst (arg :: done ++ .lazy (.error message) :: later) message := .after (.cons gives given)
    exact behind

theorem failsFirstMember {args : List Arg} {message : Text} (first : FailsFirst args message) :
    .lazy (.error message) ∈ args := by
  cases first with
  | after given => exact List.mem_append_right _ (List.mem_cons_self ..)

end Arg

namespace Bindings

theorem evaluateGiven {args : List Arg} {values : List Value} (given : Arg.AllGive args values) :
    evaluate args = .ok values := by
  induction given with
  | nil => rfl
  | cons gives _ ih => cases gives <;> simp only [evaluate, ih, okBind]

theorem evaluateFails {args : List Arg} {message : Text} (first : Arg.FailsFirst args message) :
    evaluate args = .error (.evaluation message) := by
  cases first with
  | after given =>
    induction given with
    | nil => rfl
    | cons gives _ ih => cases gives <;> simp only [List.cons_append, evaluate, ih, errorBind]

end Bindings

/-! Pieces with literals between them. -/

namespace Text

def interleaved : Text → List Text → List Text → Text
  | piece, next :: rest, literal :: more => piece ++ literal ++ interleaved next rest more
  | piece, _, _ => piece

end Text

/-- Why filling goes no further: what is left of the pieces and of the arguments. -/
inductive Stuck : List Text → List Arg → Fault → Prop
  | refused {piece next : Text} {rest : List Text} {arg : Arg} {later : List Arg} {fault : Fault}
      (refuses : arg.Refuses fault) : Stuck (piece :: next :: rest) (arg :: later) fault
  | missing {piece next : Text} {rest : List Text} : Stuck (piece :: next :: rest) [] .missingArgument
  | surplus {piece : Text} {arg : Arg} {later : List Arg} : Stuck [piece] (arg :: later) .surplusArgument

inductive Filled (d : Dialect) (quote : Text → Text) : List Text → List Arg → Except Fault Text → Prop
  | shown {piece : Text} {rest : List Text} {args : List Arg} {values : List Value} (given : Arg.AllGive args values)
      (count : rest.length = args.length) :
      Filled d quote (piece :: rest) args (.ok (Text.interleaved piece rest (values.map (Value.literal d quote))))
  | refused {front found : List Text} {done later : List Arg} {values : List Value} {fault : Fault}
      (given : Arg.AllGive done values) (reached : front.length = done.length) (stuck : Stuck found later fault) :
      Filled d quote (front ++ found) (done ++ later) (.error fault)

/-! Filling piece by piece. -/

def refill (render : Arg → Except Fault Text) : List Text → List Arg → Except Fault Text
  | [], _ => .ok []
  | [piece], [] => .ok piece
  | [_], _ :: _ => .error .surplusArgument
  | _ :: _ :: _, [] => .error .missingArgument
  | piece :: next :: rest, arg :: later => do
    let shown ← render arg
    let tail ← refill render (next :: rest) later
    .ok (piece ++ shown ++ tail)

section
variable (render : Arg → Except Fault Text)

theorem refillGlue (c : Char) (piece : Text) (rest : List Text) (args : List Arg) :
    refill render (Text.glue c (piece :: rest)) args =
      refill render (piece :: rest) args >>= fun tail => .ok (c :: tail) := by
  cases rest with
  | nil => cases args <;> rfl
  | cons next rest =>
    cases args with
    | nil => rfl
    | cons arg later =>
      simp only [Text.glue, refill]
      cases render arg with
      | error fault => rfl
      | ok shown => cases refill render (next :: rest) later <;> rfl

theorem fillPieces (r : Region) (sql : Text) (args : List Arg) :
    fill render r sql args = refill render (pieces r sql) args := by
  induction sql generalizing r args with
  | nil => cases args <;> rfl
  | cons c rest ih =>
    unfold fill pieces
    split
    · obtain ⟨piece, more, found⟩ := Region.piecesSome .outside rest
      rw [found]
      cases args with
      | nil => rfl
      | cons arg later => simp only [refill, ih, found, List.nil_append]
    · obtain ⟨piece, more, found⟩ := Region.piecesSome (r.next c) rest
      rw [ih, found, refillGlue]

theorem fillAppend {r : Region} {a : Text} {as : List Arg} (count : r.liveCount a = as.length) (b : Text)
    (bs : List Arg) :
    fill render r (a ++ b) (as ++ bs) = (do
      let front ← fill render r a as
      let back ← fill render (r.after a) b bs
      .ok (front ++ back)) := by
  induction a generalizing r as with
  | nil =>
    cases List.length_eq_zero_iff.mp count.symm
    simp only [List.nil_append, fill, okBind, Region.after]
    cases fill render r b bs <;> rfl
  | cons c rest ih =>
    rw [Region.liveCount] at count
    simp only [List.cons_append, fill, Region.after]
    split
    · rename_i live
      rw [if_pos live, Region.nextOfLive live] at count
      rw [Region.nextOfLive live]
      cases as with
      | nil => simp at count
      | cons arg later =>
        rw [List.length_cons] at count
        simp only [List.cons_append]
        cases render arg with
        | error fault => rfl
        | ok shown =>
          simp only [okBind]
          rw [ih (by omega)]
          cases fill render .outside rest later with
          | error fault => rfl
          | ok front => cases fill render (Region.outside.after rest) b bs <;> simp
    · rename_i still
      rw [if_neg still, Nat.zero_add] at count
      rw [ih count]
      cases fill render (r.next c) rest as with
      | error fault => rfl
      | ok front => cases fill render ((r.next c).after rest) b bs <;> rfl

end

section
variable {d : Dialect} {quote : Text → Text}

theorem refillGives {arg : Arg} {v : Value} (gives : arg.Gives v) (piece next : Text) (rest : List Text)
    (later : List Arg) :
    refill (Arg.literal d quote) (piece :: next :: rest) (arg :: later) = (do
      let tail ← refill (Arg.literal d quote) (next :: rest) later
      .ok (piece ++ v.literal d quote ++ tail)) := by
  simp only [refill, Arg.literalGives gives, okBind]

theorem refillStuck {found : List Text} {args : List Arg} {fault : Fault} (stuck : Stuck found args fault) :
    refill (Arg.literal d quote) found args = .error fault := by
  cases stuck with
  | refused refuses => simp only [refill, Arg.literalRefuses refuses, errorBind]
  | missing => rfl
  | surplus => rfl

theorem refillShown {args : List Arg} {values : List Value} (given : Arg.AllGive args values) {piece : Text}
    {rest : List Text} (count : rest.length = args.length) :
    refill (Arg.literal d quote) (piece :: rest) args =
      .ok (Text.interleaved piece rest (values.map (Value.literal d quote))) := by
  induction given generalizing piece rest with
  | nil =>
    cases List.length_eq_zero_iff.mp count
    rfl
  | cons gives _ ih =>
    cases rest with
    | nil => simp at count
    | cons next rest =>
      rw [refillGives gives, ih (Nat.succ.inj count)]
      rfl

theorem refillRefused {done : List Arg} {values : List Value} (given : Arg.AllGive done values)
    {front found : List Text} (reached : front.length = done.length) {later : List Arg} {fault : Fault}
    (stuck : Stuck found later fault) :
    refill (Arg.literal d quote) (front ++ found) (done ++ later) = .error fault := by
  induction given generalizing front with
  | nil =>
    cases List.length_eq_zero_iff.mp reached
    exact refillStuck stuck
  | cons gives _ ih =>
    cases front with
    | nil => simp at reached
    | cons piece front =>
      obtain ⟨next, rest, more⟩ : ∃ next rest, front ++ found = next :: rest := by
        apply List.exists_cons_of_ne_nil
        cases stuck <;> simp
      have inner := ih (Nat.succ.inj reached)
      rw [more] at inner
      rw [List.cons_append, List.cons_append, more, refillGives gives, inner, errorBind]

theorem filledIs {found : List Text} {args : List Arg} {answer : Except Fault Text}
    (filled : Filled d quote found args answer) : refill (Arg.literal d quote) found args = answer := by
  cases filled with
  | shown given count => exact refillShown given count
  | refused given reached stuck => exact refillRefused given reached stuck

theorem filledSome (piece : Text) (rest : List Text) (args : List Arg) :
    ∃ answer, Filled d quote (piece :: rest) args answer := by
  have stop {found : List Text} {args : List Arg} {fault : Fault} (stuck : Stuck found args fault) :
      Filled d quote found args (.error fault) := by
    have refused : Filled d quote ([] ++ found) ([] ++ args) (.error fault) := .refused .nil rfl stuck
    exact refused
  induction args generalizing piece rest with
  | nil =>
    cases rest with
    | nil => exact ⟨_, .shown .nil rfl⟩
    | cons next rest => exact ⟨_, stop .missing⟩
  | cons arg later ih =>
    cases rest with
    | nil => exact ⟨_, stop .surplus⟩
    | cons next rest =>
      rcases arg.givesOrRefuses with ⟨v, gives⟩ | ⟨fault, refuses⟩
      · obtain ⟨answer, filled⟩ := ih next rest
        generalize same : next :: rest = found at filled
        cases filled with
        | shown given count =>
          cases same
          exact ⟨_, .shown (.cons gives given) (congrArg Nat.succ count)⟩
        | @refused front found done later values fault given reached stuck =>
          have refused : Filled d quote (piece :: front ++ found) (arg :: done ++ later) (.error fault) :=
            .refused (.cons gives given) (congrArg Nat.succ reached) stuck
          exact ⟨_, refused⟩
      · exact ⟨_, stop (.refused refuses)⟩

end

theorem interpolateFilled (d : Dialect) (quote : Text → Text) (sql : Text) (args : List Arg) :
    Filled d quote (pieces .outside sql) args (interpolate d quote sql args) := by
  obtain ⟨piece, rest, found⟩ := Region.piecesSome .outside sql
  obtain ⟨answer, filled⟩ : ∃ answer, Filled d quote (piece :: rest) args answer := filledSome piece rest args
  rw [interpolate, fillPieces, found, filledIs filled]
  exact filled

theorem interpolateIs {d : Dialect} {quote : Text → Text} {sql : Text} {args : List Arg} {answer : Except Fault Text}
    (filled : Filled d quote (pieces .outside sql) args answer) : interpolate d quote sql args = answer := by
  rw [interpolate, fillPieces, filledIs filled]

theorem statementIsFilledByPieces (d : Dialect) (quote : Text → Text) :
    (∀ (sql : Text) (args : List Arg), ∃ found ends, Cut sql found ends ∧
      (∀ others last, Cut sql others last → others = found ∧ last = ends) ∧
      Text.joined "?" found = sql ∧
      ∀ answer, Filled d quote found args answer ↔ interpolate d quote sql args = answer) ∧
    ∀ (a b : Text) (found : List Text) (as bs : List Arg), Cut a found .outside → found.length = as.length + 1 →
      interpolate d quote (a ++ b) (as ++ bs) = (do
        let front ← interpolate d quote a as
        let back ← interpolate d quote b bs
        .ok (front ++ back)) := by
  refine ⟨?_, ?_⟩
  · intro sql args
    have cut := cutFound sql
    refine ⟨_, _, cut, fun others last other => cutUnique other cut, Region.piecesJoined _ sql, ?_⟩
    intro answer
    refine ⟨interpolateIs, ?_⟩
    rintro rfl
    exact interpolateFilled d quote sql args
  · intro a b found as bs cut count
    obtain ⟨rfl, outside⟩ := cutScan cut
    rw [Region.piecesCount] at count
    have split := fillAppend (Arg.literal d quote) (Nat.succ.inj count) b bs
    rwa [outside] at split

theorem statementIsFilledAcrossRegions :
    let first : Text := "a = '?\\'\x60?' AND b = ? AND c = "
    let second : Text := "\x60?\\\x60 OR d = ? OR e = '?"
    let as : List Arg := [.value (.text "x'?")]
    let bs : List Arg := [.lazy (.error "down"), .value .null]
    Cut first (pieces .outside first) .outside ∧ (pieces .outside first).length = as.length + 1 ∧
      interpolate .mysql Dialect.mysql.quoteLiteral (first ++ second) (as ++ bs) = (do
        let front ← interpolate .mysql Dialect.mysql.quoteLiteral first as
        let back ← interpolate .mysql Dialect.mysql.quoteLiteral second bs
        .ok (front ++ back)) := by
  intro first second as bs
  have cut : Cut first (pieces .outside first) .outside := cutFound first
  have count : (pieces .outside first).length = as.length + 1 := by decide
  exact ⟨cut, count, (statementIsFilledByPieces .mysql _).2 first second _ as bs cut count⟩

end SelectBuilder
