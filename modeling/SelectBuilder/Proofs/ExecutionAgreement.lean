import SelectBuilder.Proofs.Filling
import SelectBuilder.Proofs.Reachable

/-! Running a statement and showing it tell the same. Both take the bindings in their canonical order. If one of them
can not be computed, the first such one is the fault of both, and the backend is not called; otherwise the backend is
given what the bindings come to, and the statement shown is the one prepared with the literals of these values in it.
What the backend answers is handed on as it is, and the query stays as it was. -/
namespace SelectBuilder
open Region (pieces liveCount)

/-- What is exchanged with a backend over one statement, and the answer to the caller. -/
inductive Backend.Runs (b : Backend) (sql : Text) (params : List Value) : List Exchange → Except Fault Nat → Prop
  | refused {message : Text} (answer : b.prepare sql = .error message) :
      Runs b sql params [.refused sql message] (.error (.backend message))
  | failed {statement : Statement} {message : Text} (prepared : b.prepare sql = .ok statement)
      (answer : statement params = .error message) :
      Runs b sql params [.prepared sql, .failed params message] (.error (.backend message))
  | ran {statement : Statement} {affected : Nat} (prepared : b.prepare sql = .ok statement)
      (answer : statement params = .ok affected) :
      Runs b sql params [.prepared sql, .ran params affected] (.ok affected)

namespace Query
variable {q : Query} {b : Backend} (backed : q.backend = some b)
include backed

theorem executeFails {message : Text} (first : Arg.FailsFirst q.allBindings message) :
    q.execute = ⟨[], [], .error (.evaluation message)⟩ := by
  have resolved : q.bindings.resolve = .error (.evaluation message) := Bindings.evaluateFails first
  simp only [execute, backed, resolved]

theorem executeRuns {params : List Value} (given : Arg.AllGive q.allBindings params) :
    b.Runs q.compile params q.execute.exchanges q.execute.result := by
  have resolved : q.bindings.resolve = .ok params := Bindings.evaluateGiven given
  simp only [execute, backed, resolved, Backend.run]
  cases prepared : b.prepare q.compile with
  | error message => exact .refused prepared
  | ok statement =>
    simp only
    cases answer : statement params with
    | error message => exact .failed prepared answer
    | ok affected => exact .ran prepared answer

theorem debugTextBacked : q.debugText = interpolate q.dialect b.quoteLiteral q.compile q.allBindings := by
  simp only [debugText, literalRule, backed]

end Query

theorem fillSame {render : Arg → Except Fault Text} {as bs : List Arg}
    (same : List.Forall₂ (fun a b => render a = render b) as bs) (r : Region) (sql : Text) :
    fill render r sql as = fill render r sql bs := by
  induction sql generalizing r as bs with
  | nil => cases same <;> rfl
  | cons c rest ih =>
    unfold fill
    split
    · cases same with
      | nil => rfl
      | cons one later => simp only [one, ih later]
    · simp only [ih same]

section
variable {d : Dialect} {quote : Text → Text} {sql : Text} {args : List Arg}

theorem interpolateValues {values : List Value} (given : Arg.AllGive args values) :
    interpolate d quote sql args = interpolate d quote sql (values.map .value) := by
  apply fillSame
  induction given with
  | nil => exact .nil
  | cons gives _ ih => exact .cons (Arg.literalGives gives d quote) ih

variable (count : liveCount .outside sql = args.length)
include count

theorem interpolateShown {values : List Value} (given : Arg.AllGive args values) :
    ∃ text, interpolate d quote sql args = .ok text := by
  obtain ⟨piece, rest, found⟩ := Region.piecesSome .outside sql
  have places := Region.piecesCount .outside sql
  rw [found, count] at places
  have filled : Filled d quote (piece :: rest) args
      (.ok (Text.interleaved piece rest (values.map (Value.literal d quote)))) := .shown given (Nat.succ.inj places)
  rw [← found] at filled
  exact ⟨_, interpolateIs filled⟩

theorem interpolateFails {message : Text} (first : Arg.FailsFirst args message) :
    interpolate d quote sql args = .error (.evaluation message) := by
  cases first with
  | @after done later values message given =>
    have places := Region.piecesCount .outside sql
    rw [count, List.length_append, List.length_cons] at places
    -- The argument that fails stands before a placeholder, so two pieces at least are left there.
    obtain ⟨piece, next, rest, left⟩ :
        ∃ piece next rest, (pieces .outside sql).drop done.length = piece :: next :: rest := by
      have two : 2 ≤ ((pieces .outside sql).drop done.length).length := by
        rw [List.length_drop, places]
        omega
      match (pieces .outside sql).drop done.length, two with
      | piece :: next :: rest, _ => exact ⟨piece, next, rest, rfl⟩
    have reached : ((pieces .outside sql).take done.length).length = done.length := by
      rw [List.length_take, places]
      omega
    apply interpolateIs
    rw [← List.take_append_drop done.length (pieces .outside sql), left]
    exact .refused given reached (.refused (.failing message))

end

theorem leavesGiveOrFail {args : List Arg} (leaves : Arg.AllLeaves args) :
    (∃ message, Arg.FailsFirst args message) ∨
      (∃ values, Arg.AllGive args values) ∧ ∀ message, Arg.lazy (.error message) ∉ args := by
  induction args with
  | nil => exact .inr ⟨⟨[], .nil⟩, by simp⟩
  | cons arg rest ih =>
    obtain ⟨leaf, later⟩ := List.forall_mem_cons.mp leaves
    have further {v : Value} (gives : arg.Gives v) : (∃ message, Arg.FailsFirst (arg :: rest) message) ∨
        (∃ values, Arg.AllGive (arg :: rest) values) ∧ ∀ message, Arg.lazy (.error message) ∉ arg :: rest := by
      rcases ih later with ⟨message, first⟩ | ⟨⟨values, given⟩, sound⟩
      · exact .inl ⟨message, Arg.failsFirstLater gives first⟩
      · refine .inr ⟨⟨v :: values, .cons gives given⟩, ?_⟩
        intro message member
        rcases List.mem_cons.mp member with rfl | inside
        · cases gives
        · exact sound message inside
    rcases arg with v | (message | v) | sql | items
    · exact further (.value v)
    · exact .inl ⟨message, .after .nil⟩
    · exact further (.computed v)
    · exact leaf.elim
    · exact leaf.elim

theorem executionAgreesWithDebugText {q : Query} (reached : q.Reachable) {b : Backend} (backed : q.backend = some b) :
    ((∃ message, Arg.lazy (.error message) ∈ q.allBindings) → ∃ message, Arg.FailsFirst q.allBindings message ∧
      q.execute = ⟨[], [], .error (.evaluation message)⟩ ∧
      (liveCount .outside q.compile = q.allBindings.length → q.debugText = .error (.evaluation message))) ∧
    ((∀ message, Arg.lazy (.error message) ∉ q.allBindings) → ∃ params, Arg.AllGive q.allBindings params ∧
      b.Runs q.compile params q.execute.exchanges q.execute.result ∧
      q.debugText = interpolate q.dialect b.quoteLiteral q.compile (params.map .value) ∧
      (liveCount .outside q.compile = q.allBindings.length → ∃ text, q.debugText = .ok text)) ∧
    (Call.execute.perform q).query = q ∧
    (Call.execute.perform q).result = q.execute.result.map fun _ => () := by
  have leaves : Arg.AllLeaves q.allBindings := Bindings.allHolds (Query.reachableHolds reached)
  refine ⟨?_, ?_, rfl, rfl⟩
  · rintro ⟨message, member⟩
    rcases leavesGiveOrFail leaves with ⟨earliest, first⟩ | ⟨_, sound⟩
    · refine ⟨earliest, first, Query.executeFails backed first, ?_⟩
      intro count
      rw [Query.debugTextBacked backed]
      exact interpolateFails count first
    · exact absurd member (sound message)
  · intro sound
    rcases leavesGiveOrFail leaves with ⟨message, first⟩ | ⟨⟨params, given⟩, _⟩
    · exact absurd (Arg.failsFirstMember first) (sound message)
    · refine ⟨params, given, Query.executeRuns backed given, ?_, ?_⟩
      · rw [Query.debugTextBacked backed]
        exact interpolateValues given
      · intro count
        rw [Query.debugTextBacked backed]
        exact interpolateShown count given

theorem executionAgreesAcrossBuckets :
    let b : Backend := { dialect := .mysql, prepare := fun _ => .ok fun _ => .error "gone" }
    let found : List Step := [.call (.selectFrom "u"), .call (.test .filter (.leaf "k" ">" (.lazy (.ok .null)) .and))]
    let made (outcome : Except Text Value) : Query :=
      Step.run [.nest (.existence .filter .and) found, .call (.selectRaw "? AS n" [.lazy outcome])] (.onBackend b)
    let failing := made (.error "down")
    let sound := made (.ok (.text "it's"))
    (failing.Reachable ∧ failing.backend = some b ∧ ∃ message, Arg.FailsFirst failing.allBindings message ∧
      failing.execute = ⟨[], [], .error (.evaluation message)⟩ ∧ failing.debugText = .error (.evaluation message)) ∧
    sound.Reachable ∧ sound.backend = some b ∧ ∃ params, Arg.AllGive sound.allBindings params ∧
      b.Runs sound.compile params sound.execute.exchanges sound.execute.result ∧
      sound.debugText = interpolate sound.dialect b.quoteLiteral sound.compile (params.map .value) := by
  intro b found made failing sound
  have failingReached : failing.Reachable := Query.runReachable _ (.blank _ _)
  have soundReached : sound.Reachable := Query.runReachable _ (.blank _ _)
  have member : Arg.lazy (.error "down") ∈ failing.allBindings := List.mem_cons_self ..
  have count : liveCount .outside failing.compile = failing.allBindings.length := by decide +kernel
  have noFailure : ∀ message, Arg.lazy (.error message) ∉ sound.allBindings := by
    intro message member
    cases member with
    | tail _ member => cases member with
      | tail _ member => cases member
  obtain ⟨message, first, refused, shown⟩ := (executionAgreesWithDebugText failingReached rfl).1 ⟨_, member⟩
  obtain ⟨params, given, runs, shows, _⟩ := (executionAgreesWithDebugText soundReached rfl).2.1 noFailure
  exact ⟨⟨failingReached, rfl, message, first, refused, shown count⟩, soundReached, rfl, params, given, runs, shows⟩

end SelectBuilder
