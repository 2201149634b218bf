import SelectBuilder.Proofs.Alignment

/-! Values that are bound but have no place. The tail of a union is written only when there is a union, while what was
bound for its order is always among the bindings. So a query without a union has these values in surplus, at the end
of all bindings, and no others: then showing the statement is refused, and running it sends them along. -/
namespace SelectBuilder
open Labelled

def Query.surplus (q : Query) : List Arg := if q.unions = [] then q.bindings.unionOrder else []

theorem Query.shownSurplus (q : Query) : q.allBindings = Fragments.shown q ++ q.surplus := by
  have all : q.allBindings = Fragments.baseBindings q.bindings ++ q.bindings.union ++ q.bindings.unionOrder := by
    simp [allBindings, Bindings.all, Bucket.all, Bindings.get, Fragments.baseBindings]
  rw [all, Fragments.shown, surplus]
  split <;> simp

/-! Filling a statement takes one argument for each live placeholder. -/

theorem fillUsesAll {render : Arg → Except Fault Text} {r : Region} {sql : Text} {args : List Arg} {text : Text}
    (filled : fill render r sql args = .ok text) : r.liveCount sql = args.length := by
  induction sql generalizing r args text with
  | nil =>
    cases args with
    | nil => rfl
    | cons arg later => contradiction
  | cons c rest ih =>
    unfold fill at filled
    rw [Region.liveCount]
    split at filled
    · rename_i live
      rw [if_pos live, Region.nextOfLive live]
      cases args with
      | nil => contradiction
      | cons arg later =>
        obtain ⟨_, _, rest⟩ := bindIsOk filled
        obtain ⟨_, found, _⟩ := bindIsOk rest
        rw [ih found, List.length_cons, Nat.add_comm]
    · rename_i ordinary
      obtain ⟨_, found, _⟩ := bindIsOk filled
      rw [if_neg ordinary, Nat.zero_add, ih found]

theorem evaluateFewer {args : List Arg} {values : List Value} (ok : Bindings.evaluate args = .ok values) :
    values.length ≤ args.length := by
  induction args generalizing values with
  | nil =>
    cases ok
    exact Nat.le_refl 0
  | cons arg rest ih =>
    have one {v : Value} {later : Except Fault (List Value)} (same : later = Bindings.evaluate rest)
        (ok : (later >>= fun more => .ok (v :: more)) = .ok values) : values.length ≤ (arg :: rest).length := by
      obtain ⟨more, found, last⟩ := bindIsOk ok
      cases last
      rw [List.length_cons, List.length_cons]
      exact Nat.succ_le_succ (ih (same ▸ found))
    cases arg with
    | value v => exact one rfl ok
    | «lazy» outcome =>
      cases outcome with
      | ok v => exact one rfl ok
      | error message => contradiction
    | raw sql => exact Nat.le_succ_of_le (ih ok)
    | list items => exact Nat.le_succ_of_le (ih ok)

def Exchange.params : Exchange → List Value
  | .ran params _ => params
  | .failed params _ => params
  | _ => []

theorem executeSends (q : Query) : ∀ exchange ∈ q.execute.exchanges, exchange.params.length ≤ q.allBindings.length := by
  unfold Query.execute
  cases q.backend with
  | none => simp
  | some b =>
    cases resolved : q.bindings.resolve with
    | error fault => simp
    | ok params =>
      have fewer : params.length ≤ q.allBindings.length := evaluateFewer resolved
      simp only [Backend.run]
      cases b.prepare q.compile with
      | error message => simp [Exchange.params]
      | ok statement =>
        simp only
        cases statement params <;> simpa [Exchange.params] using fewer

namespace Step

theorem surplusIsOfUnionOrder {program : Program} (fair : AllFair program) (d : Dialect) (b : Option Backend)
    (backed : AllBacked program { dialect := d, backend := b }) :
    let q := run program { dialect := d, backend := b }
    q.allBindings = Fragments.shown q ++ q.surplus ∧
      live .outside (labelledStatement program { dialect := d, backend := b }) = (Fragments.shown q).map some ∧
      q.allBindings.length = Region.liveCount .outside q.compile + q.surplus.length ∧
      q.debugText ≠ .error .missingArgument ∧
      (q.surplus = [] → q.debugText ≠ .error .surplusArgument) ∧
      (q.surplus ≠ [] → ∀ sql, q.debugText ≠ .ok sql) ∧
      ∀ exchange ∈ q.execute.exchanges,
        exchange.params.length ≤ Region.liveCount .outside q.compile + q.surplus.length := by
  intro q
  have labels := runLabels fair backed (Fragments.blankLabels d b)
  have text : (labelledStatement program { dialect := d, backend := b }).text = q.compile :=
    Fragments.compileText fun bucket => (labels bucket).1
  obtain ⟨_, aligned⟩ := Fragments.compileCarriesShown labels
  have split := q.shownSurplus
  have places : Region.liveCount .outside q.compile = (Fragments.shown q).length := by
    rw [← text, ← liveLength, labelledStatement, aligned, List.length_map]
  have count : q.allBindings.length = Region.liveCount .outside q.compile + q.surplus.length := by
    rw [split, List.length_append, places]
  refine ⟨split, aligned, count, ?_, ?_, ?_, ?_⟩
  · intro refused
    have fewer := (debugFault refused).2 rfl
    omega
  · intro noTail refused
    have more := (debugFault refused).1 rfl
    rw [count, noTail] at more
    exact Nat.lt_irrefl _ more
  · intro unprinted sql shown
    have used : Region.liveCount .outside q.compile = q.allBindings.length := fillUsesAll shown
    have nothing : q.surplus.length = 0 := by omega
    exact unprinted (List.length_eq_zero_iff.mp nothing)
  · rw [← count]
    exact executeSends q

theorem surplusAfterSubquery :
    let value (t : Text) : Arg := .value (.text t)
    let child : List Step :=
      [.call (.unionOrderByRaw "?" [value "a"]), .nest (.union false) [.call (.testRaw .filter "a > ?" [value "b"] .and)]]
    let program : Program :=
      [.call (.unionOrderByRaw "FIELD(a, ?)" [value "c"]), .nest (.selectSub "n") child, .call (.unionLimit 2),
        .call (.unionOrderBy "a" "desc")]
    let q := run program (.blank .mysql)
    AllFair program ∧ AllBacked program (.blank .mysql) ∧ q.surplus = [value "c"] ∧
      q.allBindings = Fragments.shown q ++ q.surplus ∧
      live .outside (labelledStatement program (.blank .mysql)) = (Fragments.shown q).map some ∧
      q.allBindings.length = Region.liveCount .outside q.compile + q.surplus.length ∧
      q.debugText ≠ .error .missingArgument ∧
      (q.surplus = [] → q.debugText ≠ .error .surplusArgument) ∧
      (q.surplus ≠ [] → ∀ sql, q.debugText ≠ .ok sql) ∧
      ∀ exchange ∈ q.execute.exchanges,
        exchange.params.length ≤ Region.liveCount .outside q.compile + q.surplus.length := by
  intro value child program q
  have fair : AllFair program := by
    simp [program, child, value, AllFair, AllHold, Holds, Nest.Fair, Call.Fair, Ident.Inert]
    decide
  have backed : AllBacked program (.blank .mysql) := by
    refine ⟨trivial, ⟨⟨trivial, ⟨⟨trivial, trivial⟩, fun _ _ => ?_⟩, trivial⟩, fun _ _ => ?_⟩, trivial, trivial, trivial⟩
    · decide +kernel
    · decide +kernel
  exact ⟨fair, backed, rfl, surplusIsOfUnionOrder fair .mysql none backed⟩

/-- One such value is refused as surplus, and in a parent it takes the place of the parent's own. -/
theorem unionOrderWithoutUnion :
    let one : Arg := .value (.int 1)
    let two : Arg := .value (.int 2)
    let program : Program := [.call (.unionOrderByRaw "FIELD(id, ?)" [one])]
    let parent : Program := [.nest (.existence .filter .and) program, .call (.test .having (.leaf "a" "=" two .and))]
    let q := run program (.blank .mysql)
    let p := run parent (.blank .mysql)
    AllFair program ∧ q.unions = [] ∧ q.compile = "SELECT *".toList ∧ q.allBindings = [one] ∧
      q.debugText = .error .surplusArgument ∧
      p.compile = "SELECT * WHERE EXISTS (SELECT *) HAVING \x60a\x60 = ?".toList ∧ p.allBindings = [one, two] ∧
      p.debugText = .error .surplusArgument := by
  have fits : Fits "FIELD(id, ?)" [.value (.int 1)] := by decide
  exact ⟨⟨fits, trivial⟩, rfl, by decide +kernel, rfl, rfl, by decide +kernel, rfl, rfl⟩

end Step
end SelectBuilder
