import SelectBuilder.Bindings.Change
import SelectBuilder.Proofs.ExecutionAgreement

/-! What a store of bindings holds, told by a ledger: one list of what the changes entered, in their order, each entry
with the bucket it was aimed at. A bucket is what the ledger has under it. An absorbed store enters what its own ledger
has, bucket by bucket in the canonical order. -/
namespace SelectBuilder

namespace Arg

mutual
def nodes : Arg → List Arg
  | .value v => [.value v]
  | .lazy outcome => [.lazy outcome]
  | .raw sql => [.raw sql]
  | .list items => .list items :: nodesOf items

def nodesOf : List Arg → List Arg
  | [] => []
  | arg :: rest => nodes arg ++ nodesOf rest
end

instance : DecidablePred IsLeaf
  | .value _ => isTrue trivial
  | .lazy _ => isTrue trivial
  | .raw _ => isFalse id
  | .list _ => isFalse id

mutual
theorem leavesOfNodes (arg : Arg) : arg.leaves = arg.nodes.filter (·.IsLeaf) := by
  cases arg with
  | list items => exact leavesOfNodesOf items
  | _ => rfl

theorem leavesOfNodesOf (items : List Arg) : leavesOf items = (nodesOf items).filter (·.IsLeaf) := by
  cases items with
  | nil => rfl
  | cons arg rest => rw [leavesOf, nodesOf, List.filter_append, leavesOfNodes arg, leavesOfNodesOf rest]
end

end Arg

abbrev Ledger := List (Bucket × Arg)

namespace Ledger

def under (ledger : Ledger) (b : Bucket) : List Arg := (ledger.filter (·.1 = b)).map Prod.snd

theorem underAppend (ledger more : Ledger) (b : Bucket) :
    (ledger ++ more : Ledger).under b = ledger.under b ++ more.under b := by
  rw [under, under, under, List.filter_append, List.map_append]

theorem underAimed (b : Bucket) (args : List Arg) (c : Bucket) :
    Ledger.under (args.map (b, ·)) c = if c = b then args else [] := by
  rw [under, List.filter_map, List.map_map]
  by_cases same : c = b
  · subst same
    simp [Function.comp_def]
  · simp [Function.comp_def, same, Ne.symm same]

end Ledger

def Bucket.inOrder (args : Bucket → List Arg) : List Arg :=
  args .select ++ args .source ++ args .join ++ args .filter ++ args .groups ++ args .having ++ args .order ++
    args .union ++ args .unionOrder

namespace Change

def entries (target : Text) (args : List Arg) : Ledger :=
  match Bucket.parse target with
  | .ok b => args.map (b, ·)
  | .error _ => []

mutual
def entered : Change → Ledger → List Arg
  | .add _ arg, _ => arg.nodes.filter (·.IsLeaf)
  | .absorb _ changes, _ => Bucket.inOrder (ledgerOf changes []).under
  | .absorbSelf _, before => Bucket.inOrder before.under

def ledgerOf : List Change → Ledger → Ledger
  | [], ledger => ledger
  | change :: rest, ledger => ledgerOf rest (ledger ++ entries change.target (entered change ledger))
end

end Change

namespace Bindings

def Keeps (s : Bindings) (ledger : Ledger) : Prop := ∀ b, s.get b = ledger.under b

theorem emptyKeeps : empty.Keeps [] := by
  intro b
  cases b <;> rfl

theorem allInOrder (s : Bindings) : s.all = Bucket.inOrder s.get := by
  simp [all, Bucket.all, Bucket.inOrder]

theorem keepsAll {s : Bindings} {ledger : Ledger} (keeps : s.Keeps ledger) : s.all = Bucket.inOrder ledger.under := by
  rw [allInOrder, funext keeps]

end Bindings

namespace Change

/-- A change that names a bucket adds what it enters behind what was there, and leaves the other buckets alone. -/
inductive Lands (change : Change) (ledger : Ledger) (s : Bindings) : Except Fault Bindings → Prop
  | refused {fault : Fault} (unknown : Bucket.parse change.target = .error fault) : Lands change ledger s (.error fault)
  | landed {b : Bucket} {t : Bindings} (known : Bucket.parse change.target = .ok b)
      (added : ∀ c, t.get c = if c = b then s.get c ++ change.entered ledger else s.get c) : Lands change ledger s (.ok t)

theorem landsBehind {change : Change} {ledger : Ledger} {s : Bindings} {add : Bucket → Bindings}
    (behind : ∀ b, add b = s.append b (change.entered ledger)) :
    Lands change ledger s (do
      let b ← Bucket.parse change.target
      .ok (add b)) := by
  cases found : Bucket.parse change.target with
  | error fault => exact .refused found
  | ok b =>
    refine .landed found ?_
    rw [behind]
    exact s.getAppend b _

theorem landedKeeps {change : Change} {ledger : Ledger} {s : Bindings} (keeps : s.Keeps ledger)
    {answer : Except Fault Bindings} (lands : Lands change ledger s answer) :
    (match answer with
      | .ok t => t
      | .error _ => s).Keeps (ledger ++ entries change.target (change.entered ledger)) := by
  intro c
  cases lands with
  | refused unknown => simpa only [entries, unknown, List.append_nil] using keeps c
  | landed known added =>
    simp only [entries, known]
    rw [added, Ledger.underAppend, Ledger.underAimed, keeps c]
    split
    · rfl
    · exact (List.append_nil _).symm

mutual
theorem applyLands (change : Change) {ledger : Ledger} {s : Bindings} (keeps : s.Keeps ledger) :
    Lands change ledger s (change.apply s) := by
  cases change with
  | add bucket arg =>
    refine landsBehind fun b => ?_
    rw [Bindings.add, Arg.leavesOfNodes]
    rfl
  | absorb bucket changes =>
    refine landsBehind fun b => ?_
    have inner := applyAllKeeps changes Bindings.emptyKeeps
    rw [Bindings.absorb, Bindings.storedAll, Bindings.keepsAll inner]
    rfl
  | absorbSelf bucket =>
    refine landsBehind fun b => ?_
    rw [Bindings.absorb, Bindings.storedAll, Bindings.keepsAll keeps]
    rfl

theorem applyAllKeeps (changes : List Change) {ledger : Ledger} {s : Bindings} (keeps : s.Keeps ledger) :
    (applyAll changes s).Keeps (ledgerOf changes ledger) := by
  cases changes with
  | nil => exact keeps
  | cons change rest =>
    have next := landedKeeps keeps (applyLands change keeps)
    rw [applyAll, ledgerOf]
    cases found : change.apply s with
    | ok t =>
      rw [found] at next
      exact applyAllKeeps rest next
    | error fault =>
      rw [found] at next
      exact applyAllKeeps rest next
end

end Change

namespace Bindings

theorem isEmptyAll (s : Bindings) : s.isEmpty ↔ s.all = [] := by
  rw [isEmpty, List.all_eq_true, ← storedAll, List.flatten_eq_nil_iff]
  simp only [List.isEmpty_iff]

theorem resolveIs {s : Bindings} (holds : s.HoldsLeaves) :
    (∃ values, Arg.AllGive s.all values ∧ s.resolve = .ok values) ∨
      ∃ message, Arg.FailsFirst s.all message ∧ s.resolve = .error (.evaluation message) := by
  rcases leavesGiveOrFail (allHolds holds) with ⟨message, first⟩ | ⟨⟨values, given⟩, _⟩
  · exact .inr ⟨message, first, evaluateFails first⟩
  · exact .inl ⟨values, given, evaluateGiven given⟩

end Bindings

namespace Change

mutual
theorem applyHolds {change : Change} {s t : Bindings} (holds : s.HoldsLeaves) (ok : change.apply s = .ok t) :
    t.HoldsLeaves := by
  cases change with
  | add bucket arg =>
    obtain ⟨b, _, last⟩ := bindIsOk ok
    cases last
    exact Bindings.appendHolds holds b (Arg.leavesAllLeaves arg)
  | absorb bucket changes =>
    obtain ⟨b, _, last⟩ := bindIsOk ok
    cases last
    exact Bindings.absorbHolds holds b (applyAllHolds changes Bindings.emptyHolds)
  | absorbSelf bucket =>
    obtain ⟨b, _, last⟩ := bindIsOk ok
    cases last
    exact Bindings.absorbHolds holds b holds

theorem applyAllHolds (changes : List Change) {s : Bindings} (holds : s.HoldsLeaves) :
    (applyAll changes s).HoldsLeaves := by
  cases changes with
  | nil => exact holds
  | cons change rest =>
    rw [applyAll]
    split
    · rename_i ok
      exact applyAllHolds rest (applyHolds holds ok)
    · exact applyAllHolds rest holds
end

end Change

theorem storeIsItsLedger (changes : List Change) :
    let s := Change.applyAll changes .empty
    let ledger := Change.ledgerOf changes []
    (∀ b, s.get b = ledger.under b) ∧ (∀ change : Change, change.Lands ledger s (change.apply s)) ∧
      (∀ b, Arg.AllLeaves (s.get b)) ∧ s.all = Bucket.inOrder s.get ∧ s.size = s.all.length ∧
      (s.isEmpty ↔ s.all = []) ∧
      ((∃ values, Arg.AllGive s.all values ∧ s.resolve = .ok values) ∨
        ∃ message, Arg.FailsFirst s.all message ∧ s.resolve = .error (.evaluation message)) := by
  intro s ledger
  have keeps : s.Keeps ledger := Change.applyAllKeeps changes Bindings.emptyKeeps
  have holds : s.HoldsLeaves := Change.applyAllHolds changes Bindings.emptyHolds
  exact ⟨keeps, fun change => Change.applyLands change keeps, holds, s.allInOrder, s.sizeAll, s.isEmptyAll,
    Bindings.resolveIs holds⟩

example :
    Change.ledgerOf [.add "where" (.value (.bool true)),
      .absorb "select" [.add "union" (.value .null), .add "from" (.list [.raw "x", .lazy (.ok .null)])],
      .absorbSelf "order"] [] =
    [(.filter, .value (.bool true)), (.select, .lazy (.ok .null)), (.select, .value .null),
      (.order, .lazy (.ok .null)), (.order, .value .null), (.order, .value (.bool true))] := rfl

end SelectBuilder
