import SelectBuilder.Bindings

/-! Changes to a store of bindings, as data. An absorbed store is itself made by changes, or is the store
as it stands. A change that names no bucket is skipped. -/
namespace SelectBuilder

inductive Change
  | add (bucket : Text) (arg : Arg)
  | absorb (bucket : Text) (changes : List Change)
  | absorbSelf (bucket : Text)

namespace Change

mutual
def apply : Change → Bindings → Except Fault Bindings
  | .add bucket arg, s => do
    let b ← Bucket.parse bucket
    .ok (s.add b arg)
  | .absorb bucket changes, s => do
    let b ← Bucket.parse bucket
    .ok (s.absorb b (applyAll changes .empty))
  | .absorbSelf bucket, s => do
    let b ← Bucket.parse bucket
    .ok (s.absorb b s)

def applyAll : List Change → Bindings → Bindings
  | [], s => s
  | change :: rest, s =>
    match apply change s with
    | .ok next => applyAll rest next
    | .error _ => applyAll rest s
end

def target : Change → Text
  | .add bucket _ => bucket
  | .absorb bucket _ => bucket
  | .absorbSelf bucket => bucket

theorem applyAppends (change : Change) (s : Bindings) :
    ∃ args, change.apply s = (Bucket.parse change.target).map fun b => s.append b args := by
  have appends {answer : Except Fault Bucket} {args : List Arg} {add : Bucket → Bindings}
      (same : ∀ b, add b = s.append b args) :
      (do
        let b ← answer
        .ok (add b)) = answer.map fun b => s.append b args := by
    cases answer with
    | error fault => rfl
    | ok b => exact congrArg Except.ok (same b)
  cases change with
  | add bucket arg => exact ⟨arg.leaves, appends fun b => rfl⟩
  | absorb bucket changes => exact ⟨(applyAll changes .empty).stored.flatten, appends fun b => rfl⟩
  | absorbSelf bucket => exact ⟨s.stored.flatten, appends fun b => rfl⟩

theorem applyNamed {change : Change} {b : Bucket} (aimed : change.target = b.name) (s : Bindings) :
    ∃ args, change.apply s = .ok (s.append b args) := by
  obtain ⟨args, same⟩ := change.applyAppends s
  rw [aimed, Bucket.parseOk.mpr rfl] at same
  exact ⟨args, same⟩

theorem applyUnnamed {change : Change} (unnamed : ∀ b : Bucket, change.target ≠ b.name) (s : Bindings) :
    change.apply s = .error (.unknownBucket change.target) := by
  obtain ⟨args, same⟩ := change.applyAppends s
  rw [same, Bucket.parseUnknown unnamed]
  rfl

end Change
end SelectBuilder
