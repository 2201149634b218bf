import SelectBuilder.Query.Basic

/-! The dialect that new queries get, and scopes in which it is another one. Scopes are entered and left in pairs, and
leaving one brings back the dialect from before it, whatever was set or entered inside. -/
namespace SelectBuilder

structure DefaultDialect where
  current : Dialect := .mysql
  saved : List Dialect := []
  deriving DecidableEq, Repr

namespace DefaultDialect

def set (s : DefaultDialect) (d : Dialect) : DefaultDialect := { s with current := d }

def enter (s : DefaultDialect) (d : Dialect) : DefaultDialect := ⟨d, s.current :: s.saved⟩

def leave (s : DefaultDialect) : DefaultDialect :=
  match s.saved with
  | [] => s
  | old :: rest => ⟨old, rest⟩

def newQuery (s : DefaultDialect) : Query := .blank s.current

inductive Turn
  | set (d : Dialect)
  | scope (d : Dialect) (inside : List Turn)

namespace Turn

mutual
def apply : Turn → DefaultDialect → DefaultDialect
  | .set d, s => s.set d
  | .scope d inside, s => (applyAll inside (s.enter d)).leave

def applyAll : List Turn → DefaultDialect → DefaultDialect
  | [], s => s
  | turn :: rest, s => applyAll rest (turn.apply s)
end

mutual
theorem applySaved (turn : Turn) (s : DefaultDialect) : (turn.apply s).saved = s.saved := by
  cases turn with
  | set d => rfl
  | scope d inside =>
    have within : (applyAll inside (s.enter d)).saved = s.current :: s.saved := applyAllSaved inside (s.enter d)
    rw [apply, leave, within]

theorem applyAllSaved (turns : List Turn) (s : DefaultDialect) : (applyAll turns s).saved = s.saved := by
  cases turns with
  | nil => rfl
  | cons turn rest => rw [applyAll, applyAllSaved rest, applySaved turn]
end

theorem scopeRestores (d : Dialect) (inside : List Turn) (s : DefaultDialect) : (scope d inside).apply s = s := by
  have within : (applyAll inside (s.enter d)).saved = s.current :: s.saved := applyAllSaved inside (s.enter d)
  rw [apply, leave, within]

end Turn
end DefaultDialect
end SelectBuilder
