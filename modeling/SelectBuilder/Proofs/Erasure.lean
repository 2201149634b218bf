import SelectBuilder.Proofs.InPlace

/-! Refused steps leave no trace. A refused method leaves the query as it was, whatever its callback did to
the query it was given. So a program ends in the same query as the program without the steps that were
refused, with everything inside them; and in that one, which attempts nothing, every step is carried out. -/
namespace SelectBuilder.Step

mutual
def erase : Step → Query → List Step
  | .call c, q => ifCarriedOut (.call c) q [.call c] []
  | .nest n body, q =>
    let kept :=
      match n.enter q with
      | .ok begun => [.nest n (eraseAll body begun)]
      | .error _ => []
    ifCarriedOut (.nest n body) q kept []
  | .attempt s, q => erase s q

def eraseAll : List Step → Query → List Step
  | [], _ => []
  | s :: rest, q => erase s q ++ eraseAll rest (s.next q)
end

def AttemptsNothing : Step → Prop := Holds (fun _ => True) (fun _ _ inside => inside) (fun _ => False)

def AllAttemptNothing : List Step → Prop := AllHold (fun _ => True) (fun _ _ inside => inside) (fun _ => False)

theorem applyAllAppend (a b : List Step) (q : Query) : applyAll (a ++ b) q = applyAll a q >>= applyAll b := by
  induction a generalizing q with
  | nil => rfl
  | cons s rest ih =>
    simp only [List.cons_append, applyAll]
    cases s.apply q with
    | error fault => rfl
    | ok next => exact ih next

mutual
theorem stepErase (s : Step) (q : Query) : applyAll (erase s q) q = .ok (s.next q) := by
  cases s with
  | call c =>
    cases found : (Step.call c).apply q with
    | ok next =>
      rw [erase, carriedOut found, (performOk found).2]
      simp [applyAll, found]
    | error fault =>
      rw [erase, notCarriedOut found, (performError found).2]
      rfl
  | nest n body =>
    cases found : (Step.nest n body).apply q with
    | ok next =>
      obtain ⟨inner, entered, worked, left⟩ := Nest.runIs found
      have inside := runErase body (n.opened q)
      rw [runIsApplyAll worked] at inside
      rw [erase, carriedOut found, (performOk found).2]
      simp only [entered, applyAll, apply, Nest.run, okBind, inside, left]
    | error fault =>
      rw [erase, notCarriedOut found, (performError found).2]
      rfl
  | attempt s => exact stepErase s q

theorem runErase (program : Program) (q : Query) : applyAll (eraseAll program q) q = .ok (run program q) := by
  cases program with
  | nil => rfl
  | cons s rest =>
    rw [eraseAll, applyAllAppend, stepErase s q, okBind]
    exact runErase rest (s.next q)
end

mutual
theorem eraseAttemptsNothing (s : Step) (q : Query) : AllAttemptNothing (erase s q) := by
  have nothing : AllAttemptNothing [] := trivial
  cases s with
  | call c =>
    have one : AllAttemptNothing [.call c] := ⟨trivial, trivial⟩
    exact ifCarriedOutHolds one nothing _ q
  | nest n body =>
    refine ifCarriedOutHolds ?_ nothing _ q
    cases n.enter q with
    | ok begun => exact ⟨eraseAllAttemptsNothing body begun, trivial⟩
    | error fault => exact nothing
  | attempt s =>
    rw [erase]
    exact eraseAttemptsNothing s q

theorem eraseAllAttemptsNothing (body : List Step) (q : Query) : AllAttemptNothing (eraseAll body q) := by
  cases body with
  | nil => trivial
  | cons s rest => exact allHoldAppend (eraseAttemptsNothing s q) (eraseAllAttemptsNothing rest _)
end

theorem refusalsLeaveNoTrace :
    (∀ c : Call, Edit.Steady c.perform) ∧
    (∀ (n : Nest) (callback : Edit Unit), Edit.Steady (n.perform callback)) ∧
    ∀ (program : Program) (q : Query),
      AllAttemptNothing (eraseAll program q) ∧ (performAll (eraseAll program q) q).result = .ok () ∧
      (performAll (eraseAll program q) q).query = run program q ∧ run (eraseAll program q) q = run program q := by
  refine ⟨performCallSteady, performNestSteady, ?_⟩
  intro program q
  have carried := runErase program q
  obtain ⟨result, query⟩ := performAllOk carried
  exact ⟨eraseAllAttemptsNothing program q, result, query, runIsApplyAll carried⟩

theorem refusedGroupLeavesNoTrace :
    let begun := (Query.blank .sqlite).testRaw .filter ['a'] [.value .null] .and
    let callback : Edit Unit := do
      Call.restart.perform
      Call.perform (.addBinding .having (.value .null))
      Edit.check (.error .missingAlias)
    ((Nest.group .filter .or).perform callback begun).result = .error .missingAlias ∧
      ((Nest.group .filter .or).perform callback begun).query = begun :=
  ⟨rfl, refusalsLeaveNoTrace.2.1 _ _ _ _ rfl⟩

end SelectBuilder.Step
