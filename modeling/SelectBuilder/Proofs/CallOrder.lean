import SelectBuilder.Program.Report
import SelectBuilder.Proofs.Footprint

/-! Building steps of different fragments may be interleaved at will. What a list of steps makes of a fragment is what
the steps of that fragment alone make of it, and they are refused for the same reasons. So two lists with the same
steps for each fragment, in the same order, end in the same query, whatever the order across fragments. -/
namespace SelectBuilder.Step

abbrev Schedule := List (Fragment × Step)

namespace Schedule

def steps (l : Schedule) : Program := l.map Prod.snd

def AllWithin (l : Schedule) : Prop := ∀ task ∈ l, task.2.Within task.1

def of {α : Type} (f : Fragment) (l : List (Fragment × α)) : List (Fragment × α) := l.filter fun task => task.1 = f

def outcomes : Schedule → Query → List (Fragment × Option Fault)
  | [], _ => []
  | (f, s) :: rest, q => (f, s.fault? q) :: outcomes rest (s.next q)

end Schedule

variable {s : Step} {f : Fragment}

theorem graftPerform (within : s.Within f) {q p : Query} (sibling : q.Sibling p) :
    s.next (q.graft p f) = q.graft (s.next p) f ∧ s.fault? (q.graft p f) = s.fault? p := by
  have there := graftApply within sibling
  cases found : s.apply p with
  | ok next =>
    rw [found] at there
    obtain ⟨result, query⟩ := performOk found
    obtain ⟨result', query'⟩ := performOk there
    exact ⟨by rw [query, query'], by rw [fault?, fault?, result, result']⟩
  | error fault =>
    rw [found] at there
    obtain ⟨result, query⟩ := performError found
    obtain ⟨result', query'⟩ := performError there
    exact ⟨by rw [query, query'], by rw [fault?, fault?, result, result']⟩

theorem nextKeeps (within : s.Within f) (q : Query) : s.next q = q.graft (s.next q) f := by
  have own := (graftPerform within q.siblingRefl).1
  rwa [q.graftSelf] at own

theorem nextSibling (within : s.Within f) {q p : Query} (sibling : q.Sibling p) : q.Sibling (s.next p) := by
  rw [nextKeeps within p]
  exact q.siblingGraft sibling _ f

theorem nextSiblingBack (within : s.Within f) (q : Query) : (s.next q).Sibling q := by
  obtain ⟨dialect, backend⟩ := nextSibling within q.siblingRefl
  exact ⟨dialect.symm, backend.symm⟩

theorem runGraft {l : Schedule} (within : ∀ task ∈ l, task.2.Within f) {q p : Query} (sibling : q.Sibling p) :
    run l.steps (q.graft p f) = q.graft (run l.steps p) f ∧ l.outcomes (q.graft p f) = l.outcomes p := by
  induction l generalizing p with
  | nil => exact ⟨rfl, rfl⟩
  | cons task rest ih =>
    obtain ⟨g, s⟩ := task
    have one : s.Within f := within (g, s) List.mem_cons_self
    obtain ⟨query, fault⟩ := graftPerform one sibling
    obtain ⟨last, faults⟩ := ih (fun task member => within task (List.mem_cons_of_mem _ member)) (nextSibling one sibling)
    constructor
    · change run (Schedule.steps rest) (s.next (q.graft p f)) = _
      rw [query]
      exact last
    · simp only [Schedule.outcomes, query, fault, faults]

theorem ofWithin {l : Schedule} (within : l.AllWithin) (f : Fragment) : ∀ task ∈ Schedule.of f l, task.2.Within f := by
  intro task member
  obtain ⟨inside, same⟩ := List.mem_filter.mp member
  rw [← of_decide_eq_true same]
  exact within task inside

theorem fragmentAlone {l : Schedule} (within : l.AllWithin) (f : Fragment) (q : Query) :
    (run l.steps q).graft (run (Schedule.steps (Schedule.of f l)) q) f = run l.steps q ∧
      Schedule.of f (l.outcomes q) = Schedule.outcomes (Schedule.of f l) q := by
  induction l generalizing q with
  | nil => exact ⟨q.graftSelf f, rfl⟩
  | cons task rest ih =>
    obtain ⟨g, s⟩ := task
    have one : s.Within g := within (g, s) List.mem_cons_self
    have later : Schedule.AllWithin rest := fun task member => within task (List.mem_cons_of_mem _ member)
    obtain ⟨query, faults⟩ := ih later (s.next q)
    by_cases own : g = f
    · have kept : Schedule.of f ((g, s) :: rest) = (g, s) :: Schedule.of f rest := by simp [Schedule.of, own]
      rw [kept]
      refine ⟨query, ?_⟩
      simp only [Schedule.outcomes, ← faults]
      simp [Schedule.of, own]
    · have dropped : Schedule.of f ((g, s) :: rest) = Schedule.of f rest := by simp [Schedule.of, own]
      -- The step of another fragment leaves this one as it was.
      have apart : (s.next q).graft q f = s.next q := by
        rw [nextKeeps one q]
        exact q.graftOther _ own
      have there := runGraft (ofWithin later f) (nextSiblingBack one q)
      rw [apart] at there
      rw [dropped]
      constructor
      · rw [there.1, Query.graftGraft] at query
        exact query
      · rw [← there.2, ← faults]
        simp [Schedule.outcomes, Schedule.of, own]

theorem runSibling {l : Schedule} (within : l.AllWithin) {q p : Query} (sibling : q.Sibling p) :
    q.Sibling (run l.steps p) := by
  induction l generalizing p with
  | nil => exact sibling
  | cons task rest ih =>
    have one : task.2.Within task.1 := within task List.mem_cons_self
    exact ih (fun task member => within task (List.mem_cons_of_mem _ member)) (nextSibling one sibling)

theorem withinOfSame {first second : Schedule} (within : first.AllWithin)
    (same : ∀ f, Schedule.of f first = Schedule.of f second) : second.AllWithin := by
  intro task member
  have own : task ∈ Schedule.of task.1 second := List.mem_filter.mpr ⟨member, by simp⟩
  rw [← same] at own
  exact within task (List.mem_filter.mp own).1

theorem orderAcrossFragmentsIsFree {first second : Schedule} (within : first.AllWithin)
    (same : ∀ f, Schedule.of f first = Schedule.of f second) (q : Query) :
    run first.steps q = run second.steps q ∧
      ∀ f, Schedule.of f (first.outcomes q) = Schedule.of f (second.outcomes q) := by
  have within' := withinOfSame within same
  constructor
  · obtain ⟨dialect, backend⟩ := runSibling within q.siblingRefl
    obtain ⟨dialect', backend'⟩ := runSibling within' q.siblingRefl
    refine Query.fragmentsTell ⟨dialect'.trans dialect.symm, backend'.trans backend.symm⟩ ?_
    intro f
    obtain ⟨left, _⟩ := fragmentAlone within f q
    obtain ⟨right, _⟩ := fragmentAlone within' f q
    rw [← right, ← same f, Query.graftGraft, left]
  · intro f
    rw [(fragmentAlone within f q).2, (fragmentAlone within' f q).2, same f]

theorem orderIsFreeAroundRefusals :
    let value (t : Text) : Arg := .value (.text t)
    let test (column : String) (t : Text) : Step := .call (.test .filter (.leaf column "=" (value t) .or))
    let child : List Step :=
      [.call (.setDialect .sqlite), .nest (.union true) [.call (.selectFrom "u")], .call (.limit 2)]
    let columns : Fragment × Step := (.select, .nest (.selectSub "n") child)
    let star : Fragment × Step := (.select, .call (.select ["a.*"]))
    let tests : Fragment × Step :=
      (.filter, .nest (.group .filter .and) [test "a" "x", .attempt (.call (.refuse .noBackend))])
    let pattern : Fragment × Step := (.filter, .call (.test .filter (.leaf "b" "like" (.value .null) .and)))
    let bound : Fragment × Step := (.filter, .call (.addBinding .filter (value "y")))
    let join : Fragment × Step := (.join, .call (.joinWhere .left "t" "k" ">" (.list [])))
    let count : Fragment × Step := (.limit, .call (.limit 5))
    let first : Schedule := [columns, tests, star, pattern, count, bound, join]
    let second : Schedule := [join, tests, count, pattern, bound, columns, star]
    first.AllWithin ∧ (∀ f, Schedule.of f first = Schedule.of f second) ∧
      run first.steps (.blank .mysql) = run second.steps (.blank .mysql) ∧
      ∀ f, Schedule.of f (first.outcomes (.blank .mysql)) = Schedule.of f (second.outcomes (.blank .mysql)) := by
  intro value test child columns star tests pattern bound join count first second
  have within : first.AllWithin := by
    simp [first, columns, star, tests, pattern, bound, join, count, test, Schedule.AllWithin, Within, AllWithin,
      Nest.Within, Call.Within, ClauseKind.fragment, Bucket.fragment]
  have same : ∀ f, Schedule.of f first = Schedule.of f second := by
    intro f
    cases f <;> rfl
  exact ⟨within, same, orderAcrossFragmentsIsFree within same (.blank .mysql)⟩

end SelectBuilder.Step
