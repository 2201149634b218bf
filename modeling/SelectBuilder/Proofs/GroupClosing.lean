import SelectBuilder.Proofs.ClauseGrowth
import SelectBuilder.Proofs.LabelledClauses
import SelectBuilder.Proofs.Reachable

/-! Closing a group. Whether the callback wrote something is judged by the length of the clause, and a group without
anything in it is withdrawn by cutting the clause to its former length. Both rest on a clause that only grew while the
callback had it. So it does as long as no callback starts over: then nothing but the connective and the parenthesis of
the group is withdrawn, no character is cut in two, and the parentheses of groups stay balanced. A clause is marked as
empty just when it has no text, whatever callbacks do. -/
namespace SelectBuilder

/-! The mark of an empty clause. -/
namespace Clause

def Sound (clause : Clause) : Prop := clause.ending = .empty ↔ clause.text = []

theorem emptySound : Sound .empty := iff_of_true rfl rfl

theorem writtenSound {clause : Clause} (ending : clause.ending ≠ .empty) (text : clause.text ≠ []) : clause.Sound :=
  iff_of_false ending text

variable {keyword : Text} (word : keyword ≠ []) {clause : Clause} (sound : clause.Sound)
include word sound

theorem connectNonempty (c : Connective) : (clause.connect keyword c).text ≠ [] := by
  rw [connectText]
  by_cases fresh : clause.ending = .empty
  · intro nothing
    have member : keyword ∈ heads keyword c clause.ending := by simp [fresh, heads]
    have bytes := ledAllBytes member clause.text
    rw [nothing, Text.byteLength] at bytes
    exact word (Text.byteLengthZero (by omega))
  · obtain ⟨more, longer⟩ := ledAllPrefix clause.text (heads keyword c clause.ending)
    rw [longer]
    exact List.append_ne_nil_of_left_ne_nil (fun nothing => fresh (sound.mpr nothing)) more

theorem leadNonempty (c : Connective) (text : Text) : (clause.connect keyword c).lead text ≠ [] := by
  obtain ⟨more, longer⟩ := ledPrefix (clause.connect keyword c).text text
  change led (clause.connect keyword c).text text ≠ []
  rw [longer]
  exact List.append_ne_nil_of_left_ne_nil (connectNonempty word sound c) more

theorem openGroupSound (c : Connective) : (clause.openGroup keyword c).Sound :=
  writtenSound (by simp [openGroup, openWith]) (leadNonempty word sound c ['('])

theorem receiveSound (item : Item) : (clause.receive keyword item).Sound := by
  cases item with
  | predicate c text => exact writtenSound (by simp [receive, term]) (leadNonempty word sound c text)
  | group c items =>
    rw [receive]
    split
    · exact sound
    · exact writtenSound (by simp) (by simp)

theorem receiveAllSound (items : List Item) : (clause.receiveAll keyword items).Sound := by
  induction items generalizing clause with
  | nil => exact sound
  | cons item rest ih => exact ih (receiveSound word sound item)

theorem closeGroupSound {c : Connective} {inner closed : Clause} (ok : clause.closeGroup keyword c inner = .ok closed) :
    closed.Sound := by
  unfold closeGroup at ok
  split at ok
  · rename_i same
    split at ok
    · rename_i text taken
      cases ok
      have opened := leadNonempty word sound c ['(']
      have nonempty : inner.text ≠ [] := by
        intro nothing
        rw [nothing] at same
        exact opened (Text.byteLengthZero same.symm)
      have zero : Text.byteLength clause.text = 0 ↔ clause.text = [] :=
        ⟨Text.byteLengthZero, fun nothing => by rw [nothing, Text.byteLength]⟩
      exact sound.trans (zero.symm.trans (Text.takeBytesNothing nonempty taken).symm)
    · contradiction
  · cases ok
    exact writtenSound (by simp) (by simp)

end Clause

theorem ClauseKind.keywordNonempty (kind : ClauseKind) : kind.keyword ≠ [] := by
  cases kind <;> decide

namespace Query

def Sound (q : Query) : Prop := ∀ kind, (q.clause kind).Sound

theorem childSound (q : Query) : q.child.Sound := by
  intro kind
  cases kind <;> exact Clause.emptySound

theorem receivesSound {q next : Query} (sound : q.Sound) {kind : ClauseKind} {items : List Item}
    (received : q.Receives kind items next) : (next.clause kind).Sound := by
  rw [received]
  exact Clause.receiveAllSound kind.keywordNonempty (sound kind) items

theorem callSound {c : Call} {q next : Query} (sound : q.Sound) (ok : c.apply q = .ok next) : next.Sound := by
  by_cases keeps : c.Keeps
  · exact fun kind => receivesSound sound (Call.applyReceives keeps ok kind)
  · cases c with
    | restart =>
      cases ok
      exact q.childSound
    | _ => exact absurd trivial keeps

theorem openedSound (n : Nest) {q : Query} (sound : q.Sound) : (n.opened q).Sound := by
  cases n with
  | group kind c =>
    intro other
    by_cases same : other = kind
    · subst same
      rw [Nest.opened, clauseOpenGroup]
      exact Clause.openGroupSound other.keywordNonempty (sound other) c
    · rw [Nest.opened, clauseOpenGroupOther q same]
      exact sound other
  | copy => exact sound
  | _ => exact q.childSound

theorem leftSound {n : Nest} {q inner next : Query} (sound : q.Sound) (within : inner.Sound)
    (ok : n.leave q inner = .ok next) : next.Sound := by
  intro other
  cases n with
  | group kind c =>
    obtain ⟨clause, closed, last⟩ := bindIsOk ok
    cases last
    by_cases same : other = kind
    · subst same
      rw [clauseWithClause]
      exact Clause.closeGroupSound other.keywordNonempty (sound other) closed
    · rw [clauseWithOther inner same]
      exact within other
  | _ =>
    have nothing (begun : Query) : False → begun.Receives other [] inner := False.elim
    refine receivesSound sound (Nest.leaveReceives ?_ (nothing _) ok)
    trivial

theorem soundInvariant : Invariant Sound where
  blank d b := childSound { dialect := d, backend := b }
  call := callSound
  opened := openedSound
  left := leftSound

end Query

/-! What is written, apart from the parentheses that the groups put around it. -/

inductive ClauseToken
  | words (text : Text)
  | opening
  | closing
  deriving DecidableEq, Repr

namespace ClauseToken

def shown : List ClauseToken → Text
  | [] => []
  | .words text :: rest => text ++ shown rest
  | .opening :: rest => '(' :: shown rest
  | .closing :: rest => ')' :: shown rest

/-- How many groups are open at the end, if so many were open before; none if one was closed that was not open. -/
def level : List ClauseToken → Nat → Option Nat
  | [], n => some n
  | .words _ :: rest, n => level rest n
  | .opening :: rest, n => level rest (n + 1)
  | .closing :: _, 0 => none
  | .closing :: rest, n + 1 => level rest n

def Balanced (tokens : List ClauseToken) : Prop := level tokens 0 = some 0

instance (tokens : List ClauseToken) : Decidable (Balanced tokens) := inferInstanceAs (Decidable (_ = _))

theorem shownAppend (a b : List ClauseToken) : shown (a ++ b) = shown a ++ shown b := by
  induction a with
  | nil => rfl
  | cons token rest ih => cases token <;> simp [shown, ih]

theorem levelAppend (a b : List ClauseToken) (n : Nat) : level (a ++ b) n = (level a n).bind (level b) := by
  induction a generalizing n with
  | nil => rfl
  | cons token rest ih =>
    cases token with
    | words text => exact ih n
    | opening => exact ih (n + 1)
    | closing =>
      cases n with
      | zero => rfl
      | succ n => exact ih n

theorem levelBelow {tokens : List ClauseToken} {n m : Nat} (found : level tokens n = some m) (more : Nat) :
    level tokens (n + more) = some (m + more) := by
  induction tokens generalizing n with
  | nil =>
    cases found
    rfl
  | cons token rest ih =>
    cases token with
    | words text => exact ih found
    | opening =>
      have later := ih (found : level rest (n + 1) = some m)
      rwa [Nat.add_right_comm] at later
    | closing =>
      cases n with
      | zero => contradiction
      | succ n =>
        rw [Nat.add_right_comm]
        exact ih (found : level rest n = some m)

theorem balancedAppend {a b : List ClauseToken} (first : Balanced a) (later : Balanced b) : Balanced (a ++ b) := by
  rw [Balanced, levelAppend, first]
  exact later

theorem balancedGroup {inside : List ClauseToken} (balanced : Balanced inside) :
    Balanced (.opening :: inside ++ [.closing]) := by
  have deeper : level inside 1 = some 1 := levelBelow balanced 1
  have closed := levelAppend inside [.closing] 1
  rw [deeper] at closed
  exact closed

end ClauseToken

open ClauseToken (shown Balanced)

namespace Item

mutual
def tokens (keyword : Text) : Item → Clause → List ClauseToken
  | .predicate c text, clause => [.words (clause.joint keyword c ++ text)]
  | .group c items, clause =>
    if shown (tokensAll keyword items (clause.openGroup keyword c)) = [] then []
    else
      .words (clause.joint keyword c) ::
        (.opening :: tokensAll keyword items (clause.openGroup keyword c) ++ [.closing])

def tokensAll (keyword : Text) : List Item → Clause → List ClauseToken
  | [], _ => []
  | item :: rest, clause => tokens keyword item clause ++ tokensAll keyword rest (clause.receive keyword item)
end

mutual
theorem tokensBalanced (keyword : Text) (item : Item) (clause : Clause) : Balanced (item.tokens keyword clause) := by
  cases item with
  | predicate c text => rfl
  | group c items =>
    rw [tokens]
    split
    · rfl
    · exact ClauseToken.balancedGroup (tokensAllBalanced keyword items _)

theorem tokensAllBalanced (keyword : Text) (items : List Item) (clause : Clause) :
    Balanced (tokensAll keyword items clause) := by
  cases items with
  | nil => rfl
  | cons item rest =>
    exact ClauseToken.balancedAppend (tokensBalanced keyword item clause) (tokensAllBalanced keyword rest _)
end

end Item

namespace Clause

variable {keyword : Text}

theorem openGroupShown (inert : keyword.Inert) (c : Connective) (clause : Clause) :
    (clause.openGroup keyword c).text = clause.text ++ clause.joint keyword c ++ ['('] :=
  termText inert c clause ['(']

mutual
theorem receiveShown (inert : keyword.Inert) (item : Item) (clause : Clause) :
    (clause.receive keyword item).text = clause.text ++ shown (item.tokens keyword clause) := by
  cases item with
  | predicate c text =>
    rw [receive, Item.tokens, shown, shown, List.append_nil, ← List.append_assoc]
    exact termText inert c clause text
  | group c items =>
    rw [receive, receiveAllShown inert items, Item.tokens]
    simp only [List.append_right_eq_self]
    split
    · exact (List.append_nil _).symm
    · rw [openGroupShown inert]
      simp [shown, ClauseToken.shownAppend]

theorem receiveAllShown (inert : keyword.Inert) (items : List Item) (clause : Clause) :
    (clause.receiveAll keyword items).text = clause.text ++ shown (Item.tokensAll keyword items clause) := by
  cases items with
  | nil => exact (List.append_nil _).symm
  | cons item rest =>
    rw [receiveAll, receiveAllShown inert rest, receiveShown inert item, Item.tokensAll, ClauseToken.shownAppend,
      List.append_assoc]
end

theorem receiveGroup (inert : keyword.Inert) (c : Connective) (items : List Item) (clause : Clause) :
    clause.receive keyword (.group c items) =
      let written := shown (Item.tokensAll keyword items (clause.openGroup keyword c))
      if written = [] then clause else ⟨(clause.openGroup keyword c).text ++ written ++ [')'], .complete⟩ := by
  rw [receive, receiveAllShown inert]
  simp only [List.append_right_eq_self]

end Clause

namespace Step

def tokensAll (kind : ClauseKind) (body : List Step) (q : Query) : List ClauseToken :=
  Item.tokensAll kind.keyword (itemsAll kind body q) (q.clause kind)

theorem runShown {program : Program} (keeps : AllKeep program) (kind : ClauseKind) (q : Query) :
    ((run program q).clause kind).text = (q.clause kind).text ++ shown (tokensAll kind program q) ∧
      Balanced (tokensAll kind program q) := by
  rw [runReceives keeps kind q]
  exact ⟨Clause.receiveAllShown kind.keywordInert _ _, Item.tokensAllBalanced _ _ _⟩

section
variable {q : Query} (kind : ClauseKind) (c : Connective) {body : List Step} {inner : Query}
  (worked : applyAll body (q.openGroup kind c) = .ok inner)
include worked

theorem groupCarriedOut (keeps : AllKeep body) :
    (Step.nest (.group kind c) body).apply q =
      let written := shown (tokensAll kind body (q.openGroup kind c))
      .ok <| inner.withClause kind <|
        if written = [] then q.clause kind
        else ⟨((q.openGroup kind c).clause kind).text ++ written ++ [')'], .complete⟩ := by
  have received := runReceives keeps kind (q.openGroup kind c)
  rw [runIsApplyAll worked, Query.Receives, Query.clauseOpenGroup] at received
  simp only [apply, Nest.run, Nest.enter, Nest.leave, okBind, worked, Query.closeGroup, received,
    Clause.closeGroupReceived, Clause.receiveGroup kind.keywordInert, tokensAll, Query.clauseOpenGroup]

theorem groupClosesSafely (reached : q.Reachable) :
    let group : Step := .nest (.group kind c) body
    (∀ k, ((group.next q).clause k).ending = .empty ↔ ((group.next q).clause k).text = []) ∧
      (AllKeep body →
        let opened := ((q.openGroup kind c).clause kind).text
        let written := shown (tokensAll kind body (q.openGroup kind c))
        (inner.clause kind).text = opened ++ written ∧ (group.perform q).result = .ok () ∧
          group.next q = inner.withClause kind
            (if written = [] then q.clause kind else ⟨opened ++ written ++ [')'], .complete⟩) ∧
          ∀ k, ((group.next q).clause k).text = (q.clause k).text ++ shown (tokensAll k [group] q) ∧
            Balanced (tokensAll k [group] q)) := by
  intro group
  constructor
  · exact Query.soundInvariant.reachable (reached.step group)
  · intro keeps opened written
    have inside := (runShown keeps kind (q.openGroup kind c)).1
    rw [runIsApplyAll worked] at inside
    obtain ⟨accepted, closed⟩ := performOk (groupCarriedOut kind c worked keeps)
    have one : AllKeep [group] := ⟨keeps, trivial⟩
    exact ⟨inside, accepted, closed, fun k => runShown one k q⟩

end

theorem groupClosesAfterLetters :
    let q := (Step.call (.testRaw .filter "é" [] .and)).next (.blank .mysql)
    let having : List Step := [.call (.testRaw .having "k" [] .and), .call (.testRaw .filter "c" [] .or)]
    let body : List Step :=
      [.nest (.group .filter .or) [], .call (.testRaw .filter "ß)" [] .and), .nest (.group .having .xor) having]
    let group : Step := .nest (.group .filter Connective.or.not) body
    q.Reachable ∧ AllKeep body ∧ (∃ inner, applyAll body (q.openGroup .filter Connective.or.not) = .ok inner) ∧
      (group.perform q).result = .ok () ∧
      ((group.next q).clause .filter).text = "WHERE é OR NOT (ß) OR c)" ∧
      ((group.next q).clause .having).text = "HAVING (k)" ∧
      tokensAll .filter [group] q = [.words " OR NOT ", .opening, .words "ß)", .words " OR c", .closing] ∧
      Balanced (tokensAll .filter [group] q) := by
  intro q having body group
  have reached : q.Reachable := .step _ (.blank .mysql none)
  have keeps : AllKeep body := by
    simp [body, having, AllKeep, AllHold, Holds, Nest.Keeps, Call.Keeps]
  have carried : (applyAll body (q.openGroup .filter Connective.or.not)).isOk := by decide +kernel
  cases worked : applyAll body (q.openGroup .filter Connective.or.not) with
  | error fault =>
    rw [worked] at carried
    contradiction
  | ok inner =>
    obtain ⟨_, accepted, _, shown⟩ := (groupClosesSafely .filter Connective.or.not worked reached).2 keeps
    exact ⟨reached, keeps, ⟨inner, rfl⟩, accepted, by decide +kernel, by decide +kernel, by decide +kernel,
      (shown .filter).2⟩

/-- A callback that starts over. What it wrote is withdrawn if it is as long as what the group wrote, and closed
without having been opened otherwise. In the last group the former length lies within a letter. -/
theorem restartMisleadsGroup :
    let blank := Query.blank .mysql
    let group (body : List Step) : Step := .nest (.group .filter .and) (.call .restart :: body)
    let write (text : String) : Step := .call (.testRaw .filter text [] .and)
    ((group [write "x"]).next blank).compile = "SELECT *" ∧
      ((group [write "a = 1"]).next blank).compile = "SELECT * WHERE a = 1)" ∧
      ((group [write "éabcde"]).perform ((write "a").next blank)).result = .error .splitCharacter := by
  refine ⟨?_, ?_, rfl⟩ <;> decide +kernel

end Step
end SelectBuilder
