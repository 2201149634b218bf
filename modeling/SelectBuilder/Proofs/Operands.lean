import SelectBuilder.Proofs.TwinQueries

/-! Unions read from their text. A legible text ends outside quotes and has its parentheses balanced; its outside is
the words outside all parentheses. A query shows the words of a tail or a union there only if it has one, so these
words tell which operands a dialect without parentheses must select from. Operands show none of them, and what is left
outside is the marks of the unions and the tail of the whole. -/
namespace SelectBuilder
open Text

namespace Text

def Legible (text : Text) : Prop := text.Closed ∧ (outer text.exposed).isSome

instance (text : Text) : Decidable text.Legible := inferInstanceAs (Decidable (_ ∧ _))

def outside (text : Text) : List Text := (outer text.exposed).getD []

def showsTail (text : Text) : Bool := text.outside.any fun word => word ∈ tailWords

theorem legibleOuter {text : Text} (legible : text.Legible) : outer text.exposed = some text.outside := by
  obtain ⟨found, outside⟩ := Option.isSome_iff_exists.mp legible.2
  simp [Text.outside, outside]

theorem legibleOf {text : Text} {found : List Text} (closed : text.Closed) (read : outer text.exposed = some found) :
    text.Legible ∧ text.outside = found :=
  ⟨⟨closed, by rw [read]; rfl⟩, by rw [outside, read]; rfl⟩

theorem legibleAppend {a b : Text} (left : a.Legible) (right : b.Legible) (apart : a.LooseEnd ∨ b.LooseStart) :
    (a ++ b).Legible ∧ (a ++ b).outside = a.outside ++ b.outside := by
  refine legibleOf (closedAppend left.1 right.1) ?_
  rw [exposedAppend left.1 apart]
  exact outerAppend (legibleOuter left) (legibleOuter right)

theorem legibleJoined {parts : List Text} (legible : ∀ part ∈ parts, part.Legible) :
    (joined " " parts).Legible ∧ (joined " " parts).outside = parts.flatMap outside := by
  induction parts with
  | nil => exact ⟨by decide, rfl⟩
  | cons part rest ih =>
    obtain ⟨first, later⟩ := List.forall_mem_cons.mp legible
    cases rest with
    | nil => simpa [joined] using first
    | cons next rest =>
      have space : Legible " " ∧ LooseStart " " ∧ outside " " = [] := by decide
      obtain ⟨front, before⟩ := legibleAppend first space.1 (.inr space.2.1)
      obtain ⟨others, after⟩ := ih later
      have loose : LooseEnd (part ++ " ") := looseAppend first.1 (by decide) (by decide)
      obtain ⟨whole, same⟩ := legibleAppend front others (.inl loose)
      rw [joinedCons " " part (by simp), same, before, after, space.2.2, List.append_nil]
      exact ⟨whole, rfl⟩

theorem outsideCollapse (text : Text) : (collapse text).outside = text.outside := by
  rw [outside, exposedCollapse, ← outside]

theorem legibleCollapse {text : Text} (legible : text.Legible) : (collapse text).Legible :=
  ⟨closedCollapse legible.1, by rw [exposedCollapse]; exact legible.2⟩

theorem showsCollapse (text : Text) : (collapse text).showsTail = text.showsTail := by
  rw [showsTail, outsideCollapse, ← showsTail]

theorem legibleEnclosed {text : Text} (legible : text.Legible) :
    Legible (['('] ++ text ++ [')']) ∧ outside (['('] ++ text ++ [')']) = [['('], [')']] := by
  refine legibleOf (closedEnclosed legible.1) ?_
  rw [exposedEnclosed legible.1]
  exact outerEnclosed (legibleOuter legible)

variable {hidden : List Text}

theorem twinLegible {a b : Text} (twin : Twin hidden a b) : a.Legible ∧ ∀ word ∈ a.outside, word ∉ hidden := by
  obtain ⟨_, found, read, apart⟩ := twin.plain
  obtain ⟨legible, rfl⟩ := legibleOf twin.closed read
  exact ⟨legible, apart⟩

theorem twinsLegible {a b : List Text} (twins : Twins hidden a b) :
    ∀ part ∈ a, part.Legible ∧ ∀ word ∈ part.outside, word ∉ hidden := by
  induction twins with
  | nil => simp
  | cons first _ ih => exact List.forall_mem_cons.mpr ⟨twinLegible first, ih⟩

theorem showsNothing {text : Text} (apart : ∀ word ∈ text.outside, word ∉ tailWords) : text.showsTail = false := by
  simpa [showsTail] using apart

theorem showsAppend {a b : Text} (left : a.Legible) (right : b.Legible) (apart : a.LooseEnd ∨ b.LooseStart) :
    (a ++ b).showsTail = (a.showsTail || b.showsTail) := by
  rw [showsTail, (legibleAppend left right apart).2, List.any_append, ← showsTail, ← showsTail]

theorem showsJoined {parts : List Text} (legible : ∀ part ∈ parts, part.Legible) :
    (joined " " parts).showsTail = parts.any showsTail := by
  rw [showsTail, (legibleJoined legible).2, List.any_flatMap]
  rfl

end Text

/-! Tails and bases. -/

namespace Tail

theorem shows {t t' : Tail} (twin : t.Twin t') : t.parts.any showsTail = !t.isEmpty := by
  have head {word more : Text} (holds : word.Legible ∧ word.LooseEnd ∧ word.showsTail) (legible : more.Legible) :
      (word ++ more).showsTail := by
    rw [showsAppend holds.1 legible (.inl holds.2.1), holds.2.2, Bool.true_or]
  have order : Legible "ORDER BY " ∧ LooseEnd "ORDER BY " ∧ showsTail "ORDER BY " := by decide +kernel
  have count : Legible "LIMIT " ∧ LooseEnd "LIMIT " ∧ showsTail "LIMIT " := by decide +kernel
  have skip : Legible "OFFSET " ∧ LooseEnd "OFFSET " ∧ showsTail "OFFSET " := by decide +kernel
  have comma : Spacer tailWords ", " := spacerOf (by decide +kernel)
  have terms : (if t.orders = [] then [] else ["ORDER BY " ++ joined ", " t.orders]).any showsTail =
      !t.orders.isEmpty := by
    have whole := head order (twinLegible (twinJoined comma twin.orders)).1
    split
    · rename_i unordered
      simp [unordered]
    · rename_i ordered
      have written : t.orders.isEmpty = false := by simpa using ordered
      rw [List.any_cons, List.any_nil, whole, written]
      rfl
  have number {word : Text} (holds : word.Legible ∧ word.LooseEnd ∧ word.showsTail) (n : Option Nat) :
      (n.toList.map (word ++ ofNat ·)).any showsTail = n.isSome := by
    cases n with
    | none => rfl
    | some n =>
      have whole := head holds (twinLegible (numberTwin n)).1
      simp [whole]
  rw [parts, List.any_append, List.any_append, terms, number count, number skip, isEmpty]
  cases t.orders.isEmpty <;> cases t.limit <;> cases t.offset <;> rfl

theorem partsEnd {t t' : Tail} (twin : t.Twin t') : ∀ part ∈ t.parts, endsWord part := by
  have number (word : Text) (n : Option Nat) : ∀ part ∈ n.toList.map (word ++ ofNat ·), endsWord part := by
    cases n with
    | none => simp
    | some n => simpa using endsAppendWord word (numberEnds n)
  intro part member
  simp only [parts, List.mem_append] at member
  obtain (inOrders | inLimit) | inOffset := member
  · split at inOrders
    · contradiction
    · rename_i ordered
      rw [List.mem_singleton.mp inOrders]
      exact endsAppendWord _ (joinedEndsWord _ ordered twin.ends)
  · exact number "LIMIT " _ part inLimit
  · exact number "OFFSET " _ part inOffset

end Tail

namespace Query

variable {q : Query}

def Readable (q : Query) : Prop := ∃ root root' r, root.Fresh ∧ root'.Fresh ∧ Twin root root' q r

theorem baseStarts (q : Query) : startsWord q.base := by
  have select : startsWord q.selectPart := by
    unfold selectPart
    cases q.distinct <;> exact startsAppendWord (by decide) _
  have first : ∃ rest, q.base = q.selectPart ++ rest := by
    rw [base, baseParts]
    simp only [List.cons_append, Clause.joinedSpace]
    exact ⟨_, rfl⟩
  obtain ⟨rest, split⟩ := first
  rw [split]
  exact startsAppendWord select rest

theorem baseShows (readable : q.Readable) :
    q.base.showsTail = !q.tail.isEmpty ∧ (q.tail.isEmpty = false → endsWord q.base) := by
  obtain ⟨root, root', r, fresh, fresh', twin⟩ := readable
  have body := twinsLegible (bodyTwins fresh fresh' twin)
  have tail := twinsLegible (Tail.partsTwin twin.tail)
  have split : q.base = Text.joined " " (q.bodyParts ++ q.tail.parts) := rfl
  have legible : ∀ part ∈ q.bodyParts ++ q.tail.parts, part.Legible :=
    List.forall_mem_append.mpr ⟨fun part member => (body part member).1, fun part member => (tail part member).1⟩
  have silent : q.bodyParts.any showsTail = false := by
    rw [List.any_eq_false]
    intro part member
    simp [showsNothing (body part member).2]
  have shows := Tail.shows twin.tail
  refine ⟨by rw [split, showsJoined legible, List.any_append, silent, shows, Bool.false_or], ?_⟩
  intro tail
  have parts : q.tail.parts ≠ [] := by
    intro nothing
    simp [nothing, tail] at shows
  have front : q.bodyParts ≠ [] := List.cons_ne_nil _ _
  rw [split, joinedAppend " " front parts]
  exact endsAppendWord _ (joinedEndsWord _ parts (Tail.partsEnd twin.tail))

theorem encloseStarts (d : Dialect) {sql : Text} (starts : startsWord sql) (closed : Bool) :
    startsWord (enclose d sql closed) := by
  unfold enclose
  split
  · rfl
  · split
    · rfl
    · exact starts

theorem compileVisible (q : Query) : words q.compile ≠ [] := by
  have first : ∃ part rest, q.parts = part :: rest ∧ startsWord part := by
    unfold parts
    split
    · exact ⟨_, _, rfl, q.baseStarts⟩
    · exact ⟨_, _, rfl, encloseStarts q.dialect q.baseStarts _⟩
  obtain ⟨part, rest, split, starts⟩ := first
  rw [compile, wordsCollapse, wordsJoined, split]
  simp [wordsNonempty starts]

end Query

/-- In parentheses; a dialect without them selects from an operand that shows a tail or a union. -/
def Dialect.operand (d : Dialect) (sql gap : Text) : Text :=
  match d with
  | .sqlite => if sql.showsTail then "SELECT * FROM (" ++ sql ++ ")" else sql
  | _ => ['('] ++ sql ++ gap ++ [')']

/-- Nothing outside its parentheses belongs to a tail or a union; where the dialect has them, all of it is inside. -/
structure Text.Sealed (d : Dialect) (text : Text) : Prop where
  legible : text.Legible
  apart : ∀ word ∈ text.outside, word ∉ tailWords
  wrapped : d ≠ .sqlite → text.outside = [['('], [')']]

structure UnionCall where
  all : Bool
  child : Query

def UnionCall.part (call : UnionCall) : UnionPart := ⟨call.all, call.child.compile, call.child.isClosed⟩

def markers : List Text → List Bool
  | [] => []
  | word :: rest => if word = "UNION" then (rest.head? = some ("ALL" : Text)) :: markers rest else markers rest

theorem markersApart {a : List Text} (apart : ∀ word ∈ a, word ∉ unionWords) (b : List Text) :
    markers (a ++ b) = markers b := by
  induction a with
  | nil => rfl
  | cons word rest ih =>
    obtain ⟨first, later⟩ := List.forall_mem_cons.mp apart
    have other : word ≠ "UNION" := by
      rintro rfl
      exact first List.mem_cons_self
    rw [List.cons_append, markers, if_neg other, ih later]

theorem headApart {a : List Text} (apart : ∀ word ∈ a, word ∉ unionWords) {b : List Text}
    (other : b.head? ≠ some ("ALL" : Text)) : (a ++ b).head? ≠ some ("ALL" : Text) := by
  cases a with
  | nil => exact other
  | cons word rest =>
    intro same
    cases Option.some.inj same
    exact apart "ALL" List.mem_cons_self (by decide)

namespace Query

theorem keywordOutside (all : Bool) :
    (unionKeyword all).outside = ("UNION" : Text) :: (if all then [("ALL" : Text)] else []) := by
  cases all <;> decide +kernel

theorem keywordShows (all : Bool) : (unionKeyword all).showsTail := by
  cases all <;> decide +kernel

theorem keywordCollapse (all : Bool) : collapse (unionKeyword all) = unionKeyword all := by
  cases all <;> rfl

theorem keywordVisible (all : Bool) : words (unionKeyword all) ≠ [] := by
  cases all <;> exact wordsNonempty rfl

theorem markersKeyword (all : Bool) {rest : List Text} (other : rest.head? ≠ some ("ALL" : Text)) :
    markers ((unionKeyword all).outside ++ rest) = all :: markers rest := by
  rw [keywordOutside]
  cases all with
  | true => simp [markers]
  | false => simpa [markers] using other

theorem operandCollapse (d : Dialect) {sql : Text} (starts : startsWord sql) {closed : Bool}
    (shows : sql.showsTail = closed) (ends : closed → endsWord sql) :
    collapse (enclose d sql closed) = d.operand (collapse sql) sql.gap := by
  have bracket : startsWord [')'] ∧ collapse [')'] = [')'] ∧ endsWord ['('] ∧ collapse ['('] = ['('] := by decide
  have derived : endsWord "SELECT * FROM (" ∧ collapse "SELECT * FROM (" = "SELECT * FROM (" := by decide +kernel
  have wrapped := collapseBetween bracket.2.2.1 starts bracket.1
  rw [bracket.2.1, bracket.2.2.2] at wrapped
  cases d with
  | sqlite =>
    cases closed with
    | true =>
      -- A tail and a union end in a word, so nothing is left between them and the parenthesis.
      have solid : sql.gap = [] := if_pos (ends rfl)
      have whole := collapseBetween derived.1 starts bracket.1
      rw [derived.2, bracket.2.1, solid, List.append_nil] at whole
      simp only [Dialect.operand, showsCollapse, shows]
      exact whole
    | false => simp [Dialect.operand, showsCollapse, shows, enclose, Dialect.wrapsUnionParts]
  | _ => exact wrapped

theorem encloseSealed (d : Dialect) {closed : Bool} {sql sql' : Text} (twin : Text.Twin (hiddenIn closed) sql sql') :
    Text.Sealed d (enclose d sql closed) := by
  obtain ⟨legible, apart⟩ := twinLegible (encloseTwin d closed twin)
  have enclosed := (legibleEnclosed (twinLegible twin).1).2
  refine ⟨legible, apart, ?_⟩
  intro wraps
  cases d with
  | sqlite => contradiction
  | _ => exact enclosed

theorem sealedCollapse {d : Dialect} {text : Text} (closed : Text.Sealed d text) : Text.Sealed d (collapse text) := by
  obtain ⟨legible, apart, wrapped⟩ := closed
  rw [← outsideCollapse] at apart wrapped
  exact ⟨legibleCollapse legible, apart, wrapped⟩

variable {q : Query}

theorem compileShows (readable : q.Readable) : q.compile.showsTail = q.isClosed := by
  have base := (baseShows readable).1
  obtain ⟨root, root', r, fresh, fresh', twin⟩ := readable
  rw [compile, showsCollapse]
  by_cases single : q.unions = []
  · have alone : Text.joined " " [q.base] = q.base := by simp [Text.joined]
    rw [parts, if_pos single, alone, base, isClosed, single]
    simp
  · have legible := twinsLegible (partsTwins fresh fresh' twin single)
    obtain ⟨part, rest, same⟩ := List.exists_cons_of_ne_nil single
    have keyword : unionKeyword part.all ∈ q.parts := by
      rw [parts, if_neg single, same]
      simp [unionParts]
    have shows : q.parts.any showsTail := List.any_eq_true.mpr ⟨_, keyword, keywordShows part.all⟩
    rw [showsJoined fun part member => (legible part member).1, shows]
    simp [isClosed, single]

/-! The statement of a union. -/

variable {calls : List UnionCall}

def called (d : Dialect) (calls : List UnionCall) : List Text :=
  calls.flatMap fun call => [unionKeyword call.all, enclose d call.child.compile call.child.isClosed]

theorem partsCalled (united : calls ≠ []) (made : q.unions = calls.map UnionCall.part) :
    q.parts = [enclose q.dialect q.base !q.tail.isEmpty] ++ called q.dialect calls ++ q.unionTail.parts := by
  have unions : q.unions ≠ [] := by simpa [made] using united
  rw [parts, if_neg unions, made, called, unionParts, List.flatMap_map]
  rfl

theorem childOperand (d : Dialect) (readable : q.Readable) :
    collapse (enclose d q.compile q.isClosed) = d.operand q.compile [] ∧ Text.Sealed d (d.operand q.compile []) := by
  have visible := q.compileVisible
  have once : collapse q.compile = q.compile := collapseTwice _
  have starts : startsWord q.compile := once ▸ startsCollapse visible
  have ends : endsWord q.compile := once ▸ endsCollapse visible
  have solid : q.compile.gap = [] := if_pos ends
  have collapsed := operandCollapse d starts (compileShows readable) fun _ => ends
  rw [once, solid] at collapsed
  obtain ⟨root, root', r, fresh, fresh', twin⟩ := readable
  exact ⟨collapsed, collapsed ▸ sealedCollapse (encloseSealed d (compileTwin fresh fresh' twin))⟩

theorem compileAlone (q : Query) : { q with unions := [] }.compile = collapse q.base := by
  have one : Text.joined " " [q.base] = q.base := by simp [Text.joined]
  exact congrArg collapse one

theorem baseOperand (readable : q.Readable) :
    collapse (enclose q.dialect q.base !q.tail.isEmpty) =
      q.dialect.operand { q with unions := [] }.compile q.base.gap ∧
    Text.Sealed q.dialect (q.dialect.operand { q with unions := [] }.compile q.base.gap) := by
  obtain ⟨shows, ends⟩ := baseShows readable
  have collapsed := operandCollapse q.dialect q.baseStarts shows (by simpa using ends)
  obtain ⟨root, root', r, fresh, fresh', twin⟩ := readable
  have whole := sealedCollapse (encloseSealed q.dialect (baseTwin fresh fresh' twin))
  rw [compileAlone, ← collapsed]
  exact ⟨rfl, whole⟩

theorem calledCollapse (d : Dialect) (children : ∀ call ∈ calls, call.child.Readable) :
    (called d calls).map collapse =
      calls.flatMap fun call => [unionKeyword call.all, d.operand call.child.compile []] := by
  rw [called, List.map_flatMap]
  refine List.flatMap_congr fun call member => ?_
  simp only [List.map_cons, List.map_nil, keywordCollapse, (childOperand d (children call member)).1]

theorem partsVisible (readable : q.Readable) (made : q.unions = calls.map UnionCall.part) :
    ∀ part ∈ q.parts, words part ≠ [] := by
  have enclosed {sql : Text} (starts : startsWord sql) (closed : Bool) : words (enclose q.dialect sql closed) ≠ [] :=
    wordsNonempty (encloseStarts q.dialect starts closed)
  by_cases noCalls : calls = []
  · have alone : q.parts = [q.base] := if_pos (by simpa [noCalls] using made)
    simpa [alone] using wordsNonempty q.baseStarts
  · obtain ⟨root, root', r, fresh, fresh', twin⟩ := readable
    rw [partsCalled noCalls made]
    intro part member
    simp only [called, List.mem_append, List.mem_flatMap, List.mem_cons, List.not_mem_nil, or_false] at member
    obtain (rfl | ⟨call, _, rfl | rfl⟩) | tail := member
    · exact enclosed q.baseStarts _
    · exact keywordVisible call.all
    · exact enclosed (startsCollapse (by simpa only [compile, wordsCollapse] using call.child.compileVisible)) _
    · exact wordsAtEnd (Tail.partsEnd twin.unionTail part tail)

theorem markersCalled (d : Dialect) (children : ∀ call ∈ calls, call.child.Readable) {tail : List Text}
    (apart : ∀ word ∈ tail, word ∉ unionWords) :
    ((called d calls).flatMap outside ++ tail).head? ≠ some ("ALL" : Text) ∧
      markers ((called d calls).flatMap outside ++ tail) = calls.map UnionCall.all := by
  induction calls with
  | nil =>
    have alone := And.intro (headApart apart (b := []) (by simp)) (markersApart apart [])
    rwa [List.append_nil] at alone
  | cons call rest ih =>
    obtain ⟨⟨root, root', r, fresh, fresh', twin⟩, others⟩ := List.forall_mem_cons.mp children
    obtain ⟨start, marks⟩ := ih others
    have fewer : ∀ word ∈ unionWords, word ∈ tailWords := by decide
    have hidden := (encloseSealed d (compileTwin fresh fresh' twin)).apart
    have unheard := fun word member inside => hidden word member (fewer word inside)
    have split : (called d (call :: rest)).flatMap outside ++ tail = (unionKeyword call.all).outside ++
        ((enclose d call.child.compile call.child.isClosed).outside ++ ((called d rest).flatMap outside ++ tail)) := by
      simp only [called, List.flatMap_cons, List.flatMap_append, List.flatMap_nil, List.append_nil, List.append_assoc]
    rw [split, markersKeyword call.all (headApart unheard start), markersApart unheard, marks, keywordOutside]
    exact ⟨by simp, rfl⟩

theorem compileMarkers (readable : q.Readable) (united : calls ≠ []) (made : q.unions = calls.map UnionCall.part)
    (children : ∀ call ∈ calls, call.child.Readable) :
    q.compile.Legible ∧ markers q.compile.outside = calls.map UnionCall.all := by
  obtain ⟨root, root', r, fresh, fresh', twin⟩ := readable
  have unions : q.unions ≠ [] := by simpa [made] using united
  have legible := fun part member => (twinsLegible (partsTwins fresh fresh' twin unions) part member).1
  obtain ⟨whole, read⟩ := legibleJoined legible
  have fewer : ∀ word ∈ unionWords, word ∈ tailWords := by decide
  have first := encloseSealed q.dialect (baseTwin fresh fresh' twin)
  have front : ∀ word ∈ (enclose q.dialect q.base !q.tail.isEmpty).outside, word ∉ unionWords :=
    fun word member inside => first.apart word member (fewer word inside)
  have tail : ∀ word ∈ q.unionTail.parts.flatMap outside, word ∉ unionWords := by
    intro word member
    obtain ⟨part, inside, among⟩ := List.mem_flatMap.mp member
    exact (twinsLegible (Tail.partsTwin twin.unionTail) part inside).2 word among
  refine ⟨legibleCollapse whole, ?_⟩
  rw [compile, outsideCollapse, read, partsCalled united made, List.flatMap_append, List.flatMap_append,
    List.flatMap_singleton, List.append_assoc, markersApart front]
  exact (markersCalled q.dialect children tail).2

theorem tailApart (readable : q.Readable) :
    ∀ part ∈ q.unionTail.parts.map collapse, part.Legible ∧ ∀ word ∈ part.outside, word ∉ unionWords := by
  obtain ⟨root, root', r, _, _, twin⟩ := readable
  intro part member
  obtain ⟨long, inside, rfl⟩ := List.mem_map.mp member
  obtain ⟨legible, apart⟩ := twinsLegible (Tail.partsTwin twin.unionTail) long inside
  rw [outsideCollapse]
  exact ⟨legibleCollapse legible, apart⟩

structure Unites (q : Query) (calls : List UnionCall) : Prop where
  text : q.compile = Text.joined " "
    ([q.dialect.operand { q with unions := [] }.compile q.base.gap] ++
      (calls.flatMap fun call => [unionKeyword call.all, q.dialect.operand call.child.compile []]) ++
      q.unionTail.parts.map collapse)
  first : Text.Sealed q.dialect (q.dialect.operand { q with unions := [] }.compile q.base.gap)
  later : ∀ call ∈ calls, Text.Sealed q.dialect (q.dialect.operand call.child.compile [])
  tail : ∀ part ∈ q.unionTail.parts.map collapse, part.Legible ∧ ∀ word ∈ part.outside, word ∉ unionWords
  legible : q.compile.Legible
  marks : markers q.compile.outside = calls.map UnionCall.all
  shows : { q with unions := [] }.compile.showsTail = !q.tail.isEmpty
  childrenShow : ∀ call ∈ calls, call.child.compile.showsTail = call.child.isClosed

theorem readableUnites (readable : q.Readable) (united : calls ≠ []) (made : q.unions = calls.map UnionCall.part)
    (children : ∀ call ∈ calls, call.child.Readable) : q.Unites calls := by
  obtain ⟨collapsed, first⟩ := baseOperand readable
  obtain ⟨legible, marks⟩ := compileMarkers readable united made children
  have text : q.compile = _ := collapseJoined (partsVisible readable made)
  rw [partsCalled united made, List.map_append, List.map_append, calledCollapse q.dialect children, List.map_singleton,
    collapsed] at text
  have later := fun call member => (childOperand q.dialect (children call member)).2
  have shows := (baseShows readable).1
  rw [← showsCollapse, ← compileAlone] at shows
  exact ⟨text, first, later, tailApart readable, legible, marks, shows, fun call member =>
    compileShows (children call member)⟩

end Query
end SelectBuilder
