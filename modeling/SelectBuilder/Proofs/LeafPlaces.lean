import Mathlib.Data.List.Infix
import SelectBuilder.Proofs.Reachable

/-! Where the leaves of an argument stand in its text, and where among what it binds. A way down the lists of an
argument leads to one member, whose text stands behind the texts of what comes before it, each with a comma, and whose
entries stand behind theirs. The question marks that are not of written SQL are those of the leaves, and they come in
the order of the entries. For a row of arguments this holds text by text, and for the texts joined. -/
namespace SelectBuilder

namespace Text
variable {text : Text} {rest : List Text} {c : Char} {i : Nat}

theorem joinedBegins (text : Text) (rest : List Text) : text <+: joined "," (text :: rest) := by
  cases rest with
  | nil => simp [joined]
  | cons next more =>
    rw [joinedCons "," text (List.cons_ne_nil next more), List.append_assoc]
    exact List.prefix_append _ _

theorem joinedBehind (text : Text) (nonempty : rest ≠ []) :
    (joined "," (text :: rest)).drop (text.length + 1) = joined "," rest := by
  rw [joinedCons "," text nonempty, ← List.drop_drop, List.append_assoc, List.drop_left]
  rfl

theorem joinedFirst (found : text[i]? = some c) : (joined "," (text :: rest))[i]? = some c := by
  obtain ⟨inside, rfl⟩ := List.getElem?_eq_some_iff.mp found
  exact List.prefix_iff_getElem?.mp (joinedBegins text rest) i inside

theorem joinedLater (found : (joined "," rest)[i]? = some c) :
    (joined "," (text :: rest))[text.length + 1 + i]? = some c := by
  have nonempty : rest ≠ [] := by
    rintro rfl
    simp [joined] at found
  rw [← List.getElem?_drop, joinedBehind text nonempty, found]

theorem joinedFound (found : (joined "," (text :: rest))[i]? = some c) :
    text[i]? = some c ∨ c = ',' ∨ ∃ k, i = text.length + 1 + k ∧ (joined "," rest)[k]? = some c := by
  cases rest with
  | nil => exact .inl (by simpa [joined] using found)
  | cons next more =>
    have nonempty := List.cons_ne_nil next more
    rcases Nat.lt_trichotomy i text.length with before | rfl | behind
    · rw [joinedCons "," text nonempty, List.append_assoc, List.getElem?_append_left before] at found
      exact .inl found
    · rw [joinedCons "," text nonempty, List.append_assoc, List.getElem?_append_right Nat.le.refl, Nat.sub_self] at found
      exact .inr (.inl (Option.some.inj found).symm)
    · obtain ⟨k, rfl⟩ := Nat.exists_eq_add_of_le (Nat.succ_le_of_lt behind)
      rw [← List.getElem?_drop, joinedBehind text nonempty] at found
      exact .inr (.inr ⟨k, rfl, found⟩)

end Text

namespace Arg

/-- The way, a number for each list it goes down, leads to a member whose text stands behind this many characters and
whose entries stand behind this many others. -/
inductive Leads : Arg → List Nat → Nat → Nat → Arg → Prop
  | here {arg : Arg} : Leads arg [] 0 0 arg
  | first {arg inner : Arg} {rest : List Arg} {way : List Nat} {place rank : Nat}
    (inside : Leads arg way place rank inner) : Leads (.list (arg :: rest)) (0 :: way) place rank inner
  | later {arg inner : Arg} {rest : List Arg} {n : Nat} {way : List Nat} {place rank : Nat}
    (inside : Leads (.list rest) (n :: way) place rank inner) :
    Leads (.list (arg :: rest)) ((n + 1) :: way) (arg.placeholder.length + 1 + place) (arg.leaves.length + rank) inner

def Written (arg : Arg) (i : Nat) : Prop :=
  ∃ way place rank sql, arg.Leads way place rank (.raw sql) ∧ place ≤ i ∧ i < place + sql.length

/-- The question marks of a text and the entries are those of the argument's leaves, one by one and in order: the leaf
at each end of a pair is the same, reached by one way only. What else is in the text is written SQL or a comma. -/
structure Matches (arg : Arg) (text : Text) (places : List Nat) (entries : List Arg) : Prop where
  ordered : places.Pairwise (· < ·)
  drawn : ∀ i, i ∈ places ↔ text[i]? = some '?' ∧ ¬ arg.Written i
  otherwise : ∀ {i : Nat} {c : Char}, text[i]? = some c → i ∈ places ∨ arg.Written i ∨ c = ','
  framed : ∀ {way : List Nat} {place rank : Nat} {inner : Arg}, arg.Leads way place rank inner →
    inner.placeholder <+: text.drop place ∧ inner.leaves <+: entries.drop rank
  paired : places.length = entries.length
  met : ∀ {way : List Nat} {place rank : Nat} {leaf : Arg}, leaf.IsLeaf → arg.Leads way place rank leaf →
    places[rank]? = some place ∧ entries[rank]? = some leaf
  reached : ∀ rank < entries.length, ∃! way, ∃ place leaf, leaf.IsLeaf ∧ arg.Leads way place rank leaf

inductive MatchesAll : List Arg → List Text → List (List Nat) → List Arg → Prop
  | nil : MatchesAll [] [] [] []
  | cons {arg : Arg} {text : Text} {places : List Nat} {entries others : List Arg} {items : List Arg}
    {texts : List Text} {rows : List (List Nat)} (first : Matches arg text places entries)
    (later : MatchesAll items texts rows others) :
    MatchesAll (arg :: items) (text :: texts) (places :: rows) (entries ++ others)

variable {arg inner : Arg} {rest : List Arg} {way : List Nat} {place rank i : Nat}

theorem listLeaves (arg : Arg) (rest : List Arg) :
    (Arg.list (arg :: rest)).leaves = arg.leaves ++ (Arg.list rest).leaves := rfl

theorem leadsFramed (leads : arg.Leads way place rank inner) :
    inner.placeholder <+: arg.placeholder.drop place ∧ inner.leaves <+: arg.leaves.drop rank := by
  induction leads with
  | here => exact ⟨List.prefix_rfl, List.prefix_rfl⟩
  | @first arg inner rest _ place rank _ ih =>
    obtain ⟨shown, bound⟩ := ih
    have begins := Text.joinedBegins arg.placeholder (placeholders rest)
    have starts := List.prefix_append arg.leaves (leavesOf rest)
    exact ⟨shown.trans (List.IsPrefix.drop begins place), bound.trans (List.IsPrefix.drop starts rank)⟩
  | @later arg inner rest n _ place rank inside ih =>
    obtain ⟨shown, bound⟩ := ih
    have nonempty : placeholders rest ≠ [] := by
      cases inside <;> exact List.cons_ne_nil _ _
    constructor
    · rw [← List.drop_drop, placeholder, placeholders, Text.joinedBehind _ nonempty]
      exact shown
    · rw [← List.drop_drop, listLeaves, List.drop_left]
      exact bound

theorem leadsCases (alone : ∀ items, inner ≠ .list items)
    (leads : (Arg.list (arg :: rest)).Leads way place rank inner) :
    (∃ tail, way = 0 :: tail ∧ arg.Leads tail place rank inner) ∨
      ∃ n tail k r, way = (n + 1) :: tail ∧ place = arg.placeholder.length + 1 + k ∧ rank = arg.leaves.length + r ∧
        (Arg.list rest).Leads (n :: tail) k r inner := by
  cases leads with
  | here => exact absurd rfl (alone _)
  | first inside => exact .inl ⟨_, rfl, inside⟩
  | later inside => exact .inr ⟨_, _, _, _, rfl, rfl, rfl, inside⟩

theorem leadsAlone (alone : ∀ items, arg ≠ .list items) (leads : arg.Leads way place rank inner) :
    way = [] ∧ place = 0 ∧ rank = 0 ∧ inner = arg := by
  cases leads with
  | here => exact ⟨rfl, rfl, rfl, rfl⟩
  | first | later => exact absurd rfl (alone _)

theorem leadsDown {items : List Arg} (alone : ∀ items, inner ≠ .list items)
    (leads : (Arg.list items).Leads way place rank inner) : ∃ n tail, way = n :: tail := by
  cases leads with
  | here => exact absurd rfl (alone _)
  | first | later => exact ⟨_, _, rfl⟩

theorem leafAlone (leaf : arg.IsLeaf) (items : List Arg) : arg ≠ .list items := by
  rintro rfl
  exact leaf

theorem rawAlone (sql : Text) (items : List Arg) : Arg.raw sql ≠ .list items := nofun

theorem writtenInside (written : arg.Written i) : i < arg.placeholder.length := by
  obtain ⟨way, place, rank, sql, leads, start, before⟩ := written
  have fits := (leadsFramed leads).1.length_le
  rw [placeholder, List.length_drop] at fits
  omega

theorem writtenCases : (Arg.list (arg :: rest)).Written i ↔
    arg.Written i ∨ ∃ k, i = arg.placeholder.length + 1 + k ∧ (Arg.list rest).Written k := by
  constructor
  · rintro ⟨way, place, rank, sql, leads, start, before⟩
    rcases leadsCases (rawAlone sql) leads with ⟨tail, _, inside⟩ | ⟨n, tail, k, r, _, rfl, _, inside⟩
    · exact .inl ⟨tail, place, rank, sql, inside, start, before⟩
    · exact .inr ⟨i - (arg.placeholder.length + 1), by omega, n :: tail, k, r, sql, inside, by omega, by omega⟩
  · rintro (⟨way, place, rank, sql, leads, within⟩ | ⟨k, rfl, way, place, rank, sql, leads, start, before⟩)
    · exact ⟨0 :: way, place, rank, sql, .first leads, within⟩
    · obtain ⟨n, tail, rfl⟩ := leadsDown (rawAlone sql) leads
      exact ⟨(n + 1) :: tail, _, _, sql, .later leads, by omega, by omega⟩

theorem leafMatches (leaf : arg.IsLeaf) : arg.Matches arg.placeholder [0] arg.leaves := by
  have alone := leafAlone leaf
  have shown : arg.placeholder = ['?'] := by
    cases arg <;> first | rfl | exact leaf.elim
  have bound : arg.leaves = [arg] := by
    cases arg <;> first | rfl | exact leaf.elim
  have unwritten (i : Nat) : ¬ arg.Written i := by
    rintro ⟨_, _, _, sql, leads, _⟩
    obtain ⟨_, _, _, rfl⟩ := leadsAlone alone leads
    exact leaf
  refine ⟨List.pairwise_singleton _ _, fun i => ?_, fun found => .inl ?_, leadsFramed, ?_, fun _ leads => ?_,
    fun rank small => ?_⟩
  · rw [shown, List.getElem?_singleton]
    simp [unwritten i]
  · rw [shown] at found
    simpa using (List.getElem?_eq_some_iff.mp found).1
  · rw [bound]
    rfl
  · obtain ⟨_, rfl, rfl, rfl⟩ := leadsAlone alone leads
    rw [bound]
    exact ⟨rfl, rfl⟩
  · rw [bound, List.length_singleton, Nat.lt_one_iff] at small
    subst small
    exact ⟨[], ⟨0, arg, leaf, .here⟩, fun way ⟨_, _, _, leads⟩ => (leadsAlone alone leads).1⟩

theorem rawMatches (sql : Text) : (Arg.raw sql).Matches sql [] [] := by
  have written {i : Nat} {c : Char} (found : sql[i]? = some c) : (Arg.raw sql).Written i := by
    have inside := (List.getElem?_eq_some_iff.mp found).1
    exact ⟨[], 0, 0, sql, .here, Nat.zero_le i, by omega⟩
  refine ⟨.nil, fun i => ?_, fun found => .inr (.inl (written found)), leadsFramed, rfl, fun leaf leads => ?_, nofun⟩
  · exact iff_of_false List.not_mem_nil fun ⟨found, unwritten⟩ => unwritten (written found)
  · obtain ⟨_, _, _, rfl⟩ := leadsAlone (rawAlone sql) leads
    exact leaf.elim

theorem emptyMatches : (Arg.list []).Matches [] [] [] := by
  refine ⟨.nil, fun i => ?_, fun found => ?_, leadsFramed, rfl, fun leaf leads => ?_, nofun⟩
  · simp
  · simp at found
  · cases leads
    exact leaf.elim

section
variable {places others : List Nat} (first : arg.Matches arg.placeholder places arg.leaves)
  (later : (Arg.list rest).Matches (Arg.list rest).placeholder others (Arg.list rest).leaves)

def placesBehind (arg : Arg) (places others : List Nat) : List Nat :=
  places ++ others.map (arg.placeholder.length + 1 + ·)

theorem memberBehind : i ∈ placesBehind arg places others ↔
    i ∈ places ∨ ∃ k, i = arg.placeholder.length + 1 + k ∧ k ∈ others := by
  simp only [placesBehind, List.mem_append, List.mem_map, and_comm, eq_comm]

include first

theorem placeInside (member : i ∈ places) : i < arg.placeholder.length :=
  (List.getElem?_eq_some_iff.mp ((first.drawn i).mp member).1).1

theorem rankInside {leaf : Arg} (single : leaf.IsLeaf) (leads : arg.Leads way place rank leaf) :
    rank < arg.leaves.length := (List.getElem?_eq_some_iff.mp (first.met single leads).2).1

include later

theorem listOrdered : (placesBehind arg places others).Pairwise (· < ·) := by
  refine List.pairwise_append.mpr ⟨first.ordered, ?_, fun i before j behind => ?_⟩
  · exact List.pairwise_map.mpr (later.ordered.imp fun less => by omega)
  · obtain ⟨k, _, rfl⟩ := List.mem_map.mp behind
    have small := placeInside first before
    omega

theorem listDrawn : i ∈ placesBehind arg places others ↔
    (Arg.list (arg :: rest)).placeholder[i]? = some '?' ∧ ¬ (Arg.list (arg :: rest)).Written i := by
  rw [memberBehind, writtenCases]
  -- Neither text reaches into the other, so what is written in one leaves the marks of the other alone.
  constructor
  · rintro (member | ⟨k, rfl, member⟩)
    · obtain ⟨found, unwritten⟩ := (first.drawn i).mp member
      have small := placeInside first member
      exact ⟨Text.joinedFirst found, fun written => written.elim unwritten fun ⟨k, same, _⟩ => by omega⟩
    · obtain ⟨found, unwritten⟩ := (later.drawn k).mp member
      refine ⟨Text.joinedLater found, ?_⟩
      rintro (before | ⟨j, same, written⟩)
      · have small := writtenInside before
        omega
      · cases (show k = j by omega)
        exact unwritten written
  · rintro ⟨found, unwritten⟩
    rcases Text.joinedFound found with here | comma | ⟨k, rfl, there⟩
    · exact .inl ((first.drawn i).mpr ⟨here, fun written => unwritten (.inl written)⟩)
    · contradiction
    · exact .inr ⟨k, rfl, (later.drawn k).mpr ⟨there, fun written => unwritten (.inr ⟨k, rfl, written⟩)⟩⟩

theorem listOtherwise {c : Char} (found : (Arg.list (arg :: rest)).placeholder[i]? = some c) :
    i ∈ placesBehind arg places others ∨ (Arg.list (arg :: rest)).Written i ∨ c = ',' := by
  rw [memberBehind, writtenCases]
  rcases Text.joinedFound found with here | comma | ⟨k, rfl, there⟩
  · exact (first.otherwise here).imp .inl (.imp_left .inl)
  · exact .inr (.inr comma)
  · refine (later.otherwise there).imp (fun member => .inr ⟨k, rfl, member⟩) ?_
    exact .imp_left fun written => .inr ⟨k, rfl, written⟩

theorem listMet {leaf : Arg} (single : leaf.IsLeaf) (leads : (Arg.list (arg :: rest)).Leads way place rank leaf) :
    (placesBehind arg places others)[rank]? = some place ∧ (Arg.list (arg :: rest)).leaves[rank]? = some leaf := by
  rw [listLeaves, placesBehind]
  rcases leadsCases (leafAlone single) leads with ⟨tail, _, inside⟩ | ⟨n, tail, k, r, _, rfl, rfl, inside⟩
  · obtain ⟨shown, bound⟩ := first.met single inside
    have small := rankInside first single inside
    rw [List.getElem?_append_left (first.paired ▸ small), List.getElem?_append_left small]
    exact ⟨shown, bound⟩
  · obtain ⟨shown, bound⟩ := later.met single inside
    have behind := Nat.le_add_right arg.leaves.length r
    rw [List.getElem?_append_right (first.paired ▸ behind), List.getElem?_append_right behind, first.paired,
      Nat.add_sub_cancel_left, List.getElem?_map, shown]
    exact ⟨rfl, bound⟩

theorem listReached (small : rank < (Arg.list (arg :: rest)).leaves.length) :
    ∃! way, ∃ place leaf, leaf.IsLeaf ∧ (Arg.list (arg :: rest)).Leads way place rank leaf := by
  rw [listLeaves, List.length_append] at small
  rcases Nat.lt_or_ge rank arg.leaves.length with before | behind
  · obtain ⟨way, ⟨place, leaf, single, leads⟩, only⟩ := first.reached rank before
    refine ⟨0 :: way, ⟨place, leaf, single, .first leads⟩, ?_⟩
    rintro other ⟨_, _, single, leads⟩
    rcases leadsCases (leafAlone single) leads with ⟨tail, rfl, inside⟩ | ⟨_, _, _, r, _, _, same, _⟩
    · rw [only tail ⟨_, _, single, inside⟩]
    · omega
  · obtain ⟨k, rfl⟩ := Nat.exists_eq_add_of_le behind
    obtain ⟨way, ⟨place, leaf, single, leads⟩, only⟩ := later.reached k (by omega)
    obtain ⟨n, tail, rfl⟩ := leadsDown (leafAlone single) leads
    refine ⟨(n + 1) :: tail, ⟨_, leaf, single, .later leads⟩, ?_⟩
    rintro other ⟨_, _, single, leads⟩
    rcases leadsCases (leafAlone single) leads with ⟨_, _, inside⟩ | ⟨m, others, _, r, rfl, _, same, inside⟩
    · have small := rankInside first single inside
      omega
    · cases (show k = r by omega)
      cases only (m :: others) ⟨_, _, single, inside⟩
      rfl

theorem listMatches : (Arg.list (arg :: rest)).Matches (Arg.list (arg :: rest)).placeholder
    (placesBehind arg places others) (Arg.list (arg :: rest)).leaves where
  ordered := listOrdered first later
  drawn _ := listDrawn first later
  otherwise := listOtherwise first later
  framed := leadsFramed
  paired := by
    rw [listLeaves, placesBehind, List.length_append, List.length_append, List.length_map, first.paired, later.paired]
  met := listMet first later
  reached _ := listReached first later

end

theorem matchesAllAppend {front back entries others : List Arg} {texts behind : List Text} {rows more : List (List Nat)}
    (first : MatchesAll front texts rows entries) (later : MatchesAll back behind more others) :
    MatchesAll (front ++ back) (texts ++ behind) (rows ++ more) (entries ++ others) := by
  induction first with
  | nil => exact later
  | cons matched _ ih =>
    rw [List.append_assoc]
    exact .cons matched ih

mutual
theorem leavesMatch (arg : Arg) : ∃ places, arg.Matches arg.placeholder places arg.leaves := by
  cases arg with
  | value v => exact ⟨[0], leafMatches trivial⟩
  | «lazy» outcome => exact ⟨[0], leafMatches trivial⟩
  | raw sql => exact ⟨[], rawMatches sql⟩
  | list items => exact (rowMatches items).2

theorem rowMatches (items : List Arg) : (∃ rows, MatchesAll items (placeholders items) rows (leavesOf items)) ∧
    ∃ places, (Arg.list items).Matches (Arg.list items).placeholder places (Arg.list items).leaves := by
  cases items with
  | nil => exact ⟨⟨[], .nil⟩, [], emptyMatches⟩
  | cons arg rest =>
    obtain ⟨places, first⟩ := leavesMatch arg
    obtain ⟨⟨rows, apart⟩, others, later⟩ := rowMatches rest
    exact ⟨⟨places :: rows, .cons first apart⟩, placesBehind arg places others, listMatches first later⟩
end

end Arg

namespace Bindings

def addEach (s : Bindings) (b : Bucket) (items : List Arg) : Bindings := items.foldl (fun s arg => s.add b arg) s

theorem getAddEach (s : Bindings) (b : Bucket) (items : List Arg) (c : Bucket) :
    (s.addEach b items).get c = if c = b then s.get c ++ Arg.leavesOf items else s.get c := by
  induction items generalizing s with
  | nil => simp [addEach, Arg.leavesOf]
  | cons arg rest ih =>
    rw [addEach, List.foldl_cons, ← addEach, ih, add, getAppend, Arg.leavesOf]
    split
    · exact List.append_assoc ..
    · rfl

end Bindings

theorem leavesShowInBoundOrder (s : Bindings) (b : Bucket) :
    (∀ arg : Arg, ∃ places entries, arg.Matches arg.placeholder places entries ∧
      ∀ c, (s.add b arg).get c = if c = b then s.get c ++ entries else s.get c) ∧
    (∀ items : List Arg, ∃ rows places entries, Arg.MatchesAll items (Arg.placeholders items) rows entries ∧
      (Arg.list items).Matches (Text.joined "," (Arg.placeholders items)) places entries ∧
      ∀ c, (s.addEach b items).get c = if c = b then s.get c ++ entries else s.get c) ∧
    ∀ front back : List Arg, ∃ rows more entries others, Arg.MatchesAll front (Arg.placeholders front) rows entries ∧
      Arg.MatchesAll back (Arg.placeholders back) more others ∧
      Arg.MatchesAll (front ++ back) (Arg.placeholders (front ++ back)) (rows ++ more) (entries ++ others) ∧
      ∀ c, (s.addEach b (front ++ back)).get c = if c = b then s.get c ++ (entries ++ others) else s.get c := by
  refine ⟨fun arg => ?_, fun items => ?_, fun front back => ?_⟩
  · obtain ⟨places, matched⟩ := arg.leavesMatch
    exact ⟨places, arg.leaves, matched, s.getAppend b arg.leaves⟩
  · obtain ⟨⟨rows, each⟩, places, whole⟩ := Arg.rowMatches items
    exact ⟨rows, places, Arg.leavesOf items, each, whole, s.getAddEach b items⟩
  · obtain ⟨⟨rows, first⟩, _⟩ := Arg.rowMatches front
    obtain ⟨⟨more, later⟩, _⟩ := Arg.rowMatches back
    refine ⟨rows, more, Arg.leavesOf front, Arg.leavesOf back, first, later, ?_, ?_⟩
    · rw [Arg.placeholdersAppend]
      exact Arg.matchesAllAppend first later
    · rw [← Arg.leavesAppend]
      exact s.getAddEach b (front ++ back)

example : (Arg.list [.value .null, .raw "f(?)", .list [.list [], .lazy (.ok .null)]]).Leads [2, 1] 8 1
    (.lazy (.ok .null)) := .later (.later (.first (.later (.first .here))))

end SelectBuilder
