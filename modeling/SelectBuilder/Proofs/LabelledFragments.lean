import SelectBuilder.Proofs.LabelledText
import SelectBuilder.Query.Statement

/-! The fragments of a query, labelled, by the bucket that holds their values, and the statement compiled from them.
Fragments label a query when each is the query's with its values on it, in order. Then the compiled labelled text
is the compiled text, and what it carries is all that is bound, in the canonical order of the buckets; if values
are bound for the tail of a union, there must be a union. -/
namespace SelectBuilder
open Labelled

def Query.texts (q : Query) : Bucket → List Text
  | .select => q.columns
  | .source => q.source.toList
  | .join => q.joins
  | .filter => [q.filter.text]
  | .groups => q.groups
  | .having => [q.having.text]
  | .order => q.tail.orders
  | .union => q.unions.map UnionPart.sql
  | .unionOrder => q.unionTail.orders

def Fragments := Bucket → List Labelled

namespace Fragments

def blank : Fragments
  | .filter => [[]]
  | .having => [[]]
  | _ => []

def set (t : Fragments) (b : Bucket) (labelledParts : List Labelled) : Fragments :=
  fun c => if c = b then labelledParts else t c

def add (t : Fragments) (b : Bucket) (labelledParts : List Labelled) : Fragments := t.set b (t b ++ labelledParts)

def clause (t : Fragments) (kind : ClauseKind) : Labelled := (t kind.bucket).flatten

def withClause (t : Fragments) (kind : ClauseKind) (labelled : Labelled) : Fragments := t.set kind.bucket [labelled]

def listed (word : Text) (labelledParts : List Labelled) : List Labelled :=
  if labelledParts = [] then [] else [plain word ++ joined (plain ", ") labelledParts]

def tailParts (labelledParts : List Labelled) (tail : Tail) : List Labelled :=
  listed "ORDER BY " labelledParts ++ ({ tail with orders := [] } : Tail).parts.map plain

def selectPart (q : Query) (t : Fragments) : Labelled :=
  plain (if q.distinct then "SELECT DISTINCT " else "SELECT ") ++
    (if t .select = [] then plain ['*'] else joined (plain ", ") (t .select))

def clausePart (labelled : Labelled) : List Labelled := if labelled = [] then [] else [labelled]

def baseParts (q : Query) (t : Fragments) : List Labelled :=
  [selectPart q t] ++ (t .source).map (plain "FROM " ++ ·) ++ t .join ++ clausePart (t.clause .filter) ++
    listed "GROUP BY " (t .groups) ++ clausePart (t.clause .having) ++ tailParts (t .order) q.tail

def base (q : Query) (t : Fragments) : Labelled := joined (plain " ") (baseParts q t)

def enclose (d : Dialect) (labelled : Labelled) (closed : Bool) : Labelled :=
  if d.wrapsUnionParts then plain ['('] ++ labelled ++ plain [')']
  else if closed then plain "SELECT * FROM (" ++ labelled ++ plain ")"
  else labelled

def unionParts (d : Dialect) : List UnionPart → List Labelled → List Labelled
  | part :: parts, labelled :: labelledParts =>
    [plain (Query.unionKeyword part.all), enclose d labelled part.closed] ++ unionParts d parts labelledParts
  | _, _ => []

def parts (q : Query) (t : Fragments) : List Labelled :=
  if q.unions = [] then [base q t]
  else [enclose q.dialect (base q t) !q.tail.isEmpty] ++ unionParts q.dialect q.unions (t .union) ++
    tailParts (t .unionOrder) q.unionTail

def compile (q : Query) (t : Fragments) : Labelled := Labelled.collapse (joined (plain " ") (parts q t))

/-! Without the arguments on it, the compiled labelled text is the compiled text. -/

theorem listedText (word : Text) (labelledParts : List Labelled) :
    (listed word labelledParts).map text =
      if labelledParts.map text = [] then [] else [word ++ Text.joined ", " (labelledParts.map text)] := by
  by_cases empty : labelledParts = []
  · subst empty
    rfl
  · have nonempty : labelledParts.map text ≠ [] := by simpa using empty
    rw [listed, if_neg empty, if_neg nonempty, List.map_cons, List.map_nil, textAppend, textPlain, textJoined, textPlain]

theorem tailPartsText {labelledParts : List Labelled} {tail : Tail} (orders : labelledParts.map text = tail.orders) :
    (tailParts labelledParts tail).map text = tail.parts := by
  rw [tailParts, List.map_append, listedText, orders, List.map_map]
  have erased : (text ∘ plain : Text → Text) = id := by
    funext t
    exact textPlain t
  rw [erased, List.map_id, Tail.parts, Tail.parts, if_pos rfl, List.nil_append, List.append_assoc]

theorem clausePartText {labelled : Labelled} {clause : Clause} (same : labelled.text = clause.text) :
    (clausePart labelled).map text = Query.clausePart clause := by
  unfold clausePart Query.clausePart
  rw [← same]
  simp only [textNothing]
  split <;> simp

theorem enclosedText (d : Dialect) (labelled : Labelled) (closed : Bool) :
    (enclose d labelled closed).text = Query.enclose d labelled.text closed := by
  unfold enclose Query.enclose
  split
  · simp
  · split <;> simp

theorem unionPartsText (d : Dialect) {parts : List UnionPart} {labelledParts : List Labelled}
    (same : labelledParts.map text = parts.map UnionPart.sql) :
    (unionParts d parts labelledParts).map text = Query.unionParts d parts := by
  induction parts generalizing labelledParts with
  | nil =>
    cases List.map_eq_nil_iff.mp same
    rfl
  | cons part rest ih =>
    cases labelledParts with
    | nil => simp at same
    | cons labelled labelledParts =>
      simp only [List.map_cons, List.cons.injEq] at same
      have later := ih same.2
      simp only [unionParts, Query.unionParts, List.map_append, List.flatMap_cons, List.map_cons, textPlain,
        enclosedText, same.1, later, List.map_nil]

variable {q : Query} {t : Fragments}

theorem clauseText (same : ∀ b, (t b).map text = q.texts b) (kind : ClauseKind) :
    (t.clause kind).text = (q.clause kind).text := by
  have one : (t kind.bucket).map text = [(q.clause kind).text] := by
    rw [same]
    cases kind <;> rfl
  rw [clause, text, List.map_flatten]
  change ((t kind.bucket).map text).flatten = _
  rw [one, List.flatten_singleton]

theorem baseText (same : ∀ b, (t b).map text = q.texts b) : (base q t).text = q.base := by
  have columns : (t .select).map text = q.columns := same .select
  have source : (t .source).map text = q.source.toList := same .source
  have joins : (t .join).map text = q.joins := same .join
  have groups : (t .groups).map text = q.groups := same .groups
  have filter := clausePartText (clauseText same .filter)
  have having := clausePartText (clauseText same .having)
  have orders := tailPartsText (same .order)
  have select : (selectPart q t).text = q.selectPart := by
    unfold selectPart Query.selectPart
    have head : (if q.distinct then ("SELECT DISTINCT " : Text) else "SELECT ") =
        String.toList (if q.distinct then "SELECT DISTINCT " else "SELECT ") := by split <;> rfl
    rw [textAppend, textPlain, ← columns, head]
    by_cases empty : t .select = []
    · rw [empty]
      rfl
    · have nonempty : (t .select).map text ≠ [] := by simpa using empty
      rw [if_neg empty, if_neg nonempty, textJoined, textPlain]
  have table : ((t .source).map (plain "FROM " ++ ·)).map text =
      q.source.toList.map fun table => ("FROM " ++ table : Text) := by
    rw [← source, List.map_map, List.map_map]
    apply List.map_congr_left
    intro labelled _
    simp
  rw [base, textJoined, textPlain, Query.base, baseParts, Query.baseParts]
  simp only [List.map_append, List.map_cons, List.map_nil, select, table, joins, filter, having, orders, listedText,
    groups]
  rfl

theorem compileText (same : ∀ b, (t b).map text = q.texts b) : (compile q t).text = q.compile := by
  have unions := unionPartsText q.dialect (same .union)
  have orders := tailPartsText (same .unionOrder)
  rw [compile, Query.compile, textCollapse, textJoined, textPlain, parts, Query.parts]
  split
  · rw [List.map_cons, List.map_nil, baseText same]
  · rw [List.map_append, List.map_append, unions, orders, List.map_cons, List.map_nil, enclosedText, baseText same]

/-! What is on the fragments is on the statement. -/

def Labels (t : Fragments) (q : Query) : Prop := ∀ b, (t b).map text = q.texts b ∧ AllCarry (t b) (q.bindings.get b)

theorem listedCarries (word : Text) (inert : word.Inert) {labelledParts : List Labelled} {args : List Arg}
    (all : AllCarry labelledParts args) : AllCarry (listed word labelledParts) args := by
  unfold listed
  split
  · subst labelledParts
    exact all
  · have comma : Carries (plain ", ") [] := carriesPlain (by decide)
    exact carriesOne (carriesAppend (carriesPlain inert) (carriesJoined comma all))

theorem limitsInert (tail : Tail) : ∀ part ∈ ({ tail with orders := [] } : Tail).parts, part.Inert := by
  intro part member
  simp only [Tail.parts, if_true, List.nil_append, List.mem_append, List.mem_map, Option.mem_toList] at member
  rcases member with ⟨n, _, rfl⟩ | ⟨n, _, rfl⟩
  · exact Text.inertAppend (by decide) (Text.ofNatInert n)
  · exact Text.inertAppend (by decide) (Text.ofNatInert n)

theorem tailPartsCarry (tail : Tail) {labelledParts : List Labelled} {args : List Arg}
    (all : AllCarry labelledParts args) :
    AllCarry (tailParts labelledParts tail) args := by
  have both := allCarryAppend (listedCarries "ORDER BY " (by decide) all) (allCarryPlain (limitsInert tail))
  rwa [List.append_nil] at both

theorem clausePartCarries {labelled : Labelled} {args : List Arg} (carries : Carries labelled args) :
    AllCarry (clausePart labelled) args := by
  unfold clausePart
  split
  · subst labelled
    obtain ⟨_, shown⟩ := carries
    exact ⟨by simp, shown⟩
  · exact carriesOne carries

theorem encloseCarries (d : Dialect) {labelled : Labelled} {args : List Arg} (carries : Carries labelled args)
    (closed : Bool) :
    Carries (enclose d labelled closed) args := by
  have around {before after : Text} (left : before.Inert) (right : after.Inert) :
      Carries (plain before ++ labelled ++ plain after) args := by
    have whole := carriesAppend (carriesAppend (carriesPlain left) carries) (carriesPlain right)
    rwa [List.nil_append, List.append_nil] at whole
  unfold enclose
  split
  · exact around (by decide) (by decide)
  · split
    · exact around (by decide) (by decide)
    · exact carries

theorem unionPartsCarry (d : Dialect) {parts : List UnionPart} {labelledParts : List Labelled} {args : List Arg}
    (same : labelledParts.map text = parts.map UnionPart.sql) (all : AllCarry labelledParts args) :
    AllCarry (unionParts d parts labelledParts) args := by
  induction parts generalizing labelledParts args with
  | nil =>
    cases List.map_eq_nil_iff.mp same
    exact all
  | cons part rest ih =>
    cases labelledParts with
    | nil => simp at same
    | cons labelled labelledParts =>
      simp only [List.map_cons, List.cons.injEq] at same
      obtain ⟨x, y, rfl, first, later⟩ := allCarryCons all
      have keyword : (Query.unionKeyword part.all).Inert := by cases part.all <;> decide
      have operand := carriesOne (encloseCarries d first part.closed)
      have pair := allCarryAppend (carriesOne (carriesPlain keyword)) operand
      exact allCarryAppend pair (ih same.2 later)

theorem clauseOne (labels : t.Labels q) (kind : ClauseKind) : t kind.bucket = [t.clause kind] := by
  have one : (t kind.bucket).map text = [(q.clause kind).text] := by
    rw [(labels kind.bucket).1]
    cases kind <;> rfl
  obtain ⟨labelled, found, _⟩ := List.map_eq_singleton_iff.mp one
  rw [clause, found, List.flatten_singleton]

theorem clauseCarries (labels : t.Labels q) (kind : ClauseKind) :
    Carries (t.clause kind) (q.bindings.get kind.bucket) := by
  have all := (labels kind.bucket).2
  rw [clauseOne labels kind] at all
  exact oneCarries all

theorem selectPartCarries (labels : t.Labels q) : Carries (selectPart q t) q.bindings.select := by
  have all : AllCarry (t .select) q.bindings.select := (labels .select).2
  have head : Text.Inert (if q.distinct then "SELECT DISTINCT " else "SELECT ") := by split <;> decide
  refine carriesAppend (y := q.bindings.select) (carriesPlain head) ?_
  split
  · rename_i nothing
    rw [nothing] at all
    have nothing : q.bindings.select = [] := List.map_eq_nil_iff.mp all.2.symm
    rw [nothing]
    exact carriesPlain (by decide)
  · exact carriesJoined (carriesPlain (by decide)) all

def baseBindings (s : Bindings) : List Arg :=
  s.select ++ s.source ++ s.join ++ s.filter ++ s.groups ++ s.having ++ s.order

theorem baseCarries (labels : t.Labels q) : Carries (base q t) (baseBindings q.bindings) := by
  have source : AllCarry (t .source) q.bindings.source := (labels .source).2
  have joins : AllCarry (t .join) q.bindings.join := (labels .join).2
  have groups : AllCarry (t .groups) q.bindings.groups := (labels .groups).2
  have orders : AllCarry (t .order) q.bindings.order := (labels .order).2
  have filter : AllCarry (clausePart (t.clause .filter)) q.bindings.filter :=
    clausePartCarries (clauseCarries labels .filter)
  have having : AllCarry (clausePart (t.clause .having)) q.bindings.having :=
    clausePartCarries (clauseCarries labels .having)
  have table := allCarryMap "FROM " (by decide) source
  have group := listedCarries "GROUP BY " (by decide) groups
  have tail := tailPartsCarry q.tail orders
  apply carriesJoined (carriesPlain (by decide))
  have upToJoins := allCarryAppend (allCarryAppend (carriesOne (selectPartCarries labels)) table) joins
  exact allCarryAppend (allCarryAppend (allCarryAppend (allCarryAppend upToJoins filter) group) having) tail

def shown (q : Query) : List Arg :=
  baseBindings q.bindings ++ q.bindings.union ++ if q.unions = [] then [] else q.bindings.unionOrder

theorem compileCarriesShown (labels : t.Labels q) : Carries (compile q t) (shown q) := by
  have base := baseCarries labels
  have sqls : (t .union).map text = q.unions.map UnionPart.sql := (labels .union).1
  have union : AllCarry (t .union) q.bindings.union := (labels .union).2
  have orders : AllCarry (t .unionOrder) q.bindings.unionOrder := (labels .unionOrder).2
  apply carriesCollapse
  apply carriesJoined (carriesPlain (by decide))
  unfold parts shown
  split
  · rename_i nothing
    have noUnion : t .union = [] := by
      rw [nothing] at sqls
      exact List.map_eq_nil_iff.mp sqls
    rw [noUnion] at union
    have nothing : q.bindings.union = [] := List.map_eq_nil_iff.mp union.2.symm
    rw [nothing, List.append_nil, List.append_nil]
    exact carriesOne base
  · have operands := unionPartsCarry q.dialect sqls union
    have tail := tailPartsCarry q.unionTail orders
    exact allCarryAppend (allCarryAppend (carriesOne (encloseCarries q.dialect base _)) operands) tail

theorem compileCarries (labels : t.Labels q) (backed : q.unions ≠ [] ∨ q.bindings.unionOrder = []) :
    Carries (compile q t) q.allBindings := by
  have all : q.allBindings = shown q := by
    have order : q.bindings.unionOrder = if q.unions = [] then [] else q.bindings.unionOrder := by
      split
      · exact backed.resolve_left (not_not_intro ‹_›)
      · rfl
    rw [shown, ← order]
    simp [Query.allBindings, Bindings.all, Bucket.all, Bindings.get, baseBindings]
  rw [all]
  exact compileCarriesShown labels

end Fragments
end SelectBuilder
