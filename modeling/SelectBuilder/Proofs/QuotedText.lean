import SelectBuilder.Proofs.TextProperties

/-! What is quoted in a statement: what is quoted in its fragments, in order, with white space squeezed, and nothing
else. A name is quoted so that its segments are read back as they were given; compiling is where they may change, and
they do exactly when they have other white space than single spaces. -/
namespace SelectBuilder
open Text

theorem closedProperty : TextProperty Closed where
  plain free _ := markFreeClosed free
  behind free closed := closedAppend (markFreeClosed free) closed
  append left right _ := closedAppend left right
  collapse := closedCollapse

namespace Query
variable {q : Query}

def fragments (q : Query) : List Text :=
  Bucket.all.flatMap fun b => if b = .unionOrder ∧ q.unions = [] then [] else q.texts b

theorem enclosedQuotations {sql : Text} (closed : sql.Closed) :
    quotations (['('] ++ sql ++ [')']) = quotations sql := by
  have last : quotations (sql ++ [')']) = quotations sql ++ quotations [')'] := quotationsAppend closed (.inr rfl)
  rw [List.append_assoc, quotationsBehind (by decide), last]
  exact List.append_nil _

theorem encloseQuotations (d : Dialect) {sql : Text} (closed : sql.Closed) (part : Bool) :
    quotations (enclose d sql part) = quotations sql := by
  unfold enclose
  split
  · exact enclosedQuotations closed
  · split
    · have split : ("SELECT * FROM (" ++ sql ++ ")" : Text) = "SELECT * FROM " ++ (['('] ++ sql ++ [')']) := by simp
      rw [split, quotationsBehind (by decide), enclosedQuotations closed]
    · rfl

theorem listedQuotations {word : Text} (free : word.MarkFree) {parts : List Text}
    (closed : ∀ part ∈ parts, part.Closed) :
    (if parts = [] then [] else [word ++ Text.joined ", " parts]).flatMap quotations = parts.flatMap quotations := by
  by_cases empty : parts = []
  · rw [empty]
    rfl
  · rw [if_neg empty, List.flatMap_singleton, quotationsBehind free, quotationsJoined (by decide) (by decide) closed]

theorem tailQuotations {t : Tail} (closed : ∀ text ∈ t.orders, text.Closed) :
    t.parts.flatMap quotations = t.orders.flatMap quotations := by
  have number {word : Text} (free : word.MarkFree) (n : Option Nat) :
      (n.toList.map fun n => word ++ ofNat n).flatMap quotations = [] := by
    cases n with
    | none => rfl
    | some n =>
      have plain := quotationsBehind free (ofNat n)
      rw [markFreeQuotations (ofNatMarkFree n)] at plain
      simp [plain]
  rw [Tail.parts, List.flatMap_append, List.flatMap_append, listedQuotations (by decide) closed,
    number (by decide) t.limit, number (by decide) t.offset, List.append_nil, List.append_nil]

theorem clauseQuotations (clause : Clause) : (clausePart clause).flatMap quotations = quotations clause.text := by
  by_cases empty : clause.text = []
  · rw [clausePart, if_pos empty, empty]
    rfl
  · rw [clausePart, if_neg empty, List.flatMap_singleton]

theorem everyTextClosed (closed : q.EveryText Closed) : ∀ b, ∀ text ∈ q.texts b, text.Closed :=
  everyTextHolds closed rfl

theorem selectQuotations (closed : q.EveryText Closed) : quotations q.selectPart = q.columns.flatMap quotations := by
  rw [selectPart, quotationsBehind (selectMarkFree q)]
  by_cases empty : q.columns = []
  · rw [if_pos empty, empty]
    rfl
  · rw [if_neg empty]
    exact quotationsJoined (by decide) (by decide) (everyTextClosed closed .select)

theorem baseQuotations (closed : q.EveryText Closed) :
    quotations q.base = q.columns.flatMap quotations ++ q.source.toList.flatMap quotations ++ q.joins.flatMap quotations ++
      quotations q.filter.text ++ q.groups.flatMap quotations ++ quotations q.having.text ++
      q.tail.orders.flatMap quotations := by
  have source : (q.source.toList.map fun table => ("FROM " ++ table : Text)).flatMap quotations =
      q.source.toList.flatMap quotations := by
    rw [List.flatMap_map]
    exact List.flatMap_congr fun table _ => quotationsBehind (by decide) table
  have groups :
      (if q.groups = [] then [] else ["GROUP BY " ++ Text.joined ", " q.groups] : List Text).flatMap quotations =
        q.groups.flatMap quotations := listedQuotations (by decide) (everyTextClosed closed .groups)
  rw [base, quotationsJoined (by decide) (by decide) (basePartsMade closedProperty closed), baseParts]
  simp only [List.flatMap_append, List.flatMap_singleton, selectQuotations closed, source, clauseQuotations, groups,
    tailQuotations (everyTextClosed closed .order)]

theorem unionQuotations (d : Dialect) {parts : List UnionPart} (closed : ∀ part ∈ parts, part.sql.Closed) :
    (unionParts d parts).flatMap quotations = (parts.map UnionPart.sql).flatMap quotations := by
  rw [unionParts, List.flatMap_assoc, List.flatMap_map]
  refine List.flatMap_congr fun part member => ?_
  rw [List.flatMap_cons, List.flatMap_singleton, markFreeQuotations (unionKeywordPlain part.all).1, List.nil_append]
  exact encloseQuotations d (closed part member) part.closed

theorem partsQuotations (closed : q.EveryText Closed) :
    q.parts.flatMap quotations = q.fragments.flatMap quotations := by
  by_cases single : q.unions = []
  · simp [parts, fragments, Bucket.all, texts, single, baseQuotations closed]
  · have base := baseMade closedProperty closed
    have unions : ∀ part ∈ q.unions, part.sql.Closed := fun part member =>
      everyTextClosed closed .union _ (List.mem_map_of_mem member)
    rw [parts, if_neg single]
    simp only [List.flatMap_append, List.flatMap_singleton, encloseQuotations q.dialect base, baseQuotations closed,
      unionQuotations q.dialect unions, tailQuotations (everyTextClosed closed .unionOrder)]
    simp [fragments, Bucket.all, texts, single]

theorem compileQuotations (closed : q.EveryText Closed) :
    quotations q.compile = (q.fragments.flatMap quotations).map squeeze := by
  have parts := partsMade closedProperty closed
  have whole := joinedMade closedProperty closed
  rw [compile, quotationsCollapse whole, quotationsJoined (by decide) (by decide) parts, partsQuotations closed]

end Query

/-- Balanced, and all that it quotes was given, white space squeezed or not. -/
structure Quotes (given : Text → Prop) (text : Text) : Prop where
  closed : text.Closed
  found : ∀ quoted ∈ quotations text, ∃ whole, given whole ∧ (quoted = whole ∨ quoted = squeeze whole)

namespace Quotes
variable {given : Text → Prop}

theorem empty : Quotes given [] := ⟨rfl, nofun⟩

theorem property : TextProperty (Quotes given) where
  plain free _ := ⟨markFreeClosed free, by simp [markFreeQuotations free]⟩
  behind {word text} free quotes := by
    refine ⟨closedAppend (markFreeClosed free) quotes.closed, ?_⟩
    rw [quotationsBehind free]
    exact quotes.found
  append {a b} left right apart := by
    refine ⟨closedAppend left.closed right.closed, ?_⟩
    rw [quotationsAppend left.closed apart]
    exact List.forall_mem_append.mpr ⟨left.found, right.found⟩
  collapse {text} quotes := by
    refine ⟨closedCollapse quotes.closed, ?_⟩
    rw [quotationsCollapse quotes.closed]
    refine List.forall_mem_map.mpr fun quoted member => ?_
    obtain ⟨whole, known, same | same⟩ := quotes.found quoted member
    · exact ⟨whole, known, .inr (congrArg squeeze same)⟩
    · exact ⟨whole, known, .inr (by rw [same, squeezeTwice])⟩

theorem names {name : Text} (known : ∀ segment ∈ nameSegments name, given segment) :
    Dialect.Names (Quotes given) name := by
  intro d
  refine ⟨d.wrapClosed name, fun quoted member => ?_⟩
  rw [d.wrapQuotations] at member
  exact ⟨quoted, known quoted member, .inl rfl⟩

theorem raw {sql : Text} (closed : sql.Closed) (known : ∀ quoted ∈ quotations sql, given quoted) : Quotes given sql :=
  ⟨closed, fun quoted member => ⟨quoted, known quoted member, .inl rfl⟩⟩

end Quotes

namespace Step

theorem quotedTextIsSqueezed (given : Text → Prop) (program : Program) (made : AllMade (Quotes given) program)
    (d : Dialect) (b : Option Backend) :
    let q := run program { dialect := d, backend := b }
    q.compile.Closed ∧
      quotations q.compile = (q.fragments.flatMap quotations).map squeeze ∧
      (quotations q.compile = q.fragments.flatMap quotations ↔ ∀ quoted ∈ q.fragments.flatMap quotations,
        (∀ c ∈ quoted, isBlank c → c = ' ') ∧ ¬ [' ', ' '] <:+: quoted) ∧
      (∀ quoted ∈ quotations q.compile, ∃ whole, given whole ∧ quoted = squeeze whole) ∧
      ∀ name : Text, quotations (d.wrap name) = nameSegments name := by
  intro q
  have every : q.EveryText (Quotes given) := runEvery Quotes.property made (.inl Quotes.empty) (Query.startEvery d b)
  have statement := Query.compileMade Quotes.property every
  have same := Query.compileQuotations fun b text member => (every b text member).imp_right Quotes.closed
  refine ⟨statement.closed, same, ?_, ?_, d.wrapQuotations⟩
  · have fixed := @List.map_eq_map_iff _ _ squeeze (q.fragments.flatMap quotations) id
    simpa only [same, squeezeSame, List.map_id, id_eq] using fixed
  · intro quoted member
    obtain ⟨whole, known, unchanged | squeezed⟩ := statement.found quoted member
    · rw [same] at member
      obtain ⟨inner, _, rfl⟩ := List.mem_map.mp member
      exact ⟨whole, known, by rw [← unchanged, squeezeTwice]⟩
    · exact ⟨whole, known, squeezed⟩

theorem subqueryTextIsSqueezed :
    let given : List Text := ["a\tb\x60", "c  d", "e?", "x  y", "u\u00a0v", "it's \\'  here"]
    let child : List Step :=
      [.call (.selectFrom "u\u00a0v"), .call (.testRaw .filter "x = 'it''s \\'  here'" [] .and)]
    let program : Program :=
      [.call (.select ["a\tb\x60.c  d AS e?"]), .call (.selectRaw "'x  y'" []),
        .nest (.group .filter .or) [.nest (.existence .filter .and) child]]
    let q := run program (.blank .mysql)
    AllMade (Quotes (· ∈ given)) program ∧ q.compile.Closed ∧
      quotations q.compile = (q.fragments.flatMap quotations).map squeeze ∧
      (∀ quoted ∈ quotations q.compile, ∃ whole, whole ∈ given ∧ quoted = squeeze whole) ∧
      quotations q.compile = ["a b\x60", "c d", "e?", "x y", "u v", "it's \\' here"] := by
  intro given child program q
  have name {text : Text} (known : ∀ segment ∈ nameSegments text, segment ∈ given) :
      Dialect.Names (Quotes (· ∈ given)) text := Quotes.names known
  have columns : Call.Made (Quotes (· ∈ given)) (.select ["a\tb\x60.c  d AS e?"]) :=
    List.forall_mem_singleton.mpr (name (by decide +kernel))
  have table : Ident.Made (Quotes (· ∈ given)) "u\u00a0v" := name (by decide +kernel)
  have literal : Quotes (· ∈ given) "'x  y'" := .raw (by decide +kernel) (by decide +kernel)
  have test : Quotes (· ∈ given) "x = 'it''s \\'  here'" := .raw (by decide +kernel) (by decide +kernel)
  have keeps : AllKeep [.nest (.existence .filter .and) child] := ⟨trivial, trivial⟩
  have nested : AllMade (Quotes (· ∈ given)) [.nest (.existence .filter .and) child] :=
    ⟨⟨trivial, table, test, trivial⟩, trivial⟩
  have made : AllMade (Quotes (· ∈ given)) program := ⟨columns, literal, ⟨keeps, nested⟩, trivial⟩
  obtain ⟨closed, squeezed, _, known, _⟩ := quotedTextIsSqueezed (· ∈ given) program made .mysql none
  exact ⟨made, closed, squeezed, known, by decide +kernel⟩

theorem quotedWhiteSpaceIsLost :
    let program : Program := [.call (.select ["a\tb"]), .call (.selectRaw "'x  y'" [])]
    let q := run program (.blank .mysql)
    (∀ sql ∈ q.fragments, sql.Closed) ∧ q.fragments.flatMap quotations = ["a\tb", "x  y"] ∧
      quotations q.compile = ["a b", "x y"] ∧ q.compile = "SELECT \x60a b\x60, 'x y'" := by
  decide +kernel

end Step
end SelectBuilder
