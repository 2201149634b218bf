import SelectBuilder.Placeholder
import SelectBuilder.Query.Basic

/-! The statement of a query. Fragments stand in a fixed order with one space between them, and white space is
collapsed over the whole. In a union each part is put in parentheses; where the dialect has none for it, a part that
ends in a tail or a union is selected from instead. The tail of a union is written only when there is a union. -/
namespace SelectBuilder

namespace Query

def selectPart (q : Query) : Text :=
  (if q.distinct then "SELECT DISTINCT " else "SELECT ") ++
    (if q.columns = [] then ['*'] else Text.joined ", " q.columns)

def clausePart (clause : Clause) : List Text := if clause.text = [] then [] else [clause.text]

def baseParts (q : Query) : List Text :=
  [q.selectPart] ++ (q.source.toList.map fun table => ("FROM " ++ table : Text)) ++ q.joins ++ clausePart q.filter ++
    (if q.groups = [] then [] else ["GROUP BY " ++ Text.joined ", " q.groups]) ++ clausePart q.having ++
    q.tail.parts

def base (q : Query) : Text := Text.joined " " q.baseParts

def enclose (d : Dialect) (sql : Text) (closed : Bool) : Text :=
  if d.wrapsUnionParts then ['('] ++ sql ++ [')']
  else if closed then "SELECT * FROM (" ++ sql ++ ")"
  else sql

def unionKeyword (all : Bool) : Text := if all then "UNION ALL" else "UNION"

def unionParts (d : Dialect) (parts : List UnionPart) : List Text :=
  parts.flatMap fun part => [unionKeyword part.all, enclose d part.sql part.closed]

def parts (q : Query) : List Text :=
  if q.unions = [] then [q.base]
  else [enclose q.dialect q.base !q.tail.isEmpty] ++ unionParts q.dialect q.unions ++ q.unionTail.parts

def compile (q : Query) : Text := Text.collapse (Text.joined " " q.parts)

def allBindings (q : Query) : List Arg := q.bindings.all

def isClosed (q : Query) : Bool := !q.tail.isEmpty || !q.unions.isEmpty

end Query

/-! Running a statement, and showing it with its values filled in. Nothing is prepared unless every value
can be computed; what the backend answers is handed on unchanged. -/

inductive Exchange
  | prepared (sql : Text)
  | refused (sql message : Text)
  | ran (params : List Value) (affected : Nat)
  | failed (params : List Value) (message : Text)
  deriving DecidableEq, Repr

structure Execution where
  exchanges : List Exchange
  notices : List Notice
  result : Except Fault Nat

namespace Backend

def run (b : Backend) (sql : Text) (params : List Value) : List Exchange × Except Text Nat :=
  match b.prepare sql with
  | .error message => ([.refused sql message], .error message)
  | .ok statement =>
    match statement params with
    | .error message => ([.prepared sql, .failed params message], .error message)
    | .ok affected => ([.prepared sql, .ran params affected], .ok affected)

end Backend

namespace Query

def execute (q : Query) : Execution :=
  match q.backend with
  | none => ⟨[], [], .error .noBackend⟩
  | some b =>
    match q.bindings.resolve with
    | .error fault => ⟨[], [], .error fault⟩
    | .ok params =>
      let begun := Notice.executing q.dialect params.length q.compile
      match b.run q.compile params with
      | (exchanges, .ok affected) => ⟨exchanges, [begun], .ok affected⟩
      | (exchanges, .error message) => ⟨exchanges, [begun, .failed q.compile message], .error (.backend message)⟩

def literalRule (q : Query) : Text → Text :=
  match q.backend with
  | some b => b.quoteLiteral
  | none => q.dialect.quoteLiteral

def debugText (q : Query) : Except Fault Text :=
  interpolate q.dialect q.literalRule q.compile q.allBindings

end Query

end SelectBuilder
