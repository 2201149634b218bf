import SelectBuilder.Fault
import SelectBuilder.Text.Blank

/-! Connectives, and the clauses in which they join predicates. A connective is a logical word, then perhaps NOT,
then perhaps EXISTS. The logical word may be left out and is AND then; in front of the first predicate only the
modifiers stand. -/
namespace SelectBuilder

inductive Logic
  | and
  | or
  | xor
  deriving DecidableEq, Repr

def Logic.sql : Logic → Text
  | .and => "AND"
  | .or => "OR"
  | .xor => "XOR"

structure Connective where
  logic : Logic := .and
  negated : Bool := false
  existential : Bool := false
  deriving DecidableEq, Repr

namespace Connective

def and : Connective := ⟨.and, false, false⟩
def or : Connective := ⟨.or, false, false⟩
def xor : Connective := ⟨.xor, false, false⟩

def not (c : Connective) : Connective := { c with negated := true }

def exist (c : Connective) : Connective := { c with existential := true }

def modifiers (c : Connective) : Option Text :=
  match c.negated, c.existential with
  | false, false => none
  | true, false => some "NOT"
  | false, true => some "EXISTS"
  | true, true => some "NOT EXISTS"

def sql (c : Connective) : Text :=
  match c.modifiers with
  | some words => c.logic.sql ++ [' '] ++ words
  | none => c.logic.sql

def logicOf : Text → Option Logic
  | ['A', 'N', 'D'] => some .and
  | ['O', 'R'] => some .or
  | ['X', 'O', 'R'] => some .xor
  | _ => none

def parseModifiers : Connective → List Text → Option Connective
  | c, [] => some c
  | c, word :: rest =>
    if word = "NOT" ∧ c.negated = false ∧ c.existential = false then parseModifiers c.not rest
    else if word = "EXISTS" ∧ c.existential = false then parseModifiers c.exist rest
    else none

def parse? (given : Text) : Option Connective :=
  match Text.words (Text.upper given) with
  | [] => some .and
  | first :: rest =>
    match logicOf first with
    | some logic => parseModifiers ⟨logic, false, false⟩ rest
    | none => parseModifiers .and (first :: rest)

def parse (given : Text) : Except Fault Connective :=
  match parse? given with
  | some c => .ok c
  | none => .error (.unknownConnective given)

end Connective

/-! The text of a WHERE or HAVING clause while it grows, and how it ends: with nothing yet, where a
predicate may follow at once, or with a complete predicate. A group that received nothing is withdrawn
with its connective; whether it received something is judged by the length of the text in bytes. Between
words stands a space, except at the start and after an opening parenthesis. -/

inductive Ending
  | empty
  | opened
  | complete
  deriving DecidableEq, Repr

structure Clause where
  text : Text := []
  ending : Ending := .empty
  deriving DecidableEq, Repr

namespace Clause

def empty : Clause := {}

def lead (clause : Clause) (word : Text) : Text :=
  if clause.text = [] ∨ clause.text.getLast? = some '(' then clause.text ++ word
  else clause.text ++ ' ' :: word

def openWith (clause : Clause) (word : Text) : Clause := ⟨clause.lead word, .opened⟩

def openWith? (clause : Clause) : Option Text → Clause
  | some word => clause.openWith word
  | none => clause

def term (clause : Clause) (text : Text) : Clause := ⟨clause.lead text, .complete⟩

def connect (keyword : Text) (c : Connective) (clause : Clause) : Clause :=
  match clause.ending with
  | .empty => (clause.openWith keyword).openWith? c.modifiers
  | .opened => clause.openWith? c.modifiers
  | .complete => clause.openWith c.sql

def openGroup (keyword : Text) (c : Connective) (clause : Clause) : Clause :=
  (clause.connect keyword c).openWith ['(']

def closeGroup (keyword : Text) (c : Connective) (outer inner : Clause) : Except Fault Clause :=
  if Text.byteLength inner.text = Text.byteLength (outer.openGroup keyword c).text then
    match Text.takeBytes? (Text.byteLength outer.text) inner.text with
    | some text => .ok ⟨text, outer.ending⟩
    | none => .error .splitCharacter
  else .ok ⟨inner.text ++ [')'], .complete⟩

end Clause

end SelectBuilder
