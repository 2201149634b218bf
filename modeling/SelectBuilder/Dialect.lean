import SelectBuilder.Text.Blank

/-! The four dialects, and names as they write them. A written name is cut at each dot, and once at the first
alias mark in any letter case; the segments joined by dots are the name again. -/
namespace SelectBuilder

namespace Text

def segments : Text → List Text
  | [] => [[]]
  | c :: rest => if c = '.' then [] :: segments rest else glue c (segments rest)

def aliasMark : Text := " as "

def cutAlias : Text → Option (Text × Text)
  | [] => none
  | c :: rest =>
    if lower ((c :: rest).take 4) = aliasMark then some ([], rest.drop 3)
    else (cutAlias rest).map fun cut => (c :: cut.1, cut.2)

theorem segmentsNonempty (text : Text) : segments text ≠ [] := by
  cases text with
  | nil => simp [segments]
  | cons c rest =>
    by_cases dot : c = '.'
    · simp [segments, dot]
    · simp [segments, dot, glueNonempty]

theorem joinedSegments (text : Text) : joined ['.'] (segments text) = text := by
  induction text with
  | nil => rfl
  | cons c rest ih =>
    by_cases dot : c = '.'
    · obtain ⟨head, tail, same⟩ := List.exists_cons_of_ne_nil (segmentsNonempty rest)
      simp only [segments, if_pos dot]
      rw [same] at ih ⊢
      simpa [joined, List.intercalate, List.intersperse, dot] using ih
    · simp only [segments, if_neg dot, joinedGlue _ _ (segmentsNonempty rest), ih]

end Text

/-! The four dialects and where they differ: the quote around names, the random function, parentheses
around the parts of a union, and string literals. Inside quotes a name has its quote characters doubled.
A name is a path of segments with dots between them, perhaps followed by an alias; a lone star is not
quoted. -/

inductive Dialect
  | mysql
  | postgresql
  | sqlite
  | sqlserver
  deriving DecidableEq, Repr

namespace Dialect

def name : Dialect → Text
  | .mysql => "MySQL"
  | .postgresql => "PostgreSQL"
  | .sqlite => "SQLite"
  | .sqlserver => "SQLServer"

def quoteChar : Dialect → Char
  | .mysql => '\x60'
  | _ => '\x22'

def randomFunction : Dialect → Text
  | .mysql => "RAND()"
  | .postgresql => "RANDOM()"
  | .sqlite => "RANDOM()"
  | .sqlserver => "NEWID()"

def wrapsUnionParts : Dialect → Bool
  | .sqlite => false
  | _ => true

def doubled (quote : Char) (text : Text) : Text :=
  text.flatMap fun c => if c = quote then [c, c] else [c]

def quote (d : Dialect) (segment : Text) : Text :=
  d.quoteChar :: doubled d.quoteChar segment ++ [d.quoteChar]

def quoteSegment (d : Dialect) (segment : Text) : Text :=
  if segment = ['*'] then segment else d.quote segment

def quotePath (d : Dialect) (path : Text) : Text :=
  Text.joined "." ((Text.segments path).map d.quoteSegment)

def wrap (d : Dialect) (name : Text) : Text :=
  match Text.cutAlias name with
  | some (path, short) => d.quotePath (Text.trim path) ++ " AS " ++ d.quotePath (Text.trim short)
  | none => d.quotePath name

def escape (d : Dialect) (c : Char) : Text :=
  if c = '\x00' then ['\\', '0']
  else if c = '\x08' then ['\\', 'b']
  else if c = '\n' then ['\\', 'n']
  else if c = '\r' then ['\\', 'r']
  else if c = '\t' then ['\\', 't']
  else if c = '\x1a' then ['\\', 'Z']
  else if c = '\x27' then
    match d with
    | .sqlite | .sqlserver => ['\x27', '\x27']
    | .mysql | .postgresql => ['\\', '\x27']
  else if c = '\x22' then ['\\', '\x22']
  else if c = '\\' then ['\\', '\\']
  else [c]

def literalMark : Dialect → Text
  | .postgresql => ['E']
  | .sqlserver => ['N']
  | _ => []

def quoteLiteral (d : Dialect) (text : Text) : Text :=
  d.literalMark ++ ['\x27'] ++ text.flatMap d.escape ++ ['\x27']

end Dialect

inductive Ident
  | name (text : Text)
  | raw (sql : Text)
  deriving DecidableEq, Repr

namespace Ident

def written : Ident → Text
  | .name text => text
  | .raw sql => sql

def render (d : Dialect) : Ident → Text
  | .name text => d.wrap text
  | .raw sql => sql

end Ident

instance : Coe Text Ident := ⟨.name⟩
instance : Coe String Ident := ⟨fun name => .name name⟩

end SelectBuilder
