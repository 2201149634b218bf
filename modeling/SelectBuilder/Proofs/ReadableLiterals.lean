import SelectBuilder.Placeholder

/-! Literals can be read back. A reader who knows how a dialect writes a quote inside a string, behind a backslash or
twice, finds the quote that closes a string where it was put, whatever the string is; undoing the escapes gives the
string again. Bytes are hexadecimal digits that spell them, but no bytes at all are written as NULL. -/
namespace SelectBuilder

namespace Dialect

/-- The two characters of a string belong together: neither of them closes it. -/
def pairs : Dialect → Char → Char → Bool
  | .mysql, c, _ => c = '\\'
  | .postgresql, c, _ => c = '\\'
  | .sqlite, c, next => c = '\x27' && next = '\x27'
  | .sqlserver, c, next => c = '\x27' && next = '\x27'

def untilQuote (d : Dialect) : Text → Option (Text × Text)
  | [] => none
  | [c] => if c = '\x27' then some ([], []) else none
  | c :: next :: rest =>
    if d.pairs c next then (d.untilQuote rest).map fun found => (c :: next :: found.1, found.2)
    else if c = '\x27' then some ([], next :: rest)
    else (d.untilQuote (next :: rest)).map fun found => (c :: found.1, found.2)

def readString (d : Dialect) (sql : Text) : Option (Text × Text) := d.untilQuote (sql.dropWhile (· ≠ '\x27')).tail

def named : Char → Option Char
  | '0' => some '\x00'
  | 'b' => some '\x08'
  | 'n' => some '\n'
  | 'r' => some '\r'
  | 't' => some '\t'
  | 'Z' => some '\x1a'
  | '\x27' => some '\x27'
  | '\x22' => some '\x22'
  | '\\' => some '\\'
  | _ => none

def unescaped (d : Dialect) : Text → Option Text
  | [] => some []
  | [c] => if c = '\\' ∨ c = '\x27' then none else some [c]
  | c :: next :: rest =>
    if c = '\\' then do
      let one ← named next
      let later ← d.unescaped rest
      some (one :: later)
    else if c = '\x27' then if d.pairs c next then (d.unescaped rest).map ('\x27' :: ·) else none
    else (d.unescaped (next :: rest)).map (c :: ·)

variable (d : Dialect)

theorem readPair {c next : Char} (pair : d.pairs c next) (rest : Text) :
    d.untilQuote (c :: next :: rest) = (d.untilQuote rest).map fun found => (c :: next :: found.1, found.2) := by
  rw [untilQuote, if_pos pair]

theorem readSingle {c : Char} (quote : c ≠ '\x27') (single : ∀ next, d.pairs c next = false) (rest : Text) :
    d.untilQuote (c :: rest) = (d.untilQuote rest).map fun found => (c :: found.1, found.2) := by
  cases rest with
  | nil => simp only [untilQuote, if_neg quote, Option.map_none]
  | cons next rest => rw [untilQuote, single next, if_neg Bool.false_ne_true, if_neg quote]

theorem readQuote {rest : Text} (apart : ∀ next ∈ rest.head?, d.pairs '\x27' next = false) :
    d.untilQuote ('\x27' :: rest) = some ([], rest) := by
  cases rest with
  | nil => rfl
  | cons next rest => rw [untilQuote, apart next rfl, if_neg Bool.false_ne_true, if_pos rfl]

theorem pairsPlain {c : Char} (quote : c ≠ '\x27') (slash : c ≠ '\\') (next : Char) : d.pairs c next = false := by
  cases d <;> simp [pairs, quote, slash]

theorem readSlash {c : Char} (apart : c ≠ '\x27' ∨ d.pairs '\\' c) (rest : Text) :
    d.untilQuote ('\\' :: c :: rest) = (d.untilQuote rest).map fun found => ('\\' :: c :: found.1, found.2) := by
  by_cases pair : d.pairs '\\' c
  · exact d.readPair pair rest
  · have quote : c ≠ '\x27' := apart.resolve_right pair
    have slash : ∀ next, d.pairs '\\' next = false := by
      cases d <;> simp [pairs] at pair ⊢
    have plain : ∀ next, d.pairs c next = false := by
      cases d <;> simp [pairs, quote] at pair ⊢
    rw [d.readSingle (by decide) slash, d.readSingle quote plain, Option.map_map]
    rfl

inductive Escaped (c : Char) : Text → Prop
  | behind {letter : Char} (names : named letter = some c) (apart : letter ≠ '\x27' ∨ d.pairs '\\' letter) :
      Escaped c ['\\', letter]
  | twice (quote : c = '\x27') (pair : d.pairs c c) : Escaped c [c, c]
  | plain (quote : c ≠ '\x27') (slash : c ≠ '\\') : Escaped c [c]

theorem escapeIs (c : Char) : d.Escaped c (d.escape c) := by
  rcases Decidable.em (c = '\x27') with rfl | quote
  · cases d with
    | mysql | postgresql => exact .behind rfl (.inr rfl)
    | sqlite | sqlserver => exact .twice rfl rfl
  · simp only [escape, if_neg quote]
    repeat' split
    any_goals
      subst c
      exact .behind rfl (.inl (by decide))
    rename_i slash
    exact .plain quote slash

variable {d} {c : Char} {written : Text} (escaped : d.Escaped c written)
include escaped

theorem readEscaped (rest : Text) :
    d.untilQuote (written ++ rest) = (d.untilQuote rest).map fun found => (written ++ found.1, found.2) := by
  cases escaped with
  | behind names apart => exact d.readSlash apart rest
  | twice quote pair => exact d.readPair pair rest
  | plain quote slash => exact d.readSingle quote (d.pairsPlain quote slash) rest

theorem unescapeEscaped (rest : Text) : d.unescaped (written ++ rest) = (d.unescaped rest).map (c :: ·) := by
  cases escaped with
  | behind names apart =>
    simp only [List.cons_append, List.nil_append, unescaped, if_true, names]
    cases d.unescaped rest <;> rfl
  | twice quote pair =>
    subst quote
    simp only [List.cons_append, List.nil_append, unescaped, pair, if_true]
    rfl
  | plain quote slash =>
    cases rest with
    | nil => simp [unescaped, quote, slash]
    | cons next rest => simp only [List.cons_append, List.nil_append, unescaped, if_neg quote, if_neg slash]

omit escaped

theorem readBody (d : Dialect) (text : Text) {rest : Text} (apart : ∀ next ∈ rest.head?, d.pairs '\x27' next = false) :
    d.untilQuote (text.flatMap d.escape ++ '\x27' :: rest) = some (text.flatMap d.escape, rest) := by
  induction text with
  | nil => exact d.readQuote apart
  | cons c text ih => rw [List.flatMap_cons, List.append_assoc, readEscaped (d.escapeIs c), ih, Option.map_some]

theorem readLiteral (d : Dialect) (text : Text) {rest : Text}
    (apart : ∀ next ∈ rest.head?, d.pairs '\x27' next = false) :
    d.readString (d.quoteLiteral text ++ rest) = some (text.flatMap d.escape, rest) := by
  have opened : (d.quoteLiteral text ++ rest).dropWhile (· ≠ '\x27') =
      '\x27' :: (text.flatMap d.escape ++ '\x27' :: rest) := by
    cases d <;> simp [quoteLiteral, literalMark]
  rw [readString, opened, List.tail_cons, d.readBody text apart]

theorem unescapeBody (d : Dialect) (text : Text) : d.unescaped (text.flatMap d.escape) = some text := by
  induction text with
  | nil => rfl
  | cons c text ih => rw [List.flatMap_cons, unescapeEscaped (d.escapeIs c), ih, Option.map_some]

theorem literalSame (d : Dialect) {a b : Text} : d.quoteLiteral a = d.quoteLiteral b ↔ a = b := by
  constructor
  · intro same
    have bodies : a.flatMap d.escape = b.flatMap d.escape := by simpa [quoteLiteral] using same
    have read := d.unescapeBody a
    rw [bodies, d.unescapeBody b] at read
    exact (Option.some.inj read).symm
  · exact congrArg d.quoteLiteral

end Dialect

theorem stringsReadBack :
    (∀ (d : Dialect) (text rest : Text), (∀ next ∈ rest.head?, d.pairs '\x27' next = false) →
      ∃ body, d.quoteLiteral text = d.literalMark ++ ['\x27'] ++ body ++ ['\x27'] ∧
        d.readString (d.quoteLiteral text ++ rest) = some (body, rest)) ∧
    (∀ (d : Dialect) (a b : Text), d.quoteLiteral a = d.quoteLiteral b ↔ a = b) ∧
    ∀ text : Text, ∃ body, Dialect.mysql.quoteLiteral text = ['\x27'] ++ body ++ ['\x27'] ∧
      Dialect.mysql.unescaped body = some text := by
  refine ⟨?_, fun d a b => d.literalSame, ?_⟩
  · intro d text rest apart
    exact ⟨_, rfl, d.readLiteral text apart⟩
  · intro text
    exact ⟨_, rfl, Dialect.mysql.unescapeBody text⟩

theorem stringReadsBackInStatement :
    let text : Text := "it''s \\' OR '\\"
    let rest : Text := " AND b = N'?'"
    (∀ next ∈ rest.head?, Dialect.sqlserver.pairs '\x27' next = false) ∧
      ∃ body, Dialect.sqlserver.quoteLiteral text = ['N'] ++ ['\x27'] ++ body ++ ['\x27'] ∧
        Dialect.sqlserver.readString (Dialect.sqlserver.quoteLiteral text ++ rest) = some (body, rest) := by
  intro text rest
  have apart : ∀ next ∈ rest.head?, Dialect.sqlserver.pairs '\x27' next = false := by
    intro next first
    cases (first : some ' ' = some next)
    rfl
  exact ⟨apart, stringsReadBack.1 .sqlserver text rest apart⟩

/-! Bytes. -/

def hexValue (c : Char) : Option Nat :=
  if '0' ≤ c ∧ c ≤ '9' then some (c.toNat - '0'.toNat)
  else if 'A' ≤ c ∧ c ≤ 'F' then some (c.toNat - 'A'.toNat + 10)
  else if 'a' ≤ c ∧ c ≤ 'f' then some (c.toNat - 'a'.toNat + 10)
  else none

def spelled : Text → Option (List UInt8)
  | [] => some []
  | [_] => none
  | high :: low :: rest => do
    let front ← hexValue high
    let back ← hexValue low
    let later ← spelled rest
    some (UInt8.ofNat (16 * front + back) :: later)

def Dialect.hexFrame : Dialect → Text × Text
  | .mysql => ("X'", "'")
  | .postgresql => ("E'\\\\x", "'::bytea")
  | .sqlite => ("X'", "'")
  | .sqlserver => ("0x", "")

theorem hexDigitValue {n : Nat} (digit : n < 16) : hexValue (hexDigit n) = some n := by
  have all : ∀ n : Fin 16, hexValue (hexDigit n) = some n.val := by decide
  exact all ⟨n, digit⟩

theorem hexTextSpells (data : List UInt8) : spelled (hexText data) = some data := by
  induction data with
  | nil => rfl
  | cons b data ih =>
    have size : b.toNat < 256 := b.toNat_lt
    have high : hexValue (hexDigit (b.toNat / 16)) = some (b.toNat / 16) := hexDigitValue (by omega)
    have low : hexValue (hexDigit (b.toNat % 16)) = some (b.toNat % 16) := hexDigitValue (by omega)
    change spelled (hexDigit (b.toNat / 16) :: hexDigit (b.toNat % 16) :: hexText data) = _
    rw [spelled, high, low, ih]
    change some (UInt8.ofNat (16 * (b.toNat / 16) + b.toNat % 16) :: data) = _
    rw [Nat.div_add_mod, UInt8.ofNat_toNat]

namespace Dialect
variable (d : Dialect)

theorem bytesFramed {data : List UInt8} (nonempty : data ≠ []) :
    d.bytesLiteral data = d.hexFrame.1 ++ hexText data ++ d.hexFrame.2 := by
  unfold bytesLiteral
  rw [if_neg nonempty]
  cases d <;> simp [hexFrame]

theorem bytesNull (data : List UInt8) : d.bytesLiteral data = "NULL" ↔ data = [] := by
  constructor
  · intro null
    rcases Decidable.em (data = []) with empty | nonempty
    · exact empty
    · rw [d.bytesFramed nonempty] at null
      cases d <;> simp [hexFrame] at null
  · rintro rfl
    rfl

theorem bytesSame (a b : List UInt8) : d.bytesLiteral a = d.bytesLiteral b ↔ a = b := by
  refine ⟨?_, congrArg d.bytesLiteral⟩
  intro same
  rcases Decidable.em (a = []) with empty | nonempty
  · have null : d.bytesLiteral b = "NULL" := same.symm.trans ((d.bytesNull a).mpr empty)
    rw [empty, (d.bytesNull b).mp null]
  · have other : b ≠ [] := fun empty => nonempty ((d.bytesNull a).mp (same.trans ((d.bytesNull b).mpr empty)))
    rw [d.bytesFramed nonempty, d.bytesFramed other, List.append_left_inj, List.append_right_inj] at same
    have read := hexTextSpells a
    rw [same, hexTextSpells b] at read
    exact (Option.some.inj read).symm

end Dialect

theorem bytesReadBack (d : Dialect) (quote : Text → Text) (data : List UInt8) :
    let shown := (Value.bytes data).literal d quote
    interpolate d quote ['?'] [.value (.bytes data)] = .ok shown ∧
      (data ≠ [] → ∃ digits, shown = d.hexFrame.1 ++ digits ++ d.hexFrame.2 ∧ spelled digits = some data) ∧
      (shown = Value.null.literal d quote ↔ data = []) ∧
      ∀ other, (Value.bytes other).literal d quote = shown ↔ other = data := by
  intro shown
  have alone : interpolate d quote ['?'] [.value (.bytes data)] = .ok (shown ++ []) := rfl
  refine ⟨by rwa [List.append_nil] at alone, ?_, d.bytesNull data, fun other => d.bytesSame other data⟩
  intro nonempty
  exact ⟨_, d.bytesFramed nonempty, hexTextSpells data⟩

theorem quoteByteReadsBack :
    let data : List UInt8 := [0x00, 0x27, 0xFF]
    let quote := Dialect.postgresql.quoteLiteral
    data ≠ [] ∧ ∃ digits, (Value.bytes data).literal .postgresql quote = "E'\\\\x" ++ digits ++ "'::bytea" ∧
      spelled digits = some data := by
  intro data quote
  have nonempty : data ≠ [] := by decide
  exact ⟨nonempty, (bytesReadBack .postgresql quote data).2.1 nonempty⟩

theorem noBytesShowAsNull :
    interpolate .mysql Dialect.mysql.quoteLiteral "?" [.value (.bytes [])] = .ok "NULL" ∧
      interpolate .mysql Dialect.mysql.quoteLiteral "?" [.value .null] = .ok "NULL" :=
  ⟨rfl, rfl⟩

end SelectBuilder
