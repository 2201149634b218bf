import SelectBuilder.Proofs.CollapsedSpace

/-! What stands between quotes, read from left to right: a mark written twice stands for itself, and in a string a
backslash keeps the next character from closing it. Collapsing white space does not look at quotes: each run of it
between quotes comes out as one space, and nothing else of what is quoted is changed. -/
namespace SelectBuilder
open Region (isMark)

/-- Where a reader of quotations is. Behind a mark that may have closed a region, the next character decides. -/
inductive Quote
  | outside
  | inside (mark : Char)
  | escaped
  | shut (mark : Char)
  deriving DecidableEq, Repr

namespace Quote

def next : Quote → Char → Quote
  | .outside, c => if isMark c then .inside c else .outside
  | .inside mark, c =>
    if mark = '\x27' ∧ c = '\\' then .escaped
    else if c = mark then .shut mark
    else .inside mark
  | .escaped, _ => .inside '\x27'
  | .shut mark, c => if c = mark then .inside mark else if isMark c then .inside c else .outside

def holds : Quote → Char → Bool
  | .outside, _ => false
  | .inside mark, c => c ≠ mark
  | .escaped, _ => true
  | .shut mark, c => c = mark

def ends : Quote → Char → Bool
  | .shut mark, c => c ≠ mark
  | _, _ => false

def read : Quote → Text → List Text
  | .outside, [] => []
  | _, [] => [[]]
  | s, c :: rest =>
    if s.holds c then Text.glue c (read (s.next c) rest)
    else if s.ends c then [] :: read (s.next c) rest
    else read (s.next c) rest

def after : Quote → Text → Quote
  | s, [] => s
  | s, c :: rest => after (s.next c) rest

def region : Quote → Region
  | .outside => .outside
  | .inside mark => .quoted mark
  | .escaped => .escaped
  | .shut _ => .outside

def Known : Quote → Prop
  | .inside mark => isMark mark
  | .shut mark => isMark mark
  | _ => True

theorem nextKnown {s : Quote} (known : s.Known) (c : Char) : (s.next c).Known := by
  cases s with
  | outside =>
    rw [next]
    split
    · assumption
    · trivial
  | inside mark =>
    rw [next]
    split
    · trivial
    · split <;> exact known
  | escaped => rfl
  | shut mark =>
    rw [next]
    split
    · exact known
    · split
      · assumption
      · trivial

theorem regionNext {s : Quote} (known : s.Known) (c : Char) : (s.next c).region = s.region.next c := by
  cases s with
  | outside =>
    rw [next, region, Region.next]
    split <;> rfl
  | inside mark =>
    rw [next, region, Region.next]
    split
    · rfl
    · split <;> rfl
  | escaped => rfl
  | shut mark =>
    rw [next, region, Region.next]
    split
    · rename_i same
      have opens : isMark mark := known
      rw [same, if_pos opens]
      rfl
    · split <;> rfl

theorem regionAfter {s : Quote} (known : s.Known) (text : Text) :
    (s.after text).Known ∧ (s.after text).region = s.region.after text := by
  induction text generalizing s with
  | nil => exact ⟨known, rfl⟩
  | cons c rest ih =>
    rw [after, Region.after, ← regionNext known]
    exact ih (nextKnown known c)

theorem afterAppend (s : Quote) (a b : Text) : s.after (a ++ b) = (s.after a).after b := by
  induction a generalizing s with
  | nil => rfl
  | cons c rest ih => exact ih (s.next c)

theorem readSome {s : Quote} (open' : s ≠ .outside) (text : Text) : read s text ≠ [] := by
  have shut (mark : Char) (text : Text) : read (.shut mark) text ≠ [] := by
    cases text with
    | nil => simp [read]
    | cons c rest =>
      by_cases same : c = mark
      · simp [read, holds, same, Text.glueNonempty]
      · simp [read, holds, ends, same]
  cases text with
  | nil => cases s <;> first | exact absurd rfl open' | simp [read]
  | cons c rest =>
    cases s with
    | outside => exact absurd rfl open'
    | inside mark =>
      by_cases same : c = mark
      · by_cases escape : mark = '\x27' ∧ c = '\\'
        · obtain ⟨rfl, rfl⟩ := escape
          contradiction
        · simp only [read, holds, ends, next, if_neg escape, if_pos same]
          simpa [same] using shut mark rest
      · simp [read, holds, same, Text.glueNonempty]
    | escaped => simp [read, holds, Text.glueNonempty]
    | shut mark => exact shut mark _

theorem heldNotOutside {s : Quote} {c : Char} (held : s.holds c) : s.next c ≠ .outside := by
  cases s with
  | outside => contradiction
  | inside mark =>
    rw [next]
    split
    · simp
    · split <;> simp
  | escaped => simp [next]
  | shut mark =>
    have same : c = mark := by simpa [holds] using held
    simp [next, same]

theorem readAppend {s : Quote} {a b : Text} (closed : (s.after a).region = .outside)
    (apart : ∀ mark, s.after a = .shut mark → b.head? ≠ some mark) : read s (a ++ b) = read s a ++ read .outside b := by
  induction a generalizing s with
  | nil =>
    cases s with
    | outside => rfl
    | inside mark => contradiction
    | escaped => contradiction
    | shut mark =>
      have other := apart mark rfl
      cases b with
      | nil => rfl
      | cons c rest =>
        have differs : c ≠ mark := by simpa using other
        simp [read, holds, ends, next, differs]
  | cons c rest ih =>
    have later := @ih (s.next c) closed apart
    rw [List.cons_append, read, read, later]
    split
    · rename_i held
      exact Text.glueAppend c (readSome (heldNotOutside held) rest) _
    · split <;> rfl

end Quote

namespace Text

def quotations (text : Text) : List Text := Quote.outside.read text

def squeeze : Text → Text
  | [] => []
  | c :: rest =>
    if isBlank c then if startsWord rest ∨ rest = [] then ' ' :: squeeze rest else squeeze rest
    else c :: squeeze rest

theorem squeezeVisible {c : Char} (visible : isBlank c = false) (rest : Text) :
    squeeze (c :: rest) = c :: squeeze rest := by
  rw [squeeze, if_neg (by simp [visible])]

theorem squeezeLast {c : Char} (blank : isBlank c) {rest : Text} (last : startsWord rest ∨ rest = []) :
    squeeze (c :: rest) = ' ' :: squeeze rest := by
  rw [squeeze, if_pos blank, if_pos last]

theorem squeezeRun {c d : Char} (blank : isBlank c) (blank' : isBlank d) (rest : Text) :
    squeeze (c :: d :: rest) = squeeze (d :: rest) := by
  rw [squeeze, if_pos blank, if_neg (by simp [startsWord, blank'])]

theorem glueSqueeze {c : Char} (visible : isBlank c = false) (parts : List Text) :
    (glue c parts).map squeeze = glue c (parts.map squeeze) := by
  cases parts with
  | nil => simp [glue, squeeze, visible]
  | cons part rest => simp [glue, squeezeVisible visible]

theorem glueRun {c d : Char} (blank : isBlank c) (blank' : isBlank d) (parts : List Text) :
    (glue c (glue d parts)).map squeeze = (glue d parts).map squeeze := by
  cases parts with
  | nil => simp [glue, squeezeRun blank blank']
  | cons part rest => simp [glue, squeezeRun blank blank']

end Text

namespace Quote
open Text

theorem apartFromMark {c mark : Char} (plain : isMark c = false) (opens : isMark mark) : c ≠ mark := by
  rintro rfl
  rw [opens] at plain
  contradiction

theorem blankRead {s : Quote} (known : s.Known) {c : Char} (blank : isBlank c) :
    s.next c = s.next ' ' ∧ s.holds c = s.holds ' ' ∧ s.ends c = s.ends ' ' := by
  obtain ⟨plain, _, slash⟩ := Region.blankIsPlain blank
  have space : isMark ' ' = false := rfl
  cases s with
  | outside => simp [next, holds, ends, plain, space]
  | inside mark =>
    have differs := apartFromMark plain known
    have differs' := apartFromMark space known
    simp [next, holds, ends, slash, differs, differs']
  | escaped => simp [next, holds, ends]
  | shut mark =>
    have differs := apartFromMark plain known
    have differs' := apartFromMark space known
    simp [next, holds, ends, plain, space, differs, differs']

theorem markVisible {mark : Char} (opens : isMark mark) : isBlank mark = false := by
  cases blank : isBlank mark with
  | false => rfl
  | true =>
    rw [(Region.blankIsPlain blank).1] at opens
    contradiction

theorem readStarts {s : Quote} (known : s.Known) (open' : s ≠ .outside) {text : Text}
    (last : startsWord text ∨ text = []) :
    ∃ part rest, read s text = part :: rest ∧ (startsWord part ∨ part = []) := by
  have glued {c : Char} (visible : isBlank c = false) (parts : List Text) :
      ∃ part rest, glue c parts = part :: rest ∧ (startsWord part ∨ part = []) := by
    cases parts with
    | nil => exact ⟨_, _, rfl, .inl (by simp [startsWord, visible])⟩
    | cons part rest => exact ⟨_, _, rfl, .inl (by simp [startsWord, visible])⟩
  have shut {mark : Char} (opens : isMark mark) (text : Text) :
      ∃ part rest, read (.shut mark) text = part :: rest ∧ (startsWord part ∨ part = []) := by
    cases text with
    | nil => exact ⟨[], [], rfl, .inr rfl⟩
    | cons c rest =>
      by_cases same : c = mark
      · subst same
        simp only [read, holds, decide_true, if_true]
        exact glued (markVisible opens) _
      · simp only [read, holds, ends, same, decide_false, decide_true, if_true, ne_eq, not_false_eq_true]
        exact ⟨[], _, rfl, .inr rfl⟩
  cases text with
  | nil => cases s <;> first | exact absurd rfl open' | exact ⟨[], [], rfl, .inr rfl⟩
  | cons c rest =>
    have visible : isBlank c = false := by
      rcases last with starts | ends
      · simpa [startsWord] using starts
      · contradiction
    cases s with
    | outside => exact absurd rfl open'
    | inside mark =>
      by_cases same : c = mark
      · subst same
        have plain : ¬ (c = '\x27' ∧ c = '\\') := by
          rintro ⟨rfl, slash⟩
          contradiction
        simp only [read, holds, ends, next, plain, if_false, if_true, ne_eq, not_true_eq_false, decide_false]
        exact shut known rest
      · simp only [read, holds, same, ne_eq, not_false_eq_true, decide_true, if_true]
        exact glued visible _
    | escaped =>
      simp only [read, holds, if_true]
      exact glued visible _
    | shut mark => exact shut known _

theorem readRun {s : Quote} (known : s.Known) {c d : Char} (blank : isBlank c) (blank' : isBlank d) (more : Text) :
    (read s (c :: d :: more)).map squeeze = (read s (d :: more)).map squeeze := by
  obtain ⟨plain, _, slash⟩ := Region.blankIsPlain blank
  obtain ⟨plain', _, slash'⟩ := Region.blankIsPlain blank'
  cases s with
  | outside => simp [read, holds, ends, next, plain]
  | inside mark =>
    have differs := apartFromMark plain known
    have differs' := apartFromMark plain' known
    have run : read (.inside mark) (c :: d :: more) = glue c (glue d (read (.inside mark) more)) := by
      simp [read, holds, next, slash, slash', differs, differs']
    have once : read (.inside mark) (d :: more) = glue d (read (.inside mark) more) := by
      simp [read, holds, next, slash', differs']
    rw [run, once, glueRun blank blank']
  | escaped =>
    have differs' : d ≠ '\x27' := apartFromMark plain' rfl
    have run : read .escaped (c :: d :: more) = glue c (glue d (read (.inside '\x27') more)) := by
      simp [read, holds, next, slash', differs']
    have once : read .escaped (d :: more) = glue d (read (.inside '\x27') more) := by simp [read, holds, next]
    rw [run, once, glueRun blank blank']
  | shut mark =>
    have differs := apartFromMark plain known
    have differs' := apartFromMark plain' known
    simp [read, holds, ends, next, plain, plain', differs, differs']

theorem readSqueeze {s : Quote} (known : s.Known) (text : Text) :
    read s (squeeze text) = (read s text).map squeeze := by
  induction text generalizing s with
  | nil => cases s <;> rfl
  | cons c rest ih =>
    have later := ih (nextKnown known c)
    cases blank : isBlank c with
    | false =>
      rw [squeezeVisible blank, read, read, later]
      split
      · rw [glueSqueeze blank]
      · split <;> rfl
    | true =>
      obtain ⟨next, holds, ends⟩ := blankRead known blank
      -- Only the last of a run is kept, as a space. Of the others the reader must make nothing either.
      by_cases last : startsWord rest ∨ rest = []
      · rw [squeezeLast blank last, read, read, ← next, ← holds, ← ends, later]
        split
        · rename_i held
          obtain ⟨part, more, found, starts⟩ := readStarts (nextKnown known c) (heldNotOutside held) last
          rw [found, glue, List.map_cons, List.map_cons, glue, squeezeLast blank starts]
        · split <;> rfl
      · obtain ⟨d, more, rfl⟩ := List.exists_cons_of_ne_nil fun nothing => last (.inr nothing)
        have blank' : isBlank d := by
          simpa [startsWord] using fun starts => last (.inl starts)
        rw [squeezeRun blank blank', ih known, readRun known blank blank']

theorem closedAfter {text : Text} (closed : text.Closed) :
    outside.after text = .outside ∨ ∃ mark, isMark mark ∧ outside.after text = .shut mark := by
  obtain ⟨known, region⟩ := @regionAfter .outside trivial text
  rw [show (Quote.outside).region.after text = .outside from closed] at region
  cases found : outside.after text with
  | outside => exact .inl rfl
  | inside mark => simp [found, Quote.region] at region
  | escaped => simp [found, Quote.region] at region
  | shut mark => exact .inr ⟨mark, by simpa [found, Known] using known, rfl⟩

theorem shutNext {s : Quote} {c mark : Char} (shut : s.next c = .shut mark) : c = mark := by
  cases s with
  | outside =>
    rw [next] at shut
    split at shut <;> contradiction
  | inside opened =>
    rw [next] at shut
    split at shut
    · contradiction
    · split at shut
      · cases shut
        assumption
      · contradiction
  | escaped => contradiction
  | shut opened =>
    rw [next] at shut
    split at shut
    · contradiction
    · split at shut <;> contradiction

end Quote

namespace Text

/-! Marks at the ends of texts: two texts meet there in one mark written twice, or apart. -/

def bareEnd (text : Text) : Bool := text.getLast?.all fun c => !isMark c

def bareStart (text : Text) : Bool := text.head?.all fun c => !isMark c

def MarkFree (text : Text) : Prop := ∀ c ∈ text, isMark c = false

instance (text : Text) : Decidable text.MarkFree := List.decidableBAll _ text

theorem markFreeClosed {text : Text} (free : text.MarkFree) : text.Closed := by
  induction text with
  | nil => rfl
  | cons c rest ih =>
    obtain ⟨plain, later⟩ := List.forall_mem_cons.mp free
    have stays : Region.outside.next c = .outside := by simp [Region.next, plain]
    rw [Closed, Region.after, stays]
    exact ih later

theorem markFreeStart {text : Text} (free : text.MarkFree) : text.bareStart := by
  cases text with
  | nil => rfl
  | cons c rest => simp [bareStart, free c List.mem_cons_self]

theorem markFreeLast (front : Text) {word : Text} (free : word.MarkFree) (nonempty : word ≠ []) :
    (front ++ word).bareEnd := by
  obtain rfl | ⟨more, c, rfl⟩ := List.eq_nil_or_concat word
  · contradiction
  · simp [bareEnd, ← List.append_assoc, free c (by simp)]

theorem markFreeQuotations {text : Text} (free : text.MarkFree) : quotations text = [] := by
  induction text with
  | nil => rfl
  | cons c rest ih =>
    obtain ⟨plain, later⟩ := List.forall_mem_cons.mp free
    have stays : Quote.outside.next c = .outside := by simp [Quote.next, plain]
    rw [quotations, Quote.read, stays]
    exact ih later

theorem quotationsAppend {a b : Text} (closed : a.Closed) (apart : a.bareEnd ∨ b.bareStart) :
    quotations (a ++ b) = quotations a ++ quotations b := by
  have after := Quote.closedAfter closed
  apply Quote.readAppend
  · rcases after with outside | ⟨mark, _, shut⟩
    · rw [outside]
      rfl
    · rw [shut]
      rfl
  · intro mark shut
    rcases after with outside | ⟨mark', opens, shut'⟩
    · rw [outside] at shut
      contradiction
    · rw [shut] at shut'
      cases shut'
      rcases apart with ends | starts
      · obtain rfl | ⟨front, c, rfl⟩ := List.eq_nil_or_concat a
        · contradiction
        · rw [List.concat_eq_append, Quote.afterAppend] at shut
          have last := Quote.shutNext shut
          simp [bareEnd, last, opens] at ends
      · intro head
        simp [bareStart, head, opens] at starts

theorem quotationsBetween {a word b : Text} (closed : a.Closed) (free : word.MarkFree) (nonempty : word ≠ []) :
    quotations (a ++ word ++ b) = quotations a ++ quotations b := by
  rw [quotationsAppend (closedAppend closed (markFreeClosed free)) (.inl (markFreeLast a free nonempty)),
    quotationsAppend closed (.inr (markFreeStart free)), markFreeQuotations free, List.append_nil]

theorem quotationsJoined {separator : Text} (free : separator.MarkFree) (nonempty : separator ≠ []) {parts : List Text}
    (closed : ∀ part ∈ parts, part.Closed) : quotations (joined separator parts) = parts.flatMap quotations := by
  induction parts with
  | nil => rfl
  | cons part rest ih =>
    obtain ⟨first, later⟩ := List.forall_mem_cons.mp closed
    cases rest with
    | nil => simp [joined]
    | cons next rest =>
      rw [joinedCons separator part (by simp), quotationsBetween first free nonempty, ih later]
      rfl

theorem quotationsBehind {word : Text} (free : word.MarkFree) (text : Text) :
    quotations (word ++ text) = quotations text := by
  cases word with
  | nil => rfl
  | cons c rest =>
    have apart : (quotations ([] ++ (c :: rest) ++ text)) = _ :=
      @quotationsBetween [] _ text rfl free (List.cons_ne_nil _ _)
    exact apart

/-! White space collapsed. -/

theorem squeezeIs (text : Text) : ∃ trail : Text, (trail = [] ∨ trail = [' ']) ∧ (collapse text = [] → trail = []) ∧
    squeeze text = (if startsWord text ∨ text = [] then [] else [' ']) ++ collapse text ++ trail := by
  induction text with
  | nil => exact ⟨[], .inl rfl, fun _ => rfl, rfl⟩
  | cons c rest ih =>
    obtain ⟨trail, known, noTrail, same⟩ := ih
    cases blank : isBlank c with
    | true =>
      have starts : ¬ (startsWord (c :: rest) ∨ c :: rest = []) := by simp [startsWord, blank]
      rw [collapseCons, if_pos blank, if_neg starts]
      refine ⟨trail, known, noTrail, ?_⟩
      by_cases last : startsWord rest ∨ rest = []
      · rw [squeezeLast blank last, same, if_pos last]
        rfl
      · obtain ⟨d, more, rfl⟩ := List.exists_cons_of_ne_nil fun nothing => last (.inr nothing)
        have blank' : isBlank d := by
          simpa [startsWord] using fun starts => last (.inl starts)
        rw [squeezeRun blank blank', same, if_neg last]
    | false =>
      have starts : startsWord (c :: rest) ∨ c :: rest = [] := by simp [startsWord, blank]
      rw [collapseCons, if_neg (by simp [blank]), squeezeVisible blank, if_pos starts, same]
      by_cases last : startsWord rest ∨ rest = []
      · have joined : startsWord rest ∨ collapse rest = [] := by
          rcases last with starts | rfl
          · exact .inl starts
          · exact .inr rfl
        rw [if_pos last, if_pos joined]
        exact ⟨trail, known, by simp, rfl⟩
      · rw [if_neg last]
        by_cases nothing : collapse rest = []
        · rw [if_pos (.inr nothing), nothing, noTrail nothing]
          exact ⟨[' '], .inr rfl, by simp, rfl⟩
        · have apart : ¬ (startsWord rest ∨ collapse rest = []) := fun joined =>
            joined.elim (fun starts => last (.inl starts)) nothing
          rw [if_neg apart]
          exact ⟨trail, known, by simp, by simp⟩

theorem quotationsCollapse {text : Text} (closed : text.Closed) :
    quotations (collapse text) = (quotations text).map squeeze := by
  have squeezed : quotations (squeeze text) = (quotations text).map squeeze :=
    @Quote.readSqueeze .outside trivial text
  obtain ⟨trail, known, _, same⟩ := squeezeIs text
  have front : MarkFree (if startsWord text ∨ text = [] then [] else [' ']) := by split <;> decide
  have free : trail.MarkFree := by rcases known with rfl | rfl <;> decide
  rw [same, List.append_assoc, quotationsBehind front,
    quotationsAppend (closedCollapse closed) (.inr (markFreeStart free)),
    markFreeQuotations free, List.append_nil] at squeezed
  exact squeezed

theorem squeezeStarts {text : Text} (last : startsWord text ∨ text = []) : ¬ [' '] <+: squeeze text := by
  cases text with
  | nil => simp [squeeze]
  | cons c rest =>
    have visible : isBlank c = false := by
      rcases last with starts | ends
      · simpa [startsWord] using starts
      · contradiction
    rw [squeezeVisible visible]
    rintro ⟨more, same⟩
    cases same
    contradiction

theorem squeezeSpaced (text : Text) :
    (∀ c ∈ squeeze text, isBlank c → c = ' ') ∧ ¬ [' ', ' '] <:+: squeeze text := by
  induction text with
  | nil => simp [squeeze]
  | cons c rest ih =>
    obtain ⟨spaces, single⟩ := ih
    cases blank : isBlank c with
    | false =>
      have other : ' ' ≠ c := by
        rintro rfl
        contradiction
      rw [squeezeVisible blank]
      refine ⟨?_, by simp [List.infix_cons_iff, other, single]⟩
      exact List.forall_mem_cons.mpr ⟨by simp [blank], spaces⟩
    | true =>
      by_cases last : startsWord rest ∨ rest = []
      · rw [squeezeLast blank last]
        refine ⟨List.forall_mem_cons.mpr ⟨fun _ => rfl, spaces⟩, ?_⟩
        simp [List.infix_cons_iff, squeezeStarts last, single]
      · rw [squeeze, if_pos blank, if_neg last]
        exact ⟨spaces, single⟩

theorem squeezeSame {text : Text} :
    squeeze text = text ↔ (∀ c ∈ text, isBlank c → c = ' ') ∧ ¬ [' ', ' '] <:+: text := by
  refine ⟨fun same => same ▸ squeezeSpaced text, ?_⟩
  rintro ⟨spaces, single⟩
  induction text with
  | nil => rfl
  | cons c rest ih =>
    obtain ⟨first, later⟩ := List.forall_mem_cons.mp spaces
    have same := ih later fun inside => single (List.infix_cons inside)
    cases blank : isBlank c with
    | false => rw [squeezeVisible blank, same]
    | true =>
      have space := first blank
      subst space
      have last : startsWord rest ∨ rest = [] := by
        cases rest with
        | nil => exact .inr rfl
        | cons d more =>
          refine .inl ?_
          cases blank' : isBlank d with
          | false => simp [startsWord, blank']
          | true =>
            cases later d List.mem_cons_self blank'
            exact absurd ⟨[], more, rfl⟩ single
      rw [squeezeLast blank last, same]

theorem squeezeTwice (text : Text) : squeeze (squeeze text) = squeeze text := squeezeSame.mpr (squeezeSpaced text)

/-- What a name has between quotes: its segments, those of its alias behind them, without the stars. -/
def nameSegments (name : Text) : List Text :=
  (match cutAlias name with
    | some (path, short) => segments (trim path) ++ segments (trim short)
    | none => segments name).filter (· ≠ ['*'])

end Text

namespace Dialect
open Text

theorem doubledRead {mark : Char} (single : mark ≠ '\x27') (text : Text) :
    Quote.read (.inside mark) (doubled mark text ++ [mark]) = [text] := by
  induction text with
  | nil => simp [doubled, Quote.read, Quote.holds, Quote.ends, Quote.next, single]
  | cons c rest ih =>
    by_cases same : c = mark
    · subst same
      have split : doubled c (c :: rest) = c :: c :: doubled c rest := by simp [doubled]
      rw [split]
      simp [Quote.read, Quote.holds, Quote.ends, Quote.next, single, ih, glue]
    · have split : doubled mark (c :: rest) = c :: doubled mark rest := by simp [doubled, same]
      rw [split]
      simp [Quote.read, Quote.holds, Quote.next, single, same, ih, glue]

theorem quoteQuotations (d : Dialect) (segment : Text) : quotations (d.quote segment) = [segment] := by
  have known : isMark d.quoteChar := by cases d <;> rfl
  have single : d.quoteChar ≠ '\x27' := by cases d <;> decide
  have inside := doubledRead single segment
  rw [quote, List.cons_append, quotations, Quote.read]
  simp [Quote.holds, Quote.ends, Quote.next, known, inside]

theorem quotePathQuotations (d : Dialect) (path : Text) :
    quotations (d.quotePath path) = (segments path).filter (· ≠ ['*']) := by
  have closed : ∀ part ∈ (segments path).map d.quoteSegment, part.Closed := by
    intro part member
    obtain ⟨segment, _, rfl⟩ := List.mem_map.mp member
    unfold quoteSegment
    split
    · subst segment
      decide
    · exact (d.quoteInert segment).1
  rw [quotePath, quotationsJoined (by decide) (by decide) closed]
  induction segments path with
  | nil => rfl
  | cons segment rest ih =>
    have first : quotations (d.quoteSegment segment) = [segment].filter (· ≠ ['*']) := by
      unfold quoteSegment
      by_cases star : segment = ['*']
      · subst star
        rfl
      · simp [star, quoteQuotations]
    rw [List.map_cons, List.flatMap_cons, ih, first, ← List.filter_append]
    rfl

theorem wrapClosed (d : Dialect) (name : Text) : (d.wrap name).Closed := (d.wrapInert name).1

theorem wrapQuotations (d : Dialect) (name : Text) : quotations (d.wrap name) = nameSegments name := by
  cases found : cutAlias name with
  | none =>
    simp only [wrap, nameSegments, found]
    exact d.quotePathQuotations name
  | some cut =>
    obtain ⟨path, short⟩ := cut
    have apart : quotations (d.quotePath (trim path) ++ " AS " ++ d.quotePath (trim short)) = _ :=
      quotationsBetween (d.quotePathInert (trim path)).1 (by decide) (by decide)
    simp only [wrap, nameSegments, found]
    rw [apart, quotePathQuotations, quotePathQuotations, List.filter_append]

end Dialect
end SelectBuilder
