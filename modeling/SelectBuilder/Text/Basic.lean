/-! Statement text is a list of characters; a string literal stands for its characters. Case folding
touches ASCII letters only. Padding puts zeros in front; `glue` puts a character in front of the first part. -/
namespace SelectBuilder

abbrev Text := List Char

instance : Coe String Text := ⟨String.toList⟩

namespace Text

def joined (separator : Text) (parts : List Text) : Text :=
  List.intercalate separator parts

def lower (text : Text) : Text := text.map Char.toLower

def upper (text : Text) : Text := text.map Char.toUpper

def ofNat (n : Nat) : Text := Nat.toDigits 10 n

def ofInt : Int → Text
  | .ofNat n => ofNat n
  | .negSucc n => '-' :: ofNat (n + 1)

def padded (width n : Nat) : Text :=
  List.replicate (width - (ofNat n).length) '0' ++ ofNat n

def glue (c : Char) : List Text → List Text
  | [] => [[c]]
  | part :: rest => (c :: part) :: rest

theorem ofNatDigits (n : Nat) : ∀ c ∈ ofNat n, c.isDigit :=
  fun _ member => Nat.isDigit_of_mem_toDigits (by decide) (by decide) member

theorem ofNatNonempty (n : Nat) : ofNat n ≠ [] := Nat.toDigits_ne_nil

theorem lowerAppend (a b : Text) : lower (a ++ b) = lower a ++ lower b := List.map_append

theorem glueNonempty (c : Char) (parts : List Text) : glue c parts ≠ [] := by
  cases parts <;> simp [glue]

theorem glueAppend (c : Char) {parts : List Text} (nonempty : parts ≠ []) (more : List Text) :
    glue c (parts ++ more) = glue c parts ++ more := by
  obtain ⟨part, rest, rfl⟩ := List.exists_cons_of_ne_nil nonempty
  rfl

theorem joinedGlue (separator : Text) (c : Char) {parts : List Text} (nonempty : parts ≠ []) :
    joined separator (glue c parts) = c :: joined separator parts := by
  match parts, nonempty with
  | [part], _ => simp [glue, joined, List.intercalate, List.intersperse]
  | part :: next :: rest, _ => simp [glue, joined, List.intercalate, List.intersperse]

theorem joinedCons (separator part : Text) {rest : List Text} (more : rest ≠ []) :
    joined separator (part :: rest) = part ++ separator ++ joined separator rest :=
  List.intercalate_cons_of_ne_nil more

theorem joinedAppend (separator : Text) {a b : List Text} (nonempty : a ≠ []) (more : b ≠ []) :
    joined separator (a ++ b) = joined separator a ++ separator ++ joined separator b := by
  induction a with
  | nil => contradiction
  | cons part rest ih =>
    cases rest with
    | nil =>
      have alone : joined separator [part] = part := by simp [joined]
      rw [List.singleton_append, joinedCons separator part more, alone]
    | cons next rest =>
      rw [List.cons_append, joinedCons separator part (by simp), ih (by simp), joinedCons separator part (by simp)]
      simp only [List.append_assoc]

theorem joinedHolds {P : Text → Prop} (nothing : P []) (append : ∀ {a b}, P a → P b → P (a ++ b)) {separator : Text}
    (apart : P separator) {parts : List Text} (all : ∀ part ∈ parts, P part) : P (joined separator parts) := by
  induction parts with
  | nil => exact nothing
  | cons part rest ih =>
    obtain ⟨first, others⟩ := List.forall_mem_cons.mp all
    have later := ih others
    cases rest with
    | nil => simpa [joined] using first
    | cons next rest =>
      unfold joined
      rw [List.intercalate_cons_cons]
      exact append (append first apart) later

/-! Lengths and cuts in UTF-8 bytes. A cut takes the characters that fill exactly so many bytes, or the
whole text if it is no longer; a cut inside a character is refused. -/

def byteLength : Text → Nat
  | [] => 0
  | c :: rest => c.utf8Size + byteLength rest

def takeBytes? (bytes : Nat) : Text → Option Text
  | [] => some []
  | c :: rest =>
    if bytes = 0 then some []
    else if c.utf8Size ≤ bytes then (takeBytes? (bytes - c.utf8Size) rest).map (c :: ·)
    else none

theorem byteLengthAppend (a b : Text) : byteLength (a ++ b) = byteLength a + byteLength b := by
  induction a with
  | nil => simp [byteLength]
  | cons c rest ih => simp only [List.cons_append, byteLength, ih, Nat.add_assoc]

theorem byteLengthZero {text : Text} (noBytes : byteLength text = 0) : text = [] := by
  cases text with
  | nil => rfl
  | cons c rest =>
    have positive : 0 < c.utf8Size := c.utf8Size_pos
    rw [byteLength] at noBytes
    omega

theorem byteLengthPrefix {start text : Text} (grown : start <+: text) :
    byteLength text = byteLength start ↔ text = start := by
  obtain ⟨more, rfl⟩ := grown
  constructor
  · intro same
    rw [byteLengthAppend] at same
    have nothing : more = [] := byteLengthZero (by omega)
    rw [nothing, List.append_nil]
  · intro same
    rw [same]

theorem takeBytesAppend (a b : Text) : takeBytes? (byteLength a) (a ++ b) = some a := by
  induction a with
  | nil => cases b <;> simp [byteLength, takeBytes?]
  | cons c rest ih =>
    have positive : 0 < c.utf8Size := c.utf8Size_pos
    have nonzero : c.utf8Size + byteLength rest ≠ 0 := by omega
    have fits : c.utf8Size ≤ c.utf8Size + byteLength rest := by omega
    have left : c.utf8Size + byteLength rest - c.utf8Size = byteLength rest := by omega
    simp only [List.cons_append, byteLength, takeBytes?, if_neg nonzero, if_pos fits, left, ih, Option.map_some]

theorem takeBytesNothing {bytes : Nat} {text taken : Text} (nonempty : text ≠ [])
    (ok : takeBytes? bytes text = some taken) : taken = [] ↔ bytes = 0 := by
  obtain ⟨c, rest, rfl⟩ := List.exists_cons_of_ne_nil nonempty
  rw [takeBytes?] at ok
  split at ok
  · rename_i zero
    cases ok
    exact iff_of_true rfl zero
  · rename_i positive
    split at ok
    · obtain ⟨more, _, rfl⟩ := Option.map_eq_some_iff.mp ok
      exact iff_of_false (List.cons_ne_nil _ _) positive
    · contradiction

end Text

end SelectBuilder
