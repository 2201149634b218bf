import Mathlib.Algebra.Order.Field.Power
import Mathlib.Data.Rat.Floor
import Mathlib.Tactic.Linarith
import Mathlib.Tactic.Positivity
import Mathlib.Tactic.Ring
import SelectBuilder.Decimal

/-! The decimal that a double is written with. The numbers that round to the double lie between the middles to its
neighbours, which count when the significand is even. The decimal is one of these, and no other of them has fewer
digits. All comparisons of the search are of whole numbers, in quarter steps and scaled by a power of ten. -/
namespace SelectBuilder.Decimal

def Numeral.value (d : Numeral) : ℚ := d.digits * 10 ^ d.scale

namespace Binary64

def magnitude (x : Binary64) : ℚ := x.significand * 2 ^ x.exponent

def stepBelow (x : Binary64) : ℚ := if x.hasNarrowStepBelow then 2 ^ (x.exponent - 1) else 2 ^ x.exponent

/-- The number rounds to the double, to an even significand from the middle of two. -/
def Rounds (x : Binary64) (v : ℚ) : Prop :=
  let low := x.magnitude - x.stepBelow / 2
  let high := x.magnitude + 2 ^ x.exponent / 2
  if x.significand % 2 = 0 then low ≤ v ∧ v ≤ high else low < v ∧ v < high

end Binary64

/-! Digits. -/

theorem digitCountPositive (n : Nat) : 0 < digitCount n := List.length_pos_of_ne_nil Nat.toDigits_ne_nil

theorem digitCountLe {n count : Nat} (positive : 0 < count) : digitCount n ≤ count ↔ n < 10 ^ count :=
  Nat.length_toDigits_le_iff (by decide) positive

theorem belowDigits (n : Nat) : n < 10 ^ digitCount n := (digitCountLe (digitCountPositive n)).mp le_rfl

theorem aboveDigits {n : Nat} (positive : 0 < n) : 10 ^ (digitCount n - 1) ≤ n := by
  by_cases single : digitCount n = 1
  · rw [single]
    exact positive
  · have several : 0 < digitCount n - 1 := by
      have := digitCountPositive n
      omega
    refine Nat.le_of_not_lt fun less => ?_
    have fewer := (digitCountLe several).mpr less
    omega

theorem powerParts {b : ℚ} (nonzero : b ≠ 0) (k : Int) : b ^ k.toNat = b ^ k * b ^ (-k).toNat := by
  rw [← zpow_natCast, ← zpow_natCast, ← zpow_add₀ nonzero]
  congr 1
  omega

namespace Span

def Holds (s : Span) (v : ℚ) : Prop :=
  if s.closed then s.low ≤ v * s.unit ∧ v * s.unit ≤ s.high else s.low < v * s.unit ∧ v * s.unit < s.high

structure Proper (s : Span) : Prop where
  unit : 0 < s.unit
  low : s.low < s.middle
  high : s.middle < s.high

variable {s : Span}

theorem scaledProper (proper : s.Proper) (k : Int) : (s.scaled k).Proper where
  unit := Nat.mul_pos proper.unit (Nat.pow_pos (by decide))
  low := Nat.mul_lt_mul_of_pos_right proper.low (Nat.pow_pos (by decide))
  high := Nat.mul_lt_mul_of_pos_right proper.high (Nat.pow_pos (by decide))

theorem containsIs (s : Span) (n : Nat) : s.contains n ↔
    if s.closed then s.low ≤ n * s.unit ∧ n * s.unit ≤ s.high else s.low < n * s.unit ∧ n * s.unit < s.high := by
  unfold contains
  split <;> simp

theorem containsHolds (s : Span) (k : Int) (n : Nat) : (s.scaled k).contains n ↔ s.Holds (n * 10 ^ k) := by
  have up : (0 : ℚ) < 10 ^ (-k).toNat := by positivity
  have same : ((n * (s.unit * 10 ^ k.toNat) : Nat) : ℚ) = n * 10 ^ k * s.unit * 10 ^ (-k).toNat := by
    push_cast
    rw [powerParts (by norm_num) k]
    ring
  have atLeast (m : Nat) : m * 10 ^ (-k).toNat ≤ n * (s.unit * 10 ^ k.toNat) ↔ (m : ℚ) ≤ n * 10 ^ k * s.unit := by
    rw [← mul_le_mul_iff_left₀ up, ← same]
    exact_mod_cast Iff.rfl
  have atMost (m : Nat) : n * (s.unit * 10 ^ k.toNat) ≤ m * 10 ^ (-k).toNat ↔ (n : ℚ) * 10 ^ k * s.unit ≤ m := by
    rw [← mul_le_mul_iff_left₀ up, ← same]
    exact_mod_cast Iff.rfl
  rw [containsIs]
  unfold Holds scaled
  split
  · exact and_congr (atLeast s.low) (atMost s.high)
  · exact and_congr (lt_iff_lt_of_le_iff_le (atMost s.low)) (lt_iff_lt_of_le_iff_le (atLeast s.high))

theorem holdsBetween {u v w : ℚ} (first : s.Holds u) (last : s.Holds w) (above : u ≤ v) (below : v ≤ w) :
    s.Holds v := by
  have left : u * s.unit ≤ v * s.unit := mul_le_mul_of_nonneg_right above (by positivity)
  have right : v * s.unit ≤ w * s.unit := mul_le_mul_of_nonneg_right below (by positivity)
  unfold Holds at *
  split at first
  · rw [if_pos ‹_›] at last ⊢
    exact ⟨first.1.trans left, right.trans last.2⟩
  · rw [if_neg ‹_›] at last ⊢
    exact ⟨first.1.trans_le left, right.trans_lt last.2⟩

theorem middleHolds (proper : s.Proper) : s.Holds (s.middle / s.unit) := by
  have unit : (s.unit : ℚ) ≠ 0 := by exact_mod_cast proper.unit.ne'
  have low : (s.low : ℚ) < s.middle := by exact_mod_cast proper.low
  have high : (s.middle : ℚ) < s.high := by exact_mod_cast proper.high
  unfold Holds
  rw [div_mul_cancel₀ _ unit]
  split
  · exact ⟨low.le, high.le⟩
  · exact ⟨low, high⟩

/-! The two neighbours on a grid. -/

theorem nearestContains {n : Nat} (found : s.nearest? = some n) : s.contains n := by
  unfold nearest? at found
  dsimp only at found
  split at found
  · rename_i first second
    rw [← Option.some.inj found]
    split
    · exact first
    · exact second
  · rw [← Option.some.inj found]
    assumption
  · rw [← Option.some.inj found]
    assumption
  · contradiction

theorem neighbourContained (proper : s.Proper) {n : Nat} (inside : s.contains n) :
    s.contains s.floor ∨ s.contains (s.floor + 1) := by
  have below : s.floor * s.unit ≤ s.middle := Nat.div_mul_le_self _ _
  have above : s.middle < (s.floor + 1) * s.unit := Nat.lt_mul_of_div_lt (Nat.lt_succ_self _) proper.unit
  have low := proper.low
  have high := proper.high
  simp only [containsIs] at inside ⊢
  rcases Nat.lt_or_ge s.floor n with behind | before
  · have further : (s.floor + 1) * s.unit ≤ n * s.unit := Nat.mul_le_mul_right _ behind
    refine .inr ?_
    split at inside
    · rw [if_pos ‹_›]
      omega
    · rw [if_neg ‹_›]
      omega
  · have nearer : n * s.unit ≤ s.floor * s.unit := Nat.mul_le_mul_right _ before
    refine .inl ?_
    split at inside
    · rw [if_pos ‹_›]
      omega
    · rw [if_neg ‹_›]
      omega

theorem nearestFound (proper : s.Proper) {n : Nat} (inside : s.contains n) : s.nearest? ≠ none := by
  have neighbour := neighbourContained proper inside
  unfold nearest?
  dsimp only
  split
  · simp
  · simp
  · simp
  · rename_i first second
    simp [first, second] at neighbour

/-! The scale of the leading digit. -/

theorem leadingBelow (proper : s.Proper) : 10 ^ s.leading * s.unit ≤ (s.middle : ℚ) := by
  unfold leading
  split
  · rename_i whole
    have positive : 0 < s.floor := Nat.div_pos whole proper.unit
    have count := digitCountPositive s.floor
    have power : 10 ^ (digitCount s.floor - 1) * s.unit ≤ s.middle :=
      (Nat.mul_le_mul_right _ (aboveDigits positive)).trans (Nat.div_mul_le_self _ _)
    have scale : (digitCount s.floor - 1 : Int) = (digitCount s.floor - 1 : Nat) := by omega
    rw [scale, zpow_natCast]
    exact_mod_cast power
  · have middle : 0 < s.middle := Nat.zero_lt_of_lt proper.low
    have less := Nat.lt_mul_of_div_lt (belowDigits ((s.unit - 1) / s.middle)) middle
    have power : s.unit ≤ 10 ^ digitCount ((s.unit - 1) / s.middle) * s.middle := by omega
    rw [zpow_neg, zpow_natCast, inv_mul_le_iff₀ (by positivity)]
    exact_mod_cast power

theorem leadingAbove (proper : s.Proper) : (s.middle : ℚ) < 10 ^ (s.leading + 1) * s.unit := by
  unfold leading
  split
  · have power : s.middle < 10 ^ digitCount s.floor * s.unit := Nat.lt_mul_of_div_lt (belowDigits s.floor) proper.unit
    rw [Int.sub_add_cancel, zpow_natCast]
    exact_mod_cast power
  · rename_i small
    have middle : 0 < s.middle := Nat.zero_lt_of_lt proper.low
    have positive : 0 < (s.unit - 1) / s.middle := Nat.div_pos (by omega) middle
    have count := digitCountPositive ((s.unit - 1) / s.middle)
    have below := (Nat.mul_le_mul_right s.middle (aboveDigits positive)).trans (Nat.div_mul_le_self _ _)
    have power : 10 ^ (digitCount ((s.unit - 1) / s.middle) - 1) * s.middle < s.unit := by omega
    have scale : (-(digitCount ((s.unit - 1) / s.middle)) + 1 : Int) =
        -(digitCount ((s.unit - 1) / s.middle) - 1 : Nat) := by omega
    rw [scale, zpow_neg, zpow_natCast, lt_inv_mul_iff₀ (by positivity)]
    exact_mod_cast power

theorem nearestNeighbour {n : Nat} (found : s.nearest? = some n) : n = s.floor ∨ n = s.floor + 1 := by
  unfold nearest? at found
  dsimp only at found
  split at found
  · rw [← Option.some.inj found]
    split <;> simp
  · exact .inl (Option.some.inj found).symm
  · exact .inr (Option.some.inj found).symm
  · contradiction

theorem scaledFloor (proper : s.Proper) (count : Nat) :
    (s.scaled (s.leading + 1 - count)).floor < 10 ^ count := by
  set k := s.leading + 1 - count with kIs
  have up : (0 : ℚ) < 10 ^ (-k).toNat := by positivity
  have power : (10 : ℚ) ^ (s.leading + 1) = 10 ^ k * 10 ^ count := by
    rw [← zpow_natCast, ← zpow_add₀ (by norm_num), kIs, Int.sub_add_cancel]
  have above := mul_lt_mul_of_pos_right (leadingAbove proper) up
  have whole : s.middle * 10 ^ (-k).toNat < 10 ^ count * (s.unit * 10 ^ k.toNat) := by
    have same : (10 : ℚ) ^ count * (s.unit * 10 ^ k.toNat) = 10 ^ (s.leading + 1) * s.unit * 10 ^ (-k).toNat := by
      rw [powerParts (by norm_num) k, power]
      ring
    rw [← same] at above
    exact_mod_cast above
  exact Nat.div_lt_of_lt_mul (by rw [Nat.mul_comm]; exact whole)

end Span

/-! The search. -/

variable {s : Span}

theorem withDigitsHolds (proper : s.Proper) {count : Nat} {d : Numeral} (found : withDigits? s count = some d) :
    s.Holds d.value ∧ d.digits ≤ 10 ^ count := by
  obtain ⟨n, near, rfl⟩ := Option.map_eq_some_iff.mp found
  refine ⟨(s.containsHolds _ n).mp (Span.nearestContains near), ?_⟩
  have fewer := Span.scaledFloor proper count
  rcases Span.nearestNeighbour near with same | same <;> rw [same]
  · exact fewer.le
  · exact fewer

theorem withDigitsFound (proper : s.Proper) {count n : Nat} (inside : s.Holds (n * 10 ^ (s.leading + 1 - count))) :
    withDigits? s count ≠ none := by
  have near := Span.nearestFound (Span.scaledProper proper _) ((s.containsHolds _ n).mpr inside)
  simpa [withDigits?] using near

theorem multipleBetween {low high step : ℚ} (below : 0 ≤ low) (positive : 0 < step) (narrow : step < high - low) :
    ∃ n : Nat, low < n * step ∧ n * step < high := by
  have above := Nat.lt_floor_add_one (low / step)
  have reached := Nat.floor_le (show 0 ≤ low / step by positivity)
  rw [div_lt_iff₀ positive] at above
  rw [le_div_iff₀ positive] at reached
  refine ⟨⌊low / step⌋₊ + 1, ?_, ?_⟩ <;> push_cast
  · exact above
  · linarith

theorem seventeenSuffice (proper : s.Proper) (wide : s.middle < 10 ^ 16 * (s.high - s.low)) :
    withDigits? s 17 ≠ none := by
  have unit : (0 : ℚ) < s.unit := by exact_mod_cast proper.unit
  have ordered : s.low ≤ s.high := (proper.low.trans proper.high).le
  have width : (s.middle : ℚ) < 10 ^ 16 * (s.high - s.low) := by
    have cast : ((s.high - s.low : Nat) : ℚ) = s.high - s.low := Nat.cast_sub ordered
    rw [← cast]
    exact_mod_cast wide
  have scale : s.leading + 1 - (17 : Nat) = s.leading - (16 : Nat) := by
    push_cast
    omega
  have power : (10 : ℚ) ^ s.leading = 10 ^ (s.leading - (16 : Nat)) * 10 ^ 16 := by
    rw [← zpow_natCast, ← zpow_add₀ (by norm_num), Int.sub_add_cancel]
  have leading := Span.leadingBelow proper
  rw [power] at leading
  have narrow : 10 ^ (s.leading - (16 : Nat)) * s.unit < (s.high - s.low : ℚ) := by linarith
  obtain ⟨n, above, below⟩ := multipleBetween (by positivity) (by positivity) narrow
  refine withDigitsFound (n := n) proper ?_
  rw [scale]
  unfold Span.Holds
  rw [mul_assoc]
  split
  · exact ⟨above.le, below.le⟩
  · exact ⟨above, below⟩

theorem dropZerosValue (fuel : Nat) (d : Numeral) : (dropZeros fuel d).value = d.value := by
  induction fuel generalizing d with
  | zero => rfl
  | succ fuel ih =>
    unfold dropZeros
    split
    · rename_i zero
      have split : (d.digits : ℚ) = (d.digits / 10 : Nat) * 10 := by
        exact_mod_cast (Nat.div_mul_cancel (Nat.dvd_of_mod_eq_zero zero)).symm
      rw [ih, Numeral.value, Numeral.value, split, zpow_add₀ (by norm_num), zpow_one]
      ring
    · rfl

theorem dropZerosLe (fuel : Nat) (d : Numeral) : (dropZeros fuel d).digits ≤ d.digits := by
  induction fuel generalizing d with
  | zero => exact le_rfl
  | succ fuel ih =>
    unfold dropZeros
    split
    · exact (ih _).trans (Nat.div_le_self _ _)
    · exact le_rfl

/-- A power of ten, the one number too long for its grid, has a zero to drop. -/
theorem dropZerosCount (fuel : Nat) {d : Numeral} {count : Nat} (positive : 0 < count) (bound : d.digits ≤ 10 ^ count) :
    digitCount (dropZeros (fuel + 1) d).digits ≤ count := by
  obtain ⟨rest, rfl⟩ := Nat.exists_eq_succ_of_ne_zero positive.ne'
  rw [digitCountLe positive, dropZeros]
  have power : 10 ^ (rest + 1) = 10 ^ rest * 10 := pow_succ 10 rest
  have least : 0 < 10 ^ rest := Nat.pow_pos (by decide)
  split
  · have fewer := dropZerosLe fuel ⟨d.digits / 10, d.scale + 1⟩
    dsimp only at fewer
    omega
  · omega

/-! Doubles. -/

theorem significandPositive {x : Binary64} (nonzero : x.isZero = false) : 0 < x.significand := by
  unfold Binary64.significand
  split
  · rename_i subnormal
    simpa [Binary64.isZero, subnormal, Nat.pos_iff_ne_zero] using nonzero
  · exact Nat.add_pos_right _ (Nat.pow_pos (by decide))

theorem ofBinary64Proper {x : Binary64} (nonzero : x.isZero = false) : (Span.ofBinary64 x).Proper := by
  have positive := significandPositive nonzero
  have up : 0 < Nat.pow 2 (x.exponent - 2).toNat := Nat.pow_pos (by decide)
  refine ⟨Nat.pow_pos (by decide), Nat.mul_lt_mul_of_pos_right ?_ up, Nat.mul_lt_mul_of_pos_right (by omega) up⟩
  split <;> omega

theorem ofBinary64Wide {x : Binary64} (nonzero : x.isZero = false) :
    (Span.ofBinary64 x).middle < 10 ^ 16 * ((Span.ofBinary64 x).high - (Span.ofBinary64 x).low) := by
  have positive := significandPositive nonzero
  have up : 0 < Nat.pow 2 (x.exponent - 2).toNat := Nat.pow_pos (by decide)
  have fraction : x.fraction < 2 ^ 52 := Nat.mod_lt _ (by decide)
  change 4 * x.significand * _ < 10 ^ 16 * ((4 * x.significand + 2) * _ - (4 * x.significand - _) * _)
  rw [← Nat.sub_mul, ← Nat.mul_assoc]
  refine Nat.mul_lt_mul_of_pos_right ?_ up
  split
  · rename_i narrow
    -- Just above a power of two the significand is the least there is.
    have least : x.significand = 2 ^ 52 := by
      have parts : x.fraction = 0 ∧ 1 < x.exponentField := by simpa [Binary64.hasNarrowStepBelow] using narrow
      rw [Binary64.significand, if_neg (by omega), parts.1, Nat.zero_add]
      rfl
    rw [least]
    norm_num
  · have bound : x.significand < 2 ^ 53 := by
      unfold Binary64.significand
      split
      · omega
      · change x.fraction + 2 ^ 52 < 2 ^ 53
        omega
    omega

theorem ofBinary64Holds {x : Binary64} (nonzero : x.isZero = false) (v : ℚ) :
    (Span.ofBinary64 x).Holds v ↔ x.Rounds v := by
  have positive := significandPositive nonzero
  set quarter : ℚ := 2 ^ (x.exponent - 2) with quarterIs
  set unit : ℚ := 2 ^ (-(x.exponent - 2)).toNat with unitIs
  have unitPositive : 0 < unit := by positivity
  have step : (2 : ℚ) ^ x.exponent = 4 * quarter := by
    have split : x.exponent = 2 + (x.exponent - 2) := by omega
    rw [split, zpow_add₀ (by norm_num), ← quarterIs]
    norm_num
  have narrow : (2 : ℚ) ^ (x.exponent - 1) = 2 * quarter := by
    have split : x.exponent - 1 = 1 + (x.exponent - 2) := by omega
    rw [split, zpow_add₀ (by norm_num), zpow_one]
  have low : ((Span.ofBinary64 x).low : ℚ) = (x.magnitude - x.stepBelow / 2) * unit := by
    change (((4 * x.significand - if x.hasNarrowStepBelow then 1 else 2) * 2 ^ (x.exponent - 2).toNat : Nat) : ℚ) = _
    rw [Nat.cast_mul, Nat.cast_sub (by split <;> omega), Nat.cast_pow, Nat.cast_ofNat, powerParts (by norm_num),
      ← quarterIs, ← unitIs, Binary64.magnitude, Binary64.stepBelow, step, narrow]
    split <;> push_cast <;> ring
  have high : ((Span.ofBinary64 x).high : ℚ) = (x.magnitude + 2 ^ x.exponent / 2) * unit := by
    change (((4 * x.significand + 2) * 2 ^ (x.exponent - 2).toNat : Nat) : ℚ) = _
    rw [Nat.cast_mul, Nat.cast_pow, Nat.cast_ofNat, powerParts (by norm_num), ← quarterIs, ← unitIs,
      Binary64.magnitude, step]
    push_cast
    ring
  have same : ((Span.ofBinary64 x).unit : ℚ) = unit := by
    change ((2 ^ (-(x.exponent - 2)).toNat : Nat) : ℚ) = _
    rw [unitIs]
    norm_cast
  have closed : (Span.ofBinary64 x).closed ↔ x.significand % 2 = 0 := by simp [Span.ofBinary64]
  unfold Span.Holds Binary64.Rounds
  dsimp only
  rw [low, high, same]
  simp only [closed, mul_le_mul_iff_left₀ unitPositive, mul_lt_mul_iff_left₀ unitPositive]

theorem fewerDigits (proper : s.Proper) {count : Nat} (missed : ∀ k, 0 < k → k < count → withDigits? s k = none)
    {d : Numeral} (holds : s.Holds d.value) : count ≤ digitCount d.digits := by
  by_contra less
  have positive := digitCountPositive d.digits
  have unit : (0 : ℚ) < s.unit := by exact_mod_cast proper.unit
  rcases le_or_gt ((10 : ℚ) ^ s.leading) d.value with above | below
  · have length : (d.digits : ℚ) < 10 ^ digitCount d.digits := by exact_mod_cast belowDigits d.digits
    have bound : (10 : ℚ) ^ s.leading < 10 ^ (digitCount d.digits + d.scale : Int) := by
      rw [zpow_add₀ (by norm_num), zpow_natCast]
      exact above.trans_lt (mul_lt_mul_of_pos_right length (by positivity))
    have order := (zpow_lt_zpow_iff_right₀ (by norm_num)).mp bound
    have value : d.value =
        ((d.digits * 10 ^ (d.scale - (s.leading + 1 - digitCount d.digits)).toNat : Nat) : ℚ) *
          10 ^ (s.leading + 1 - digitCount d.digits) := by
      push_cast
      rw [mul_assoc, ← zpow_natCast, ← zpow_add₀ (by norm_num), Numeral.value]
      congr 2
      omega
    rw [value] at holds
    exact withDigitsFound proper holds (missed _ positive (by omega))
  · -- Then the power of ten lies between the decimal and the double, and has one digit.
    have lead : (10 : ℚ) ^ s.leading ≤ s.middle / s.unit := (le_div_iff₀ unit).mpr (Span.leadingBelow proper)
    have power := Span.holdsBetween holds (Span.middleHolds proper) below.le lead
    have one : s.Holds ((1 : Nat) * 10 ^ (s.leading + 1 - (1 : Nat))) := by simpa using power
    exact withDigitsFound proper one (missed 1 (by decide) (by omega))

theorem leastCount {f : Nat → Option Numeral} {most : Nat} {d : Numeral}
    (found : (List.range' 1 most).findSome? f = some d) :
    ∃ count, 0 < count ∧ f count = some d ∧ ∀ k, 0 < k → k < count → f k = none := by
  obtain ⟨before, count, after, counts, hit, missed⟩ := List.findSome?_eq_some_iff.mp found
  have among : count ∈ List.range' 1 most := by simp [counts]
  obtain ⟨positive, bound⟩ := List.mem_range'_1.mp among
  refine ⟨count, positive, hit, fun k above less => missed k ?_⟩
  have inside : k ∈ before ++ count :: after := by
    rw [← counts, List.mem_range'_1]
    omega
  have sorted : (before ++ count :: after).Pairwise (· < ·) := counts ▸ List.pairwise_lt_range' 1 (by decide)
  have behind := (List.pairwise_cons.mp (List.pairwise_append.mp sorted).2.1).1
  rcases List.mem_append.mp inside with early | late
  · exact early
  · rcases List.mem_cons.mp late with rfl | later
    · exact absurd less (Nat.lt_irrefl _)
    · exact absurd (behind k later) less.asymm

theorem shortestDecimal {x : Binary64} (nonzero : x.isZero = false) :
    x.Rounds (shortest x).value ∧
      ∀ d : Numeral, x.Rounds d.value → digitCount (shortest x).digits ≤ digitCount d.digits := by
  have proper := ofBinary64Proper nonzero
  simp only [← ofBinary64Holds nonzero]
  unfold shortest
  extract_lets s found
  have enough : found ≠ none := by
    intro nothing
    exact seventeenSuffice proper (ofBinary64Wide nonzero) (List.findSome?_eq_none_iff.mp nothing 17 (by decide))
  obtain ⟨d, is⟩ := Option.ne_none_iff_exists'.mp enough
  obtain ⟨count, positive, hit, missed⟩ := leastCount is
  obtain ⟨holds, bound⟩ := withDigitsHolds proper hit
  rw [is, Option.getD_some]
  refine ⟨by rwa [dropZerosValue], fun d' holds' => ?_⟩
  exact (dropZerosCount 16 positive bound).trans (fewerDigits proper missed holds')

example : shortest ⟨1⟩ = ⟨5, -324⟩ := by decide +kernel

end SelectBuilder.Decimal
