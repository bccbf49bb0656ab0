import Dcfpe.Lib.Blocks
import Dcfpe.Lib.Checked
import Mathlib.Data.Int.ConditionallyCompleteOrder
import Mathlib.Order.CompletePartialOrder

/-!
# The range based task generator

`RangeBasedTaskGenerator` numbers the blocks of a range of integers from 1, for solvers whose tasks
are the parts of such a range.  Its `int64` arithmetic is checked arithmetic here, and a failed
`assert` is an error too, so that a function that returns something has neither overflowed nor
failed an assertion.  `partitions_range` says that the blocks are a partition of the range.
-/

set_option autoImplicit false

namespace Dcfpe

open Checked

structure RangeBasedTaskGenerator where
  first : Int
  last : Int
  blockSize : Int
  firstTask : Int
  lastTask : Int
  deriving DecidableEq, Repr

namespace RangeBasedTaskGenerator

/-- What the constructor and `setRange` compute from the fields that they have set. -/
def computeLastTask (first last blockSize : Int) : Option Int := do
  let cnt ← add 64 (← sub 64 last first) 1
  div 64 (← sub 64 (← add 64 cnt blockSize) 1) blockSize

/-- The constructor. -/
def make (first last blockSize : Int) : Option RangeBasedTaskGenerator :=
  if blockSize ≥ 1 then do
    let lastTask ← computeLastTask first last blockSize
    some { first, last, blockSize, firstTask := 1, lastTask }
  else none

def setRange (g : RangeBasedTaskGenerator) (first last blockSize : Int) :
    Option RangeBasedTaskGenerator :=
  let g := { g with first := first, last := last, blockSize := blockSize }
  if g.blockSize ≥ 1 then do
    let lastTask ← computeLastTask g.first g.last g.blockSize
    some { g with firstTask := 1, lastTask := lastTask }
  else none

/-- `begin()`, a `Task` being its id. -/
def begin (g : RangeBasedTaskGenerator) : Int := g.firstTask

/-- `end()`. -/
def taskEnd (g : RangeBasedTaskGenerator) : Option Int := add 64 g.lastTask 1

def count (g : RangeBasedTaskGenerator) : Option Int := do
  add 64 (← sub 64 g.lastTask g.firstTask) 1

def toRange (g : RangeBasedTaskGenerator) (id : Int) : Option (Int × Int) :=
  if id ≥ g.firstTask ∧ id ≤ g.lastTask then do
    let u ← add 64 (← mul 64 (← sub 64 id 1) g.blockSize) g.first
    let v ← sub 64 (← add 64 u g.blockSize) 1
    some (u, if v > g.last then g.last else v)
  else none

/-- The ids that the loop from the iterator at `id` to the one at `stop` visits, each step being
`operator++`.  The fuel bounds the number of tests of the loop. -/
def visit : Nat → Int → Int → Option (List Int)
  | 0, _, _ => none
  | fuel + 1, id, stop =>
    if id ≠ stop then do
      let rest ← visit fuel (← add 64 id 1) stop
      some (id :: rest)
    else some []

/-- `for (auto task : *this)`. -/
def iterate (g : RangeBasedTaskGenerator) (fuel : Nat) : Option (List Int) := do
  visit fuel g.begin (← g.taskEnd)

/-! ## What is asked of a range -/

/-- The arguments a generator is meant for: a block size, a range that may be empty, and two sums
that have to be `int64` values as the arguments are. -/
structure Suitable (first last blockSize : Int) : Prop where
  firstFits : Fits 64 first
  lastFits : Fits 64 last
  blockSizeFits : Fits 64 blockSize
  positive : 1 ≤ blockSize
  range : first ≤ last + 1
  lengthFits : Fits 64 (last - first + blockSize + 1)
  endFits : Fits 64 (last + blockSize)

theorem fits_iff {x : Int} :
    Fits 64 x ↔ -9223372036854775808 ≤ x ∧ x < 9223372036854775808 := Iff.rfl

variable {first last blockSize : Int}

/-- The generator that the constructor builds for suitable arguments. -/
def built (first last blockSize : Int) : RangeBasedTaskGenerator :=
  { first, last, blockSize, firstTask := 1, lastTask := Blocks.count first last blockSize }

/-- There are no more blocks than elements, so their numbers are `int64` values. -/
theorem count_le (h : Suitable first last blockSize) :
    Blocks.count first last blockSize ≤ last - first + 1 := by
  obtain ⟨-, hlt⟩ := Blocks.count_bounds first last h.positive
  have hnonneg := Blocks.count_nonneg h.positive h.range
  have hrange := h.range
  by_contra hgt
  have hmul : (Blocks.count first last blockSize - 1) * 1 ≤
      (Blocks.count first last blockSize - 1) * blockSize :=
    Int.mul_le_mul_of_nonneg_left h.positive (by omega)
  omega

theorem computeLastTask_eq (h : Suitable first last blockSize) :
    computeLastTask first last blockSize = some (Blocks.count first last blockSize) := by
  have hrange := h.range
  have hpos := h.positive
  have hlen := fits_iff.1 h.lengthFits
  have hdiv : (last - first + 1 + blockSize - 1).tdiv blockSize =
      Blocks.count first last blockSize := Int.tdiv_eq_ediv_of_nonneg (by omega)
  have hle := count_le h
  have hnonneg := Blocks.count_nonneg h.positive h.range
  simp only [computeLastTask, Option.bind_eq_bind]
  rw [sub_of_fits (fits_iff.2 ⟨by omega, by omega⟩), Option.bind_some,
    add_of_fits (fits_iff.2 ⟨by omega, by omega⟩), Option.bind_some,
    add_of_fits (fits_iff.2 ⟨by omega, by omega⟩), Option.bind_some,
    sub_of_fits (fits_iff.2 ⟨by omega, by omega⟩), Option.bind_some,
    div_of_fits (by omega) (by rw [hdiv]; exact fits_iff.2 ⟨by omega, by omega⟩), hdiv]

theorem make_eq (h : Suitable first last blockSize) :
    make first last blockSize = some (built first last blockSize) := by
  rw [make, if_pos h.positive, computeLastTask_eq h]
  rfl

theorem setRange_eq (h : Suitable first last blockSize) (g : RangeBasedTaskGenerator) :
    g.setRange first last blockSize = some (built first last blockSize) := by
  rw [setRange, if_pos (by exact h.positive), computeLastTask_eq h]
  rfl

theorem count_eq (h : Suitable first last blockSize) :
    (built first last blockSize).count = some (Blocks.count first last blockSize) := by
  have hle := count_le h
  have hlen := fits_iff.1 h.lengthFits
  have hpos := h.positive
  have hnonneg := Blocks.count_nonneg h.positive h.range
  rw [count]
  dsimp only [built]
  rw [sub_of_fits (fits_iff.2 ⟨by omega, by omega⟩), Option.bind_eq_bind, Option.bind_some,
    add_of_fits (fits_iff.2 ⟨by omega, by omega⟩), Int.sub_add_cancel]

/-- The range of a task is the block with its number. -/
theorem toRange_eq (h : Suitable first last blockSize) {id : Int} (hlo : 1 ≤ id)
    (hhi : id ≤ Blocks.count first last blockSize) :
    (built first last blockSize).toRange id =
      some (Blocks.lower first blockSize (id - 1), Blocks.upper first last blockSize (id - 1)) := by
  have hle := count_le h
  have hpos := h.positive
  have hfirst := fits_iff.1 h.firstFits
  have hlast := fits_iff.1 h.lastFits
  have hend := fits_iff.1 h.endFits
  have hlen := fits_iff.1 h.lengthFits
  have hlower := Blocks.lower_le_last first h.positive
    (show id - 1 < Blocks.count first last blockSize by omega)
  have hge := Blocks.first_le_lower first h.positive (show 0 ≤ id - 1 by omega)
  have hdef : Blocks.lower first blockSize (id - 1) = (id - 1) * blockSize + first := rfl
  rw [toRange, if_pos ⟨hlo, hhi⟩]
  dsimp only [built]
  rw [sub_of_fits (fits_iff.2 ⟨by omega, by omega⟩)]
  simp only [Option.bind_eq_bind, Option.bind_some]
  rw [mul_of_fits (fits_iff.2 ⟨by omega, by omega⟩), Option.bind_some,
    add_of_fits (by rw [← hdef]; exact fits_iff.2 ⟨by omega, by omega⟩), Option.bind_some, ← hdef,
    add_of_fits (fits_iff.2 ⟨by omega, by omega⟩), Option.bind_some,
    sub_of_fits (fits_iff.2 ⟨by omega, by omega⟩), Option.bind_some, Blocks.upper]
  have hclamp : ∀ v : Int, (if v > last then last else v) = min v last := by
    intro v; split <;> omega
  exact congrArg (fun v => some (Blocks.lower first blockSize (id - 1), v)) (hclamp _)

/-- The loop visits the ids from `id` on, `n` of them, and ends. -/
theorem visit_eq (n : Nat) : ∀ (fuel : Nat) (id stop : Int), stop = id + n →
    Fits 64 id → Fits 64 stop → n < fuel →
    visit fuel id stop = some ((List.range n).map fun i : Nat => id + i) := by
  induction n with
  | zero =>
    intro fuel id stop hstop _ _ hfuel
    obtain ⟨fuel, rfl⟩ := Nat.exists_eq_succ_of_ne_zero (Nat.ne_of_gt hfuel)
    rw [visit, if_neg (by simpa using hstop.symm)]
    rfl
  | succ n ih =>
    intro fuel id stop hstop hid hfits hfuel
    obtain ⟨fuel, rfl⟩ := Nat.exists_eq_succ_of_ne_zero (Nat.ne_of_gt (Nat.zero_lt_of_lt hfuel))
    have hnext : Fits 64 (id + 1) := hid.between hfits (by omega) (by omega)
    rw [visit, if_pos (by omega), add_of_fits hnext, Option.bind_eq_bind, Option.bind_some,
      ih fuel (id + 1) stop (by omega) hnext hfits (by omega), Option.bind_eq_bind,
      Option.bind_some, List.range_succ_eq_map, List.map_cons, List.map_map]
    congr 2
    · simp
    · exact List.map_congr_left fun i _ => by simp; omega

theorem iterate_eq (h : Suitable first last blockSize) {fuel n : Nat}
    (hn : Blocks.count first last blockSize = n) (hfuel : n < fuel) :
    (built first last blockSize).iterate fuel =
      some ((List.range n).map fun i : Nat => 1 + (i : Int)) := by
  have hle := count_le h
  have hlen := fits_iff.1 h.lengthFits
  have hpos := h.positive
  have hend : Fits 64 (Blocks.count first last blockSize + 1) := fits_iff.2 ⟨by omega, by omega⟩
  rw [iterate, taskEnd]
  dsimp only [built]
  rw [add_of_fits hend, Option.bind_eq_bind, Option.bind_some]
  exact visit_eq n fuel 1 _ (by omega) (by decide) hend hfuel

/-! ## The partition -/

/-- What a generator is for.  `n` is its number of tasks. -/
structure Partitions (first last blockSize : Int) (g : RangeBasedTaskGenerator) (n : Nat) :
    Prop where
  count : g.count = some (n : Int)
  ceil : (n : Int) = ⌈((last - first + 1 : Int) : ℚ) / blockSize⌉
  /-- The loop from `begin()` to `end()` ends, and visits the tasks in order. -/
  iterate : ∀ fuel, n < fuel →
    g.iterate fuel = some ((List.range n).map fun i : Nat => 1 + (i : Int))
  /-- Every task has a range, which is not empty and not too long. -/
  range : ∀ id : Int, 1 ≤ id → id ≤ n → ∃ u v, g.toRange id = some (u, v) ∧ u ≤ v ∧
    v - u + 1 ≤ blockSize
  /-- The ranges follow each other without a gap, from `first` to `last`. -/
  starts : 0 < n → ∃ v, g.toRange 1 = some (first, v)
  consecutive : ∀ id : Int, 1 ≤ id → id < n → ∃ u v w, g.toRange id = some (u, v) ∧
    g.toRange (id + 1) = some (v + 1, w)
  ends : 0 < n → ∃ u, g.toRange n = some (u, last)
  disjoint : ∀ id id' : Int, 1 ≤ id → id ≤ n → 1 ≤ id' → id' ≤ n → id ≠ id' → ∀ u v u' v',
    g.toRange id = some (u, v) → g.toRange id' = some (u', v') →
    Disjoint (Set.Icc u v) (Set.Icc u' v')
  union : ∀ x : Int, x ∈ Set.Icc first last ↔ ∃ id u v, 1 ≤ id ∧ id ≤ (n : Int) ∧
    g.toRange id = some (u, v) ∧ x ∈ Set.Icc u v

theorem built_partitions (h : Suitable first last blockSize) {n : Nat}
    (hn : Blocks.count first last blockSize = n) :
    Partitions first last blockSize (built first last blockSize) n where
  count := by rw [count_eq h, hn]
  ceil := by rw [← hn, Blocks.count_eq_ceil h.positive]
  iterate := fun fuel hfuel => iterate_eq h hn hfuel
  range id hlo hhi := ⟨_, _, toRange_eq h hlo (by omega),
    Blocks.lower_le_upper h.positive (by omega), Blocks.upper_sub_lower_le _⟩
  starts hpos := by
    refine ⟨Blocks.upper first last blockSize (1 - 1), ?_⟩
    rw [toRange_eq h (Int.le_refl 1) (by omega)]
    simp [Blocks.lower]
  consecutive id hlo hhi := by
    have hsucc := toRange_eq h (show 1 ≤ id + 1 by omega) (by omega)
    have hnext : id + 1 - 1 = id - 1 + 1 := by omega
    have hupper := Blocks.upper_eq first last h.positive
      (show id - 1 + 1 < Blocks.count first last blockSize by omega)
    refine ⟨_, _, Blocks.upper first last blockSize id, toRange_eq h hlo (by omega), ?_⟩
    rw [hsucc, hupper, hnext, Int.sub_add_cancel, Int.sub_add_cancel]
  ends hpos := by
    refine ⟨Blocks.lower first blockSize (n - 1), ?_⟩
    rw [toRange_eq h (by omega) (by omega), ← hn, Blocks.upper_last h.positive]
  disjoint id id' hlo hhi hlo' hhi' hne u v u' v' hr hr' := by
    rw [toRange_eq h hlo (by omega)] at hr
    rw [toRange_eq h hlo' (by omega)] at hr'
    cases hr
    cases hr'
    rw [Set.disjoint_left]
    rintro x ⟨hx1, hx2⟩ ⟨hx1', hx2'⟩
    -- the block with the smaller number lies to the left of the other
    rcases Int.lt_or_gt_of_ne hne with hlt | hgt
    · have := Blocks.upper_lt_lower first last h.positive (show id - 1 < id' - 1 by omega)
      omega
    · have := Blocks.upper_lt_lower first last h.positive (show id' - 1 < id - 1 by omega)
      omega
  union x := by
    constructor
    · rintro ⟨hx, hxl⟩
      obtain ⟨hlo, hhi, hl, hu⟩ := Blocks.mem_block h.positive hx hxl
      refine ⟨(x - first) / blockSize + 1, _, _, by omega, by omega,
        toRange_eq h (by omega) (by omega), ?_⟩
      rw [Int.add_sub_cancel]
      exact ⟨hl, hu⟩
    · rintro ⟨id, u, v, hlo, hhi, hr, hx⟩
      rw [toRange_eq h hlo (by omega)] at hr
      cases hr
      have hge := Blocks.first_le_lower first h.positive (show 0 ≤ id - 1 by omega)
      exact ⟨Int.le_trans hge hx.1, Int.le_trans hx.2 (Int.min_le_right _ _)⟩

/-- **The generator partitions the range.**  For suitable arguments the constructor and `setRange`
succeed, with every intermediate value an `int64`, and the ranges of the tasks partition the range
that was given. -/
theorem partitions_range (h : Suitable first last blockSize) :
    ∃ g n, make first last blockSize = some g ∧
      (∀ g₀ : RangeBasedTaskGenerator, g₀.setRange first last blockSize = some g) ∧
      Partitions first last blockSize g n := by
  obtain ⟨n, hn⟩ := Int.eq_ofNat_of_zero_le (Blocks.count_nonneg h.positive h.range)
  exact ⟨_, n, make_eq h, setRange_eq h, built_partitions h hn⟩

theorem suitable_sample : Suitable (-3) 6 4 := by
  constructor <;> decide

theorem partitions_range_sample : ∃ g n, make (-3) 6 4 = some g ∧
    (∀ g₀ : RangeBasedTaskGenerator, g₀.setRange (-3) 6 4 = some g) ∧ Partitions (-3) 6 4 g n :=
  partitions_range suitable_sample

end RangeBasedTaskGenerator

end Dcfpe
