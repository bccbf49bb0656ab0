import Dcfpe.Dpe.TaskRange

/-!
# The limits of the range based task generator

For which arguments `RangeBasedTaskGenerator` does its arithmetic within `int64` and its loop ends.
The assertion of the constructor asks for a positive block size only.  A range that ends near the
end of `int64` makes `toRange` leave it, because the last block is measured at its full size first;
a range that is inverted by two blocks or more has a negative number of them, as the division
truncates, and then the loop begins behind its end.  `total_iff` puts the two together.
-/

set_option autoImplicit false

namespace Dcfpe

open Checked

namespace RangeBasedTaskGenerator

variable {first last blockSize : Int}

/-- No operation on the generator made from these arguments overflows or fails an assertion, and
the loop ends, having visited only tasks that there are. -/
structure Total (first last blockSize : Int) (g : RangeBasedTaskGenerator) : Prop where
  make : make first last blockSize = some g
  setRange : ∀ g₀ : RangeBasedTaskGenerator, g₀.setRange first last blockSize = some g
  count : ∃ n, g.count = some n
  toRange : ∀ id, g.firstTask ≤ id → id ≤ g.lastTask → ∃ r, g.toRange id = some r
  iterate : ∃ fuel ids, g.iterate fuel = some ids ∧
    (∀ id ∈ ids, g.firstTask ≤ id ∧ id ≤ g.lastTask) ∧ (last < first → ids = [])

/-- What the arguments have to keep within `int64`. -/
structure WithinLimits (first last blockSize : Int) : Prop where
  difference : -9223372036854775808 ≤ last - first
  sum : last - first + 1 + blockSize ≤ 9223372036854775807
  /-- The range is not inverted by two blocks. -/
  inverted : 0 < last - first + 2 * blockSize
  /-- The last block, at its full size, does not end beyond `int64`. -/
  lastBlock : first ≤ last →
    last - (last - first) % blockSize + blockSize ≤ 9223372036854775807

/-- The constructor's division. -/
theorem computeLastTask_eq_some_iff (hpos : 1 ≤ blockSize) (hfits : Fits 64 blockSize)
    {lastTask : Int} :
    computeLastTask first last blockSize = some lastTask ↔
      -9223372036854775808 ≤ last - first ∧
        last - first + 1 + blockSize ≤ 9223372036854775807 ∧
        (last - first + blockSize).tdiv blockSize = lastTask := by
  have hle : ∀ x : Int, 0 ≤ x → 0 ≤ x.tdiv blockSize ∧ x.tdiv blockSize ≤ x := fun x hx =>
    ⟨Int.tdiv_nonneg hx (by omega), Int.tdiv_le_self _ hx⟩
  have hsmall := hle (last - first + blockSize)
  have hneg := hle (-(last - first + blockSize))
  rw [Int.neg_tdiv] at hneg
  have hdiff : last - first + 1 + blockSize - 1 = last - first + blockSize := by omega
  simp only [computeLastTask, Option.bind_eq_bind, Option.bind_eq_some_iff, add_eq_some,
    sub_eq_some, div_eq_some (show blockSize ≠ 0 by omega)]
  rw [fits_iff] at hfits
  constructor
  · rintro ⟨_, ⟨hfits1, rfl⟩, _, ⟨-, rfl⟩, _, ⟨hfits2, rfl⟩, _, ⟨-, rfl⟩, -, hdiv⟩
    rw [hdiff] at hdiv
    rw [fits_iff] at hfits1 hfits2
    exact ⟨by omega, by omega, hdiv⟩
  · rintro ⟨hlo, hhi, hdiv⟩
    rw [← hdiff] at hdiv
    rw [← hdiff] at hsmall hneg
    refine ⟨_, ⟨?_, rfl⟩, _, ⟨?_, rfl⟩, _, ⟨?_, rfl⟩, _, ⟨?_, rfl⟩, ?_, hdiv⟩
    all_goals rw [fits_iff]; constructor <;> omega

/-- How the truncating division rounds. -/
theorem lastTask_cases (first last : Int) (hpos : 1 ≤ blockSize) :
    (0 ≤ last - first + blockSize ∧
      (last - first + blockSize).tdiv blockSize = Blocks.count first last blockSize) ∨
    (last - first + blockSize < 0 ∧ 0 < last - first + 2 * blockSize ∧
      (last - first + blockSize).tdiv blockSize = 0) ∨
    (last - first + 2 * blockSize ≤ 0 ∧ (last - first + blockSize).tdiv blockSize < 0) := by
  have hdiff : last - first + 1 + blockSize - 1 = last - first + blockSize := by omega
  rcases Int.lt_or_le (last - first + blockSize) 0 with hneg | hnonneg
  · right
    have hdiv : (-(last - first + blockSize)).tdiv blockSize =
        -(last - first + blockSize) / blockSize := Int.tdiv_eq_ediv_of_nonneg (by omega)
    rw [Int.neg_tdiv] at hdiv
    rcases Int.lt_or_le 0 (last - first + 2 * blockSize) with hlt | hge
    · left
      rw [Int.ediv_eq_zero_of_lt (by omega) (by omega)] at hdiv
      exact ⟨hneg, hlt, by omega⟩
    · right
      have := Int.le_ediv_of_mul_le (show 0 < blockSize by omega)
        (show 1 * blockSize ≤ -(last - first + blockSize) by omega)
      exact ⟨hge, by omega⟩
  · left
    rw [Int.tdiv_eq_ediv_of_nonneg hnonneg, Blocks.count, hdiff]
    exact ⟨hnonneg, rfl⟩

/-- The generator with a number of tasks. -/
def withTasks (first last blockSize lastTask : Int) : RangeBasedTaskGenerator :=
  { first, last, blockSize, firstTask := 1, lastTask }

theorem make_eq_some_iff (hpos : 1 ≤ blockSize) {g : RangeBasedTaskGenerator} :
    make first last blockSize = some g ↔
      ∃ lastTask, computeLastTask first last blockSize = some lastTask ∧
        withTasks first last blockSize lastTask = g := by
  rw [make, if_pos hpos, Option.bind_eq_bind, Option.bind_eq_some_iff]
  simp [withTasks]

theorem setRange_eq_make (g₀ : RangeBasedTaskGenerator) :
    g₀.setRange first last blockSize = make first last blockSize := rfl

theorem count_withTasks {lastTask : Int} (hnonneg : 0 ≤ lastTask) (hfits : Fits 64 lastTask) :
    (withTasks first last blockSize lastTask).count = some lastTask := by
  rw [fits_iff] at hfits
  rw [count, Option.bind_eq_bind]
  dsimp only [withTasks]
  rw [sub_of_fits (fits_iff.2 ⟨by omega, by omega⟩), Option.bind_some,
    add_of_fits (fits_iff.2 ⟨by omega, by omega⟩), Int.sub_add_cancel]

/-- The loop visits every task once. -/
theorem iterate_withTasks {n : Nat} (hend : Fits 64 (n + 1 : Int)) :
    (withTasks first last blockSize n).iterate (n + 1) =
      some ((List.range n).map fun i : Nat => 1 + (i : Int)) := by
  rw [iterate, taskEnd, Option.bind_eq_bind]
  dsimp only [withTasks]
  rw [add_of_fits hend, Option.bind_some]
  exact visit_eq n (n + 1) 1 _ (by omega) (by decide) hend (by omega)

/-- A loop that begins behind its end runs into the end of `int64`. -/
theorem visit_eq_none {stop : Int} (fuel : Nat) {id : Int} (h : stop < id) :
    visit fuel id stop = none := by
  induction fuel generalizing id with
  | zero => rfl
  | succ fuel ih =>
    rw [visit, if_pos (by omega), Option.bind_eq_bind, Option.bind_eq_none_iff]
    intro next hnext
    rw [add_eq_some] at hnext
    rw [ih (by omega)]
    rfl

/-- Blocks are numbered up to the one that has the last element. -/
theorem count_eq_div (first last : Int) (hpos : 1 ≤ blockSize) :
    Blocks.count first last blockSize = (last - first) / blockSize + 1 := by
  have hdiff : last - first + 1 + blockSize - 1 = last - first + blockSize := by omega
  rw [Blocks.count, hdiff, Int.add_ediv_of_dvd_right (Int.dvd_refl _), Int.ediv_self (by omega)]

theorem lower_last (hpos : 1 ≤ blockSize) :
    Blocks.lower first blockSize (Blocks.count first last blockSize - 1) =
      last - (last - first) % blockSize := by
  have hdiv := Int.emod_add_mul_ediv (last - first) blockSize
  rw [Blocks.lower, count_eq_div first last hpos, Int.add_sub_cancel, Int.mul_comm]
  omega

theorem lower_mono (first : Int) (hpos : 1 ≤ blockSize) {j k : Int} (h : j ≤ k) :
    Blocks.lower first blockSize j ≤ Blocks.lower first blockSize k := by
  have := Int.mul_le_mul_of_nonneg_right h (show 0 ≤ blockSize by omega)
  rw [Blocks.lower, Blocks.lower]
  omega

/-- A task has its range if its block, at its full size, does not end beyond `int64`. -/
theorem toRange_isSome_iff (hpos : 1 ≤ blockSize) (hfirst : Fits 64 first)
    (hsum : last - first + 1 + blockSize ≤ 9223372036854775807) {id : Int} (hlo : 1 ≤ id)
    (hhi : id ≤ Blocks.count first last blockSize) :
    (∃ r, (withTasks first last blockSize (Blocks.count first last blockSize)).toRange id =
        some r) ↔
      Blocks.lower first blockSize (id - 1) + blockSize ≤ 9223372036854775807 := by
  have hlower := Blocks.lower_le_last first hpos
    (show id - 1 < Blocks.count first last blockSize by omega)
  have hge := Blocks.first_le_lower first hpos (show 0 ≤ id - 1 by omega)
  have hdef : Blocks.lower first blockSize (id - 1) = (id - 1) * blockSize + first := rfl
  have hid := Int.mul_le_mul_of_nonneg_left hpos (show 0 ≤ id - 1 by omega)
  rw [fits_iff] at hfirst
  rw [hdef] at hlower hge ⊢
  rw [toRange, if_pos ⟨hlo, hhi⟩]
  simp only [withTasks, Option.bind_eq_bind, Option.bind_eq_some_iff, add_eq_some, sub_eq_some,
    mul_eq_some]
  constructor
  · rintro ⟨_, _, ⟨-, rfl⟩, _, ⟨-, rfl⟩, _, ⟨-, rfl⟩, _, ⟨hfits, rfl⟩, -⟩
    rw [fits_iff] at hfits
    omega
  · intro h
    refine ⟨_, _, ⟨?_, rfl⟩, _, ⟨?_, rfl⟩, _, ⟨?_, rfl⟩, _, ⟨?_, rfl⟩, _, ⟨?_, rfl⟩, rfl⟩
    all_goals rw [fits_iff]; constructor <;> omega

/-! ## Where the generator is total -/

theorem Total.withinLimits {g : RangeBasedTaskGenerator} (hpos : 1 ≤ blockSize)
    (hfirst : Fits 64 first) (hfits : Fits 64 blockSize)
    (h : Total first last blockSize g) : WithinLimits first last blockSize := by
  obtain ⟨lastTask, hlastTask, rfl⟩ := (make_eq_some_iff hpos).1 h.make
  obtain ⟨hdiff, hsum, hdiv⟩ := (computeLastTask_eq_some_iff hpos hfits).1 hlastTask
  -- a negative number of tasks keeps the loop from ending
  have hnonneg : 0 ≤ lastTask := by
    by_contra hneg
    obtain ⟨fuel, ids, hiterate, -⟩ := h.iterate
    rw [RangeBasedTaskGenerator.iterate, taskEnd, Option.bind_eq_bind,
      Option.bind_eq_some_iff] at hiterate
    obtain ⟨stop, hstop, hvisit⟩ := hiterate
    rw [add_eq_some] at hstop
    dsimp only [withTasks] at hstop
    have hnone := visit_eq_none fuel (show stop < 1 by omega)
    exact Option.some_ne_none ids (hvisit.symm.trans hnone)
  refine ⟨hdiff, hsum, ?_, fun hle => ?_⟩
  · rcases lastTask_cases first last hpos with ⟨h, -⟩ | ⟨-, h, -⟩ | ⟨-, h⟩ <;> omega
  · have hcount : Blocks.count first last blockSize = lastTask := by
      rcases lastTask_cases first last hpos with ⟨-, h⟩ | ⟨h, -⟩ | ⟨h, -⟩ <;> omega
    have hone : 1 ≤ lastTask := by
      rw [← hcount, count_eq_div first last hpos]
      have := Int.ediv_nonneg (show 0 ≤ last - first by omega) (show 0 ≤ blockSize by omega)
      omega
    have hrange := h.toRange lastTask hone (Int.le_refl _)
    subst hcount
    rw [toRange_isSome_iff hpos hfirst hsum hone (Int.le_refl _), lower_last hpos] at hrange
    exact hrange

theorem WithinLimits.total (h : WithinLimits first last blockSize) (hpos : 1 ≤ blockSize)
    (hfirst : Fits 64 first) (hfits : Fits 64 blockSize) : ∃ g, Total first last blockSize g := by
  have hmake : ∀ lastTask, (last - first + blockSize).tdiv blockSize = lastTask →
      make first last blockSize = some (withTasks first last blockSize lastTask) := fun _ hdiv =>
    (make_eq_some_iff hpos).2
      ⟨_, (computeLastTask_eq_some_iff hpos hfits).2 ⟨h.difference, h.sum, hdiv⟩, rfl⟩
  have hsum := h.sum
  rcases lastTask_cases first last hpos with ⟨hnonneg, hdiv⟩ | ⟨hneg, -, hdiv⟩ | ⟨hneg, -⟩
  · -- as many tasks as there are blocks, and none for an empty range
    have hcount := count_eq_div first last hpos
    obtain ⟨n, hn⟩ : ∃ n : Nat, Blocks.count first last blockSize = n := by
      have := Int.ediv_nonneg hnonneg (show 0 ≤ blockSize by omega)
      rw [← Int.tdiv_eq_ediv_of_nonneg hnonneg, hdiv] at this
      exact Int.eq_ofNat_of_zero_le this
    have hle : (n : Int) ≤ last - first + blockSize := by
      rw [← hn, ← hdiv]
      exact Int.tdiv_le_self _ hnonneg
    have hempty : last < first → n = 0 := by
      intro hlt
      have := Int.ediv_neg_of_neg_of_pos (show last - first < 0 by omega)
        (show 0 < blockSize by omega)
      omega
    refine ⟨withTasks first last blockSize n, hmake n (hdiv.trans hn), fun _ =>
      hmake n (hdiv.trans hn), ?_, ?_, n + 1, (List.range n).map fun i : Nat => 1 + (i : Int), ?_,
      ?_, ?_⟩
    · exact ⟨n, count_withTasks (by omega) (fits_iff.2 ⟨by omega, by omega⟩)⟩
    · intro id hlo hhi
      dsimp only [withTasks] at hlo hhi
      rw [← hn] at hhi ⊢
      rw [toRange_isSome_iff hpos hfirst hsum hlo hhi]
      have hmono := lower_mono first hpos
        (show id - 1 ≤ Blocks.count first last blockSize - 1 by omega)
      have hlast := h.lastBlock (by omega)
      rw [lower_last hpos] at hmono
      omega
    · exact iterate_withTasks (fits_iff.2 ⟨by omega, by omega⟩)
    · intro id hid
      obtain ⟨i, hi, rfl⟩ := List.mem_map.1 hid
      rw [List.mem_range] at hi
      dsimp only [withTasks]
      omega
    · intro hlt
      rw [hempty hlt]
      rfl
  · -- a range that is inverted by less than two blocks
    refine ⟨withTasks first last blockSize 0, hmake 0 hdiv, fun _ => hmake 0 hdiv, ⟨0, rfl⟩,
      fun id hlo hhi => ?_, 1, [], rfl, by simp, fun _ => rfl⟩
    dsimp only [withTasks] at hlo hhi
    omega
  · have := h.inverted
    omega

/-- The arguments a generator is meant for are within the limits. -/
theorem Suitable.withinLimits (h : Suitable first last blockSize) :
    WithinLimits first last blockSize := by
  have hrange := h.range
  have hpos := h.positive
  have hlen := fits_iff.1 h.lengthFits
  have hend := fits_iff.1 h.endFits
  have hmod := Int.emod_nonneg (last - first) (show blockSize ≠ 0 by omega)
  exact ⟨by omega, by omega, by omega, fun _ => by omega⟩

/-- **The arguments for which the generator is total.**  That `last` is an `int64` too is not
needed. -/
theorem total_iff (hfirst : Fits 64 first) (hfits : Fits 64 blockSize) (hpos : 1 ≤ blockSize) :
    (∃ g, Total first last blockSize g) ↔ WithinLimits first last blockSize :=
  ⟨fun ⟨_, h⟩ => h.withinLimits hpos hfirst hfits, fun h => h.total hpos hfirst hfits⟩

/-- Ten elements in blocks of four, and the first ones of a range that ends with `int64`. -/
theorem total_iff_sample :
    (∃ g, Total (-3) 6 4 g) ∧ ¬ ∃ g, Total 0 9223372036854775806 4 g :=
  ⟨(total_iff (by decide) (by decide) (by decide)).2
      ⟨by decide, by decide, by decide, by decide⟩,
    fun h => absurd ((total_iff (by decide) (by decide) (by decide)).1 h).sum (by decide)⟩

/-- A range that is inverted by two elements has no last task for the loop to get to. -/
theorem not_total : ¬ ∀ first last blockSize : Int, Fits 64 first → Fits 64 last →
    Fits 64 blockSize → 1 ≤ blockSize → ∃ g, Total first last blockSize g := by
  intro h
  obtain ⟨g, hg⟩ := h 1 (-1) 1 (by decide) (by decide) (by decide) (by decide)
  exact absurd (hg.withinLimits (by decide) (by decide) (by decide)).inverted (by decide)

end RangeBasedTaskGenerator

end Dcfpe
