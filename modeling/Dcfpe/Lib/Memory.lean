import Mathlib.Data.List.Basic
import Mathlib.Data.Int.Notation

/-!
# Blocks of memory

A block is the list of its cells.  `read`, `write` and `fill` are what `memcpy` and `std::fill` do
to one, with positions and lengths that are signed: there is no result if a cell is touched that is
not in the block.  What an operation leaves is told by the cells below a position, as a program sees
them that keeps its contents at the front of the block. -/

set_option autoImplicit false

universe u

namespace Memory

variable {α : Type u}

/-- Some cells from `start` on. -/
def read (block : List α) (start n : Int) : Option (List α) :=
  if 0 ≤ start ∧ 0 ≤ n ∧ start + n ≤ block.length then
    some ((block.drop start.toNat).take n.toNat)
  else none

/-- Cells from `start` on are overwritten. -/
def write (block : List α) (start : Int) (data : List α) : Option (List α) :=
  if 0 ≤ start ∧ start + data.length ≤ block.length then
    some (block.take start.toNat ++ data ++ block.drop (start.toNat + data.length))
  else none

/-- The cells from `start` to `stop` are overwritten, and a `stop` before `start` is never got to.
-/
def fill (block : List α) (start stop : Int) (a : α) : Option (List α) :=
  if 0 ≤ start ∧ start ≤ stop then write block start (List.replicate (stop - start).toNat a)
  else none

variable {block data : List α} {start n : Int}

end Memory
