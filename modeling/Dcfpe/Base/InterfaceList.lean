import Dcfpe.Lib.Checked
import Mathlib.Data.List.Perm.Basic

/-!
# Lists of interfaces

An `InterfaceListImpl` is a vector of pointers that it calls `AddRef` and `Release` on itself.
`held` is what these calls come to for each object.  The vector knows nothing of references, so what
is still in it when the list is destroyed is not released.
-/

set_option autoImplicit false

namespace Dcfpe.Base

/-- `null` elements are `none`.  `held` is not in the code. -/
structure InterfaceListImpl (α : Type) where
  ilist : List (Option α) := []
  held : α → Int := fun _ => 0

namespace InterfaceListImpl

variable {α : Type}

/-- `size()`, an `int32_t`. -/
def size (s : InterfaceListImpl α) : Int := (s.ilist.length : Int).bmod 4294967296

/-- The cast to `int32_t` never makes the list longer. -/
theorem size_le (s : InterfaceListImpl α) : s.size ≤ s.ilist.length :=
  Checked.bmod_le (Int.natCast_nonneg s.ilist.length)

variable [DecidableEq α]

/-- `AddRef` on an element, if it is not null. -/
def addRef (element : Option α) (s : InterfaceListImpl α) : InterfaceListImpl α :=
  { s with held := fun x => s.held x + if element = some x then 1 else 0 }

/-- `Release` on an element, if it is not null. -/
def release (element : Option α) (s : InterfaceListImpl α) : InterfaceListImpl α :=
  { s with held := fun x => s.held x - if element = some x then 1 else 0 }

/-- `DPE_OK` and `DPE_FAILED`. -/
def ok : Int := 0

def failed : Int := -1

def remove (idx : Int) (s : InterfaceListImpl α) : InterfaceListImpl α × Int :=
  if idx ≥ 0 ∧ idx < s.size then
    let s := s.release (s.ilist[idx.toNat]?).join
    ({ s with ilist := s.ilist.eraseIdx idx.toNat }, ok)
  else (s, failed)

def clear (s : InterfaceListImpl α) : InterfaceListImpl α × Int :=
  let s := s.ilist.foldl (fun s element => s.release element) s
  ({ s with ilist := [] }, ok)

def pushBack (element : Option α) (s : InterfaceListImpl α) : InterfaceListImpl α × Int :=
  let s := s.addRef element
  ({ s with ilist := s.ilist ++ [element] }, ok)

def popBack (s : InterfaceListImpl α) : InterfaceListImpl α × Int :=
  if s.size > 0 then
    let s := s.release s.ilist.getLast?.join
    ({ s with ilist := s.ilist.dropLast }, ok)
  else (s, failed)

/-- The destructor, whose body is empty, and then that of the vector. -/
def destroy (s : InterfaceListImpl α) : InterfaceListImpl α := { s with ilist := [] }

inductive Call (α : Type) where
  | pushBack (element : Option α)
  | remove (idx : Int)
  | clear
  | popBack
  deriving DecidableEq, Repr

def call (s : InterfaceListImpl α) : Call α → InterfaceListImpl α × Int
  | .pushBack element => s.pushBack element
  | .remove idx => s.remove idx
  | .clear => s.clear
  | .popBack => s.popBack

def run (calls : List (Call α)) : InterfaceListImpl α :=
  calls.foldl (fun s c => (s.call c).1) {}

/-! ## Occurrences -/

/-- How often an object is in the list. -/
def occurrences (x : α) (l : List (Option α)) : Nat := l.countP fun element => element = some x

theorem occurrences_cons (x : α) (element : Option α) (l : List (Option α)) :
    occurrences x (element :: l) = occurrences x l + if element = some x then 1 else 0 := by
  rw [occurrences, List.countP_cons, occurrences]
  simp

theorem occurrences_perm {x : α} {l l' : List (Option α)} (h : l.Perm l') :
    occurrences x l = occurrences x l' := h.countP_eq _

/-- The list holds a reference for each occurrence of an object. -/
def Counted (s : InterfaceListImpl α) : Prop := ∀ x, s.held x = occurrences x s.ilist

/-- Releasing an element and taking it out. -/
theorem Counted.taken {s : InterfaceListImpl α} (h : s.Counted) {element : Option α}
    {ilist : List (Option α)} (hperm : s.ilist.Perm (element :: ilist)) :
    Counted { s.release element with ilist } := by
  intro x
  have hcount := occurrences_perm (x := x) hperm
  rw [occurrences_cons] at hcount
  show (s.held x - if element = some x then 1 else 0 : Int) = occurrences x ilist
  rw [h x, hcount]
  split <;> omega

theorem Counted.remove {s : InterfaceListImpl α} (h : s.Counted) (idx : Int) :
    (s.remove idx).1.Counted := by
  rw [InterfaceListImpl.remove]
  split
  · next hidx =>
    have hlt : idx.toNat < s.ilist.length := by
      have := s.size_le
      omega
    have hperm := (List.getElem_cons_eraseIdx_perm hlt).symm
    rw [List.getElem?_eq_getElem hlt]
    exact h.taken hperm
  · exact h

theorem Counted.popBack {s : InterfaceListImpl α} (h : s.Counted) : s.popBack.1.Counted := by
  rw [InterfaceListImpl.popBack]
  split
  · next hsize =>
    have hne : s.ilist ≠ [] := by
      intro hnil
      have := s.size_le
      rw [hnil, List.length_nil] at this
      omega
    have hperm : s.ilist.Perm (s.ilist.getLast hne :: s.ilist.dropLast) := by
      have := List.perm_append_singleton (s.ilist.getLast hne) s.ilist.dropLast
      rwa [List.dropLast_append_getLast] at this
    rw [List.getLast?_eq_some_getLast hne]
    exact h.taken hperm
  · exact h

theorem Counted.pushBack {s : InterfaceListImpl α} (h : s.Counted) (element : Option α) :
    (s.pushBack element).1.Counted := by
  intro x
  have hcount := occurrences_perm (x := x) (List.perm_append_singleton element s.ilist)
  rw [occurrences_cons] at hcount
  show (s.held x + if element = some x then 1 else 0 : Int) = occurrences x (s.ilist ++ [element])
  rw [h x, hcount]
  split <;> omega

/-- What the loop of `clear` gives up. -/
theorem held_foldl_release (l : List (Option α)) (s : InterfaceListImpl α) (x : α) :
    (l.foldl (fun s element => s.release element) s).held x = s.held x - occurrences x l := by
  induction l generalizing s with
  | nil => exact (Int.sub_zero _).symm
  | cons element l ih =>
    rw [List.foldl_cons, ih, occurrences_cons]
    show (s.held x - if element = some x then 1 else 0 : Int) - occurrences x l = _
    split <;> omega

theorem Counted.clear {s : InterfaceListImpl α} (h : s.Counted) : s.clear.1.Counted := by
  intro x
  show (s.ilist.foldl (fun s element => s.release element) s).held x = 0
  rw [held_foldl_release, h x, Int.sub_self]

/-- Every call keeps the count, whatever its index. -/
theorem Counted.call {s : InterfaceListImpl α} (h : s.Counted) (c : Call α) :
    (s.call c).1.Counted := by
  cases c with
  | pushBack element => exact h.pushBack element
  | remove idx => exact h.remove idx
  | clear => exact h.clear
  | popBack => exact h.popBack

theorem run_counted (calls : List (Call α)) : (run calls).Counted := by
  rw [run]
  have hempty : ({} : InterfaceListImpl α).Counted := fun _ => rfl
  generalize ({} : InterfaceListImpl α) = s at hempty
  induction calls generalizing s with
  | nil => exact hempty
  | cons c calls ih => exact ih _ (hempty.call c)

/-! ## The end of a list -/

/-- What is asked of a list with a run of calls: it holds a reference for each occurrence of an
object all the time, and none when it has been destroyed. -/
structure Balanced (calls : List (Call α)) : Prop where
  counted : ∀ pre, pre <+: calls → (run pre).Counted
  destroyed : ∀ x, (run calls).destroy.held x = 0

/-- **When a list balances its references**: there is nothing in it but null when it is
destroyed. -/
theorem balanced_iff (calls : List (Call α)) :
    Balanced calls ↔ ∀ element ∈ (run calls).ilist, element = none := by
  have hheld : ∀ x, (run calls).destroy.held x = occurrences x (run calls).ilist :=
    run_counted calls
  constructor
  · intro h element helement
    cases element with
    | none => rfl
    | some x =>
      have hpos : 0 < occurrences x (run calls).ilist :=
        List.countP_pos_iff.2 ⟨some x, helement, by simp⟩
      have := (hheld x).symm.trans (h.destroyed x)
      omega
  · intro h
    refine ⟨fun pre _ => run_counted pre, fun x => ?_⟩
    have hzero : occurrences x (run calls).ilist = 0 :=
      List.countP_eq_zero.2 fun element helement => by simp [h element helement]
    rw [hheld, hzero]
    rfl

/-- The list is destroyed with an element in it. -/
theorem not_balanced : ¬ ∀ calls : List (Call Nat), Balanced calls := by
  intro h
  exact absurd ((h [.pushBack (some 0)]).destroyed 0) (by decide)

end InterfaceListImpl

end Dcfpe.Base
