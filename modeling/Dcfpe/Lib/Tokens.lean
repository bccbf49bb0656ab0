import Dcfpe.Lib.Machine
import Mathlib.Data.List.Perm.Basic
import Mathlib.Algebra.GroupWithZero.Nat

/-!
# Counting tokens over lists

A token that may sit in any of several places — a message, a queue, a party's memory — is followed
by counting it everywhere and adding up.  `weight f l` is the sum over a list of places `l` when
place `x` holds `f x` of them.  What a proof needs is how the sum changes when a place is added,
taken out or replaced; the last two are stated without subtraction.

Where every step spends a token and few steps bring any, runs are short: `run_length_le`.
-/

set_option autoImplicit false

universe u v w

namespace Tokens

variable {α : Type u} {β : Type v}

def weight (f : α → Nat) (l : List α) : Nat := (l.map f).sum

variable (f : α → Nat)

@[simp] theorem weight_nil : weight f [] = 0 := rfl

@[simp] theorem weight_cons (x : α) (l : List α) : weight f (x :: l) = f x + weight f l := by
  simp [weight]

@[simp] theorem weight_append (l l' : List α) : weight f (l ++ l') = weight f l + weight f l' := by
  simp [weight]

theorem weight_perm {l l' : List α} (h : l.Perm l') : weight f l = weight f l' :=
  (h.map f).sum_nat

theorem weight_eraseIdx {l : List α} {k : Nat} {x : α} (h : l[k]? = some x) :
    weight f (l.eraseIdx k) + f x = weight f l := by
  induction l generalizing k with
  | nil => simp at h
  | cons y l ih =>
    rcases k with _ | k
    · rw [List.getElem?_cons_zero, Option.some_inj] at h
      simp [h, Nat.add_comm]
    · rw [List.getElem?_cons_succ] at h
      simp [← ih h, Nat.add_assoc]

theorem weight_set {l : List α} {i : Nat} {x : α} (h : l[i]? = some x) (y : α) :
    weight f (l.set i y) + f x = weight f l + f y := by
  induction l generalizing i with
  | nil => simp at h
  | cons z l ih =>
    rcases i with _ | i
    · rw [List.getElem?_cons_zero, Option.some_inj] at h
      simp only [List.set_cons_zero, weight_cons, h]
      omega
    · rw [List.getElem?_cons_succ] at h
      simp only [List.set_cons_succ, weight_cons]
      have := ih h
      omega

theorem le_weight {l : List α} {x : α} (hx : x ∈ l) : f x ≤ weight f l := by
  obtain ⟨k, hk⟩ := List.mem_iff_getElem?.1 hx
  have := weight_eraseIdx f hk
  omega

theorem exists_pos_of_weight {l : List α} (h : 0 < weight f l) :
    ∃ (i : Nat) (x : α), l[i]? = some x ∧ 0 < f x := by
  induction l with
  | nil => exact absurd h (Nat.lt_irrefl 0)
  | cons y l ih =>
    rw [weight_cons] at h
    rcases Nat.eq_zero_or_pos (f y) with hy | hy
    · obtain ⟨i, x, hi, hx⟩ := ih (by omega)
      exact ⟨i + 1, x, hi, hx⟩
    · exact ⟨0, y, rfl, hy⟩

theorem weight_mono {g : α → Nat} {l : List α} (hle : ∀ x ∈ l, g x ≤ f x) :
    weight g l ≤ weight f l := by
  induction l with
  | nil => exact Nat.le_refl 0
  | cons y l ih =>
    rw [weight_cons, weight_cons]
    exact Nat.add_le_add (hle y List.mem_cons_self)
      (ih fun z hz => hle z (List.mem_cons_of_mem y hz))

/-- A sum is smaller when no place holds more and one holds less. -/
theorem weight_lt {g : α → Nat} {l : List α} (hle : ∀ x ∈ l, g x ≤ f x) {x : α} (hx : x ∈ l)
    (hlt : g x < f x) : weight g l < weight f l := by
  induction l with
  | nil => cases hx
  | cons y l ih =>
    have hl : ∀ z ∈ l, g z ≤ f z := fun z hz => hle z (List.mem_cons_of_mem y hz)
    rw [weight_cons, weight_cons]
    rcases List.mem_cons.1 hx with rfl | hx
    · have := weight_mono f hl
      omega
    · have := hle y List.mem_cons_self
      have := ih hl hx
      omega

/-- Two places hold no more than all of them. -/
theorem add_le_weight {l : List α} {x y : α} (hx : x ∈ l) (hy : y ∈ l) (hne : x ≠ y) :
    f x + f y ≤ weight f l := by
  obtain ⟨k, hk⟩ := List.mem_iff_getElem?.1 hx
  obtain ⟨hlt, hget⟩ := List.getElem?_eq_some_iff.1 hk
  have hsum := weight_eraseIdx f hk
  have hy' : y ∈ l.eraseIdx k := by
    have hmem := (List.getElem_cons_eraseIdx_perm hlt).mem_iff.2 hy
    rw [hget] at hmem
    exact (List.mem_cons.1 hmem).resolve_left hne.symm
  have hle := le_weight f hy'
  omega

/-- The tokens `a` held by a list of places, each of which holds a list. -/
theorem count_flatMap_eq_weight [BEq β] (g : α → List β) (a : β) (l : List α) :
    (l.flatMap g).count a = weight (fun x => (g x).count a) l := by
  induction l with
  | nil => rfl
  | cons x l ih => rw [List.flatMap_cons, List.count_append, ih, weight_cons]

/-- A run is no longer than the tokens there are at its start and those its labels bring, if every
step spends one. -/
theorem run_length_le {σ : Type w} {M : Machine σ α} {brings : α → Nat} (held : σ → Nat)
    (hstep : ∀ s a t, M s a = some t → held t + 1 ≤ held s + brings a) {as : List α} {s t : σ}
    (hrun : M.run s as = some t) : as.length + held t ≤ held s + weight brings as := by
  induction as generalizing s with
  | nil =>
    rw [Machine.run_nil, Option.some_inj] at hrun
    rw [hrun, List.length_nil, weight_nil]
    omega
  | cons a as ih =>
    obtain ⟨u, hu, hrun⟩ := Machine.run_cons.1 hrun
    have hspent := hstep s a u hu
    have hrest := ih hrun
    rw [List.length_cons, weight_cons]
    omega

end Tokens
