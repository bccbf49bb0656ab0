import Dcfpe.Lib.Machine
import Mathlib.Data.List.Nodup
import Mathlib.Logic.Function.Basic

/-!
# Write-once ledgers

A ledger books what has become of each item of a fixed collection: nobody has taken it (`free`),
somebody has (`claimed`), or its outcome is known (`settled v`).  Only two entries can ever be
written — a claim on a free item, and a settlement of a claimed one — and that alone gives the
bookkeeping facts a work queue is trusted for, over any run:

* an item is settled at most once, and none that was settled before (`run_settlements_nodup`);
* a settled item keeps its outcome for ever (`run_settled`);
* the items settled at the end are those settled at the start and those the run settled, with the
  outcome it settled them with (`run_settled_iff`).

Items and outcomes are arbitrary types.
-/

set_option autoImplicit false

universe u v

namespace Ledger

/-- What a ledger says about an item. -/
inductive Entry (ω : Type v) where
  | free
  | claimed
  | settled (v : ω)
  deriving DecidableEq

/-- A ledger: the entry of every item on it; `none` is an item that is not on the ledger. -/
abbrev Book (ι : Type u) (ω : Type v) := ι → Option (Entry ω)

/-- The two things that can be written. -/
inductive Act (ι : Type u) (ω : Type v) where
  | claim (i : ι)
  | settle (i : ι) (v : ω)

variable {ι : Type u} {ω : Type v} [DecidableEq ι]

/-- Write one act: only a free item can be claimed, only a claimed one settled. -/
def post : Machine (Book ι ω) (Act ι ω)
  | B, .claim i =>
    match B i with
    | some .free => some (Function.update B i (some .claimed))
    | _ => none
  | B, .settle i v =>
    match B i with
    | some .claimed => some (Function.update B i (some (.settled v)))
    | _ => none

/-- The items claimed by a list of acts, in order. -/
def claims (as : List (Act ι ω)) : List ι :=
  as.filterMap fun | .claim i => some i | .settle _ _ => none

/-- The settlements made by a list of acts, in order. -/
def settlements (as : List (Act ι ω)) : List (ι × ω) :=
  as.filterMap fun | .claim _ => none | .settle i v => some (i, v)

omit [DecidableEq ι] in
@[simp] theorem claims_append (as bs : List (Act ι ω)) :
    claims (as ++ bs) = claims as ++ claims bs := List.filterMap_append

omit [DecidableEq ι] in
@[simp] theorem settlements_append (as bs : List (Act ι ω)) :
    settlements (as ++ bs) = settlements as ++ settlements bs := List.filterMap_append

omit [DecidableEq ι] in
@[simp] theorem claims_map_claim (is : List ι) :
    claims (is.map (.claim : ι → Act ι ω)) = is := by simp [claims, List.filterMap_map]

omit [DecidableEq ι] in
@[simp] theorem settlements_map_claim (is : List ι) :
    settlements (is.map (.claim : ι → Act ι ω)) = [] := by
  simp [settlements, List.filterMap_map]

omit [DecidableEq ι] in
@[simp] theorem claims_map_settle (ps : List (ι × ω)) :
    claims (ps.map fun p => .settle p.1 p.2) = [] := by simp [claims, List.filterMap_map]

omit [DecidableEq ι] in
@[simp] theorem settlements_map_settle (ps : List (ι × ω)) :
    settlements (ps.map fun p => .settle p.1 p.2) = ps := by
  simp [settlements, List.filterMap_map]

/-! ## One act -/

/-- Everything an act can do to a book. -/
theorem post_cases {B B' : Book ι ω} {a : Act ι ω} (h : post B a = some B') :
    (∃ i, a = .claim i ∧ B i = some .free ∧ B' = Function.update B i (some .claimed)) ∨
    (∃ i v, a = .settle i v ∧ B i = some .claimed ∧
      B' = Function.update B i (some (.settled v))) := by
  cases a with
  | claim i =>
    simp only [post] at h
    split at h
    · next hi => exact .inl ⟨i, rfl, hi, (Option.some_inj.1 h).symm⟩
    · cases h
  | settle i v =>
    simp only [post] at h
    split at h
    · next hi => exact .inr ⟨i, v, rfl, hi, (Option.some_inj.1 h).symm⟩
    · cases h

theorem post_claim {B : Book ι ω} {i : ι} (h : B i = some .free) :
    post B (.claim i) = some (Function.update B i (some .claimed)) := by simp [post, h]

theorem post_settle {B : Book ι ω} {i : ι} (v : ω) (h : B i = some .claimed) :
    post B (.settle i v) = some (Function.update B i (some (.settled v))) := by simp [post, h]

/-! ## Runs -/

variable {B B' : Book ι ω} {as : List (Act ι ω)}

/-- A run never adds an item to the ledger nor takes one off. -/
theorem run_dom (h : post.run B as = some B') (i : ι) : (B' i).isSome = (B i).isSome := by
  refine Machine.run_invariant (P := fun C => (C i).isSome = (B i).isSome) ?_ rfl h
  intro C a C' hC hpost
  rw [← hC]
  obtain ⟨j, -, hj, rfl⟩ | ⟨j, v, -, hj, rfl⟩ := post_cases hpost
  all_goals by_cases hij : i = j
  all_goals simp [hij, hj]

/-- A settled item keeps its outcome. -/
theorem run_settled (h : post.run B as = some B') {i : ι} {v : ω}
    (hi : B i = some (.settled v)) : B' i = some (.settled v) := by
  refine Machine.run_invariant (P := fun C => C i = some (.settled v)) ?_ hi h
  intro C a C' hC hpost
  obtain ⟨j, -, hj, rfl⟩ | ⟨j, w, -, hj, rfl⟩ := post_cases hpost
  all_goals have hne : i ≠ j := by rintro rfl; simp [hC] at hj
  all_goals simpa [hne] using hC

/-- What is settled at the end was settled at the start or was settled by the run. -/
theorem run_settled_iff (h : post.run B as = some B') (i : ι) (v : ω) :
    B' i = some (.settled v) ↔ B i = some (.settled v) ∨ (i, v) ∈ settlements as := by
  induction as generalizing B with
  | nil => rw [Machine.run_nil, Option.some_inj] at h; simp [settlements, h]
  | cons a as ih =>
    obtain ⟨C, hpost, hrun⟩ := Machine.run_cons.1 h
    rw [ih hrun]
    obtain ⟨j, rfl, hj, rfl⟩ | ⟨j, w, rfl, hj, rfl⟩ := post_cases hpost
    · by_cases hij : i = j
      · simp [settlements, hij, hj]
      · simp [settlements, hij]
    · by_cases hij : i = j
      · simp [settlements, hij, hj, eq_comm]
      · simp [settlements, hij]

/-- The run settles an item only if it was not settled before, and never twice. -/
theorem run_settlements_nodup (h : post.run B as = some B') :
    ((settlements as).map Prod.fst).Nodup ∧
      ∀ i v, B i = some (.settled v) → i ∉ (settlements as).map Prod.fst := by
  induction as generalizing B with
  | nil => simp [settlements]
  | cons a as ih =>
    obtain ⟨C, hpost, hrun⟩ := Machine.run_cons.1 h
    obtain ⟨hnd, hout⟩ := ih hrun
    obtain ⟨j, rfl, hj, rfl⟩ | ⟨j, w, rfl, hj, rfl⟩ := post_cases hpost
    · refine ⟨by simpa [settlements] using hnd, fun i v hi => ?_⟩
      have hne : i ≠ j := by rintro rfl; simp [hi] at hj
      simpa [settlements] using hout i v (by simpa [hne] using hi)
    · have hj' := hout j w (by simp)
      refine ⟨by simpa [settlements] using ⟨by simpa [settlements] using hj', hnd⟩, ?_⟩
      intro i v hi
      have hne : i ≠ j := by rintro rfl; simp [hi] at hj
      have hrest := hout i v (by simpa [hne] using hi)
      simpa [settlements, hne] using hrest

end Ledger
