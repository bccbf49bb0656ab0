import Mathlib.Data.List.Basic

/-!
# Machines and their runs

A `Machine σ α` is a transition system given by an executable step function: in state `s` the
label `a` is either refused (`none`) or leads to one next state.  Every choice the environment
makes — which message arrives, which thread moves, what a clock reads — is part of the label, so a
nondeterministic system is a machine whose labels carry the choices, and a *run* is a list of
labels.

What is here is the inductions over runs that every safety argument needs:

* `run_invariant` — what every step keeps, every run keeps;
* `run_invariant_of_meets` — the same, when a step keeps it only under a condition `C` on the
  state before it and its label, for the runs all of whose steps meet `C`;
* `run_history` — the same for a state together with the labels that led to it;
* `run_length_le` — how long a run can be that makes a measure fall;
* `meets_congr` — two conditions that an invariant makes equivalent are met by the same runs;
* `forall_prefix_iff` — what holds in every state of a run, as a condition on its steps;
* `always_iff` — the same for another condition, which an invariant makes equivalent.
-/

set_option autoImplicit false

universe u v

/-- A step function: a state and a label give the next state, or the label is refused. -/
abbrev Machine (σ : Type u) (α : Type v) := σ → α → Option σ

namespace Machine

variable {σ : Type u} {α : Type v} (M : Machine σ α)

/-- Take the labels of a list in order, if none of them is refused. -/
def run : σ → List α → Option σ
  | s, [] => some s
  | s, a :: as => (M s a).bind fun t => run t as

/-- Every step of the run meets `C`, a condition on the state before the step and its label.
Steps after a refused label do not count. -/
def Meets (C : σ → α → Prop) : σ → List α → Prop
  | _, [] => True
  | s, a :: as => C s a ∧ ∀ t, M s a = some t → Meets C t as

instance decidableMeets (C : σ → α → Prop) [∀ s a, Decidable (C s a)] :
    ∀ (s : σ) (as : List α), Decidable (M.Meets C s as)
  | _, [] => isTrue trivial
  | s, a :: as =>
    match h : M s a with
    | none => decidable_of_iff (C s a)
      ⟨fun hC => ⟨hC, fun t ht => by rw [h] at ht; cases ht⟩, And.left⟩
    | some t =>
      have := decidableMeets C t as
      decidable_of_iff (C s a ∧ Meets M C t as)
        ⟨fun hC => ⟨hC.1, fun u hu => by rw [h, Option.some_inj] at hu; exact hu ▸ hC.2⟩,
          fun hC => ⟨hC.1, hC.2 t h⟩⟩

variable {M}

@[simp] theorem run_nil (s : σ) : M.run s [] = some s := rfl

theorem run_cons {s u : σ} {a : α} {as : List α} :
    M.run s (a :: as) = some u ↔ ∃ t, M s a = some t ∧ M.run t as = some u := by
  simp only [run, Option.bind_eq_some_iff]

theorem run_append {as bs : List α} {s u : σ} :
    M.run s (as ++ bs) = some u ↔ ∃ t, M.run s as = some t ∧ M.run t bs = some u := by
  induction as generalizing s with
  | nil => simp
  | cons a as ih => simp only [List.cons_append, run_cons, ih]; tauto

/-- **The run rule**: what every step keeps, every run keeps. -/
theorem run_invariant {P : σ → Prop} (hstep : ∀ s a t, P s → M s a = some t → P t)
    {as : List α} {s t : σ} (hs : P s) (hrun : M.run s as = some t) : P t := by
  induction as generalizing s with
  | nil => rw [run_nil, Option.some_inj] at hrun; exact hrun ▸ hs
  | cons a as ih =>
    obtain ⟨u, hu, hrun⟩ := run_cons.1 hrun
    exact ih (hstep s a u hs hu) hrun

/-- The run rule for a step that keeps `P` only when it meets `C`. -/
theorem run_invariant_of_meets {P : σ → Prop} {C : σ → α → Prop}
    (hstep : ∀ s a t, P s → C s a → M s a = some t → P t)
    {as : List α} {s t : σ} (hs : P s) (hC : M.Meets C s as) (hrun : M.run s as = some t) :
    P t := by
  induction as generalizing s with
  | nil => rw [run_nil, Option.some_inj] at hrun; exact hrun ▸ hs
  | cons a as ih =>
    obtain ⟨u, hu, hrun⟩ := run_cons.1 hrun
    exact ih (hstep s a u hs hC.1 hu) (hC.2 u hu) hrun

/-- The run rule for what a state has to do with the labels that led to it, those of `pre` being
the ones before the run. -/
theorem run_history {P : List α → σ → Prop}
    (hstep : ∀ as s a t, P as s → M s a = some t → P (as ++ [a]) t)
    {pre as : List α} {s t : σ} (hs : P pre s) (hrun : M.run s as = some t) : P (pre ++ as) t := by
  induction as generalizing pre s with
  | nil =>
    rw [run_nil, Option.some_inj] at hrun
    rwa [List.append_nil, ← hrun]
  | cons a as ih =>
    obtain ⟨u, hu, hrun⟩ := run_cons.1 hrun
    rw [List.append_cons]
    exact ih (hstep pre s a u hs hu) hrun

/-- A run is no longer than what a measure has to fall by. -/
theorem run_length_le {P : σ → Prop} {C : σ → α → Prop} (μ : σ → Nat)
    (hstep : ∀ s a t, P s → C s a → M s a = some t → P t ∧ μ t < μ s)
    {as : List α} {s t : σ} (hs : P s) (hC : M.Meets C s as) (hrun : M.run s as = some t) :
    as.length + μ t ≤ μ s := by
  induction as generalizing s with
  | nil =>
    rw [run_nil, Option.some_inj] at hrun
    rw [hrun, List.length_nil]
    omega
  | cons a as ih =>
    obtain ⟨u, hu, hrun⟩ := run_cons.1 hrun
    obtain ⟨hP, hlt⟩ := hstep s a u hs hC.1 hu
    have := ih hP (hC.2 u hu) hrun
    rw [List.length_cons]
    omega

/-- An invariant that implies `C` makes every run meet it. -/
theorem meets_of_invariant {P : σ → Prop} {C : σ → α → Prop}
    (hstep : ∀ s a t, P s → M s a = some t → P t) (hC : ∀ s a, P s → C s a) {s : σ} (hs : P s)
    (as : List α) : M.Meets C s as := by
  induction as generalizing s with
  | nil => trivial
  | cons a as ih => exact ⟨hC s a hs, fun t ht => ih (hstep s a t hs ht)⟩

/-- Two conditions that `P` makes equivalent are met by the same runs, if a step that meets them
keeps `P`; all this for the steps that meet `F`, in runs that have no others. -/
theorem meets_congr_of_meets {P : σ → Prop} {F C D : σ → α → Prop}
    (hstep : ∀ s a t, F s a → P s → C s a → M s a = some t → P t)
    (hCD : ∀ s a, F s a → P s → (C s a ↔ D s a)) {as : List α} {s : σ} (hF : M.Meets F s as)
    (hs : P s) : M.Meets C s as ↔ M.Meets D s as := by
  induction as generalizing s with
  | nil => exact Iff.rfl
  | cons a as ih =>
    obtain ⟨ha, has⟩ := hF
    refine ⟨fun ⟨hC, h⟩ => ⟨(hCD s a ha hs).1 hC, fun t ht => ?_⟩,
      fun ⟨hD, h⟩ => ⟨(hCD s a ha hs).2 hD, fun t ht => ?_⟩⟩
    · exact (ih (has t ht) (hstep s a t ha hs hC ht)).1 (h t ht)
    · exact (ih (has t ht) (hstep s a t ha hs ((hCD s a ha hs).2 hD) ht)).2 (h t ht)

theorem Meets.imp {C D : σ → α → Prop} (hCD : ∀ s a, C s a → D s a) {as : List α} {s : σ}
    (h : M.Meets C s as) : M.Meets D s as := by
  induction as generalizing s with
  | nil => trivial
  | cons a as ih => exact ⟨hCD s a h.1, fun t ht => ih (h.2 t ht)⟩

theorem Meets.and {C D : σ → α → Prop} {as : List α} {s : σ} (hC : M.Meets C s as)
    (hD : M.Meets D s as) : M.Meets (fun s a => C s a ∧ D s a) s as := by
  induction as generalizing s with
  | nil => trivial
  | cons a as ih => exact ⟨⟨hC.1, hD.1⟩, fun t ht => ih (hC.2 t ht) (hD.2 t ht)⟩

/-- A condition on the labels alone. -/
theorem meets_labels {L : α → Prop} {as : List α} (hL : ∀ a ∈ as, L a) (s : σ) :
    M.Meets (fun _ a => L a) s as := by
  induction as generalizing s with
  | nil => trivial
  | cons a as ih =>
    exact ⟨hL a List.mem_cons_self, fun t _ => ih (fun b hb => hL b (List.mem_cons_of_mem a hb)) t⟩

theorem meets_congr_on {P : σ → Prop} {C D : σ → α → Prop} {L : α → Prop}
    (hstep : ∀ s a t, L a → P s → C s a → M s a = some t → P t)
    (hCD : ∀ s a, L a → P s → (C s a ↔ D s a)) {as : List α} (hL : ∀ a ∈ as, L a) {s : σ}
    (hs : P s) : M.Meets C s as ↔ M.Meets D s as :=
  meets_congr_of_meets hstep hCD (meets_labels hL s) hs

theorem meets_congr {P : σ → Prop} {C D : σ → α → Prop}
    (hstep : ∀ s a t, P s → C s a → M s a = some t → P t)
    (hCD : ∀ s a, P s → (C s a ↔ D s a)) {as : List α} {s : σ} (hs : P s) :
    M.Meets C s as ↔ M.Meets D s as :=
  meets_congr_on (L := fun _ => True) (fun s a t _ => hstep s a t) (fun s a _ => hCD s a)
    (fun _ _ => trivial) hs

/-- Every state of a run has `P`: the first one, and the one after each step. -/
theorem forall_prefix_iff {P : σ → Prop} {as : List α} {s : σ} :
    (∀ pre t, pre <+: as → M.run s pre = some t → P t) ↔
      P s ∧ M.Meets (fun s a => ∀ t, M s a = some t → P t) s as := by
  induction as generalizing s with
  | nil =>
    refine ⟨fun h => ⟨h [] s List.nil_prefix rfl, trivial⟩, fun ⟨hs, _⟩ pre t hpre ht => ?_⟩
    rw [List.prefix_nil.1 hpre, run_nil, Option.some_inj] at ht
    exact ht ▸ hs
  | cons a as ih =>
    constructor
    · intro h
      refine ⟨h [] s List.nil_prefix rfl, fun t ht => ?_,
        fun t ht => (ih.1 fun pre u hpre hu => ?_).2⟩
      · exact h [a] t (List.prefix_append [a] as) (run_cons.2 ⟨t, ht, rfl⟩)
      · exact h (a :: pre) u ((List.prefix_cons_inj a).2 hpre) (run_cons.2 ⟨t, ht, hu⟩)
    · rintro ⟨hs, hstep, hrest⟩ pre t hpre ht
      cases pre with
      | nil => rw [run_nil, Option.some_inj] at ht; exact ht ▸ hs
      | cons b pre =>
        obtain ⟨rfl, htail⟩ := List.cons_prefix_cons.1 hpre
        obtain ⟨u, hu, ht⟩ := run_cons.1 ht
        exact ih.2 ⟨hstep u hu, hrest u hu⟩ pre t htail ht

/-- `P` holds in all states of a run exactly if its steps meet `C`, when that is so for one step
wherever the invariant `I` holds too, and the steps that meet `C` keep `I`; all this for the steps
that meet `F`, in runs that have no others. -/
theorem always_iff_of_meets {I P : σ → Prop} {F C : σ → α → Prop}
    (hstep : ∀ s a t, F s a → I s → P s → C s a → M s a = some t → I t)
    (hiff : ∀ s a, F s a → I s → P s → ((∀ t, M s a = some t → P t) ↔ C s a))
    {as : List α} {s : σ} (hF : M.Meets F s as) (hI : I s) (hP : P s) :
    (∀ pre t, pre <+: as → M.run s pre = some t → P t) ↔ M.Meets C s as := by
  rw [forall_prefix_iff, and_iff_right hP]
  exact meets_congr_of_meets (P := fun s => I s ∧ P s)
    (fun s a t ha h hall ht =>
      ⟨hstep s a t ha h.1 h.2 ((hiff s a ha h.1 h.2).1 hall) ht, hall t ht⟩)
    (fun s a ha h => hiff s a ha h.1 h.2) hF ⟨hI, hP⟩

theorem always_iff {I P : σ → Prop} {C : σ → α → Prop}
    (hstep : ∀ s a t, I s → P s → C s a → M s a = some t → I t)
    (hiff : ∀ s a, I s → P s → ((∀ t, M s a = some t → P t) ↔ C s a)) {as : List α} {s : σ}
    (hI : I s) (hP : P s) :
    (∀ pre t, pre <+: as → M.run s pre = some t → P t) ↔ M.Meets C s as :=
  always_iff_of_meets (F := fun _ _ => True) (fun s a t _ => hstep s a t)
    (fun s a _ => hiff s a) (meets_labels (L := fun _ => True) (fun _ _ => trivial) s) hI hP

/-- A run that gets to its end was not refused on its way. -/
theorem meets_isSome {as : List α} {s t : σ} (hrun : M.run s as = some t) :
    M.Meets (fun s a => (M s a).isSome) s as := by
  induction as generalizing s with
  | nil => trivial
  | cons a as ih =>
    obtain ⟨u, hu, hrun⟩ := run_cons.1 hrun
    exact ⟨Option.isSome_of_eq_some hu, fun v hv => ih (Option.some.inj (hu.symm.trans hv) ▸ hrun)⟩

theorem meets_append {C : σ → α → Prop} {as bs : List α} {s t : σ}
    (hrun : M.run s as = some t) :
    M.Meets C s (as ++ bs) ↔ M.Meets C s as ∧ M.Meets C t bs := by
  induction as generalizing s with
  | nil =>
    rw [run_nil, Option.some_inj] at hrun
    simp [Meets, hrun]
  | cons a as ih =>
    obtain ⟨u, hu, hrun⟩ := run_cons.1 hrun
    simp only [List.cons_append, Meets, hu, Option.some_inj, forall_eq', ih hrun, and_assoc]

end Machine
