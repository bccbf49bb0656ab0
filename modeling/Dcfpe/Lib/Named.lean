import Mathlib.Data.List.Nodup
import Mathlib.Data.List.Induction

/-!
# Lists of named values

Entries of a list are found by name, where two names count as the same when `fold` takes them to one
value.  `place` changes the first entry with the name of a new one, and puts the new one at the end
when there is none; `values` are what a list has for a name, in order.
-/

set_option autoImplicit false

universe u v w

namespace Named

variable {κ : Type u} {φ : Type v} {β : Type w} [DecidableEq φ] (fold : κ → φ)

def place (change : β → β → β) : List (κ × β) → κ × β → List (κ × β)
  | [], new => [new]
  | entry :: l, new =>
    if fold new.1 = fold entry.1 then (entry.1, change new.2 entry.2) :: l
    else entry :: place change l new

/-- What the first entry with the name has. -/
def get : List (κ × β) → κ → Option β
  | [], _ => none
  | entry :: l, name => if fold entry.1 = fold name then some entry.2 else get l name

def values (l : List (κ × β)) (name : κ) : List β :=
  (l.filter fun entry => fold entry.1 = fold name).map Prod.snd

def keys (l : List (κ × β)) : List φ := l.map fun entry => fold entry.1

variable {fold} {change : β → β → β}

theorem values_cons (entry : κ × β) (l : List (κ × β)) (name : κ) :
    values fold (entry :: l) name =
      if fold entry.1 = fold name then entry.2 :: values fold l name else values fold l name := by
  by_cases h : fold entry.1 = fold name <;> simp [values, h]

theorem values_eq_nil_iff (l : List (κ × β)) (name : κ) :
    values fold l name = [] ↔ ∀ entry ∈ l, fold entry.1 ≠ fold name := by
  simp [values, List.filter_eq_nil_iff]

theorem get_place (l : List (κ × β)) (new : κ × β) (name : κ) :
    get fold (place fold change l new) name =
      if fold new.1 = fold name then some ((get fold l name).elim new.2 (change new.2))
      else get fold l name := by
  induction l with
  | nil => rfl
  | cons entry l ih =>
    rw [place]
    by_cases hname : fold new.1 = fold name
    · by_cases hentry : fold new.1 = fold entry.1
      · simp [get, hentry.symm.trans hname, hname]
      · have hne : fold entry.1 ≠ fold name := fun h => hentry (hname.trans h.symm)
        rw [if_neg hentry, get, if_neg hne, ih, get, if_neg hne]
    · by_cases hentry : fold new.1 = fold entry.1
      · have hne : fold entry.1 ≠ fold name := fun h => hname (hentry.trans h)
        rw [if_pos hentry, if_neg hname, get, if_neg hne, get, if_neg hne]
      · rw [if_neg hentry, get, ih, if_neg hname, if_neg hname, get]

theorem keys_place (l : List (κ × β)) (new : κ × β) :
    keys fold (place fold change l new) =
      if fold new.1 ∈ keys fold l then keys fold l else keys fold l ++ [fold new.1] := by
  induction l with
  | nil => rfl
  | cons entry l ih =>
    rw [place]
    by_cases hentry : fold new.1 = fold entry.1
    · simp [keys, hentry]
    · have hcons : keys fold (entry :: place fold change l new) =
          fold entry.1 :: keys fold (place fold change l new) := rfl
      rw [if_neg hentry, hcons, ih]
      by_cases hmem : fold new.1 ∈ keys fold l
      · simp only [hmem, if_true]
        rw [if_pos (show fold new.1 ∈ keys fold (entry :: l) from List.mem_cons_of_mem _ hmem)]
        rfl
      · simp only [hmem, if_false]
        rw [if_neg (show fold new.1 ∉ keys fold (entry :: l) from fun h =>
          (List.mem_cons.1 h).elim hentry hmem)]
        rfl

theorem nodup_place {l : List (κ × β)} (h : (keys fold l).Nodup) (new : κ × β) :
    (keys fold (place fold change l new)).Nodup := by
  rw [keys_place]
  split
  · exact h
  · next hnew =>
    exact List.nodup_append.2 ⟨h, List.nodup_singleton _, fun a ha b hb hab =>
      hnew (List.mem_singleton.1 hb ▸ hab ▸ ha)⟩

/-- The entries there are keep their places and their names. -/
theorem names_prefix_place (l : List (κ × β)) (new : κ × β) :
    l.map Prod.fst <+: (place fold change l new).map Prod.fst := by
  induction l with
  | nil => exact List.nil_prefix
  | cons entry l ih =>
    rw [place]
    split
    · exact List.prefix_rfl
    · rw [List.map_cons, List.map_cons, List.cons_prefix_cons]
      exact ⟨rfl, ih⟩

/-- An entry that the new one does not change stays where it is. -/
theorem getElem?_place {l : List (κ × β)} {i : Nat} {entry : κ × β} (h : l[i]? = some entry)
    {new : κ × β} (hkeep : fold new.1 = fold entry.1 → change new.2 entry.2 = entry.2) :
    (place fold change l new)[i]? = some entry := by
  induction l generalizing i with
  | nil => simp at h
  | cons entry' l ih =>
    rw [place]
    rcases i with _ | i
    · rw [List.getElem?_cons_zero, Option.some_inj] at h
      subst h
      split
      · next hname => rw [List.getElem?_cons_zero, hkeep hname]
      · exact List.getElem?_cons_zero
    · rw [List.getElem?_cons_succ] at h
      split
      · exact h
      · exact ih h

/-- What all names and all values have, they keep when changes keep it. -/
theorem forall_place {P : κ → Prop} {Q : β → Prop} (hQ : ∀ v old, Q v → Q old → Q (change v old))
    {l : List (κ × β)} {new : κ × β} (hl : ∀ entry ∈ l, P entry.1 ∧ Q entry.2)
    (hnew : P new.1 ∧ Q new.2) : ∀ entry ∈ place fold change l new, P entry.1 ∧ Q entry.2 := by
  induction l with
  | nil => simpa [place] using hnew
  | cons entry l ih =>
    have hentry := hl entry List.mem_cons_self
    have hrest := fun e he => hl e (List.mem_cons_of_mem entry he)
    rw [place]
    split
    · rw [List.forall_mem_cons]
      exact ⟨⟨hentry.1, hQ _ _ hnew.2 hentry.2⟩, hrest⟩
    · rw [List.forall_mem_cons]
      exact ⟨hentry, ih hrest⟩

/-! ## Many new entries -/

section Foldl

variable (change) (news l : List (κ × β)) (name : κ)

theorem get_foldl_place :
    get fold (news.foldl (place fold change) l) name =
      (values fold news name).foldl (fun old v => some (old.elim v (change v)))
        (get fold l name) := by
  induction news generalizing l with
  | nil => rfl
  | cons new news ih =>
    rw [List.foldl_cons, ih, get_place, values_cons]
    split
    · rfl
    · rfl

/-- Where present values are kept, the first one given counts. -/
theorem get_foldl_keep :
    get fold (news.foldl (place fold fun _ old => old) l) name =
      (get fold l name).or (values fold news name).head? := by
  rw [get_foldl_place]
  have hsome : ∀ (vs : List β) (old : β),
      vs.foldl (fun old v => some (old.elim v fun old => old)) (some old) = some old := by
    intro vs old
    induction vs with
    | nil => rfl
    | cons v vs ih => exact ih
  rcases get fold l name with _ | old
  · rcases values fold news name with _ | ⟨v, vs⟩
    · rfl
    · exact hsome vs v
  · exact hsome _ old

/-- Where values are replaced, the last one given counts. -/
theorem get_foldl_replace :
    get fold (news.foldl (place fold fun new _ => new) l) name =
      ((values fold news name).getLast?).or (get fold l name) := by
  rw [get_foldl_place]
  generalize values fold news name = vs
  induction vs using List.reverseRecOn with
  | nil => rfl
  | append_singleton vs v ih =>
    rw [List.foldl_append, ih, List.getLast?_append]
    rcases (vs.getLast?).or (get fold l name) with _ | old
    · rfl
    · rfl

end Foldl

theorem get_foldl_merge {γ : Type w} (news l : List (κ × List γ)) (name : κ) :
    get fold (news.foldl (place fold fun new old => new ++ old) l) name =
      if values fold news name = [] then get fold l name
      else some ((values fold news name).reverse.flatten ++ (get fold l name).getD []) := by
  rw [get_foldl_place]
  generalize values fold news name = vs
  induction vs using List.reverseRecOn with
  | nil => rfl
  | append_singleton vs v ih =>
    rw [List.foldl_append, ih, List.reverse_concat, List.flatten_cons]
    split
    · next hvs =>
      rcases get fold l name with _ | old
      · simp [hvs]
      · simp [hvs]
    · simp

theorem nodup_foldl_place {news l : List (κ × β)} (h : (keys fold l).Nodup) :
    (keys fold (news.foldl (place fold change) l)).Nodup := by
  induction news generalizing l with
  | nil => exact h
  | cons new news ih => exact ih (nodup_place h new)

theorem names_prefix_foldl (news l : List (κ × β)) :
    l.map Prod.fst <+: (news.foldl (place fold change) l).map Prod.fst := by
  induction news generalizing l with
  | nil => exact List.prefix_rfl
  | cons new news ih => exact (names_prefix_place l new).trans (ih _)

theorem getElem?_foldl_place {news l : List (κ × β)} {i : Nat} {entry : κ × β}
    (h : l[i]? = some entry)
    (hkeep : ∀ new ∈ news, fold new.1 = fold entry.1 → change new.2 entry.2 = entry.2) :
    (news.foldl (place fold change) l)[i]? = some entry := by
  induction news generalizing l with
  | nil => exact h
  | cons new news ih =>
    exact ih (getElem?_place h (hkeep new List.mem_cons_self))
      fun new' hnew' => hkeep new' (List.mem_cons_of_mem new hnew')

theorem forall_foldl_place {P : κ → Prop} {Q : β → Prop}
    (hQ : ∀ v old, Q v → Q old → Q (change v old)) {news l : List (κ × β)}
    (hl : ∀ entry ∈ l, P entry.1 ∧ Q entry.2) (hnews : ∀ new ∈ news, P new.1 ∧ Q new.2) :
    ∀ entry ∈ news.foldl (place fold change) l, P entry.1 ∧ Q entry.2 := by
  induction news generalizing l with
  | nil => exact hl
  | cons new news ih =>
    exact ih (forall_place hQ hl (hnews new List.mem_cons_self))
      fun new' hnew' => hnews new' (List.mem_cons_of_mem new hnew')

end Named
