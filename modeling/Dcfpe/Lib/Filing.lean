import Std.Data.TreeMap
import Mathlib.Data.List.Nodup
import Dcfpe.Lib.Tokens

/-!
# Maps whose values know their keys

A record that carries its own key is filed under it: `Filed key m` says that every value of `m`
stands under the key it names.  Such a map can be written out as the bare list of its values and
rebuilt from that list (`getElem?_fileAll_values`), also when each value has been changed on the
way by a function that keeps its key — which is what saving a table of records to a file and
reading it back comes down to.
-/

set_option autoImplicit false

open Std

universe u v

namespace Filing

variable {κ : Type u} {ν : Type v} [Ord κ] [TransOrd κ] [LawfulEqOrd κ] (key : ν → κ)

/-- Every value stands under its own key. -/
def Filed (m : TreeMap κ ν) : Prop := ∀ (k : κ) (v : ν), m[k]? = some v → key v = k

/-- File the values of a list one after the other, a later one in the place of an earlier one. -/
def fileAll (l : List ν) (m : TreeMap κ ν) : TreeMap κ ν :=
  l.foldl (fun m v => m.insert (key v) v) m

variable {key}

omit [LawfulEqOrd κ] in
theorem filed_empty : Filed key (∅ : TreeMap κ ν) := by
  intro k v h
  simp at h

theorem Filed.insert {m : TreeMap κ ν} (h : Filed key m) {k : κ} {v : ν} (hk : key v = k) :
    Filed key (m.insert k v) := by
  intro k' v' hv
  rw [TreeMap.getElem?_insert] at hv
  split at hv
  · next heq =>
    rw [← Option.some_inj.1 hv, hk]
    exact Std.compare_eq_iff_eq.1 heq
  · exact h k' v' hv

theorem Filed.fileAll {m : TreeMap κ ν} (h : Filed key m) (l : List ν) :
    Filed key (fileAll key l m) := by
  induction l generalizing m with
  | nil => exact h
  | cons v l ih => exact ih (h.insert rfl)

/-- With distinct keys in the list nothing is overwritten. -/
theorem getElem?_fileAll {l : List ν} (hnd : (l.map key).Nodup) (m : TreeMap κ ν) (k : κ)
    (v : ν) :
    (fileAll key l m)[k]? = some v ↔
      (v ∈ l ∧ key v = k) ∨ ((∀ x ∈ l, key x ≠ k) ∧ m[k]? = some v) := by
  induction l generalizing m with
  | nil => simp [fileAll]
  | cons x l ih =>
    rw [List.map_cons, List.nodup_cons] at hnd
    rw [show fileAll key (x :: l) m = fileAll key l (m.insert (key x) x) from rfl, ih hnd.2,
      TreeMap.getElem?_insert]
    by_cases hx : key x = k
    · have hl : ∀ y ∈ l, key y ≠ k := fun y hy he =>
        hnd.1 (List.mem_map.2 ⟨y, hy, he.trans hx.symm⟩)
      have hv : ¬ (v ∈ l ∧ key v = k) := fun h => hl v h.1 h.2
      rw [if_pos (Std.compare_eq_iff_eq.2 hx), Option.some_inj]
      constructor
      · rintro (h | ⟨-, rfl⟩)
        · exact absurd h hv
        · exact .inl ⟨List.mem_cons_self, hx⟩
      · rintro (⟨h, hk⟩ | ⟨h, -⟩)
        · exact .inr ⟨hl, ((List.mem_cons.1 h).resolve_right fun hm => hv ⟨hm, hk⟩).symm⟩
        · exact absurd hx (h x List.mem_cons_self)
    · rw [if_neg (fun h => hx (Std.compare_eq_iff_eq.1 h))]
      constructor
      · rintro (⟨h, hk⟩ | ⟨h, hm⟩)
        · exact .inl ⟨List.mem_cons_of_mem _ h, hk⟩
        · exact .inr ⟨List.forall_mem_cons.2 ⟨hx, h⟩, hm⟩
      · rintro (⟨h, hk⟩ | ⟨h, hm⟩)
        · refine .inl ⟨(List.mem_cons.1 h).resolve_left ?_, hk⟩
          rintro rfl
          exact hx hk
        · exact .inr ⟨(List.forall_mem_cons.1 h).2, hm⟩

/-- The values of a filed map name distinct keys. -/
theorem Filed.nodup_values {m : TreeMap κ ν} (h : Filed key m) :
    ((m.toList.map Prod.snd).map key).Nodup := by
  have hkeys : (m.toList.map Prod.snd).map key = m.toList.map Prod.fst := by
    rw [List.map_map]
    refine List.map_congr_left fun p hp => ?_
    exact h p.1 p.2 (TreeMap.mem_toList_iff_getElem?_eq_some.1 hp)
  rw [hkeys, List.Nodup, List.pairwise_map]
  exact TreeMap.distinct_keys_toList.imp fun hne he => hne (Std.compare_eq_iff_eq.2 he)

/-- **A filed map is rebuilt from its values**, changed or not, as long as they keep their keys. -/
theorem Filed.getElem?_fileAll_values {m : TreeMap κ ν} (h : Filed key m) {f : ν → ν}
    (hf : ∀ v, key (f v) = key v) (k : κ) :
    (Filing.fileAll key ((m.toList.map Prod.snd).map f) ∅)[k]? = m[k]?.map f := by
  have hnd : (((m.toList.map Prod.snd).map f).map key).Nodup := by
    rw [List.map_map, show key ∘ f = key from funext hf]
    exact h.nodup_values
  refine Option.ext fun v => ?_
  rw [getElem?_fileAll hnd, Option.map_eq_some_iff]
  constructor
  · rintro (⟨hv, hk⟩ | ⟨-, hv⟩)
    · obtain ⟨w, hw, rfl⟩ := List.mem_map.1 hv
      obtain ⟨⟨k', w'⟩, hp, rfl⟩ := List.mem_map.1 hw
      have hget := TreeMap.mem_toList_iff_getElem?_eq_some.1 hp
      have hkk : k' = k := by rw [← h k' w' hget, ← hf, hk]
      exact ⟨w', hkk ▸ hget, rfl⟩
    · simp at hv
  · rintro ⟨w, hw, rfl⟩
    refine .inl ⟨List.mem_map_of_mem (List.mem_map.2 ⟨(k, w), ?_, rfl⟩), by rw [hf, h k w hw]⟩
    exact TreeMap.mem_toList_iff_getElem?_eq_some.2 hw

/-! ## Counting over the values -/

/-- What the values hold in all after an insert: the new value counts in the place of the old. -/
theorem weight_insert (f : ν → Nat) (m : TreeMap κ ν) (k : κ) (v : ν) :
    Tokens.weight f ((m.insert k v).toList.map Prod.snd) + m[k]?.elim 0 f =
      Tokens.weight f (m.toList.map Prod.snd) + f v := by
  classical
  have hperm (w : ν) := (TreeMap.toList_insert_perm (t := m) (k := k) (v := w)).map Prod.snd
  rw [Tokens.weight_perm f (hperm v), List.map_cons, Tokens.weight_cons]
  cases h : m[k]? with
  | none =>
    have hall : m.toList.filter (¬ k == ·.1) = m.toList := by
      refine List.filter_eq_self.2 fun p hp => ?_
      have hp' := TreeMap.mem_toList_iff_getElem?_eq_some.1 hp
      have hne : k ≠ p.1 := by rintro rfl; rw [h] at hp'; cases hp'
      simpa using hne
    rw [hall, Option.elim_none, Nat.add_zero, Nat.add_comm]
  | some w =>
    have hsame : (m.insert k w).toList = m.toList := by
      refine TreeMap.Equiv.toList_eq (TreeMap.Equiv.of_forall_constGet?_eq fun i => ?_)
      rw [TreeMap.getElem?_insert]
      split
      · next hi => rw [← Std.compare_eq_iff_eq.1 hi, h]
      · rfl
    have hw := Tokens.weight_perm f (hperm w)
    rw [hsame, List.map_cons, Tokens.weight_cons] at hw
    dsimp only [Option.elim_some] at hw ⊢
    omega

end Filing
