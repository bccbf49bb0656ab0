/-!
# The pieces of a list between delimiters

`pieces p l` cuts `l` at the elements that satisfy `p` and keeps what is not empty.  A word that has
no delimiter is read back from a list where a delimiter follows it, and so are the words of a list
that are joined by delimiters or each ended by one.
-/

set_option autoImplicit false

universe u

namespace Pieces

variable {α : Type u} (p : α → Bool)

def pieces (l : List α) : List (List α) := (l.splitOnP p).filter (· ≠ [])

@[simp] theorem pieces_nil : pieces p [] = [] := rfl

variable {p}

theorem pieces_eq_single {w : List α} (hne : w ≠ []) (hw : ∀ x ∈ w, p x = false) :
    pieces p w = [w] := by
  rw [pieces, List.splitOnP_eq_singleton (by simpa using hw)]
  simp [hne]

theorem pieces_word {w : List α} (hne : w ≠ []) (hw : ∀ x ∈ w, p x = false) {sep : α}
    (hsep : p sep = true) (rest : List α) :
    pieces p (w ++ sep :: rest) = w :: pieces p rest := by
  rw [pieces, pieces, List.splitOnP_append_cons_of_forall_mem hw sep hsep,
    List.filter_cons_of_pos (by simpa using hne)]

/-- Words each ended by a delimiter. -/
theorem pieces_lines {ws : List (List α)} (hws : ∀ w ∈ ws, w ≠ [] ∧ ∀ x ∈ w, p x = false) {sep : α}
    (hsep : p sep = true) (rest : List α) :
    pieces p (ws.flatMap (· ++ [sep]) ++ rest) = ws ++ pieces p rest := by
  induction ws with
  | nil => rfl
  | cons w ws ih =>
    have hw := hws w List.mem_cons_self
    rw [List.flatMap_cons, List.append_assoc, List.append_assoc, List.singleton_append,
      pieces_word hw.1 hw.2 hsep, ih fun v hv => hws v (List.mem_cons_of_mem w hv),
      List.cons_append]

/-- Words joined by a delimiter. -/
theorem pieces_intercalate {ws : List (List α)} (hws : ∀ w ∈ ws, w ≠ [] ∧ ∀ x ∈ w, p x = false)
    {sep : α} (hsep : p sep = true) : pieces p ([sep].intercalate ws) = ws := by
  induction ws with
  | nil => rfl
  | cons w ws ih =>
    have hw := hws w List.mem_cons_self
    rcases ws with _ | ⟨v, ws⟩
    · rw [List.intercalate_singleton, pieces_eq_single hw.1 hw.2]
    · rw [List.intercalate_cons_cons, List.append_assoc, List.singleton_append,
        pieces_word hw.1 hw.2 hsep, ih fun u hu => hws u (List.mem_cons_of_mem w hu)]

end Pieces
