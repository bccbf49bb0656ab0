import Dcfpe.Shell.Proto
import Dcfpe.Lib.Tokens

/-!
# Command lines

A command line is taken apart by `LocalServerNode::executeCommandRemotely` and put together again
by `CommandExecutor::execute`.  The first knows double quotes, the second does not: it joins what
it is given with single spaces.

`split_join_iff` says for which lists of tokens that is harmless: those a line without quotes can
spell.  The proof weighs tokens.  A quoted token costs the line one character more than a plain
one, and joining leaves room for plain ones only.
-/

set_option autoImplicit false

namespace Dcfpe.Rs

/-! ## Splitting -/

/-- Where the loops of `executeCommandRemotely` stand: before a token, in the `while` loop of an
unquoted one, in the `for` loop of a quoted one, or at the second half of that loop's branch for
`'\\'`. -/
inductive Scan where
  | gap
  | bare (token : Text)
  | quoted (token : Text)
  | escaped (token : Text)
  deriving DecidableEq, Repr

/-- The loops over the rest of a line, whose first character is at index `now`.  A quoted token
that is not closed is dropped.  The branch for `'\\'` is taken at index 92: the code compares
`now` with the character, not `line[now]`. -/
def splitFrom : Nat → Scan → Text → List Text
  | _, .gap, [] => []
  | _, .bare token, [] => [token]
  | _, .quoted _, [] => []
  | _, .escaped _, [] => []
  | now, .gap, c :: line =>
    if c = ' ' then splitFrom (now + 1) .gap line
    else if c = '"' then splitFrom (now + 1) (.quoted []) line
    else splitFrom (now + 1) (.bare [c]) line
  | now, .bare token, c :: line =>
    if c = ' ' then token :: splitFrom (now + 1) .gap line
    else splitFrom (now + 1) (.bare (token ++ [c])) line
  | now, .quoted token, c :: line =>
    if c = '"' then token :: splitFrom (now + 1) .gap line
    else if now = '\\'.toNat then splitFrom (now + 1) (.escaped (token ++ [c])) line
    else splitFrom (now + 1) (.quoted (token ++ [c])) line
  | now, .escaped token, c :: line => splitFrom (now + 1) (.quoted (token ++ [c])) line

/-- The local `cmds` of `executeCommandRemotely`. -/
def split (line : Text) : List Text := splitFrom 0 .gap line

/-! ## Joining -/

/-- The local `arg` of `CommandExecutor::execute`. -/
def ExecuteCommandRequest.arg (command : ExecuteCommandRequest) : Text :=
  command.args.foldl (fun arg iter => arg ++ ' ' :: iter) command.cmd

/-- The tokens of a list, each but the last with a space after it. -/
def join : List Text → Text
  | [] => []
  | [t] => t
  | t :: u :: ts => t ++ ' ' :: join (u :: ts)

theorem arg_eq_join (command : ExecuteCommandRequest) :
    command.arg = join (command.cmd :: command.args) := by
  have h : ∀ (args : List Text) (cmd : Text),
      args.foldl (fun arg iter => arg ++ ' ' :: iter) cmd = join (cmd :: args) := by
    intro args
    induction args with
    | nil => exact fun _ => rfl
    | cons a args ih =>
      intro cmd
      rw [List.foldl_cons, ih, join]
      cases args <;> simp [join]
  exact h command.args command.cmd

/-! ## Plain tokens -/

/-- A token that is spelled without quotes. -/
def Plain (t : Text) : Prop := t ≠ [] ∧ ' ' ∉ t ∧ t.head? ≠ some '"'

instance (t : Text) : Decidable (Plain t) := inferInstanceAs (Decidable (_ ∧ _ ∧ _))

theorem splitFrom_bare (now : Nat) (token u : Text) (line : Text) (hu : ' ' ∉ u) :
    splitFrom now (.bare token) (u ++ ' ' :: line) =
      (token ++ u) :: splitFrom (now + u.length + 1) .gap line := by
  induction u generalizing now token with
  | nil => simp [splitFrom]
  | cons c u ih =>
    rw [List.mem_cons, not_or] at hu
    rw [List.cons_append, splitFrom, if_neg (Ne.symm hu.1), ih _ _ hu.2]
    simp [Nat.add_assoc, Nat.add_comm 1]

theorem splitFrom_bare_end (now : Nat) (token u : Text) (hu : ' ' ∉ u) :
    splitFrom now (.bare token) u = [token ++ u] := by
  induction u generalizing now token with
  | nil => simp [splitFrom]
  | cons c u ih =>
    rw [List.mem_cons, not_or] at hu
    rw [splitFrom, if_neg (Ne.symm hu.1), ih _ _ hu.2]
    simp

/-- A plain token is read from its first character on as an unquoted one. -/
theorem splitFrom_plain {t : Text} (h : Plain t) :
    ∃ c u, t = c :: u ∧ ' ' ∉ u ∧
      ∀ now line, splitFrom now .gap (t ++ line) = splitFrom (now + 1) (.bare [c]) (u ++ line) := by
  obtain ⟨hne, hsp, hq⟩ := h
  obtain ⟨c, u, rfl⟩ := List.exists_cons_of_ne_nil hne
  rw [List.mem_cons, not_or] at hsp
  refine ⟨c, u, rfl, hsp.2, fun now line => ?_⟩
  rw [List.cons_append, splitFrom, if_neg (Ne.symm hsp.1), if_neg (by simpa using hq)]

/-- Plain tokens are read back, wherever the text stands. -/
theorem splitFrom_join {ts : List Text} (h : ∀ t ∈ ts, Plain t) (now : Nat) :
    splitFrom now .gap (join ts) = ts := by
  induction ts generalizing now with
  | nil => rfl
  | cons t ts ih =>
    obtain ⟨c, u, rfl, hu, hread⟩ := splitFrom_plain (h t List.mem_cons_self)
    cases ts with
    | nil =>
      have := hread now []
      rw [List.append_nil, List.append_nil] at this
      rw [join, this, splitFrom_bare_end _ _ _ hu]
      rfl
    | cons t' ts =>
      rw [join, hread, splitFrom_bare _ _ _ _ hu,
        ih (fun t ht => h t (List.mem_cons_of_mem _ ht))]
      rfl

/-! ## What tokens cost -/

/-- What a token costs a line, with what separates it from the next. -/
def cost (t : Text) : Nat := t.length + if Plain t then 1 else 2

theorem cost_le (t : Text) : cost t ≤ t.length + 2 := by
  rw [cost]
  split <;> omega

/-- The tokens of a line cost no more than the line and one character. -/
theorem cost_splitFrom (now : Nat) (line : Text) :
    Tokens.weight cost (splitFrom now .gap line) ≤ line.length + 1 ∧
    (∀ t, Plain t →
      Tokens.weight cost (splitFrom now (.bare t) line) ≤ t.length + line.length + 1) ∧
    (∀ t, Tokens.weight cost (splitFrom now (.quoted t) line) ≤ t.length + line.length + 2) ∧
    (∀ t, Tokens.weight cost (splitFrom now (.escaped t) line) ≤ t.length + line.length + 2) := by
  induction line generalizing now with
  | nil =>
    refine ⟨by simp [splitFrom], fun t ht => ?_, fun t => by simp [splitFrom],
      fun t => by simp [splitFrom]⟩
    simp [splitFrom, cost, ht]
  | cons c line ih =>
    obtain ⟨hgap, hbare, hquoted, hescaped⟩ := ih (now + 1)
    simp only [splitFrom, List.length_cons]
    refine ⟨?_, fun t ht => ?_, fun t => ?_, fun t => ?_⟩
    · split
      · omega
      · next hsp =>
        split
        · exact Nat.le_trans (hquoted []) (by simp)
        · next hq =>
          have hplain : Plain [c] := ⟨by simp, by simpa using Ne.symm hsp, by simpa using hq⟩
          exact Nat.le_trans (hbare [c] hplain) (by simp; omega)
    · split
      · rw [Tokens.weight_cons, cost, if_pos ht]
        omega
      · next hsp =>
        have hplain : Plain (t ++ [c]) := by
          refine ⟨by simp, ?_, ?_⟩
          · simp only [List.mem_append, List.mem_singleton, not_or]
            exact ⟨ht.2.1, Ne.symm hsp⟩
          · rw [List.head?_append_of_ne_nil _ ht.1]
            exact ht.2.2
        refine Nat.le_trans (hbare _ hplain) ?_
        simp only [List.length_append, List.length_singleton]
        omega
    · have happ : (t ++ [c]).length = t.length + 1 := by simp
      split
      · have := cost_le t
        rw [Tokens.weight_cons]
        omega
      · split
        · exact Nat.le_trans (hescaped _) (by omega)
        · exact Nat.le_trans (hquoted _) (by omega)
    · refine Nat.le_trans (hquoted _) ?_
      simp only [List.length_append, List.length_singleton]
      omega

/-- What plain tokens cost is what joining them leaves room for. -/
theorem length_join (ts : List Text) (hne : ts ≠ []) :
    (join ts).length + 1 = Tokens.weight (fun t => t.length + 1) ts := by
  induction ts with
  | nil => exact absurd rfl hne
  | cons t ts ih =>
    cases ts with
    | nil => simp [join]
    | cons u ts =>
      have := ih (by simp)
      rw [Tokens.weight_cons, ← this, join, List.length_append, List.length_cons]
      omega

/-- **What survives joining and splitting**: exactly the lists of plain tokens. -/
theorem split_join_iff (ts : List Text) : split (join ts) = ts ↔ ∀ t ∈ ts, Plain t := by
  refine ⟨fun h => ?_, fun h => splitFrom_join h 0⟩
  rcases eq_or_ne ts [] with rfl | hne
  · simp
  · have hcost := (cost_splitFrom 0 (join ts)).1
    rw [show splitFrom 0 .gap (join ts) = ts from h, length_join ts hne] at hcost
    by_contra hno
    obtain ⟨t, ht, hnp⟩ : ∃ t ∈ ts, ¬ Plain t := by
      by_contra hc
      exact hno fun t ht => by_contra fun hp => hc ⟨t, ht, hp⟩
    refine absurd hcost (Nat.not_le.2 (Tokens.weight_lt _ (fun u _ => ?_) ht ?_))
    · rw [cost]
      split <;> omega
    · rw [cost, if_neg hnp]
      omega

/-! ## The tokens of a line -/

theorem head?_snoc (u : Text) (c : Char) (hu : u.head? ≠ some '"') (hc : u = [] → c ≠ '"') :
    (u ++ [c]).head? ≠ some '"' := by
  cases u with
  | nil => simpa using hc rfl
  | cons d u => exact hu

/-- No token of a line begins with a double quote. -/
theorem head?_of_mem_splitFrom (now : Nat) (line : Text) :
    (∀ t ∈ splitFrom now .gap line, t.head? ≠ some '"') ∧
    (∀ u : Text, u.head? ≠ some '"' → u ≠ [] →
      ∀ t ∈ splitFrom now (.bare u) line, t.head? ≠ some '"') ∧
    (∀ u : Text, u.head? ≠ some '"' →
      ∀ t ∈ splitFrom now (.quoted u) line, t.head? ≠ some '"') ∧
    (∀ u : Text, u.head? ≠ some '"' → u ≠ [] →
      ∀ t ∈ splitFrom now (.escaped u) line, t.head? ≠ some '"') := by
  induction line generalizing now with
  | nil =>
    refine ⟨by simp [splitFrom], fun u hu _ => ?_, by simp [splitFrom], by simp [splitFrom]⟩
    simpa [splitFrom] using hu
  | cons c line ih =>
    obtain ⟨hgap, hbare, hquoted, hescaped⟩ := ih (now + 1)
    simp only [splitFrom]
    refine ⟨?_, fun u hu hne => ?_, fun u hu => ?_, fun u hu hne => ?_⟩
    · split
      · exact hgap
      · split
        · exact hquoted [] (by simp)
        · next hq => exact hbare [c] (by simpa using hq) (by simp)
    · split
      · exact List.forall_mem_cons.2 ⟨hu, hgap⟩
      · exact hbare _ (head?_snoc u c hu fun h => absurd h hne) (by simp)
    · split
      · exact List.forall_mem_cons.2 ⟨hu, hgap⟩
      · next hq =>
        split
        · exact hescaped _ (head?_snoc u c hu fun _ => hq) (by simp)
        · exact hquoted _ (head?_snoc u c hu fun _ => hq)
    · exact hquoted _ (head?_snoc u c hu fun h => absurd h hne)

/-- The tokens of a line survive if none is empty or has a space in it. -/
theorem split_join_split_iff (line : Text) :
    split (join (split line)) = split line ↔ ∀ t ∈ split line, t ≠ [] ∧ ' ' ∉ t := by
  rw [split_join_iff]
  refine forall₂_congr fun t ht => ?_
  have hq := (head?_of_mem_splitFrom 0 line).1 t ht
  rw [Plain]
  tauto

end Dcfpe.Rs
