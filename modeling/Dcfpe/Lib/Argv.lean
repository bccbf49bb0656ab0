import Mathlib.Tactic.TypeStar

/-!
# How a command line is taken apart

`parse` follows the rules by which a Windows program gets its `argv`: blanks outside quotes separate
the words; `2n` backslashes before a quote are `n` backslashes and the quote opens or closes a
quoted part; `2n + 1` are `n` backslashes and a literal quote; other backslashes are themselves.

The words are read back from a line that quotes each of them just when none has a quote or a
backslash at its end.  That this is enough is an induction over the line; that it is needed is a
count of the characters that are in the line and in no word.
-/

set_option autoImplicit false

universe u

namespace Argv

/-- The characters the rules know. -/
structure Alphabet (α : Type u) where
  slash : α
  quote : α
  blank : α
  isBlank : α → Bool
  slash_ne_quote : slash ≠ quote
  isBlank_slash : isBlank slash = false
  isBlank_quote : isBlank quote = false
  isBlank_blank : isBlank blank = true

variable {α : Type u} [DecidableEq α] (A : Alphabet α)

/-- The words of the rest of a line, from between two words (`cur = none`) or within one, inside
quotes or not, and after `n` backslashes that are not in `cur` yet. -/
def parseFrom (cur : Option (List α)) (quoted : Bool) (n : Nat) : List α → List (List α)
  | [] => (cur.map (· ++ List.replicate n A.slash)).toList
  | c :: s =>
    if c = A.slash then parseFrom (some (cur.getD [])) quoted (n + 1) s
    else if c = A.quote then
      let word := cur.getD [] ++ List.replicate (n / 2) A.slash
      if n % 2 = 0 then parseFrom (some word) (!quoted) 0 s
      else parseFrom (some (word ++ [A.quote])) quoted 0 s
    else if A.isBlank c && !quoted then
      (cur.map (· ++ List.replicate n A.slash)).toList ++ parseFrom none false 0 s
    else parseFrom (some (cur.getD [] ++ List.replicate n A.slash ++ [c])) quoted 0 s

def parse (s : List α) : List (List α) := parseFrom A none false 0 s

/-- The words of a line whose first is the program: in it a backslash is never special, and between
quotes it goes up to the next one. -/
def parseCommand (s : List α) : List (List α) :=
  match s with
  | [] => []
  | c :: s' =>
    if c = A.quote then
      s'.takeWhile (· ≠ A.quote) :: parse A ((s'.dropWhile (· ≠ A.quote)).drop 1)
    else s.takeWhile (!A.isBlank ·) :: parse A (s.dropWhile (!A.isBlank ·))

/-- A word between quotes. -/
def enclose (w : List α) : List α := A.quote :: w ++ [A.quote]

/-- Words between quotes, separated by blanks. -/
def line : List (List α) → List α
  | [] => []
  | w :: ws => enclose A w ++ ws.flatMap fun v => A.blank :: enclose A v

/-- A word that quotes do not change. -/
def Plain (w : List α) : Prop := A.quote ∉ w ∧ w.getLast? ≠ some A.slash

instance (w : List α) : Decidable (Plain A w) := inferInstanceAs (Decidable (_ ∧ _))

variable {A}

/-! ## One character -/

/-- A character is a backslash, a quote, a blank that separates words, or a part of one. -/
theorem char_cases (c : α) (quoted : Bool) :
    c = A.slash ∨ c = A.quote ∨ c ≠ A.slash ∧ c ≠ A.quote ∧
      ((A.isBlank c && !quoted) = false ∨ A.isBlank c = true ∧ quoted = false) := by
  by_cases hslash : c = A.slash
  · exact .inl hslash
  · by_cases hquote : c = A.quote
    · exact .inr (.inl hquote)
    · refine .inr (.inr ⟨hslash, hquote, ?_⟩)
      rcases hblank : A.isBlank c && !quoted
      · exact .inl rfl
      · exact .inr (by simpa using hblank)

theorem parseFrom_slash (cur : Option (List α)) (quoted : Bool) (n : Nat) (s : List α) :
    parseFrom A cur quoted n (A.slash :: s) =
      parseFrom A (some (cur.getD [])) quoted (n + 1) s := by
  rw [parseFrom, if_pos rfl]

theorem parseFrom_quote (cur : Option (List α)) (quoted : Bool) (n : Nat) (s : List α) :
    parseFrom A cur quoted n (A.quote :: s) =
      if n % 2 = 0 then
        parseFrom A (some (cur.getD [] ++ List.replicate (n / 2) A.slash)) (!quoted) 0 s
      else
        parseFrom A (some (cur.getD [] ++ List.replicate (n / 2) A.slash ++ [A.quote])) quoted 0
          s := by
  rw [parseFrom, if_neg A.slash_ne_quote.symm, if_pos rfl]

theorem parseFrom_blank {c : α} (hc : A.isBlank c = true) (cur : Option (List α)) (n : Nat)
    (s : List α) :
    parseFrom A cur false n (c :: s) =
      (cur.map (· ++ List.replicate n A.slash)).toList ++ parseFrom A none false 0 s := by
  have hslash : c ≠ A.slash := by
    rintro rfl
    simp [A.isBlank_slash] at hc
  have hquote : c ≠ A.quote := by
    rintro rfl
    simp [A.isBlank_quote] at hc
  rw [parseFrom, if_neg hslash, if_neg hquote, if_pos (by simp [hc])]

theorem parseFrom_other {c : α} (hslash : c ≠ A.slash) (hquote : c ≠ A.quote) {quoted : Bool}
    (hblank : (A.isBlank c && !quoted) = false) (cur : Option (List α)) (n : Nat) (s : List α) :
    parseFrom A cur quoted n (c :: s) =
      parseFrom A (some (cur.getD [] ++ List.replicate n A.slash ++ [c])) quoted 0 s := by
  rw [parseFrom, if_neg hslash, if_neg hquote, hblank]
  rfl

/-! ## Plain words are read back -/

omit [DecidableEq α] in
theorem getLast?_tail {c x : α} {w : List α} (h : (c :: w).getLast? ≠ some x) :
    w.getLast? ≠ some x := by
  rcases w with _ | ⟨d, w⟩
  · simp
  · rwa [List.getLast?_cons_cons] at h

/-- Within quotes a plain word is taken as it stands, after the backslashes before it. -/
theorem parseFrom_inside {w : List α} (hw : Plain A w) {n : Nat} (hn : w ≠ [] ∨ n = 0)
    (word rest : List α) :
    parseFrom A (some word) true n (w ++ A.quote :: rest) =
      parseFrom A (some (word ++ List.replicate n A.slash ++ w)) false 0 rest := by
  obtain ⟨hquote, hlast⟩ := hw
  induction w generalizing word n with
  | nil =>
    obtain rfl : n = 0 := hn.resolve_left fun h => h rfl
    simp [parseFrom_quote]
  | cons c w ih =>
    rw [List.mem_cons, not_or] at hquote
    by_cases hc : c = A.slash
    · have hne : w ≠ [] := by
        rintro rfl
        simp [hc] at hlast
      rw [List.cons_append, hc, parseFrom_slash, Option.getD_some,
        ih (Or.inl hne) word hquote.2 (getLast?_tail hlast), List.replicate_succ',
        List.append_assoc, List.append_assoc, List.append_assoc, List.singleton_append]
    · rw [List.cons_append, parseFrom_other hc (Ne.symm hquote.1) (by simp),
        ih (Or.inr rfl) _ hquote.2 (getLast?_tail hlast)]
      simp

theorem parseFrom_enclose {w : List α} (hw : Plain A w) (rest : List α) :
    parseFrom A none false 0 (enclose A w ++ rest) = parseFrom A (some w) false 0 rest := by
  have hinside := parseFrom_inside hw (Or.inr rfl) [] rest
  rw [enclose, List.cons_append, List.cons_append, List.append_assoc, List.singleton_append,
    parseFrom_quote]
  simpa using hinside

theorem parseFrom_rest {ws : List (List α)} (hws : ∀ w ∈ ws, Plain A w) (word : List α) :
    parseFrom A (some word) false 0 (ws.flatMap fun v => A.blank :: enclose A v) = word :: ws := by
  induction ws generalizing word with
  | nil => simp [parseFrom]
  | cons w ws ih =>
    rw [List.flatMap_cons, List.cons_append, parseFrom_blank A.isBlank_blank,
      parseFrom_enclose (hws w List.mem_cons_self),
      ih fun v hv => hws v (List.mem_cons_of_mem w hv)]
    simp

theorem parse_line {ws : List (List α)} (hws : ∀ w ∈ ws, Plain A w) :
    parse A (line A ws) = ws := by
  rcases ws with _ | ⟨w, ws⟩
  · rfl
  · rw [line, parse, parseFrom_enclose (hws w List.mem_cons_self),
      parseFrom_rest fun v hv => hws v (List.mem_cons_of_mem w hv)]

/-! ## The characters that are in no word

Four counts over the rest of a line, from `n` backslashes on: the quotes that open or close a quoted
part, those that are literal, the backslashes that are dropped before a quote, and the blanks that
separate words. -/

variable (A)

def delimiters (n : Nat) : List α → Nat
  | [] => 0
  | c :: s =>
    if c = A.slash then delimiters (n + 1) s
    else if c = A.quote then (if n % 2 = 0 then 1 else 0) + delimiters 0 s
    else delimiters 0 s

def literals (n : Nat) : List α → Nat
  | [] => 0
  | c :: s =>
    if c = A.slash then literals (n + 1) s
    else if c = A.quote then n % 2 + literals 0 s
    else literals 0 s

def dropped (n : Nat) : List α → Nat
  | [] => 0
  | c :: s =>
    if c = A.slash then dropped (n + 1) s
    else if c = A.quote then (n - n / 2) + dropped 0 s
    else dropped 0 s

def separators (quoted : Bool) (n : Nat) : List α → Nat
  | [] => 0
  | c :: s =>
    if c = A.slash then separators quoted (n + 1) s
    else if c = A.quote then separators (if n % 2 = 0 then !quoted else quoted) 0 s
    else if A.isBlank c && !quoted then 1 + separators false 0 s
    else separators quoted 0 s

variable {A}

theorem literals_le_dropped (n : Nat) (s : List α) : literals A n s ≤ dropped A n s := by
  induction s generalizing n with
  | nil => simp [literals]
  | cons c s ih =>
    have h1 := ih (n + 1)
    have h0 := ih 0
    rw [literals, dropped]
    split
    · exact h1
    · split
      · omega
      · exact h0

theorem count_quote_eq (n : Nat) (s : List α) :
    s.count A.quote = delimiters A n s + literals A n s := by
  induction s generalizing n with
  | nil => simp [delimiters, literals]
  | cons c s ih =>
    have h0 := ih 0
    rw [delimiters, literals, List.count_cons]
    by_cases hslash : c = A.slash
    · simp [hslash, A.slash_ne_quote, ih (n + 1)]
    · by_cases hquote : c = A.quote
      · simp only [hquote, A.slash_ne_quote.symm, beq_self_eq_true, if_true, if_false]
        split <;> omega
      · simp [hslash, hquote, h0]

theorem count_quote_words (cur : Option (List α)) (quoted : Bool) (n : Nat) (s : List α) :
    (parseFrom A cur quoted n s).flatten.count A.quote =
      (cur.getD []).count A.quote + literals A n s := by
  have hslash : ∀ k, (List.replicate k A.slash).count A.quote = 0 := fun k =>
    List.count_eq_zero.2 fun h => A.slash_ne_quote (List.eq_of_mem_replicate h).symm
  induction s generalizing cur quoted n with
  | nil => rcases cur with _ | word <;> simp [parseFrom, literals, hslash]
  | cons c s ih =>
    rw [literals]
    rcases char_cases (A := A) c quoted with rfl | rfl | ⟨hc, hc', hother | ⟨hb, rfl⟩⟩
    · rw [parseFrom_slash, ih, if_pos rfl, Option.getD_some]
    · rw [parseFrom_quote, if_neg A.slash_ne_quote.symm, if_pos rfl]
      split
      · next h => simp [ih, hslash, h]
      · next h =>
        have h : n % 2 = 1 := by omega
        simp [ih, hslash, h, Nat.add_assoc]
    · rw [if_neg hc, if_neg hc', parseFrom_other hc hc' hother, ih]
      simp [hslash, hc']
    · rw [if_neg hc, if_neg hc', parseFrom_blank hb, List.flatten_append, List.count_append, ih]
      rcases cur with _ | word <;> simp [hslash]

/-- Every character of a line is in a word, or is counted once. -/
theorem length_eq (cur : Option (List α)) (quoted : Bool) (n : Nat) (hn : cur = none → n = 0)
    (s : List α) :
    (cur.getD []).length + n + s.length =
      (parseFrom A cur quoted n s).flatten.length + delimiters A n s + dropped A n s +
        separators A quoted n s := by
  induction s generalizing cur quoted n with
  | nil =>
    rcases cur with _ | word
    · simp [parseFrom, delimiters, dropped, separators, hn]
    · simp [parseFrom, delimiters, dropped, separators]
  | cons c s ih =>
    rw [delimiters, dropped, separators, List.length_cons]
    rcases char_cases (A := A) c quoted with rfl | rfl | ⟨hc, hc', hother | ⟨hb, rfl⟩⟩
    · have := ih (some (cur.getD [])) quoted (n + 1) (by simp)
      rw [Option.getD_some] at this
      rw [parseFrom_slash, if_pos rfl, if_pos rfl, if_pos rfl]
      omega
    · rw [parseFrom_quote]
      simp only [if_neg A.slash_ne_quote.symm, if_true]
      split
      · next h =>
        have := ih (some (cur.getD [] ++ List.replicate (n / 2) A.slash)) (!quoted) 0 (by simp)
        rw [Option.getD_some, List.length_append, List.length_replicate] at this
        omega
      · next h =>
        have := ih (some (cur.getD [] ++ List.replicate (n / 2) A.slash ++ [A.quote])) quoted 0
          (by simp)
        rw [Option.getD_some, List.length_append, List.length_append, List.length_replicate,
          List.length_singleton] at this
        omega
    · have := ih (some (cur.getD [] ++ List.replicate n A.slash ++ [c])) quoted 0 (by simp)
      rw [Option.getD_some, List.length_append, List.length_append, List.length_replicate,
        List.length_singleton] at this
      rw [parseFrom_other hc hc' hother]
      simp only [if_neg hc, if_neg hc', hother, Bool.false_eq_true, if_false]
      omega
    · have := ih none false 0 (by simp)
      rw [parseFrom_blank hb, List.flatten_append, List.length_append]
      simp only [if_neg hc, if_neg hc', hb]
      rcases cur with _ | word
      · simp [hn] at this ⊢
        omega
      · simp at this ⊢
        omega

theorem length_words_le (cur : Option (List α)) (quoted : Bool) (n : Nat) (s : List α) :
    (parseFrom A cur quoted n s).length ≤ separators A quoted n s + 1 := by
  induction s generalizing cur quoted n with
  | nil => rcases cur with _ | word <;> simp [parseFrom]
  | cons c s ih =>
    rw [separators]
    rcases char_cases (A := A) c quoted with rfl | rfl | ⟨hc, hc', hother | ⟨hb, rfl⟩⟩
    · rw [parseFrom_slash, if_pos rfl]
      exact ih _ _ _
    · rw [parseFrom_quote, if_neg A.slash_ne_quote.symm, if_pos rfl]
      split
      · exact ih _ _ _
      · exact ih _ _ _
    · rw [parseFrom_other hc hc' hother, if_neg hc, if_neg hc', hother, if_neg (by simp)]
      exact ih _ _ _
    · have hcur : (cur.map (· ++ List.replicate n A.slash)).toList.length ≤ 1 := by
        rcases cur with _ | word <;> simp
      have := ih none false 0
      rw [parseFrom_blank hb, List.length_append, if_neg hc, if_neg hc', hb, if_pos (by simp)]
      omega

/-- A backslash right before a quote is not in a word as it stands. -/
theorem dropped_pos (n : Nat) (a b : List α) :
    0 < dropped A n (a ++ A.slash :: A.quote :: b) := by
  induction a generalizing n with
  | nil =>
    rw [List.nil_append, dropped, if_pos rfl, dropped, if_neg A.slash_ne_quote.symm, if_pos rfl]
    omega
  | cons c a ih =>
    have h1 := ih (n + 1)
    have h0 := ih 0
    rw [List.cons_append, dropped]
    split
    · exact h1
    · split <;> omega

/-! ## Only plain words are read back -/

omit [DecidableEq α] in
theorem length_line (w : List α) (ws : List (List α)) :
    (line A (w :: ws)).length + 1 = (w :: ws).flatten.length + 3 * (w :: ws).length := by
  have henclose : ∀ w, (enclose A w).length = w.length + 2 := fun w => by simp [enclose]
  have hrest : (ws.flatMap fun v => A.blank :: enclose A v).length =
      ws.flatten.length + 3 * ws.length := by
    induction ws with
    | nil => rfl
    | cons v ws ih =>
      rw [List.flatMap_cons, List.length_append, ih, List.length_cons, henclose, List.flatten_cons,
        List.length_append, List.length_cons]
      omega
  rw [line, List.length_append, hrest, henclose, List.flatten_cons, List.length_append,
    List.length_cons]
  omega

theorem count_quote_line (ws : List (List α)) :
    (line A ws).count A.quote = ws.flatten.count A.quote + 2 * ws.length := by
  have hblank : A.blank ≠ A.quote := by
    intro h
    simpa [h, A.isBlank_quote] using A.isBlank_blank
  have henclose : ∀ w, (enclose A w).count A.quote = w.count A.quote + 2 := fun w => by
    simp [enclose]
  have hrest : ∀ ws : List (List α), (ws.flatMap fun v => A.blank :: enclose A v).count A.quote =
      ws.flatten.count A.quote + 2 * ws.length := by
    intro ws
    induction ws with
    | nil => rfl
    | cons v ws ih =>
      rw [List.flatMap_cons, List.count_append, ih, List.count_cons_of_ne hblank, henclose,
        List.flatten_cons, List.count_append, List.length_cons]
      omega
  rcases ws with _ | ⟨w, ws⟩
  · rfl
  · rw [line, List.count_append, henclose, hrest, List.flatten_cons, List.count_append,
      List.length_cons]
    omega

omit [DecidableEq α] in
theorem line_split {ws : List (List α)} {w : List α} (hw : w ∈ ws) :
    ∃ a b, line A ws = a ++ (w ++ A.quote :: b) := by
  obtain ⟨us, vs, rfl⟩ := List.append_of_mem hw
  rcases us with _ | ⟨u, us⟩
  · exact ⟨[A.quote], vs.flatMap fun v => A.blank :: enclose A v, by simp [line, enclose]⟩
  · exact ⟨enclose A u ++ us.flatMap (fun v => A.blank :: enclose A v) ++ [A.blank, A.quote],
      vs.flatMap fun v => A.blank :: enclose A v, by simp [line, enclose]⟩

/-- Words are read back from the line that quotes each of them just when all are plain. -/
theorem parse_line_iff (ws : List (List α)) :
    parse A (line A ws) = ws ↔ ∀ w ∈ ws, Plain A w := by
  constructor
  · intro h
    rcases ws with _ | ⟨w₀, ws₀⟩
    · simp
    · generalize hws : w₀ :: ws₀ = ws at h
      have hlength := length_line (A := A) w₀ ws₀
      rw [hws] at hlength
      have hquotes := count_quote_line (A := A) ws
      have hall := length_eq (A := A) none false 0 (fun _ => rfl) (line A ws)
      have hwords := length_words_le (A := A) none false 0 (line A ws)
      have hliteral := count_quote_words (A := A) none false 0 (line A ws)
      have hcount := count_quote_eq (A := A) 0 (line A ws)
      have hle := literals_le_dropped (A := A) 0 (line A ws)
      rw [parse] at h
      simp only [h, Option.getD_none, List.length_nil, List.count_nil] at hall hwords hliteral
      -- a quote of each word opens it and one closes it, so that nothing else is left
      have hdropped : dropped A 0 (line A ws) = 0 := by omega
      have hnone : ws.flatten.count A.quote = 0 := by omega
      intro w hw
      refine ⟨fun hq => ?_, fun hlast => ?_⟩
      · exact List.count_eq_zero.1 hnone (List.mem_flatten.2 ⟨w, hw, hq⟩)
      · obtain ⟨u, rfl⟩ := List.getLast?_eq_some_iff.1 hlast
        obtain ⟨a, b, hline⟩ := line_split (A := A) hw
        have hpos := dropped_pos (A := A) 0 (a ++ u) b
        rw [hline] at hdropped
        simp only [List.append_assoc, List.singleton_append] at hdropped hpos
        omega
  · exact parse_line

/-- As a program the first word may also end in a backslash. -/
theorem parseCommand_line_iff (w : List α) (ws : List (List α)) :
    parseCommand A (line A (w :: ws)) = w :: ws ↔ A.quote ∉ w ∧ ∀ v ∈ ws, Plain A v := by
  have hcommand : ∀ u rest : List α, A.quote ∉ u →
      parseCommand A (A.quote :: (u ++ A.quote :: rest)) = u :: parse A rest := by
    intro u rest hu
    have hne : ∀ c ∈ u, decide (c ≠ A.quote) = true := fun c hc =>
      decide_eq_true fun h => hu (h ▸ hc)
    rw [parseCommand, if_pos rfl, List.takeWhile_append_of_pos hne,
      List.dropWhile_append_of_pos hne, List.takeWhile_cons_of_neg (by simp),
      List.dropWhile_cons_of_neg (by simp), List.append_nil, List.drop_one, List.tail_cons]
  have hrest : parse A (ws.flatMap fun v => A.blank :: enclose A v) = parse A (line A ws) := by
    rcases ws with _ | ⟨v, ws⟩
    · rfl
    · rw [List.flatMap_cons, List.cons_append, parse, parseFrom_blank A.isBlank_blank]
      rfl
  have hline : line A (w :: ws) =
      A.quote :: (w ++ A.quote :: ws.flatMap fun v => A.blank :: enclose A v) := by
    simp [line, enclose]
  rw [hline]
  by_cases hw : A.quote ∈ w
  · -- the program ends at the first quote of the word
    obtain ⟨a, b, rfl, ha⟩ := List.eq_append_cons_of_mem hw
    rw [List.append_assoc, List.cons_append, hcommand a _ ha]
    simp
  · rw [hcommand w _ hw, hrest, List.cons.injEq, parse_line_iff]
    simp [hw]

end Argv
