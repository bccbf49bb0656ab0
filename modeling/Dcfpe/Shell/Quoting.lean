import Dcfpe.Shell.LocalServerNode

/-!
# Quoted words

A command line is a list of words, bare or in double quotes; inside the quotes a backslash is to
take the next character with it.  `split_line_iff` says which lines of that kind the loops of
`executeCommandRemotely` read back.  They look for the backslash at one place of the line only, the
one whose index is the code of the character: there any character of a quoted word takes the next
one with it, and a quote after a backslash that stands anywhere else ends the word.
-/

set_option autoImplicit false

namespace Dcfpe.Rs

/-! ## Words and lines -/

/-- What can stand between double quotes: a backslash has a character after it, and a double quote
has a backslash before it. -/
inductive Quotable : Text → Prop where
  | nil : Quotable []
  | char {c : Char} {t : Text} (hq : c ≠ '"') (hb : c ≠ '\\') (ht : Quotable t) : Quotable (c :: t)
  | escape {c : Char} {t : Text} (ht : Quotable t) : Quotable ('\\' :: c :: t)

/-- A word as it is written. -/
inductive Word where
  | bare (t : Text) (h : Plain t)
  | quoted (t : Text) (h : Quotable t)

namespace Word

def content : Word → Text
  | bare t _ => t
  | quoted t _ => t

def spelled : Word → Text
  | bare t _ => t
  | quoted t _ => '"' :: t ++ ['"']

/-- The word is read back if its first character is at index `now`: its double quotes, the closing
one apart, stand right after the index that the loop takes for a backslash, and the closing one does
not, unless it closes the empty word. -/
def ReadableAt (now : Nat) : Word → Prop
  | bare _ _ => True
  | quoted t _ =>
    (∀ i, t[i]? = some '"' → now + 1 + i = '\\'.toNat + 1) ∧
      (t ≠ [] → now + 1 + t.length ≠ '\\'.toNat + 1)

end Word

def spaces (n : Nat) : Text := List.replicate n ' '

/-- Words, each after some spaces. -/
def spellWords (words : List (Nat × Word)) : Text :=
  words.flatMap fun p => spaces p.1 ++ p.2.spelled

/-- A line of words: what stands before each of them and after the last one is spaces, and there is
at least one between two words. -/
structure Spelling where
  words : List (Nat × Word)
  trailing : Nat
  separated : ∀ p ∈ words.tail, 0 < p.1

namespace Spelling

def line (s : Spelling) : Text := spellWords s.words ++ spaces s.trailing

def contents (s : Spelling) : List Text := s.words.map fun p => p.2.content

/-- Each word is read back from where it stands. -/
def Readable (s : Spelling) : Prop :=
  ∀ before n w after, s.words = before ++ (n, w) :: after →
    w.ReadableAt ((spellWords before).length + n)

end Spelling

/-! ## Reading one word -/

theorem splitFrom_spaces (now n : Nat) (line : Text) :
    splitFrom now .gap (spaces n ++ line) = splitFrom (now + n) .gap line := by
  induction n generalizing now with
  | zero => rfl
  | succ n ih =>
    rw [spaces, List.replicate_succ, List.cons_append, splitFrom, if_pos rfl, ← spaces, ih]
    congr 1
    omega

theorem splitFrom_spaces_end (now n : Nat) : splitFrom now .gap (spaces n) = [] := by
  have h := splitFrom_spaces now n []
  rw [List.append_nil] at h
  exact h

/-- The first word that is read goes on from what there is of it. -/
theorem splitFrom_head (now : Nat) (line u : Text) (ts : List Text) :
    (∀ t, splitFrom now (.bare t) line = u :: ts → t <+: u) ∧
    (∀ t, splitFrom now (.quoted t) line = u :: ts → t <+: u) ∧
    (∀ t, splitFrom now (.escaped t) line = u :: ts → t <+: u) := by
  induction line generalizing now with
  | nil =>
    refine ⟨fun t h => ?_, fun t h => ?_, fun t h => ?_⟩
    · rw [splitFrom, List.cons_eq_cons] at h
      exact h.1 ▸ List.prefix_rfl
    · cases h
    · cases h
  | cons c line ih =>
    obtain ⟨hbare, hquoted, hescaped⟩ := ih (now + 1)
    refine ⟨fun t h => ?_, fun t h => ?_, fun t h => ?_⟩
    · rw [splitFrom] at h
      split at h
      · rw [List.cons_eq_cons] at h
        exact h.1 ▸ List.prefix_rfl
      · exact (List.prefix_append _ _).trans (hbare _ h)
    · rw [splitFrom] at h
      split at h
      · rw [List.cons_eq_cons] at h
        exact h.1 ▸ List.prefix_rfl
      · split at h
        · exact (List.prefix_append _ _).trans (hescaped _ h)
        · exact (List.prefix_append _ _).trans (hquoted _ h)
    · rw [splitFrom] at h
      exact (List.prefix_append _ _).trans (hquoted _ h)

/-- `Word.ReadableAt` for the rest `t` of a quoted word, whose first character is at index `now`. -/
def Reads (now : Nat) (t : Text) : Prop :=
  (∀ i, t[i]? = some '"' → 0 < i ∧ now + i = '\\'.toNat + 1) ∧
    (t ≠ [] → now + t.length ≠ '\\'.toNat + 1)

/-- The same right after the index that is taken for a backslash, where any character goes. -/
def ReadsEscaped (now : Nat) (t : Text) : Prop :=
  now = '\\'.toNat + 1 → t ≠ [] ∧ ∀ i, 0 < i → t[i]? ≠ some '"'

theorem reads_nil (now : Nat) : Reads now [] := ⟨by simp, fun h => absurd rfl h⟩

theorem reads_cons {now : Nat} {c : Char} {t : Text} (hq : c ≠ '"') (hnow : now ≠ '\\'.toNat) :
    Reads now (c :: t) ↔ Reads (now + 1) t := by
  constructor
  · rintro ⟨hquotes, hclose⟩
    refine ⟨fun i hi => ?_, fun _ => ?_⟩
    · have := hquotes (i + 1) (by simpa using hi)
      omega
    · have := hclose (by simp)
      rw [List.length_cons] at this
      omega
  · rintro ⟨hquotes, hclose⟩
    refine ⟨fun i hi => ?_, fun _ => ?_⟩
    · rcases i with _ | i
      · exact absurd (by simpa using hi) hq
      · have := hquotes i (by simpa using hi)
        omega
    · rw [List.length_cons]
      rcases eq_or_ne t [] with rfl | hne
      · rw [List.length_nil]
        omega
      · have := hclose hne
        omega

theorem reads_cons_escape {c : Char} {t : Text} (hq : c ≠ '"') :
    Reads '\\'.toNat (c :: t) ↔ ReadsEscaped ('\\'.toNat + 1) t := by
  constructor
  · rintro ⟨hquotes, hclose⟩ -
    refine ⟨?_, fun i hi hget => ?_⟩
    · rintro rfl
      exact hclose (by simp) rfl
    · have := hquotes (i + 1) (by simpa using hget)
      omega
  · intro h
    obtain ⟨hne, hnone⟩ := h rfl
    refine ⟨fun i hi => ?_, fun _ => ?_⟩
    · rcases i with _ | _ | i
      · exact absurd (by simpa using hi) hq
      · exact ⟨by omega, rfl⟩
      · exact absurd (by simpa using hi) (hnone (i + 1) (by omega))
    · have := List.length_pos_iff.2 hne
      rw [List.length_cons]
      omega

theorem readsEscaped_cons (c : Char) (t : Text) :
    ReadsEscaped ('\\'.toNat + 1) (c :: t) ↔ Reads ('\\'.toNat + 2) t := by
  constructor
  · intro h
    refine ⟨fun i hi => ?_, fun _ => by omega⟩
    exact absurd (by simpa using hi) ((h rfl).2 (i + 1) (by omega))
  · rintro ⟨hquotes, -⟩ -
    refine ⟨by simp, fun i hi hget => ?_⟩
    rcases i with _ | i
    · exact absurd hi (by omega)
    · have := hquotes i (by simpa using hget)
      omega

/-- A quoted word is read back, and the loop goes on behind its closing quote, exactly if it
`Reads`. -/
theorem splitFrom_quoted_iff (line t : Text) (now : Nat) (u : Text) :
    (Reads now t → splitFrom now (.quoted u) (t ++ '"' :: line) =
      (u ++ t) :: splitFrom (now + t.length + 1) .gap line) ∧
    (∀ ts, splitFrom now (.quoted u) (t ++ '"' :: line) = (u ++ t) :: ts → Reads now t) ∧
    (now = '\\'.toNat + 1 → (ReadsEscaped now t →
      splitFrom now (.escaped u) (t ++ '"' :: line) =
        (u ++ t) :: splitFrom (now + t.length + 1) .gap line) ∧
      ∀ ts, splitFrom now (.escaped u) (t ++ '"' :: line) = (u ++ t) :: ts →
        ReadsEscaped now t) := by
  induction t generalizing now u with
  | nil =>
    refine ⟨fun _ => ?_, fun _ _ => reads_nil now, fun hnow => ⟨fun h => ?_, fun ts h => ?_⟩⟩
    · rw [List.nil_append, splitFrom, if_pos rfl, List.append_nil]
      rfl
    · exact absurd rfl (h hnow).1
    · rw [List.nil_append, splitFrom] at h
      have hlen := ((splitFrom_head _ _ _ _).2.1 _ h).length_le
      simp only [List.length_append, List.length_singleton, List.length_nil] at hlen
      omega
  | cons c t ih =>
    have hsnoc : u ++ c :: t = (u ++ [c]) ++ t := by simp
    have hlen : now + (c :: t).length + 1 = now + 1 + t.length + 1 := by
      rw [List.length_cons]
      omega
    obtain ⟨hread, honly, hescaped⟩ := ih (now + 1) (u ++ [c])
    rw [hlen, hsnoc, List.cons_append]
    refine ⟨fun h => ?_, fun ts h => ?_, fun hnow => ?_⟩
    · have hq : c ≠ '"' := by
        rintro rfl
        exact absurd (h.1 0 rfl).1 (Nat.lt_irrefl 0)
      rw [splitFrom, if_neg hq]
      by_cases hnow : now = '\\'.toNat
      · rw [if_pos hnow]
        exact (hescaped (by omega)).1 (by subst hnow; exact (reads_cons_escape hq).1 h)
      · rw [if_neg hnow]
        exact hread ((reads_cons hq hnow).1 h)
    · rw [splitFrom] at h
      split at h
      · rw [List.cons_eq_cons, List.append_assoc] at h
        simp at h
      · next hq =>
        by_cases hnow : now = '\\'.toNat
        · rw [if_pos hnow] at h
          subst hnow
          exact (reads_cons_escape hq).2 ((hescaped rfl).2 ts h)
        · rw [if_neg hnow] at h
          exact (reads_cons hq hnow).2 (honly ts h)
    · subst hnow
      rw [splitFrom, readsEscaped_cons]
      exact ⟨hread, honly⟩

theorem reads_iff {t : Text} (ht : Quotable t) (now : Nat) :
    Reads (now + 1) t ↔ Word.ReadableAt now (.quoted t ht) := by
  refine and_congr_left' (forall_congr' fun i => imp_congr_right fun hi => ?_)
  refine and_iff_right ?_
  rcases i with _ | i
  · cases ht with
    | nil => cases hi
    | char hq => exact absurd (by simpa using hi) hq
    | escape => exact absurd hi (by simp)
  · exact Nat.succ_pos i

/-- What may follow a bare word. -/
def Ends (rest : Text) : Prop := rest = [] ∨ ∃ line, rest = ' ' :: line

theorem splitFrom_bare_word {t rest : Text} (ht : Plain t) (hrest : Ends rest) (now : Nat) :
    splitFrom now .gap (t ++ rest) = t :: splitFrom (now + t.length) .gap rest := by
  obtain ⟨c, u, rfl, hu, hread⟩ := splitFrom_plain ht
  rw [hread]
  rcases hrest with rfl | ⟨line, rfl⟩
  · rw [List.append_nil, splitFrom_bare_end _ _ _ hu, splitFrom]
    rfl
  · rw [splitFrom_bare _ _ _ _ hu, splitFrom, if_pos rfl, List.length_cons]
    congr 2
    omega

/-- A word is read, and the loop goes on behind it, exactly if it is readable where it stands. -/
theorem splitFrom_word (w : Word) {rest : Text} (hrest : Ends rest) (now : Nat) :
    (w.ReadableAt now → splitFrom now .gap (w.spelled ++ rest) =
      w.content :: splitFrom (now + w.spelled.length) .gap rest) ∧
    ∀ ts, splitFrom now .gap (w.spelled ++ rest) = w.content :: ts → w.ReadableAt now := by
  cases w with
  | bare t ht => exact ⟨fun _ => splitFrom_bare_word ht hrest now, fun _ _ => trivial⟩
  | quoted t ht =>
    have hstart : splitFrom now .gap (Word.spelled (.quoted t ht) ++ rest) =
        splitFrom (now + 1) (.quoted []) (t ++ '"' :: rest) := by
      rw [Word.spelled, List.cons_append, List.cons_append, splitFrom, if_neg (by decide),
        if_pos rfl, List.append_assoc, List.singleton_append]
    have hlen : now + (Word.spelled (.quoted t ht)).length = now + 1 + t.length + 1 := by
      rw [Word.spelled, List.length_append, List.length_cons, List.length_singleton]
      omega
    obtain ⟨hread, honly, -⟩ := splitFrom_quoted_iff rest t (now + 1) []
    rw [List.nil_append] at hread honly
    rw [hstart, hlen, ← reads_iff ht]
    exact ⟨hread, honly⟩

/-! ## Reading a line -/

theorem ends_spaces (n : Nat) : Ends (spaces n) := by
  rcases n with _ | n
  · exact .inl rfl
  · exact .inr ⟨spaces n, List.replicate_succ⟩

theorem ends_spellWords {words : List (Nat × Word)} (h : ∀ p ∈ words, 0 < p.1) (trailing : Nat) :
    Ends (spellWords words ++ spaces trailing) := by
  cases words with
  | nil => exact ends_spaces trailing
  | cons p words =>
    have hpos := h p List.mem_cons_self
    obtain ⟨n, hn⟩ := Nat.exists_eq_add_one_of_ne_zero (Nat.ne_of_gt hpos)
    refine .inr ⟨spaces n ++ (p.2.spelled ++ (spellWords words ++ spaces trailing)), ?_⟩
    rw [spellWords, List.flatMap_cons, hn, spaces, List.replicate_succ, ← spaces, ← spellWords]
    simp

/-- A condition on every word of a list and the place where it stands. -/
theorem forall_split_cons (P : Nat → Word → Prop) (n : Nat) (w : Word)
    (words : List (Nat × Word)) (now : Nat) :
    (∀ before n' w' after, (n, w) :: words = before ++ (n', w') :: after →
        P (now + ((spellWords before).length + n')) w') ↔
      P (now + n) w ∧ ∀ before n' w' after, words = before ++ (n', w') :: after →
        P (now + n + w.spelled.length + ((spellWords before).length + n')) w' := by
  have hlen : ∀ before, (spellWords ((n, w) :: before)).length =
      n + w.spelled.length + (spellWords before).length := by
    intro before
    rw [spellWords, List.flatMap_cons, List.length_append, List.length_append, spaces,
      List.length_replicate, ← spellWords]
  constructor
  · refine fun h => ⟨?_, fun before n' w' after heq => ?_⟩
    · simpa [spellWords] using h [] n w words rfl
    · have := h ((n, w) :: before) n' w' after (by rw [heq]; rfl)
      rw [hlen] at this
      rwa [show now + n + w.spelled.length + ((spellWords before).length + n') =
        now + (n + w.spelled.length + (spellWords before).length + n') by omega]
  · rintro ⟨hfirst, hrest⟩ before n' w' after heq
    cases before with
    | nil =>
      obtain ⟨heq, -⟩ := List.cons.inj heq
      obtain ⟨rfl, rfl⟩ := Prod.mk.inj heq
      simpa [spellWords] using hfirst
    | cons p before =>
      obtain ⟨rfl, hwords⟩ := List.cons.inj heq
      have := hrest before n' w' after hwords
      rw [hlen]
      rwa [show now + (n + w.spelled.length + (spellWords before).length + n') =
        now + n + w.spelled.length + ((spellWords before).length + n') by omega]

theorem splitFrom_words_iff (words : List (Nat × Word)) (trailing now : Nat)
    (hsep : ∀ p ∈ words.tail, 0 < p.1) :
    splitFrom now .gap (spellWords words ++ spaces trailing) = words.map (fun p => p.2.content) ↔
      ∀ before n w after, words = before ++ (n, w) :: after →
        w.ReadableAt (now + ((spellWords before).length + n)) := by
  induction words generalizing now with
  | nil => simp [spellWords, splitFrom_spaces_end]
  | cons p words ih =>
    obtain ⟨n, w⟩ := p
    have htail : ∀ p ∈ words.tail, 0 < p.1 := fun p hp => hsep p (List.mem_of_mem_tail hp)
    have hends : Ends (spellWords words ++ spaces trailing) := ends_spellWords hsep trailing
    obtain ⟨hread, honly⟩ := splitFrom_word w hends (now + n)
    have hline : spellWords ((n, w) :: words) ++ spaces trailing =
        spaces n ++ (w.spelled ++ (spellWords words ++ spaces trailing)) := by
      simp [spellWords]
    rw [forall_split_cons fun now w => w.ReadableAt now, hline, splitFrom_spaces, List.map_cons,
      ← ih _ htail]
    constructor
    · intro h
      have hw := honly _ h
      rw [hread hw] at h
      exact ⟨hw, (List.cons.inj h).2⟩
    · rintro ⟨hw, hrest⟩
      rw [hread hw, hrest]

/-- **Which lines are read back.**  A line of words, however they are spaced, is split into what its
words contain exactly if no quoted word has a double quote in it but right after index 92, and none
but the empty word has its closing quote there. -/
theorem split_line_iff (s : Spelling) : split s.line = s.contents ↔ s.Readable := by
  have h := splitFrom_words_iff s.words s.trailing 0 s.separated
  simp only [Nat.zero_add] at h
  exact h

theorem quotable_escapedQuote : Quotable "a\\\"b".toList :=
  .char (by decide) (by decide) (.escape (.char (by decide) (by decide) .nil))

/-- The quote after the backslash ends the word. -/
theorem escaped_quote_ends_word : ¬ ∀ s : Spelling, split s.line = s.contents := by
  intro h
  have hsplit := h ⟨[(0, .quoted _ quotable_escapedQuote)], 0, by simp⟩
  exact absurd hsplit (by decide)

end Dcfpe.Rs
