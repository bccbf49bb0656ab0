import Mathlib.Data.List.TakeWhile
import Dcfpe.Shell.Quoting

/-!
# A quoted word that is not closed

The loops of `executeCommandRemotely` append a quoted word when they meet its closing quote, so a
word that has none is no word of the command.  `kept_iff` says for which lines something is lost
that way.  Everything else of a line reaches the command: what the loops leave out are the spaces
between words and the quotes around them.
-/

set_option autoImplicit false

namespace Dcfpe.Rs

/-! ## The scan of a line -/

namespace Scan

/-- Where the loops go on after the character at index `now`. -/
def next (now : Nat) : Scan → Char → Scan
  | gap, c => if c = ' ' then gap else if c = '"' then quoted [] else bare [c]
  | bare token, c => if c = ' ' then gap else bare (token ++ [c])
  | quoted token, c =>
    if c = '"' then gap
    else if now = '\\'.toNat then escaped (token ++ [c])
    else quoted (token ++ [c])
  | escaped token, c => quoted (token ++ [c])

/-- The word that ends with the character. -/
def ended : Scan → Char → List Text
  | bare token, c => if c = ' ' then [token] else []
  | quoted token, c => if c = '"' then [token] else []
  | _, _ => []

/-- The character is neither a separating space nor a delimiting quote. -/
def keeps : Scan → Char → Bool
  | gap, c => c ≠ ' ' && c ≠ '"'
  | bare _, c => c ≠ ' '
  | quoted _, c => c ≠ '"'
  | escaped _, _ => true

/-- What has been read of the word under way. -/
def token : Scan → Text
  | gap => []
  | bare token => token
  | quoted token => token
  | escaped token => token

/-- Behind an opening quote whose closing one is still to come. -/
def isOpen : Scan → Bool
  | quoted _ => true
  | escaped _ => true
  | _ => false

end Scan

/-- Where the loops stand after a text. -/
def scanFrom : Nat → Scan → Text → Scan
  | _, s, [] => s
  | now, s, c :: line => scanFrom (now + 1) (s.next now c) line

/-- The characters of a text that are neither separating spaces nor delimiting quotes. -/
def keptFrom : Nat → Scan → Text → Text
  | _, _, [] => []
  | now, s, c :: line =>
    if s.keeps c then c :: keptFrom (now + 1) (s.next now c) line
    else keptFrom (now + 1) (s.next now c) line

def kept (line : Text) : Text := keptFrom 0 .gap line

/-- The loops stay behind an opening quote. -/
def StaysOpen (now : Nat) (s : Scan) (text : Text) : Prop :=
  ∀ u, u <+: text → (scanFrom now s u).isOpen = true

/-- The double quote behind `before` opens a word that the line does not close. -/
structure Unclosed (line before word : Text) : Prop where
  line : line = before ++ '"' :: word
  starts : scanFrom 0 .gap before = .gap
  staysOpen : StaysOpen (before.length + 1) (.quoted []) word

/-- One character of the scan. -/
theorem splitFrom_cons (now : Nat) (s : Scan) (c : Char) (line : Text) :
    splitFrom now s (c :: line) = s.ended c ++ splitFrom (now + 1) (s.next now c) line := by
  cases s with
  | gap =>
    rw [splitFrom, Scan.next]
    split
    · rfl
    · split <;> rfl
  | bare t =>
    rw [splitFrom, Scan.next, Scan.ended]
    split <;> rfl
  | quoted t =>
    rw [splitFrom, Scan.next, Scan.ended]
    split
    · rfl
    · split <;> rfl
  | escaped t => rfl

theorem flatten_ended (now : Nat) (s : Scan) (c : Char) :
    (s.ended c).flatten ++ (s.next now c).token =
      s.token ++ if s.keeps c then [c] else [] := by
  cases s with
  | gap =>
    rw [Scan.next]
    split
    · next hsp => simp [Scan.keeps, Scan.ended, Scan.token, hsp]
    · next hsp =>
      split
      · next hq => simp [Scan.keeps, Scan.ended, Scan.token, hq]
      · next hq => simp [Scan.keeps, Scan.ended, Scan.token, hsp, hq]
  | bare t =>
    rw [Scan.next, Scan.ended]
    split
    · next hsp => simp [Scan.keeps, Scan.token, hsp]
    · next hsp => simp [Scan.keeps, Scan.token, hsp]
  | quoted t =>
    rw [Scan.next, Scan.ended]
    split
    · next hq => simp [Scan.keeps, Scan.token, hq]
    · next hq =>
      split <;> simp [Scan.keeps, Scan.token, hq]
  | escaped t => simp [Scan.next, Scan.ended, Scan.keeps, Scan.token]

theorem keptFrom_cons (now : Nat) (s : Scan) (c : Char) (line : Text) :
    keptFrom now s (c :: line) =
      (if s.keeps c then [c] else []) ++ keptFrom (now + 1) (s.next now c) line := by
  rw [keptFrom]
  split <;> rfl

/-- A line whose last word is closed is all in its words. -/
theorem flatten_splitFrom (now : Nat) (s : Scan) (line : Text)
    (h : (scanFrom now s line).isOpen = false) :
    (splitFrom now s line).flatten = s.token ++ keptFrom now s line := by
  induction line generalizing now s with
  | nil =>
    rw [keptFrom]
    cases s with
    | gap => rfl
    | bare t => simp [splitFrom, Scan.token]
    | quoted t => cases h
    | escaped t => cases h
  | cons c line ih =>
    rw [splitFrom_cons, List.flatten_append, ih _ _ h, keptFrom_cons, ← List.append_assoc,
      flatten_ended, List.append_assoc]

theorem keptFrom_sublist (now : Nat) (s : Scan) (line : Text) :
    (keptFrom now s line).Sublist line := by
  induction line generalizing now s with
  | nil => exact List.Sublist.slnil
  | cons c line ih =>
    rw [keptFrom]
    split
    · exact (ih _ _).cons_cons c
    · exact (ih _ _).cons c

/-- The words before a gap are read first. -/
theorem splitFrom_append {now : Nat} {s : Scan} {u : Text} (h : scanFrom now s u = .gap)
    (line : Text) :
    splitFrom now s (u ++ line) = splitFrom now s u ++ splitFrom (now + u.length) .gap line := by
  induction u generalizing now s with
  | nil =>
    rw [scanFrom] at h
    subst h
    rfl
  | cons c u ih =>
    rw [List.cons_append, splitFrom_cons, splitFrom_cons, ih h, List.append_assoc,
      List.length_cons, Nat.add_right_comm, Nat.add_assoc now]

/-! ## Open words -/

theorem staysOpen_cons (now : Nat) (s : Scan) (c : Char) (text : Text) :
    StaysOpen now s (c :: text) ↔
      s.isOpen = true ∧ StaysOpen (now + 1) (s.next now c) text := by
  constructor
  · intro h
    exact ⟨h [] List.nil_prefix, fun u hu => h (c :: u) (List.cons_prefix_cons.2 ⟨rfl, hu⟩)⟩
  · rintro ⟨hopen, hrest⟩ u hu
    cases u with
    | nil => exact hopen
    | cons d u =>
      obtain ⟨rfl, hprefix⟩ := List.cons_prefix_cons.1 hu
      exact hrest u hprefix

theorem ended_of_isOpen {now : Nat} {s : Scan} {c : Char} (hs : s.isOpen = true)
    (hnext : (s.next now c).isOpen = true) : s.ended c = [] := by
  cases s with
  | gap => cases hs
  | bare t => cases hs
  | quoted t =>
    rw [Scan.next] at hnext
    rw [Scan.ended]
    split at hnext
    · cases hnext
    · next hq => exact if_neg hq
  | escaped t => rfl

theorem splitFrom_of_staysOpen {now : Nat} {s : Scan} {text : Text} (h : StaysOpen now s text) :
    splitFrom now s text = [] := by
  induction text generalizing now s with
  | nil =>
    have hopen := h [] List.nil_prefix
    cases s with
    | gap => cases hopen
    | bare t => cases hopen
    | quoted t => rfl
    | escaped t => rfl
  | cons c text ih =>
    obtain ⟨hopen, hrest⟩ := (staysOpen_cons now s c text).1 h
    rw [splitFrom_cons, ended_of_isOpen hopen (hrest [] List.nil_prefix), ih hrest]
    rfl

/-- A scan gets behind a quote only through an opening one. -/
theorem exists_opening {now : Nat} {s : Scan} {line : Text}
    (h : (scanFrom now s line).isOpen = true) :
    StaysOpen now s line ∨ ∃ before word, line = before ++ '"' :: word ∧
      scanFrom now s before = .gap ∧ StaysOpen (now + before.length + 1) (.quoted []) word := by
  induction line generalizing now s with
  | nil =>
    refine .inl fun u hu => ?_
    rw [List.prefix_nil.1 hu]
    exact h
  | cons c line ih =>
    have hnextLine : (scanFrom (now + 1) (s.next now c) line).isOpen = true := h
    rcases ih hnextLine with hstays | ⟨before, word, rfl, hgap, hopen⟩
    · have hnext := hstays [] List.nil_prefix
      cases s with
      | gap =>
        rw [Scan.next] at hstays hnext
        split at hnext
        · cases hnext
        · split at hnext
          · next hsp hq =>
            rw [if_neg hsp, if_pos hq] at hstays
            exact .inr ⟨[], line, by rw [hq]; rfl, rfl, hstays⟩
          · cases hnext
      | bare t =>
        rw [scanFrom, Scan.next] at hnext
        split at hnext <;> cases hnext
      | quoted t => exact .inl ((staysOpen_cons _ _ _ _).2 ⟨rfl, hstays⟩)
      | escaped t => exact .inl ((staysOpen_cons _ _ _ _).2 ⟨rfl, hstays⟩)
    · refine .inr ⟨c :: before, word, rfl, hgap, ?_⟩
      rw [List.length_cons, ← Nat.add_assoc, Nat.add_right_comm now]
      exact hopen

/-- A line that ends behind an opening quote has a word that is not closed. -/
theorem exists_unclosed {line : Text} (h : (scanFrom 0 .gap line).isOpen = true) :
    ∃ before word, Unclosed line before word := by
  rcases exists_opening h with hstays | ⟨before, word, hline, hgap, hopen⟩
  · exact absurd (hstays [] List.nil_prefix) Bool.false_ne_true
  · rw [Nat.zero_add] at hopen
    exact ⟨before, word, hline, hgap, hopen⟩

/-- The word is not read. -/
theorem Unclosed.split {line before word : Text} (h : Unclosed line before word) :
    split line = split before := by
  rw [h.line, Rs.split, splitFrom_append h.starts, splitFrom, if_neg (by decide), if_pos rfl,
    Nat.zero_add, splitFrom_of_staysOpen h.staysOpen, List.append_nil, Rs.split]

/-! ## What is run -/

/-- What a command line makes the node run: the words, or what follows an `l`, which the shell of
the machine gets as it stands. -/
inductive Executed where
  | words (cmds : List Text)
  | system (line : Text)

def executed (line : Text) : Executed :=
  if (split line).head? = some "l".toList then .system (line.dropWhile (· ≠ 'l')).tail
  else .words (split line)

/-- `executeCommandRemotely` behind its loops. -/
def LocalServerNode.execute (files : Files) (n : LocalServerNode) :
    Executed → Option (LocalServerNode × List Deed)
  | .words [] => none
  | .words (cmd :: args) =>
    match n.handleInternalCommand files [] cmd args with
    | some done => some done
    | none =>
      let (id, n, deeds) := n.sendRequest
        { sessionId := n.sessionId, executeCommand := some (n.executeCommandRequest cmd args) }
        .handleExecuteCommandResponse 10000
      some ({ n with runningRequestId := id }, deeds)
  | .system line => some (n, [.system line, .notify .succeed])

/-- The lines whose words are no command. -/
def Rejected (cmds : List Text) : Prop := cmds = [] ∨ cmds = ["i".toList] ∨ cmds = ["l".toList]

instance (cmds : List Text) : Decidable (Rejected cmds) := inferInstanceAs (Decidable (_ ∨ _ ∨ _))

/-- What is run is all the node takes from the line. -/
theorem executeCommandRemotely_eq (files : Files) (n : LocalServerNode) (line : Text) :
    n.executeCommandRemotely files line =
      if Rejected (split line) then none else n.execute files (executed line) := by
  rw [LocalServerNode.executeCommandRemotely, executed]
  cases hsplit : split line with
  | nil => rfl
  | cons cmd args =>
    have hrejected : Rejected (cmd :: args) ↔
        args = [] ∧ (cmd = "i".toList ∨ cmd = "l".toList) := by
      simp only [Rejected, List.cons.injEq]
      tauto
    simp only [hrejected, List.head?_cons, Option.some_inj]
    split
    · rfl
    · by_cases hl : cmd = "l".toList
      · subst hl
        rfl
      · have hline : n.handleInternalCommand files line cmd args =
            n.handleInternalCommand files [] cmd args := by
          simp only [LocalServerNode.handleInternalCommand, if_neg hl]
        rw [if_neg hl, hline]
        rfl

theorem execute_isSome (files : Files) (n : LocalServerNode) {line : Text}
    (h : ¬ Rejected (split line)) : (n.execute files (executed line)).isSome = true := by
  rw [executed]
  split
  · rfl
  · cases hsplit : split line with
    | nil => exact absurd (.inl hsplit) h
    | cons cmd args =>
      rw [LocalServerNode.execute]
      split <;> rfl

theorem executeCommandRemotely_eq_none_iff (files : Files) (n : LocalServerNode) (line : Text) :
    n.executeCommandRemotely files line = none ↔ Rejected (split line) := by
  rw [executeCommandRemotely_eq]
  split
  · next h => exact iff_of_true rfl h
  · next h =>
    refine iff_of_false (fun hnone => ?_) h
    have := execute_isSome files n h
    rw [hnone] at this
    cases this

namespace Executed

def text : Executed → Text
  | words cmds => cmds.flatten
  | system line => 'l' :: line

/-- The word that `before` is followed by is run with the rest. -/
def EndsWith (before word : Text) : Executed → Prop
  | words cmds => cmds = split before ++ [word]
  | system line => '"' :: word <:+ line

/-- Nothing of the line is lost but what separates words and what delimits them, and no last
word. -/
structure Carries (line : Text) (e : Executed) : Prop where
  text : (kept line).Sublist e.text
  last : ∀ before word, Unclosed line before word → e.EndsWith before word

end Executed

/-- The `l` of the command is the first of the line, and nothing before it is kept. -/
theorem kept_sublist_system {now : Nat} {line : Text} {args : List Text}
    (h : splitFrom now .gap line = "l".toList :: args) :
    (keptFrom now .gap line).Sublist ('l' :: (line.dropWhile (· ≠ 'l')).tail) := by
  induction line generalizing now with
  | nil => cases h
  | cons c line ih =>
    rw [splitFrom] at h
    split at h
    · next hsp =>
      subst hsp
      exact ih h
    · split at h
      · next hq =>
        subst hq
        have hkept : keptFrom now .gap ('"' :: line) = keptFrom (now + 1) (.quoted []) line := rfl
        rw [hkept, List.dropWhile_cons_of_pos (by decide)]
        cases line with
        | nil => cases h
        | cons d line =>
          have hd : d = 'l' := by
            rw [splitFrom] at h
            split at h
            · cases h
            · have hprefix : [d] <+: "l".toList := by
                split at h
                · exact (splitFrom_head _ _ _ _).2.2 _ h
                · exact (splitFrom_head _ _ _ _).2.1 _ h
              exact (List.cons_prefix_cons.1 hprefix).1
          subst hd
          exact keptFrom_sublist _ _ _
      · have hprefix : [c] <+: "l".toList := (splitFrom_head _ _ _ _).1 _ h
        obtain rfl := (List.cons_prefix_cons.1 hprefix).1
        exact keptFrom_sublist _ _ _

/-- What follows the `l` of a command has the word that is not closed at its end. -/
theorem Unclosed.suffix {line before word : Text} (h : Unclosed line before word)
    (hl : (Rs.split before).head? = some "l".toList) :
    '"' :: word <:+ (line.dropWhile (· ≠ 'l')).tail := by
  have hmem : 'l' ∈ before := by
    have hword : "l".toList ∈ Rs.split before := List.mem_of_head? hl
    have hflat := flatten_splitFrom 0 .gap before (by rw [h.starts]; rfl)
    have hkept : 'l' ∈ keptFrom 0 .gap before := by
      have : 'l' ∈ (Rs.split before).flatten :=
        List.mem_flatten.2 ⟨_, hword, List.mem_singleton.2 rfl⟩
      rwa [Rs.split, hflat] at this
    exact (keptFrom_sublist _ _ _).subset hkept
  have hne : before.dropWhile (· ≠ 'l') ≠ [] := by
    intro hnil
    have := List.dropWhile_eq_nil_iff.1 hnil 'l' hmem
    exact absurd this (by decide)
  rw [h.line, List.dropWhile_append, if_neg (by simpa using hne), List.tail_append_of_ne_nil hne]
  exact List.suffix_append _ _

/-- **When nothing of a line is lost.**  Whatever a line is, it is no command, or all of it but
separating spaces and delimiting quotes is run, the last word with the rest — exactly if the line
does not end in a quoted word that is not closed, or what stands before that word is no word, or a
single `i`, or has an `l` as its first word. -/
theorem carried_iff (files : Files) (n : LocalServerNode) (line : Text) :
    (n.executeCommandRemotely files line = none ∨ (executed line).Carries line) ↔
      ∀ before word, Unclosed line before word →
        split before = [] ∨ split before = ["i".toList] ∨
          (split before).head? = some "l".toList := by
  rw [executeCommandRemotely_eq_none_iff]
  constructor
  · rintro (hrejected | hcarries) before word h
    · rw [h.split] at hrejected
      rcases hrejected with hnil | hi | hl
      · exact .inl hnil
      · exact .inr (.inl hi)
      · exact .inr (.inr (by rw [hl]; rfl))
    · by_cases hl : (split before).head? = some "l".toList
      · exact .inr (.inr hl)
      · have hlast := hcarries.last before word h
        rw [executed, h.split, if_neg hl] at hlast
        have hlen := congrArg List.length hlast
        simp only [List.length_append, List.length_singleton] at hlen
        omega
  · intro h
    by_cases hrejected : Rejected (split line)
    · exact .inl hrejected
    have hl : ∀ before word, Unclosed line before word →
        (split line).head? = some "l".toList := by
      intro before word hun
      rw [hun.split] at hrejected ⊢
      rcases h before word hun with hnil | hi | hl
      · exact absurd (.inl hnil) hrejected
      · exact absurd (.inr (.inl hi)) hrejected
      · exact hl
    refine .inr ⟨?_, fun before word hun => ?_⟩
    · by_cases hsystem : (split line).head? = some "l".toList
      · obtain ⟨args, hargs⟩ := List.head?_eq_some_iff.1 hsystem
        rw [executed, if_pos hsystem]
        exact kept_sublist_system hargs
      · have hclosed : (scanFrom 0 .gap line).isOpen = false := by
          refine Bool.eq_false_iff.2 fun hopen => hsystem ?_
          obtain ⟨before, word, hun⟩ := exists_unclosed hopen
          exact hl before word hun
        have hflat : (split line).flatten = kept line := flatten_splitFrom 0 .gap line hclosed
        rw [executed, if_neg hsystem, Executed.text, hflat]
    · have hsystem := hl before word hun
      rw [executed, if_pos hsystem]
      rw [hun.split] at hsystem
      exact hun.suffix hsystem

/-- The quote before the last argument is not closed, and the command is sent without it. -/
theorem unclosed_word_dropped :
    ¬ ∀ (files : Files) (n : LocalServerNode) (line : Text),
      n.executeCommandRemotely files line = none ∨ (executed line).Carries line := by
  intro h
  have hcarried := (h {} {} "rm a \"b c".toList).resolve_left (by decide)
  exact absurd hcarried.text (by decide)

end Dcfpe.Rs
