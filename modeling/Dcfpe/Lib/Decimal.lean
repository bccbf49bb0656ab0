import Mathlib.Data.Int.Notation
import Mathlib.Data.List.TakeWhile
import Mathlib.Algebra.Group.Int.Defs

/-!
# Decimal numbers in text

What `strtol` and its kin make of a text — blanks, a sign, digits, and then whatever stops them —
and that it is the inverse of printing: `value_toString`.  A result that does not fit its type is at
the nearer bound (`clamp`).

Text comes as bytes or as characters; `chars` and `bytes` go from one to the other, and are inverse
to each other on what a number is printed with.
-/

set_option autoImplicit false

namespace Decimal

def isSpace (c : Char) : Bool := c = ' ' || ('\t'.toNat ≤ c.toNat && c.toNat ≤ '\r'.toNat)

def natValue (s : List Char) : Nat := Nat.ofDigitChars 10 (s.takeWhile Char.isDigit) 0

/-- The number at the head of a text, 0 if there is none. -/
def value (s : List Char) : Int :=
  match s.dropWhile isSpace with
  | '-' :: s => -(natValue s : Int)
  | '+' :: s => natValue s
  | s => natValue s

def clamp (lo hi i : Int) : Int := max lo (min i hi)

theorem clamp_eq {lo hi i : Int} (hlo : lo ≤ i) (hhi : i ≤ hi) : clamp lo hi i = i := by
  rw [clamp]
  omega

theorem clamp_mem {lo hi : Int} (h : lo ≤ hi) (i : Int) :
    lo ≤ clamp lo hi i ∧ clamp lo hi i ≤ hi := by
  rw [clamp]
  omega

/-! ## Printing -/

theorem natValue_toDigits (n : Nat) : natValue (Nat.toDigits 10 n) = n := by
  have hdigits : (Nat.toDigits 10 n).takeWhile Char.isDigit = Nat.toDigits 10 n :=
    List.takeWhile_eq_self_iff.2 fun c hc =>
      Nat.isDigit_of_mem_toDigits (by decide) (by decide) hc
  rw [natValue, hdigits, Nat.ofDigitChars_ten_toDigits]

theorem toString_cases (i : Int) :
    (∃ n : Nat, i = n ∧ (toString i).toList = Nat.toDigits 10 n) ∨
    (∃ n : Nat, i = -(n : Int) ∧ (toString i).toList = '-' :: Nat.toDigits 10 n) := by
  cases i with
  | ofNat n => exact .inl ⟨n, rfl, Nat.toList_repr⟩
  | negSucc n =>
    refine .inr ⟨n + 1, rfl, ?_⟩
    change ("-" ++ Nat.repr (n + 1)).toList = _
    rw [String.toList_append, Nat.toList_repr]
    rfl

/-- A printed number is made of digits and a sign. -/
theorem mem_toString {i : Int} {c : Char} (hc : c ∈ (toString i).toList) :
    c = '-' ∨ c.isDigit = true := by
  rcases toString_cases i with ⟨n, -, heq⟩ | ⟨n, -, heq⟩
  · rw [heq] at hc
    exact .inr (Nat.isDigit_of_mem_toDigits (by decide) (by decide) hc)
  · rw [heq] at hc
    rcases List.mem_cons.1 hc with rfl | hc
    · exact .inl rfl
    · exact .inr (Nat.isDigit_of_mem_toDigits (by decide) (by decide) hc)

theorem toString_ne_nil (i : Int) : (toString i).toList ≠ [] := by
  rcases toString_cases i with ⟨n, -, heq⟩ | ⟨n, -, heq⟩
  · rw [heq]
    exact Nat.toDigits_ne_nil
  · rw [heq]
    exact List.cons_ne_nil _ _

theorem isDigit_bounds {c : Char} (h : c.isDigit = true) : 48 ≤ c.toNat ∧ c.toNat ≤ 57 := by
  rw [Char.isDigit, Bool.and_eq_true, decide_eq_true_eq, decide_eq_true_eq] at h
  exact ⟨h.1, h.2⟩

theorem value_toString (i : Int) : value (toString i).toList = i := by
  rcases toString_cases i with ⟨n, rfl, heq⟩ | ⟨n, rfl, heq⟩
  · rw [heq]
    cases hd : Nat.toDigits 10 n with
    | nil => exact absurd hd Nat.toDigits_ne_nil
    | cons c cs =>
      have hc : c.isDigit = true :=
        Nat.isDigit_of_mem_toDigits (b := 10) (n := n) (by decide) (by decide)
          (hd ▸ List.mem_cons_self)
      have hbounds := isDigit_bounds hc
      have hspace : isSpace c = false := by
        have hne : c ≠ ' ' := by rintro rfl; exact absurd hbounds (by decide)
        have hlt : ¬ c.toNat ≤ 13 := by omega
        simp [isSpace, hne, hlt]
      have hminus : c ≠ '-' := by rintro rfl; exact absurd hbounds (by decide)
      have hplus : c ≠ '+' := by rintro rfl; exact absurd hbounds (by decide)
      rw [value, List.dropWhile_cons_of_neg (by simp [hspace])]
      split
      · next heq => exact absurd (List.cons.inj heq).1 hminus
      · next heq => exact absurd (List.cons.inj heq).1 hplus
      · rw [← hd, natValue_toDigits]
  · rw [heq, value, List.dropWhile_cons_of_neg (by decide)]
    change -(natValue (Nat.toDigits 10 n) : Int) = -n
    rw [natValue_toDigits]

theorem toString_inj {i j : Int} (h : toString i = toString j) : i = j := by
  rw [← value_toString i, h, value_toString]

/-! ## Bytes -/

/-- Each byte as the character with that code. -/
def chars (s : List UInt8) : List Char := s.map fun b => Char.ofNat b.toNat

def bytes (s : List Char) : List UInt8 := s.map fun c => UInt8.ofNat c.toNat

theorem chars_bytes {s : List Char} (h : ∀ c ∈ s, c.toNat < 128) : chars (bytes s) = s := by
  rw [chars, bytes, List.map_map]
  refine (List.map_congr_left fun c hc => ?_).trans (List.map_id' s)
  have hlt := h c hc
  have hnat : (UInt8.ofNat c.toNat).toNat = c.toNat := by
    rw [UInt8.toNat_ofNat']
    exact Nat.mod_eq_of_lt (by omega)
  rw [Function.comp_apply, hnat, Char.ofNat_toNat]

/-- The number at the head of a printed number's bytes. -/
theorem value_bytes_toString (i : Int) : value (chars (bytes (toString i).toList)) = i := by
  rw [chars_bytes, value_toString]
  intro c hc
  rcases mem_toString hc with rfl | hc
  · decide
  · have := isDigit_bounds hc
    omega

/-- The bytes of a printed number are those of digits and a sign. -/
theorem mem_bytes_toString {i : Int} {b : UInt8} (hb : b ∈ bytes (toString i).toList) :
    b.toNat = 45 ∨ 48 ≤ b.toNat ∧ b.toNat ≤ 57 := by
  obtain ⟨c, hc, rfl⟩ := List.mem_map.1 hb
  rcases mem_toString hc with rfl | hc
  · exact .inl rfl
  · have hbounds := isDigit_bounds hc
    rw [UInt8.toNat_ofNat', Nat.mod_eq_of_lt (by omega)]
    exact .inr hbounds

end Decimal

namespace Dcfpe

/-- `atoi` of a string. -/
def atoi (s : String) : Int := Decimal.clamp (-2 ^ 31) (2 ^ 31 - 1) (Decimal.value s.toList)

theorem atoi_toString {id : Int} (hlo : -2 ^ 31 ≤ id) (hhi : id ≤ 2 ^ 31 - 1) :
    atoi (toString id) = id := by
  rw [atoi, Decimal.value_toString, Decimal.clamp_eq hlo hhi]

end Dcfpe
