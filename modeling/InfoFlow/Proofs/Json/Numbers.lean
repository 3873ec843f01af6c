import Mathlib.Data.List.TakeWhile
import InfoFlow.Json.Reader

/-! # Written numbers

A number is scanned as far as it goes on, so the scanners act on a text alike whatever follows it, unless that
continues a number. Integers are written without leading zeros, fraction and exponent, and they mean the same
number again. -/

namespace InfoFlow.Json

variable {rest lexeme : List Char}

/-! ### Where a number ends -/

/-- The character could belong to a number in front of it. -/
def continuesNumber (c : Char) : Bool := c.isDigit || c == '.' || c == 'e' || c == 'E' || c == '+' || c == '-'

/-- A text that does not continue a number in front of it. -/
def Ends (rest : List Char) : Prop := ∀ c ∈ rest.head?, continuesNumber c = false

theorem ends_nil : Ends [] := nofun

theorem ends_cons {c : Char} (h : continuesNumber c = false) : Ends (c :: rest) := by
  intro d hd
  obtain rfl : c = d := Option.some.inj hd
  exact h

namespace Ends

/-- Adds what follows a text to what is left of it. -/
def extend (rest : List Char) (found : List Char × List Char) : List Char × List Char := (found.1, found.2 ++ rest)

theorem scanDigits_append (h : Ends rest) (cs : List Char) :
    scanDigits (cs ++ rest) = extend rest (scanDigits cs) := by
  induction cs with
  | nil =>
    cases rest with
    | nil => rfl
    | cons c rest =>
      have hc : continuesNumber c = false := h c rfl
      simp only [continuesNumber, Bool.or_eq_false_iff] at hc
      simp [scanDigits, extend, hc]
  | cons c cs ih =>
    simp only [scanDigits, extend, Prod.mk.injEq] at ih
    by_cases hc : c.isDigit = true <;> simp [scanDigits, extend, hc, ih]

theorem scanDigits1_append (h : Ends rest) (cs : List Char) :
    scanDigits1 (cs ++ rest) = (scanDigits1 cs).map (extend rest) := by
  unfold scanDigits1
  rw [h.scanDigits_append]
  rcases scanDigits cs with ⟨_ | _, left⟩ <;> rfl

theorem scanWhole_append (h : Ends rest) (cs : List Char) :
    scanWhole (cs ++ rest) = (scanWhole cs).map (extend rest) := by
  unfold scanWhole
  rw [h.scanDigits_append]
  rcases scanDigits cs with ⟨_ | ⟨d, ds⟩, left⟩
  · rfl
  · simp only [extend]
    split <;> simp_all [extend]

theorem scanFraction_append (h : Ends rest) (cs : List Char) :
    scanFraction (cs ++ rest) = (scanFraction cs).map (extend rest) := by
  rcases cs with _ | ⟨c, cs⟩
  · rcases rest with _ | ⟨c, rest⟩
    · rfl
    · have hc : continuesNumber c = false := h c rfl
      have hpoint : c ≠ '.' := by rintro rfl; cases hc
      simp [scanFraction, extend, hpoint]
  · by_cases hpoint : c = '.'
    · subst hpoint
      simp [scanFraction, h.scanDigits1_append, extend, Function.comp_def]
    · simp [scanFraction, extend, hpoint]

theorem scanSign_append (h : Ends rest) (cs : List Char) : scanSign (cs ++ rest) = extend rest (scanSign cs) := by
  rcases cs with _ | ⟨c, cs⟩
  · rcases rest with _ | ⟨c, rest⟩
    · rfl
    · have hc : continuesNumber c = false := h c rfl
      have hplus : c ≠ '+' := by rintro rfl; cases hc
      have hminus : c ≠ '-' := by rintro rfl; cases hc
      simp [scanSign, extend, hplus, hminus]
  · simp only [List.cons_append, scanSign.eq_def]
    split <;> simp_all [extend]

theorem scanExponent_append (h : Ends rest) (cs : List Char) :
    scanExponent (cs ++ rest) = (scanExponent cs).map (extend rest) := by
  rcases cs with _ | ⟨c, cs⟩
  · rcases rest with _ | ⟨c, rest⟩
    · rfl
    · have hc : continuesNumber c = false := h c rfl
      have hexponent : ¬(c = 'e' ∨ c = 'E') := by
        rintro (rfl | rfl) <;> cases hc
      simp [scanExponent, extend, hexponent]
  · by_cases hexponent : c = 'e' ∨ c = 'E'
    · simp [scanExponent, hexponent, h.scanSign_append, h.scanDigits1_append, extend, Function.comp_def]
    · simp [scanExponent, extend, hexponent]

theorem scanUnsigned_append (h : Ends rest) (cs : List Char) :
    scanUnsigned (cs ++ rest) = (scanUnsigned cs).map (extend rest) := by
  simp only [scanUnsigned, h.scanWhole_append]
  rcases scanWhole cs with _ | ⟨whole, afterWhole⟩
  · rfl
  · simp only [Option.map_some, extend, Option.bind_eq_bind, Option.bind_some, h.scanFraction_append]
    rcases scanFraction afterWhole with _ | ⟨fraction, afterFraction⟩
    · rfl
    · simp only [Option.map_some, extend, Option.bind_some, h.scanExponent_append]
      rcases scanExponent afterFraction with _ | ⟨exponent, left⟩ <;> rfl

/-- What follows a number is left over. -/
theorem scanNumber_append (h : Ends rest) (cs : List Char) :
    scanNumber (cs ++ rest) = (scanNumber cs).map (extend rest) := by
  have hunsigned := h.scanUnsigned_append
  rcases cs with _ | ⟨c, cs⟩
  · rcases rest with _ | ⟨c, rest⟩
    · rfl
    · have hc : continuesNumber c = false := h c rfl
      have hminus : c ≠ '-' := by rintro rfl; cases hc
      have hnone := hunsigned []
      simp only [List.nil_append] at hnone
      simp [scanNumber, hminus, hnone]
  · by_cases hminus : c = '-'
    · subst hminus
      simp [scanNumber, hunsigned, extend, Function.comp_def]
    · have hcons := hunsigned (c :: cs)
      simp only [List.cons_append] at hcons
      simp [scanNumber, hminus, hcons]

end Ends

/-! ### Integers -/

/-- A text that is a number as a whole. -/
def IsNumber (lexeme : List Char) : Prop := scanNumber lexeme = some (lexeme, [])

theorem IsNumber.scanNumber_append (h : IsNumber lexeme) (hrest : Ends rest) :
    scanNumber (lexeme ++ rest) = some (lexeme, rest) := by
  rw [hrest.scanNumber_append, h]
  rfl

/-- The character can be the first one of a number. -/
def startsNumber (c : Char) : Bool := c == '-' || c.isDigit

theorem IsNumber.head (h : IsNumber lexeme) : ∃ c cs, lexeme = c :: cs ∧ startsNumber c = true := by
  rcases lexeme with _ | ⟨c, cs⟩
  · cases h
  · refine ⟨c, cs, rfl, ?_⟩
    rw [startsNumber, Bool.or_eq_true, beq_iff_eq, Classical.or_iff_not_imp_left]
    intro hminus
    rw [← Bool.not_eq_false]
    intro hdigit
    have hwhole : scanWhole (c :: cs) = none := by
      simp [scanWhole, scanDigits, hdigit]
    have hnone : scanNumber (c :: cs) = none := by
      simp [scanNumber, scanUnsigned, hminus, hwhole]
    rw [IsNumber, hnone] at h
    cases h

theorem isDigit_of_mem_toDigits {n : Nat} : ∀ c ∈ Nat.toDigits 10 n, c.isDigit = true := fun _ hc =>
  Nat.isDigit_of_mem_toDigits (by decide) (by decide) hc

theorem scanDigits_toDigits (n : Nat) : scanDigits (Nat.toDigits 10 n) = (Nat.toDigits 10 n, []) := by
  have hall := isDigit_of_mem_toDigits (n := n)
  rw [scanDigits, List.takeWhile_eq_self_iff.mpr hall, List.dropWhile_eq_nil_iff.mpr hall]

theorem head?_toDigits {n : Nat} (h : n ≠ 0) : (Nat.toDigits 10 n).head? ≠ some '0' := by
  induction n using Nat.strongRecOn with
  | ind n ih =>
    by_cases hn : n < 10
    · rw [Nat.toDigits_of_lt_base hn]
      simpa [Nat.digitChar_eq_zero] using h
    · -- The digits in front of the last one write a smaller number that is no zero either.
      have hfront := ih (n / 10) (by omega) (by omega)
      rw [Nat.toDigits_of_base_le (by decide) (by omega), List.head?_append]
      cases hhead : (Nat.toDigits 10 (n / 10)).head? with
      | none => exact absurd (List.head?_eq_none_iff.mp hhead) Nat.toDigits_ne_nil
      | some d => simpa [hhead] using hfront

/-- Only zero is written with a zero in front. -/
theorem eq_nil_of_toDigits {n : Nat} {ds : List Char} (h : Nat.toDigits 10 n = '0' :: ds) : ds = [] := by
  by_cases hn : n = 0
  · rw [hn, Nat.toDigits_zero] at h
    exact (List.cons.inj h).2.symm
  · exact absurd (congrArg List.head? h) (head?_toDigits hn)

theorem scanWhole_toDigits (n : Nat) : scanWhole (Nat.toDigits 10 n) = some (Nat.toDigits 10 n, []) := by
  rw [scanWhole, scanDigits_toDigits]
  split
  · rename_i heq
    exact absurd (congrArg Prod.fst heq) Nat.toDigits_ne_nil
  · rename_i heq
    cases eq_nil_of_toDigits (congrArg Prod.fst heq)
  · rfl

theorem scanUnsigned_toDigits (n : Nat) : scanUnsigned (Nat.toDigits 10 n) = some (Nat.toDigits 10 n, []) := by
  simp [scanUnsigned, scanWhole_toDigits, scanFraction, scanExponent]

theorem toDigits_ne_cons {n : Nat} {c : Char} (h : c.isDigit = false) (cs : List Char) :
    Nat.toDigits 10 n ≠ c :: cs := by
  intro heq
  have hdigit := isDigit_of_mem_toDigits (n := n) c (by simp [heq])
  rw [h] at hdigit
  cases hdigit

theorem isNumber_toDigits (n : Nat) : IsNumber (Nat.toDigits 10 n) := by
  rw [IsNumber, scanNumber.eq_def]
  split
  · rename_i heq
    exact absurd heq (toDigits_ne_cons rfl _)
  · exact scanUnsigned_toDigits n

theorem isNumber_neg_toDigits (n : Nat) : IsNumber ('-' :: Nat.toDigits 10 n) := by
  rw [IsNumber, scanNumber, scanUnsigned_toDigits]
  rfl

@[simp] theorem decimal?_toDigits (n : Nat) : decimal? (Nat.toDigits 10 n) = some n := by
  have hall : (Nat.toDigits 10 n).all Char.isDigit = true := List.all_eq_true.mpr isDigit_of_mem_toDigits
  rw [decimal?, if_pos ⟨Nat.toDigits_ne_nil, hall⟩, ← Nat.ofDigitChars_eq_foldl, Nat.ofDigitChars_ten_toDigits]

@[simp] theorem natural?_ofNat (n : Nat) : (ofNat n).natural? = some n := decimal?_toDigits n

@[simp] theorem integer?_ofInt (n : Int) : (ofInt n).integer? = some n := by
  cases n with
  | ofNat n =>
    rw [ofInt, ofNat, integer?.eq_def]
    split
    · rename_i heq
      exact absurd (Json.number.inj heq) (toDigits_ne_cons rfl _)
    · rename_i heq
      rw [← Json.number.inj heq, decimal?_toDigits]
      rfl
    · rename_i heq
      exact absurd rfl (heq _)
  | negSucc n => simp [ofInt, integer?, Int.negSucc_eq]

end InfoFlow.Json
