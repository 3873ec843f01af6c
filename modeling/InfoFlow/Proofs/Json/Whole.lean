import Mathlib.Algebra.Group.Nat.Defs
import InfoFlow.Json.Whole
import InfoFlow.Proofs.Json.Numbers
import InfoFlow.Proofs.Json.Strings

/-! # Written values mean something throughout

An integer of 64 bits is finite as a double: its digits are all counted exactly, and rounding at most doubles it.
Strings and keys that were escaped stand for a text. So the written forms of scalars, and records of such values,
can be set aside. -/

namespace InfoFlow.Json

/-! ### Numbers -/

/-- Rounding does not more than double a number. -/
theorem roundDouble_le (n : Nat) : roundDouble n ≤ 2 * n := by
  have hkept (excess : Nat) : n >>> excess <<< excess ≤ n := by
    rw [Nat.shiftLeft_eq, Nat.shiftRight_eq_div_pow]
    exact Nat.div_mul_le_self n _
  simp only [roundDouble]
  split
  · omega
  · rename_i hexcess
    have hunit : 2 ^ (n.log2 + 1 - 53) ≤ n := by
      have hn : n ≠ 0 := by rintro rfl; exact hexcess rfl
      exact (Nat.pow_le_pow_right (by decide) (by omega)).trans (Nat.log2_self_le hn)
    have hdown := hkept (n.log2 + 1 - 53)
    split
    · rw [Nat.shiftLeft_eq] at hdown
      rw [Nat.shiftLeft_eq, Nat.add_mul, Nat.one_mul]
      omega
    · omega

theorem le_foldl_digits (n : Nat) (ds : List Char) :
    n ≤ ds.foldl (fun n d => 10 * n + (d.toNat - '0'.toNat)) n := by
  induction ds generalizing n with
  | nil => exact Nat.le_refl n
  | cons d ds ih =>
    have hrest := ih (10 * n + (d.toNat - '0'.toNat))
    rw [List.foldl_cons]
    omega

theorem appendDigit?_of_lt {n : Nat} {d : Char} (h : 10 * n + (d.toNat - '0'.toNat) < UInt64.size) :
    appendDigit? n d = some (10 * n + (d.toNat - '0'.toNat)) := by
  rw [appendDigit?]
  exact if_pos h

theorem appendDigits_cons (n : Nat) (d : Char) (ds : List Char) :
    appendDigits n (d :: ds) =
      match appendDigit? n d with
      | some next => appendDigits next ds
      | none => (n, ds.length + 1) := by
  rfl

/-- All digits of a number that fits into 64 bits are counted. -/
theorem appendDigits_eq_foldl {n : Nat} {ds : List Char}
    (h : ds.foldl (fun n d => 10 * n + (d.toNat - '0'.toNat)) n < UInt64.size) :
    appendDigits n ds = (ds.foldl (fun n d => 10 * n + (d.toNat - '0'.toNat)) n, 0) := by
  induction ds generalizing n with
  | nil => rfl
  | cons d ds ih =>
    rw [List.foldl_cons] at h ⊢
    have hnext := (le_foldl_digits (10 * n + (d.toNat - '0'.toNat)) ds).trans_lt h
    rw [appendDigits_cons, appendDigit?_of_lt hnext]
    exact ih h

theorem appendDigits_toDigits {n : Nat} (h : n < UInt64.size) : appendDigits 0 (Nat.toDigits 10 n) = (n, 0) := by
  have hvalue : (Nat.toDigits 10 n).foldl (fun n d => 10 * n + (d.toNat - '0'.toNat)) 0 = n := by
    rw [← Nat.ofDigitChars_eq_foldl, Nat.ofDigitChars_ten_toDigits]
  have happend := @appendDigits_eq_foldl 0 (Nat.toDigits 10 n)
  rw [hvalue] at happend
  exact happend h

theorem lt_pow_of_le {n bits : Nat} (h : n ≤ 2 ^ 66) (hbits : 66 < bits) : n < Nat.pow 2 bits :=
  h.trans_lt (Nat.pow_lt_pow_right (by decide) hbits)

/-- A number of 64 bits is far from the greatest double. -/
theorem isFiniteProduct_zero {n : Nat} (h : n < UInt64.size) : isFiniteProduct n 0 = true := by
  have hround := roundDouble_le n
  have hagain := roundDouble_le (roundDouble n)
  have hsize : 4 * UInt64.size = 2 ^ 66 := rfl
  have hunit : roundDouble (Nat.pow 10 (0 : Int).toNat) = 1 := rfl
  rw [isFiniteProduct]
  split
  · rfl
  · rw [if_neg (by decide), hunit, Nat.mul_one, decide_eq_true_iff]
    apply lt_pow_of_le
    · omega
    · decide

theorem isFiniteUnsigned_toDigits {n : Nat} (h : n < UInt64.size) : isFiniteUnsigned (Nat.toDigits 10 n) = true := by
  rw [isFiniteUnsigned, scanWhole_toDigits]
  simp only [appendDigits_toDigits h]
  exact isFiniteProduct_zero h

/-! ### Values -/

/-- The value means something throughout, and at most `depth` values are nested in each other. -/
structure Shallow (depth : Nat) (j : Json) : Prop where
  depth_le : j.depth ≤ depth
  isMeaningful : j.isMeaningful = true

theorem Shallow.mono {depth more : Nat} {j : Json} (h : j.Shallow depth) (hle : depth ≤ more) : j.Shallow more :=
  ⟨h.depth_le.trans hle, h.isMeaningful⟩

theorem Shallow.isWhole {depth enclosing : Nat} {j : Json} (h : j.Shallow depth)
    (hle : depth + enclosing ≤ maxDepth) : j.isWhole enclosing = true := by
  have hdepth : j.depth + enclosing ≤ maxDepth := (Nat.add_le_add_right h.depth_le enclosing).trans hle
  simp [Json.isWhole, hdepth, h.isMeaningful]

theorem shallow_bool (b : Bool) : (bool b).Shallow 0 := ⟨Nat.le_refl 0, rfl⟩

theorem shallow_null : null.Shallow 0 := ⟨Nat.le_refl 0, rfl⟩

theorem shallow_ofString (s : String) : (ofString s).Shallow 0 where
  depth_le := Nat.le_refl 0
  isMeaningful := by rw [ofString, Json.isMeaningful, unescape_escape, Option.isSome_some]

theorem shallow_ofNat {n : Nat} (h : n < UInt64.size) : (ofNat n).Shallow 0 where
  depth_le := Nat.le_refl 0
  isMeaningful := by
    rw [ofNat, Json.isMeaningful, isFiniteNumber]
    · exact isFiniteUnsigned_toDigits h
    · exact toDigits_ne_cons rfl

theorem shallow_ofInt {n : Int} (h : n.natAbs < UInt64.size) : (ofInt n).Shallow 0 := by
  cases n with
  | ofNat n => exact shallow_ofNat h
  | negSucc n => exact ⟨Nat.le_refl 0, isFiniteUnsigned_toDigits h⟩

theorem depthMembers_le {depth : Nat} {members : List (List Char × Json)} (h : ∀ m ∈ members, m.2.depth ≤ depth) :
    depthMembers members ≤ depth := by
  induction members with
  | nil => exact Nat.zero_le depth
  | cons m members ih =>
    rw [List.forall_mem_cons] at h
    exact Nat.max_le.mpr ⟨h.1, ih h.2⟩

theorem haveMeaning_of_forall {members : List (List Char × Json)} (hkeys : ∀ m ∈ members, (unescape m.1).isSome = true)
    (hvalues : ∀ m ∈ members, m.2.isMeaningful = true) : haveMeaning members = true := by
  induction members with
  | nil => rfl
  | cons m members ih =>
    rw [List.forall_mem_cons] at hkeys hvalues
    rw [haveMeaning, hkeys.1, hvalues.1, ih hkeys.2 hvalues.2]
    rfl

theorem shallow_record {depth : Nat} {members : Fields} (h : ∀ m ∈ members, m.2.Shallow depth) :
    (record members).Shallow (depth + 1) where
  depth_le := Nat.succ_le_succ (depthMembers_le (List.forall_mem_map.mpr fun m hm => (h m hm).depth_le))
  isMeaningful := by
    refine haveMeaning_of_forall (List.forall_mem_map.mpr fun m _ => ?_) (List.forall_mem_map.mpr fun m hm => ?_)
    · simp only [unescape_escape, Option.isSome_some]
    · exact (h m hm).isMeaningful

end InfoFlow.Json
