import Mathlib.Algebra.Group.Nat.Defs
import Mathlib.Data.String.Basic
import InfoFlow.Digest
import InfoFlow.Proofs.SavedForms

/-! # The input of a digest determines the events

Each event stands in the input behind its length, which is written with a fixed number of bytes. So the input is
taken apart from the front, and the text of an event determines the event. What is left to chance is the hash. -/

namespace InfoFlow

/-! ### Bytes -/

theorem bytes_toList_loop (bytes : ByteArray) (i : Nat) (read : List UInt8) :
    ByteArray.toList.loop bytes i read = read.reverse ++ bytes.data.toList.drop i := by
  induction i, read using ByteArray.toList.loop.induct bytes with
  | case1 i read hi ih =>
    have hbyte : bytes.get! i = bytes.data.toList[i] := by simp [ByteArray.get!, hi]
    have hdrop := List.drop_eq_getElem_cons (l := bytes.data.toList) hi
    rw [ByteArray.toList.loop, if_pos hi, ih, hdrop, hbyte, List.reverse_cons, List.append_assoc,
      List.singleton_append]
  | case2 i read hi =>
    rw [ByteArray.toList.loop, if_neg hi, List.drop_of_length_le (Nat.le_of_not_lt hi), List.append_nil]

theorem bytes_toList (bytes : ByteArray) : bytes.toList = bytes.data.toList := bytes_toList_loop bytes 0 []

theorem bytes_toList_injective : Function.Injective ByteArray.toList := by
  intro a b h
  rw [bytes_toList, bytes_toList] at h
  exact ByteArray.ext (Array.toList_inj.mp h)

namespace Sha256

variable {count m n : Nat}

theorem length_bigEndian (count n : Nat) : (bigEndian count n).length = count := by
  simp [bigEndian]

theorem bigEndian_succ (count n : Nat) :
    bigEndian (count + 1) n = UInt8.ofNat (n >>> (8 * count)) :: bigEndian count n := by
  simp [bigEndian, List.range_succ]

/-- The bytes of a number determine its value as far as they write it. -/
theorem mod_eq_of_bigEndian (h : bigEndian count m = bigEndian count n) :
    m % 2 ^ (8 * count) = n % 2 ^ (8 * count) := by
  induction count with
  | zero => simp [Nat.mod_one]
  | succ count ih =>
    rw [bigEndian_succ, bigEndian_succ, List.cons.injEq] at h
    obtain ⟨hhigh, hlow⟩ := h
    have hbyte : m / 2 ^ (8 * count) % 2 ^ 8 = n / 2 ^ (8 * count) % 2 ^ 8 := by
      have hnat := congrArg UInt8.toNat hhigh
      simpa [Nat.shiftRight_eq_div_pow] using hnat
    rw [Nat.mul_succ, Nat.pow_add, Nat.mod_mul, Nat.mod_mul, ih hlow, hbyte]

theorem bigEndian_inj (hm : m < 2 ^ (8 * count)) (hn : n < 2 ^ (8 * count)) :
    bigEndian count m = bigEndian count n ↔ m = n := by
  refine ⟨fun h => ?_, congrArg _⟩
  have hmod := mod_eq_of_bigEndian h
  rwa [Nat.mod_eq_of_lt hm, Nat.mod_eq_of_lt hn] at hmod

/-- Two messages that the hash does not tell apart. -/
def Collision (x y : List UInt8) : Prop := x ≠ y ∧ hash x = hash y

end Sha256

namespace EventLog

open Sha256

variable {a b : List Event} {text other : String} {rest more : List UInt8}

/-! ### Framing -/

theorem length_toUTF8 (text : String) : text.toUTF8.toList.length = text.utf8ByteSize := by
  rw [bytes_toList]
  rfl

/-- A framed text ends where its length says. -/
theorem framed_append_inj (htext : text.utf8ByteSize < 2 ^ 64) (hother : other.utf8ByteSize < 2 ^ 64)
    (h : framed text ++ rest = framed other ++ more) : text = other ∧ rest = more := by
  simp only [framed, length_toUTF8, List.append_assoc] at h
  obtain ⟨hlength, h⟩ := List.append_inj h (by rw [length_bigEndian, length_bigEndian])
  rw [bigEndian_inj htext hother] at hlength
  obtain ⟨hbytes, h⟩ := List.append_inj h (by rw [length_toUTF8, length_toUTF8, hlength])
  exact ⟨String.toByteArray_inj.mp (bytes_toList_injective hbytes), h⟩

theorem framed_ne_nil (text : String) : framed text ≠ [] := by
  have hlength : (framed text).length = 8 + text.utf8ByteSize := by
    simp only [framed, List.length_append, length_bigEndian, length_toUTF8]
  intro hnil
  rw [hnil, List.length_nil] at hlength
  omega

/-- The input of the hash determines the events. -/
theorem digestInput_inj (ha : ∀ e ∈ a, (save e).utf8ByteSize < 2 ^ 64)
    (hb : ∀ e ∈ b, (save e).utf8ByteSize < 2 ^ 64) : digestInput a = digestInput b ↔ a = b := by
  refine ⟨fun h => ?_, congrArg _⟩
  induction a generalizing b with
  | nil =>
    cases b with
    | nil => rfl
    | cons f b => exact absurd (List.append_eq_nil_iff.mp h.symm).1 (framed_ne_nil _)
  | cons e a ih =>
    cases b with
    | nil => exact absurd (List.append_eq_nil_iff.mp h).1 (framed_ne_nil _)
    | cons f b =>
      rw [List.forall_mem_cons] at ha hb
      obtain ⟨hsave, hrest⟩ := framed_append_inj ha.1 hb.1 h
      rw [save_injective hsave, ih ha.2 hb.2 hrest]

/-! ### Digests -/

theorem digitChar_inj {m n : Nat} (hm : m < 16) (hn : n < 16) (h : Nat.digitChar m = Nat.digitChar n) : m = n := by
  have hdigit := congrArg Json.hexDigit? h
  rwa [Json.hexDigit?_digitChar hm, Json.hexDigit?_digitChar hn, Option.some_inj] at hdigit

theorem hexadecimal_injective : Function.Injective hexadecimal := by
  intro x y h
  have hchars := congrArg String.toList h
  simp only [hexadecimal, String.toList_ofList] at hchars
  induction x generalizing y with
  | nil =>
    cases y with
    | nil => rfl
    | cons => cases hchars
  | cons u x ih =>
    cases y with
    | nil => cases hchars
    | cons v y =>
      simp only [List.flatMap_cons, List.cons_append, List.nil_append, List.cons.injEq] at hchars
      obtain ⟨hhigh, hlow, hrest⟩ := hchars
      have hu := u.toNat_lt
      have hv := v.toNat_lt
      have hhigh := digitChar_inj (by omega) (by omega) hhigh
      have hlow := digitChar_inj (by omega) (by omega) hlow
      have hbyte : u = v := UInt8.toNat_inj.mp (by omega)
      rw [hbyte, ih (congrArg String.ofList hrest) hrest]

/-- The input of a log's digest determines its events, so two logs with different events have the same digest only
if the hash has a collision there. -/
theorem digest_determines_events (a b : EventLog) (ha : ∀ e ∈ a.events, (save e).utf8ByteSize < 2 ^ 64)
    (hb : ∀ e ∈ b.events, (save e).utf8ByteSize < 2 ^ 64) :
    (digestInput a.events = digestInput b.events ↔ a.events = b.events) ∧
      (a.digest = b.digest ↔ a.events = b.events ∨ Collision (digestInput a.events) (digestInput b.events)) := by
  have hinput := digestInput_inj ha hb
  refine ⟨hinput, ?_⟩
  rw [digest, digest, hexadecimal_injective.eq_iff, Collision, Ne, hinput]
  constructor
  · intro hhash
    by_cases hevents : a.events = b.events
    · exact .inl hevents
    · exact .inr ⟨hevents, hhash⟩
  · rintro (hevents | ⟨-, hhash⟩)
    · rw [hevents]
    · exact hhash

/-- The digests of two events and of the same events in reversed order can only agree by a collision. -/
theorem digest_determines_order :
    let entered : Event := ⟨"t", .loader, .scriptEntered, .pass, none, some "https://a.example", none, some .secret⟩
    let blocked : Event :=
      ⟨"t", .policy, .labelUpgraded, .blocked, some sensitiveUpgradeCode, none, some .bottom, some .secret⟩
    (∀ e ∈ [entered, blocked], (save e).utf8ByteSize < 2 ^ 64) ∧
      (∀ e ∈ [blocked, entered], (save e).utf8ByteSize < 2 ^ 64) ∧
      digestInput [entered, blocked] ≠ digestInput [blocked, entered] ∧
      (EventLog.digest ⟨"t", [entered, blocked]⟩ = EventLog.digest ⟨"t", [blocked, entered]⟩ →
        Collision (digestInput [entered, blocked]) (digestInput [blocked, entered])) := by
  intro entered blocked
  have hsizes : ∀ e ∈ [entered, blocked], (save e).utf8ByteSize < 2 ^ 64 := by
    simp only [save, Json.text, String.utf8ByteSize_ofList]
    decide +kernel
  have hreversed : ∀ e ∈ [entered, blocked].reverse, (save e).utf8ByteSize < 2 ^ 64 := fun e he =>
    hsizes e (List.mem_reverse.mp he)
  have hne : [entered, blocked] ≠ [blocked, entered] := by decide
  obtain ⟨hinput, hdigest⟩ :=
    digest_determines_events ⟨"t", [entered, blocked]⟩ ⟨"t", [blocked, entered]⟩ hsizes hreversed
  exact ⟨hsizes, hreversed, mt hinput.mp hne, fun h => (hdigest.mp h).resolve_left hne⟩

end EventLog
end InfoFlow
