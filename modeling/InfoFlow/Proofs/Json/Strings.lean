import Mathlib.Data.List.Forall2
import InfoFlow.Json.Record

/-! # Escaped strings

What is written for a text between two quotes is scanned up to the closing quote and no further, and it means
the text again. Most characters stand for themselves. A control character without a short escape is written as a
16-bit unit, which is never half of a pair. -/

namespace InfoFlow.Json

variable {c : Char} {raw rest : List Char}

/-! ### Scanning -/

/-- A text that can stand between two quotes. -/
def IsRaw (raw : List Char) : Prop := ∃ found, elements .plain raw = some found

theorem step_plain_quote : EscapeState.plain.step '"' = none := by
  decide

/-- A string is scanned up to the quote that closes it. -/
theorem scanString_of_elements {state : EscapeState} {found : List StringElement}
    (h : elements state raw = some found) :
    scanString state (raw ++ '"' :: rest) = some (raw, rest) := by
  induction raw generalizing state found with
  | nil =>
    by_cases hplain : state = .plain
    · simp [scanString, hplain]
    · simp [elements, hplain] at h
  | cons c raw ih =>
    simp only [elements, Option.bind_eq_some_iff, Option.map_eq_some_iff] at h
    obtain ⟨⟨next, emitted⟩, hstep, more, hmore, -⟩ := h
    -- A bare quote would not be a step.
    have hopen : ¬(state = .plain ∧ c = '"') := by
      rintro ⟨rfl, rfl⟩
      rw [step_plain_quote] at hstep
      cases hstep
    simp [scanString, hopen, hstep, ih hmore]

theorem scanString_of_isRaw (h : IsRaw raw) : scanString .plain (raw ++ '"' :: rest) = some (raw, rest) := by
  obtain ⟨found, hfound⟩ := h
  exact scanString_of_elements hfound

theorem isRaw_of_isDigit (h : ∀ c ∈ raw, c.isDigit = true) : IsRaw raw := by
  induction raw with
  | nil => exact ⟨[], rfl⟩
  | cons c raw ih =>
    obtain ⟨hc, hraw⟩ := List.forall_mem_cons.mp h
    obtain ⟨found, hfound⟩ := ih hraw
    have hstep : EscapeState.plain.step c = some (.plain, some (.char c)) := by
      have hback : c ≠ '\\' := by
        rintro rfl
        cases hc
      have hplain : ¬ (c = '"' ∨ c < ' ') := by
        rintro (rfl | hlt)
        · cases hc
        · have hspace : c.toNat < 32 := hlt
          have hzero : 48 ≤ c.toNat := (Char.isDigit_iff_toNat.mp hc).1
          omega
      rw [EscapeState.step, if_neg hback, if_neg hplain]
    exact ⟨.char c :: found, by simp [elements, hstep, hfound]⟩

/-! ### Escaping -/

theorem hexDigit?_digitChar {d : Nat} (h : d < 16) : hexDigit? (Nat.digitChar d) = some d := by
  have hall : ∀ d < 16, hexDigit? (Nat.digitChar d) = some d := by decide
  exact hall d h

/-- The element stands for the character: the character itself, or the unit of a control character. -/
def StringElement.Denotes (e : StringElement) (c : Char) : Prop := e = .char c ∨ c < ' ' ∧ e = .unit c.toNat

theorem lt_of_control (h : c < ' ') : c.toNat < 32 := h

/-- A character with a short form is written by it. -/
theorem elements_short {letter : Char} (hletter : letter ≠ 'u') (h : shortEscape? letter = some c) :
    elements .plain ('\\' :: letter :: rest) = (elements .plain rest).map (.char c :: ·) := by
  have hescape : EscapeState.escape.step letter = some (.plain, some (.char c)) := by
    simp [EscapeState.step, hletter, h]
  have hbackslash : EscapeState.plain.step '\\' = some (.escape, none) := rfl
  simp [elements, hbackslash, hescape, Function.comp_def]

/-- A control character is written as a unit by its last two hexadecimal digits. -/
theorem elements_control (h : c < ' ') :
    elements .plain
        ('\\' :: 'u' :: '0' :: '0' :: Nat.digitChar (c.toNat / 16) :: Nat.digitChar (c.toNat % 16) :: rest) =
      (elements .plain rest).map (.unit c.toNat :: ·) := by
  have hc := lt_of_control h
  have hhigh : hexDigit? (Nat.digitChar (c.toNat / 16)) = some (c.toNat / 16) := hexDigit?_digitChar (by omega)
  have hlow : hexDigit? (Nat.digitChar (c.toNat % 16)) = some (c.toNat % 16) := hexDigit?_digitChar (by omega)
  have hzero : hexDigit? '0' = some 0 := rfl
  have hvalue : 16 * (c.toNat / 16) + c.toNat % 16 = c.toNat := Nat.div_add_mod c.toNat 16
  simp [elements, EscapeState.step, hzero, hhigh, hlow, hvalue, Function.comp_def]

theorem elements_escapeChar (c : Char) :
    ∃ e : StringElement, e.Denotes c ∧
      ∀ rest, elements .plain (escapeChar c ++ rest) = (elements .plain rest).map (e :: ·) := by
  unfold escapeChar
  split
  · exact ⟨.char '"', .inl rfl, fun _ => elements_short (by decide) rfl⟩
  · exact ⟨.char '\\', .inl rfl, fun _ => elements_short (by decide) rfl⟩
  · exact ⟨.char '\x08', .inl rfl, fun _ => elements_short (by decide) rfl⟩
  · exact ⟨.char '\x0c', .inl rfl, fun _ => elements_short (by decide) rfl⟩
  · exact ⟨.char '\n', .inl rfl, fun _ => elements_short (by decide) rfl⟩
  · exact ⟨.char '\r', .inl rfl, fun _ => elements_short (by decide) rfl⟩
  · exact ⟨.char '\t', .inl rfl, fun _ => elements_short (by decide) rfl⟩
  · rename_i hquote hbackslash _ _ _ _ _
    split
    · rename_i hcontrol
      exact ⟨.unit c.toNat, .inr ⟨hcontrol, rfl⟩, fun rest => elements_control hcontrol⟩
    · rename_i hprinted
      refine ⟨.char c, .inl rfl, fun rest => ?_⟩
      have hplain : EscapeState.plain.step c = some (.plain, some (.char c)) := by
        rw [EscapeState.step, if_neg hbackslash, if_neg (not_or_intro hquote hprinted)]
      simp [elements, hplain]

theorem elements_escape (text : List Char) :
    ∃ found, elements .plain (escape text) = some found ∧ List.Forall₂ StringElement.Denotes found text := by
  induction text with
  | nil => exact ⟨[], rfl, .nil⟩
  | cons c text ih =>
    obtain ⟨found, hfound, hdenotes⟩ := ih
    obtain ⟨e, he, hchar⟩ := elements_escapeChar c
    refine ⟨e :: found, ?_, .cons he hdenotes⟩
    rw [escape, List.flatMap_cons, hchar, ← escape, hfound, Option.map_some]

/-- Units below the surrogates stand alone. -/
theorem joinUnits_unit {u : Nat} (h : u < 0xD800) (rest : List StringElement) :
    joinUnits (.unit u :: rest) = (joinUnits rest).map (Char.ofNat u :: ·) := by
  have htrail : isTrailUnit u = false := by
    simp only [isTrailUnit, Bool.and_eq_false_iff, decide_eq_false_iff_not]
    omega
  have hlead : isLeadUnit u = false := by
    simp only [isLeadUnit, Bool.and_eq_false_iff, decide_eq_false_iff_not]
    omega
  rw [joinUnits.eq_def]
  simp [htrail, hlead]

/-- No unit of a control character is half of a pair. -/
theorem joinUnits_of_denotes {found : List StringElement} {text : List Char}
    (h : List.Forall₂ StringElement.Denotes found text) : joinUnits found = some text := by
  induction h with
  | nil => rfl
  | @cons e c found text he _ ih =>
    rcases he with rfl | ⟨hcontrol, rfl⟩
    · simp [joinUnits, ih]
    · have hc := lt_of_control hcontrol
      rw [joinUnits_unit (by omega), ih, Option.map_some, Char.ofNat_toNat]

/-! ### Strings -/

/-- A written string means the text it was written for. -/
@[simp] theorem unescape_escape (text : List Char) : unescape (escape text) = some text := by
  obtain ⟨found, hfound, hdenotes⟩ := elements_escape text
  rw [unescape, hfound, Option.bind_some, joinUnits_of_denotes hdenotes]

theorem isRaw_of_unescape {text : List Char} (h : unescape raw = some text) : IsRaw raw := by
  obtain ⟨found, hfound, -⟩ := Option.bind_eq_some_iff.mp h
  exact ⟨found, hfound⟩

theorem isRaw_escape (text : List Char) : IsRaw (escape text) := isRaw_of_unescape (unescape_escape text)

@[simp] theorem string?_ofString (s : String) : (ofString s).string? = some s := by
  simp [ofString, string?]

@[simp] theorem unitVariant?_ofString (s : String) : (ofString s).unitVariant? = some s := string?_ofString s

end InfoFlow.Json
