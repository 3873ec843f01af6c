import InfoFlow.Origin.Url

/-! # Reading trust lists

A trust list has one reading. It is written as the names of origins in their order, with separators between any two of
them and possibly around all; whatever the separators are and however many stand together, the names are read back.
Every text is written so in one way, so what is read are the maximal runs of characters that are no separators. -/

namespace InfoFlow.Origin

/-- How the name of an origin stands in a trust list. -/
structure IsListed (name : List Char) : Prop where
  ne_nil : name ≠ []
  unseparated : ∀ c ∈ name, isSeparator c = false

def IsGap (cs : List Char) : Prop := ∀ c ∈ cs, isSeparator c = true

/-- A trust list in its parts: separators in front, then the names, each with the separators behind it. Only behind the
last name there may be none. -/
structure Listing where
  lead : List Char
  entries : List (List Char × List Char)
  lead_gap : IsGap lead
  listed : ∀ e ∈ entries, IsListed e.1
  gaps : ∀ e ∈ entries, IsGap e.2
  parted : ∀ e ∈ entries.dropLast, e.2 ≠ []

namespace Listing

def chars (l : Listing) : List Char := l.lead ++ l.entries.flatMap fun e => e.1 ++ e.2

def text (l : Listing) : String := String.ofList l.chars

def origins (l : Listing) : List String := l.entries.map fun e => String.ofList e.1

end Listing

variable {name gap cs : List Char}

theorem forall_mem_dropLast_cons {α : Type} {P : α → Prop} {a : α} {l : List α} :
    (∀ b ∈ (a :: l).dropLast, P b) ↔ (l ≠ [] → P a) ∧ ∀ b ∈ l.dropLast, P b := by
  cases l <;> simp

/-! ### Runs of a written list -/

theorem runs_gap_append (h : IsGap gap) (cs : List Char) : runs (gap ++ cs) = runs cs := by
  induction gap with
  | nil => rfl
  | cons c gap ih =>
    obtain ⟨hc, hgap⟩ := List.forall_mem_cons.mp h
    rw [List.cons_append, runs, if_pos hc]
    exact ih hgap

theorem runs_listed_append (h : IsListed name) (hrest : ∀ c ∈ cs.head?, isSeparator c = true) :
    runs (name ++ cs) = name :: runs cs := by
  obtain ⟨hne, hname⟩ := h
  induction name with
  | nil => exact absurd rfl hne
  | cons c name ih =>
    obtain ⟨hc, hname⟩ := List.forall_mem_cons.mp hname
    have hc' : ¬ isSeparator c = true := Bool.eq_false_iff.mp hc
    rw [List.cons_append, runs, if_neg hc']
    cases name with
    | nil =>
      have hnone : cs.head?.filter (!isSeparator ·) = none := by
        rw [Option.filter_eq_none_iff]
        intro d hd
        rw [hrest d hd]
        decide
      rw [List.nil_append, hnone]
    | cons d name =>
      have hd : isSeparator d = false := hname d List.mem_cons_self
      rw [ih (List.cons_ne_nil d name) hname]
      simp [Option.filter, hd]

theorem runs_entries {entries : List (List Char × List Char)} (listed : ∀ e ∈ entries, IsListed e.1)
    (gaps : ∀ e ∈ entries, IsGap e.2) (parted : ∀ e ∈ entries.dropLast, e.2 ≠ []) :
    runs (entries.flatMap fun e => e.1 ++ e.2) = entries.map Prod.fst := by
  induction entries with
  | nil => rfl
  | cons e rest ih =>
    obtain ⟨name, gap⟩ := e
    obtain ⟨hname, hlisted⟩ := List.forall_mem_cons.mp listed
    obtain ⟨hgap, hgaps⟩ := List.forall_mem_cons.mp gaps
    obtain ⟨hfirst, hparted⟩ := forall_mem_dropLast_cons.mp parted
    -- Behind the name the text ends or goes on with a separator.
    have hbehind : ∀ c ∈ (gap ++ rest.flatMap fun e => e.1 ++ e.2).head?, isSeparator c = true := by
      intro c hc
      cases gap with
      | nil =>
        cases rest with
        | nil => cases hc
        | cons e rest => exact absurd rfl (hfirst (List.cons_ne_nil e rest))
      | cons d gap =>
        obtain rfl := Option.some.inj hc
        exact hgap d List.mem_cons_self
    rw [List.flatMap_cons, List.map_cons, List.append_assoc, runs_listed_append hname hbehind,
      runs_gap_append hgap, ih hlisted hgaps hparted]

theorem Listing.runs_chars (l : Listing) : runs l.chars = l.entries.map Prod.fst := by
  rw [chars, runs_gap_append l.lead_gap, runs_entries l.listed l.gaps l.parted]

/-! ### Every text is a written list -/

theorem IsListed.singleton {c : Char} (hc : isSeparator c = false) : IsListed [c] :=
  ⟨List.cons_ne_nil c [], List.forall_mem_singleton.mpr hc⟩

theorem IsListed.cons {c : Char} (hc : isSeparator c = false) (h : IsListed name) : IsListed (c :: name) :=
  ⟨List.cons_ne_nil c name, List.forall_mem_cons.mpr ⟨hc, h.unseparated⟩⟩

theorem isGap_nil : IsGap [] := List.forall_mem_nil _

theorem exists_listing (cs : List Char) : ∃ l : Listing, l.chars = cs := by
  induction cs with
  | nil =>
    exact ⟨⟨[], [], isGap_nil, List.forall_mem_nil _, List.forall_mem_nil _, List.forall_mem_nil _⟩, rfl⟩
  | cons c cs ih =>
    obtain ⟨⟨lead, entries, hlead, hlisted, hgaps, hparted⟩, rfl⟩ := ih
    cases hc : isSeparator c with
    | true => exact ⟨⟨c :: lead, entries, List.forall_mem_cons.mpr ⟨hc, hlead⟩, hlisted, hgaps, hparted⟩, rfl⟩
    | false =>
      -- The character is a name of its own, unless the text goes on with one right away.
      by_cases hname : lead = [] ∧ entries ≠ []
      · obtain ⟨rfl, hne⟩ := hname
        obtain ⟨⟨name, gap⟩, rest, rfl⟩ := List.exists_cons_of_ne_nil hne
        obtain ⟨hfirst, hrest⟩ := List.forall_mem_cons.mp hlisted
        have hlonger : ∀ e ∈ (c :: name, gap) :: rest, IsListed e.1 := List.forall_mem_cons.mpr ⟨hfirst.cons hc, hrest⟩
        have hgaps' : ∀ e ∈ (c :: name, gap) :: rest, IsGap e.2 :=
          List.forall_mem_cons.mpr (List.forall_mem_cons.mp hgaps)
        have hparted' : ∀ e ∈ ((c :: name, gap) :: rest).dropLast, e.2 ≠ [] :=
          forall_mem_dropLast_cons.mpr (forall_mem_dropLast_cons.mp hparted)
        exact ⟨⟨[], (c :: name, gap) :: rest, isGap_nil, hlonger, hgaps', hparted'⟩, rfl⟩
      · have hone : ∀ e ∈ ([c], lead) :: entries, IsListed e.1 := List.forall_mem_cons.mpr ⟨.singleton hc, hlisted⟩
        have hgaps' : ∀ e ∈ ([c], lead) :: entries, IsGap e.2 := List.forall_mem_cons.mpr ⟨hlead, hgaps⟩
        have hparted' : ∀ e ∈ (([c], lead) :: entries).dropLast, e.2 ≠ [] :=
          forall_mem_dropLast_cons.mpr ⟨fun hne hnil => hname ⟨hnil, hne⟩, hparted⟩
        exact ⟨⟨[], ([c], lead) :: entries, isGap_nil, hone, hgaps', hparted'⟩, rfl⟩

/-! ### What is read -/

theorem trustList_text (l : Listing) : trustList l.text = l.origins := by
  rw [trustList, Listing.text, String.toList_ofList, l.runs_chars, List.map_map]
  rfl

theorem flatten_runs (cs : List Char) : (runs cs).flatten = cs.filter (!isSeparator ·) := by
  induction cs with
  | nil => rfl
  | cons c cs ih =>
    rw [runs]
    split
    · rename_i hc
      rw [ih, List.filter_cons_of_neg (by simp [hc])]
    · rename_i hc
      rw [List.filter_cons_of_pos (by simp [hc]), ← ih]
      split
      · rename_i hruns
        rw [hruns]
        rfl
      · rfl

/-- Every text is a list of origins and what is read are their names, none of which is empty or has a separator in it.
Nothing but separators is lost, and a list is read back however it is written. -/
theorem trust_lists_read (value : String) :
    (∃ l : Listing, l.text = value ∧ trustList value = l.origins) ∧
      (∀ origin ∈ trustList value, IsListed origin.toList) ∧
      (trustList value).flatMap String.toList = value.toList.filter (!isSeparator ·) ∧
      ∀ l : Listing, trustList l.text = l.origins := by
  obtain ⟨l, hl⟩ := exists_listing value.toList
  have htext : l.text = value := by rw [Listing.text, hl, String.ofList_toList]
  have hread : trustList value = l.origins := htext ▸ trustList_text l
  refine ⟨⟨l, htext, hread⟩, ?_, ?_, trustList_text⟩
  · intro origin horigin
    rw [hread] at horigin
    obtain ⟨e, he, rfl⟩ := List.mem_map.mp horigin
    rw [String.toList_ofList]
    exact l.listed e he
  · rw [← flatten_runs, trustList, List.flatMap_map]
    simp [List.flatMap]

/-- A vertical tab is no separator and stays inside a name. -/
example : trustList "\t,a\x0bb, c\n" = ["a\x0bb", "c"] := by decide

end InfoFlow.Origin
