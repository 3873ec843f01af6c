import InfoFlow.Proofs.CapabilityRecords

/-! # Runs of the table of capabilities

What requests make of a new table. Its places go to the first distinct names, in the order in which they are put.
A name keeps its position for ever, and its record keeps the labels that it was put with first; the mask is the
last one that a request has set for the name or for its position. -/

namespace InfoFlow.CapabilityTable

open FirstCome

inductive Request where
  | put (entry : Capability)
  | setBits (name : String) (bits : UInt64)
  | setBitsAt (index : Nat) (bits : UInt64)
  | drain
deriving DecidableEq

/-- The table after a request. -/
def serve (t : CapabilityTable) : Request → CapabilityTable
  | .put entry => (t.put entry).2
  | .setBits name bits => (t.setBits name bits).2
  | .setBitsAt index bits => (t.setBitsAt index bits).2
  | .drain => t.drain.2

def serveAll (t : CapabilityTable) (requests : List Request) : CapabilityTable := requests.foldl serve t

/-! ### What requests ask for -/

/-- The record that a request puts, if it has a name. -/
def Request.record? : Request → Option Capability
  | .put entry => if entry.name = "" then none else some entry
  | _ => none

/-- The named records that are put, one after the other. -/
def records (requests : List Request) : List Capability := requests.filterMap Request.record?

/-- The names that there is room for behind the null record. -/
def firstNames (requests : List Request) : List String :=
  ((records requests).map Capability.name).eraseDups.take (capacity - 1)

def firstRecord? (requests : List Request) (name : String) : Option Capability :=
  (records requests).find? (·.name = name)

/-- The mask that a request sets for a name, or for the position `index`, if the table has such a record. -/
def mask? (t : CapabilityTable) (name : String) (index : Nat) : Request → Option UInt64
  | .setBits other bits => if other = name ∧ (t.setBits other bits).1 = true then some bits else none
  | .setBitsAt other bits => if other = index ∧ (t.setBitsAt other bits).1 = true then some bits else none
  | .put _ | .drain => none

/-- The masks that requests set for a name or for the position `index`, the last one at the end. -/
def masks (t : CapabilityTable) (name : String) (index : Nat) : List Request → List UInt64
  | [] => []
  | request :: rest => (t.mask? name index request).toList ++ (t.serve request).masks name index rest

variable {t : CapabilityTable} {e entry : Capability} {name : String} {index : Nat} {request : Request}
  {requests rest : List Request}

theorem serveAll_cons : t.serveAll (request :: rest) = (t.serve request).serveAll rest := rfl

theorem serveAll_append {before after : List Request} :
    t.serveAll (before ++ after) = (t.serveAll before).serveAll after :=
  List.foldl_append

theorem record?_name_ne (h : request.record? = some entry) : entry.name ≠ "" := by
  unfold Request.record? at h
  split at h
  · split at h
    · cases h
    · rename_i hname
      obtain rfl := Option.some.inj h
      exact hname
  · cases h

/-! ### Keys -/

theorem keys_serve (hnull : [""] <+: t.keys) (request : Request) :
    (t.serve request).keys = (request.record?.map Capability.name).elim t.keys (grant capacity t.keys) := by
  cases request with
  | put entry =>
    rw [Request.record?]
    split
    · rename_i hunnamed
      have hentries := (entries_put t entry).resolve_right fun hadded => hadded.1 hunnamed
      exact congrArg (List.map Capability.name) hentries
    · rename_i hname
      exact (puts_put hnull hname).keys
  | setBits name bits => exact keys_setBits
  | setBitsAt index bits => exact keys_setBitsAt
  | drain => rfl

theorem keys_prefix_serve (t : CapabilityTable) (request : Request) : t.keys <+: (t.serve request).keys := by
  cases request with
  | put entry => exact (entries_prefix_put t entry).map Capability.name
  | setBits name bits => exact keys_setBits ▸ List.prefix_rfl
  | setBitsAt index bits => exact keys_setBitsAt ▸ List.prefix_rfl
  | drain => exact List.prefix_rfl

theorem keys_prefix_serveAll (t : CapabilityTable) (requests : List Request) :
    t.keys <+: (t.serveAll requests).keys := by
  induction requests generalizing t with
  | nil => exact List.prefix_rfl
  | cons request rest ih => exact (keys_prefix_serve t request).trans (ih (t.serve request))

theorem keys_serveAll (hnull : [""] <+: t.keys) (requests : List Request) :
    (t.serveAll requests).keys = ((records requests).map Capability.name).foldl (grant capacity) t.keys := by
  induction requests generalizing t with
  | nil => rfl
  | cons request rest ih =>
    rw [serveAll_cons, ih (hnull.trans (keys_prefix_serve t request)), keys_serve hnull request, records, records,
      List.filterMap_cons]
    cases request.record? <;> rfl

theorem keys_serveAll_empty (traceId : String) (requests : List Request) :
    ((empty traceId).serveAll requests).keys = "" :: firstNames requests := by
  have hnew : ∀ name ∈ (records requests).map Capability.name, name ∉ [""] := by
    rintro name hname hnull
    obtain ⟨entry, hentry, rfl⟩ := List.mem_map.mp hname
    obtain ⟨request, -, hrecord⟩ := List.mem_filterMap.mp hentry
    exact record?_name_ne hrecord (List.mem_singleton.mp hnull)
  rw [keys_serveAll List.prefix_rfl]
  exact foldl_grant (show [""].length ≤ capacity by decide) hnew

/-! ### Positions -/

/-- A table whose names are distinct, behind a null record that never changes. -/
structure Indexed (t : CapabilityTable) : Prop where
  null : t.entries[0]? = some ⟨"", 0, 0, 0⟩
  keys : t.keys.Nodup
  size : t.size ≤ capacity

theorem indexed_empty (traceId : String) : (empty traceId).Indexed :=
  ⟨rfl, List.nodup_singleton _, show 1 ≤ capacity by decide⟩

theorem getElem?_keys (t : CapabilityTable) (index : Nat) : t.keys[index]? = (t.entries[index]?).map Capability.name :=
  List.getElem?_map

theorem Indexed.null_prefix (h : t.Indexed) : [""] <+: t.keys := by
  have hkey : t.keys[0]? = some "" := by
    rw [getElem?_keys, h.null]
    rfl
  cases hkeys : t.keys with
  | nil => simp [hkeys] at hkey
  | cons key rest =>
    rw [hkeys] at hkey
    obtain rfl := Option.some.inj hkey
    exact List.prefix_append [_] rest

theorem null_serve (h : t.entries[0]? = some ⟨"", 0, 0, 0⟩) (request : Request) :
    (t.serve request).entries[0]? = some ⟨"", 0, 0, 0⟩ := by
  -- No mask is set at position zero.
  have setAt {index : Nat} {bits : UInt64} : (t.setBitsAt index bits).2.entries[0]? = some ⟨"", 0, 0, 0⟩ := by
    rw [getElem?_setBitsAt, h, Option.map_some, if_neg]
    rintro ⟨rfl, hset⟩
    exact Nat.lt_irrefl 0 (setBitsAt_eq_true_iff.mp hset).1
  cases request with
  | put entry => exact getElem?_of_prefix (entries_prefix_put t entry) h
  | setBits name bits =>
    cases hindex : t.index? name with
    | some index =>
      show (t.setBits name bits).2.entries[0]? = _
      rw [setBits_of_index? hindex, setAt]
    | none =>
      show (t.setBits name bits).2.entries[0]? = _
      rw [setBits_of_none hindex, h]
  | setBitsAt index bits => exact setAt
  | drain => exact h

theorem Indexed.serve (h : t.Indexed) (request : Request) : (t.serve request).Indexed := by
  have hkeys := keys_serve h.null_prefix request
  have hsize : t.keys.length ≤ capacity := t.length_keys ▸ h.size
  refine ⟨null_serve h.null request, ?_, ?_⟩
  · rw [hkeys]
    cases request.record? with
    | none => exact h.keys
    | some entry => exact nodup_grant h.keys
  · rw [← length_keys, hkeys]
    cases request.record? with
    | none => exact hsize
    | some entry => exact length_grant_le hsize

theorem Indexed.serveAll (h : t.Indexed) (requests : List Request) : (t.serveAll requests).Indexed := by
  induction requests generalizing t with
  | nil => exact h
  | cons request rest ih => exact ih (h.serve request)

theorem idxOf?_eq_some_iff_of_nodup {l : List String} (h : l.Nodup) {a : String} {i : Nat} :
    l.idxOf? a = some i ↔ l[i]? = some a := by
  rw [List.idxOf?_eq_some_iff, List.getElem?_eq_some_iff]
  refine exists_congr fun hi => ⟨fun hfirst => hfirst.1, fun hat => ⟨hat, fun j hj hother => ?_⟩⟩
  exact Nat.ne_of_lt hj (h.getElem_inj_iff.mp (hother.trans hat.symm))

/-- A name has the position at which it stands, unless that is the null record's. -/
theorem Indexed.index?_eq_some_iff (h : t.Indexed) :
    t.index? name = some index ↔ 0 < index ∧ t.keys[index]? = some name := by
  obtain ⟨listed, hlisted⟩ := h.null_prefix
  have hkeys : t.keys = "" :: listed := hlisted.symm
  have hnodup := h.keys
  rw [hkeys] at hnodup ⊢
  obtain ⟨hnull, hnodup⟩ := List.nodup_cons.mp hnodup
  cases index with
  | zero => simp [index?]
  | succ i =>
    rw [List.getElem?_cons_succ]
    by_cases hname : name = ""
    · have hnone : t.index? name = none := if_pos hname
      rw [hnone, hname]
      exact iff_of_false (Option.some_ne_none _).symm fun hmem => hnull (List.mem_of_getElem? hmem.2)
    · rw [index?_of_ne hname, hkeys, List.tail_cons, ← idxOf?_eq_some_iff_of_nodup hnodup]
      simp

theorem Indexed.index?_kept (h : t.Indexed) (hindex : t.index? name = some index) (requests : List Request) :
    (t.serveAll requests).index? name = some index := by
  obtain ⟨hpos, hat⟩ := h.index?_eq_some_iff.mp hindex
  exact (h.serveAll requests).index?_eq_some_iff.mpr
    ⟨hpos, getElem?_of_prefix (keys_prefix_serveAll t requests) hat⟩

theorem index?_serveAll_empty (traceId : String) (requests : List Request) (name : String) :
    ((empty traceId).serveAll requests).index? name = ((firstNames requests).idxOf? name).map (· + 1) := by
  have hkeys := keys_serveAll_empty traceId requests
  by_cases hname : name = ""
  · have hnodup := ((indexed_empty traceId).serveAll requests).keys
    rw [hkeys] at hnodup
    rw [hname, List.idxOf?_eq_none_iff.mpr (List.nodup_cons.mp hnodup).1]
    rfl
  · rw [index?_of_ne hname, hkeys, List.tail_cons]

/-! ### Records -/

/-- A request changes no more of a record than its mask, and that only if it sets it. -/
theorem Indexed.getElem?_serve (h : t.Indexed) (hpos : 0 < index) (he : t.entries[index]? = some e)
    (request : Request) :
    (t.serve request).entries[index]? = some { e with bits := (t.mask? e.name index request).getD e.bits } := by
  have hkey : t.keys[index]? = some e.name := by rw [getElem?_keys, he, Option.map_some]
  cases request with
  | put entry => exact getElem?_of_prefix (entries_prefix_put t entry) he
  | setBits other bits =>
    show (t.setBits other bits).2.entries[index]? = _
    cases hother : t.index? other with
    | some found =>
      obtain ⟨hfound, hat⟩ := h.index?_eq_some_iff.mp hother
      have hsame : found = index ↔ other = e.name := by
        refine ⟨fun heq => ?_, fun heq => ?_⟩
        · rw [heq, hkey] at hat
          exact (Option.some.inj hat).symm
        · have hindex := h.index?_eq_some_iff.mpr ⟨hpos, hkey⟩
          rw [heq, hindex] at hother
          exact (Option.some.inj hother).symm
      rw [mask?, setBits_of_index? hother, getElem?_setBitsAt, he, Option.map_some]
      simp only [hsame]
      split <;> rfl
    | none =>
      rw [mask?, setBits_of_none hother, he, if_neg (fun hset => Bool.false_ne_true hset.2)]
      rfl
  | setBitsAt other bits =>
    show (t.setBitsAt other bits).2.entries[index]? = _
    rw [mask?, getElem?_setBitsAt, he, Option.map_some]
    split <;> rfl
  | drain => exact he

theorem Indexed.getElem?_serveAll (h : t.Indexed) (hpos : 0 < index) (he : t.entries[index]? = some e)
    (requests : List Request) :
    (t.serveAll requests).entries[index]? =
      some { e with bits := (t.masks e.name index requests).getLast?.getD e.bits } := by
  induction requests generalizing t e with
  | nil => exact he
  | cons request rest ih =>
    rw [serveAll_cons, ih (h.serve request) (h.getElem?_serve hpos he request), masks, List.getLast?_append]
    cases ((t.serve request).masks e.name index rest).getLast? with
    | some bits => rfl
    | none => cases t.mask? e.name index request <;> rfl

/-- No mask is set for a name that has no record, at a position that the table has not reached. -/
theorem mask?_eq_none (hnew : t.index? name = none) (hsize : t.size ≤ index) (request : Request) :
    t.mask? name index request = none := by
  cases request with
  | put entry => rfl
  | setBits other bits =>
    refine if_neg ?_
    rintro ⟨rfl, hset⟩
    rw [setBits_of_none hnew] at hset
    cases hset
  | setBitsAt other bits =>
    refine if_neg ?_
    rintro ⟨rfl, hset⟩
    exact Nat.not_lt_of_le hsize (setBitsAt_eq_true_iff.mp hset).2
  | drain => rfl

/-- A name that a request brings into the table is that of the record that it puts. -/
theorem record?_of_new (hnew : name ∉ t.keys) (hmem : name ∈ (t.serve request).keys) :
    ∃ entry, request.record? = some entry ∧ entry.name = name ∧ (t.serve request).entries = t.entries ++ [entry] := by
  have kept (h : (t.serve request).keys = t.keys) : False := hnew (h ▸ hmem)
  cases request with
  | put entry =>
    rcases entries_put t entry with hsame | ⟨hname, hadded⟩
    · exact (kept (congrArg (List.map Capability.name) hsame)).elim
    · have hkeys : (t.serve (.put entry)).keys = t.keys ++ [entry.name] :=
        (congrArg (List.map Capability.name) hadded).trans List.map_append
      rw [hkeys] at hmem
      have hentry := (List.mem_append.mp hmem).resolve_left hnew
      exact ⟨entry, if_neg hname, (List.mem_singleton.mp hentry).symm, hadded⟩
  | setBits other bits => exact (kept keys_setBits).elim
  | setBitsAt other bits => exact (kept keys_setBitsAt).elim
  | drain => exact (kept rfl).elim

/-- A record that is put is in the table at once or never. -/
theorem not_mem_keys_serveAll (hnull : [""] <+: t.keys) (hrecord : request.record? = some entry)
    (hrefused : entry.name ∉ (t.serve request).keys) (rest : List Request) :
    entry.name ∉ ((t.serve request).serveAll rest).keys := by
  have hkeys : (t.serve request).keys = grant capacity t.keys entry.name := by
    rw [keys_serve hnull, hrecord]
    rfl
  rw [keys_serveAll (hnull.trans (keys_prefix_serve t request)), hkeys, mem_foldl_grant_iff, ← hkeys]
  exact hrefused

theorem firstRecord?_cons_self (hrecord : request.record? = some entry) :
    firstRecord? (request :: rest) entry.name = some entry := by
  simp [firstRecord?, records, hrecord]

theorem firstRecord?_cons_of_ne (hother : ∀ entry, request.record? = some entry → entry.name ≠ name) :
    firstRecord? (request :: rest) name = firstRecord? rest name := by
  rw [firstRecord?, firstRecord?, records, records, List.filterMap_cons]
  cases hrecord : request.record? with
  | none => rfl
  | some entry => exact List.find?_cons_of_neg (by simpa using hother entry hrecord)

/-- The record of a name is the first one that was put for it, with the last mask that was set for it. -/
theorem Indexed.getElem?_serveAll_of_new (h : t.Indexed) (hnew : name ∉ t.keys)
    (hindex : (t.serveAll requests).index? name = some index) :
    ∃ first, firstRecord? requests name = some first ∧ (t.serveAll requests).entries[index]? =
      some { first with bits := (t.masks name index requests).getLast?.getD first.bits } := by
  obtain ⟨-, hat⟩ := (h.serveAll requests).index?_eq_some_iff.mp hindex
  induction requests generalizing t with
  | nil => exact absurd (List.mem_of_getElem? hat) hnew
  | cons request rest ih =>
    have hserve := h.serve request
    have hunknown : t.index? name = none := by
      refine Option.eq_none_iff_forall_ne_some.mpr fun found hfound => hnew ?_
      exact List.mem_of_getElem? (h.index?_eq_some_iff.mp hfound).2
    have hsize : t.size ≤ index := by
      obtain ⟨added, hadded⟩ := keys_prefix_serveAll t (request :: rest)
      refine Nat.le_of_not_lt fun hlt => hnew (List.mem_of_getElem? (i := index) ?_)
      rw [← hat, ← hadded, List.getElem?_append_left (t.length_keys ▸ hlt)]
    have hmasks : t.masks name index (request :: rest) = (t.serve request).masks name index rest := by
      rw [masks, mask?_eq_none hunknown hsize]
      rfl
    rw [hmasks]
    by_cases hmem : name ∈ (t.serve request).keys
    · -- The record is created now, behind the other ones, and from now on only its mask changes.
      obtain ⟨entry, hrecord, rfl, hadded⟩ := record?_of_new hnew hmem
      have he : (t.serve request).entries[t.size]? = some entry := by
        rw [hadded, CapabilityTable.size, List.getElem?_concat_length]
      have hpos : 0 < t.size := (List.getElem?_eq_some_iff.mp h.null).1
      have hcreated : (t.serve request).index? entry.name = some t.size :=
        hserve.index?_eq_some_iff.mpr ⟨hpos, by rw [getElem?_keys, he, Option.map_some]⟩
      obtain rfl : t.size = index := Option.some.inj ((hserve.index?_kept hcreated rest).symm.trans hindex)
      exact ⟨entry, firstRecord?_cons_self hrecord, hserve.getElem?_serveAll hpos he rest⟩
    · obtain ⟨first, hfirst, hentry⟩ := ih hserve hmem hindex hat
      refine ⟨first, ?_, hentry⟩
      rw [firstRecord?_cons_of_ne fun entry hrecord heq => ?_, hfirst]
      -- A record of this name would have been refused for ever.
      rw [← heq] at hmem hat
      exact not_mem_keys_serveAll h.null_prefix hrecord hmem rest (List.mem_of_getElem? hat)

/-! ### Answers -/

theorem Indexed.put_eq_none_iff (h : t.Indexed) :
    (t.put entry).1 = none ↔ entry.name = "" ∨ entry.name ∉ t.keys ∧ capacity ≤ t.size := by
  have hput := put_cases t entry
  generalize t.put entry = answer at hput ⊢
  cases hput with
  | unnamed hunnamed => exact iff_of_true rfl (Or.inl hunnamed)
  | known hname hindex =>
    refine iff_of_false (Option.some_ne_none _) ?_
    rw [or_iff_right hname, ← index?_eq_none_iff h.null_prefix hname, hindex]
    exact fun hnone => Option.some_ne_none _ hnone.1
  | full hname hindex hfull =>
    exact iff_of_true rfl (Or.inr ⟨(index?_eq_none_iff h.null_prefix hname).mp hindex, hfull⟩)
  | new hname _ hroom =>
    refine iff_of_false (Option.some_ne_none _) ?_
    rw [or_iff_right hname]
    exact fun hnone => Nat.not_le_of_lt hroom hnone.2

/-- The answer to a record that is put is the position that its name has afterwards. -/
theorem Indexed.put_answer (h : t.Indexed) (entry : Capability) :
    (t.put entry).1 = (t.put entry).2.index? entry.name := by
  have hserve : (t.put entry).2.Indexed := h.serve (.put entry)
  have hput := put_cases t entry
  generalize t.put entry = answer at hput hserve ⊢
  cases hput with
  | unnamed hunnamed => exact (if_pos hunnamed).symm
  | known _ hindex => exact hindex.symm
  | full _ hindex => exact hindex.symm
  | new =>
    refine (hserve.index?_eq_some_iff.mpr ⟨(List.getElem?_eq_some_iff.mp h.null).1, ?_⟩).symm
    rw [getElem?_keys, CapabilityTable.size, List.getElem?_concat_length, Option.map_some]

/-- What is refused leaves one diagnostic, and no other trace. -/
theorem put_refused (h : (t.put entry).1 = none) :
    (t.put entry).2.entries = t.entries ∧
      ∃ e : Event, e.isDiagnostic = true ∧ e.subject = some entry.name ∧
        e.errorCode = some (if entry.name = "" then invalidNameCode else tableFullCode) ∧
          (t.put entry).2.log = t.log.push e := by
  have hput := put_cases t entry
  generalize t.put entry = answer at hput h ⊢
  cases hput with
  | unnamed hunnamed =>
    rw [if_pos hunnamed]
    exact ⟨rfl, _, rfl, rfl, rfl, rfl⟩
  | known => cases h
  | full hname =>
    rw [if_neg hname]
    exact ⟨rfl, _, rfl, rfl, rfl, rfl⟩
  | new => cases h

/-! ### The whole table -/

/-- A table after requests: a map from the first distinct names to records, with their order and with the labels
of the first writes. -/
structure FirstWrites (traceId : String) (requests : List Request) (t : CapabilityTable) : Prop where
  null : t.entries[0]? = some ⟨"", 0, 0, 0⟩
  names : t.keys = "" :: firstNames requests
  index : ∀ name, t.index? name = ((firstNames requests).idxOf? name).map (· + 1)
  /-- A position that a name has been given stays its position, with the same labels. -/
  kept : ∀ before after, requests = before ++ after →
    ∀ name index, ((empty traceId).serveAll before).index? name = some index →
      t.index? name = some index ∧ t.assignedAt? index = ((empty traceId).serveAll before).assignedAt? index ∧
        t.declassifiedTo? index = ((empty traceId).serveAll before).declassifiedTo? index
  /-- The labels are those that were put first, the mask is the last one that was set. -/
  record : ∀ name index, t.index? name = some index → ∃ first, firstRecord? requests name = some first ∧
    t.assignedAt? index = some first.assignedAt ∧ t.declassifiedTo? index = some first.declassifiedTo ∧
      t.bitsAt? index = some (((empty traceId).masks name index requests).getLast?.getD first.bits)
  bits : ∀ name, t.bits? name = (t.index? name).bind t.bitsAt?
  /-- A mask is set exactly where it can be read. -/
  settable : ∀ name bits, (t.setBits name bits).1 = (t.bits? name).isSome
  settableAt : ∀ index bits, (t.setBitsAt index bits).1 = (t.bitsAt? index).isSome
  answer : ∀ entry, (t.put entry).1 = (t.put entry).2.index? entry.name
  refuses : ∀ entry, (t.put entry).1 = none ↔
    entry.name = "" ∨ entry.name ∉ firstNames requests ∧ (firstNames requests).length = capacity - 1
  /-- What is refused leaves one diagnostic and no other trace. -/
  refused : ∀ entry, (t.put entry).1 = none → (t.put entry).2.entries = t.entries ∧
    ∃ e : Event, e.isDiagnostic = true ∧ e.subject = some entry.name ∧
      e.errorCode = some (if entry.name = "" then invalidNameCode else tableFullCode) ∧
        (t.put entry).2.log = t.log.push e

theorem named?_of_pos (hpos : 0 < index) : t.named? index = t.entries[index]? := if_neg (Nat.ne_of_gt hpos)

theorem Indexed.labels_kept (h : t.Indexed) (hindex : t.index? name = some index) (requests : List Request) :
    (t.serveAll requests).assignedAt? index = t.assignedAt? index ∧
      (t.serveAll requests).declassifiedTo? index = t.declassifiedTo? index := by
  obtain ⟨hpos, hat⟩ := h.index?_eq_some_iff.mp hindex
  rw [getElem?_keys] at hat
  obtain ⟨e, he, -⟩ := Option.map_eq_some_iff.mp hat
  have hafter := h.getElem?_serveAll hpos he requests
  rw [assignedAt?, assignedAt?, declassifiedTo?, declassifiedTo?, named?_of_pos hpos, named?_of_pos hpos, he, hafter]
  exact ⟨rfl, rfl⟩

theorem Indexed.bits?_eq (h : t.Indexed) (name : String) : t.bits? name = (t.index? name).bind t.bitsAt? := by
  rw [bits?]
  cases hindex : t.index? name with
  | none => rfl
  | some index =>
    rw [Option.bind_some, Option.bind_some, bitsAt?, named?_of_pos (h.index?_eq_some_iff.mp hindex).1]

theorem setBitsAt_eq_isSome (index : Nat) (bits : UInt64) : (t.setBitsAt index bits).1 = (t.bitsAt? index).isSome := by
  rw [Bool.eq_iff_iff, setBitsAt_eq_true_iff, bitsAt?, Option.isSome_map]
  cases index with
  | zero => exact iff_of_false (fun h => Nat.lt_irrefl 0 h.1) nofun
  | succ i =>
    rw [named?_of_pos (Nat.succ_pos i), isSome_getElem?]
    exact and_iff_right (Nat.succ_pos i)

theorem Indexed.setBits_eq_isSome (h : t.Indexed) (name : String) (bits : UInt64) :
    (t.setBits name bits).1 = (t.bits? name).isSome := by
  rw [h.bits?_eq]
  cases hindex : t.index? name with
  | none =>
    rw [setBits_of_none hindex]
    rfl
  | some index => rw [setBits_of_index? hindex, setBitsAt_eq_isSome, Option.bind_some]

theorem first_writes (traceId : String) (requests : List Request) :
    FirstWrites traceId requests ((empty traceId).serveAll requests) := by
  have indexed := (indexed_empty traceId).serveAll requests
  have hkeys := keys_serveAll_empty traceId requests
  refine ⟨indexed.null, hkeys, index?_serveAll_empty traceId requests, ?_, ?_, indexed.bits?_eq,
    indexed.setBits_eq_isSome, setBitsAt_eq_isSome, indexed.put_answer, ?_, fun _ => put_refused⟩
  · rintro before after rfl name index hindex
    have hbefore := (indexed_empty traceId).serveAll before
    rw [serveAll_append]
    exact ⟨hbefore.index?_kept hindex after, hbefore.labels_kept hindex after⟩
  · intro name index hindex
    have hpos := (indexed.index?_eq_some_iff.mp hindex).1
    have hnew : name ∉ (empty traceId).keys := by
      intro hmem
      rw [List.mem_singleton.mp hmem] at hindex
      cases hindex
    obtain ⟨first, hfirst, hentry⟩ := (indexed_empty traceId).getElem?_serveAll_of_new hnew hindex
    refine ⟨first, hfirst, ?_⟩
    rw [assignedAt?, declassifiedTo?, bitsAt?, named?_of_pos hpos, hentry]
    exact ⟨rfl, rfl, rfl⟩
  · intro entry
    have hlength := length_keys ((empty traceId).serveAll requests)
    have hfirst : (firstNames requests).length ≤ capacity - 1 := List.length_take_le _ _
    rw [hkeys, List.length_cons] at hlength
    rw [indexed.put_eq_none_iff, hkeys, ← hlength, List.mem_cons, not_or]
    have hfull : capacity ≤ (firstNames requests).length + 1 ↔ (firstNames requests).length = capacity - 1 := by
      omega
    rw [hfull]
    tauto

example :
    ((empty "t").serveAll [.put ⟨"cookie", 1, 2, 3⟩, .put ⟨"form", 4, 5, 6⟩, .put ⟨"cookie", 7, 8, 9⟩,
      .setBitsAt 2 10, .setBits "form" 11, .setBitsAt 3 12]).entries.tail =
      [⟨"cookie", 1, 2, 3⟩, ⟨"form", 11, 5, 6⟩] := by
  decide +kernel

end InfoFlow.CapabilityTable
