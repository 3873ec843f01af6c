import InfoFlow.Proofs.CachedReads
import InfoFlow.Proofs.SavedForms
import InfoFlow.Saved.State

/-! # Saved documents

The labels of nodes are saved under the nodes' numbers, which are keys of an object and therefore texts. They stand in
the order of the numbers and not of the texts, so a store has one saved form, and reading it inserts each entry behind
those before it. A list is saved with what it remembers and the store with its revision. So a document that is loaded
answers like the one that was saved, and takes the same caches for valid. -/

namespace InfoFlow

open Json Fields LawfulSaved

/-! ### Maps in order -/

namespace LabelMap

variable {node : Node} {label : Label} {l : List (Node × Label)} {m : LabelMap}

theorem insertEntry_of_last (h : ∀ e ∈ l, e.1.id < node.id) : insertEntry node label l = l ++ [(node, label)] := by
  induction l with
  | nil => rfl
  | cons e rest ih =>
    obtain ⟨he, hrest⟩ := List.forall_mem_cons.mp h
    have hafter : ¬ node.id < e.1.id := UInt64.lt_asymm he
    rw [insertEntry, if_neg hafter, if_pos he, ih hrest, List.cons_append]

/-- Entries in order that all come after those of a map are put behind them. -/
theorem entries_foldl_insert (h : Increasing (m.entries ++ l)) :
    (l.foldl (fun m e => m.insert e.1 e.2) m).entries = m.entries ++ l := by
  induction l generalizing m with
  | nil => exact (List.append_nil m.entries).symm
  | cons e rest ih =>
    have hlast : ∀ a ∈ m.entries, a.1.id < e.1.id := fun a ha =>
      (List.pairwise_append.mp h).2.2 a ha e List.mem_cons_self
    have hinsert : (m.insert e.1 e.2).entries = m.entries ++ [e] := insertEntry_of_last hlast
    have hnext : (m.insert e.1 e.2).entries ++ rest = m.entries ++ e :: rest := by
      rw [hinsert, List.append_assoc, List.singleton_append]
    rw [List.foldl_cons, ih (hnext ▸ h), hnext]

theorem ofList_entries (m : LabelMap) : ofList m.entries = m := by
  have hentries : (ofList m.entries).entries = m.entries := entries_foldl_insert m.increasing
  cases hm : ofList m.entries
  cases m
  rw [hm] at hentries
  cases hentries
  rfl

end LabelMap

/-! ### Keys -/

/-- The number of a node is read back from the key that it is written as. -/
theorem Node.ofKey?_toDigits (node : Node) : Node.ofKey? (Nat.toDigits 10 node.id.toNat) = some node := by
  have hcanonical : ¬ ((Nat.toDigits 10 node.id.toNat).head? = some '0' ∧ Nat.toDigits 10 node.id.toNat ≠ ['0']) := by
    rintro ⟨hhead, hne⟩
    obtain ⟨ds, hds⟩ := List.head?_eq_some_iff.mp hhead
    obtain rfl := Json.eq_nil_of_toDigits hds
    exact hne hds
  have hread : (ofJson? (toJson node.id) : Option UInt64) = some node.id := LawfulSaved.ofJson?_toJson node.id
  rw [Node.ofKey?, if_neg hcanonical]
  exact congrArg (Option.map Node.mk) hread

/-! ### Saved forms -/

instance : LawfulSaved Node where
  proper node := proper node.id
  ofJson?_toJson node := by
    change (ofJson? (toJson node.id)).map Node.mk = some node
    simp

instance : LawfulSaved LabelMap where
  proper m := by
    refine .object (List.forall_mem_map.mpr fun e _ => ?_) (List.forall_mem_map.mpr fun e _ => proper e.2)
    exact isRaw_of_isDigit isDigit_of_mem_toDigits
  ofJson?_toJson m := by
    change Option.map LabelMap.ofList (List.mapM _ (m.entries.map _)) = some m
    rw [mapM_map_of_read, Option.map_some, m.ofList_entries]
    rintro ⟨node, label⟩
    simp [Node.ofKey?_toDigits]

instance : LawfulSaved NodeStore where
  proper s := proper_record (by simp)
  ofJson?_toJson s := bind_fields?_complete rfl (by decide) (by simp [get?_cons_of_ne])

instance : LawfulSaved JoinCache where
  proper cache := proper_record (by simp)
  ofJson?_toJson cache := bind_fields?_complete rfl (by decide) (by simp [get?_cons_of_ne])

instance : NeverNull JoinCache where
  toJson_ne_null _ := nofun

instance : LawfulSaved NodeCollection where
  proper c := proper_record (by simp)
  ofJson?_toJson c := bind_fields?_complete rfl (by decide) (by simp [get?_cons_of_ne])

/-! ### Documents -/

namespace Document

/-- What may be asked of a document later on: all operations, the label of a node, and whether a list would answer
from its cache. -/
inductive Query where
  | perform (op : Operation)
  | labelOf (node : Node)
  | isCached (list : Nat)

inductive Reply where
  | performed (answer : Answer)
  | label (label : Label)
  /-- There may be no such list. -/
  | cached (holds : Option Bool)

def ask (d : Document) : Query → Reply × Document
  | .perform op => let (answer, d) := d.perform op; (.performed answer, d)
  | .labelOf node => (.label (d.store.labelOf node), d)
  | .isCached list => (.cached (d.lists[list]?.map (·.isCached d.store)), d)

/-- The replies to queries, one after the other. -/
def replies (d : Document) : List Query → List Reply
  | [] => []
  | q :: queries => (d.ask q).1 :: (d.ask q).2.replies queries

/-- The document whose store and lists are loaded from the texts under which they are saved. -/
def reload? (d : Document) : Option Document := do
  let store ← load? (save d.store)
  let lists ← (d.lists.map save).mapM load?
  return ⟨store, lists⟩

theorem reload?_eq_some (d : Document) : d.reload? = some d := by
  have hlists : (d.lists.map save).mapM load? = some d.lists := mapM_map_of_read load?_save d.lists
  simp [reload?, hlists]

/-- In the text of a store its labels are an object whose keys are the numbers of the nodes in decimal, in increasing
order. -/
structure KeysInOrder (s : NodeStore) (members : List (List Char × Json)) (numbers : List Nat) : Prop where
  saved : save s = (record [("labels", .object members), ("revision", toJson s.revision)]).text
  decimal : members.map Prod.fst = numbers.map (Nat.toDigits 10)
  increasing : numbers.Pairwise (· < ·)

theorem keysInOrder (s : NodeStore) : ∃ members numbers, KeysInOrder s members numbers := by
  refine ⟨_, s.labels.entries.map (·.1.id.toNat), rfl, ?_, ?_⟩
  · rw [List.map_map, List.map_map]
    rfl
  · exact List.pairwise_map.mpr s.labels.increasing

/-- Stores and lists are read back from their texts, a store has one text, and a document that is loaded replies to all
later queries as the one that was saved. -/
theorem reloaded :
    (∀ s : NodeStore, load? (save s) = some s ∧ ∃ members numbers, KeysInOrder s members numbers) ∧
      (∀ s t : NodeStore, s = t ↔ save s = save t) ∧
      (∀ l : NodeCollection, load? (save l) = some l) ∧
      ∀ d : Document, ∃ e, d.reload? = some e ∧ ∀ queries, e.replies queries = d.replies queries := by
  refine ⟨fun s => ⟨load?_save s, keysInOrder s⟩, fun s t => ?_, load?_save, fun d => ?_⟩
  · exact save_injective.eq_iff.symm
  · exact ⟨d, d.reload?_eq_some, fun _ => rfl⟩

end Document
end InfoFlow
