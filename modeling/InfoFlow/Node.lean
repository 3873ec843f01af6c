import InfoFlow.Label

/-! # Labels of nodes

The nodes of a document have labels, which are kept in a map by increasing node. Whoever reads a collection of nodes
reads something about their labels. -/

namespace InfoFlow

/-! ### Maps from nodes to labels

A finite map is the list of its entries by increasing node, so equal maps are equal lists. -/

structure Node where
  id : UInt64
deriving DecidableEq

def Increasing (entries : List (Node × Label)) : Prop := entries.Pairwise fun a b => a.1.id < b.1.id

structure LabelMap where
  entries : List (Node × Label)
  increasing : Increasing entries

namespace LabelMap

def empty : LabelMap := ⟨[], List.Pairwise.nil⟩

def find? (m : LabelMap) (node : Node) : Option Label := m.entries.lookup node

/-- Puts an entry at its place in the order; an entry of the same node gives way. -/
def insertEntry (node : Node) (label : Label) : List (Node × Label) → List (Node × Label)
  | [] => [(node, label)]
  | e :: rest =>
    if node.id < e.1.id then (node, label) :: e :: rest
    else if e.1.id < node.id then e :: insertEntry node label rest
    else (node, label) :: rest

theorem mem_insertEntry {node : Node} {label : Label} {e : Node × Label} :
    ∀ {l : List (Node × Label)}, e ∈ insertEntry node label l → e = (node, label) ∨ e ∈ l
  | [], h => by simpa [insertEntry] using h
  | x :: l, h => by
    rw [insertEntry] at h
    split at h
    · simpa using h
    · split at h
      · rcases List.mem_cons.mp h with h | h
        · exact Or.inr (h ▸ List.mem_cons_self)
        · exact (mem_insertEntry h).imp_right (List.mem_cons_of_mem x)
      · exact (List.mem_cons.mp h).imp_right (List.mem_cons_of_mem x)

theorem increasing_insertEntry {node : Node} {label : Label} :
    ∀ {l : List (Node × Label)}, Increasing l → Increasing (insertEntry node label l)
  | [], _ => by simp [insertEntry, Increasing]
  | x :: l, h => by
    have hx := List.pairwise_cons.mp h
    rw [insertEntry]
    split
    · rename_i hlt
      refine List.pairwise_cons.mpr ⟨fun e he => ?_, h⟩
      rcases List.mem_cons.mp he with rfl | he
      · exact hlt
      · exact UInt64.lt_trans hlt (hx.1 e he)
    · split
      · rename_i hlt
        refine List.pairwise_cons.mpr ⟨fun e he => ?_, increasing_insertEntry hx.2⟩
        rcases mem_insertEntry he with rfl | he
        · exact hlt
        · exact hx.1 e he
      · rename_i h₁ h₂
        have heq : x.1.id = node.id := UInt64.le_antisymm (UInt64.not_lt.mp h₁) (UInt64.not_lt.mp h₂)
        exact List.pairwise_cons.mpr ⟨fun e he => heq ▸ hx.1 e he, hx.2⟩

def insert (m : LabelMap) (node : Node) (label : Label) : LabelMap :=
  ⟨insertEntry node label m.entries, increasing_insertEntry m.increasing⟩

theorem lookup_cons {e : Node × Label} {node : Node} {l : List (Node × Label)} :
    (e :: l).lookup node = if node = e.1 then some e.2 else l.lookup node := by
  rw [List.lookup_cons]
  by_cases h : node = e.1
  · rw [beq_iff_eq.mpr h, if_pos h]
  · rw [beq_false_of_ne h, if_neg h]

theorem lookup_insertEntry {node other : Node} {label : Label} {l : List (Node × Label)} :
    (insertEntry node label l).lookup other = if other = node then some label else l.lookup other := by
  induction l with
  | nil => rw [insertEntry, lookup_cons]
  | cons e rest ih =>
    rw [insertEntry]
    split
    · rw [lookup_cons]
    · split
      · rename_i hlt
        have hne : e.1 ≠ node := fun heq => UInt64.lt_irrefl _ (heq ▸ hlt)
        rw [lookup_cons, lookup_cons, ih]
        by_cases h : other = e.1
        · simp [h, hne]
        · simp [h]
      · rename_i h₁ h₂
        have heq : e.1 = node := by
          have hid : e.1.id = node.id := UInt64.le_antisymm (UInt64.not_lt.mp h₁) (UInt64.not_lt.mp h₂)
          exact congrArg Node.mk hid
        rw [lookup_cons, lookup_cons, heq]
        by_cases h : other = node <;> simp [h]

/-- An insertion changes the label of its node only. -/
theorem find?_insert {m : LabelMap} {node other : Node} {label : Label} :
    (m.insert node label).find? other = if other = node then some label else m.find? other :=
  lookup_insertEntry

def erase (m : LabelMap) (node : Node) : LabelMap :=
  ⟨m.entries.filter (·.1 != node), m.increasing.filter _⟩

theorem lookup_filter_ne {node other : Node} {l : List (Node × Label)} :
    (l.filter (·.1 != node)).lookup other = if other = node then none else l.lookup other := by
  induction l with
  | nil => simp
  | cons e rest ih =>
    rw [lookup_cons]
    by_cases he : e.1 = node
    · rw [List.filter_cons_of_neg (by simp [he]), ih, he]
      by_cases h : other = node <;> simp [h]
    · rw [List.filter_cons_of_pos (by simp [he]), lookup_cons, ih]
      by_cases h : other = e.1 <;> simp [h, he]

theorem find?_erase {m : LabelMap} {node other : Node} :
    (m.erase node).find? other = if other = node then none else m.find? other :=
  lookup_filter_ne

/-- The map with the given entries; of several for one node the last one counts. -/
def ofList (entries : List (Node × Label)) : LabelMap :=
  entries.foldl (fun m e => m.insert e.1 e.2) empty

end LabelMap

/-! ### The store

The store of the labels of a document's nodes. Its revision grows with every change, so that whoever
remembers something about the labels can tell whether it still holds. -/

/-- The labels of the nodes that have one, and the number of changes so far. -/
structure NodeStore where
  labels : LabelMap
  revision : UInt64

namespace NodeStore

def empty : NodeStore := ⟨.empty, 0⟩

/-- The label of a node; a node without one is public. -/
def labelOf (s : NodeStore) (node : Node) : Label := (s.labels.find? node).getD .bottom

/-- Gives a node a label without any check. -/
def tag (s : NodeStore) (node : Node) (label : Label) : NodeStore :=
  ⟨s.labels.insert node label, s.revision + 1⟩

theorem labelOf_tag {s : NodeStore} {node other : Node} {label : Label} :
    (s.tag node label).labelOf other = if other = node then label else s.labelOf other := by
  rw [labelOf, tag, LabelMap.find?_insert]
  by_cases h : other = node <;> simp [h, labelOf]

/-- Takes the label of a node away; nothing changes for a node without one. -/
def untag (s : NodeStore) (node : Node) : NodeStore :=
  if (s.labels.find? node).isSome then ⟨s.labels.erase node, s.revision + 1⟩ else s

theorem labelOf_untag {s : NodeStore} {node other : Node} :
    (s.untag node).labelOf other = if other = node then .bottom else s.labelOf other := by
  unfold untag
  split
  · rw [labelOf, LabelMap.find?_erase]
    by_cases h : other = node <;> simp [h, labelOf]
  · rename_i hnone
    by_cases h : other = node
    · simp_all [labelOf]
    · simp [h]

end NodeStore

/-! ### Labeled reads of node collections

To read a collection tells something about every node that the read passes: the length depends on all
of them, the item at `i` on the first `i + 1`. The joins of the nodes' labels up to each position are
remembered until the collection or the store changes. -/

/-- The joins up to each position, and the revision of the store at which they were computed. -/
structure JoinCache where
  revision : UInt64
  joins : List Label
deriving DecidableEq

structure NodeCollection where
  nodes : List Node
  cache : Option JoinCache
deriving DecidableEq

/-- The joins of a label with the labels up to each position of a list. -/
def runningJoins (start : Label) : List Label → List Label
  | [] => []
  | label :: rest => start.join label :: runningJoins (start.join label) rest

namespace NodeCollection

def ofNodes (nodes : List Node) : NodeCollection := ⟨nodes, none⟩

def invalidate (c : NodeCollection) : NodeCollection := { c with cache := none }

def push (c : NodeCollection) (node : Node) : NodeCollection := invalidate { c with nodes := c.nodes ++ [node] }

/-- Removes a node wherever it stands, and tells whether it stood anywhere. -/
def remove (c : NodeCollection) (node : Node) : Bool × NodeCollection :=
  if c.nodes.contains node then (true, invalidate { c with nodes := c.nodes.filter (· != node) }) else (false, c)

def isCached (c : NodeCollection) (store : NodeStore) : Bool :=
  c.cache.any (·.revision == store.revision)

def computeJoins (c : NodeCollection) (store : NodeStore) : List Label :=
  runningJoins .bottom (c.nodes.map store.labelOf)

/-- The collection with its joins computed, unless they are remembered. -/
def refresh (c : NodeCollection) (store : NodeStore) : NodeCollection :=
  if c.isCached store then c else { c with cache := some ⟨store.revision, c.computeJoins store⟩ }

/-- The joins up to each position, which are remembered from now on. -/
def joins (c : NodeCollection) (store : NodeStore) : List Label × NodeCollection :=
  let c := c.refresh store
  (c.cache.elim [] (·.joins), c)

/-- The number of nodes, labeled with every node. -/
def length (c : NodeCollection) (store : NodeStore) : Labeled Nat × NodeCollection :=
  let (joins, c) := c.joins store
  (.primitive c.nodes.length (joins.getLast?.getD .bottom), c)

/-- The node at a position, labeled with the nodes passed on the way there. A read behind the end
passes all of them. -/
def item (c : NodeCollection) (index : Nat) (store : NodeStore) : Labeled (Option Node) × NodeCollection :=
  let (joins, c) := c.joins store
  (.primitive c.nodes[index]? ((joins[index]?.or joins.getLast?).getD .bottom), c)

end NodeCollection
end InfoFlow
