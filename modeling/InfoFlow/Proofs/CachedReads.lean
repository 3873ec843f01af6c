import InfoFlow.Node
import InfoFlow.Proofs.PolicyAnswers

/-! # Cached reads of collections

A document is a store of labels and the lists of nodes over it. Seen without the caches it is only a label for
every node and the nodes of every list, and a read is computed from these. As long as the count of changes does
not overflow, a list whose cache carries the store's revision remembers the joins that would be computed now,
so whatever is done to a document in between, every read answers as that of the document without caches. -/

namespace InfoFlow

/-! ### Joins up to each position -/

theorem getElem?_runningJoins (start : Label) (labels : List Label) (i : Nat) :
    (runningJoins start labels)[i]? = labels[i]?.map fun _ => (labels.take (i + 1)).foldl Label.join start := by
  induction labels generalizing start i with
  | nil => rfl
  | cons label rest ih =>
    cases i with
    | zero => rfl
    | succ i =>
      rw [runningJoins, List.getElem?_cons_succ, List.getElem?_cons_succ, ih]
      rfl

theorem getLast?_runningJoins (start : Label) (labels : List Label) :
    (runningJoins start labels).getLast?.getD start = labels.foldl Label.join start := by
  induction labels generalizing start with
  | nil => rfl
  | cons label rest ih => rw [runningJoins, List.getLast?_cons, Option.getD_some, ih, List.foldl_cons]

/-! ### Documents -/

/-- A store of labels and the lists over it. -/
structure Document where
  store : NodeStore
  lists : List NodeCollection

namespace Document

/-- What is done to the store of labels. The policy operations run in any context. -/
inductive Relabeling where
  | tag (node : Node) (label : Label)
  | untag (node : Node)
  | assign (c : Context) (node : Node) (hint : Origin.Hint)
  | upgrade (c : Context) (node : Node)

/-- What is done to one list. -/
inductive Access where
  | push (node : Node)
  | remove (node : Node)
  | invalidate
  | length
  | item (index : Nat)

inductive Operation where
  | relabel (change : Relabeling)
  | create (nodes : List Node)
  | access (list : Nat) (access : Access)

inductive Answer where
  | done
  | labeled (answer : Except PolicyError Label)
  | removed (found : Bool)
  | length (value : Labeled Nat)
  | item (value : Labeled (Option Node))
  /-- There is no such list. -/
  | noList

/-- Accesses the element at a position, if there is one. -/
def accessAt {α : Type} (act : α → Answer × α) (l : List α) (i : Nat) : Answer × List α :=
  match l[i]? with
  | none => (.noList, l)
  | some a => ((act a).1, l.set i (act a).2)

end Document

open Document (Relabeling Access Answer)

def NodeStore.relabel (s : NodeStore) : Relabeling → Answer × NodeStore
  | .tag node label => (.done, s.tag node label)
  | .untag node => (.done, s.untag node)
  | .assign c node hint => let (answer, s, _) := c.assignNode s node hint; (.labeled answer, s)
  | .upgrade c node => let (answer, s, _) := c.upgradeNode s node; (.labeled answer, s)

def NodeCollection.access (s : NodeStore) (c : NodeCollection) : Access → Answer × NodeCollection
  | .push node => (.done, c.push node)
  | .remove node => let (found, c) := c.remove node; (.removed found, c)
  | .invalidate => (.done, c.invalidate)
  | .length => let (value, c) := c.length s; (.length value, c)
  | .item index => let (value, c) := c.item index s; (.item value, c)

namespace Document

def empty : Document := ⟨.empty, []⟩

def perform (d : Document) : Operation → Answer × Document
  | .relabel change => let (answer, store) := d.store.relabel change; (answer, { d with store })
  | .create nodes => (.done, { d with lists := d.lists ++ [.ofNodes nodes] })
  | .access list access =>
    let (answer, lists) := accessAt (·.access d.store access) d.lists list; (answer, { d with lists })

/-- The answers to operations, one after the other. -/
def answers (d : Document) : List Operation → List Answer
  | [] => []
  | op :: ops => (d.perform op).1 :: (d.perform op).2.answers ops

/-! ### Documents without caches -/

/-- A document as its readers see it. -/
structure View where
  labelOf : Node → Label
  lists : List (List Node)

def relabelNode (labelOf : Node → Label) (node : Node) (label : Label) : Node → Label :=
  fun other => if other = node then label else labelOf other

/-- What a policy operation makes of the labels if it succeeds. -/
def relabelBy (labelOf : Node → Label) (node : Node) : Except PolicyError Label → Answer × (Node → Label)
  | .error e => (.labeled (.error e), labelOf)
  | .ok label => (.labeled (.ok label), relabelNode labelOf node label)

def relabelView (labelOf : Node → Label) : Relabeling → Answer × (Node → Label)
  | .tag node label => (.done, relabelNode labelOf node label)
  | .untag node => (.done, relabelNode labelOf node .bottom)
  | .assign c node hint => relabelBy labelOf node (c.assign (.primitive node (labelOf node)) hint).1
  | .upgrade c node => relabelBy labelOf node (c.upgrade (.primitive node (labelOf node))).1

/-- The length carries the labels of all nodes, the item at a position those of the nodes up to it. -/
def accessView (labelOf : Node → Label) (nodes : List Node) : Access → Answer × List Node
  | .push node => (.done, nodes ++ [node])
  | .remove node => (.removed (nodes.contains node), nodes.filter (· != node))
  | .invalidate => (.done, nodes)
  | .length => (.length (.primitive nodes.length (.joinAll (nodes.map labelOf))), nodes)
  | .item index => (.item (.primitive nodes[index]? (.joinAll ((nodes.take (index + 1)).map labelOf))), nodes)

namespace View

def empty : View := ⟨fun _ => .bottom, []⟩

def perform (v : View) : Operation → Answer × View
  | .relabel change => let (answer, labelOf) := relabelView v.labelOf change; (answer, { v with labelOf })
  | .create nodes => (.done, { v with lists := v.lists ++ [nodes] })
  | .access list access =>
    let (answer, lists) := accessAt (accessView v.labelOf · access) v.lists list; (answer, { v with lists })

def answers (v : View) : List Operation → List Answer
  | [] => []
  | op :: ops => (v.perform op).1 :: (v.perform op).2.answers ops

end View

def view (d : Document) : View := ⟨d.store.labelOf, d.lists.map (·.nodes)⟩

end Document

/-! ### The store -/

namespace NodeStore

/-- Does the operation set a label or take one away? -/
def changes (s : NodeStore) : Relabeling → Bool
  | .tag _ _ => true
  | .untag node => (s.labels.find? node).isSome
  | .assign c node hint => (c.assignNode s node hint).1.isOk
  | .upgrade c node => (c.upgradeNode s node).1.isOk

variable {s : NodeStore} {node : Node}

/-- An operation that answers with the label of its target stores the label that it answers with. -/
theorem labelOf_storeNode {answer : Except PolicyError Label × Labeled Node × Context}
    (h : ∀ label, answer.1 = .ok label → answer.2.1.label = label) :
    Document.relabelBy s.labelOf node answer.1 =
      (.labeled (Context.storeNode s node answer).1, (Context.storeNode s node answer).2.1.labelOf) := by
  obtain ⟨answer, target, c⟩ := answer
  cases answer with
  | error e => rfl
  | ok label =>
    have htarget : target.label = label := h label rfl
    subst htarget
    exact congrArg (Prod.mk _) (funext fun other => labelOf_tag.symm)

theorem labelOf_relabel (s : NodeStore) (change : Relabeling) :
    Document.relabelView s.labelOf change = ((s.relabel change).1, (s.relabel change).2.labelOf) := by
  cases change with
  | tag node label => exact congrArg (Prod.mk _) (funext fun other => labelOf_tag.symm)
  | untag node => exact congrArg (Prod.mk _) (funext fun other => labelOf_untag.symm)
  | assign c node hint => exact labelOf_storeNode fun label => Context.label_of_assign
  | upgrade c node => exact labelOf_storeNode fun label => Context.label_of_upgrade

theorem storeNode_cases (answer : Except PolicyError Label × Labeled Node × Context) :
    (Context.storeNode s node answer).1.isOk = false ∧ (Context.storeNode s node answer).2.1 = s ∨
      (Context.storeNode s node answer).1.isOk = true ∧
        (Context.storeNode s node answer).2.1.revision = s.revision + 1 := by
  obtain ⟨answer, target, c⟩ := answer
  cases answer with
  | error e => exact Or.inl ⟨rfl, rfl⟩
  | ok label => exact Or.inr ⟨rfl, rfl⟩

/-- The revision tells every change of a label. -/
theorem relabel_cases (s : NodeStore) (change : Relabeling) :
    s.changes change = false ∧ (s.relabel change).2 = s ∨
      s.changes change = true ∧ (s.relabel change).2.revision = s.revision + 1 := by
  cases change with
  | tag node label => exact Or.inr ⟨rfl, rfl⟩
  | untag node =>
    simp only [changes, relabel, untag]
    cases (s.labels.find? node).isSome with
    | false => exact Or.inl ⟨rfl, rfl⟩
    | true => exact Or.inr ⟨rfl, rfl⟩
  | assign c node hint => exact storeNode_cases (c.assign (Context.nodeTarget s node) hint)
  | upgrade c node => exact storeNode_cases (c.upgrade (Context.nodeTarget s node))

end NodeStore

/-! ### Fresh caches -/

namespace NodeCollection

/-- What is remembered is not from the future, and it holds now if it is of the store's present revision. -/
structure Fresh (s : NodeStore) (c : NodeCollection) : Prop where
  past : ∀ cache ∈ c.cache, cache.revision.toNat ≤ s.revision.toNat
  joins : ∀ cache ∈ c.cache, cache.revision = s.revision → cache.joins = c.computeJoins s

variable {s t : NodeStore} {c : NodeCollection}

theorem fresh_of_none (h : c.cache = none) : c.Fresh s := ⟨by simp [h], by simp [h]⟩

/-- A change of the store leaves no cache of its new revision behind. -/
theorem Fresh.changed (h : c.Fresh s) (hnext : t.revision.toNat = s.revision.toNat + 1) : c.Fresh t where
  past cache hcache := by
    have hpast := h.past cache hcache
    omega
  joins cache hcache heq := by
    have hpast := h.past cache hcache
    rw [heq] at hpast
    omega

theorem isCached_iff : c.isCached s = true ↔ ∃ cache, c.cache = some cache ∧ cache.revision = s.revision := by
  rw [isCached, Option.any_eq_true]
  exact exists_congr fun cache => and_congr_right fun _ => beq_iff_eq

theorem nodes_refresh (s : NodeStore) (c : NodeCollection) : (c.refresh s).nodes = c.nodes := by
  unfold refresh
  split <;> rfl

/-- After a refresh the joins that would be computed now are remembered. -/
theorem Fresh.refresh (h : c.Fresh s) :
    (c.refresh s).cache = some ⟨s.revision, c.computeJoins s⟩ ∧ (c.refresh s).Fresh s := by
  unfold NodeCollection.refresh
  split
  · rename_i hcached
    obtain ⟨cache, hcache, hrevision⟩ := isCached_iff.mp hcached
    have hjoins := h.joins cache hcache hrevision
    rw [hcache, ← hrevision, ← hjoins]
    exact ⟨rfl, h⟩
  · refine ⟨rfl, ⟨fun cache hcache => ?_, fun cache hcache _ => ?_⟩⟩
    · obtain rfl := Option.mem_some_iff.mp hcache
      exact Nat.le_refl _
    · obtain rfl := Option.mem_some_iff.mp hcache
      rfl

theorem Fresh.joins_eq (h : c.Fresh s) :
    (c.joins s).1 = c.computeJoins s ∧ (c.joins s).2.nodes = c.nodes ∧ (c.joins s).2.Fresh s := by
  obtain ⟨hcache, hfresh⟩ := h.refresh
  refine ⟨?_, nodes_refresh s c, hfresh⟩
  rw [NodeCollection.joins, hcache]
  rfl

theorem getLast?_computeJoins : ((c.computeJoins s).getLast?).getD .bottom = .joinAll (c.nodes.map s.labelOf) :=
  getLast?_runningJoins _ _

theorem getElem?_computeJoins (i : Nat) :
    ((c.computeJoins s)[i]?.or (c.computeJoins s).getLast?).getD .bottom =
      .joinAll ((c.nodes.take (i + 1)).map s.labelOf) := by
  by_cases hi : i < c.nodes.length
  · have helem : (c.computeJoins s)[i]? = some (.joinAll ((c.nodes.take (i + 1)).map s.labelOf)) := by
      rw [computeJoins, getElem?_runningJoins, List.getElem?_map, List.getElem?_eq_getElem hi, List.map_take]
      rfl
    rw [helem]
    rfl
  · have hnone : (c.computeJoins s)[i]? = none := by
      rw [computeJoins, getElem?_runningJoins, List.getElem?_map, List.getElem?_eq_none (Nat.not_lt.mp hi)]
      rfl
    rw [hnone, Option.none_or, getLast?_computeJoins, List.take_of_length_le (by omega)]

/-- An access to a list with a fresh cache answers as one that computes everything anew. -/
theorem Fresh.access (h : c.Fresh s) (access : Access) :
    Document.accessView s.labelOf c.nodes access = ((c.access s access).1, (c.access s access).2.nodes) ∧
      (c.access s access).2.Fresh s := by
  obtain ⟨hjoins, hnodes, hfresh⟩ := h.joins_eq
  cases access with
  | push node => exact ⟨rfl, fresh_of_none rfl⟩
  | remove node =>
    simp only [NodeCollection.access, remove, Document.accessView]
    split
    · rename_i hfound
      rw [hfound]
      exact ⟨rfl, fresh_of_none rfl⟩
    · rename_i hmissing
      have hkept : c.nodes.filter (· != node) = c.nodes := by
        refine List.filter_eq_self.mpr fun other hother => bne_iff_ne.mpr ?_
        rintro rfl
        exact hmissing (List.contains_iff_mem.mpr hother)
      rw [hkept, Bool.eq_false_iff.mpr hmissing]
      exact ⟨rfl, h⟩
  | invalidate => exact ⟨rfl, fresh_of_none rfl⟩
  | length =>
    refine ⟨?_, hfresh⟩
    simp only [NodeCollection.access, length, Document.accessView, hjoins, hnodes, getLast?_computeJoins]
  | item index =>
    refine ⟨?_, hfresh⟩
    simp only [NodeCollection.access, item, Document.accessView, hjoins, hnodes, getElem?_computeJoins]

end NodeCollection

/-! ### Runs -/

namespace Document

section AccessAt

variable {α β : Type} {act : α → Answer × α} {act' : β → Answer × β} {f : α → β} {P : α → Prop}
variable {l : List α} {i : Nat}

/-- An access goes along with a function under which it acts on the elements. -/
theorem accessAt_map (h : ∀ a ∈ l, act' (f a) = ((act a).1, f (act a).2)) :
    accessAt act' (l.map f) i = ((accessAt act l i).1, (accessAt act l i).2.map f) := by
  unfold accessAt
  rw [List.getElem?_map]
  cases hget : l[i]? with
  | none => rfl
  | some a =>
    simp only [Option.map_some, h a (List.mem_of_getElem? hget), List.map_set]

theorem forall_mem_accessAt (hl : ∀ a ∈ l, P a) (h : ∀ a, P a → P (act a).2) :
    ∀ a ∈ (accessAt act l i).2, P a := by
  unfold accessAt
  split
  · exact hl
  · rename_i a hget
    intro b hb
    rcases List.mem_or_eq_of_mem_set hb with hb | rfl
    · exact hl b hb
    · exact h a (hl a (List.mem_of_getElem? hget))

end AccessAt

/-- All lists have fresh caches. -/
def Fresh (d : Document) : Prop := ∀ c ∈ d.lists, c.Fresh d.store

/-- The number of labels that an operation changes. -/
def changes (d : Document) : Operation → Nat
  | .relabel change => (d.store.changes change).toNat
  | _ => 0

/-- The number of changes of labels in a run. -/
def totalChanges (d : Document) : List Operation → Nat
  | [] => 0
  | op :: ops => d.changes op + (d.perform op).2.totalChanges ops

variable {d : Document}

/-- The revision counts the changes until it overflows. -/
theorem revision_perform {op : Operation} (h : d.store.revision.toNat + d.changes op < UInt64.size) :
    (d.perform op).2.store.revision.toNat = d.store.revision.toNat + d.changes op := by
  cases op with
  | create | access => rfl
  | relabel change =>
    simp only [perform, changes] at h ⊢
    rcases d.store.relabel_cases change with ⟨hnone, hsame⟩ | ⟨hsome, hnext⟩
    · rw [hnone, hsame]
      rfl
    · rw [hsome] at h ⊢
      rw [hnext, UInt64.toNat_add]
      exact Nat.mod_eq_of_lt h

theorem Fresh.perform (hd : d.Fresh) {op : Operation} (h : d.store.revision.toNat + d.changes op < UInt64.size) :
    (d.perform op).2.Fresh := by
  have hrevision := revision_perform h
  cases op with
  | create nodes =>
    intro c hc
    rcases List.mem_append.mp hc with hc | hc
    · exact hd c hc
    · rw [List.mem_singleton.mp hc]
      exact NodeCollection.fresh_of_none rfl
  | access list access => exact forall_mem_accessAt hd fun c hc => (hc.access access).2
  | relabel change =>
    intro c hc
    rcases d.store.relabel_cases change with ⟨_, hsame⟩ | ⟨hsome, _⟩
    · exact (congrArg c.Fresh hsame).mpr (hd c hc)
    · simp only [changes, hsome] at hrevision
      exact (hd c hc).changed hrevision

/-- A document with fresh caches answers as its readers see it. -/
theorem Fresh.view_perform (hd : d.Fresh) (op : Operation) :
    d.view.perform op = ((d.perform op).1, (d.perform op).2.view) := by
  cases op with
  | relabel change =>
    simp only [View.perform, view, d.store.labelOf_relabel change, Document.perform]
  | create nodes =>
    simp only [View.perform, view, Document.perform, List.map_append]
    rfl
  | access list access =>
    have hact : ∀ c ∈ d.lists, accessView d.store.labelOf c.nodes access =
        ((c.access d.store access).1, (c.access d.store access).2.nodes) := fun c hc => ((hd c hc).access access).1
    have hmap : accessAt (accessView d.store.labelOf · access) (d.lists.map (·.nodes)) list = _ := accessAt_map hact
    simp only [View.perform, view, Document.perform, hmap]

theorem Fresh.view_answers (hd : d.Fresh) {ops : List Operation}
    (h : d.store.revision.toNat + d.totalChanges ops < UInt64.size) : d.answers ops = d.view.answers ops := by
  induction ops generalizing d with
  | nil => rfl
  | cons op ops ih =>
    rw [totalChanges] at h
    have hop : d.store.revision.toNat + d.changes op < UInt64.size := by omega
    have hrest : (d.perform op).2.store.revision.toNat + (d.perform op).2.totalChanges ops < UInt64.size := by
      rw [revision_perform hop]
      omega
    rw [answers, View.answers, hd.view_perform op, ih (hd.perform hop) hrest]

/-- Reads are never stale: with fewer changes of labels than the revision can count, all answers are those of the
document without caches. -/
theorem answers_eq_view (ops : List Operation) (h : empty.totalChanges ops < UInt64.size) :
    empty.answers ops = View.empty.answers ops := by
  have hfresh : empty.Fresh := List.forall_mem_nil _
  have hview : empty.view = View.empty := rfl
  rw [hfresh.view_answers (by simpa [empty, NodeStore.empty] using h), hview]

/-- A list is read before and after one of its nodes becomes secret, and once more after a refused upgrade. -/
def reading : List Operation :=
  [.create [⟨1⟩, ⟨2⟩], .access 0 .length, .relabel (.tag ⟨2⟩ .secret), .access 0 .length,
    .relabel (.upgrade (.ofConfig {}) ⟨1⟩), .access 0 (.item 0), .access 0 (.item 7)]

theorem answers_eq_view_reading :
    empty.totalChanges reading < UInt64.size ∧
      empty.answers reading =
        [.done, .length (.primitive 2 .bottom), .done, .length (.primitive 2 .secret),
          .labeled (.error .noRunningScript), .item (.primitive (some ⟨1⟩) .bottom),
          .item (.primitive none .secret)] :=
  ⟨by decide, (answers_eq_view reading (by decide)).trans rfl⟩

end Document
end InfoFlow
