import FlowScript.Proofs.Recreation
import FlowScript.Ron.Definition

/-!
# Proper definitions

The authored values of a node are a map, in which no name occurs twice. Every definition that is
read from a script file is of this kind (`GraphDef.proper_of_parse?`).
-/

namespace FlowScript

open Ron

/-- The authored values of a node are a map: no name occurs twice. -/
def NodeDef.Proper (node : NodeDef) : Prop := (Keyed.keys node.properties).Nodup

/-- All authored values of the definition are maps. -/
def GraphDef.Proper (definition : GraphDef) : Prop :=
  ∀ graph ∈ definition.preorder, ∀ node ∈ graph.nodes, node.Proper

/-! ## Reading -/

/-- Whatever is read is as it has to be. -/
def Ron.Reading.Yields {α : Type} (read : Reading α) (P : α → Prop) : Prop :=
  ∀ place tree a, read place tree = some a → P a

namespace Ron

variable {α : Type} {read : Reading α} {P : α → Prop}

theorem Reading.Yields.getD? (h : read.Yields P) {default : α} (hd : P default) {fields : Fields}
    {name : String} {a : α} (ha : fields.getD? name default read = some a) : P a := by
  unfold Fields.getD? at ha
  rcases hl : fields.entries.lookup name with _ | tree <;> rw [hl] at ha
  · exact Option.some.inj ha ▸ hd
  · exact h _ tree a ha

theorem Reading.Yields.get? (h : read.Yields P) {fields : Fields} {name : String} {a : α}
    (ha : fields.get? name read = some a) : P a := by
  obtain ⟨tree, -, ha⟩ := Option.bind_eq_some_iff.1 ha
  exact h _ tree a ha

theorem Reading.Yields.list (h : read.Yields P) :
    (Reading.list read).Yields fun items => ∀ a ∈ items, P a := by
  have hmap : ∀ {inner : Place} (trees : List Tree) {items : List α},
      trees.mapM (read inner) = some items → ∀ a ∈ items, P a := by
    intro inner trees
    induction trees with
    | nil =>
      intro items ht a ha
      obtain rfl := Option.some.inj ht
      cases ha
    | cons tree trees ih =>
      intro items ht
      rw [List.mapM_cons] at ht
      obtain ⟨first, hf, ht⟩ := Option.bind_eq_some_iff.1 ht
      obtain ⟨rest, hr, ht⟩ := Option.bind_eq_some_iff.1 ht
      obtain rfl := Option.some.inj ht
      exact List.forall_mem_cons.2 ⟨h _ tree first hf, ih hr⟩
  intro place tree items ht
  unfold Reading.list at ht
  split at ht
  · obtain ⟨inner, -, ht⟩ := Option.bind_eq_some_iff.1 ht
    exact hmap _ ht
  · cases ht

end Ron

theorem Keyed.nodup_insertAll {κ α : Type} [DecidableEq κ] : ∀ (pairs : List (κ × α))
    {m : Keyed κ α}, (keys m).Nodup → (keys (insertAll m pairs)).Nodup
  | [], _, hn => hn
  | (_, v) :: pairs, _, hn => nodup_insertAll pairs (nodup_insert v hn)

theorem NodeDef.proper_of_ofTree? : NodeDef.ofTree?.Yields NodeDef.Proper := by
  intro place tree node h
  obtain ⟨fields, -, h⟩ := Option.bind_eq_some_iff.1 h
  obtain ⟨key, -, h⟩ := Option.bind_eq_some_iff.1 h
  obtain ⟨name, -, h⟩ := Option.bind_eq_some_iff.1 h
  obtain ⟨category, -, h⟩ := Option.bind_eq_some_iff.1 h
  obtain ⟨properties, hp, h⟩ := Option.bind_eq_some_iff.1 h
  obtain rfl := Option.some.inj h
  have hset : (Property.setOfTree? (Property.ofTree? Tree.maxDepth)).Yields fun properties =>
      (Keyed.keys properties).Nodup := by
    intro place tree set hs
    obtain ⟨pairs, -, rfl⟩ := Option.map_eq_some_iff.1 hs
    exact Keyed.nodup_insertAll pairs List.nodup_nil
  exact hset.getD? (show (Keyed.keys ([] : PropertySet)).Nodup from List.nodup_nil) hp

theorem GraphDef.proper_of_ofTree? : ∀ depth, (GraphDef.ofTree? depth).Yields GraphDef.Proper
  | 0, _, _, _, h => by cases h
  | depth + 1, place, tree, graph, h => by
    obtain ⟨fields, -, h⟩ := Option.bind_eq_some_iff.1 h
    obtain ⟨name, -, h⟩ := Option.bind_eq_some_iff.1 h
    obtain ⟨nodes, hn, h⟩ := Option.bind_eq_some_iff.1 h
    obtain ⟨links, -, h⟩ := Option.bind_eq_some_iff.1 h
    obtain ⟨bindings, -, h⟩ := Option.bind_eq_some_iff.1 h
    obtain ⟨subs, hs, h⟩ := Option.bind_eq_some_iff.1 h
    obtain rfl := Option.some.inj h
    have hnodes := NodeDef.proper_of_ofTree?.list.getD? (List.forall_mem_nil _) hn
    have hsubs := (proper_of_ofTree? depth).list.getD? (List.forall_mem_nil _) hs
    have hall : ∀ subs : List GraphDef, (∀ sub ∈ subs, sub.Proper) →
        ∀ nested ∈ preorderAll subs, ∀ node ∈ nested.nodes, node.Proper := by
      intro subs
      induction subs with
      | nil => exact fun _ => List.forall_mem_nil _
      | cons sub subs ih =>
        intro hp
        rw [List.forall_mem_cons] at hp
        rw [preorderAll]
        exact List.forall_mem_append.2 ⟨hp.1, ih hp.2⟩
    rw [Proper, preorder]
    exact List.forall_mem_cons.2 ⟨hnodes, hall subs hsubs⟩

/-- The definition in a script file is proper. -/
theorem GraphDef.proper_of_parse? {text : String} {definition : GraphDef}
    (h : GraphDef.parse? text = some definition) : definition.Proper := by
  obtain ⟨document, -, h⟩ := Option.bind_eq_some_iff.1 h
  obtain ⟨fields, -, h⟩ := Option.bind_eq_some_iff.1 h
  exact (proper_of_ofTree? _).get? h

end FlowScript
