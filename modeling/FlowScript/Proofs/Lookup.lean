import FlowScript.Script.Control

/-!
# Looking up after an edit

Nodes and links are found by their ids and indices. Each lemma says what is found after one of the
primitive edits of a script: changing a node, changing a link, taking a node out, adding one.
-/

namespace FlowScript

variable {β : Type}

/-- Lists that a test cannot tell apart have their first hits at the same place. -/
theorem position?_congr {α γ : Type} {p : α → Bool} {q : γ → Bool} : ∀ {l : List α} {l' : List γ},
    l.map p = l'.map q → position? p l = position? q l'
  | [], [], _ => rfl
  | [], _ :: _, h => by simp at h
  | _ :: _, [], h => by simp at h
  | a :: l, c :: l', h => by
    simp only [List.map_cons, List.cons.injEq] at h
    rw [position?, position?, h.1, position?_congr h.2]

/-- Only the names of the elements count for what is found by name. -/
theorem position?_of_map_eq {α γ : Type} {name : α → String} {name' : γ → String} {l : List α}
    {l' : List γ} (h : l.map name = l'.map name') (wanted : String) :
    position? (name · == wanted) l = position? (name' · == wanted) l' := by
  refine position?_congr ?_
  have hsame := congrArg (List.map (· == wanted)) h
  rwa [List.map_map, List.map_map] at hsame

theorem position?_eq_none {α : Type} {p : α → Bool} : ∀ {l : List α},
    position? p l = none ↔ ∀ a ∈ l, p a = false
  | [] => by simp [position?]
  | a :: l => by
    rw [position?, List.forall_mem_cons]
    split
    · rename_i h
      simp [h]
    · rename_i h
      rw [Option.map_eq_none_iff, position?_eq_none]
      exact (and_iff_right (by simpa using h)).symm

/-- Where a name stands for one element, the element is found by it. -/
theorem position?_of_getElem? {α : Type} {name : α → String} : ∀ {l : List α} {index : Nat} {a : α},
    (l.map name).Nodup → l[index]? = some a → position? (name · == name a) l = some index
  | [], _, _, _, h => by simp at h
  | b :: l, 0, a, _, h => by
    obtain rfl := Option.some.inj h
    simp [position?]
  | b :: l, index + 1, a, hn, h => by
    rw [List.map_cons, List.nodup_cons] at hn
    rw [List.getElem?_cons_succ] at h
    have hne : name b ≠ name a := fun heq =>
      hn.1 (heq ▸ List.mem_map_of_mem (List.mem_of_getElem? h))
    rw [position?, if_neg (by simpa using hne), position?_of_getElem? hn.2 h, Option.map_some]

/-- Where the first hit is, the first hit is found. -/
theorem getElem?_position? {α : Type} {p : α → Bool} : ∀ {l : List α} {index : Nat},
    position? p l = some index → ∃ a, l[index]? = some a ∧ l.find? p = some a
  | [], _, h => by cases h
  | a :: l, index, h => by
    rw [position?] at h
    split at h <;> rename_i hp
    · obtain rfl := Option.some.inj h
      exact ⟨a, rfl, List.find?_cons_of_pos hp⟩
    · obtain ⟨rest, hrest, rfl⟩ := Option.map_eq_some_iff.1 h
      obtain ⟨b, hb, hfirst⟩ := getElem?_position? hrest
      exact ⟨b, hb, (List.find?_cons_of_neg hp).trans hfirst⟩

namespace Script

theorem id_of_node? {script : Script β} {id : NodeId} {node : Node β}
    (h : script.node? id = some node) : node.id = id := by
  simpa using List.find?_some h

theorem live_of_node? {script : Script β} {id : NodeId} {node : Node β}
    (h : script.node? id = some node) : id ∈ script.nodes.map (·.id) :=
  List.mem_map.2 ⟨node, List.mem_of_find?_eq_some h, id_of_node? h⟩

theorem node?_map {γ : Type} (script : Script β) {f : Node β → Node γ}
    (hf : ∀ n, (f n).id = n.id) (id : NodeId) :
    ({ script with nodes := script.nodes.map f } : Script γ).node? id =
      (script.node? id).map f := by
  unfold node?
  rw [List.find?_map]
  congr 2
  funext n
  rw [Function.comp, hf]

/-- Scripts whose nodes look alike have nodes that look alike under the same ids. -/
theorem node?_of_alike {γ : Type} {script script' : Script β} {f : Node β → Node γ}
    (hf : ∀ n, (f n).id = n.id) (h : script'.nodes.map f = script.nodes.map f) {id : NodeId}
    {node' : Node β} (hn : script'.node? id = some node') :
    ∃ node, script.node? id = some node ∧ f node' = f node := by
  have hfind : ∀ s : Script β,
      (s.nodes.map f).find? (·.id = id) = (s.node? id).map f := fun s => s.node?_map hf id
  have hsame := hfind script'
  rw [h, hfind, hn] at hsame
  obtain ⟨node, hnode, heq⟩ := Option.map_eq_some_iff.1 hsame
  exact ⟨node, hnode, heq.symm⟩

theorem node?_modifyNode (script : Script β) (f : Node β → Node β) (hf : ∀ n, (f n).id = n.id)
    (id id' : NodeId) : (script.modifyNode id f).node? id' =
      if id' = id then (script.node? id').map f else script.node? id' := by
  have hmap : (script.modifyNode id f).node? id' =
      (script.node? id').map fun n => if n.id = id then f n else n :=
    script.node?_map (fun n => by split <;> simp only [hf]) id'
  rw [hmap]
  rcases hn : script.node? id' with _ | n
  · rw [Option.map_none, Option.map_none, ite_self]
  · rw [Option.map_some, id_of_node? hn]
    split <;> rfl

theorem node?_modifyNode_self (script : Script β) (f : Node β → Node β)
    (hf : ∀ n, (f n).id = n.id) (id : NodeId) :
    (script.modifyNode id f).node? id = (script.node? id).map f := by
  rw [node?_modifyNode script f hf, if_pos rfl]

theorem forall_modifyNode {script : Script β} {id : NodeId} {f : Node β → Node β}
    (hf : ∀ n, (f n).id = n.id) {P : Node β → Prop}
    (h : ∀ id node, script.node? id = some node → P node)
    (hp : ∀ node, script.node? id = some node → P (f node)) :
    ∀ id' node, (script.modifyNode id f).node? id' = some node → P node := by
  intro id' node hn
  rw [node?_modifyNode script f hf] at hn
  split at hn
  · rename_i heq
    subst heq
    obtain ⟨old, ho, rfl⟩ := Option.map_eq_some_iff.1 hn
    exact hp old ho
  · exact h id' node hn

theorem node?_without (script : Script β) (id id' : NodeId) :
    ({ script with nodes := script.nodes.filter (·.id ≠ id) } : Script β).node? id' =
      if id' = id then none else script.node? id' := by
  simp only [node?]
  rw [List.find?_filter]
  split
  · rename_i h
    rw [List.find?_eq_none]
    simp [h]
  · rename_i h
    congr 1
    funext n
    by_cases hn : n.id = id' <;> simp [hn, h]

theorem node?_append (script : Script β) (added : Node β) (id : NodeId) :
    ({ script with nodes := script.nodes ++ [added] } : Script β).node? id =
      (script.node? id).or (if added.id = id then some added else none) := by
  simp only [node?, List.find?_append, List.find?_singleton, decide_eq_true_eq]

/-! ## Links -/

theorem input?_modifyInput (script : Script β) (ref ref' : InputRef) (f : InputLink → InputLink) :
    (script.modifyInput ref f).input? ref' =
      if ref' = ref then (script.input? ref').map f else script.input? ref' := by
  unfold modifyInput input?
  rw [node?_modifyNode script (·.modifyInput ref.index f) fun _ => rfl]
  obtain ⟨node, index⟩ := ref
  obtain ⟨node', index'⟩ := ref'
  rcases script.node? node' with _ | n
  · simp
  · by_cases hn : node' = node
    · by_cases hi : index' = index
      · simp [hn, hi, Node.modifyInput]
      · simp [hn, hi, Node.modifyInput, Ne.symm hi]
    · simp [hn]

theorem output?_modifyInput (script : Script β) (ref : InputRef) (f : InputLink → InputLink)
    (ref' : OutputRef) : (script.modifyInput ref f).output? ref' = script.output? ref' := by
  unfold modifyInput output?
  rw [node?_modifyNode script (·.modifyInput ref.index f) fun _ => rfl]
  split
  · rcases script.node? ref'.node with _ | n <;> rfl
  · rfl

theorem output?_modifyOutput (script : Script β) (ref ref' : OutputRef)
    (f : OutputLink → OutputLink) :
    (script.modifyOutput ref f).output? ref' =
      if ref' = ref then (script.output? ref').map f else script.output? ref' := by
  unfold modifyOutput output?
  rw [node?_modifyNode script (·.modifyOutput ref.index f) fun _ => rfl]
  obtain ⟨node, index⟩ := ref
  obtain ⟨node', index'⟩ := ref'
  rcases script.node? node' with _ | n
  · simp
  · by_cases hn : node' = node
    · by_cases hi : index' = index
      · simp [hn, hi, Node.modifyOutput]
      · simp [hn, hi, Node.modifyOutput, Ne.symm hi]
    · simp [hn]

theorem input?_modifyOutput (script : Script β) (ref : OutputRef) (f : OutputLink → OutputLink)
    (ref' : InputRef) : (script.modifyOutput ref f).input? ref' = script.input? ref' := by
  unfold modifyOutput input?
  rw [node?_modifyNode script (·.modifyOutput ref.index f) fun _ => rfl]
  split
  · rcases script.node? ref'.node with _ | n <;> rfl
  · rfl

end Script

end FlowScript
