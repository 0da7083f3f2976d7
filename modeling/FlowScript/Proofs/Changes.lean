import FlowScript.Proofs.Session
import FlowScript.Proofs.WellTyped
import Mathlib.Logic.Relation

/-!
# What can happen to a node

Between its creation and its removal a node goes through changes of a few kinds (`Node.Change`),
whatever the host edits and the behaviors write. So what each kind of change keeps of a node, every
edit but the creation of nodes keeps (`changes_edit`), and every tick (`changes_lasting`).
-/

namespace FlowScript

variable {β : Type}

/-- One change of a node that is in a script. -/
inductive Node.Change (node : Node β) : Node β → Prop where
  /-- Connections and bindings are made and taken off. -/
  | linked {node' : Node β} (same : node'.cleared = node.cleared) : Change node node'
  /-- The default of a value link is replaced. -/
  | default (index : Nat) (value : Property) :
      Change node (node.modifyLink index ({ · with default := value }))
  | cell (value : Property) : Change node (node.setValue value).2
  | written (name : String) (value : Property) : Change node (node.setLocalProperty name value).2
  /-- Pulses come and go, and the behavior is taken out and put back. -/
  | booked {node' : Node β} (booked : node.Booked node') : Change node node'

/-- Any number of changes one after another. -/
abbrev Node.Changes : Node β → Node β → Prop := Relation.ReflTransGen Node.Change

theorem Node.booked_activateOutput (node : Node β) (index : Nat) :
    node.Booked (node.activateOutput index).2 := by
  unfold activateOutput
  split
  · exact ⟨node.behavior, _, rfl,
      map_modify OutputLink.skeleton (f := .activate) (fun _ => rfl) node.outputs index⟩
  · exact ⟨node.behavior, node.outputs, rfl, rfl⟩

namespace Script

/-- Every node that is left has gone through changes only. -/
def Changes (before after : Script β) : Prop :=
  ∀ id node', after.node? id = some node' →
    ∃ node, before.node? id = some node ∧ node.Changes node'

namespace Changes

variable {first second third : Script β}

theorem refl (script : Script β) : script.Changes script := fun _ node hn => ⟨node, hn, .refl⟩

theorem trans (h : first.Changes second) (h' : second.Changes third) : first.Changes third := by
  intro id node' hn'
  obtain ⟨between, hb, hlater⟩ := h' id node' hn'
  obtain ⟨node, hn, hearlier⟩ := h id between hb
  exact ⟨node, hn, hearlier.trans hlater⟩

theorem of_keeps (h : first.Keeps second) : first.Changes second := by
  intro id node' hn'
  obtain ⟨node, hn, same⟩ := h id node' hn'
  exact ⟨node, hn, .single (.linked same)⟩

theorem modifyNode (script : Script β) (id : NodeId) {f : Node β → Node β}
    (hid : ∀ n, (f n).id = n.id) (hf : ∀ n : Node β, n.Change (f n)) :
    script.Changes (script.modifyNode id f) := by
  intro id' node' hn'
  rw [node?_modifyNode script f hid] at hn'
  split at hn'
  · obtain ⟨node, hn, rfl⟩ := Option.map_eq_some_iff.1 hn'
    exact ⟨node, hn, .single (hf node)⟩
  · exact ⟨node', hn', .refl⟩

theorem writes : AcrossWrites fun before after : Script β => before.Changes after where
  refl script := .refl script
  trans h h' := h.trans h'
  write script id _ hf := .modifyNode script id hf.id fun n => by
    cases hf with
    | cell value => exact .cell value
    | plain name value => exact .written name value
    | default index value => exact .default index value

end Changes

/-- An edit changes the nodes that it leaves, or creates one besides them. -/
theorem changes_edit (script : Script β) (change : Edit β) :
    script.Changes (script.edit change) ∨ ∃ graph builder added, change = .addNode graph builder
      ∧ script.addNode graph builder = .ok added ∧ script.edit change = added.2 := by
  by_cases hw : change.Writes
  · refine .inl ?_
    cases change with
    | setProperty id name value => exact Changes.writes.setProperty script id name value
    | setLinkValue ref slot value => exact Changes.writes.setLinkValue script ref slot value
    | setLocalProperty id name value => exact Changes.writes.write script id (.plain name value)
    | setValue id value => exact Changes.writes.write script id (.cell value)
    | activateOutput id index =>
      exact .modifyNode script id (fun n => (n.booked_activateOutput index).id)
        fun n => .booked (n.booked_activateOutput index)
    | _ => exact hw.elim
  · exact (script.keeps_edit hw).imp_left .of_keeps

theorem changes_lasting : Lasting fun before after : Script β => before.Changes after where
  refl script := .refl script
  trans h h' := h.trans h'
  book script id f hf := .modifyNode script id (fun n => (hf n).id) fun n => .booked (hf n)
  answer turn r := by
    cases r with
    | pulse output =>
      simp only [Turn.answer, Turn.pulse]
      split
      · exact .refl _
      · exact .modifyNode _ _ (fun n => (n.booked_activateOutput output).id)
          fun n => .booked (n.booked_activateOutput output)
    | setProperty name value => exact Changes.writes.setProperty _ _ name value
    | setSlot link index value =>
      simp only [Turn.answer, Turn.edit]
      rcases turn.link? link with _ | ref
      · exact .refl _
      · exact Changes.writes.setLinkValue _ ref index value
    | pushTargets output =>
      simp only [Turn.answer, Turn.pushTargets]
      split <;> exact .refl _
    | _ => exact .refl _

end Script

end FlowScript
