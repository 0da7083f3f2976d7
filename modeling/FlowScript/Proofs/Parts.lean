import FlowScript.Proofs.Containment

/-!
# Nodes keep to their parts

A node is described with a behavior that goes with its type, and a call leaves a behavior that still
does. So it is in every script that a host can come by: no edit and no tick gives a node the part of
another (`Reachable.plays`).
-/

namespace FlowScript

variable {β : Type}

/-- No call takes a behavior out of the kind. -/
def Stays [Behavior β] (kind : β → Prop) : Prop :=
  ∀ behavior, kind behavior → ∀ input first (turn : Turn β),
    kind ((Behavior.react behavior input first).run turn).1.2

namespace Script

/-- The behavior of every node is of a kind that goes with the type of the node. -/
def Plays (kind : TypeId → β → Prop) (script : Script β) : Prop :=
  ∀ id node, script.node? id = some node →
    ∀ behavior, node.behavior = some behavior → kind node.type behavior

variable {kind : TypeId → β → Prop} {script : Script β}

theorem Plays.edit (h : script.Plays kind) (change : Edit β)
    (places : change.Places fun builder => kind builder.type builder.behavior) :
    (script.edit change).Plays kind := by
  refine behaviors_edit (P := fun type held => ∀ behavior, held = some behavior →
    kind type behavior) h change (places.mono fun builder hb behavior heq => ?_)
  obtain rfl := Option.some.inj heq
  exact hb

variable [Behavior β] (stays : ∀ type, Stays (kind type))

include stays

theorem Plays.outcome (m : Moment β) (h : m.director.script.Plays kind) :
    m.outcome.2.script.Plays kind := by
  intro id node' hn' behavior' hb
  obtain ⟨node, hn, hsame⟩ := node?_of_skeleton (skeleton_lasting.outcome m) hn'
  rw [show node'.type = node.type from (congrArg Node.type hsame :)]
  have hleft : m.outcome.2.script.behavior? id = some behavior' := by
    rw [behavior?, hn', Option.bind_some, hb]
  rcases m.behavior?_left hleft with hbefore | ⟨target, behavior, rfl, ht, howned, rfl⟩
  · rw [behavior?, hn, Option.bind_some] at hbefore
    exact h id node hn behavior' hbefore
  · obtain ⟨hfound, -⟩ := Moment.target?_eq_some.1 ht
    obtain rfl := Option.some.inj (hn.symm.trans hfound)
    exact stays _ _ (h _ node hn behavior howned) _ _ _

theorem Reachable.plays {placed : NodeBuilder β → Prop}
    (hp : ∀ builder, placed builder → kind builder.type builder.behavior)
    (h : script.Reachable placed) : script.Plays kind :=
  h.induction (fun _ _ _ hn => nomatch hn)
    (fun _ change places hs => hs.edit change (places.mono hp))
    fun _ _ _ _ _ _ hu hs => (Director.keeps_update (Plays.outcome stays) hs _ _ _).1 _ _ hu

end Script

end FlowScript
