import FlowScript.Proofs.Building
import FlowScript.Proofs.Containment
import FlowScript.Proofs.Iteration

/-!
# Outputs that nobody forces

A call that succeeds takes every pulse of its node, and one that fails leaves the pulses that were
there before. So as long as a host pulses no output itself, and lets no panic through, no output has
a pulse between two calls (`Script.Quiet.outcome`, `Director.Unforced.poised`).
-/

namespace FlowScript

variable {β : Type}

theorem NodeBuilder.Made.rested {builder : NodeBuilder β} (h : builder.Made) :
    ∀ link ∈ builder.outputs, link.active = 0 := by
  induction h with
  | action type behavior | event type behavior | value type initial behavior =>
    exact List.forall_mem_nil _
  | input name made ih | link link made ih | property name value made ih => exact ih
  | output name made ih =>
    refine List.forall_mem_append.2 ⟨ih, ?_⟩
    rw [List.forall_mem_singleton]
  | override h made ih =>
    rw [(links_of_override h).2]
    exact ih

/-- The edit pulses no output, and a node that it adds is described step by step. -/
def Edit.Unforced : Edit β → Prop
  | .addNode _ builder => builder.Made
  | .activateOutput _ _ => False
  | _ => True

/-- The move pulses no output and leaves panics caught. -/
def Move.Unforced : Move β → Prop
  | .edit change => change.Unforced
  | .configure config => config.catchPanics = true
  | _ => True

namespace Script

/-- No output has a pulse. -/
def Quiet (script : Script β) : Prop :=
  ∀ ref link, script.output? ref = some link → link.active = 0

variable {script after : Script β}

theorem quiet_iff : script.Quiet ↔ ∀ id node, script.node? id = some node →
    ∀ link ∈ node.outputs, link.active = 0 := by
  constructor
  · intro h id node hn link hl
    obtain ⟨index, hi⟩ := List.getElem?_of_mem hl
    exact h ⟨id, index⟩ link (by rw [output?, hn, Option.bind_some, hi])
  · intro h ref link hl
    obtain ⟨node, hn, hi⟩ := Option.bind_eq_some_iff.1 hl
    exact h ref.node node hn link (List.mem_of_getElem? hi)

namespace Quiet

/-! ## Edits -/

theorem withRootName (name : String) : (withRootName name : Script β).Quiet :=
  quiet_iff.2 fun _ _ hn => by cases hn

theorem of_outputs (h : script.Quiet)
    (same : ∀ id, (after.node? id).map (·.outputs) = (script.node? id).map (·.outputs)) :
    after.Quiet := by
  rw [quiet_iff] at h ⊢
  intro id node hn
  have houtputs := same id
  rw [hn, Option.map_some, eq_comm, Option.map_eq_some_iff] at houtputs
  obtain ⟨old, hold, heq⟩ := houtputs
  exact heq ▸ h id old hold

theorem of_keeps (h : script.Quiet) (hk : script.Keeps after) : after.Quiet := by
  rw [quiet_iff] at h ⊢
  intro id node hn link hl
  obtain ⟨old, hold, same⟩ := hk id node hn
  have houtputs : node.outputs.map OutputLink.clear = old.outputs.map OutputLink.clear :=
    (congrArg Node.outputs same :)
  have hclear := List.mem_map_of_mem (f := OutputLink.clear) hl
  rw [houtputs] at hclear
  obtain ⟨before, hb, heq⟩ := List.mem_map.1 hclear
  have hactive : before.active = link.active := (congrArg OutputLink.active heq :)
  rw [← hactive]
  exact h id old hold before hb

theorem addNode (h : script.Quiet) {graph : GraphId} {builder : NodeBuilder β} (made : builder.Made)
    {added : NodeId × Script β} (ha : script.addNode graph builder = .ok added) :
    added.2.Quiet := by
  rw [quiet_iff] at h ⊢
  exact forall_addNode ha h fun id => made.rested

theorem edit (h : script.Quiet) {change : Edit β} (unforced : change.Unforced) :
    (script.edit change).Quiet := by
  by_cases hw : change.Writes
  · cases change with
    | setProperty id name value => exact h.of_outputs (outputs_writes.setProperty _ id name value)
    | setLinkValue ref slot value =>
      exact h.of_outputs (outputs_writes.setLinkValue _ ref slot value)
    | setLocalProperty id name value =>
      exact h.of_outputs (outputs_writes.write _ id (.plain name value))
    | setValue id value => exact h.of_outputs (outputs_writes.write _ id (.cell value))
    | activateOutput id index => exact unforced.elim
    | _ => exact hw.elim
  · rcases script.keeps_edit hw with hk | ⟨graph, builder, added, rfl, hadded, heq⟩
    · exact h.of_keeps hk
    · rw [heq]
      exact h.addNode unforced hadded

theorem built {definition : GraphDef} {registry : Registry β} {loaded : Loaded β}
    (places : registry.Places NodeBuilder.Made) (built : definition.build registry = .ok loaded) :
    loaded.script.Quiet := by
  have made : ∀ nested ∈ definition.preorder, ∀ node ∈ nested.nodes, ∀ builder,
      registry.create node.type node.properties = .ok builder → builder.Made :=
    fun _ _ node _ builder hc => places node.type node.properties builder hc
  refine Loaded.keeps_of_build made (.withRootName _) (fun script change hw made hs => ?_) built
  refine hs.edit ?_
  cases change with
  | addNode graph builder => exact made
  | activateOutput id index => exact hw trivial
  | _ => trivial

/-! ## Calls -/

variable [Behavior β]

/-- Where panics are caught, handling an activation leaves no pulse. -/
theorem outcome {m : Moment β} (h : m.director.script.Quiet)
    (caught : m.director.config.catchPanics = true) : m.outcome.2.script.Quiet := by
  rcases ht : m.target? with _ | node
  · rw [Moment.outcome_of_target?_none ht]
    exact h
  rcases hb : node.behavior with _ | behavior
  · rw [Moment.outcome_of_behavior_none ht hb]
    exact h
  cases m.handled with
  | discarded target outcome =>
    rw [outcome]
    exact h
  | halted halt => exact absurd halt (Moment.goes_of_caught caught ht hb)
  | failed node' call script error target made verdict fate after =>
    rw [Moment.outcome_of_error ht hb made verdict fun _ _ => caught]
    intro ref link hl
    exact h ref link ((Moment.undone_pulses ht behavior ref).symm.trans hl)
  | completed node' call script latent target made verdict fate after spent =>
    rw [quiet_iff]
    intro id n hn link hl
    by_cases hid : id = m.activation.node
    · obtain ⟨called, hcalled, hspent⟩ := spent
      obtain rfl := Option.some.inj ((hid ▸ hn).symm.trans hcalled)
      exact hspent link hl
    · obtain ⟨old, hold, -⟩ := node?_of_skeleton m.spares.skeleton hn
      have hspared : ¬ Moment.Calls [m] id := by
        rintro ⟨called, hm, rfl, -⟩
        rw [List.mem_singleton.1 hm] at hid
        exact hid rfl
      obtain ⟨n', hn', hquiet⟩ := m.spares.spent hspared hold (quiet_iff.1 h id old hold)
      obtain rfl := Option.some.inj (hn.symm.trans hn')
      exact hquiet link hl

end Quiet

end Script

/-! ## Ticks -/

variable [Behavior β]

/-- The tick is under way with every behavior in place and no pulse at any output. -/
structure Drain.Hushed (config : Config) (drain : Drain β) : Prop where
  sane : drain.Sane config
  quiet : drain.director.script.Quiet

theorem Drain.Hushed.step {config : Config} (caught : config.catchPanics = true)
    {drain next : Drain β} (h : drain.Hushed config) (hs : drain.step = .inl next) :
    next.Hushed config := by
  refine ⟨h.sane.step hs, ?_⟩
  rcases hn : drain.next? with _ | ⟨a, rest⟩
  · rcases step_of_next?_none hn with ⟨stack, -, hstep⟩ | ⟨-, -, hstep⟩ <;> rw [hstep] at hs <;>
      cases hs
    exact h.quiet
  · obtain ⟨hd, -, -⟩ := next?_eq_some hn
    rw [step_of_next?_some hn] at hs
    have hscript := rest.handle_script a
    rw [hs, Sum.elim_inl] at hscript
    have hquiet : (rest.moment a).director.script.Quiet := (congrArg Director.script hd) ▸ h.quiet
    have hcaught : (rest.moment a).director.config.catchPanics = true := by
      rw [moment, hd, h.sane.config, caught]
    rw [hscript]
    exact hquiet.outcome hcaught

namespace Director

/-- What comes of fresh directors by moves of which none pulses an output or lets panics through,
and by ticks. A director may take over the script of another. -/
inductive Unforced : Director β → Prop where
  | fresh (name : String) (bridge : Bridge) :
      Unforced { script := .withRootName name, bridge := bridge }
  | built {definition : GraphDef} {registry : Registry β} {loaded : Loaded β}
      (places : registry.Places NodeBuilder.Made) (built : definition.build registry = .ok loaded)
      (bridge : Bridge) : Unforced { script := loaded.script, bridge := bridge }
  | anew {director : Director β} (unforced : Unforced director) (bridge : Bridge) :
      Unforced { script := director.script, bridge := bridge }
  | move {director : Director β} (unforced : Unforced director) (move : Move β)
      (permitted : move.Unforced) : Unforced (director.move move)
  | tick {director after : Director β} (unforced : Unforced director) {fuel : Nat}
      {sim real : Float} {ending : Except Halt Report}
      (updated : director.update fuel sim real = some (ending, after)) : Unforced after

/-- The director waits for the next tick with panics caught and no pulse at any output. -/
structure Poised (director : Director β) : Prop where
  ready : director.Ready
  caught : director.config.catchPanics = true
  quiet : director.script.Quiet

namespace Poised

variable {director : Director β} (h : director.Poised)

include h

omit [Behavior β] in
theorem move {move : Move β} (permitted : move.Unforced) : (director.move move).Poised := by
  refine ⟨h.ready.move move, ?_, ?_⟩
  · cases move with
    | configure config => exact permitted
    | enqueue activation =>
      obtain ⟨more, hm⟩ := director.enqueue_injects activation
      rw [Director.move, hm]
      exact h.caught
    | triggerInput graph node input =>
      obtain ⟨more, hm⟩ := director.triggerInput_injects graph node input
      rw [Director.move, hm]
      exact h.caught
    | _ => exact h.caught
  · rcases director.move_script move with heq | ⟨change, rfl, heq⟩ <;> rw [heq]
    · exact h.quiet
    · exact h.quiet.edit permitted

omit [Behavior β] in
theorem hushed (sim real : Float) : (director.begin sim real).Hushed director.config :=
  ⟨h.ready.sane sim real, h.quiet⟩

/-- A tick ends well and leaves no pulse at any output. -/
theorem update {fuel : Nat} {sim real : Float} {ending : Except Halt Report} {after : Director β}
    (hu : director.update fuel sim real = some (ending, after)) :
    (∃ report, ending = .ok report) ∧ after.Poised := by
  rcases h.ready.update hu with ⟨report, he, hready⟩ | ⟨-, -, uncaught, -⟩
  swap
  · rw [h.caught] at uncaught
    cases uncaught
  unfold Director.update at hu
  rw [h.ready.sound] at hu
  obtain ⟨-, hrun⟩ := Drain.invariant (fun _ _ hp => hp.step h.caught) fuel _ (h.hushed sim real)
  obtain ⟨last, hlast, hstep, -⟩ := hrun _ hu
  obtain ⟨-, -, hfinish⟩ := hlast.sane.finishes h.caught hstep
  obtain ⟨-, rfl⟩ := Prod.mk.inj hfinish
  refine ⟨⟨report, he⟩, hready, ?_, hlast.quiet⟩
  rw [← h.caught]
  exact congrArg Config.catchPanics hlast.sane.config

end Poised

theorem Unforced.poised {director : Director β} (h : director.Unforced) : director.Poised := by
  induction h with
  | fresh name bridge => exact ⟨(Untroubled.fresh name bridge).ready, rfl, .withRootName name⟩
  | built places built bridge =>
    exact ⟨(Untroubled.built built bridge).ready, rfl, .built places built⟩
  | anew unforced bridge ih => exact ⟨⟨rfl, rfl, ih.ready.manned⟩, rfl, ih.quiet⟩
  | move unforced move permitted ih => exact ih.move permitted
  | tick unforced updated ih => exact (ih.update updated).2

end Director

end FlowScript
