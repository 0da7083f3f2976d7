import FlowScript.Proofs.Cells
import FlowScript.Proofs.Feeding
import FlowScript.Proofs.Placing

/-!
# Activations that outlive their node

Ids are handed out in increasing order, so that nothing is created under an id that was given away
(`Ages`). What a tick leaves waiting is for nodes that were alive in the tick, whether it was fired,
resumed or found by name (`Moment.live_of_carried`), and a host injects for nodes that are alive
(`live_of_injectedBy`). So an activation that waits while its node is removed meets no other node
later and is discarded (`Lifetime.stale_discarded`).
-/

namespace FlowScript

variable {α β : Type}

namespace Script

/-- Time has passed: the counters have not gone down, and nothing was created under an id that was
given away and is gone. -/
structure Ages (before after : Script β) : Prop where
  nextNode : before.nextNode ≤ after.nextNode
  nextGraph : before.nextGraph ≤ after.nextGraph
  gone (id : NodeId) : id.raw < before.nextNode → before.node? id = none → after.node? id = none

namespace Ages

variable {first second third : Script β}

theorem refl (script : Script β) : script.Ages script :=
  ⟨Nat.le_refl _, Nat.le_refl _, fun _ _ hn => hn⟩

theorem trans (h : first.Ages second) (h' : second.Ages third) : first.Ages third where
  nextNode := Nat.le_trans h.nextNode h'.nextNode
  nextGraph := Nat.le_trans h.nextGraph h'.nextGraph
  gone id hid hn := h'.gone id (Nat.lt_of_lt_of_le hid h.nextNode) (h.gone id hid hn)

theorem of_skeleton (h : second.skeleton = first.skeleton) : first.Ages second where
  nextNode := Nat.le_of_eq (congrArg Script.nextNode h :).symm
  nextGraph := Nat.le_of_eq (congrArg Script.nextGraph h :).symm
  gone id _ hn := by
    rcases hn' : second.node? id with _ | node'
    · rfl
    · obtain ⟨node, hnode, -⟩ := node?_of_skeleton h hn'
      rw [hn] at hnode
      cases hnode

theorem edit (script : Script β) (change : Edit β) : script.Ages (script.edit change) := by
  obtain ⟨hnode, hgraph⟩ := script.counters_edit change
  refine ⟨hnode, hgraph, fun id hid hn => ?_⟩
  rcases script.changes_edit change with hc | ⟨graph, builder, added, -, ha, heq⟩
  · rcases hn' : (script.edit change).node? id with _ | node'
    · rfl
    · obtain ⟨node, hold, -⟩ := hc id node' hn'
      rw [hn] at hold
      cases hold
  · obtain ⟨-, rfl⟩ := addNode_eq_ok ha
    have hnew : ⟨script.nextNode⟩ ≠ id := by
      rintro rfl
      exact Nat.lt_irrefl _ hid
    rw [heq, node?_withNode, hn, Option.none_or, if_neg hnew]

end Ages

theorem Arena.lt_of_live {script : Script β} (h : script.Arena) {id : NodeId}
    (hl : (script.node? id).isSome = true) : id.raw < script.nextNode := by
  obtain ⟨node, hn⟩ := Option.isSome_iff_exists.1 hl
  have hbelow := h.filed.below _ (node?_member hn)
  rwa [Node.member, id_of_node? hn] at hbelow

theorem live_of_skeleton {script script' : Script β} (h : script'.skeleton = script.skeleton)
    {id : NodeId} (hl : (script'.node? id).isSome = true) : (script.node? id).isSome = true := by
  obtain ⟨node', hn'⟩ := Option.isSome_iff_exists.1 hl
  obtain ⟨node, hn, -⟩ := node?_of_skeleton h hn'
  rw [hn, Option.isSome_some]

theorem live_of_feeds {script : Script β} (h : script.Paired) {a b : NodeId}
    (hf : script.Feeds a b) : (script.node? b).isSome = true := by
  obtain ⟨output, input, hc, rfl⟩ := hf
  obtain ⟨link, hl⟩ := Option.isSome_iff_exists.1 (h.resolves hc).2
  obtain ⟨node, hn, -⟩ := Option.bind_eq_some_iff.1 hl
  rw [hn, Option.isSome_some]

theorem live_of_nodesOfType {script : Script β} {type : TypeId} {node : Node β}
    (h : node ∈ script.nodesOfType type) : (script.node? node.id).isSome = true := by
  obtain ⟨id, -, hn⟩ := List.mem_filterMap.1 h
  rw [id_of_node? hn, hn, Option.isSome_some]

theorem live_of_eventsNamed {script : Script β} {name : String} {scope : Scope} {origin : GraphId}
    {id : NodeId} (h : id ∈ script.eventsNamed name scope origin) :
    (script.node? id).isSome = true := by
  obtain ⟨node, hn, rfl⟩ := List.mem_map.1 h
  exact live_of_nodesOfType (List.mem_filter.1 (List.mem_filter.1 hn).1).1

end Script

/-! ## What a tick leaves waiting -/

theorem Program.live_of_found (p : Program α) (turn : Turn β) :
    ∀ id ∈ p.found turn, (turn.script.node? id).isSome = true := by
  induction p generalizing turn with
  | done a => exact List.forall_mem_nil _
  | ask r next ih =>
    intro id hid
    rcases List.mem_append.1 hid with hid | hid
    · cases r with
      | signal event scope => exact Script.live_of_eventsNamed hid
      | _ => cases hid
    · exact Script.live_of_skeleton (turn.answer_skeleton r) (ih _ _ id hid)

theorem Director.queues_settle (director : Director β) (turn : Turn β) (record : Record)
    (before : List Nat) (verdict : Verdict) (behavior : β) :
    (director.settle turn record before verdict behavior).2.queued = director.queued := by
  have withdrawn (error : NodeError) :
      (director.withdraw record behavior before error).2.queued = director.queued := by
    rcases director.withdraw_cases record behavior before error with ⟨_, h⟩ | ⟨_, h⟩ <;>
      · rw [h]
        rfl
  unfold settle
  split
  · rename_i latent
    rcases director.complete_cases turn behavior latent with ⟨_, h⟩ | ⟨_, _, -, h, -⟩ <;>
      · rw [h]
        rfl
  · exact withdrawn _
  · split
    · exact withdrawn _
    · rfl

/-! ## What a host injects -/

namespace Director

theorem injectedBy_of_inject {director : Director β} {move : Move β} {more : List Activation}
    (h : director.move move = director.inject more) : director.injectedBy move = more := by
  rw [injectedBy, h, inject, List.drop_left]

/-- A host injects only for nodes that are alive. -/
theorem live_of_injectedBy (director : Director β) (move : Move β) :
    ∀ a ∈ director.injectedBy move, (director.script.node? a.node).isSome = true := by
  have started {events : List NodeId}
      (h : director.move move =
        director.inject (events.map fun id => { node := id, input := none }))
      (hl : ∀ id ∈ events, (director.script.node? id).isSome = true) :
      ∀ a ∈ director.injectedBy move, (director.script.node? a.node).isSome = true := by
    rw [injectedBy_of_inject h, List.forall_mem_map]
    exact hl
  have ofType (type : TypeId) : ∀ id ∈ ((director.script.nodesOfType type).filter
      (·.kind == .event)).map (·.id), (director.script.node? id).isSome = true := by
    rw [List.forall_mem_map]
    exact fun node hn => Script.live_of_nodesOfType (List.mem_filter.1 hn).1
  have requested {result : Except ScriptError (Director β)}
      (h : director.move move = director.unlessRefused result)
      (hl : ∀ next, result = .ok next → ∃ a, next = director.inject [a]
        ∧ (director.script.node? a.node).isSome = true) :
      ∀ a ∈ director.injectedBy move, (director.script.node? a.node).isSome = true := by
    rcases result with error | next
    · rw [injectedBy_of_inject (h.trans director.inject_nil.symm)]
      exact List.forall_mem_nil _
    · obtain ⟨a, rfl, hlive⟩ := hl next rfl
      rw [injectedBy_of_inject h, List.forall_mem_singleton]
      exact hlive
  cases move with
  | enqueue activation =>
    refine requested rfl fun next hn => ?_
    unfold enqueue at hn
    split at hn
    · rename_i hlive
      exact ⟨activation, (Except.ok.inj hn).symm, hlive⟩
    · cases hn
  | triggerInput graph node input =>
    refine requested rfl fun next hn => ?_
    unfold triggerInput at hn
    split at hn
    · cases hn
    split at hn
    · cases hn
    rename_i target htarget
    split at hn
    · cases hn
    · rename_i index _
      refine ⟨{ node := node, input := some index }, (Except.ok.inj hn).symm, ?_⟩
      rw [(Option.filter_eq_some_iff.1 htarget).1, Option.isSome_some]
  | triggerEvent name scope =>
    exact started rfl fun id hid => Script.live_of_eventsNamed hid
  | triggerType type => exact started rfl (ofType type)
  | start => exact started rfl (ofType startEventType)
  | edit change =>
    rw [injectedBy, move, List.drop_length]
    exact List.forall_mem_nil _
  | configure config =>
    rw [injectedBy, move, withConfig, List.drop_length]
    exact List.forall_mem_nil _

end Director

section ticks

variable [Behavior β]

namespace Moment

/-- No call touches the queues, however it ends. -/
theorem queued_outcome (m : Moment β) : m.outcome.2.queued = m.director.queued := by
  rcases ht : m.target? with _ | node
  · rw [outcome_of_target?_none ht]
  rcases hb : node.behavior with _ | behavior
  · rw [outcome_of_behavior_none ht hb]
    rfl
  · rw [outcome_of_behavior ht hb]
    exact Director.queues_settle _ _ _ _ _ _

theorem live_of_call? {m : Moment β} {call : Call β} (h : m.call? = some call) :
    (m.director.script.node? m.activation.node).isSome = true
      ∧ ∀ id ∈ call.found, (m.director.script.node? id).isSome = true := by
  obtain ⟨node, behavior, ht, hb, -, -⟩ := call?_eq_some h
  obtain rfl := Option.some.inj ((call?_of_behavior ht hb).symm.trans h)
  refine ⟨by rw [(target?_eq_some.1 ht).1, Option.isSome_some], fun id hid => ?_⟩
  exact Script.live_of_skeleton (m.turn_skeleton node) (Program.live_of_found _ _ id hid)

/-- What a call puts into the next wave is for nodes that are alive: the node itself, what its
outputs are connected to and the events that it found. -/
theorem live_of_carried {m : Moment β} (hp : m.director.script.Paired) :
    ∀ a ∈ m.carried, (m.director.script.node? a.node).isSome = true := by
  intro a ha
  unfold carried at ha
  split at ha
  · rename_i latent turn found hc
    obtain ⟨hnode, hfound⟩ := live_of_call? hc
    rcases List.mem_append.1 ha with ha | ha
    · rcases List.mem_append.1 ha with ha | ha
      · split at ha
        · rw [List.mem_singleton.1 ha]
          exact hnode
        · cases ha
      · split at ha
        · exact Script.live_of_feeds hp (fired_feeds hc a ha)
        · cases ha
    · obtain ⟨id, hid, rfl⟩ := List.mem_map.1 ha
      exact hfound id hid
  · cases ha

end Moment

namespace Drain

/-- What the tick has put into the queues is for nodes of the script that it began with. -/
structure Alive (origin : Script β) (drain : Drain β) : Prop where
  skeleton : drain.director.script.skeleton = origin.skeleton
  queued : ∀ a ∈ drain.director.queued, (origin.node? a.node).isSome = true

variable {origin : Script β}

theorem Handles.queued {drain next : Drain β} {a : Activation} (h : drain.Handles a next) :
    ∀ b ∈ next.director.queued, b ∈ drain.director.queued ∨ b ∈ (drain.moment a).carried := by
  intro b hb
  rw [Director.queued, h.nextWave, h.injected] at hb
  simp only [List.mem_append, Director.queued] at hb ⊢
  tauto

theorem Alive.step (hp : origin.Paired) {drain next : Drain β} (h : drain.Alive origin)
    (hs : drain.step = .inl next) : next.Alive origin := by
  rcases hn : drain.next? with _ | ⟨a, rest⟩
  · rcases step_of_next?_none hn with ⟨stack, -, hstep⟩ | ⟨-, -, hstep⟩ <;> rw [hstep] at hs <;>
      cases hs
    exact ⟨h.skeleton, h.queued⟩
  · obtain ⟨hdirector, -, -⟩ := next?_eq_some hn
    have hrest : rest.director.script.skeleton = origin.skeleton := hdirector ▸ h.skeleton
    rw [step_of_next?_some hn] at hs
    refine ⟨?_, fun b hb => ?_⟩
    · have hscript := rest.handle_script a
      rw [hs, Sum.elim_inl] at hscript
      rw [hscript]
      exact (Script.skeleton_lasting.outcome (rest.moment a)).trans hrest
    · rcases (handles_of_handle hs).queued b hb with hb | hb
      · exact h.queued b (hdirector ▸ hb)
      · exact Script.live_of_skeleton hrest
          ((rest.moment a).live_of_carried (hp.of_skeleton hrest) b hb)

omit [Behavior β] in
theorem queued_finish (drain : Drain β) : drain.finish.2.queued = drain.director.queued := rfl

/-- The step that ends a tick leaves the queues as they are. -/
theorem queued_of_step {drain : Drain β} {ending : Ending β} (h : drain.step = .inr ending) :
    ending.2.queued = drain.director.queued := by
  rcases hn : drain.next? with _ | ⟨a, rest⟩
  · rcases step_of_next?_none hn with ⟨stack, -, hstep⟩ | ⟨-, -, hstep⟩ <;> rw [hstep] at h <;>
      cases h
    exact drain.queued_finish
  · obtain ⟨hdirector, -, -⟩ := next?_eq_some hn
    have hqueued := (rest.moment a).queued_outcome
    rw [step_of_next?_some hn, handle_eq] at h
    rw [← hdirector]
    refine Eq.trans ?_ hqueued
    generalize (rest.moment a).outcome = outcome at h ⊢
    obtain ⟨_ | _ | _ | _ | _, director⟩ := outcome <;> cases h <;> rfl

end Drain

namespace Director

/-- The id of the node of every waiting activation was given away. -/
def Dated (director : Director β) : Prop :=
  ∀ a ∈ director.queued, a.node.raw < director.script.nextNode

/-- A tick, however it ends, leaves nothing waiting but what is for nodes that are alive in it. -/
theorem Dated.update {director after : Director β} (h : director.Dated)
    (ha : director.script.Arena) (hp : director.script.Paired) {fuel : Nat} {sim real : Float}
    {ending : Except Halt Report} (hu : director.update fuel sim real = some (ending, after)) :
    after.Dated := by
  have hskeleton := Script.skeleton_lasting.update hu
  unfold Director.update at hu
  split at hu
  · obtain ⟨-, rfl⟩ := Prod.mk.inj (Option.some.inj hu)
    exact h
  · obtain ⟨last, hlast, hstep, -⟩ := (Drain.invariant
      (P := Drain.Alive director.script) (fun _ _ hd hs => hd.step hp hs) fuel
      (director.begin sim real) ⟨rfl, List.forall_mem_nil _⟩).2 _ hu
    intro a hqueued
    have hafter := ha.of_skeleton hskeleton
    rw [Drain.queued_of_step hstep] at hqueued
    exact hafter.lt_of_live (Script.live_of_skeleton hskeleton.symm (hlast.queued a hqueued))

end Director

/-! ## Runs of a host -/

namespace Director

/-- The node that a move creates, if it creates one. -/
def issued (director : Director β) : Move β → Option NodeId
  | .edit (.addNode graph builder) => (director.script.addNode graph builder).toOption.map (·.1)
  | _ => none

/-- The graph that a move creates, if it creates one. -/
def opened (director : Director β) : Move β → Option GraphId
  | .edit (.addGraph parent name) => (director.script.addGraph parent name).toOption.map (·.1)
  | _ => none

/-- A run of a host: any moves and any ticks, however they end, with the ids that were given to new
nodes and to new graphs on the way, in order. -/
inductive Lifetime (placed : NodeBuilder β → Prop) (start : Director β) :
    List NodeId → List GraphId → Director β → Prop where
  | start : Lifetime placed start [] [] start
  | move {nodes : List NodeId} {graphs : List GraphId} {director : Director β} (move : Move β)
      (places : move.Places placed) (lived : Lifetime placed start nodes graphs director) :
      Lifetime placed start (nodes ++ (director.issued move).toList)
        (graphs ++ (director.opened move).toList) (director.move move)
  | tick {nodes : List NodeId} {graphs : List GraphId} {director after : Director β} {fuel : Nat}
      {sim real : Float} {ending : Except Halt Report}
      (lived : Lifetime placed start nodes graphs director)
      (updated : director.update fuel sim real = some (ending, after)) :
      Lifetime placed start nodes graphs after

/-- The director has nothing called for a node: in no tick is anything called for it, and a tick
that ends well has counted as discarded whatever waited for it. -/
structure Discards (director : Director β) (id : NodeId) : Prop where
  uncalled (fuel : Nat) (sim real : Float) : ∀ m ∈ director.history fuel sim real,
    m.activation.node = id → m.call? = none ∧ m.outcome = (.discarded, m.director)
  counted (fuel : Nat) (sim real : Float) (report : Report) (after : Director β) :
    director.update fuel sim real = some (.ok report, after) →
      (∀ a ∈ director.queued, a.node = id →
        ∃ m ∈ director.history fuel sim real, m.activation = a)
      ∧ director.queued.countP (·.node = id) ≤ report.discarded

end Director

end ticks

/-- Ids that were taken from a counter one after another while it went up from `low` to `high`. -/
structure Dealt {ι : Type} (raw : ι → Nat) (low high : Nat) (ids : List ι) : Prop where
  ordered : ids.Pairwise (raw · < raw ·)
  between : ∀ id ∈ ids, low ≤ raw id ∧ raw id < high

namespace Dealt

variable {ι : Type} {raw : ι → Nat} {low high high' : Nat} {ids : List ι}

theorem nil : Dealt raw low high [] := ⟨.nil, List.forall_mem_nil _⟩

theorem append {new : Option ι} (h : Dealt raw low high ids) (hl : low ≤ high) (hh : high ≤ high')
    (hn : ∀ id, new = some id → high ≤ raw id ∧ raw id < high') :
    Dealt raw low high' (ids ++ new.toList) := by
  constructor
  · refine List.pairwise_append.2 ⟨h.ordered, ?_, fun a ha b hb => ?_⟩
    · rcases new with _ | id
      · exact .nil
      · exact List.pairwise_singleton _ _
    · exact Nat.lt_of_lt_of_le (h.between a ha).2 (hn b (Option.mem_toList.1 hb)).1
  · intro id hid
    rcases List.mem_append.1 hid with hid | hid
    · have hold := h.between id hid
      exact ⟨hold.1, Nat.lt_of_lt_of_le hold.2 hh⟩
    · have hnew := hn id (Option.mem_toList.1 hid)
      exact ⟨Nat.le_trans hl hnew.1, hnew.2⟩

theorem mono (h : Dealt raw low high ids) (hh : high ≤ high') : Dealt raw low high' ids :=
  ⟨h.ordered, fun id hid => ⟨(h.between id hid).1, Nat.lt_of_lt_of_le (h.between id hid).2 hh⟩⟩

theorem nodup (h : Dealt raw low high ids) : ids.Nodup := by
  have hn : (ids.map id).Nodup := nodup_of_sorted raw h.ordered
  rwa [List.map_id] at hn

end Dealt

section ticks

variable [Behavior β]

namespace Director

omit [Behavior β] in
theorem issued_fresh {director : Director β} {move : Move β} {id : NodeId}
    (h : director.issued move = some id) : director.script.nextNode ≤ id.raw
      ∧ id.raw < (director.move move).script.nextNode := by
  unfold issued at h
  split at h
  · rename_i graph builder
    rcases ha : director.script.addNode graph builder with _ | added <;> rw [ha] at h
    · cases h
    have hscript : (director.move (.edit (.addNode graph builder))).script = added.2 := by
      rw [move, Script.edit, ha]
      rfl
    obtain ⟨-, rfl⟩ := Script.addNode_eq_ok ha
    obtain rfl := Option.some.inj h
    rw [hscript]
    exact ⟨Nat.le_refl _, Nat.lt_succ_self _⟩
  · cases h

omit [Behavior β] in
theorem opened_fresh {director : Director β} {move : Move β} {id : GraphId}
    (h : director.opened move = some id) : director.script.nextGraph ≤ id.raw
      ∧ id.raw < (director.move move).script.nextGraph := by
  unfold opened at h
  split at h
  · rename_i parent name
    rcases ha : director.script.addGraph parent name with _ | added <;> rw [ha] at h
    · cases h
    have hscript : (director.move (.edit (.addGraph parent name))).script = added.2 := by
      rw [move, Script.edit, ha]
      rfl
    obtain ⟨-, rfl⟩ := Script.addGraph_eq_ok.1 ha
    obtain rfl := Option.some.inj h
    rw [hscript]
    exact ⟨Nat.le_refl _, Nat.lt_succ_self _⟩
  · cases h

omit [Behavior β] in
theorem ages_move (director : Director β) (move : Move β) :
    director.script.Ages (director.move move).script := by
  rcases director.move_script move with h | ⟨change, -, h⟩ <;> rw [h]
  · exact .refl _
  · exact .edit _ change

namespace Lifetime

variable {placed : NodeBuilder β → Prop} {start director : Director β} {nodes : List NodeId}
  {graphs : List GraphId}

theorem session (h : start.Lifetime placed nodes graphs director) :
    start.Session (Move.Places placed) director := by
  induction h with
  | start => exact .start
  | move move places lived ih => exact .move move places ih
  | tick lived updated ih => exact .tick ih updated

theorem reachable (h : start.Lifetime placed nodes graphs director)
    (hs : start.script.Reachable placed) : director.script.Reachable placed :=
  h.session.reachable (fun _ hp => hp) hs

theorem ages (h : start.Lifetime placed nodes graphs director) :
    start.script.Ages director.script := by
  induction h with
  | start => exact .refl _
  | move move places lived ih => exact ih.trans (ages_move _ move)
  | tick lived updated ih => exact ih.trans (.of_skeleton (Script.skeleton_lasting.update updated))

/-- The ids that are given away go up. -/
theorem dealt (h : start.Lifetime placed nodes graphs director) :
    Dealt NodeId.raw start.script.nextNode director.script.nextNode nodes
      ∧ Dealt GraphId.raw start.script.nextGraph director.script.nextGraph graphs := by
  induction h with
  | start => exact ⟨.nil, .nil⟩
  | @move nodes graphs director move places lived ih =>
    have hage := director.ages_move move
    exact ⟨ih.1.append lived.ages.nextNode hage.nextNode fun _ => issued_fresh,
      ih.2.append lived.ages.nextGraph hage.nextGraph fun _ => opened_fresh⟩
  | @tick nodes graphs director after fuel sim real ending lived updated ih =>
    have hage := Script.Ages.of_skeleton (Script.skeleton_lasting.update updated)
    exact ⟨ih.1.mono hage.nextNode, ih.2.mono hage.nextGraph⟩

/-- Whatever waits at any time of a run waits for a node whose id was given away. -/
theorem dated (h : start.Lifetime NodeBuilder.Made nodes graphs director)
    (reachable : start.script.Reachable NodeBuilder.Made) (idle : start.queued = []) :
    director.Dated := by
  induction h with
  | start =>
    rw [Dated, idle]
    exact List.forall_mem_nil _
  | @move nodes graphs director move places lived ih =>
    have harena := (lived.reachable reachable).arena
    intro a ha
    rw [queued_move] at ha
    refine Nat.lt_of_lt_of_le ?_ (director.ages_move move).nextNode
    rcases List.mem_append.1 ha with ha | ha
    · exact ih a ha
    · exact harena.lt_of_live (director.live_of_injectedBy move a ha)
  | tick lived updated ih =>
    have hreachable := lived.reachable reachable
    exact ih.update hreachable.arena hreachable.paired updated

end Lifetime

/-- Nothing is called for a node that is gone. -/
theorem discards_of_gone {director : Director β} {id : NodeId}
    (h : director.script.node? id = none) : director.Discards id := by
  have htarget : ∀ fuel sim real, ∀ m ∈ director.history fuel sim real, m.activation.node = id →
      m.target? = none := by
    intro fuel sim real m hm hid
    have hskeleton := (keeps_update (P := fun s => s.skeleton = director.script.skeleton)
      (fun m hs => (Script.skeleton_lasting.outcome m).trans hs) rfl fuel sim real).2 m hm
    rcases hn : m.director.script.node? id with _ | node
    · rw [Moment.target?, hid, hn, Option.filter_none]
    · obtain ⟨old, hold, -⟩ := Script.node?_of_skeleton hskeleton hn
      rw [h] at hold
      cases hold
  refine ⟨fun fuel sim real m hm hid => ?_, fun fuel sim real report after hu => ?_⟩
  · have ht := htarget fuel sim real m hm hid
    exact ⟨by rw [Moment.call?, ht, Option.bind_none], Moment.outcome_of_target?_none ht⟩
  · let tick : Tick β := ⟨director, fuel, sim, real, report, after⟩
    have happened : tick.Happened := hu
    have hb := happened.balanced
    refine ⟨fun a ha _ => ?_, ?_⟩
    · exact List.mem_map.1 (hb.handled.mem_iff.2 (List.mem_append_left _ ha))
    · calc director.queued.countP (·.node = id)
          ≤ (director.queued ++ tick.entered).countP (·.node = id) := by
            rw [List.countP_append]
            exact Nat.le_add_right _ _
        _ = tick.handled.countP (·.node = id) := (hb.handled.countP_eq _).symm
        _ = (director.history fuel sim real).countP (·.activation.node = id) := List.countP_map
        _ ≤ (director.history fuel sim real).countP Moment.isDiscarded := by
            refine List.countP_mono_left fun m hm hid => ?_
            exact Moment.isDiscarded_iff.2 (htarget fuel sim real m hm (by simpa using hid))
        _ = report.discarded := hb.discarded.symm

/-- In a run of a host no id is given away twice, and whatever waits waits for a node whose id was
given away. So what waits for a node that is removed before the next tick waits for nothing that
will ever be there: its id is not among those given away since, it stays gone for the rest of the
run, and from then on whatever waits for it is discarded. -/
theorem Lifetime.stale_discarded {start director removed later : Director β}
    {nodes nodes' nodes'' : List NodeId} {graphs graphs' graphs'' : List GraphId}
    (reachable : start.script.Reachable NodeBuilder.Made) (idle : start.queued = [])
    (lived : start.Lifetime NodeBuilder.Made nodes graphs director)
    (between : director.Lifetime NodeBuilder.Made nodes' graphs' removed)
    (onward : removed.Lifetime NodeBuilder.Made nodes'' graphs'' later) :
    nodes.Nodup ∧ graphs.Nodup
      ∧ (∀ id ∈ nodes, start.script.node? id = none)
      ∧ (∀ id ∈ graphs, start.script.graph? id = none)
      ∧ (∀ a ∈ director.queued, a.node.raw < director.script.nextNode)
      ∧ ∀ a ∈ director.queued, a.node ∉ nodes' ++ nodes''
        ∧ (removed.script.node? a.node = none →
          later.script.node? a.node = none ∧ later.Discards a.node) := by
  obtain ⟨hnodes, hgraphs⟩ := lived.dealt
  have hdated := lived.dated reachable idle
  have harena := reachable.arena
  refine ⟨hnodes.nodup, hgraphs.nodup, fun id hid => ?_, fun id hid => ?_, hdated,
    fun a ha => ⟨fun hnew => ?_, ?_⟩⟩
  · rcases hn : start.script.node? id with _ | node
    · rfl
    · have hlt := harena.lt_of_live (by rw [hn, Option.isSome_some])
      exact absurd hlt (Nat.not_lt_of_le (hnodes.between id hid).1)
  · rcases hg : start.script.graph? id with _ | graph
    · rfl
    · exact absurd (harena.lt_of_graph? hg) (Nat.not_lt_of_le (hgraphs.between id hid).1)
  · -- What is given away after the director was there is not below its counter.
    have hbelow := hdated a ha
    rcases List.mem_append.1 hnew with hnew | hnew
    · exact absurd hbelow (Nat.not_lt_of_le (between.dealt.1.between _ hnew).1)
    · exact absurd hbelow (Nat.not_lt_of_le
        (Nat.le_trans between.ages.nextNode (onward.dealt.1.between _ hnew).1))
  · intro hgone
    have hlater := onward.ages.gone a.node
      (Nat.lt_of_lt_of_le (hdated a ha) between.ages.nextNode) hgone
    exact ⟨hlater, discards_of_gone hlater⟩

/-- A host adds a relay and calls it. -/
def beckoned : Director Agent :=
  [Move.edit (.addNode rootGraph Script.relayNode),
    .enqueue { node := ⟨0⟩, input := some 0 }].foldl move { script := .withRootName "root" }

/-- The relay is removed, and another one is added in its place. -/
def replaced : Director Agent :=
  (beckoned.move (.edit (.removeNode ⟨0⟩))).move (.edit (.addNode rootGraph Script.relayNode))

/-- The other relay gets an id of its own, and the call of the first one is discarded. -/
theorem Lifetime.stale_discarded_of_beckoned :
    beckoned.queued = [{ node := ⟨0⟩, input := some 0 }] ∧ replaced.Discards ⟨0⟩
      ∧ (replaced.script.nodes.map (·.id)) = [⟨1⟩]
      ∧ ∃ report after, replaced.update 2 0 0 = some (.ok report, after)
        ∧ report.discarded = 1 ∧ report.invoked = 0 := by
  have relay : Script.relayNode.Made := .output "Out" (.input "In" (.action _ _))
  have lived : Lifetime NodeBuilder.Made { script := .withRootName "root" } [⟨0⟩] [] beckoned :=
    .move (.enqueue { node := ⟨0⟩, input := some 0 }) trivial
      (.move (.edit (.addNode rootGraph Script.relayNode)) relay .start)
  have between : beckoned.Lifetime NodeBuilder.Made [] []
      (beckoned.move (.edit (.removeNode ⟨0⟩))) :=
    .move (.edit (.removeNode ⟨0⟩)) trivial .start
  have onward : (beckoned.move (.edit (.removeNode ⟨0⟩))).Lifetime NodeBuilder.Made [⟨1⟩] []
      replaced :=
    .move (.edit (.addNode rootGraph Script.relayNode)) relay .start
  have hqueued : beckoned.queued = [{ node := ⟨0⟩, input := some 0 }] := by decide +kernel
  obtain ⟨-, -, -, -, -, hstale⟩ := stale_discarded (.fresh "root") rfl lived between onward
  have ha : { node := ⟨0⟩, input := some 0 } ∈ beckoned.queued := by
    rw [hqueued]
    exact List.mem_cons_self
  have hgone : ((beckoned.move (.edit (.removeNode ⟨0⟩))).script.node? ⟨0⟩).isNone = true := by
    decide +kernel
  have hc : (replaced.update 2 0 0).map (fun ending => ending.1.toOption.map fun report =>
      (report.discarded, report.invoked)) = some (some (1, 0)) := by
    decide +kernel
  refine ⟨hqueued, ((hstale _ ha).2 (Option.isNone_iff_eq_none.1 hgone)).2, by decide +kernel, ?_⟩
  rcases h : replaced.update 2 0 0 with _ | ⟨_ | report, after⟩ <;> rw [h] at hc
  · simp at hc
  · simp [Except.toOption] at hc
  · have hcount : report.discarded = 1 ∧ report.invoked = 0 := by
      simpa [Except.toOption] using hc
    exact ⟨report, after, rfl, hcount⟩

end Director

end ticks

end FlowScript
