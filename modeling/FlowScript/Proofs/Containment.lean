import FlowScript.Proofs.Session
import FlowScript.Proofs.Writing

/-!
# When a director breaks

A call takes the behavior of its node out and puts it back, whatever the call comes to, unless a
panic is let through. So a director under which no panic was ever let through has every behavior in
place between two ticks and does not break (`Untroubled`); one that is broken stays as it is
(`fault_session`).
-/

namespace FlowScript

variable {β : Type}

/-! ## Edits -/

/-- The names that an edit can write under. -/
def Edit.named : Edit β → List String
  | .setProperty _ name _ | .setLocalProperty _ name _ => [cellName, name]
  | _ => [cellName]

namespace Script

/-- An edit that writes is a series of writes. -/
theorem written_edit (script : Script β) {change : Edit β} (h : change.Writes) :
    Written (fun _ => True) change.named script (script.edit change) := by
  have hcell : ∀ name, cellName ∈ [cellName, name] := fun _ => List.mem_cons_self
  have hname : ∀ name, name ∈ [cellName, name] := fun _ =>
    List.mem_cons_of_mem _ List.mem_cons_self
  cases change with
  | setProperty id name value =>
    exact .setProperty (hcell name) (hname name) script (fun _ _ => trivial) value
  | setLinkValue ref slot value =>
    exact .setLinkValue List.mem_cons_self script (fun _ _ => trivial) slot value
  | setLocalProperty id name value =>
    exact .modifyNode script trivial fun n =>
      n.rewritten_setLocalProperty (hcell name) (hname name) value
  | setValue id value =>
    exact .modifyNode script trivial fun n => n.rewritten_setValue List.mem_cons_self value
  | activateOutput id index =>
    exact .modifyNode script trivial fun n => n.rewritten_activateOutput index
  | _ => exact h.elim

/-- What holds of the type and the behavior of every node is kept by an edit. -/
theorem behaviors_edit {P : TypeId → Option β → Prop} {script : Script β}
    (h : ∀ id node, script.node? id = some node → P node.type node.behavior) (change : Edit β)
    (places : change.Places fun builder => P builder.type (some builder.behavior)) :
    ∀ id node, (script.edit change).node? id = some node → P node.type node.behavior := by
  by_cases hw : change.Writes
  · intro id node' hn'
    have hwritten := script.written_edit hw
    obtain ⟨node, hn, hskeleton⟩ := node?_of_skeleton hwritten.skeleton hn'
    have hsame := hwritten.behavior id
    rw [behavior?, behavior?, hn', hn, Option.bind_some, Option.bind_some] at hsame
    have htype : node'.type = node.type := (congrArg Node.type hskeleton :)
    rw [hsame, htype]
    exact h id node hn
  rcases script.keeps_edit hw with hk | ⟨graph, builder, added, rfl, ha, heq⟩
  · intro id node' hn'
    obtain ⟨node, hn, hsame⟩ := hk id node' hn'
    have hbehavior : node'.behavior = node.behavior := (congrArg Node.behavior hsame :)
    have htype : node'.type = node.type := (congrArg Node.type hsame :)
    rw [hbehavior, htype]
    exact h id node hn
  · rw [heq]
    exact forall_addNode ha h fun _ => places

theorem Manned.edit {script : Script β} (h : script.Manned) (change : Edit β) :
    (script.edit change).Manned :=
  behaviors_edit (P := fun _ held => held.isSome = true) h change
    (by cases change <;> first | rfl | trivial)

theorem manned_of_build {definition : GraphDef} {registry : Registry β} {loaded : Loaded β}
    (h : definition.build registry = .ok loaded) : loaded.script.Manned :=
  Loaded.keeps_of_build (fun _ _ _ _ _ _ => trivial) (fun _ _ hn => by cases hn)
    (fun _ change _ _ hs => hs.edit change) h

end Script

/-- Why a tick ended early, if it did. -/
def Ending.halt? (ending : Ending β) : Option Halt :=
  match ending.1 with
  | .error halt => some halt
  | .ok _ => none

theorem Ending.eq_of_halt? {ending : Ending β} {halt : Halt} (h : ending.halt? = some halt) :
    ending.1 = .error halt := by
  obtain ⟨_ | _, after⟩ := ending
  · exact congrArg Except.error (Option.some.inj h)
  · cases h

section ticks

variable [Behavior β]

/-! ## One tick -/

/-- Where every behavior is in place, handling an activation does not break the director. It ends
the tick only by letting a panic through, and otherwise leaves every behavior in place. -/
theorem Moment.contained (m : Moment β) (hs : m.director.script.Manned) :
    (∀ reason, m.outcome.1 ≠ .faulted reason)
      ∧ (¬ m.outcome.1.IsHalt → m.outcome.2.script.Manned)
      ∧ ∀ text, m.outcome.1 = .unwound text → m.director.config.catchPanics = false
        ∧ ∃ call, m.call? = some call ∧ call.verdict = .error (.panicked text) := by
  rcases ht : m.target? with _ | node
  · rw [outcome_of_target?_none ht]
    exact ⟨nofun, fun _ => hs, nofun⟩
  obtain ⟨hn, -⟩ := target?_eq_some.1 ht
  obtain ⟨behavior, hb⟩ := Option.isSome_iff_exists.1 (hs _ node hn)
  have hsettles := settles ht hb
  refine ⟨hsettles.not_faulted, ?_⟩
  cases hsettles with
  | unwound text uncaught verdict fate =>
    rw [fate]
    refine ⟨fun h => absurd trivial h, fun text' h => ⟨uncaught, _, call?_of_behavior ht hb, ?_⟩⟩
    rw [verdict, Fate.unwound.inj h]
  | booked book kept back goes script =>
    refine ⟨fun _ => script ▸ Settles.manned hs kept back, fun text h => absurd ?_ goes⟩
    rw [h]
    trivial

namespace Drain

theorem Handles.unbroken {drain next : Drain β} {a : Activation} (h : drain.Handles a next) :
    next.director.fault = drain.director.fault ∧ next.director.config = drain.director.config := by
  cases h with
  | discarded target => exact ⟨rfl, rfl⟩
  | failed node call script error target made verdict fate => exact ⟨rfl, rfl⟩
  | completed node call script latent target made verdict after spent =>
    rw [schedule_director]
    exact ⟨rfl, rfl⟩

/-- The tick is under way with every behavior in place. -/
structure Sane (config : Config) (drain : Drain β) : Prop where
  manned : drain.director.script.Manned
  fault : drain.director.fault = none
  config : drain.director.config = config

variable {config : Config}

omit [Behavior β] in
theorem Sane.next? {drain rest : Drain β} {a : Activation} (h : drain.Sane config)
    (hn : drain.next? = some (a, rest)) : rest.Sane config := by
  obtain ⟨hd, -, -⟩ := next?_eq_some hn
  exact ⟨hd ▸ h.manned, hd ▸ h.fault, hd ▸ h.config⟩

theorem Sane.step {drain next : Drain β} (h : drain.Sane config) (hs : drain.step = .inl next) :
    next.Sane config := by
  rcases hn : drain.next? with _ | ⟨a, rest⟩
  · rcases step_of_next?_none hn with ⟨stack, -, hstep⟩ | ⟨-, -, hstep⟩ <;> rw [hstep] at hs <;>
      cases hs
    exact ⟨h.manned, h.fault, h.config⟩
  · have hrest := h.next? hn
    rw [step_of_next?_some hn] at hs
    obtain ⟨hfault, hconfig⟩ := (handles_of_handle hs).unbroken
    have hscript := rest.handle_script a
    rw [hs, Sum.elim_inl] at hscript
    refine ⟨?_, hfault.trans hrest.fault, hconfig.trans hrest.config⟩
    rw [hscript]
    exact ((rest.moment a).contained hrest.manned).2.1 (goes_of_handle hs)

/-- The last step either ends the tick well or lets a panic through. -/
theorem Sane.ends {drain : Drain β} (h : drain.Sane config) {ending : Ending β}
    (hs : drain.step = .inr ending) :
    (∃ report, ending = (.ok report,
        { drain.director with phase := .idle }.observe (.tickEnded report)))
      ∨ ∃ text a rest, ending.1 = .error (.unwound text) ∧ config.catchPanics = false
        ∧ drain.next? = some (a, rest)
        ∧ ∃ call, (rest.moment a).call? = some call ∧ call.verdict = .error (.panicked text) := by
  rcases hn : drain.next? with _ | ⟨a, rest⟩
  · rcases step_of_next?_none hn with ⟨stack, -, hstep⟩ | ⟨-, -, hstep⟩ <;> rw [hstep] at hs <;>
      cases hs
    exact .inl ⟨_, rfl⟩
  · have hrest := h.next? hn
    rw [step_of_next?_some hn] at hs
    obtain ⟨hfaulted, -, hunwound⟩ := (rest.moment a).contained hrest.manned
    rcases fate_of_handle hs with ⟨reason, hf⟩ | ⟨text, hf, he⟩
    · exact absurd hf (hfaulted reason)
    · obtain ⟨hcatch, call, hc, hv⟩ := hunwound text hf
      exact .inr ⟨text, a, rest, he, hrest.config ▸ hcatch, rfl, call, hc, hv⟩

/-- Where panics are caught a tick ends only when nothing waits. -/
theorem Sane.finishes {drain : Drain β} (h : drain.Sane config) (caught : config.catchPanics = true)
    {ending : Ending β} (hs : drain.step = .inr ending) :
    drain.stack = [] ∧ drain.wave = [] ∧ ending = drain.finish := by
  rcases hn : drain.next? with _ | ⟨a, rest⟩
  · rcases step_of_next?_none hn with ⟨stack, -, hstep⟩ | ⟨hstack, hwave, hstep⟩ <;>
      rw [hstep] at hs <;> cases hs
    exact ⟨hstack, hwave, rfl⟩
  · rcases h.ends hs with ⟨report, he⟩ | ⟨-, -, -, -, uncaught, -⟩
    · rw [step_of_next?_some hn] at hs
      obtain ⟨halt, hhalt⟩ := halt_of_handle hs
      rw [he] at hhalt
      cases hhalt
    · rw [caught] at uncaught
      cases uncaught

end Drain

/-! ## Runs -/

namespace Director

/-- What comes of fresh directors by moves and by ticks of which none let a panic through. A
director may take over the script of another. -/
inductive Untroubled : Director β → Prop where
  | fresh (name : String) (bridge : Bridge) :
      Untroubled { script := .withRootName name, bridge := bridge }
  | built {definition : GraphDef} {registry : Registry β} {loaded : Loaded β}
      (built : definition.build registry = .ok loaded) (bridge : Bridge) :
      Untroubled { script := loaded.script, bridge := bridge }
  | anew {director : Director β} (untroubled : Untroubled director) (bridge : Bridge) :
      Untroubled { script := director.script, bridge := bridge }
  | move {director : Director β} (untroubled : Untroubled director) (move : Move β) :
      Untroubled (director.move move)
  | tick {director after : Director β} (untroubled : Untroubled director) {fuel : Nat}
      {sim real : Float} {ending : Except Halt Report}
      (updated : director.update fuel sim real = some (ending, after))
      (calm : ∀ text, ending ≠ .error (.unwound text)) : Untroubled after

/-- The director waits for the next tick with every behavior in place. -/
structure Ready (director : Director β) : Prop where
  idle : director.phase = .idle
  sound : director.fault = none
  manned : director.script.Manned

omit [Behavior β] in
theorem move_phase (director : Director β) (move : Move β) :
    (director.move move).phase = director.phase ∧ (director.move move).fault = director.fault := by
  cases move with
  | enqueue activation =>
    obtain ⟨more, h⟩ := director.enqueue_injects activation
    rw [Director.move, h]
    exact ⟨rfl, rfl⟩
  | triggerInput graph node input =>
    obtain ⟨more, h⟩ := director.triggerInput_injects graph node input
    rw [Director.move, h]
    exact ⟨rfl, rfl⟩
  | _ => exact ⟨rfl, rfl⟩

namespace Ready

variable {director : Director β}

omit [Behavior β] in
theorem move (h : director.Ready) (move : Move β) : (director.move move).Ready := by
  obtain ⟨hphase, hfault⟩ := director.move_phase move
  refine ⟨hphase.trans h.idle, hfault.trans h.sound, ?_⟩
  rcases director.move_script move with heq | ⟨change, -, heq⟩ <;> rw [heq]
  · exact h.manned
  · exact h.manned.edit change

omit [Behavior β] in
theorem sane (h : director.Ready) (sim real : Float) :
    (director.begin sim real).Sane director.config :=
  ⟨h.manned, h.sound, rfl⟩

theorem history_not_faulted (h : director.Ready) (fuel : Nat) (sim real : Float) :
    ∀ m ∈ director.history fuel sim real, ∀ reason, m.outcome.1 ≠ .faulted reason := by
  intro m hm
  rw [history_of_fault h.sound] at hm
  obtain ⟨hhistory, -⟩ := Drain.invariant (fun _ _ hp => hp.step) fuel _ (h.sane sim real)
  obtain ⟨before, a, rest, hsane, hn, rfl⟩ := hhistory m hm
  exact ((rest.moment a).contained (hsane.next? hn).manned).1

/-- A tick leaves a director that is ready so, unless it lets a panic through. -/
theorem update (h : director.Ready) {fuel : Nat} {sim real : Float} {ending : Except Halt Report}
    {after : Director β} (hu : director.update fuel sim real = some (ending, after)) :
    (∃ report, ending = .ok report ∧ after.Ready)
      ∨ ∃ text, ending = .error (.unwound text) ∧ director.config.catchPanics = false
        ∧ ∃ m ∈ director.history fuel sim real, ∃ call, m.call? = some call
          ∧ call.verdict = .error (.panicked text) := by
  rw [history_of_fault h.sound]
  unfold Director.update at hu
  rw [h.sound] at hu
  obtain ⟨-, hrun⟩ := Drain.invariant (fun _ _ hp => hp.step) fuel _ (h.sane sim real)
  obtain ⟨last, hlast, hstep, hmem⟩ := hrun _ hu
  rcases hlast.ends hstep with ⟨report, he⟩ | ⟨text, a, rest, he, hcatch, hn, call, hc, hv⟩
  · obtain ⟨rfl, rfl⟩ := Prod.mk.inj he
    exact .inl ⟨report, rfl, rfl, hlast.fault, hlast.manned⟩
  · exact .inr ⟨text, he, hcatch, _, hmem a rest hn, call, hc, hv⟩

end Ready

theorem Untroubled.ready {director : Director β} (h : director.Untroubled) : director.Ready := by
  induction h with
  | fresh name bridge => exact ⟨rfl, rfl, fun _ _ hn => by cases hn⟩
  | built built bridge => exact ⟨rfl, rfl, Script.manned_of_build built⟩
  | anew untroubled bridge ih => exact ⟨rfl, rfl, ih.manned⟩
  | move untroubled move ih => exact ih.move move
  | tick untroubled updated calm ih =>
    rcases ih.update updated with ⟨report, -, hready⟩ | ⟨text, he, -⟩
    · exact hready
    · exact absurd he (calm text)

theorem update_of_fault {director : Director β} {reason : String}
    (h : director.fault = some reason) (fuel : Nat) (sim real : Float) :
    director.update fuel sim real = some (.error (.faulted reason), director) := by
  unfold update
  rw [h]

theorem fault_session {director later : Director β} {reason : String}
    (h : director.fault = some reason) {permits : Move β → Prop}
    (session : director.Session permits later) : later.fault = some reason := by
  induction session with
  | start => exact h
  | move move permitted session ih => exact (move_phase _ move).2.trans ih
  | tick session updated ih =>
    rw [update_of_fault ih] at updated
    obtain ⟨-, rfl⟩ := Prod.mk.inj (Option.some.inj updated)
    exact ih

/-- A director breaks only after a panic was let through, and then for good. As long as none was, it
waits for each tick with every behavior in place, no activation breaks it, and every tick that ends
has ended well or lets the first panic through. Once it is broken, every later tick is refused for
the same reason and changes nothing. -/
theorem faults_after_panics (director : Director β) :
    (director.Untroubled → director.Ready ∧ ∀ fuel sim real,
      (∀ m ∈ director.history fuel sim real, ∀ reason, m.outcome.1 ≠ .faulted reason)
        ∧ ∀ ending after, director.update fuel sim real = some (ending, after) →
          (∃ report, ending = .ok report ∧ after.Untroubled)
            ∨ ∃ text, ending = .error (.unwound text) ∧ director.config.catchPanics = false
              ∧ ∃ m ∈ director.history fuel sim real, ∃ call, m.call? = some call
                ∧ call.verdict = .error (.panicked text))
      ∧ ∀ reason, director.fault = some reason →
        ∀ later, director.Session (fun _ => True) later → later.fault = some reason
          ∧ ∀ fuel sim real,
            later.update fuel sim real = some (.error (.faulted reason), later) := by
  refine ⟨fun h => ⟨h.ready, fun fuel sim real => ?_⟩, fun reason h later session => ?_⟩
  · refine ⟨h.ready.history_not_faulted fuel sim real, fun ending after hu => ?_⟩
    rcases h.ready.update hu with ⟨report, he, -⟩ | hunwound
    · exact .inl ⟨report, he, h.tick hu (by rw [he]; nofun)⟩
    · exact .inr hunwound
  · have hfault := fault_session h session
    exact ⟨hfault, update_of_fault hfault⟩

omit [Behavior β]

/-- A node that panics whenever it is called. -/
def alarm : NodeBuilder Agent :=
  (NodeBuilder.action (coreType "Alarm")
    (.rules [{ steps := [⟨"panic", .panic (some "alarm"), false⟩] }] 0)) |>.input "In"

/-- The call of the alarm. -/
def ring : Move Agent := .enqueue { node := ⟨0⟩, input := some 0 }

/-- The host adds the alarm and calls it. -/
def alarmed : Director Agent :=
  [Move.edit (.addNode rootGraph alarm), ring].foldl move { script := .withRootName "root" }

/-- The alarm is contained if panics are caught. If they are not, it takes the behavior of its node
with it, and the next call of the node breaks the director. -/
theorem faults_after_alarm :
    (alarmed.Untroubled ∧ ∃ report after, alarmed.update 5 0 0 = some (.ok report, after)
      ∧ report.failed = 1 ∧ after.Untroubled)
    ∧ ∃ unwound broken,
      (alarmed.withConfig { catchPanics := false }).update 5 0 0
          = some (.error (.unwound (some "alarm")), unwound)
        ∧ (unwound.move ring).update 5 0 0
          = some (.error (.faulted "node:0 has no behavior"), broken)
        ∧ broken.fault = some "node:0 has no behavior"
        ∧ ∀ fuel sim real, (broken.move ring).update fuel sim real
          = some (.error (.faulted "node:0 has no behavior"), broken.move ring) := by
  have hu : alarmed.Untroubled :=
    .move (.move (.fresh "root" .silent) (.edit (.addNode rootGraph alarm))) ring
  have hfailed : (alarmed.update 5 0 0).map (fun ending => ending.1.toOption.map (·.failed))
      = some (some 1) := by
    decide +kernel
  have hfirst : ((alarmed.withConfig { catchPanics := false }).update 5 0 0).map Ending.halt?
      = some (some (.unwound (some "alarm"))) := by
    decide +kernel
  have hsecond : (((alarmed.withConfig { catchPanics := false }).update 5 0 0).bind
      fun ending => (ending.2.move ring).update 5 0 0).map
        (fun ending => (Ending.halt? ending, ending.2.fault))
        = some (some (.faulted "node:0 has no behavior"), some "node:0 has no behavior") := by
    decide +kernel
  constructor
  · rcases h : alarmed.update 5 0 0 with _ | ⟨ending, after⟩ <;> rw [h] at hfailed
    · cases hfailed
    obtain ⟨-, hticks⟩ := (faults_after_panics alarmed).1 hu
    rcases (hticks 5 0 0).2 ending after h with ⟨report, rfl, hafter⟩ | ⟨text, rfl, hcatch, -⟩
    · exact ⟨hu, report, after, rfl, Option.some.inj (Option.some.inj hfailed), hafter⟩
    · cases hcatch
  · obtain ⟨⟨ending, unwound⟩, hunwound, hhalt⟩ := Option.map_eq_some_iff.1 hfirst
    obtain rfl : ending = _ := Ending.eq_of_halt? hhalt
    rw [hunwound, Option.bind_some] at hsecond
    obtain ⟨⟨ending', broken⟩, hbroken, hparts⟩ := Option.map_eq_some_iff.1 hsecond
    obtain ⟨hhalt', hfault⟩ := Prod.mk.inj hparts
    obtain rfl : ending' = _ := Ending.eq_of_halt? hhalt'
    obtain ⟨-, hrefused⟩ := (faults_after_panics broken).2 _ hfault (broken.move ring)
      (.move ring trivial .start)
    exact ⟨unwound, broken, hunwound, hbroken, hfault, hrefused⟩

end Director

end ticks

end FlowScript
