import FlowScript.Proofs.Asks
import FlowScript.Proofs.Parts
import Mathlib.Data.List.Forall2

/-!
# What passing time decides

A view of the clock is a clock with less on it. If no behavior asks for what a view leaves out, then
directors that look the same through it go on to look the same: so does the handling of one
activation (`outcome_through`), a tick (`update_through`) and all that a host does from then on
(`follow_through`). Real time is left out for all standard behaviors, and simulated time as well
unless there is a delay.
-/

namespace FlowScript

variable {α β : Type}

/-- The clock without real time. -/
def Clock.simulated (clock : Clock) : Clock := { clock with realDelta := 0, realElapsed := 0 }

/-- The clock that only counts ticks. -/
def Clock.ticking (clock : Clock) : Clock := { tick := clock.tick }

section through

variable (view : Clock → Clock)

/-- The request is answered alike if the clock is looked at through the view. -/
def Request.Clear : Request → Prop
  | .tick => ∀ clock, (view clock).tick = clock.tick
  | .simDelta => ∀ clock, (view clock).simDelta = clock.simDelta
  | .realDelta => ∀ clock, (view clock).realDelta = clock.realDelta
  | _ => True

def Turn.through (turn : Turn β) : Turn β := { turn with clock := view turn.clock }

/-- The director as it looks through the view. -/
def Director.through (director : Director β) : Director β :=
  { director with clock := view director.clock }

def Moment.through (m : Moment β) : Moment β := { m with director := m.director.through view }

def Drain.through (drain : Drain β) : Drain β :=
  { drain with director := drain.director.through view }

theorem Turn.answer_through (turn : Turn β) {r : Request} (h : r.Clear view) :
    (turn.through view).answer r = ((turn.answer r).1, (turn.answer r).2.through view) := by
  cases r with
  | tick => exact congrArg (·, turn.through view) (h turn.clock)
  | simDelta => exact congrArg (·, turn.through view) (h turn.clock)
  | realDelta => exact congrArg (·, turn.through view) (h turn.clock)
  | pulse output =>
    have hnode : (turn.through view).node? = turn.node? := rfl
    simp only [answer, pulse, hnode]
    split <;> rfl
  | pushTargets output =>
    have hnode : (turn.through view).node? = turn.node? := rfl
    simp only [answer, pushTargets, hnode]
    split <;> rfl
  | _ => rfl

theorem Program.run_through {p : Program α} (h : p.Asks (Request.Clear view)) (turn : Turn β) :
    p.run (turn.through view) = ((p.run turn).1, (p.run turn).2.through view) := by
  induction p generalizing turn with
  | done a => rfl
  | ask r next ih =>
    rw [run, turn.answer_through view h.1, ih _ (h.2 _)]
    rfl

namespace Director

theorem settle_through (director : Director β) (turn : Turn β) (record : Record)
    (before : List Nat) (verdict : Verdict) (behavior : β) :
    (director.through view).settle (turn.through view) record before verdict behavior =
      (director.settle turn record before verdict behavior).map id (.through view) := by
  have withdrawn : ∀ error, (director.through view).withdraw record behavior before error =
      (director.withdraw record behavior before error).map id (.through view) := by
    intro error
    have hscript : (director.through view).script = director.script := rfl
    rw [withdraw, withdraw, hscript]
    split <;> rfl
  unfold settle
  split
  · have hscript : (director.through view).script = director.script := rfl
    have hactivation : (turn.through view).activation = turn.activation := rfl
    rw [complete, complete, hscript, hactivation]
    split <;> rfl
  · exact withdrawn _
  · have hconfig : (director.through view).config = director.config := rfl
    rw [hconfig]
    split
    · exact withdrawn _
    · rfl

theorem move_through (director : Director β) (move : Move β) :
    (director.move move).through view = (director.through view).move move := by
  have hscript : (director.through view).script = director.script := rfl
  cases move with
  | enqueue activation =>
    simp only [Director.move, enqueue, hscript]
    split <;> rfl
  | triggerInput graph node input =>
    simp only [Director.move, triggerInput, hscript]
    split
    · rfl
    split
    · rfl
    split <;> rfl
  | _ => rfl

end Director

end through

/-! ## Cues -/

/-- What a host does next. -/
inductive Cue (β : Type) where
  | move (move : Move β)
  | tick (sim real : Float)

namespace Cue

/-- The cue without real time. -/
def simulated : Cue β → Cue β
  | .move next => .move next
  | .tick sim _ => .tick sim 0

/-- The cue without deltas. -/
def ticking : Cue β → Cue β
  | .move next => .move next
  | .tick _ _ => .tick 0 0

/-- Whatever nodes the cue creates are of permitted descriptions. -/
def Places (placed : NodeBuilder β → Prop) : Cue β → Prop
  | .move next => next.Places placed
  | .tick _ _ => True

theorem places_of_all {placed : NodeBuilder β → Prop} (h : ∀ builder, placed builder)
    (cue : Cue β) : cue.Places placed := by
  rcases cue with (_ | _ | _ | _ | _ | change | _) | _ <;> try trivial
  cases change <;> first | trivial | exact h _

/-- The cues do the same to directors that look the same through the view. -/
def Alike (view : Clock → Clock) : Cue β → Cue β → Prop
  | .move next, .move next' => next = next'
  | .tick sim real, .tick sim' real' => ∀ clock clock', view clock = view clock' →
    view (clock.advance sim real) = view (clock'.advance sim' real')
  | _, _ => False

theorem alike_of_simulated {cue cue' : Cue β} (h : cue.simulated = cue'.simulated) :
    cue.Alike .simulated cue' := by
  cases cue with
  | move next =>
    cases cue' with
    | move next' => exact (Cue.move.inj h)
    | tick sim real => cases h
  | tick sim real =>
    cases cue' with
    | move next => cases h
    | tick sim' real' =>
      obtain ⟨rfl, -⟩ := Cue.tick.inj h
      intro clock clock' same
      simp only [Clock.simulated, Clock.mk.injEq] at same
      simp only [Clock.simulated, Clock.advance, same.1, same.2.2.2.1]

theorem alike_of_ticking {cue cue' : Cue β} (h : cue.ticking = cue'.ticking) :
    cue.Alike .ticking cue' := by
  cases cue with
  | move next =>
    cases cue' with
    | move next' => exact (Cue.move.inj h)
    | tick sim real => cases h
  | tick sim real =>
    cases cue' with
    | move next => cases h
    | tick sim' real' =>
      intro clock clock' same
      simp only [Clock.ticking, Clock.mk.injEq, and_true] at same
      simp only [Clock.ticking, Clock.advance, same]

end Cue

/-! ## Behaviors that do not look -/

/-- Every behavior in the script is of this kind. -/
def Script.Behaves (kind : β → Prop) (script : Script β) : Prop :=
  ∀ id behavior, script.behavior? id = some behavior → kind behavior

theorem Script.behaves_iff {kind : β → Prop} {script : Script β} :
    script.Behaves kind ↔ script.Plays fun _ => kind := by
  refine ⟨fun h id node hn behavior hb => h id behavior (Option.bind_eq_some_iff.2 ⟨node, hn, hb⟩),
    fun h id behavior hb => ?_⟩
  obtain ⟨node, hn, hb⟩ := Option.bind_eq_some_iff.1 hb
  exact h id node hn behavior hb

theorem Script.Behaves.edit {kind : β → Prop} {script : Script β} (h : script.Behaves kind)
    (change : Edit β) (places : change.Places fun builder => kind builder.behavior) :
    (script.edit change).Behaves kind :=
  behaves_iff.2 ((behaves_iff.1 h).edit change places)

variable [Behavior β]

/-- Behaviors of this kind cannot tell what a view of the clock leaves out, and stay of it. -/
structure Blind (view : Clock → Clock) (kind : β → Prop) : Prop where
  ticks : ∀ clock, (view clock).tick = clock.tick
  asks : ∀ behavior, kind behavior → ∀ input first,
    (Behavior.react behavior input first).Asks (Request.Clear view)
  stays : ∀ behavior, kind behavior → ∀ input first (turn : Turn β),
    kind ((Behavior.react behavior input first).run turn).1.2

namespace Blind

variable {view : Clock → Clock} {kind : β → Prop} (blind : Blind view kind)

include blind

theorem behaves (m : Moment β) (h : m.director.script.Behaves kind) :
    m.outcome.2.script.Behaves kind :=
  Script.behaves_iff.2 (Script.Plays.outcome (fun _ => blind.stays) m (Script.behaves_iff.1 h))

theorem outcome_through (m : Moment β) (h : m.director.script.Behaves kind) :
    (m.through view).outcome = m.outcome.map id (.through view) := by
  have htarget : (m.through view).target? = m.target? := rfl
  rcases ht : m.target? with _ | node
  · rw [Moment.outcome_of_target?_none ht, Moment.outcome_of_target?_none (htarget.trans ht)]
    rfl
  rcases hb : node.behavior with _ | behavior
  · rw [Moment.outcome_of_behavior_none ht hb,
      Moment.outcome_of_behavior_none (htarget.trans ht) hb]
    rfl
  obtain ⟨hn, -⟩ := Moment.target?_eq_some.1 ht
  have hkind : kind behavior := h m.activation.node behavior (by
    rw [Script.behavior?, hn, Option.bind_some, hb])
  have hanswered : (m.through view).answered node behavior =
      ((m.answered node behavior).1, (m.answered node behavior).2.through view) :=
    Program.run_through view (blind.asks behavior hkind m.activation.input m.activation.first)
      (m.director.turn m.activation node.graph)
  have hrecord : (m.through view).record node = m.record node := by
    rw [Moment.record, Moment.record, Record.mk.injEq]
    exact ⟨blind.ticks _, rfl, rfl, rfl, rfl, rfl, rfl⟩
  rw [Moment.outcome_of_behavior ht hb, Moment.outcome_of_behavior (htarget.trans ht) hb,
    hanswered, hrecord, ← Director.settle_through]
  rfl

theorem handle_through (drain : Drain β) (a : Activation)
    (h : drain.director.script.Behaves kind) : (drain.through view).handle a =
      (drain.handle a).map (.through view) (Prod.map id (.through view)) := by
  have houtcome := blind.outcome_through (drain.moment a) h
  have hmoment : (drain.through view).moment a = (drain.moment a).through view := rfl
  rw [Drain.handle_eq, Drain.handle_eq, hmoment, houtcome]
  generalize (drain.moment a).outcome = outcome
  obtain ⟨fate, director⟩ := outcome
  cases fate with
  | completed effects =>
    simp only [Prod.map_apply, Sum.map_inl, Drain.schedule_eq]
    rfl
  | _ => rfl

theorem step_through (drain : Drain β) (h : drain.director.script.Behaves kind) :
    (drain.through view).step =
      drain.step.map (.through view) (Prod.map id (.through view)) := by
  obtain ⟨director, report, wave, stack⟩ := drain
  rcases stack with _ | ⟨_ | ⟨a, frame⟩, stack⟩
  · rcases wave with _ | ⟨a, wave⟩
    · rfl
    · exact blind.handle_through ⟨director, report, wave, []⟩ a h
  · rfl
  · exact blind.handle_through ⟨director, report, wave, frame :: stack⟩ a h

theorem run_through : ∀ (fuel : Nat) (drain : Drain β), drain.director.script.Behaves kind →
    (drain.through view).run fuel = (drain.run fuel).map (Prod.map id (.through view))
  | 0, _, _ => rfl
  | fuel + 1, drain, h => by
    have hnext := Drain.keeps_step blind.behaves drain h
    rw [Drain.run, Drain.run, blind.step_through drain h]
    rcases hs : drain.step with next | ending <;> rw [hs] at hnext
    · exact run_through fuel next hnext
    · rfl

end Blind

/-! ## Hosts -/

namespace Director

/-- Follows the cues of a host and answers how the ticks ended; `none` when a tick takes more than
`fuel` steps. -/
def follow (fuel : Nat) :
    List (Cue β) → Director β → Option (List (Except Halt Report) × Director β)
  | [], director => some ([], director)
  | .move next :: cues, director => follow fuel cues (director.move next)
  | .tick sim real :: cues, director =>
    (director.update fuel sim real).bind fun ending =>
      (follow fuel cues ending.2).map (Prod.map (ending.1 :: ·) id)

end Director

namespace Blind

variable {view : Clock → Clock} {kind : β → Prop} (blind : Blind view kind)

include blind

theorem update_through {director director' : Director β} {fuel : Nat} {sim sim' real real' : Float}
    (same : director.through view = director'.through view) (h : director.script.Behaves kind)
    (alike : view (director.clock.advance sim real) = view (director'.clock.advance sim' real')) :
    (director.update fuel sim real).map (Prod.map id (Director.through view)) =
      (director'.update fuel sim' real').map (Prod.map id (Director.through view)) := by
  obtain ⟨script, config, clock, phase, fault, next, injected, bridge, trace, told, notes⟩ := director
  obtain ⟨script', config', clock', phase', fault', next', injected', bridge', trace', told',
    notes'⟩ := director'
  -- The directors differ in their clocks only.
  obtain ⟨rfl, rfl, hclock, rfl, rfl, rfl, rfl, rfl, rfl, rfl, rfl⟩ := Director.mk.inj same
  have htick : (clock.advance sim real).tick = (clock'.advance sim' real').tick := by
    rw [Clock.advance, Clock.advance, ← blind.ticks clock, hclock, blind.ticks]
  rcases fault with _ | reason
  · simp only [Director.update]
    rw [← blind.run_through fuel _ h, ← blind.run_through fuel _ h]
    simp only [Drain.through, Director.through, Director.begin, Director.observe, alike, htick]
  · exact congrArg some (Prod.ext rfl same)

theorem follow_through {fuel : Nat} {cues cues' : List (Cue β)}
    (h : List.Forall₂ (Cue.Alike view) cues cues')
    (places : ∀ cue ∈ cues, cue.Places fun builder => kind builder.behavior) :
    ∀ {director director' : Director β}, director.through view = director'.through view →
      director.script.Behaves kind →
      (director.follow fuel cues).map (Prod.map id (Director.through view)) =
        (director'.follow fuel cues').map (Prod.map id (Director.through view)) := by
  induction h with
  | nil => exact fun same _ => congrArg some (Prod.ext rfl same)
  | @cons cue cue' cues cues' alike rest ih =>
    rw [List.forall_mem_cons] at places
    intro director director' same hb
    rcases cue with next | ⟨sim, real⟩ <;> rcases cue' with next' | ⟨sim', real'⟩
    · obtain rfl : next = next' := alike
      refine ih places.2 ?_ ?_
      · rw [Director.move_through, same, ← Director.move_through]
      · rcases director.move_script next with heq | ⟨change, rfl, heq⟩
        · rwa [heq]
        · rw [heq]
          exact hb.edit change places.1
    · exact alike.elim
    · exact alike.elim
    have hclock : view director.clock = view director'.clock :=
      congrArg Director.clock same
    -- Either tick runs out of fuel only if the other one does.
    have hupdate : (director.update fuel sim real).map (Prod.map id (Director.through view)) =
        (director'.update fuel sim' real').map (Prod.map id (Director.through view)) :=
      blind.update_through same hb (alike _ _ hclock)
    rw [Director.follow, Director.follow]
    rcases hu : director.update fuel sim real with _ | ⟨ending, after⟩ <;>
      rcases hu' : director'.update fuel sim' real' with _ | ⟨ending', after'⟩ <;>
      rw [hu, hu'] at hupdate
    · rfl
    · cases hupdate
    · cases hupdate
    obtain ⟨hending, hafter⟩ := Prod.mk.inj (Option.some.inj hupdate)
    obtain rfl : ending = ending' := hending
    have hbehaves := (Director.keeps_update blind.behaves hb fuel sim real).1 _ _ hu
    have hrest := ih places.2 hafter hbehaves
    have hcomm : ∀ run : Option (List (Except Halt Report) × Director β),
        (run.map (Prod.map (ending :: ·) id)).map (Prod.map id (Director.through view)) =
          (run.map (Prod.map id (Director.through view))).map (Prod.map (ending :: ·) id) := by
      intro run
      rcases run with _ | run <;> rfl
    rw [Option.bind_some, Option.bind_some, hcomm, hcomm, hrest]

end Blind

/-! ## Standard behaviors -/

namespace Standard

/-- The behavior waits for time to pass. -/
def IsDelay : Standard → Prop
  | delay _ => True
  | _ => False

theorem isDelay_iff {behavior : Standard} : behavior.IsDelay ↔ behavior.blank = delay {} := by
  cases behavior <;> simp [IsDelay, blank]

/-- No standard behavior looks at real time. -/
theorem blind_simulated : Blind Clock.simulated fun _ : Standard => True where
  ticks _ := rfl
  asks behavior _ input first := (behavior.react_mayAsk input first).mono fun r hr => by
    cases r with
    | tick | simDelta => exact fun _ => rfl
    | realDelta => exact hr.elim
    | _ => trivial
  stays _ _ _ _ _ := trivial

/-- No standard behavior but a delay looks at simulated time. -/
theorem blind_ticking : Blind Clock.ticking fun behavior : Standard => ¬ behavior.IsDelay where
  ticks _ := rfl
  asks behavior hb input first := (behavior.react_mayAsk input first).mono fun r hr => by
    cases r with
    | tick => exact fun _ => rfl
    | simDelta => exact absurd (isDelay_iff.2 hr) hb
    | realDelta => exact hr.elim
    | _ => trivial
  stays behavior hb input first turn hdelay :=
    hb (isDelay_iff.2 ((behavior.react_blank input first turn).symm.trans (isDelay_iff.1 hdelay)))

end Standard

namespace Director

/-- Real time never influences a run. Two hosts that do the same with one director, but for the real
deltas, get the same answers, and the directors that they are left with differ in nothing but the
real time of their clocks. If there is no delay in the script and none is created, then the simulated
deltas do not matter either. -/
theorem follow_alike (director : Director Standard) (fuel : Nat) (cues cues' : List (Cue Standard)) :
    (cues.map Cue.simulated = cues'.map Cue.simulated →
      (director.follow fuel cues).map (Prod.map id (through .simulated)) =
        (director.follow fuel cues').map (Prod.map id (through .simulated)))
      ∧ (director.script.Behaves (¬ ·.IsDelay) →
        (∀ cue ∈ cues, cue.Places (¬ ·.behavior.IsDelay)) →
        cues.map Cue.ticking = cues'.map Cue.ticking →
          (director.follow fuel cues).map (Prod.map id (through .ticking)) =
            (director.follow fuel cues').map (Prod.map id (through .ticking))) := by
  have alike : ∀ {seen : Cue Standard → Cue Standard} {view : Clock → Clock},
      (∀ {cue cue'}, seen cue = seen cue' → cue.Alike view cue') → cues.map seen = cues'.map seen →
        List.Forall₂ (Cue.Alike view) cues cues' := by
    intro seen view hseen heq
    rw [← List.forall₂_eq_eq_eq, List.forall₂_map_left_iff, List.forall₂_map_right_iff] at heq
    exact heq.imp fun _ _ => hseen
  refine ⟨fun heq => ?_, fun hb places heq => ?_⟩
  · refine Standard.blind_simulated.follow_through (alike Cue.alike_of_simulated heq)
      (fun cue _ => cue.places_of_all fun _ => trivial) rfl fun _ _ _ => trivial
  · exact Standard.blind_ticking.follow_through (alike Cue.alike_of_ticking heq) places rfl hb

/-- A director whose script sends a message in the tick after its start. -/
def herald : Director Standard where
  script := List.foldl Script.edit (Script.withRootName "root")
    [.addNode rootGraph Standard.startNode, .addNode rootGraph Standard.sendMessageNode,
      .connect ⟨⟨0⟩, 0⟩ ⟨⟨1⟩, 0⟩]
  bridge := .recording {}

/-- A host that starts the script, creates a node and runs two ticks of the given lengths. -/
def heralding (sim real : Float) : List (Cue Standard) :=
  [.move .start, .tick sim real, .move (.edit (.addNode rootGraph Standard.branchNode)),
    .tick sim real]

/-- The message is sent in the second tick, whatever the deltas are. -/
theorem follow_alike_of_herald :
    (herald.follow 3 (heralding 1 0)).map (fun run =>
        (run.1.map (·.toOption.map (·.invoked)), run.2.bridge.log.messages.map (·.tick))) =
      some ([some 1, some 1], [2])
    ∧ (herald.follow 3 (heralding 1 0)).map (Prod.map id (through .simulated)) =
      (herald.follow 3 (heralding 1 5)).map (Prod.map id (through .simulated))
    ∧ (herald.follow 3 (heralding 1 0)).map (Prod.map id (through .ticking)) =
      (herald.follow 3 (heralding 2 5)).map (Prod.map id (through .ticking)) := by
  have hempty : (Script.withRootName "root").Behaves fun behavior : Standard => ¬ behavior.IsDelay :=
    fun _ _ hb => by cases hb
  have hnone : herald.script.Behaves (¬ ·.IsDelay) :=
    ((hempty.edit (.addNode rootGraph Standard.startNode) id).edit
      (.addNode rootGraph Standard.sendMessageNode) id).edit (.connect ⟨⟨0⟩, 0⟩ ⟨⟨1⟩, 0⟩) trivial
  have hplaces : ∀ cue ∈ heralding 1 0, cue.Places (¬ ·.behavior.IsDelay) := by
    simp only [heralding, List.forall_mem_cons]
    exact ⟨trivial, trivial, id, trivial, List.forall_mem_nil _⟩
  have hreal : (heralding 1 0).map Cue.simulated = (heralding 1 5).map Cue.simulated := by
    simp only [heralding, List.map_cons, List.map_nil, Cue.simulated]
  have hdeltas : (heralding 1 0).map Cue.ticking = (heralding 2 5).map Cue.ticking := by
    simp only [heralding, List.map_cons, List.map_nil, Cue.ticking]
  exact ⟨by decide +kernel, (follow_alike herald 3 (heralding 1 0) (heralding 1 5)).1 hreal,
    (follow_alike herald 3 (heralding 1 0) (heralding 2 5)).2 hnone hplaces hdeltas⟩

end Director

end FlowScript
