import FlowScript.Proofs.Countdown
import FlowScript.Proofs.Laps
import FlowScript.Proofs.Safety
import FlowScript.Proofs.Switching

/-!
# Counting past the largest integer

A call of a standard behavior panics if it has to count past the largest integer, and for no other
reason (`Moment.panics_iff`). A loop whose end is the largest integer always comes to that, so it
never fires `Finished`; every other loop does.
-/

namespace FlowScript

variable {α β γ σ : Type}

/-! ## Acts that do not panic -/

namespace Act

/-- However the act is answered, it does not panic. -/
def Calm (β : Type) (act : Act σ α) : Prop :=
  ∀ s, act.Ensures (fun _ : Turn β => True) s (fun _ _ => True) fun stop =>
    ∀ text, stop ≠ .panicked text

theorem Runs.self (act : Act σ α) (s : σ) (turn : Turn β) : act.Runs s turn (act.result s turn).1.1
    (act.result s turn).1.2 (act.result s turn).2 ((act.run.run s).pulsed turn) :=
  ⟨rfl, rfl⟩

theorem Still.calm {act : Act σ α} (h : act.Still β) : act.Calm β := by
  refine fun s => Program.Ensures.imp (h s) fun ended hended => ?_
  obtain ⟨stop | a, s'⟩ := ended
  · exact fun text heq => hended.2 text (congrArg Except.error heq)
  · trivial

namespace Calm

theorem bind {act : Act σ α} {f : α → Act σ γ} (h : act.Calm β) (hf : ∀ a, (f a).Calm β) :
    (act >>= f).Calm β :=
  fun s => (h s).bind fun a s' _ => hf a s'

theorem set {s' : σ} : (set s' : Act σ PUnit).Calm β := fun _ => .set trivial

theorem modify {f : σ → σ} : (modify f : Act σ PUnit).Calm β := fun _ => .modify trivial

/-- A behavior that is such an act does not panic. -/
theorem start {act : Act σ Bool} (h : act.Calm β) (s : σ) (behavior : σ → γ) (turn : Turn β) :
    ¬ ∃ text, (((fun ended => (ended.1, behavior ended.2)) <$> act.start s).run turn).1.1
      = .error (.panicked text) := by
  rintro ⟨text, heq⟩
  rw [Program.run_map] at heq
  exact ((h s).stops turn trivial).2 _ heq text rfl

end Calm

end Act

namespace Standard

open Act

theorem stateless_calm {act : Act Unit Bool} (h : act.Calm β) (self : Standard) (turn : Turn β) :
    ¬ ∃ text, ((stateless self act).run turn).1.1 = .error (.panicked text) :=
  h.start () (fun _ => self) turn

theorem pulseFirst_still : ∀ n, (pulseFirst n : Act σ Unit).Still β
  | 0 => .pure
  | n + 1 => .bind (pulseFirst_still n) fun _ => .bind .ask fun _ => .pure

theorem fireOutputsAct_still : (fireOutputsAct : Act σ Bool).Still β :=
  .bind .ask fun n => .bind (pulseFirst_still n) fun _ => .pure

theorem toggleAct_calm (input : Option Nat) : (toggleAct input : Act σ Bool).Calm β := by
  have goOn (b : Bool) : (do
      Act.write "Value" (.bool b)
      Act.fire "Out"
      return false : Act σ Bool).Calm β :=
    (Still.bind (.write _ _) fun _ => .bind (.fire _) fun _ => .pure).calm
  unfold toggleAct
  split
  · exact goOn true
  · exact goOn false
  · exact .bind (fun s => (Still.read "Value" "bool" Property.asBool? |>.calm s).map) goOn
  · exact Still.pure.calm

theorem branchAct_still : (branchAct : Act σ Bool).Still β :=
  .bind (.read _ _ _) fun _ => .bind (.fire _) fun _ => .pure

theorem callRemoteEventAct_still : (callRemoteEventAct : Act σ Bool).Still β :=
  .bind (.read _ _ _) fun _ => .bind (.read _ _ _) fun _ => .bind .ask fun _ =>
    .bind (.fire _) fun _ => .pure

theorem passThroughAct_still : (passThroughAct : Act σ Bool).Still β :=
  .bind (.fire _) fun _ => .pure

theorem addParams_still : ∀ (n : Nat) (message : Message),
    (addParams n message : Act σ Message).Still β
  | 0, _ => .pure
  | n + 1, message => by
    refine .bind (addParams_still n message) fun _ => .bind .ask fun slot => ?_
    rcases slot with _ | value <;> exact .pure

theorem sendMessageAct_still : (sendMessageAct : Act σ Bool).Still β :=
  .bind (.read _ _ _) fun _ => .bind
    (.bind .ask fun _ => .bind .ask fun _ => .bind .ask fun _ => .pure) fun _ =>
      .bind .ask fun n => .bind (addParams_still n _) fun _ => .bind .ask fun _ =>
        .bind (.fire _) fun _ => .pure

theorem awaitAct_calm (elapsed : Float) : (awaitAct elapsed).Calm β := by
  refine .bind (Still.read _ _ _).calm fun delay => ?_
  split
  · exact .bind .modify fun _ => (Still.bind (.fire _) fun _ => .pure).calm
  · exact Still.pure.calm

theorem delayAct_calm (input : Option Nat) (first : Bool) : (delayAct input first).Calm β := by
  rw [delayAct_eq]
  split
  · refine .bind Still.get.calm fun countdown => ?_
    split
    · exact .bind .modify fun _ => (Still.bind (.fire _) fun _ => .pure).calm
    · exact Still.pure.calm
  split
  · exact .bind Still.ask.calm fun _ => .bind .set fun _ => awaitAct_calm 0
  · refine .bind Still.ask.calm fun tick => .bind Still.get.calm fun countdown => ?_
    split
    · exact Still.pure.calm
    · exact .bind Still.ask.calm fun _ => .bind .set fun _ => awaitAct_calm _

theorem forLoopAct_calm : (forLoopAct true).Calm β :=
  .bind (Still.read _ _ _).calm fun _ => .bind .set fun _ => iterateAct_still.calm

theorem switchFrom_still {index : Int64} (h : index ≠ Int64.maxValue) :
    (switchFrom index : Act σ Bool).Still β := by
  have hnext : (successor index : Act σ Int64) = pure (index + 1) := if_neg h
  unfold switchFrom
  rw [hnext]
  exact .bind .ask fun _ => .bind .pure fun _ => .bind (.write _ _) fun _ => .pure

section switch

variable {turn : Turn β} {node : Node β} {s : σ} {input : Option Nat}

/-- Nothing but an integer is read as one. -/
theorem asInt?_eq_some {value : Option Property} {i : Int64} :
    value.bind (·.asInt?) = some i ↔ value = some (.int i) := by
  rcases value with _ | value
  · simp
  · cases value <;> simp [Property.asInt?]

theorem toInt_maxValue : Int64.maxValue.toInt = 2 ^ 63 - 1 := by decide

/-- A switch comes to the largest integer only from it. -/
theorem max_one_eq_maxValue {index : Int64} :
    max index 1 = Int64.maxValue ↔ index = Int64.maxValue := by
  have hmax := toInt_max_one index
  have hlargest := toInt_maxValue
  rw [← Int64.toInt_inj, hmax, ← Int64.toInt_inj]
  omega

/-- A switch that cannot read its index fails. -/
theorem switchAct_unread (hinput : input ≠ some 1)
    (hi : (turn.script.property? turn.activation.node "CurrentIndex").bind (·.asInt?) = none) :
    ∃ error, (switchAct input : Act σ Bool).Runs s turn (.error (.failed error)) s turn [] := by
  obtain ⟨error, hread⟩ := Act.Runs.unread hi
  rw [switchAct_of_ne hinput]
  exact ⟨error, .bind (.ask .outputCount) hread.stop⟩

/-- Past its last output a switch has nowhere to go on from. -/
theorem switchAct_past_calm (hn : turn.node? = some node) (hinput : input ≠ some 1) {index : Int64}
    (hi : (turn.script.property? turn.activation.node "CurrentIndex").bind (·.asInt?) = some index)
    (hlt : node.outputs.length < max index.toInt 1) :
    ∀ text, ((switchAct input : Act σ Bool).result s turn).1.1 ≠ .error (.panicked text) := by
  rcases hl : (turn.script.property? turn.activation.node "Looping").bind (·.asBool?) with
    _ | looping
  · obtain ⟨error, hread⟩ := Act.Runs.unread hl
    have hruns : (switchAct input : Act σ Bool).Runs s turn (.error (.failed error)) s turn [] := by
      rw [switchAct_of_ne hinput]
      refine .bind (.ask .outputCount) (.bind (.read hi) ?_)
      rw [outputCount_answer hn, if_pos hlt]
      exact hread.stop
    rw [hruns.result]
    rintro text ⟨⟩
  · have hruns := switchAct_past hn hinput hi hlt hl (Act.Runs.self _ s turn)
    rw [hruns.result]
    cases looping with
    | false => rintro text ⟨⟩
    | true => exact (switchFrom_still (by decide) s turn trivial).2.2

/-- A switch panics when it is to go on from the largest integer, and for no other reason. -/
theorem switchAct_panics (s : σ) (input : Option Nat) (hn : turn.node? = some node) :
    (∃ text, ((switchAct input : Act σ Bool).result s turn).1.1 = .error (.panicked text)) ↔
      input ≠ some 1 ∧ 2 ^ 63 - 1 ≤ node.outputs.length
        ∧ (turn.script.property? turn.activation.node "CurrentIndex").bind (·.asInt?)
          = some Int64.maxValue := by
  have hlargest := toInt_maxValue
  by_cases hinput : input = some 1
  · subst hinput
    rw [switchAct_reset.result]
    simp
  rcases hi : (turn.script.property? turn.activation.node "CurrentIndex").bind (·.asInt?) with
    _ | index
  · obtain ⟨error, hruns⟩ := switchAct_unread (s := s) hinput hi
    rw [hruns.result]
    simp
  by_cases hle : max index.toInt 1 ≤ node.outputs.length
  · by_cases hmax : index = Int64.maxValue
    · subst hmax
      obtain ⟨turn', pulses, hover⟩ := switchFrom_overflows s turn
      have hruns := switchAct_within hn hinput hi hle (by
        rw [max_one_eq_maxValue.2 rfl]
        exact hover)
      rw [hruns.result]
      exact iff_of_true ⟨_, rfl⟩ ⟨hinput, by omega, rfl⟩
    · have hruns := switchAct_within hn hinput hi hle (Act.Runs.self _ s turn)
      have hcalm := (switchFrom_still (β := β) (max_one_eq_maxValue.not.2 hmax) s turn trivial).2.2
      rw [hruns.result]
      refine iff_of_false ?_ fun h => hmax (Option.some.inj h.2.2)
      rintro ⟨text, heq⟩
      exact hcalm text heq
  · refine iff_of_false ?_ ?_
    · rintro ⟨text, heq⟩
      exact switchAct_past_calm hn hinput hi (Int.not_le.1 hle) text heq
    · rintro ⟨-, hcount, heq⟩
      obtain rfl := Option.some.inj heq
      omega

end switch

end Standard

open Standard

/-! ## Calls -/

variable [Behavior β] {embed : Standard → β}

theorem Hosts.counts (hosts : Hosts embed) : Counts fun index => embed (.forLoop index) :=
  have counts : Performs (fun _ first => forLoopAct first) Standard.forLoop := Standard.counts
  hosts.performs counts

namespace Moment

/-- The call panics. -/
def Panics (m : Moment β) : Prop :=
  ∃ call text, m.call? = some call ∧ call.verdict = .error (.panicked text)

/-- The behavior has counted up to the largest integer and is to count on: a loop that is called
again, or a switch with so many outputs that is at the last integer. -/
def Exhausts (m : Moment β) (node : Node β) : Standard → Prop
  | .forLoop current => current = Int64.maxValue ∧ m.activation.first = false
  | .switch => m.activation.input ≠ some 1 ∧ 2 ^ 63 - 1 ≤ node.outputs.length
    ∧ m.director.script.property? m.activation.node "CurrentIndex" = some (.int Int64.maxValue)
  | _ => False

variable {m : Moment β} {node : Node β} {behavior : Standard}

theorem panics_iff_verdict (hosts : Hosts embed) (ht : m.target? = some node)
    (hb : node.behavior = some (embed behavior)) : m.Panics ↔ ∃ text,
      ((behavior.react m.activation.input m.activation.first).run (m.start node)).1.1
        = .error (.panicked text) := by
  have hverdict : (m.answered node (embed behavior)).1.1
      = ((behavior.react m.activation.input m.activation.first).run (m.start node)).1.1 := by
    rw [answered, hosts.reacts, Program.run_map]
    rfl
  rw [Panics, call?_of_behavior ht hb]
  simp [hverdict]

/-- A standard behavior panics when it is to count past the largest integer, and for no other
reason. -/
theorem panics_iff (hosts : Hosts embed) (ht : m.target? = some node)
    (hb : node.behavior = some (embed behavior)) : m.Panics ↔ m.Exhausts node behavior := by
  rw [panics_iff_verdict hosts ht hb]
  cases behavior with
  | inert => exact iff_of_false (by rintro ⟨text, heq⟩; cases heq) id
  | fireOutputs => exact iff_of_false (stateless_calm fireOutputsAct_still.calm _ _) id
  | toggle => exact iff_of_false (stateless_calm (toggleAct_calm _) _ _) id
  | forLoop current =>
    rcases hf : m.activation.first with _ | _
    · rw [Exhausts, hf, react, start_resumed]
      split
      · rename_i hmax
        exact iff_of_true ⟨_, rfl⟩ ⟨hmax, rfl⟩
      · rename_i hmax
        exact iff_of_false (iterateAct_still.calm.start _ _ _) fun h => hmax h.1
    · refine iff_of_false (forLoopAct_calm.start current _ _) fun h => ?_
      rw [h.2] at hf
      cases hf
  | switch =>
    have hpanics := switchAct_panics () m.activation.input (node?_start ht)
    rw [property?_start] at hpanics
    rw [react, stateless, Program.run_map, Exhausts]
    exact hpanics.trans (and_congr_right' (and_congr_right' asInt?_eq_some))
  | delay countdown => exact iff_of_false ((delayAct_calm _ _).start countdown _ _) id
  | branch => exact iff_of_false (stateless_calm branchAct_still.calm _ _) id
  | callRemoteEvent => exact iff_of_false (stateless_calm callRemoteEventAct_still.calm _ _) id
  | passThrough => exact iff_of_false (stateless_calm passThroughAct_still.calm _ _) id
  | sendMessage => exact iff_of_false (stateless_calm sendMessageAct_still.calm _ _) id

theorem Finishes.not_panics {finished : OutputLink} {call : Call β} (h : m.Finishes finished call) :
    ¬ m.Panics := by
  rintro ⟨call', text, hc, hv⟩
  obtain rfl := Option.some.inj (h.made.symm.trans hc)
  rw [h.verdict] at hv
  cases hv

theorem Overflows.panics {call : Call β} (h : m.Overflows call) : m.Panics :=
  ⟨call, _, h.made, h.verdict⟩

end Moment

open Moment

namespace Director

variable {director after : Director β} {fuel : Nat} {sim real : Float}
  {ending : Except Halt Report}

/-- Only counting past the largest integer makes a standard behavior panic. A loop whose end is the
largest integer comes to that, if it runs undisturbed, and its run ends without a pulse of
`Finished`; the run of any other loop ends with that pulse. -/
theorem panics_past_largest (hosts : Hosts embed)
    (h : director.update fuel sim real = some (ending, after)) :
    (∀ (m : Moment β) node behavior, m.target? = some node →
        node.behavior = some (embed behavior) → (m.Panics ↔ m.Exhausts node behavior))
      ∧ ∀ (earlier later : List (Moment β)) (m : Moment β) (out finished : OutputLink)
        (start stop current : Int64), Exits out finished → director.config.catchPanics = true →
          director.history fuel sim real = earlier ++ m :: later →
          director.script.LoopsAt (fun index => embed (.forLoop index)) out finished
            m.activation.node current →
          m.isInvoked = true → m.activation.first = true →
          m.director.script.property? m.activation.node "Start" = some (.int start) →
          Undisturbed m.activation.node stop ending (m :: later) →
          ∃ (laps : List (Lap β)) (last : Moment β) (rest : List (Moment β)),
            m :: later = laps.flatMap Lap.moments ++ last :: rest
            ∧ laps.length = (stop.toInt - start.toInt + 1).toNat
            ∧ ((∃ call, last.Finishes finished call) ↔ stop ≠ Int64.maxValue)
            ∧ (last.Panics ↔ stop = Int64.maxValue) := by
  refine ⟨fun m node behavior ht hb => Moment.panics_iff hosts ht hb, ?_⟩
  intro earlier later m out finished start stop current exits caught handled looping called fresh
    reads undisturbed
  obtain ⟨laps, last, rest, hsplit, hlaps⟩ :=
    exists_laps hosts.counts exits h caught handled looping called fresh reads undisturbed
  refine ⟨laps, last, rest, hsplit, hlaps.length, ?_⟩
  by_cases hstop : stop = Int64.maxValue
  · obtain ⟨-, call, hover⟩ := hlaps.overflows hstop
    refine ⟨iff_of_false ?_ fun hne => hne hstop, iff_of_true hover.panics hstop⟩
    rintro ⟨call', hfinishes⟩
    exact hfinishes.not_panics hover.panics
  · obtain ⟨call, hfinishes⟩ := hlaps.finishes hstop start.toInt_le
    exact ⟨iff_of_true ⟨call, hfinishes⟩ hstop, iff_of_false hfinishes.not_panics hstop⟩

/-- The loop that only counts the largest integer panics in its second call, and no call pulses
`Finished`. -/
theorem panics_of_brimming : ∃ (report : Report) (after : Director Standard)
    (first last : Moment Standard), brimming.update 10 0 0 = some (.ok report, after)
      ∧ brimming.history 10 0 0 = [first, last] ∧ last.Panics ∧ report.failed = 1
      ∧ first.pulsed = [] ∧ last.pulsed = [] := by
  have hc : (brimming.update 10 0 0).map (fun ending => ending.1.toOption.map (·.failed))
      = some (some 1) := by
    decide +kernel
  have hcalls : (brimming.history 10 0 0).map (fun m => (m.pulsed, m.call?.map (·.verdict)))
      = [([], some (.ok false)),
        ([], some (.error (.panicked (some "attempt to add with overflow"))))] := by
    decide +kernel
  rcases h : brimming.update 10 0 0 with _ | ⟨_ | report, after⟩ <;> rw [h] at hc
  · simp at hc
  · simp [Except.toOption] at hc
  rcases hhistory : brimming.history 10 0 0 with _ | ⟨first, _ | ⟨last, _ | ⟨more, rest⟩⟩⟩ <;>
    rw [hhistory] at hcalls <;>
    simp only [List.map_cons, List.map_nil, List.cons.injEq, Prod.mk.injEq, reduceCtorEq, and_false,
      and_true, Option.map_eq_some_iff] at hcalls
  obtain ⟨⟨hfirst, -⟩, hlast, call, hmade, hverdict⟩ := hcalls
  exact ⟨report, after, first, last, rfl, rfl, ⟨call, _, hmade, hverdict⟩,
    by simpa [Except.toOption] using hc, hfirst, hlast⟩

/-- The run of that loop ends without the pulse, since its end is the largest integer. -/
theorem panics_past_largest_of_brimming : ∃ (ending : Except Halt Report)
    (after : Director Standard) (laps : List (Lap Standard)) (last : Moment Standard)
    (rest : List (Moment Standard)), brimming.update 10 0 0 = some (ending, after)
      ∧ brimming.history 10 0 0 = laps.flatMap Lap.moments ++ last :: rest ∧ laps.length = 1
      ∧ last.Panics ∧ ¬ ∃ call, last.Finishes { name := "Finished" } call := by
  have hc : (brimming.update 10 0 0).map (·.1.toBool) = some true := by decide +kernel
  have hfirst : (brimming.history 10 0 0).head?.map (fun m => (m.activation, m.isInvoked,
      (m.director.script.property? ⟨0⟩ "Start").bind (·.asInt?)))
      = some ({ node := ⟨0⟩, input := some 0 }, true, some Int64.maxValue) := by
    decide +kernel
  have honly : ((runOf ⟨0⟩ (brimming.history 10 0 0)).tail.all fun m => !m.activation.first)
      = true := by
    decide +kernel
  have hends : ((runOf ⟨0⟩ (brimming.history 10 0 0)).all fun m =>
      (m.director.script.property? ⟨0⟩ "End").bind (·.asInt?) == some Int64.maxValue) = true := by
    decide +kernel
  rcases h : brimming.update 10 0 0 with _ | ⟨_ | report, after⟩ <;> rw [h] at hc
  · simp at hc
  · simp [Except.toBool] at hc
  rcases hhistory : brimming.history 10 0 0 with _ | ⟨m, later⟩ <;>
    rw [hhistory] at hfirst honly hends
  · cases hfirst
  obtain ⟨hactivation, hinvoked, hstart⟩ : m.activation = { node := ⟨0⟩, input := some 0 }
      ∧ m.isInvoked = true
      ∧ (m.director.script.property? ⟨0⟩ "Start").bind (·.asInt?) = some Int64.maxValue := by
    simpa using hfirst
  have hnode : m.activation.node = ⟨0⟩ := congrArg Activation.node hactivation
  have undisturbed : Undisturbed m.activation.node Int64.maxValue (.ok report) (m :: later) := by
    rw [hnode]
    refine ⟨.inl ⟨report, rfl⟩, fun m' hm' _ _ => ?_, fun m' hm' _ _ _ _ => ?_⟩
    · simpa using List.all_eq_true.1 honly m' hm'
    · exact asInt?_eq_some.1 (by simpa using List.all_eq_true.1 hends m' hm')
  have loops : brimming.script.LoopsAt (fun index => .forLoop index) { name := "Out" }
      { name := "Finished" } m.activation.node 0 := by
    rw [hnode]
    exact ⟨_, rfl, rfl, rfl⟩
  obtain ⟨-, hrun⟩ := panics_past_largest Standard.hosts h
  obtain ⟨laps, last, rest, hsplit, hlength, hfinishes, hpanics⟩ := hrun [] later m
    { name := "Out" } { name := "Finished" } Int64.maxValue Int64.maxValue 0
    ⟨⟨rfl, rfl⟩, ⟨rfl, rfl⟩⟩ rfl hhistory loops hinvoked (by rw [hactivation])
    (by rw [hnode]; exact asInt?_eq_some.1 hstart) undisturbed
  exact ⟨_, after, laps, last, rest, rfl, hsplit, by rw [hlength]; decide, hpanics.2 rfl,
    fun hpulse => hfinishes.1 hpulse rfl⟩

end Director

end FlowScript
