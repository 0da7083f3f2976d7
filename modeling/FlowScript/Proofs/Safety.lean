import FlowScript.Proofs.Session
import FlowScript.Proofs.Soundness

/-!
# Sessions on well-typed scripts

A call keeps a script well-typed, however it ends (`Sound.outcome`). So in a session in which the
host adds well-typed nodes only and writes no values, no call finds a property missing or of the
wrong type, or an output missing (`Session.sound_calls`).
-/

namespace FlowScript

namespace Script.Sound

variable {script : Script Standard}

/-- The director's bookkeeping keeps a script well-typed if the node it changes stays of the
catalog. -/
theorem book (h : script.Sound) {id : NodeId} {f : Node Standard → Node Standard}
    (hk : ∀ node : Node Standard, node.Booked (f node))
    (hf : ∀ node, script.node? id = some node → (f node).Fits) :
    (script.modifyNode id f).Sound := by
  have hskeleton := script.modifyNode_skeleton id fun node => (hk node).skeleton
  -- Links and cells are as they were.
  have hsame : ∀ {id' : NodeId} {node'}, (script.modifyNode id f).node? id' = some node' →
      ∃ node, script.node? id' = some node ∧ node'.links = node.links
        ∧ node'.valueType = node.valueType := by
    intro id' node' hn'
    rw [node?_modifyNode script f fun node => (hk node).id] at hn'
    split at hn'
    · obtain ⟨node, hn, rfl⟩ := Option.map_eq_some_iff.1 hn'
      obtain ⟨behavior, outputs, heq, -⟩ := hk node
      exact ⟨node, hn, by rw [heq], by rw [heq]⟩
    · exact ⟨node', hn', rfl, rfl⟩
  refine ⟨h.grounded.of_skeleton hskeleton,
    forall_modifyNode (fun node => (hk node).id) h.fits hf, ?_⟩
  intro ref link hl hchecked id' hid' cell' hc'
  obtain ⟨node', hn', hlink⟩ := Option.bind_eq_some_iff.1 hl
  obtain ⟨node, hn, hlinks, -⟩ := hsame hn'
  obtain ⟨cell, hc, -, hvalueType⟩ := hsame hc'
  have hold : script.link? ref = some link := by
    rw [link?, hn, Option.bind_some, ← hlinks, hlink]
  exact hvalueType.trans (h.matched ref link hold hchecked id' hid' cell hc)

end Script.Sound

/-! ## Calls -/

namespace Moment

variable {m : Moment Standard} {node : Node Standard} {behavior : Standard}

/-- The turn of a call starts well-typed, and the call ends as its behavior ensures. -/
theorem answered_of_sound (h : m.director.script.Sound) (ht : m.target? = some node)
    (hb : node.behavior = some behavior) :
    ∃ entry ∈ Standard.catalog, ∃ properties, node.Of (entry.2 properties)
      ∧ (m.answered node behavior).2.Of (entry.2 properties)
      ∧ (m.answered node behavior).1.2.blank = (entry.2 properties).behavior
      ∧ ∀ stop, (m.answered node behavior).1.1 = .error stop →
        Standard.Overflows (entry.2 properties) behavior m.activation.first stop := by
  obtain ⟨hn, -⟩ := target?_eq_some.1 ht
  obtain ⟨entry, he, properties, hof⟩ := h.fits _ _ hn
  have hblank := hof.behavior behavior hb
  have hout : ({ node with behavior := none } : Node Standard).Of (entry.2 properties) :=
    hof.booked node.booked_none fun _ h => by cases h
  have hturn : (m.director.turn m.activation node.graph).Of (entry.2 properties) := by
    refine ⟨h.book Node.booked_none fun n hn' => ?_, _, Director.node?_turn hn node.graph, hout⟩
    obtain rfl := Option.some.inj (hn.symm.trans hn')
    exact ⟨entry, he, properties, hout⟩
  obtain ⟨hend, hsame, hstop⟩ := Standard.react_ensures he properties hblank m.activation.input
    m.activation.first _ hturn
  exact ⟨entry, he, properties, hof, hend, hsame.trans hblank, hstop⟩

end Moment

/-- Handling an activation keeps a script well-typed, whatever becomes of the activation. -/
theorem Script.Sound.outcome (m : Moment Standard) (h : m.director.script.Sound) :
    m.outcome.2.script.Sound := by
  generalize m.outcome.2.script = left, m.leaves = hleft
  cases hleft with
  | untouched => exact h
  | unwound target owned =>
    obtain ⟨entry, -, properties, -, hend, -⟩ := Moment.answered_of_sound h target owned
    exact hend.sound
  | @booked node behavior book target owned kept back =>
    obtain ⟨entry, he, properties, -, hend, hblank, -⟩ := Moment.answered_of_sound h target owned
    refine hend.sound.book kept fun n hn => ⟨entry, he, properties, ?_⟩
    obtain ⟨n', hn', hof⟩ := hend.node
    rw [Turn.node?, m.answered_activation] at hn'
    obtain rfl := Option.some.inj (hn'.symm.trans hn)
    refine hof.booked (kept n') fun b hb => ?_
    rw [back] at hb
    rw [← Option.some.inj hb]
    exact hblank

/-- A call on a well-typed script fails only by an overflow. -/
theorem Script.Sound.error {m : Moment Standard} (h : m.director.script.Sound)
    {call : Call Standard} {error : NodeError} (hc : m.call? = some call)
    (he : call.error? = some error) :
    error = .panicked "attempt to add with overflow" ∧ ∃ node, m.target? = some node
      ∧ (node.outputs.length < 2 ^ 63 - 1 → node.type = coreType "For Loop"
        ∧ node.behavior = some (.forLoop Int64.maxValue) ∧ m.activation.first = false) := by
  obtain ⟨node, ht, hc⟩ := Option.bind_eq_some_iff.1 hc
  obtain ⟨behavior, hb, rfl⟩ := Option.map_eq_some_iff.1 hc
  obtain ⟨entry, -, properties, hof, -, -, hstop⟩ := Moment.answered_of_sound h ht hb
  rcases hv : (m.answered node behavior).1.1 with stop | latent
  · obtain ⟨rfl, honly⟩ := hstop stop hv
    simp only [Call.error?, hv, Standard.overflow] at he
    refine ⟨(Option.some.inj he).symm, node, ht, fun hlt => ?_⟩
    have htype : node.type = (entry.2 properties).type := (congrArg NodeBuilder.type hof.shape :)
    obtain ⟨hloop, rfl, hfirst⟩ := honly (hof.length_outputs ▸ hlt)
    exact ⟨htype.trans hloop, hb, hfirst⟩
  · simp [Call.error?, hv] at he

/-! ## Sessions -/

namespace Standard

/-- A move of a host that adds well-typed nodes only and writes no value itself. -/
def Careful : Move Standard → Prop
  | .edit change => ¬ change.Writes ∧ change.Places Instance
  | _ => True

/-- A script of well-typed nodes as a host comes by it first. -/
inductive Authored : Script Standard → Prop where
  | empty (name : String) : Authored (Script.withRootName name)
  | built {definition : GraphDef} {loaded : Loaded Standard}
      (typed : ∀ graph ∈ definition.preorder, ∀ node ∈ graph.nodes,
        WellTyped node.type node.properties)
      (built : definition.build registry = .ok loaded) : Authored loaded.script

theorem Authored.sound {script : Script Standard} (h : Authored script) : script.Sound := by
  cases h with
  | empty name => exact .withRootName name
  | built typed built =>
    refine Loaded.keeps_of_build (fun graph hg node hn builder hc => ?_) (.withRootName _)
      (fun _ _ hw places hs => hs.edit hw places) built
    exact ⟨node.type, node.properties, typed graph hg node hn, hc⟩

end Standard

namespace Director

/-- In a session on a well-typed script whose host is careful, a call fails only if an integer is
counted past the largest one. Only a loop can do so, if no node has as many outputs as there are
positive integers: its count stands at the largest integer and it is called once more. -/
theorem Session.sound_calls {start director : Director Standard}
    (authored : Standard.Authored start.script)
    (session : start.Session Standard.Careful director) (fuel : Nat) (sim real : Float) :
    ∀ m ∈ director.history fuel sim real, ∀ call error, m.call? = some call →
      call.error? = some error → error = .panicked "attempt to add with overflow"
        ∧ ∃ node, m.target? = some node
          ∧ (node.outputs.length < 2 ^ 63 - 1 → node.type = coreType "For Loop"
            ∧ node.behavior = some (.forLoop Int64.maxValue) ∧ m.activation.first = false) := by
  have hs : director.script.Sound :=
    session.keeps (fun _ _ permitted h => h.edit permitted.1 permitted.2)
      (fun m h => h.outcome m) authored.sound
  intro m hm call error hc he
  exact ((keeps_update (fun m h => h.outcome m) hs fuel sim real).2 m hm).error hc he

/-- A loop that only counts the largest integer. -/
def brim : NodeBuilder Standard :=
  { Standard.forLoopNode with
    links := [.input "Start" (.int Int64.maxValue), .input "End" (.int Int64.maxValue),
      .output "CurrentIndex" (.int 0)] }

/-- The host adds the loop and starts it. -/
def brimming : Director Standard :=
  [Move.edit (.addNode rootGraph brim), .triggerInput rootGraph ⟨0⟩ "Start"].foldl move
    { script := .withRootName "root" }

/-- The loop counts once and fails when it is called again. -/
theorem sound_calls_of_brim : ∃ (start : Director Standard) (m : Moment Standard)
    (call : Call Standard) (error : NodeError), Standard.Authored start.script
    ∧ start.Session Standard.Careful brimming
    ∧ m ∈ brimming.history 10 0 0 ∧ m.call? = some call ∧ call.error? = some error
    ∧ error = .panicked "attempt to add with overflow"
    ∧ ∃ node, m.target? = some node ∧ node.type = coreType "For Loop"
      ∧ node.behavior = some (.forLoop Int64.maxValue) ∧ m.activation.first = false := by
  have typed : Standard.WellTyped (coreType "For Loop")
      [("Start", .int Int64.maxValue), ("End", .int Int64.maxValue)] := by
    intro factory hf e he declared hd
    obtain rfl : (fun _ => Standard.forLoopNode) = factory := Option.some.inj hf
    simp only [List.mem_cons, List.not_mem_nil, or_false] at he
    rcases he with rfl | rfl
    · obtain rfl : Property.int 0 = declared := Option.some.inj hd
      rfl
    · obtain rfl : Property.int 0 = declared := Option.some.inj hd
      rfl
  have instance_brim : Standard.Instance brim := ⟨_, _, typed, rfl⟩
  have session : Session Standard.Careful { script := .withRootName "root" } brimming :=
    .move (.triggerInput rootGraph ⟨0⟩ "Start") trivial
      (.move (.edit (.addNode rootGraph brim)) ⟨id, instance_brim⟩ .start)
  have herror : (brimming.history 10 0 0)[1]?.bind (fun m => m.call?.bind Call.error?)
      = some (.panicked "attempt to add with overflow") := by
    decide +kernel
  have houtputs : (brimming.history 10 0 0)[1]?.bind (fun m => m.target?.map (·.outputs.length))
      = some 2 := by
    decide +kernel
  obtain ⟨m, hm, he⟩ := Option.bind_eq_some_iff.1 herror
  obtain ⟨call, hc, he⟩ := Option.bind_eq_some_iff.1 he
  have hmem := List.mem_of_getElem? hm
  obtain ⟨herr, node, ht, honly⟩ :=
    Session.sound_calls (.empty "root") session 10 0 0 m hmem call _ hc he
  rw [hm, Option.bind_some, ht, Option.map_some, Option.some.injEq] at houtputs
  exact ⟨_, m, call, _, .empty "root", session, hmem, hc, he, herr, node, ht, honly (by omega)⟩

end Director

end FlowScript
