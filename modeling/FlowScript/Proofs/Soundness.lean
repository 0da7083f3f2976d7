import Mathlib.Algebra.Group.Nat.Defs
import FlowScript.Proofs.Ensures
import FlowScript.Proofs.WellTyped

/-!
# Well-typed calls do not go wrong

In a well-typed script a call finds every property that it reads, with the right type, and every
output that it names. What is left to go wrong is an integer that grows too large (`react_ensures`).
-/

namespace FlowScript

/-- A link that checks types, or else a plain property, is described with a value of this type. -/
def NodeBuilder.Declares {β : Type} (described : NodeBuilder β) (name : String)
    (type : PropertyType) : Prop :=
  match described.links.find? (·.name == name) with
  | some link => link.isChecked = true ∧ link.type = type
  | none => ∃ value, Keyed.get? described.properties name = some value ∧ value.type = type

/-- A value link of this type is described. -/
def NodeBuilder.Links {β : Type} (described : NodeBuilder β) (name : String)
    (type : PropertyType) : Prop :=
  ∃ link, described.links.find? (·.name == name) = some link ∧ link.type = type

/-- The turn of a call of a node of a well-typed script. -/
structure Turn.Of (turn : Turn Standard) (described : NodeBuilder Standard) : Prop where
  sound : turn.script.Sound
  node : ∃ node, turn.node? = some node ∧ node.Of described

/-! ## What a described node has -/

namespace Node.Of

variable {node : Node Standard} {described : NodeBuilder Standard}

theorem links (h : node.Of described) :
    node.links.map ValueLink.shape = described.links.map ValueLink.shape :=
  (congrArg NodeBuilder.links h.shape :)

theorem outputs (h : node.Of described) :
    node.outputs.map OutputLink.shape = described.outputs.map OutputLink.shape :=
  (congrArg NodeBuilder.outputs h.shape :)

theorem outputIndex?_eq (h : node.Of described) (name : String) :
    node.outputIndex? name = position? (·.name == name) described.outputs := by
  refine position?_congr ?_
  have hnames := congrArg (List.map fun link : OutputLink => link.name == name) h.outputs
  simp only [List.map_map] at hnames
  exact hnames

theorem length_outputs (h : node.Of described) :
    node.outputs.length = described.outputs.length := by
  have hlength := congrArg List.length h.outputs
  simpa only [List.length_map] using hlength

/-- A described link is found under its name, with the described type. -/
theorem linkIndex?_of_find? (h : node.Of described) {name : String} {d : ValueLink}
    (hf : described.links.find? (·.name == name) = some d) : ∃ index link,
      node.linkIndex? name = some index ∧ node.links[index]? = some link
        ∧ link.type = d.type ∧ link.isChecked = d.isChecked := by
  have search : ∀ {links declared : List ValueLink},
      links.map ValueLink.shape = declared.map ValueLink.shape →
      links.map (·.type) = declared.map (·.type) →
      declared.find? (·.name == name) = some d → ∃ index link,
        position? (·.name == name) links = some index ∧ links[index]? = some link
          ∧ link.type = d.type ∧ link.isChecked = d.isChecked := by
    intro links
    induction links with
    | nil =>
      intro declared hs _ hf
      rw [List.map_eq_nil_iff.1 hs.symm] at hf
      cases hf
    | cons link links ih =>
      intro declared hs ht hf
      rcases declared with _ | ⟨first, declared⟩
      · cases hf
      simp only [List.map_cons, List.cons.injEq] at hs ht
      obtain ⟨hname, -, hchecked⟩ := ValueLink.of_shape_eq hs.1
      by_cases hn : link.name = name
      · have hfirst : first.name = name := hname.symm.trans hn
        rw [List.find?_cons_of_pos (by simpa using hfirst)] at hf
        obtain rfl := Option.some.inj hf
        exact ⟨0, link, by simp [position?, hn], rfl, ht.1, hchecked⟩
      · have hfirst : first.name ≠ name := fun heq => hn (hname.trans heq)
        rw [List.find?_cons_of_neg (by simpa using hfirst)] at hf
        obtain ⟨index, l, hi, hl, htype, hc⟩ := ih hs.2 ht.2 hf
        exact ⟨index + 1, l, by simp [position?, hn, hi], by simpa using hl, htype, hc⟩
  exact search h.links h.defaults hf

theorem linkIndex?_of_none (h : node.Of described) {name : String}
    (hf : described.links.find? (·.name == name) = none) : node.linkIndex? name = none := by
  have hnames := congrArg (List.map fun link : ValueLink => link.name == name) h.links
  simp only [List.map_map] at hnames
  have hposition : node.linkIndex? name = position? (·.name == name) described.links :=
    position?_congr hnames
  rw [hposition, position?_eq_none]
  intro link hl
  simpa using List.find?_eq_none.1 hf link hl

end Node.Of

theorem Script.Sound.of_typing {script script' : Script Standard} (h : script.Sound)
    (ht : script'.typing = script.typing) (hs : script'.skeleton = script.skeleton) :
    script'.Sound := by
  refine ⟨h.grounded.of_skeleton hs, fun id node' hn' => ?_, h.matched.of_typing ht⟩
  obtain ⟨node, hn, hsame⟩ := node?_of_typing ht hn'
  obtain ⟨entry, he, properties, hof⟩ := h.fits id node hn
  exact ⟨entry, he, properties, hof.of_typing hsame⟩

/-! ## Requests -/

/-- What a call of a described node may ask for: it writes through described links only, and values
of their types. -/
def NodeBuilder.Permits (described : NodeBuilder Standard) : Request → Prop
  | .setProperty name value => described.Links name value.type
  | .setSlot _ _ _ => False
  | _ => True

namespace Turn.Of

variable {turn : Turn Standard} {described : NodeBuilder Standard}

theorem typing_answer (h : turn.Of described) {r : Request} (hr : described.Permits r) :
    (turn.answer r).2.script.typing = turn.script.typing := by
  cases r with
  | setProperty name value =>
    obtain ⟨d, hd, htype⟩ := hr
    obtain ⟨node, hn, hof⟩ := h.node
    obtain ⟨index, link, hi, hl, hlink, -⟩ := hof.linkIndex?_of_find? hd
    exact Script.typing_setProperty h.sound.stocked hn hi hl (hlink.trans htype)
  | setSlot link index value => exact hr.elim
  | pulse output =>
    simp only [answer, Turn.pulse]
    split
    · rfl
    · refine Script.typing_modifyNode (fun n => ?_) fun n _ => n.activateOutput_typing output
      unfold Node.activateOutput
      split <;> rfl
  | pushTargets output =>
    simp only [answer, pushTargets]
    split <;> rfl
  | _ => rfl

theorem answer (h : turn.Of described) {r : Request} (hr : described.Permits r) :
    (turn.answer r).2.Of described := by
  have htyping := h.typing_answer hr
  refine ⟨h.sound.of_typing htyping (turn.answer_skeleton r), ?_⟩
  obtain ⟨node, hn, hof⟩ := h.node
  obtain ⟨node', hn', hsame⟩ := Script.node?_of_typing htyping.symm hn
  refine ⟨node', ?_, hof.of_typing hsame.symm⟩
  rw [Turn.node?, turn.answer_activation r]
  exact hn'

theorem property?_type (h : turn.Of described) {name : String} {type : PropertyType}
    (hd : described.Declares name type) :
    ∃ value, (turn.answer (.property name)).1 = some value ∧ value.type = type := by
  obtain ⟨node, hn, hof⟩ := h.node
  unfold NodeBuilder.Declares at hd
  have hnode : turn.script.node? turn.activation.node = some node := hn
  simp only [Turn.answer, Script.property?, hnode]
  split at hd
  · rename_i d hf
    obtain ⟨index, link, hi, hl, htype, hchecked⟩ := hof.linkIndex?_of_find? hf
    have hlink : turn.script.link? ⟨turn.activation.node, index⟩ = some link := by
      rw [Script.link?, show turn.script.node? turn.activation.node = some node from hn,
        Option.bind_some, hl]
    obtain ⟨value, hv, ht⟩ := Script.linkValue?_type h.sound.matched h.sound.stocked hlink
      (hchecked.trans hd.1)
    simp only [hi]
    exact ⟨value, hv, ht.trans (htype.trans hd.2)⟩
  · rename_i hf
    obtain ⟨value, hv, ht⟩ := hd
    obtain ⟨value', hv', ht'⟩ := hof.values name value hv
    simp only [hof.linkIndex?_of_none hf]
    exact ⟨value', hv', ht'.trans ht⟩

end Turn.Of

/-! ## Acts -/

namespace Act

variable {σ : Type} {s : σ} {described : NodeBuilder Standard} {Stops : Stop → Prop}

theorem ask_ensures {r : Request} {Q : r.Answer → σ → Prop} (hr : described.Permits r)
    (hpost : ∀ a, Q a s) :
    (ask r : Act σ r.Answer).Ensures (Turn.Of · described) s Q Stops :=
  .ask fun _ h => ⟨h.answer hr, hpost _⟩

theorem read_ensures {α : Type} {name expected : String} {view : Property → Option α}
    {type : PropertyType} {Q : α → σ → Prop} (hd : described.Declares name type)
    (hview : ∀ value : Property, value.type = type → ∃ a, view value = some a)
    (hpost : ∀ a, Q a s) :
    (read name expected view : Act σ α).Ensures (Turn.Of · described) s Q Stops := by
  have hask : (ask (.property name) : Act σ _).Ensures (Turn.Of · described) s
      (fun answer s' => (∃ value, answer = some value ∧ value.type = type) ∧ s' = s) Stops :=
    .ask fun _ h => ⟨h.answer trivial, h.property?_type hd, rfl⟩
  refine hask.bind fun answer s' hanswer => ?_
  obtain ⟨⟨value, rfl, htype⟩, rfl⟩ := hanswer
  obtain ⟨a, ha⟩ := hview value htype
  simp only [ha]
  exact .pure (hpost a)

theorem getBool_ensures {name : String} {Q : Bool → σ → Prop}
    (hd : described.Declares name .bool) (hpost : ∀ b, Q b s) :
    (getBool name : Act σ Bool).Ensures (Turn.Of · described) s Q Stops := by
  refine read_ensures hd (fun value h => ?_) hpost
  cases value <;> cases h
  exact ⟨_, rfl⟩

theorem getInt_ensures {name : String} {Q : Int64 → σ → Prop}
    (hd : described.Declares name .int) (hpost : ∀ i, Q i s) :
    (getInt name : Act σ Int64).Ensures (Turn.Of · described) s Q Stops := by
  refine read_ensures hd (fun value h => ?_) hpost
  cases value <;> cases h
  exact ⟨_, rfl⟩

theorem getFloat_ensures {name : String} {Q : Float → σ → Prop}
    (hd : described.Declares name .float) (hpost : ∀ x, Q x s) :
    (getFloat name : Act σ Float).Ensures (Turn.Of · described) s Q Stops := by
  refine read_ensures hd (fun value h => ?_) hpost
  cases value <;> cases h
  exact ⟨_, rfl⟩

theorem getString_ensures {name : String} {Q : String → σ → Prop}
    (hd : described.Declares name .string) (hpost : ∀ x, Q x s) :
    (getString name : Act σ String).Ensures (Turn.Of · described) s Q Stops := by
  refine read_ensures hd (fun value h => ?_) hpost
  cases value <;> cases h
  exact ⟨_, rfl⟩

theorem write_ensures {name : String} {value : Property} {Q : Unit → σ → Prop}
    (hl : described.Links name value.type) (hpost : Q () s) :
    (write name value : Act σ Unit).Ensures (Turn.Of · described) s Q Stops :=
  (ask_ensures (Q := fun _ s' => s' = s) (r := .setProperty name value) hl fun _ => rfl).bind
    fun _ _ heq => .pure (heq ▸ hpost)

theorem outputIndex_ensures {name : String} {index : Nat} {Q : Nat → σ → Prop}
    (ho : position? (·.name == name) described.outputs = some index) (hpost : Q index s) :
    (outputIndex name : Act σ Nat).Ensures (Turn.Of · described) s Q Stops := by
  have hask : (ask (.outputIndex name) : Act σ _).Ensures (Turn.Of · described) s
      (fun answer s' => answer = some index ∧ s' = s) Stops := by
    refine .ask fun turn h => ⟨h.answer trivial, ?_, rfl⟩
    obtain ⟨node, hn, hof⟩ := h.node
    simp only [Turn.answer, hn, Option.bind_some]
    rw [hof.outputIndex?_eq, ho]
  refine hask.bind fun answer s' hanswer => ?_
  obtain ⟨rfl, rfl⟩ := hanswer
  exact .pure hpost

theorem fire_ensures {name : String} {index : Nat} {Q : Unit → σ → Prop}
    (ho : position? (·.name == name) described.outputs = some index) (hpost : Q () s) :
    (fire name : Act σ Unit).Ensures (Turn.Of · described) s Q Stops := by
  refine (outputIndex_ensures ho (Q := fun _ s' => s' = s) rfl).bind fun output s' hs => ?_
  subst hs
  exact (ask_ensures (r := .pulse output) (Q := fun _ s'' => s'' = s') trivial fun _ => rfl).bind
    fun _ _ heq => .pure (heq ▸ hpost)

theorem pushOutput_ensures {name : String} {index : Nat} {Q : Unit → σ → Prop}
    (ho : position? (·.name == name) described.outputs = some index) (hpost : Q () s) :
    (pushOutput name : Act σ Unit).Ensures (Turn.Of · described) s Q Stops := by
  refine (outputIndex_ensures ho (Q := fun _ s' => s' = s) rfl).bind fun output s' hs => ?_
  subst hs
  exact ask_ensures (r := .pushTargets output) trivial fun _ => hpost

end Act

/-! ## Behaviors -/

namespace Standard

variable {σ : Type} {s : σ} {described : NodeBuilder Standard} {Stops : Stop → Prop}

/-- The panic of an integer that is counted past the largest one. -/
def overflow : Stop := .panicked (some "attempt to add with overflow")

theorem successor_ensures {i : Int64} {Q : Int64 → σ → Prop} (hpost : ∀ j, Q j s)
    (hstop : i = Int64.maxValue → Stops overflow) :
    (successor i : Act σ Int64).Ensures (Turn.Of · described) s Q Stops := by
  unfold successor
  split
  · rename_i h
    exact .panic (hstop h)
  · exact .pure (hpost _)

theorem pulseFirst_ensures {Q : Unit → σ → Prop} (hpost : Q () s) :
    ∀ n, (pulseFirst n : Act σ Unit).Ensures (Turn.Of · described) s Q Stops
  | 0 => .pure hpost
  | n + 1 =>
    (pulseFirst_ensures (Q := fun _ s' => s' = s) rfl n).bind fun _ s' hs =>
      (Act.ask_ensures (r := .pulse n) (Q := fun _ s'' => s'' = s') trivial fun _ => rfl).bind
        fun _ s'' hs' => .pure (by rw [hs', hs]; exact hpost)

theorem fireOutputsAct_ensures :
    (fireOutputsAct : Act σ Bool).Ensures (Turn.Of · described) s (fun _ _ => True) Stops :=
  (Act.ask_ensures (r := .outputCount) (Q := fun _ _ => True) trivial fun _ => trivial).bind
    fun n _ _ => (pulseFirst_ensures (Q := fun _ _ => True) trivial n).bind fun _ _ _ =>
      .pure trivial

theorem passThroughAct_ensures (name : String) :
    (passThroughAct : Act σ Bool).Ensures (Turn.Of · (passThroughNode name)) s
      (fun _ _ => True) Stops := by
  have hout : position? (·.name == "Out") (passThroughNode name).outputs = some 0 := rfl
  refine Act.Ensures.bind (Act.fire_ensures (Q := fun _ _ => True) hout trivial) ?_
  exact fun _ _ _ => .pure trivial

theorem toggleAct_ensures (input : Option Nat) :
    (toggleAct input : Act σ Bool).Ensures (Turn.Of · toggleNode) s (fun _ _ => True) Stops := by
  have hvalue : toggleNode.Links "Value" .bool := ⟨_, rfl, rfl⟩
  have hout : position? (·.name == "Out") toggleNode.outputs = some 0 := rfl
  have goOn (b : Bool) (s : σ) : (do
      Act.write "Value" (.bool b)
      Act.fire "Out"
      return false : Act σ Bool).Ensures (Turn.Of · toggleNode) s (fun _ _ => True) Stops := by
    refine Act.Ensures.bind (Act.write_ensures (Q := fun _ _ => True) hvalue trivial) ?_
    intro _ s' _
    refine Act.Ensures.bind (Act.fire_ensures (Q := fun _ _ => True) hout trivial) ?_
    exact fun _ _ _ => .pure trivial
  unfold toggleAct
  split
  · exact goOn true s
  · exact goOn false s
  · refine Act.Ensures.bind (Act.Ensures.map (Q := fun _ _ => True)
      (Act.getBool_ensures ⟨rfl, rfl⟩ fun _ => trivial)) fun b s' _ => ?_
    exact goOn b s'
  · exact .pure trivial

/-- A loop stops early only if it was to count past the largest integer. -/
theorem forLoopAct_ensures (first : Bool) (i : Int64)
    (hstop : first = false → i = Int64.maxValue → Stops overflow) :
    (forLoopAct first).Ensures (Turn.Of · forLoopNode) i (fun _ _ => True) Stops := by
  have hstart : forLoopNode.Declares "Start" .int := ⟨rfl, rfl⟩
  have hend : forLoopNode.Declares "End" .int := ⟨rfl, rfl⟩
  have hindex : forLoopNode.Links "CurrentIndex" .int := ⟨_, rfl, rfl⟩
  have hout : position? (·.name == "Out") forLoopNode.outputs = some 0 := rfl
  have hfinished : position? (·.name == "Finished") forLoopNode.outputs = some 1 := rfl
  have goOn (i : Int64) : (do
      let current ← get
      if (← Act.getInt "End") < current then
        Act.fire "Finished"
        return false
      Act.write "CurrentIndex" (.int current)
      Act.pushOutput "Out"
      Act.ask .pushSelf
      return false : Act Int64 Bool).Ensures (Turn.Of · forLoopNode) i (fun _ _ => True) Stops := by
    refine Act.Ensures.bind (Act.Ensures.get (Q := fun _ _ => True) trivial) ?_
    intro current i _
    refine Act.Ensures.bind (Act.getInt_ensures (Q := fun _ _ => True) hend fun _ => trivial) ?_
    intro last i _
    split
    · refine Act.Ensures.bind (Act.fire_ensures (Q := fun _ _ => True) hfinished trivial) ?_
      exact fun _ _ _ => .pure trivial
    · refine Act.Ensures.bind (Act.write_ensures (Q := fun _ _ => True) hindex trivial) ?_
      intro _ i _
      refine Act.Ensures.bind (Act.pushOutput_ensures (Q := fun _ _ => True) hout trivial) ?_
      intro _ i _
      refine Act.Ensures.bind
        (Act.ask_ensures (r := .pushSelf) (Q := fun _ _ => True) trivial fun _ => trivial) ?_
      exact fun _ _ _ => .pure trivial
  unfold forLoopAct
  cases first with
  | true =>
    refine Act.Ensures.bind (Act.getInt_ensures (Q := fun _ _ => True) hstart fun _ => trivial) ?_
    intro start i _
    refine Act.Ensures.bind (Act.Ensures.set (Q := fun _ _ => True) trivial) ?_
    exact fun _ i _ => goOn i
  | false =>
    refine Act.Ensures.bind (Act.Ensures.get (Q := fun current _ => current = i) rfl) ?_
    rintro current i' rfl
    refine Act.Ensures.bind
      (successor_ensures (Q := fun _ _ => True) (fun _ => trivial) (hstop rfl)) ?_
    intro next i' _
    refine Act.Ensures.bind (Act.Ensures.set (Q := fun _ _ => True) trivial) ?_
    exact fun _ i _ => goOn i

theorem delayAct_ensures (input : Option Nat) (first : Bool) (countdown : Countdown) :
    (delayAct input first).Ensures (Turn.Of · delayNode) countdown (fun _ _ => True) Stops := by
  have hdelay : delayNode.Declares "Delay" .float := ⟨rfl, rfl⟩
  have hout : position? (·.name == "Out") delayNode.outputs = some 0 := rfl
  have hcancelled : position? (·.name == "Cancelled") delayNode.outputs = some 1 := rfl
  -- Whatever fires, the countdown is stopped first.
  have stop {name : String} {index : Nat}
      (ho : position? (·.name == name) delayNode.outputs = some index) (countdown : Countdown) :
      (do
        modify ({ · with running := false })
        Act.fire name
        return false : Act Countdown Bool).Ensures (Turn.Of · delayNode) countdown
          (fun _ _ => True) Stops := by
    refine Act.Ensures.bind (Act.Ensures.modify (Q := fun _ _ => True) trivial) ?_
    intro _ countdown _
    refine Act.Ensures.bind (Act.fire_ensures (Q := fun _ _ => True) ho trivial) ?_
    exact fun _ _ _ => .pure trivial
  unfold delayAct
  split
  · refine Act.Ensures.bind (Act.Ensures.get (Q := fun _ _ => True) trivial) ?_
    intro current countdown _
    split
    · exact stop hcancelled countdown
    · exact .pure trivial
  refine Act.Ensures.bind
    (Act.ask_ensures (r := .tick) (Q := fun _ _ => True) trivial fun _ => trivial) ?_
  intro tick countdown _
  split
  · refine Act.Ensures.bind (Act.Ensures.set (Q := fun _ _ => True) trivial) ?_
    intro _ countdown _
    refine Act.Ensures.bind
      (Act.getFloat_ensures (Q := fun _ _ => True) hdelay fun _ => trivial) ?_
    intro delay countdown _
    split
    · exact stop hout countdown
    · exact .pure trivial
  refine Act.Ensures.bind (Act.Ensures.get (Q := fun _ _ => True) trivial) ?_
  intro current countdown _
  split
  · exact .pure trivial
  refine Act.Ensures.bind
    (Act.ask_ensures (r := .simDelta) (Q := fun _ _ => True) trivial fun _ => trivial) ?_
  intro delta countdown _
  refine Act.Ensures.bind (Act.Ensures.set (Q := fun _ _ => True) trivial) ?_
  intro _ countdown _
  refine Act.Ensures.bind
    (Act.getFloat_ensures (Q := fun _ _ => True) hdelay fun _ => trivial) ?_
  intro delay countdown _
  split
  · exact stop hout countdown
  · exact .pure trivial

theorem branchAct_ensures :
    (branchAct : Act σ Bool).Ensures (Turn.Of · branchNode) s (fun _ _ => True) Stops := by
  have hcondition : branchNode.Declares "Condition" .bool := ⟨rfl, rfl⟩
  have htrue : position? (·.name == "True") branchNode.outputs = some 0 := rfl
  have hfalse : position? (·.name == "False") branchNode.outputs = some 1 := rfl
  refine Act.Ensures.bind
    (Act.getBool_ensures (Q := fun _ _ => True) hcondition fun _ => trivial) ?_
  intro condition s _
  cases condition with
  | true =>
    refine Act.Ensures.bind (Act.fire_ensures (Q := fun _ _ => True) htrue trivial) ?_
    exact fun _ _ _ => .pure trivial
  | false =>
    refine Act.Ensures.bind (Act.fire_ensures (Q := fun _ _ => True) hfalse trivial) ?_
    exact fun _ _ _ => .pure trivial

theorem callRemoteEventAct_ensures :
    (callRemoteEventAct : Act σ Bool).Ensures (Turn.Of · callRemoteEventNode) s
      (fun _ _ => True) Stops := by
  have hname : callRemoteEventNode.Declares eventNameProperty .string := ⟨_, rfl, rfl⟩
  have hlocal : callRemoteEventNode.Declares "LocalOnly" .bool := ⟨_, rfl, rfl⟩
  have hout : position? (·.name == "Out") callRemoteEventNode.outputs = some 0 := rfl
  refine Act.Ensures.bind
    (Act.getString_ensures (Q := fun _ _ => True) hname fun _ => trivial) ?_
  intro name s _
  refine Act.Ensures.bind (Act.getBool_ensures (Q := fun _ _ => True) hlocal fun _ => trivial) ?_
  intro nested s _
  refine Act.Ensures.bind (Act.ask_ensures (Q := fun _ _ => True) trivial fun _ => trivial) ?_
  intro _ s _
  refine Act.Ensures.bind (Act.fire_ensures (Q := fun _ _ => True) hout trivial) ?_
  exact fun _ _ _ => .pure trivial

theorem addParams_ensures (message : Message) : ∀ (n : Nat) (s : σ),
    (addParams n message : Act σ Message).Ensures (Turn.Of · described) s (fun _ _ => True) Stops
  | 0, _ => .pure trivial
  | n + 1, s => by
    refine Act.Ensures.bind (addParams_ensures message n s) fun filled s _ => ?_
    refine Act.Ensures.bind
      (Act.ask_ensures (r := .slot "Param" n) (Q := fun _ _ => True) trivial fun _ => trivial) ?_
    intro value s _
    cases value with
    | some value => exact .pure trivial
    | none => exact .pure trivial

theorem sendMessageAct_ensures : (sendMessageAct : Act σ Bool).Ensures (Turn.Of · sendMessageNode) s
    (fun _ _ => True) Stops := by
  have hname : sendMessageNode.Declares "MessageName" .string := ⟨_, rfl, rfl⟩
  have hout : position? (·.name == "Out") sendMessageNode.outputs = some 0 := rfl
  have asks {r : Request} (hr : sendMessageNode.Permits r) (s : σ) :
      (Act.ask r : Act σ r.Answer).Ensures (Turn.Of · sendMessageNode) s (fun _ _ => True) Stops :=
    Act.ask_ensures hr fun _ => trivial
  refine Act.Ensures.bind
    (Act.getString_ensures (Q := fun _ _ => True) hname fun _ => trivial) ?_
  intro name s _
  have hmessage : (Act.message name : Act σ Message).Ensures (Turn.Of · sendMessageNode) s
      (fun _ _ => True) Stops := by
    refine Act.Ensures.bind (asks (r := .graph) trivial s) fun _ s _ => ?_
    refine Act.Ensures.bind (asks (r := .node) trivial s) fun _ s _ => ?_
    refine Act.Ensures.bind (asks (r := .tick) trivial s) fun _ s _ => ?_
    exact .pure trivial
  refine Act.Ensures.bind hmessage fun message s _ => ?_
  refine Act.Ensures.bind (asks (r := .slotCount "Param") trivial s) fun count s _ => ?_
  refine Act.Ensures.bind (addParams_ensures message count s) fun filled s _ => ?_
  refine Act.Ensures.bind (asks (r := .send filled) trivial s) fun _ s _ => ?_
  refine Act.Ensures.bind (Act.fire_ensures (Q := fun _ _ => True) hout trivial) ?_
  exact fun _ _ _ => .pure trivial

/-- A switch stops early only if it has an output for every integer. -/
theorem switchAct_ensures (properties : PropertySet) (input : Option Nat)
    (hstop : 2 ^ 63 - 1 ≤ (switchNode properties).outputs.length → Stops overflow) :
    (switchAct input : Act σ Bool).Ensures (Turn.Of · (switchNode properties)) s
      (fun _ _ => True) Stops := by
  have hindex : (switchNode properties).Declares "CurrentIndex" .int := ⟨rfl, rfl⟩
  have hlooping : (switchNode properties).Declares "Looping" .bool := ⟨_, rfl, rfl⟩
  have hwritten : (switchNode properties).Links "CurrentIndex" .int := ⟨_, rfl, rfl⟩
  have goOn (index : Int64) (s : σ) (h : index = Int64.maxValue →
      2 ^ 63 - 1 ≤ (switchNode properties).outputs.length) : (do
        let _ ← Act.pulse (index.toInt - 1).toNat
        Act.write "CurrentIndex" (.int (← successor index))
        return false : Act σ Bool).Ensures (Turn.Of · (switchNode properties)) s
          (fun _ _ => True) Stops := by
    refine Act.Ensures.bind (Act.ask_ensures (r := .pulse (index.toInt - 1).toNat)
      (Q := fun _ _ => True) trivial fun _ => trivial) ?_
    intro _ s _
    refine Act.Ensures.bind (successor_ensures (Q := fun _ _ => True) (fun _ => trivial)
      fun heq => hstop (h heq)) ?_
    intro next s _
    refine Act.Ensures.bind (Act.write_ensures (Q := fun _ _ => True) hwritten trivial) ?_
    exact fun _ _ _ => .pure trivial
  unfold switchAct
  split
  · refine Act.Ensures.bind (Act.write_ensures (Q := fun _ _ => True) hwritten trivial) ?_
    exact fun _ _ _ => .pure trivial
  have hask : (Act.ask .outputCount : Act σ Nat).Ensures (Turn.Of · (switchNode properties)) s
      (fun count _ => count = (switchNode properties).outputs.length) Stops := by
    refine .ask fun turn h => ⟨h.answer trivial, ?_⟩
    obtain ⟨node, hn, hof⟩ := h.node
    simp only [Turn.answer, hn, Option.elim_some]
    exact hof.length_outputs
  refine Act.Ensures.bind hask ?_
  intro (count : Nat) s (hcount : count = (switchNode properties).outputs.length)
  refine Act.Ensures.bind (Act.getInt_ensures (Q := fun _ _ => True) hindex fun _ => trivial) ?_
  intro stored s _
  split
  · refine Act.Ensures.bind
      (Act.getBool_ensures (Q := fun _ _ => True) hlooping fun _ => trivial) ?_
    intro looping s _
    split
    · exact goOn 1 s fun h => absurd h (by decide)
    · exact .pure trivial
  · rename_i hroom
    refine goOn (max stored 1) s fun h => ?_
    have hstored : stored = Int64.maxValue := by
      have hmax : (if stored ≤ 1 then 1 else stored) = Int64.maxValue := h
      split at hmax
      · exact absurd hmax (by decide)
      · exact hmax
    have hlargest : stored.toInt = 2 ^ 63 - 1 := by
      rw [hstored]
      decide
    omega

/-- Why a call of a described node can stop early: a loop counts past the largest integer, or a
switch has an output for every integer. -/
def Overflows (described : NodeBuilder Standard) (behavior : Standard) (first : Bool)
    (stop : Stop) : Prop :=
  stop = overflow ∧ (described.outputs.length < 2 ^ 63 - 1 →
    described.type = coreType "For Loop" ∧ behavior = forLoop Int64.maxValue ∧ first = false)

theorem started_ensures {Inv : Turn Standard → Prop} {act : Act σ Bool} {Stops : Stop → Prop}
    {wrap : σ → Standard} {start : Standard} (hw : ∀ s, (wrap s).blank = start)
    (h : act.Ensures Inv s (fun _ _ => True) Stops) :
    ((fun ended => (ended.1, wrap ended.2)) <$> act.start s).Ensures Inv fun ended =>
      ended.2.blank = start ∧ ∀ stop, ended.1 = .error stop → Stops stop :=
  Program.Ensures.map (Program.Ensures.imp h.stops fun _ hended => ⟨hw _, hended⟩)

/-- What a call of a behavior ensures: the behavior stays the same but for its private state, and if
it stops early, then by an overflow. -/
theorem react_ensures {entry : TypeId × Factory Standard} (he : entry ∈ catalog)
    (properties : PropertySet) {behavior : Standard}
    (hb : behavior.blank = (entry.2 properties).behavior) (input : Option Nat) (first : Bool) :
    (react behavior input first).Ensures (Turn.Of · (entry.2 properties)) fun ended =>
      ended.2.blank = behavior.blank
        ∧ ∀ stop, ended.1 = .error stop →
          Overflows (entry.2 properties) behavior first stop := by
  simp only [catalog, List.mem_cons, List.not_mem_nil, or_false] at he
  rcases he with rfl | rfl | rfl | rfl | rfl | rfl | rfl | rfl | rfl | rfl | rfl | rfl | rfl | rfl |
    rfl | rfl
  · obtain rfl := eq_of_blank hb rfl
    exact started_ensures (fun _ => rfl) (toggleAct_ensures input)
  · cases behavior <;> cases hb
    rename_i current
    refine started_ensures (fun _ => rfl) (forLoopAct_ensures first current ?_)
    rintro rfl rfl
    exact ⟨rfl, fun _ => ⟨rfl, rfl, rfl⟩⟩
  · obtain rfl := eq_of_blank hb rfl
    refine started_ensures (fun _ => rfl) (switchAct_ensures properties input fun h => ?_)
    exact ⟨rfl, fun hlt => absurd hlt (Nat.not_lt.2 h)⟩
  · cases behavior <;> cases hb
    exact started_ensures (fun _ => rfl) (delayAct_ensures input first _)
  · obtain rfl := eq_of_blank hb rfl
    exact started_ensures (fun _ => rfl) branchAct_ensures
  · obtain rfl := eq_of_blank hb rfl
    exact started_ensures (fun _ => rfl) fireOutputsAct_ensures
  · obtain rfl := eq_of_blank hb rfl
    exact started_ensures (fun _ => rfl) fireOutputsAct_ensures
  · obtain rfl := eq_of_blank hb rfl
    exact started_ensures (fun _ => rfl) callRemoteEventAct_ensures
  · obtain rfl := eq_of_blank hb rfl
    exact started_ensures (fun _ => rfl) (passThroughAct_ensures "Input")
  · obtain rfl := eq_of_blank hb rfl
    exact started_ensures (fun _ => rfl) (passThroughAct_ensures "Output")
  · obtain rfl := eq_of_blank hb rfl
    exact started_ensures (fun _ => rfl) sendMessageAct_ensures
  all_goals
    obtain rfl := eq_of_blank hb rfl
    exact Program.Ensures.done ⟨rfl, fun _ h => by cases h⟩

end Standard

end FlowScript
