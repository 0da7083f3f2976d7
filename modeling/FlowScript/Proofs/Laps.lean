import FlowScript.Agent
import FlowScript.Proofs.Frames
import FlowScript.Proofs.Iteration

/-!
# The run of a loop

A loop is no loop of the engine: each call of it opens a frame that calls it again. Everything above
that frame is drained first (`Drain.exists_lap`), so a run of a loop is made of laps, each a call
and what it leads to (`Drain.exists_laps`).
-/

namespace FlowScript

variable {β : Type} [Behavior β]

open Moment

namespace Moment

variable {id : NodeId} {m : Moment β}

theorem Iterates.not_closes {out : OutputLink} {index : Int64} {call : Call β}
    (h : m.Iterates out index call) : ¬ m.Closes id := by
  rintro ⟨-, -, hresumed⟩
  rw [h.queued.1] at hresumed
  exact hresumed (List.mem_append_right _ List.mem_cons_self)

end Moment

/-! ## Laps -/

/-- One lap of a loop: a call of it, and what is handled until its next call. -/
structure Lap (β : Type) where
  call : Moment β
  body : List (Moment β)

namespace Lap

def moments (lap : Lap β) : List (Moment β) := lap.call :: lap.body

/-- The lap of a loop at an index: its call writes the index and resumes the loop. -/
structure At (lap : Lap β) (out : OutputLink) (a : Activation) (index : Int64) : Prop where
  activation : lap.call.activation = a
  /-- What the call writes is there when the body begins. -/
  iterates : ∃ call, lap.call.Iterates out index call ∧ ∀ m ∈ lap.body.head?,
    ∃ book : Node β → Node β, (∀ n : Node β, n.Booked (book n))
      ∧ m.director.script = call.turn.script.modifyNode a.node book
  /-- In between the loop is not called. -/
  apart : ∀ m ∈ lap.body, m.activation.node = a.node → m.isInvoked = false
  /-- All that `Out` is connected to is handled, and all that enters frames meanwhile. -/
  drained : (lap.body.map (·.activation)).Perm
    (out.targets ++ lap.body.flatMap Moment.entered)

end Lap

/-- The laps of a loop that is at an index, and the call that ends its run. Past its end a loop
finishes; one that has no next index fails. -/
inductive Laps (out finished : OutputLink) (stop : Int64) :
    Activation → Int → List (Lap β) → Moment β → Prop where
  | ends {a : Activation} {index : Int} {last : Moment β} (activation : last.activation = a)
      (past : stop.toInt < index) (deep : a.first = false → last.depth ≠ 0)
      (finishes : index ≤ Int64.maxValue.toInt → ∃ call, last.Finishes finished call)
      (overflows : Int64.maxValue.toInt < index →
        last.outcome.1 = .failed ∧ ∃ call, last.Overflows call) :
      Laps out finished stop a index [] last
  | lap {a : Activation} {index : Int64} {lap : Lap β} {laps : List (Lap β)}
      {last : Moment β} (within : index ≤ stop) (runs : lap.At out a index)
      (rest : Laps out finished stop a.resumed (index.toInt + 1) laps last) :
      Laps out finished stop a index.toInt (lap :: laps) last

namespace Laps

variable {out finished : OutputLink} {stop : Int64} {a : Activation} {index : Int}
  {laps : List (Lap β)} {last : Moment β}

/-- A loop takes as many laps as there are indices left. -/
theorem length (h : Laps out finished stop a index laps last) :
    laps.length = (stop.toInt - index + 1).toNat := by
  induction h with
  | ends activation past deep finishes overflows =>
    rw [List.length_nil]
    omega
  | @lap a index lap laps last within runs rest ih =>
    have hle := Int64.le_iff_toInt_le.1 within
    rw [List.length_cons, ih]
    omega

/-- The laps take the indices one after another. -/
theorem getElem (h : Laps out finished stop a index laps last) :
    ∀ (k : Nat) (hk : k < laps.length), ∃ i : Int64, i.toInt = index + k
      ∧ laps[k].At out (if k = 0 then a else a.resumed) i := by
  induction h with
  | ends => exact fun k hk => absurd hk (Nat.not_lt_zero k)
  | @lap a index lap laps last within runs rest ih =>
    rintro (_ | k) hk
    · exact ⟨index, (Int.add_zero _).symm, runs⟩
    · obtain ⟨i, hi, hlap⟩ := ih k (Nat.lt_of_succ_lt_succ hk)
      refine ⟨i, by push_cast; omega, ?_⟩
      rw [List.getElem_cons_succ, if_neg k.succ_ne_zero]
      split at hlap <;> exact hlap

/-- Only the last call ends the run. -/
theorem closes (h : Laps out finished stop a index laps last) :
    last.Closes a.node ∧ last.activation.node = a.node
      ∧ (∀ m ∈ laps.flatMap Lap.moments, ¬ m.Closes a.node) := by
  induction h with
  | @ends a index last activation past deep finishes overflows =>
    refine ⟨?_, congrArg Activation.node activation, List.forall_mem_nil _⟩
    by_cases hlt : Int64.maxValue.toInt < index
    · obtain ⟨-, call, hoverflows⟩ := overflows hlt
      refine ⟨isInvoked_of_made hoverflows.made, congrArg Activation.node activation,
        fun hmem => ?_⟩
      rw [hoverflows.queued.2] at hmem
      cases hmem
    · obtain ⟨call, hfinishes⟩ := finishes (Int.not_lt.1 hlt)
      refine ⟨isInvoked_of_made hfinishes.made, congrArg Activation.node activation,
        fun hmem => ?_⟩
      rw [hfinishes.queued.1] at hmem
      split at hmem
      · cases hmem
      · exact Bool.false_ne_true (OutputLink.first_of_mem_targets hmem)
  | @lap a index lap laps last within runs rest ih =>
    obtain ⟨hcloses, hnode, hopen⟩ := ih
    refine ⟨hcloses, hnode, ?_⟩
    rw [List.flatMap_cons, Lap.moments, List.cons_append]
    refine List.forall_mem_cons.2 ⟨?_, List.forall_mem_append.2 ⟨fun m hm => ?_, hopen⟩⟩
    · obtain ⟨call, hiterates, -⟩ := runs.iterates
      exact hiterates.not_closes
    · rintro ⟨hinvoked, hcalled, -⟩
      rw [runs.apart m hm hcalled] at hinvoked
      cases hinvoked

theorem countP (h : Laps out finished stop a index laps last) :
    (laps.flatMap Lap.moments ++ [last]).countP
      (fun m => m.activation.node = a.node ∧ m.isInvoked = true) = laps.length + 1 := by
  have hlast := h.closes
  induction h with
  | ends activation past deep finishes overflows => simp [hlast.2.1, hlast.1.1]
  | @lap a index lap laps last within runs rest ih =>
    obtain ⟨call, hiterates, -⟩ := runs.iterates
    have hbody : lap.body.countP
        (fun m => m.activation.node = a.node ∧ m.isInvoked = true) = 0 := by
      refine List.countP_eq_zero.2 fun m hm => ?_
      simpa using fun hcalled => runs.apart m hm hcalled
    have hcall : lap.call.activation.node = a.node := congrArg Activation.node runs.activation
    have hrest : (laps.flatMap Lap.moments ++ [last]).countP
        (fun m => m.activation.node = a.node ∧ m.isInvoked = true) = laps.length + 1 :=
      ih rest.closes
    rw [List.flatMap_cons, Lap.moments, List.cons_append, List.cons_append, List.append_assoc,
      List.countP_cons, List.countP_append, hbody, hrest]
    simp [hcall, isInvoked_of_made hiterates.made]

theorem finishes (h : Laps out finished stop a index laps last) (hstop : stop ≠ Int64.maxValue)
    (hindex : index ≤ Int64.maxValue.toInt) : ∃ call, last.Finishes finished call := by
  induction h with
  | ends activation past deep finishes overflows => exact finishes hindex
  | lap within runs rest ih =>
    have hle := Int64.le_iff_toInt_le.1 within
    have hmax := stop.toInt_le
    have hne : stop.toInt ≠ Int64.maxValue.toInt := fun heq => hstop (Int64.toInt_inj.1 heq)
    exact ih (by omega)

theorem overflows (h : Laps out finished stop a index laps last) (hstop : stop = Int64.maxValue) :
    last.outcome.1 = .failed ∧ ∃ call, last.Overflows call := by
  induction h with
  | ends activation past deep finishes overflows => exact overflows (hstop ▸ past)
  | lap within runs rest ih => exact ih

/-- A loop that counts at all ends in a frame. -/
theorem depth (h : Laps out finished stop a index laps last)
    (counts : index ≤ stop.toInt ∨ a.first = false) : last.depth ≠ 0 := by
  induction h with
  | ends activation past deep finishes overflows =>
    exact deep (counts.resolve_left (Int.not_le.2 past))
  | lap within runs rest ih => exact ih (.inr rfl)

end Laps

/-! ## The run of a loop -/

/-- Until its run ends, which it does, a loop that is at work calls itself only, and finds the same
integer at each read of its end. -/
structure Moment.Undisturbed (id : NodeId) (stop : Int64) (ending : Except Halt Report)
    (history : List (Moment β)) : Prop where
  ends : Ends id ending history
  only : ∀ m ∈ (runOf id history).tail, m.activation.node = id → m.isInvoked = true →
    m.activation.first = false
  /-- A call that panics comes to no read. -/
  reads : ∀ m ∈ runOf id history, m.activation.node = id → ∀ call, m.call? = some call →
    (∀ text, call.verdict ≠ .error (.panicked text)) →
    m.director.script.property? id "End" = some (.int stop)

theorem Moment.Undisturbed.later {id : NodeId} {stop : Int64} {ending : Except Halt Report}
    {m : Moment β} {body later : List (Moment β)}
    (h : Undisturbed id stop ending (m :: (body ++ later))) (hm : ¬ m.Closes id)
    (hbody : ∀ m ∈ body, ¬ m.Closes id) : Undisturbed id stop ending later := by
  have hrun : runOf id (m :: (body ++ later)) = m :: (body ++ runOf id later) := by
    rw [runOf_of_not_closes hm, runOf_append hbody]
  obtain ⟨hends, honly, hreads⟩ := h
  rw [hrun] at honly hreads
  refine ⟨(hends.tail hm).append hbody, fun m' hm' => honly m' ?_, fun m' hm' => hreads m' ?_⟩
  · exact List.mem_append_right _ (List.mem_of_mem_tail hm')
  · exact List.mem_cons_of_mem _ (List.mem_append_right _ hm')

namespace Drain

/-- The tick takes an activation of a loop. -/
structure Takes (drain : Drain β) (loop : Int64 → β) (out finished : OutputLink) (a : Activation)
    (rest : Drain β) (node : Node β) (current : Int64) : Prop where
  next : drain.next? = some (a, rest)
  caught : drain.director.config.catchPanics = true
  target : (rest.moment a).target? = some node
  behavior : node.behavior = some (loop current)
  outputs : node.outputs = [out, finished]
  /-- A loop that is resumed is in a frame. -/
  deep : a.first = false → rest.stack.length ≠ 0

variable {loop : Int64 → β} {out finished : OutputLink} {a : Activation} {drain rest next : Drain β}
  {node : Node β} {current index stop : Int64}

namespace Takes

omit [Behavior β] in
theorem caught_moment (h : drain.Takes loop out finished a rest node current) :
    (rest.moment a).director.config.catchPanics = true := by
  rw [moment, (next?_eq_some h.next).1]
  exact h.caught

theorem goes (h : drain.Takes loop out finished a rest node current) :
    ∃ next, rest.handle a = .inl next := by
  have hgoes := goes_of_caught h.caught_moment h.target h.behavior
  rcases hh : rest.handle a with next | ending
  · exact ⟨next, rfl⟩
  · rcases fate_of_handle hh with ⟨reason, hf⟩ | ⟨text, hf, -⟩ <;>
      · rw [hf] at hgoes
        exact absurd trivial hgoes

end Takes

/-- What a loop leaves on the stack: the frame of what `Out` is connected to, above the frame that
resumes the loop. -/
theorem Handles.stack_of_iterates (h : rest.Handles a next) {call : Call β}
    (hc : (rest.moment a).Iterates out index call) :
    ∃ below, next.stack = framed out.targets ++ [a.resumed] :: below := by
  cases h with
  | discarded target =>
    have hmade := hc.made
    rw [call?, target] at hmade
    cases hmade
  | failed node call' script error target made verdict fate =>
    rw [Option.some.inj (made.symm.trans hc.made), Call.error?, hc.verdict] at verdict
    cases verdict
  | completed node call' script latent target made verdict after spent =>
    obtain rfl := Option.some.inj (made.symm.trans hc.made)
    have hframes : (call'.effects latent).frames = framed out.targets ++ [[a.resumed]] := hc.frames
    have hfired : (call'.effects latent).fired = [] := hc.fired
    have hopened := schedule_opened
      (rest.accept ((rest.moment a).after node call' script) latent) a (call'.effects latent)
      (by simp [hframes])
    refine ⟨closed rest.stack, hopened.trans ?_⟩
    rw [hframes, hfired]
    simp [accept]

omit [Behavior β] in
/-- A loop that waits in a frame of its own above others is taken again. -/
theorem Takes.again (h : drain.Takes loop out finished a rest node current) {mid : Drain β}
    {below : List (List Activation)} (hs : mid.stack = [a.resumed] :: below)
    (hconfig : mid.director.config = drain.director.config)
    (hskeleton : mid.director.script.skeleton = rest.director.script.skeleton)
    (hl : mid.director.script.LoopsAt loop out finished a.node index) :
    ∃ node', mid.Takes loop out finished a.resumed { mid with stack := [] :: below } node'
      index := by
  obtain ⟨node', hn', hb', ho'⟩ := hl
  obtain ⟨hn, haccepts⟩ := target?_eq_some.1 h.target
  obtain ⟨same, hsame, heq⟩ := Script.node?_of_skeleton hskeleton hn'
  obtain rfl := Option.some.inj (hn.symm.trans hsame)
  refine ⟨node', by rw [next?, hs], hconfig ▸ h.caught, ?_, hb', ho', fun _ => Nat.succ_ne_zero _⟩
  refine target?_eq_some.2 ⟨hn', ?_⟩
  rw [Node.accepts_of_skeleton heq]
  exact haccepts

/-- A loop that is resumed at the largest index fails. -/
theorem Takes.overflows (h : drain.Takes loop out finished a rest node Int64.maxValue)
    (counts : Counts loop) (exits : Exits out finished) (hf : a.first = false) {fuel : Nat}
    {ending : Ending β} (hrun : drain.run fuel = some ending) :
    ∃ later, drain.history fuel = rest.moment a :: later ∧ (rest.moment a).outcome.1 = .failed
      ∧ ∃ call, (rest.moment a).Overflows call := by
  obtain _ | fuel := fuel
  · simp [run] at hrun
  obtain ⟨next, hh⟩ := h.goes
  obtain ⟨call, hover, -⟩ :=
    (rest.moment a).overflows counts exits h.target h.behavior h.outputs hf rfl
  refine ⟨next.history fuel, (handle_first h.next hh fuel).1, ?_, call, hover⟩
  rw [outcome_of_error h.target h.behavior hover.made hover.error fun _ _ => h.caught_moment]

/-- A loop within its bounds takes a lap: what its call leads to is handled, and then it is called
again. -/
theorem exists_lap (counts : Counts loop) (exits : Exits out finished)
    {ending : Except Halt Report} {after : Director β} {fuel : Nat}
    (ht : drain.Takes loop out finished a rest node current)
    (hi : (Standard.forLoopAct a.first).result current ((rest.moment a).start node)
      = Standard.iterateAct.result index ((rest.moment a).start node))
    (hrun : drain.run (fuel + 1) = some (ending, after))
    (hu : Undisturbed a.node stop ending (drain.history (fuel + 1)))
    (hstop : rest.director.script.property? a.node "End" = some (.int stop))
    (hle : index ≤ stop) :
    ∃ (lap : Lap β) (mid : Drain β) (below : List (List Activation)) (left : Nat) (node' : Node β),
      drain.history (fuel + 1) = lap.moments ++ mid.history left ∧ lap.At out a index
        ∧ mid.run left = some (ending, after) ∧ Undisturbed a.node stop ending (mid.history left)
        ∧ mid.Takes loop out finished a.resumed { mid with stack := [] :: below } node' index := by
  obtain ⟨next, hh⟩ := ht.goes
  obtain ⟨hhistory, hrun'⟩ := handle_first ht.next hh fuel
  rw [hrun'] at hrun
  rw [hhistory] at hu ⊢
  obtain ⟨call, hiterates, hnext⟩ := (rest.moment a).iterates counts exits ht.target ht.behavior
    ht.outputs hi hstop hle
  have hhandles := handles_of_handle hh
  have hscript := rest.handle_script a
  rw [hh, Sum.elim_inl] at hscript
  have hopen : ¬ (rest.moment a).Closes a.node := hiterates.not_closes
  obtain ⟨below, hstack⟩ := hhandles.stack_of_iterates hiterates
  obtain ⟨body, mid, left, hbody, hleft, hclears⟩ := drained_above hstack hrun (hu.ends.tail hopen)
    (fun m hm => hu.only m (by rw [runOf_of_not_closes hopen]; exact hm))
    (fun b hb _ => OutputLink.first_of_mem_targets (flatten_framed out.targets ▸ hb))
  rw [hbody] at hu ⊢
  rw [hleft] at hrun
  -- What the call leaves behind is still there when the body is over.
  have hloops := loops_outcome exits ht.caught_moment ht.target ht.behavior ht.outputs hnext
  rw [← hscript] at hloops
  have hskeleton : next.director.script.skeleton = rest.director.script.skeleton :=
    hscript ▸ Script.skeleton_lasting.outcome (rest.moment a)
  have hloops' : mid.director.script.LoopsAt loop out finished a.node index := by
    refine hloops.spared hclears.spares ?_
    rintro ⟨m, hm, hnode, hinvoked⟩
    rw [hclears.apart m hm hnode] at hinvoked
    cases hinvoked
  have hconfig : mid.director.config = drain.director.config := hclears.config.trans
    (hhandles.unbroken.2.trans (congrArg Director.config (next?_eq_some ht.next).1))
  obtain ⟨node', hagain⟩ := ht.again hclears.stack hconfig
    (hclears.spares.skeleton.trans hskeleton) hloops'
  refine ⟨⟨rest.moment a, body⟩, mid, below, left, node', rfl, ?_, hrun,
    hu.later hopen hclears.not_closes, hagain⟩
  obtain ⟨book, hbook, hkept⟩ :=
    kept_of_caught ht.caught_moment ht.target ht.behavior hiterates.made
  refine ⟨rfl, ⟨call, hiterates, fun m hm => ⟨book, hbook, ?_⟩⟩, hclears.apart, ?_⟩
  · rw [hclears.begins m hm, hscript, hkept]
    rfl
  · rw [← flatten_framed out.targets]
    exact hclears.drained

/-- The run of a loop that is at an index is made of laps: the induction is on how many indices
are left. -/
theorem exists_laps (counts : Counts loop) (exits : Exits out finished)
    {ending : Except Halt Report} {after : Director β} {fuel : Nat}
    (ht : drain.Takes loop out finished a rest node current)
    (hi : (Standard.forLoopAct a.first).result current ((rest.moment a).start node)
      = Standard.iterateAct.result index ((rest.moment a).start node))
    (hrun : drain.run fuel = some (ending, after))
    (hu : Undisturbed a.node stop ending (drain.history fuel)) :
    ∃ laps last later, drain.history fuel = laps.flatMap Lap.moments ++ last :: later
      ∧ Laps out finished stop a index.toInt laps last := by
  induction hleft : (stop.toInt - index.toInt + 1).toNat using Nat.strongRecOn
    generalizing index current drain rest a node fuel with
  | ind left ih =>
  obtain _ | fuel := fuel
  · simp [run] at hrun
  obtain ⟨next, hh⟩ := ht.goes
  obtain ⟨hhistory, -⟩ := handle_first ht.next hh fuel
  obtain ⟨hmade, -⟩ := call?_of_result counts ht.target ht.behavior hi
  have hstop : rest.director.script.property? a.node "End" = some (.int stop) := by
    refine hu.reads (rest.moment a) (hhistory ▸ List.mem_cons_self) rfl _ hmade fun text => ?_
    exact (Standard.iterateAct_still index ((rest.moment a).start node) trivial).2.2 text
  have hmax := index.toInt_le
  by_cases hle : index ≤ stop
  · obtain ⟨lap, mid, below, left', node', hlap, hat, hrun', hu', hagain⟩ :=
      exists_lap counts exits ht hi hrun hu hstop hle
    have hlaps : ∃ laps last later,
        mid.history left' = laps.flatMap Lap.moments ++ last :: later
          ∧ Laps out finished stop a.resumed (index.toInt + 1) laps last := by
      by_cases hlast : index = Int64.maxValue
      · -- There is no next index, so the loop fails after this lap.
        subst hlast
        obtain ⟨later, hlater, hfailed⟩ := hagain.overflows counts exits rfl hrun'
        have hle' := stop.toInt_le
        exact ⟨[], _, later, hlater, .ends rfl (by omega) hagain.deep (fun hover => by omega)
          fun _ => hfailed⟩
      · rw [← Int64.toInt_succ hlast]
        have hle' := Int64.le_iff_toInt_le.1 hle
        have hsucc := Int64.toInt_succ hlast
        exact ih _ (by omega) hagain (Standard.result_resumed hlast) hrun' hu' rfl
    obtain ⟨laps, last, later, hlater, hlaps⟩ := hlaps
    exact ⟨lap :: laps, last, later,
      by rw [hlap, hlater, List.flatMap_cons, List.append_assoc], .lap hle hat hlaps⟩
  · have hlt := Int64.not_le.1 hle
    obtain ⟨call, hfinishes, -⟩ := (rest.moment a).finishes counts exits ht.target ht.behavior
      ht.outputs hi hstop hlt
    exact ⟨[], rest.moment a, next.history fuel, hhistory, .ends rfl (Int64.lt_iff_toInt_lt.1 hlt)
      ht.deep (fun _ => ⟨call, hfinishes⟩) fun hover => by omega⟩

/-- Whatever happens before, a loop stays a loop without pulses where panics are caught. -/
theorem loopsAt_of_step (counts : Counts loop) (exits : Exits out finished) {id : NodeId}
    (hs : drain.step = .inl next) (caught : drain.director.config.catchPanics = true)
    (hl : drain.director.script.LoopsAt loop out finished id index) :
    ∃ index', next.director.script.LoopsAt loop out finished id index' := by
  rcases hn : drain.next? with _ | ⟨a, rest⟩
  · rcases step_of_next?_none hn with ⟨stack, -, hstep⟩ | ⟨-, -, hstep⟩ <;> rw [hstep] at hs <;>
      cases hs
    exact ⟨index, hl⟩
  have hdirector := (next?_eq_some hn).1
  rw [step_of_next?_some hn] at hs
  have hscript := rest.handle_script a
  rw [hs, Sum.elim_inl] at hscript
  rw [← hdirector] at caught hl
  rw [hscript]
  by_cases hcalled : Moment.Calls [rest.moment a] id
  · obtain ⟨m, hm, rfl, hinvoked⟩ := hcalled
    obtain rfl := List.mem_singleton.1 hm
    obtain ⟨call, hmade⟩ := Option.isSome_iff_exists.1 hinvoked
    obtain ⟨node, behavior, ht, -, -, -⟩ := call?_eq_some hmade
    obtain ⟨node', hn', hb, ho⟩ := hl
    obtain rfl := Option.some.inj ((target?_eq_some.1 ht).1.symm.trans hn')
    have hanswered := (call?_of_result counts ht hb rfl).2
    exact ⟨_, loops_outcome exits caught ht hb ho (congrArg (·.1.2) hanswered)⟩
  · exact ⟨index, hl.spared (rest.moment a).spares hcalled⟩

theorem GoesOn.loopsAt (counts : Counts loop) (exits : Exits out finished) {id : NodeId}
    (h : drain.GoesOn next) (caught : drain.director.config.catchPanics = true)
    (hl : drain.director.script.LoopsAt loop out finished id index) :
    ∃ index', next.director.script.LoopsAt loop out finished id index' := by
  induction h with
  | refl => exact ⟨index, hl⟩
  | tail hgoes hstep ih =>
    obtain ⟨index', hl'⟩ := ih
    have hconfig := GoesOn.config hgoes
    exact loopsAt_of_step counts exits hstep (hconfig ▸ caught) hl'

end Drain

/-- The run of a loop from a fresh call on, when it counts from one integer to another: its laps,
the call that ends it and the rest of the tick. -/
structure LoopRun (out finished : OutputLink) (start stop : Int64) (ending : Except Halt Report)
    (after : Director β) (m : Moment β) (later : List (Moment β)) (laps : List (Lap β))
    (last : Moment β) (rest : List (Moment β)) : Prop where
  split : m :: later = laps.flatMap Lap.moments ++ last :: rest
  run : runOf m.activation.node (m :: later) = laps.flatMap Lap.moments ++ [last]
  length : laps.length = (stop.toInt - start.toInt + 1).toNat
  calls : (runOf m.activation.node (m :: later)).countP
    (fun m' => m'.activation.node = m.activation.node ∧ m'.isInvoked = true) = laps.length + 1
  each (k : Nat) (hk : k < laps.length) : ∃ index : Int64, index.toInt = start.toInt + k
    ∧ laps[k].At out (if k = 0 then m.activation else m.activation.resumed) index
  finishes : stop ≠ Int64.maxValue → ∃ call, last.Finishes finished call
  /-- What `Finished` is connected to is handled in this tick if the loop ran in a frame or counted
  at all. -/
  here : stop ≠ Int64.maxValue → start ≤ stop ∨ m.depth ≠ 0 →
    last.entered = finished.targets ∧ last.carried = []
      ∧ ∀ report, ending = .ok report → finished.targets.Subperm (rest.map (·.activation))
  /-- Otherwise it waits for the next tick. -/
  next : stop < start → m.depth = 0 → last.entered = [] ∧ last.carried = finished.targets
    ∧ ∀ report, ending = .ok report → finished.targets.Sublist after.nextWave
  overflows : stop = Int64.maxValue → last.outcome.1 = .failed ∧ last.entered = []
    ∧ last.carried = [] ∧ ∃ call, last.Overflows call

/-- The laps of a loop from its first index on make up its run. -/
theorem Laps.loopRun {out finished : OutputLink} {start stop : Int64}
    {ending : Except Halt Report} {after : Director β} {m last : Moment β}
    {later rest : List (Moment β)} {laps : List (Lap β)}
    (h : Laps out finished stop m.activation start.toInt laps last)
    (hsplit : m :: later = laps.flatMap Lap.moments ++ last :: rest)
    (entered : ∀ report, ending = .ok report → last.entered.Subperm (rest.map (·.activation)))
    (carried : ∀ report, ending = .ok report → last.carried.Sublist after.nextWave) :
    LoopRun out finished start stop ending after m later laps last rest := by
  have hrun : runOf m.activation.node (m :: later) = laps.flatMap Lap.moments ++ [last] := by
    rw [hsplit, runOf_append h.closes.2.2, runOf_of_closes h.closes.1]
  -- A loop that does not count at all makes its first call only.
  have honce : stop < start → last = m := by
    intro hlt
    have hlt' := Int64.lt_iff_toInt_lt.1 hlt
    have hnone : laps.length = 0 := by
      rw [h.length]
      omega
    rw [List.length_eq_zero_iff.1 hnone] at hsplit
    exact (List.cons.inj hsplit).1.symm
  refine ⟨hsplit, hrun, h.length, hrun ▸ h.countP, h.getElem,
    fun hstop => h.finishes hstop start.toInt_le, fun hstop hdeep => ?_, fun hlt hflat => ?_,
    fun hstop => ?_⟩
  · obtain ⟨call, hfinishes⟩ := h.finishes hstop start.toInt_le
    have hdepth : last.depth ≠ 0 := by
      rcases Decidable.em (start ≤ stop) with hle | hlt
      · exact h.depth (.inl (Int64.le_iff_toInt_le.1 hle))
      · rw [honce (Int64.not_le.1 hlt)]
        exact hdeep.resolve_left hlt
    obtain ⟨hentered, hcarried⟩ := hfinishes.queued
    rw [if_neg hdepth] at hentered hcarried
    exact ⟨hentered, hcarried, hentered ▸ entered⟩
  · have hstop : stop ≠ Int64.maxValue := by
      rintro rfl
      exact absurd start.le_maxValue (Int64.not_le.2 hlt)
    obtain ⟨call, hfinishes⟩ := h.finishes hstop start.toInt_le
    obtain ⟨hentered, hcarried⟩ := hfinishes.queued
    have hdepth : last.depth = 0 := honce hlt ▸ hflat
    rw [if_pos hdepth] at hentered hcarried
    exact ⟨hentered, hcarried, hcarried ▸ carried⟩
  · obtain ⟨hfailed, call, hover⟩ := h.overflows hstop
    exact ⟨hfailed, hover.queued.2, hover.queued.1, call, hover⟩

namespace Director

variable {loop : Int64 → β} {out finished : OutputLink} {director after : Director β} {fuel : Nat}
  {sim real : Float} {ending : Except Halt Report} {earlier later : List (Moment β)} {m : Moment β}
  {start stop : Int64}

/-- The run of a loop that is called afresh is made of laps. -/
theorem exists_laps (counts : Counts loop) (exits : Exits out finished)
    (h : director.update fuel sim real = some (ending, after))
    (caught : director.config.catchPanics = true) {current : Int64}
    (handled : director.history fuel sim real = earlier ++ m :: later)
    (looping : director.script.LoopsAt loop out finished m.activation.node current)
    (called : m.isInvoked = true) (fresh : m.activation.first = true)
    (reads : m.director.script.property? m.activation.node "Start" = some (.int start))
    (undisturbed : Undisturbed m.activation.node stop ending (m :: later)) :
    ∃ laps last rest, m :: later = laps.flatMap Lap.moments ++ last :: rest
      ∧ Laps out finished stop m.activation start.toInt laps last := by
  rcases hfault : director.fault with _ | reason
  swap
  · simp [history, hfault] at handled
  rw [update, hfault] at h
  rw [history_of_fault hfault] at handled
  obtain ⟨before, taken, left, hgoes, hn, hm, hlater, hrun⟩ := Drain.split_history _ _ handled
  have hrest : before.history (left + 1) = m :: later := by
    rw [Drain.history, hn, hlater, hm]
    rfl
  have hdirector : m.director = before.director := by
    rw [hm, Drain.moment, (Drain.next?_eq_some hn).1]
  obtain ⟨index, node, hloop, hb, ho⟩ := hgoes.loopsAt counts exits caught looping
  obtain ⟨call, hmade⟩ := Option.isSome_iff_exists.1 called
  obtain ⟨node', behavior, ht, -, -, -⟩ := call?_eq_some hmade
  rw [← hdirector] at hloop
  obtain rfl := Option.some.inj ((target?_eq_some.1 ht).1.symm.trans hloop)
  have htakes : before.Takes loop out finished m.activation taken node' index :=
    ⟨hn, (congrArg Config.catchPanics hgoes.config).trans caught, hm ▸ ht, hb, ho,
      fun hf => by rw [fresh] at hf; cases hf⟩
  have hi : (Standard.forLoopAct m.activation.first).result index
      ((taken.moment m.activation).start node')
        = Standard.iterateAct.result start ((taken.moment m.activation).start node') := by
    rw [fresh, ← hm]
    exact Standard.result_fresh ((property?_start "Start").trans reads)
  rw [← hrest] at undisturbed
  rw [← hrest]
  exact Drain.exists_laps counts exits htakes hi (hrun.symm.trans h) undisturbed

/-- A loop that starts to run goes from its start to its end, if until then it calls itself only and
always finds the same end. Each call writes the index, and all that it leads to is handled before
the next one. The last call, one index further, pulses `Finished`; where there is no further index
it fails instead. -/
theorem loop_run (counts : Counts loop) (exits : Exits out finished)
    (h : director.update fuel sim real = some (ending, after))
    (caught : director.config.catchPanics = true) {current : Int64}
    (handled : director.history fuel sim real = earlier ++ m :: later)
    (looping : director.script.LoopsAt loop out finished m.activation.node current)
    (called : m.isInvoked = true) (fresh : m.activation.first = true)
    (reads : m.director.script.property? m.activation.node "Start" = some (.int start))
    (undisturbed : Undisturbed m.activation.node stop ending (m :: later)) :
    ∃ laps last rest, LoopRun out finished start stop ending after m later laps last rest := by
  obtain ⟨laps, last, rest, hsplit, hlaps⟩ :=
    exists_laps counts exits h caught handled looping called fresh reads undisturbed
  refine ⟨laps, last, rest, hlaps.loopRun hsplit (fun report hok => ?_) fun report hok => ?_⟩
  all_goals
    subst hok
    obtain ⟨hrun, hbegin⟩ := run_of_update h
    have hhistory : (director.begin sim real).history fuel
        = (earlier ++ laps.flatMap Lap.moments) ++ last :: rest := by
      rw [← hbegin, handled, hsplit, List.append_assoc]
  · exact (Drain.entered_handled hrun).2 _ last rest hhistory
  · rw [(Drain.queues_of_run hrun).1, hhistory, List.flatMap_append, List.flatMap_cons]
    exact (List.sublist_append_left _ _).trans
      ((List.sublist_append_right _ _).trans (List.sublist_append_right _ _))

end Director

/-- A loop of a host is the standard one. -/
theorem Agent.counts : Counts fun index => Agent.standard (.forLoop index) :=
  fun _ _ _ => Program.bind_assoc _ _ _

namespace Director

/-- How a host comes to call a loop from 1 to 2, with one relay at each of its outputs. -/
def circling : List (Move Agent) :=
  [.edit (.addNode rootGraph (Standard.forLoopNode.map .standard)),
    .edit (.addNode rootGraph Script.relayNode), .edit (.addNode rootGraph Script.relayNode),
    .edit (.connect ⟨⟨0⟩, 0⟩ ⟨⟨1⟩, 0⟩), .edit (.connect ⟨⟨0⟩, 1⟩ ⟨⟨2⟩, 0⟩),
    .edit (.setProperty ⟨0⟩ "Start" (.int 1)), .edit (.setProperty ⟨0⟩ "End" (.int 2)),
    .enqueue { node := ⟨0⟩, input := some 0 }]

/-- The director that is about to call the loop. -/
def carousel : Director Agent := circling.foldl move { script := .withRootName "root" }

/-- The loop takes two laps. Its last call is followed by the call of the second relay. -/
theorem loop_run_of_carousel : ∃ (report : Report) (after : Director Agent) (m last : Moment Agent)
    (later rest : List (Moment Agent)) (laps : List (Lap Agent)),
    carousel.update 20 0 0 = some (.ok report, after) ∧ carousel.history 20 0 0 = m :: later
      ∧ LoopRun { name := "Out", connected := [⟨⟨1⟩, 0⟩] }
        { name := "Finished", connected := [⟨⟨2⟩, 0⟩] } 1 2 (.ok report) after m later laps last
        rest
      ∧ laps.length = 2 ∧ rest.map (·.activation.node) = [⟨2⟩] := by
  have hc : (carousel.update 20 0 0).map (·.1.toBool) = some true := by decide +kernel
  have hnodes : (carousel.history 20 0 0).map (·.activation.node)
      = [⟨0⟩, ⟨1⟩, ⟨0⟩, ⟨1⟩, ⟨0⟩, ⟨2⟩] := by decide +kernel
  have hfirst : (carousel.history 20 0 0).head?.map (fun m => (m.isInvoked, m.activation.first,
      (m.director.script.property? ⟨0⟩ "Start").bind (·.asInt?))) = some (true, true, some 1) := by
    decide +kernel
  have hlength : (runOf ⟨0⟩ (carousel.history 20 0 0)).length = 5 := by decide +kernel
  have honly : ((runOf ⟨0⟩ (carousel.history 20 0 0)).tail.all fun m =>
      m.activation.node != ⟨0⟩ || !m.activation.first) = true := by decide +kernel
  have hends : ((runOf ⟨0⟩ (carousel.history 20 0 0)).all fun m =>
      (m.director.script.property? ⟨0⟩ "End").bind (·.asInt?) == some 2) = true := by
    decide +kernel
  have asInt {value : Option Property} {i : Int64} (h : value.bind (·.asInt?) = some i) :
      value = some (.int i) := by
    obtain ⟨p, rfl, hp⟩ := Option.bind_eq_some_iff.1 h
    cases p <;> simp [Property.asInt?] at hp
    rw [hp]
  rcases h : carousel.update 20 0 0 with _ | ⟨_ | report, after⟩ <;> rw [h] at hc
  · simp at hc
  · simp [Except.toBool] at hc
  rcases hhistory : carousel.history 20 0 0 with _ | ⟨m, later⟩
  · rw [hhistory] at hnodes
    cases hnodes
  rw [hhistory] at hnodes hfirst hlength honly hends
  obtain ⟨(hnode : m.activation.node = ⟨0⟩), -⟩ := List.cons.inj hnodes
  obtain ⟨hinvoked, hfresh, hstart⟩ : m.isInvoked = true ∧ m.activation.first = true
      ∧ (m.director.script.property? ⟨0⟩ "Start").bind (·.asInt?) = some 1 := by
    simpa using hfirst
  have hundisturbed : Undisturbed m.activation.node 2 (.ok report) (m :: later) := by
    rw [hnode]
    refine ⟨.inl ⟨report, rfl⟩, fun m' hm' hn _ => ?_, fun m' hm' _ _ _ _ => ?_⟩
    · have hm := List.all_eq_true.1 honly m' hm'
      simpa [hn] using hm
    · exact asInt (by simpa using List.all_eq_true.1 hends m' hm')
  have hloops : carousel.script.LoopsAt (fun index => .standard (.forLoop index))
      { name := "Out", connected := [⟨⟨1⟩, 0⟩] } { name := "Finished", connected := [⟨⟨2⟩, 0⟩] }
      m.activation.node 0 := by
    rw [hnode]
    exact ⟨_, rfl, rfl, rfl⟩
  have hstart' : m.director.script.property? m.activation.node "Start" = some (.int 1) := by
    rw [hnode]
    exact asInt hstart
  have hsplit : carousel.history 20 0 0 = [] ++ m :: later := hhistory
  obtain ⟨laps, last, rest, hloop⟩ := loop_run Agent.counts ⟨⟨rfl, rfl⟩, ⟨rfl, rfl⟩⟩ h rfl hsplit
    hloops hinvoked hfresh hstart' hundisturbed
  refine ⟨report, after, m, last, later, rest, laps, rfl, rfl, hloop, hloop.length, ?_⟩
  have hparts : m :: later = runOf m.activation.node (m :: later) ++ rest := by
    rw [hloop.run, List.append_assoc]
    exact hloop.split
  rw [hnode] at hparts
  have hrest := congrArg (fun history => (history.map (·.activation.node)).drop 5) hparts
  rw [hnodes, List.map_append, List.drop_left' (by rw [List.length_map, hlength])] at hrest
  exact hrest.symm

end Director

end FlowScript
