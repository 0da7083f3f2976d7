import Mathlib.Order.Lattice.Nat
import FlowScript.Proofs.Ending
import FlowScript.Proofs.Frames
import FlowScript.Proofs.Opening

/-!
# How deep frames are stacked

A loop opens two frames, one for its body and one below it that resumes the loop, and the frame
that it was resumed in is closed first. So each loop on a path of connections adds two frames to the
stack at most, however often it goes round (`Script.Taken.opens`). Without cycles some path has the
most loops, and the stack is never deeper than twice their number (`Director.Unforced.shallow`).
-/

namespace FlowScript

namespace Script

/-! ## Loops on paths -/

instance (script : Script Standard) : DecidablePred script.IsLoop := fun id =>
  decidable_of_iff ((script.behavior? id).any fun
    | .forLoop _ => true
    | _ => false) <| by
  unfold IsLoop
  rcases script.behavior? id with _ | behavior
  · simp
  · cases behavior <;> simp

/-- How many loops are on a path. -/
def loops (script : Script Standard) (path : List NodeId) : Nat :=
  path.countP (script.IsLoop ·)

/-- A path along connections has so many loops, and none has more. -/
structure MostLoops (script : Script Standard) (most : Nat) : Prop where
  reached : ∃ path, path.IsChain script.Feeds ∧ script.loops path = most
  bound : ∀ path : List NodeId, path.IsChain script.Feeds → script.loops path ≤ most

/-- Above this height there is room, up to the limit, for two frames for each loop on any path that
starts at the node. -/
def Room (script : Script Standard) (limit height : Nat) (id : NodeId) : Prop :=
  ∀ path, (id :: path).IsChain script.Feeds → height + 2 * script.loops (id :: path) ≤ limit

variable {script : Script Standard}

theorem nodup_of_acyclic (acyclic : ∀ id, ¬ script.Cyclic id) {path : List NodeId}
    (h : path.IsChain script.Feeds) : path.Nodup := by
  have hreach : path.IsChain (Relation.TransGen script.Feeds) := h.imp fun _ _ => .single
  refine (List.isChain_iff_pairwise.1 hreach).imp fun {a b} hr heq => ?_
  exact acyclic a (heq ▸ hr)

theorem loops_le (acyclic : ∀ id, ¬ script.Cyclic id) {ids : List NodeId}
    (hids : ∀ id, script.IsLoop id → id ∈ ids) {path : List NodeId}
    (h : path.IsChain script.Feeds) : script.loops path ≤ ids.length := by
  rw [loops, List.countP_eq_length_filter]
  refine ((nodup_of_acyclic acyclic h).filter _).length_le_of_subset fun id hid => ?_
  exact hids id (of_decide_eq_true (List.mem_filter.1 hid).2)

theorem exists_mostLoops (acyclic : ∀ id, ¬ script.Cyclic id) :
    ∃ most, script.MostLoops most := by
  let counts := {n | ∃ path : List NodeId, path.IsChain script.Feeds ∧ script.loops path = n}
  have hlive : ∀ id, script.IsLoop id → id ∈ script.nodes.map (·.id) := by
    rintro id ⟨current, hb⟩
    obtain ⟨node, hn, -⟩ := Option.bind_eq_some_iff.1 hb
    exact live_of_node? hn
  have hbounded : BddAbove counts := by
    refine ⟨(script.nodes.map (·.id)).length, ?_⟩
    rintro n ⟨path, hpath, rfl⟩
    exact loops_le acyclic hlive hpath
  have hsome : counts.Nonempty := ⟨0, [], .nil, rfl⟩
  refine ⟨sSup counts, Nat.sSup_mem hsome hbounded, fun path hpath => ?_⟩
  exact le_csSup hbounded ⟨path, hpath, rfl⟩

theorem MostLoops.room {most : Nat} (h : script.MostLoops most) (id : NodeId) :
    script.Room (2 * most) 0 id := by
  intro path hpath
  have hle := h.bound _ hpath
  omega

namespace Room

variable {limit height height' : Nat} {a b : NodeId}

theorem mono (h : script.Room limit height a) (hle : height' ≤ height) :
    script.Room limit height' a := by
  intro path hpath
  have hroom := h path hpath
  omega

theorem le (h : script.Room limit height a) : height ≤ limit := by
  have hroom := h [] (.singleton a)
  omega

theorem feeds (h : script.Room limit height a) (hf : script.Feeds a b) :
    script.Room limit height b := by
  intro path hpath
  have hroom := h (b :: path) (.cons_cons hf hpath)
  have hle : script.loops (b :: path) ≤ script.loops (a :: b :: path) :=
    (List.sublist_cons_self a (b :: path)).countP_le
  omega

/-- Past a loop there are two frames more. -/
theorem past (h : script.Room limit height a) (loop : script.IsLoop a) (hf : script.Feeds a b) :
    script.Room limit (height + 2) b := by
  intro path hpath
  have hroom := h (b :: path) (.cons_cons hf hpath)
  have hcount : script.loops (a :: b :: path) = script.loops (b :: path) + 1 :=
    List.countP_cons_of_pos (decide_eq_true loop)
  omega

theorem lt_of_loop (h : script.Room limit height a) (loop : script.IsLoop a) :
    height + 2 ≤ limit := by
  have hroom := h [] (.singleton a)
  have hcount : script.loops [a] = 1 := List.countP_cons_of_pos (decide_eq_true loop)
  omega

end Room

/-! ## Stacks -/

/-- A frame on top of so many others leaves room for whatever its activations lead to. A loop that
is alone in it can do with less, since the frame is closed when the loop opens others. -/
inductive Roomy (script : Script Standard) (limit below : Nat) (frame : List Activation) :
    Prop where
  | each (room : ∀ a ∈ frame, script.Room limit (below + 1) a.node)
  | alone (a : Activation) (only : frame = [a]) (loop : script.IsLoop a.node)
      (room : script.Room limit below a.node)

/-- Every frame leaves room for what its activations lead to. -/
def Stacked (script : Script Standard) (limit : Nat) : List (List Activation) → Prop
  | [] => True
  | frame :: below => script.Roomy limit below.length frame ∧ script.Stacked limit below

/-- What is left of the stack when the activation was taken, from its innermost frame or from the
wave. -/
structure Taken (script : Script Standard) (limit : Nat) (a : Activation)
    (stack : List (List Activation)) : Prop where
  stacked : script.Stacked limit stack
  depth : stack.length ≤ limit
  /-- There is room for the frames that the activation opens. -/
  room : script.Room limit (Drain.closed stack).length a.node
  /-- What the activation fires can join the frame that it was taken from. -/
  joins : ∀ frame below, stack = frame :: below → ∀ fired : List Activation,
    (∀ b ∈ fired, script.Feeds a.node b.node) → script.Roomy limit below.length (frame ++ fired)

variable {limit : Nat} {a : Activation} {frame : List Activation}
  {stack below : List (List Activation)}

theorem Taken.of_wave (h : script.Room limit 0 a.node) : script.Taken limit a [] :=
  ⟨trivial, Nat.zero_le _, h, nofun⟩

theorem Stacked.taken (h : script.Stacked limit ((a :: frame) :: below)) :
    script.Taken limit a (frame :: below) := by
  obtain ⟨hframe, hbelow⟩ := h
  cases hframe with
  | each room =>
    obtain ⟨ha, hrest⟩ := List.forall_mem_cons.1 room
    refine ⟨⟨.each hrest, hbelow⟩, ha.le, ha.mono ?_, ?_⟩
    · rcases frame with _ | ⟨b, frame⟩
      · exact Nat.le_succ _
      · exact Nat.le_refl _
    · rintro frame' below' heq fired hfired
      obtain ⟨rfl, rfl⟩ := List.cons.inj heq
      exact .each (List.forall_mem_append.2 ⟨hrest, fun b hb => ha.feeds (hfired b hb)⟩)
  | alone loop only isLoop room =>
    obtain ⟨rfl, rfl⟩ := List.cons.inj only
    refine ⟨⟨.each (List.forall_mem_nil _), hbelow⟩, ?_, room, ?_⟩
    · have hlt := room.lt_of_loop isLoop
      rw [List.length_cons]
      omega
    · rintro frame' below' heq fired hfired
      obtain ⟨rfl, rfl⟩ := List.cons.inj heq
      exact .each fun b hb => (room.past isLoop (hfired b hb)).mono (Nat.le_succ _)

theorem Stacked.closed (h : script.Stacked limit stack) :
    script.Stacked limit (Drain.closed stack) := by
  unfold Drain.closed
  split
  · exact h.2
  · exact h

/-- A loop opens a frame that resumes it, and above it one for what an output is connected to. -/
theorem Taken.opens (h : script.Taken limit a stack) (loop : script.IsLoop a.node)
    {targets : List Activation} (hfeeds : ∀ b ∈ targets, script.Feeds a.node b.node) :
    script.Stacked limit (framed targets ++ [[a.resumed]] ++ Drain.closed stack) := by
  have hresumed : script.Stacked limit ([a.resumed] :: Drain.closed stack) :=
    ⟨.alone a.resumed rfl loop h.room, h.stacked.closed⟩
  rw [List.append_assoc, List.singleton_append]
  unfold framed
  split
  · exact hresumed
  · exact ⟨.each fun b hb => h.room.past loop (hfeeds b hb), hresumed⟩

end Script

/-! ## Ticks -/

namespace Drain

/-- The tick is under way and has not come by more frames than the limit. -/
structure Shallow (config : Config) (script : Script Standard) (limit : Nat)
    (drain : Drain Standard) : Prop where
  hushed : drain.Hushed config
  moves : Script.Moves (fun _ => True) script drain.director.script
  stacked : script.Stacked limit drain.stack
  depth : drain.report.maxDepth ≤ limit

variable {config : Config} {script : Script Standard} {limit : Nat}
  {drain rest next : Drain Standard} {a : Activation}

theorem Shallow.taken (h : drain.Shallow config script limit)
    (room : ∀ id, script.Room limit 0 id) (hn : drain.next? = some (a, rest)) :
    script.Taken limit a rest.stack := by
  have hstacked := h.stacked
  unfold Drain.next? at hn
  split at hn <;> cases hn
  · rename_i frame stack hs
    rw [hs] at hstacked
    exact hstacked.taken
  · rename_i wave hs _
    rw [hs]
    exact .of_wave (room a.node)

/-- Whatever becomes of the activation, the stack leaves room again. -/
theorem Handles.stacked (h : rest.Handles a next) (quiet : rest.director.script.Quiet)
    (moves : Script.Moves (fun _ => True) script rest.director.script)
    (ht : script.Taken limit a rest.stack) : script.Stacked limit next.stack := by
  cases h with
  | discarded target => exact ht.stacked
  | failed node call script' error target made verdict fate => exact ht.stacked
  | completed node call script' latent target made verdict after spent =>
    by_cases hf : call.turn.frames = []
    · have hframes : (call.effects latent).frames = [] := hf
      have hfired := Moment.fired_feeds made
      have hdirector : (rest.moment a).director.script.Feeds = script.Feeds := moves.feeds
      rw [hdirector] at hfired
      rw [schedule_stack, hframes]
      simp only [accept]
      have hstacked := ht.stacked
      have hjoins := ht.joins
      generalize rest.stack = stack at hstacked hjoins
      rcases stack with _ | ⟨frame, below⟩
      · exact trivial
      · exact ⟨hjoins frame below rfl _ hfired, hstacked.2⟩
    · obtain ⟨hloop, hfired, targets, hfeeds, hframes⟩ :=
        Moment.opens_of_loop made verdict hf quiet
      have hopened := schedule_opened
        (rest.accept ((rest.moment a).after node call script') latent) a (call.effects latent) hf
      have heffects : (call.effects latent).frames = framed targets ++ [[a.resumed]] := hframes
      have hnone : (call.effects latent).fired = [] := hfired
      have hsame : (rest.moment a).director.script.Feeds = script.Feeds := moves.feeds
      rw [hsame] at hfeeds
      rw [hopened, heffects, hnone, if_pos rfl, List.append_nil]
      exact ht.opens ((moves.isLoop a.node).1 hloop) hfeeds

theorem Handles.maxDepth (h : rest.Handles a next) :
    next.report.maxDepth = max rest.report.maxDepth rest.stack.length := by
  cases h with
  | discarded target => rfl
  | failed node call script error target made verdict fate => rfl
  | completed node call script latent target made verdict after spent =>
    rw [schedule_report]
    rfl

theorem Shallow.step (caught : config.catchPanics = true) (room : ∀ id, script.Room limit 0 id)
    (h : drain.Shallow config script limit) (hs : drain.step = .inl next) :
    next.Shallow config script limit := by
  have hhushed := h.hushed.step caught hs
  rcases hn : drain.next? with _ | ⟨a, rest⟩
  · rcases step_of_next?_none hn with ⟨stack, hstack, hstep⟩ | ⟨-, -, hstep⟩ <;>
      rw [hstep] at hs <;> cases hs
    have hstacked := h.stacked
    rw [hstack] at hstacked
    exact ⟨hhushed, h.moves, hstacked.2, h.depth⟩
  · obtain ⟨hd, hreport, -⟩ := next?_eq_some hn
    have htaken := h.taken room hn
    have hmoves := h.moves
    have hquiet := h.hushed.quiet
    rw [← hd] at hmoves hquiet
    rw [step_of_next?_some hn] at hs
    have hhandles := handles_of_handle hs
    have hscript := rest.handle_script a
    rw [hs, Sum.elim_inl] at hscript
    refine ⟨hhushed, ?_, hhandles.stacked hquiet hmoves htaken, ?_⟩
    · rw [hscript]
      exact hmoves.trans (((rest.moment a).moves (goes_of_handle hs)).mono fun _ _ => trivial)
    · rw [hhandles.maxDepth, hreport]
      exact Nat.max_le.2 ⟨h.depth, htaken.depth⟩

end Drain

namespace Director

/-- Where panics are caught and the host pulses no output, a tick of a script of standard nodes
without cycles ends well, and its stack is never deeper than two frames for each loop on the path
that has the most of them. Neither the bounds of the loops nor their bodies count for it. -/
theorem Unforced.shallow {director : Director Standard} (h : director.Unforced)
    (acyclic : ∀ id, ¬ director.script.Cyclic id) :
    ∃ most, director.script.MostLoops most ∧ ∀ sim real,
      (∃ fuel report after, director.update fuel sim real = some (.ok report, after))
        ∧ ∀ fuel, (∀ m ∈ director.history fuel sim real, m.depth ≤ 2 * most)
          ∧ ∀ ending after, director.update fuel sim real = some (ending, after) →
            ∃ report, ending = .ok report ∧ report.maxDepth ≤ 2 * most := by
  have hpoised := h.poised
  obtain ⟨most, hmost⟩ := Script.exists_mostLoops acyclic
  refine ⟨most, hmost, fun sim real => ⟨?_, fun fuel => ?_⟩⟩
  · have hunwinds : director.script.Unwinds := fun _ reached _ _ => acyclic reached
    have hbegin : Script.Moves (fun _ => True) director.script
        (director.begin sim real).director.script := .refl _
    obtain ⟨fuel, ⟨ending, after⟩, hrun⟩ :=
      (Drain.passes_wave hunwinds _ _ ⟨rfl, rfl⟩ hbegin).ends
    have hu : director.update fuel sim real = some (ending, after) := by
      rw [update, hpoised.ready.sound]
      exact hrun
    obtain ⟨⟨report, rfl⟩, -⟩ := hpoised.update hu
    exact ⟨fuel, report, after, hu⟩
  · have hbegin : (director.begin sim real).Shallow director.config director.script (2 * most) :=
      ⟨hpoised.hushed sim real, .refl _, trivial, Nat.zero_le _⟩
    obtain ⟨hhistory, hrun⟩ := Drain.invariant
      (fun _ _ hp => hp.step hpoised.caught hmost.room) fuel _ hbegin
    refine ⟨fun m hm => ?_, fun ending after hu => ?_⟩
    · rw [history_of_fault hpoised.ready.sound] at hm
      obtain ⟨before, a, rest, hshallow, hn, rfl⟩ := hhistory m hm
      exact (hshallow.taken hmost.room hn).depth
    · unfold Director.update at hu
      rw [hpoised.ready.sound] at hu
      obtain ⟨last, hlast, hstep, -⟩ := hrun _ hu
      obtain ⟨-, -, hfinish⟩ := hlast.hushed.sane.finishes hpoised.caught hstep
      obtain ⟨rfl, -⟩ := Prod.mk.inj hfinish
      exact ⟨_, rfl, hlast.depth⟩

/-- How a host comes to start a loop that counts to two. Its body is another such loop and, after
that one, a node that the inner loop calls as well. -/
def stacking : List (Move Standard) :=
  [.edit (.addNode rootGraph Standard.forLoopNode), .edit (.addNode rootGraph Standard.forLoopNode),
    .edit (.addNode rootGraph (Standard.passThroughNode "Output")),
    .edit (.connect ⟨⟨0⟩, 0⟩ ⟨⟨1⟩, 0⟩), .edit (.connect ⟨⟨0⟩, 0⟩ ⟨⟨2⟩, 0⟩),
    .edit (.connect ⟨⟨1⟩, 0⟩ ⟨⟨2⟩, 0⟩),
    .edit (.setLinkValue ⟨⟨0⟩, 1⟩ 0 (.int 2)), .edit (.setLinkValue ⟨⟨1⟩, 1⟩ 0 (.int 2)),
    .triggerInput rootGraph ⟨0⟩ "Start"]

/-- The director that is about to start the outer loop. -/
def matryoshka : Director Standard := stacking.foldl move { script := .withRootName "root" }

theorem unforced_matryoshka : matryoshka.Unforced := by
  have created (type : TypeId) {builder : NodeBuilder Standard}
      (h : Standard.registry.create type [] = .ok builder) : builder.Made :=
    Standard.places_made type [] builder h
  have moved {start : Director Standard} (h : start.Unforced) : ∀ moves : List (Move Standard),
      (∀ move ∈ moves, move.Unforced) → (moves.foldl move start).Unforced := by
    intro moves hmoves
    induction moves generalizing start with
    | nil => exact h
    | cons next moves ih =>
      rw [List.forall_mem_cons] at hmoves
      exact ih (h.move next hmoves.1) hmoves.2
  refine moved (.fresh "root" .silent) stacking fun move hm => ?_
  simp only [stacking, List.mem_cons, List.not_mem_nil, or_false] at hm
  rcases hm with rfl | rfl | rfl | rfl | rfl | rfl | rfl | rfl | rfl
  · exact created (coreType "For Loop") rfl
  · exact created (coreType "For Loop") rfl
  · exact created (coreType "Output") rfl
  all_goals trivial

/-- What the inner loop calls is as deep as two loops allow. -/
theorem shallow_of_matryoshka : matryoshka.script.MostLoops 2
    ∧ ∃ report after, matryoshka.update 60 0 0 = some (.ok report, after)
      ∧ report.maxDepth ≤ 2 * 2 ∧ report.maxDepth = 4 := by
  have hconnected : ∀ node ∈ matryoshka.script.nodes, ∀ b ∈ node.outputs.flatMap fun link =>
      link.connected.map (·.node), node.id.raw < b.raw := by
    decide +kernel
  have hreach : ∀ {a b}, Relation.TransGen matryoshka.script.Feeds a b → a.raw < b.raw := by
    have hfeeds : ∀ {a b}, matryoshka.script.Feeds a b → a.raw < b.raw := by
      intro a b h
      obtain ⟨node, hn, rfl, hb⟩ := h.listed
      exact hconnected node hn b hb
    intro a b h
    induction h with
    | single hf => exact hfeeds hf
    | tail _ hf ih => exact Nat.lt_trans ih (hfeeds hf)
  have acyclic : ∀ id, ¬ matryoshka.script.Cyclic id := fun id hc => Nat.lt_irrefl _ (hreach hc)
  obtain ⟨most, hmost, hticks⟩ := unforced_matryoshka.shallow acyclic
  have hdepth : (matryoshka.update 60 0 0).bind (·.1.toOption.map (·.maxDepth)) = some 4 := by
    decide +kernel
  obtain ⟨⟨ending, after⟩, hu, hreport⟩ := Option.bind_eq_some_iff.1 hdepth
  obtain ⟨-, hends⟩ := hticks 0 0
  obtain ⟨report, rfl, hle⟩ := (hends 60).2 ending after hu
  have hfour : report.maxDepth = 4 := Option.some.inj hreport
  -- There are two loops only, and no path comes by one of them twice.
  have hloops : ∀ id, matryoshka.script.IsLoop id → id ∈ ([⟨0⟩, ⟨1⟩] : List NodeId) := by
    have hbehaviors : matryoshka.script.nodes.map (fun node => (node.id, node.behavior)) =
        [(⟨0⟩, some (.forLoop 0)), (⟨1⟩, some (.forLoop 0)), (⟨2⟩, some .passThrough)] := rfl
    rintro id ⟨current, hl⟩
    obtain ⟨node, hn, hb⟩ := Option.bind_eq_some_iff.1 hl
    obtain ⟨rfl, -⟩ | ⟨rfl, -⟩ : id = ⟨0⟩ ∧ current = 0 ∨ id = ⟨1⟩ ∧ current = 0 := by
      simpa using Script.behavior_listed hbehaviors hn hb
    · exact List.mem_cons_self
    · exact List.mem_cons_of_mem _ List.mem_cons_self
  obtain ⟨path, hpath, hcount⟩ := hmost.reached
  have hfew : most ≤ 2 := hcount ▸ Script.loops_le acyclic hloops hpath
  obtain rfl : most = 2 := by omega
  exact ⟨hmost, report, after, hu, hle, hfour⟩

end Director

end FlowScript
