import Mathlib.Logic.Relation
import FlowScript.Proofs.Conservation
import FlowScript.Proofs.Feeding
import FlowScript.Proofs.Recursive

/-!
# Every tick ends

Within a tick only loops open frames. If no cycle of connections can be reached from an output of a
loop, a frame holds activations of nodes of lower rank than the loop (`rank_lt`), or it resumes the
loop. So a frame is drained by induction on the rank of what it holds (`drains`), where a loop that
is resumed counts towards the largest integer (`passes_resumed`), whatever its body does to its
bounds. Elsewhere cycles go round once in a tick at most: their steps wait for the next one.
-/

namespace FlowScript

variable {β : Type}

namespace Script

/-- The node is on a cycle of connections. -/
def Cyclic (script : Script β) (id : NodeId) : Prop := Relation.TransGen script.Feeds id id

/-- No cycle can be reached from the node. -/
def Clear (script : Script β) (id : NodeId) : Prop :=
  ∀ reached, Relation.ReflTransGen script.Feeds id reached → ¬ script.Cyclic reached

/-- No cycle can be reached from an output of a loop. -/
def Unwinds (script : Script Standard) : Prop :=
  ∀ loop reached, script.IsLoop loop → Relation.TransGen script.Feeds loop reached →
    ¬ script.Cyclic reached

/-- The nodes that outputs are connected to, once for each connection. -/
def fed (script : Script β) : List NodeId :=
  script.nodes.flatMap fun node => node.outputs.flatMap fun link => link.connected.map (·.node)

open scoped Classical in
/-- How many connections lead to nodes that can be reached from the outputs of a node. -/
noncomputable def rank (script : Script β) (id : NodeId) : Nat :=
  script.fed.countP fun reached => Relation.TransGen script.Feeds id reached

/-- No cycle can be reached from the node, and only few nodes can. -/
def Low (script : Script β) (bound : Nat) (id : NodeId) : Prop :=
  script.Clear id ∧ script.rank id < bound

section ranks

variable {script : Script β} {a b : NodeId}

theorem Clear.not_cyclic (h : script.Clear a) : ¬ script.Cyclic a := h a .refl

theorem Clear.feeds (h : script.Clear a) (hf : script.Feeds a b) : script.Clear b :=
  fun reached hr => h reached (.head hf hr)

theorem Unwinds.clear {script : Script Standard} (h : script.Unwinds) {loop : NodeId}
    (hl : script.IsLoop loop) : script.Clear loop := by
  intro reached hr hc
  rcases Relation.reflTransGen_iff_eq_or_transGen.1 hr with rfl | ht
  · exact h reached reached hl hc hc
  · exact h loop reached hl ht hc

theorem Feeds.listed (h : script.Feeds a b) : ∃ node ∈ script.nodes, node.id = a
    ∧ b ∈ node.outputs.flatMap fun link => link.connected.map (·.node) := by
  obtain ⟨output, input, hc, rfl⟩ := h
  obtain ⟨node, hn, hid, link, hl, hi⟩ := hc.listed
  exact ⟨node, hn, hid, List.mem_flatMap.2 ⟨link, hl, List.mem_map_of_mem hi⟩⟩

theorem Feeds.mem_fed (h : script.Feeds a b) : b ∈ script.fed := by
  obtain ⟨node, hn, -, hfed⟩ := h.listed
  exact List.mem_flatMap.2 ⟨node, hn, hfed⟩

/-- Away from cycles ranks fall along connections. -/
theorem rank_lt (h : script.Clear a) (hf : script.Feeds a b) : script.rank b < script.rank a := by
  classical
  let reached := script.fed.filter fun id => Relation.TransGen script.Feeds a id
  have hmem : b ∈ reached := List.mem_filter.2 ⟨hf.mem_fed, decide_eq_true (.single hf)⟩
  have hfirst : script.rank a = reached.length := List.countP_eq_length_filter
  have hsecond : script.rank b = reached.countP fun id => Relation.TransGen script.Feeds b id := by
    rw [rank, List.countP_filter]
    refine List.countP_congr fun id _ => ?_
    simp only [decide_eq_true_eq, Bool.and_eq_true]
    exact ⟨fun hr => ⟨hr, .head hf hr⟩, fun hr => hr.1⟩
  rw [hfirst, hsecond]
  -- The second node is among those reached from the first one, but it does not reach itself.
  refine Nat.lt_of_le_of_ne List.countP_le_length fun hall => ?_
  exact (h.feeds hf).not_cyclic (of_decide_eq_true (List.countP_eq_length.1 hall b hmem))

theorem Low.mono {bound bound' : Nat} (h : script.Low bound a) (hb : bound ≤ bound') :
    script.Low bound' a :=
  ⟨h.1, Nat.lt_of_lt_of_le h.2 hb⟩

theorem Low.of_feeds (h : script.Clear a) (hf : script.Feeds a b) :
    script.Low (script.rank a) b :=
  ⟨h.feeds hf, rank_lt h hf⟩

end ranks

/-- The node is a loop that has counted to some number at least. -/
def Counted (script : Script Standard) (id : NodeId) (least : Int) : Prop :=
  ∃ current, script.behavior? id = some (.forLoop current) ∧ least ≤ current.toInt

theorem Counted.moves {moved : NodeId → Prop} {script script' : Script Standard} {id : NodeId}
    {least : Int} (h : script.Counted id least) (hm : Moves moved script script')
    (hid : ¬ moved id) : script'.Counted id least := by
  obtain ⟨current, hb, hle⟩ := h
  exact ⟨current, (hm.apart id hid).trans hb, hle⟩

end Script

open Script

namespace Drain

/-! ## Drained lists -/

/-- The tick ends, or it gets past a place with its script as wanted. -/
def Passes [Behavior β] (drain : Drain β) (place : Place) (wanted : Script β → Prop) : Prop :=
  (∃ fuel ending, drain.run fuel = some ending)
    ∨ ∃ next, drain.Leads next ∧ next.Past place ∧ wanted next.director.script

namespace Passes

variable [Behavior β] {drain next : Drain β} {place place' : Place}
  {wanted wanted' : Script β → Prop}

theorem of_leads (h : drain.Leads next) (hp : next.Passes place wanted) :
    drain.Passes place wanted := by
  rcases hp with ⟨fuel, ending, hrun⟩ | ⟨last, hl, hp⟩
  · obtain ⟨steps, hsteps⟩ := h
    exact .inl ⟨steps + fuel, ending, (hsteps fuel).trans hrun⟩
  · exact .inr ⟨last, h.trans hl, hp⟩

theorem bind (h : drain.Passes place wanted)
    (ht : ∀ next : Drain β, next.Past place → wanted next.director.script →
      next.Passes place' wanted') : drain.Passes place' wanted' := by
  rcases h with hended | ⟨next, hl, hp, hw⟩
  · exact .inl hended
  · exact of_leads hl (ht next hp hw)

theorem imp (h : drain.Passes place wanted) (hw : ∀ script, wanted script → wanted' script) :
    drain.Passes place wanted' :=
  h.bind fun next hp hn => .inr ⟨next, .refl next, hp, hw _ hn⟩

theorem of_at_nil (h : drain.At [] place) (hw : wanted drain.director.script) :
    drain.Passes place wanted := by
  obtain ⟨next, hl, hp, hc⟩ := leads_of_at_nil h
  have hd : next.director = drain.director := congrArg Course.director hc
  exact .inr ⟨next, hl, hp, hd ▸ hw⟩

end Passes

/-- What the loop does for the first activation of a list of standard nodes. -/
inductive Goes (drain : Drain Standard) (a : Activation) (rest : List Activation)
    (place : Place) : Prop where
  | ends (fuel : Nat) (ending : Ending Standard) (run : drain.run fuel = some ending)
  /-- Without frames the list goes on, with what was fired behind it if it is a frame. -/
  | on (next : Drain Standard) (fired : List Activation) (leads : drain.Leads next)
      (waits : next.At (rest ++ if place.outer then [] else fired) place)
      (feeds : ∀ b ∈ fired, drain.director.script.Feeds a.node b.node)
      (moves : Moves (· = a.node) drain.director.script next.director.script)
      (counts : a.first = false → ∀ least, drain.director.script.Counted a.node least →
        next.director.script.Counted a.node least)
  /-- A loop opens frames, the last of them for what was fired. -/
  | into (next : Drain Standard) (frames : List (List Activation)) (leads : drain.Leads next)
      (stack : next.stack = frames ++ place.below rest) (wave : next.wave = place.queue rest)
      (opens : ∀ frame ∈ frames, drain.director.script.Opens a frame)
      (loop : drain.director.script.IsLoop a.node)
      (moves : Moves (· = a.node) drain.director.script next.director.script)
      (counts : a.first = false → ∀ least, drain.director.script.Counted a.node least →
        next.director.script.Counted a.node (least + 1))

theorem goes_of_at {drain : Drain Standard} {a : Activation} {rest : List Activation}
    {place : Place} (h : drain.At (a :: rest) place) : drain.Goes a rest place := by
  obtain ⟨taken, hstep, hs, hw, hc⟩ := step_of_at_cons h
  have hd : taken.director = drain.director := congrArg Course.director hc
  rcases hh : taken.handle a with next | ending
  swap
  · exact .ends 1 ending (by rw [run, hstep, hh])
  have hleads := Leads.of_step (hstep.trans hh)
  have hgoes := goes_of_handle hh
  have hscript := taken.handle_script a
  rw [hh, Sum.elim_inl] at hscript
  have hmoves : Moves (· = a.node) drain.director.script next.director.script := by
    rw [hscript, ← hd]
    exact (taken.moment a).moves hgoes
  have hcounts := @Moment.counts (taken.moment a) hgoes
  rw [← hscript] at hcounts
  have hsame : a.first = false → ∀ least, drain.director.script.Counted a.node least →
      next.director.script.Counted a.node least := by
    rintro hf least ⟨current, hb, hle⟩
    rw [← hd] at hb
    obtain ⟨later, hlater, hcount, -⟩ := hcounts hf hb
    exact ⟨later, hlater, Int.le_trans hle hcount⟩
  cases handles_of_handle hh with
  | discarded target =>
    have hat : taken.discard.At rest place := at_of_frames hs hw
    exact .on _ [] hleads (by simpa using hat) (List.forall_mem_nil _) hmoves hsame
  | failed node call script error target made verdict fate =>
    have hat : (taken.passOver ((taken.moment a).after node call script)).At rest place :=
      at_of_frames hs hw
    exact .on _ [] hleads (by simpa using hat) (List.forall_mem_nil _) hmoves hsame
  | completed node call script latent target made verdict after spent =>
    have hfired := Moment.fired_feeds made
    obtain ⟨hopens, hloop⟩ := Moment.frames_open made
    simp only [moment, hd] at hfired hopens hloop
    have hs' : (taken.accept ((taken.moment a).after node call script) latent).stack
        = place.frames rest := hs
    by_cases hf : (call.effects latent).frames = []
    · exact .on _ call.turn.fired hleads (at_of_schedule hs' hw a hf) hfired hmoves hsame
    · refine .into _ _ hleads (schedule_stack_of_frames hs' a hf)
        ((schedule_wave _ a _).trans hw) (fun frame hframe => ?_) (hloop hf) hmoves ?_
      · rcases List.mem_append.1 hframe with hframe | hframe
        · exact hopens frame hframe
        · split at hframe
          · cases hframe
          · rw [List.mem_singleton.1 hframe]
            exact .inr hfired
      · rintro hf' least ⟨current, hb, hle⟩
        rw [← hd] at hb
        obtain ⟨later, hlater, -, hcount⟩ := hcounts hf' hb
        have hlt := hcount call latent made verdict
        exact ⟨later, hlater, by omega⟩

/-! ## Frames -/

section frames

variable {script : Script Standard}

/-- In a frame every list of activations of lower rank is drained, and no other behavior moves. -/
def Drains (script : Script Standard) (bound : Nat) : Prop :=
  ∀ (list : List Activation) (drain : Drain Standard) (below : List (List Activation))
    (wave : List Activation), drain.At list (.frame below wave) →
    drain.director.script.Feeds = script.Feeds → (∀ a ∈ list, script.Low bound a.node) →
    drain.Passes (.frame below wave) (Moves (script.Low bound) drain.director.script)

/-- What the frames of a loop leave of a script in which the loop has counted so far. -/
def Passed (script : Script Standard) (loop : NodeId) (least : Int)
    (before after : Script Standard) : Prop :=
  Moves (script.Low (script.rank loop + 1)) before after ∧ after.Counted loop least

variable {x : Activation} (hx : script.Clear x.node) (hd : Drains script (script.rank x.node))

include hx hd

/-- The frames of a loop are drained one after another, if the resumed loop is. -/
theorem passes_frames {least : Int} {below : List (List Activation)} {wave : List Activation}
    (again : ∀ (drain : Drain Standard) (below : List (List Activation)),
      drain.At [x.resumed] (.frame below wave) → drain.director.script.Feeds = script.Feeds →
      drain.director.script.Counted x.node least →
      drain.Passes (.frame below wave)
        (Passed script x.node least drain.director.script)) :
    ∀ (frames : List (List Activation)) (drain : Drain Standard),
      (∀ frame ∈ frames, script.Opens x frame) → drain.stack = frames ++ below →
      drain.wave = wave → drain.director.script.Feeds = script.Feeds →
      drain.director.script.Counted x.node least →
      drain.Passes (.frame below wave) (Passed script x.node least drain.director.script)
  | [], drain, _, hs, hw, _, hc =>
    .inr ⟨drain, .refl drain, ⟨hs, hw⟩, .refl _, hc⟩
  | frame :: frames, drain, ho, hs, hw, hfeeds, hc => by
    have hframe : drain.Passes (.frame (frames ++ below) wave)
        (Passed script x.node least drain.director.script) := by
      rcases ho frame List.mem_cons_self with rfl | hfed
      · exact again drain _ ⟨.inl hs, hw⟩ hfeeds hc
      · have hlow : ∀ b ∈ frame, script.Low (script.rank x.node) b.node :=
          fun b hb => .of_feeds hx (hfed b hb)
        refine (hd frame drain _ wave ⟨.inl hs, hw⟩ hfeeds hlow).imp fun after hm => ?_
        -- What the loop is connected to is of lower rank, so the loop itself does not move.
        exact ⟨hm.mono fun _ h => h.mono (Nat.le_succ _),
          hc.moves hm fun h => Nat.lt_irrefl _ h.2⟩
    refine hframe.bind fun next hp ⟨hm, hcounted⟩ => ?_
    refine (passes_frames again frames next (fun f hf => ho f (List.mem_cons_of_mem _ hf))
      hp.1 hp.2 (hm.feeds.trans hfeeds) hcounted).imp fun after ⟨hm', hcounted'⟩ => ?_
    exact ⟨hm.trans hm', hcounted'⟩

/-- A resumed loop passes, whatever it counts from: the induction is on how far it can count. -/
theorem passes_resumed : ∀ (left : Nat) (least : Int), Int64.maxValue.toInt < least + left →
    ∀ (drain : Drain Standard) (below : List (List Activation)) (wave : List Activation),
      drain.At [x.resumed] (.frame below wave) → drain.director.script.Feeds = script.Feeds →
      drain.director.script.Counted x.node least →
      drain.Passes (.frame below wave) (Passed script x.node least drain.director.script)
  | 0, least, hleft, _, _, _, _, _, hc => by
    obtain ⟨current, -, hle⟩ := hc
    have hmax := current.toInt_le
    omega
  | left + 1, least, hleft, drain, below, wave, hat, hfeeds, hc => by
    have self : ∀ id, id = x.node → script.Low (script.rank x.node + 1) id := by
      rintro id rfl
      exact ⟨hx, Nat.lt_succ_self _⟩
    cases goes_of_at hat with
    | ends fuel ending run => exact .inl ⟨fuel, ending, run⟩
    | on next fired leads waits feeds moves counts =>
      have hlow : ∀ b ∈ fired, script.Low (script.rank x.node) b.node :=
        fun b hb => .of_feeds hx (hfeeds ▸ feeds b hb)
      have hrest := hd fired next below wave waits (moves.feeds.trans hfeeds) hlow
      refine .of_leads leads (hrest.imp fun after hm => ⟨?_, ?_⟩)
      · exact (moves.mono self).trans (hm.mono fun _ h => h.mono (Nat.le_succ _))
      · exact (counts rfl least hc).moves hm fun h => Nat.lt_irrefl _ h.2
    | into next frames leads stack wave' opens loop moves counts =>
      unfold Opens at opens
      rw [hfeeds] at opens
      have hframes := passes_frames hx hd
        (fun drain below hat hfeeds hc =>
          passes_resumed left (least + 1) (by omega) drain below wave hat hfeeds hc)
        frames next opens stack wave' (moves.feeds.trans hfeeds) (counts rfl least hc)
      refine .of_leads leads (hframes.imp fun after ⟨hm, current, hb, hle⟩ => ⟨?_, ?_⟩)
      · exact (moves.mono self).trans hm
      · exact ⟨current, hb, by omega⟩

/-- The frames that the first call of a loop opened are drained. -/
theorem passes_opened {drain : Drain Standard} {frames below : List (List Activation)}
    {wave : List Activation} (opens : ∀ frame ∈ frames, script.Opens x frame)
    (hs : drain.stack = frames ++ below) (hw : drain.wave = wave)
    (hfeeds : drain.director.script.Feeds = script.Feeds)
    (loop : drain.director.script.IsLoop x.node) :
    drain.Passes (.frame below wave)
      (Moves (script.Low (script.rank x.node + 1)) drain.director.script) := by
  obtain ⟨current, hb⟩ := loop
  refine (passes_frames hx hd (fun drain below hat hfeeds hc => ?_) frames drain opens hs hw hfeeds
    ⟨current, hb, Int.le_refl _⟩).imp fun after h => h.1
  refine passes_resumed hx hd (Int64.maxValue.toInt + 1 - current.toInt).toNat current.toInt ?_
    drain below wave hat hfeeds hc
  omega

end frames

/-- A list that holds activations of the highest rank first and others behind them is drained: what
the first ones fire joins the others. -/
theorem passes_split {script : Script Standard} {bound : Nat}
    (ih : ∀ lower ≤ bound, Drains script lower) :
    ∀ (first last : List Activation) (drain : Drain Standard) (below : List (List Activation))
      (wave : List Activation), drain.At (first ++ last) (.frame below wave) →
      drain.director.script.Feeds = script.Feeds →
      (∀ a ∈ first, script.Low (bound + 1) a.node) → (∀ a ∈ last, script.Low bound a.node) →
      drain.Passes (.frame below wave) (Moves (script.Low (bound + 1)) drain.director.script)
  | [], last, drain, below, wave, hat, hfeeds, _, hlast =>
    (ih bound (Nat.le_refl _) last drain below wave hat hfeeds hlast).imp fun _ hm =>
      hm.mono fun _ h => h.mono (Nat.le_succ _)
  | a :: first, last, drain, below, wave, hat, hfeeds, hfirst, hlast => by
    obtain ⟨⟨hclear, hrank⟩, hfirst⟩ := List.forall_mem_cons.1 hfirst
    have self : ∀ id, id = a.node → script.Low (bound + 1) id := by
      rintro id rfl
      exact ⟨hclear, hrank⟩
    cases goes_of_at hat with
    | ends fuel ending run => exact .inl ⟨fuel, ending, run⟩
    | on next fired leads waits feeds moves counts =>
      have hfired : ∀ b ∈ fired, script.Low bound b.node := fun b hb =>
        (Low.of_feeds hclear (hfeeds ▸ feeds b hb)).mono (Nat.le_of_lt_succ hrank)
      have hmore : ∀ b ∈ last ++ fired, script.Low bound b.node := fun b hb =>
        (List.mem_append.1 hb).elim (hlast b) (hfired b)
      have hwaits : next.At (first ++ (last ++ fired)) (.frame below wave) := by
        rw [← List.append_assoc]
        exact waits
      refine .of_leads leads ((passes_split ih first (last ++ fired) next below wave hwaits
        (moves.feeds.trans hfeeds) hfirst hmore).imp fun after hm => ?_)
      exact (moves.mono self).trans hm
    | into next frames leads stack wave' opens loop moves counts =>
      unfold Opens at opens
      rw [hfeeds] at opens
      have hframes := passes_opened hclear (ih _ (Nat.le_of_lt_succ hrank)) opens stack wave'
        (moves.feeds.trans hfeeds) ((moves.isLoop a.node).2 loop)
      refine .of_leads leads (hframes.bind fun later hp hm => ?_)
      refine (passes_split ih first last later below wave (at_of_past_below hp)
        (hm.feeds.trans (moves.feeds.trans hfeeds)) hfirst hlast).imp fun after hm' => ?_
      exact ((moves.mono self).trans (hm.mono fun _ h => h.mono hrank)).trans hm'

/-- The induction on the rank of what a frame holds. -/
theorem drains (script : Script Standard) (bound : Nat) : Drains script bound := by
  induction bound using Nat.strongRecOn with
  | ind bound ih =>
    intro list drain below wave hat hfeeds hlow
    cases bound with
    | zero =>
      rcases list with _ | ⟨a, list⟩
      · exact .of_at_nil hat (.refl _)
      · exact absurd (hlow a List.mem_cons_self).2 (Nat.not_lt_zero _)
    | succ bound =>
      exact passes_split (fun lower hl => ih lower (Nat.lt_succ_of_le hl)) list [] drain below wave
        (by simpa using hat) hfeeds hlow (List.forall_mem_nil _)

/-! ## The wave -/

/-- The wave is drained call by call, each with the frames that it opens. -/
theorem passes_wave {script : Script Standard} (hs : script.Unwinds) :
    ∀ (wave : List Activation) (drain : Drain Standard), drain.At wave .wave →
      Moves (fun _ => True) script drain.director.script → drain.Passes .wave fun _ => True
  | [], _, hat, _ => .of_at_nil hat trivial
  | a :: wave, drain, hat, hm => by
    have self : ∀ id, id = a.node → True := fun _ _ => trivial
    cases goes_of_at hat with
    | ends fuel ending run => exact .inl ⟨fuel, ending, run⟩
    | on next fired leads waits feeds moves counts =>
      have hwaits : next.At wave .wave := by simpa [Place.outer] using waits
      exact .of_leads leads (passes_wave hs wave next hwaits (hm.trans (moves.mono self)))
    | into next frames leads stack wave' opens loop moves counts =>
      have hclear := hs.clear ((hm.isLoop a.node).1 loop)
      unfold Opens at opens
      rw [hm.feeds] at opens
      have hframes := passes_opened hclear (drains script _) opens stack wave'
        (moves.feeds.trans hm.feeds) ((moves.isLoop a.node).2 loop)
      refine .of_leads leads (hframes.bind fun later hp hm' => ?_)
      exact passes_wave hs wave later (at_of_past_below hp)
        ((hm.trans (moves.mono self)).trans (hm'.mono fun _ _ => trivial))

/-- Past the wave there is nothing left but to end the tick. -/
theorem Passes.ends [Behavior β] {drain : Drain β} {wanted : Script β → Prop}
    (h : drain.Passes .wave wanted) : ∃ fuel ending, drain.run fuel = some ending := by
  rcases h with hended | ⟨next, ⟨steps, hsteps⟩, ⟨hstack, hwave⟩, -⟩
  · exact hended
  · refine ⟨steps + 1, next.finish, ?_⟩
    rw [hsteps, run, step, hstack]
    simp only [hwave]

end Drain

/-! ## Where cycles go round -/

theorem Script.Opens.clear {script : Script Standard} {a : Activation} {frame : List Activation}
    (h : script.Opens a frame) (hc : script.Clear a.node) : ∀ b ∈ frame, script.Clear b.node := by
  rcases h with rfl | hfed
  · intro b hb
    rw [List.mem_singleton.1 hb]
    exact hc
  · exact fun b hb => hc.feeds (hfed b hb)

namespace Moment

variable {script : Script Standard} {m : Moment Standard}

/-- Only calls that succeed put something into a frame. -/
theorem call_of_mem_entered {b : Activation} (h : b ∈ m.entered) : ∃ call latent,
    m.call? = some call ∧ call.verdict = .ok latent
      ∧ b ∈ call.turn.frames.flatten
        ++ if m.depth = 0 ∧ call.turn.frames = [] then [] else call.turn.fired := by
  unfold entered at h
  split at h
  · rename_i latent turn found hc
    exact ⟨_, latent, hc, rfl, h⟩
  · cases h

/-- Where no cycle is reached from a loop, none is reached from what enters a frame. -/
theorem entered_clear (hs : script.Unwinds)
    (hm : Moves (fun _ => True) script m.director.script)
    (ha : m.depth ≠ 0 → script.Clear m.activation.node) :
    ∀ b ∈ m.entered, script.Clear b.node := by
  intro b hb
  obtain ⟨call, latent, hc, -, hb⟩ := call_of_mem_entered hb
  have hfired := fired_feeds hc
  obtain ⟨hopens, hloop⟩ := frames_open hc
  unfold Opens at hopens
  rw [hm.feeds] at hfired hopens
  by_cases hframes : call.turn.frames = []
  · rw [hframes] at hb
    split at hb
    · cases hb
    · rename_i hdepth
      exact (ha fun h0 => hdepth ⟨h0, rfl⟩).feeds (hfired b (by simpa using hb))
  · have hclear := hs.clear ((hm.isLoop m.activation.node).1 (hloop hframes))
    rw [if_neg fun h => hframes h.2] at hb
    rcases List.mem_append.1 hb with hb | hb
    · obtain ⟨frame, hframe, hb⟩ := List.mem_flatten.1 hb
      exact Script.Opens.clear (hopens frame hframe) hclear b hb
    · exact hclear.feeds (hfired b hb)

end Moment

namespace Drain

/-- From what waits in the frames of a tick no cycle is reached. -/
structure Tame (script : Script Standard) (drain : Drain Standard) : Prop where
  moves : Moves (fun _ => True) script drain.director.script
  frames : ∀ a ∈ drain.stack.flatten, script.Clear a.node

variable {script : Script Standard}

theorem Tame.next? {drain rest : Drain Standard} {a : Activation} (h : drain.Tame script)
    (hn : drain.next? = some (a, rest)) :
    rest.Tame script ∧ (rest.stack.length ≠ 0 → script.Clear a.node) := by
  have hclear := h.frames
  have hmoves := h.moves
  unfold Drain.next? at hn
  split at hn <;> cases hn
  · rename_i frame stack hs
    rw [hs] at hclear
    exact ⟨⟨hmoves, fun b hb => hclear b (by simp_all)⟩, fun _ => hclear _ (by simp)⟩
  · rename_i wave hs _
    exact ⟨⟨hmoves, hclear⟩, fun hne => absurd (by simp [hs]) hne⟩

theorem Tame.step (hs : script.Unwinds) {drain next : Drain Standard} (h : drain.Tame script)
    (hstep : drain.step = .inl next) : next.Tame script := by
  rcases hn : drain.next? with _ | ⟨a, rest⟩
  · rcases step_of_next?_none hn with ⟨stack, hstack, hclose⟩ | ⟨-, -, hfinish⟩
    · rw [hclose] at hstep
      cases hstep
      exact ⟨h.moves, fun b hb => h.frames b (by simpa [hstack] using hb)⟩
    · rw [hfinish] at hstep
      cases hstep
  · obtain ⟨hrest, hclear⟩ := h.next? hn
    rw [step_of_next?_some hn] at hstep
    have hscript := rest.handle_script a
    rw [hstep, Sum.elim_inl] at hscript
    have hmoves := (rest.moment a).moves (goes_of_handle hstep)
    refine ⟨?_, fun b hb => ?_⟩
    · rw [hscript]
      exact hrest.moves.trans (hmoves.mono fun _ _ => trivial)
    · have hframes := (handles_of_handle hstep).frames.mem_iff.1 hb
      exact (List.mem_append.1 hframes).elim (hrest.frames b)
        (Moment.entered_clear (m := rest.moment a) hs hrest.moves hclear b)

end Drain

namespace Director

/-- If no cycle of connections can be reached from an output of a loop, every tick ends, whatever
was queued, pulsed and set before it, and whatever is written during it. A call of a node on a cycle
is a call of the wave: it adds nothing to its own tick, and what it leads to waits for the next. -/
theorem update_ends (director : Director Standard) (hs : director.script.Unwinds)
    (sim real : Float) :
    (∃ fuel ending, director.update fuel sim real = some ending)
      ∧ ∀ fuel, ∀ m ∈ director.history fuel sim real,
        director.script.Cyclic m.activation.node → m.depth = 0 ∧ m.entered = []
          ∧ ∀ call latent, m.call? = some call → call.verdict = .ok latent →
            m.carried = (if latent then [m.activation.resumed] else []) ++ call.turn.fired
              ++ call.found.map fun id => { node := id, input := none, first := true } := by
  rcases hf : director.fault with _ | reason
  swap
  · refine ⟨⟨0, _, by rw [update, hf]⟩, fun fuel m hm => ?_⟩
    rw [history, hf] at hm
    cases hm
  have hbegin : Moves (fun _ => True) director.script (director.begin sim real).director.script :=
    .refl _
  constructor
  · obtain ⟨fuel, ending, hrun⟩ := (Drain.passes_wave hs _ _ ⟨rfl, rfl⟩ hbegin).ends
    refine ⟨fuel, ending, ?_⟩
    rw [update, hf]
    exact hrun
  · intro fuel m hm hcyclic
    rw [history_of_fault hf] at hm
    obtain ⟨hhistory, -⟩ := Drain.invariant (fun _ _ h => Drain.Tame.step hs h) fuel _
      ⟨hbegin, List.forall_mem_nil _⟩
    obtain ⟨before, a, rest, htame, hn, rfl⟩ := hhistory m hm
    obtain ⟨hrest, hclear⟩ := htame.next? hn
    have hdepth : rest.stack.length = 0 := by
      by_contra hne
      exact (hclear hne).not_cyclic hcyclic
    have hframes : ∀ call, (rest.moment a).call? = some call → call.turn.frames = [] := by
      intro call hc
      by_contra hne
      have hloop := (hrest.moves.isLoop a.node).1 ((Moment.frames_open hc).2 hne)
      exact (hs.clear hloop).not_cyclic hcyclic
    refine ⟨hdepth, ?_, fun call latent hc hv => ?_⟩
    · refine List.eq_nil_iff_forall_not_mem.2 fun b hb => ?_
      obtain ⟨call, latent, hc, -, hb⟩ := Moment.call_of_mem_entered hb
      rw [hframes call hc, if_pos ⟨hdepth, rfl⟩] at hb
      cases hb
    · have hwave : (rest.moment a).depth = 0 ∧ call.turn.frames = [] := ⟨hdepth, hframes call hc⟩
      rw [Moment.carried_of_ok hc hv, if_pos hwave]

/-- A loop whose end is moved by its own body, and two nodes that call each other. -/
def treadmill : Director Standard where
  script := List.foldl Script.edit (Script.withRootName "root")
    [.addNode rootGraph Standard.forLoopNode, .addNode rootGraph (Standard.switchNode []),
      .addNode rootGraph (Standard.cell "Integer" (.int 1)),
      .addNode rootGraph (Standard.passThroughNode "Input"),
      .addNode rootGraph (Standard.passThroughNode "Output"),
      .connect ⟨⟨0⟩, 0⟩ ⟨⟨1⟩, 0⟩, .connectValue ⟨⟨0⟩, 1⟩ ⟨2⟩, .connectValue ⟨⟨1⟩, 0⟩ ⟨2⟩,
      .connect ⟨⟨3⟩, 0⟩ ⟨⟨4⟩, 0⟩, .connect ⟨⟨4⟩, 0⟩ ⟨⟨3⟩, 0⟩]
  injected := [{ node := ⟨0⟩, input := some 0 }, { node := ⟨3⟩, input := some 0 }]

/-- A tick of `treadmill` ends although the loop moves its end, and the two other nodes call each
other from one tick to the next. -/
theorem update_ends_of_treadmill : treadmill.script.Unwinds
    ∧ (∃ fuel ending, treadmill.update fuel 0 0 = some ending)
    ∧ treadmill.script.Cyclic ⟨3⟩
    ∧ ∀ m ∈ treadmill.history 20 0 0, m.activation.node = ⟨3⟩ → m.depth = 0 ∧ m.entered = [] := by
  have hconnected : ∀ node ∈ treadmill.script.nodes, ∀ b ∈ node.outputs.flatMap fun link =>
      link.connected.map (·.node),
        (node.id, b) ∈ [((⟨0⟩, ⟨1⟩) : NodeId × NodeId), (⟨3⟩, ⟨4⟩), (⟨4⟩, ⟨3⟩)] := by
    decide +kernel
  have hfeeds : ∀ a b, treadmill.script.Feeds a b →
      a = ⟨0⟩ ∧ b = ⟨1⟩ ∨ a = ⟨3⟩ ∧ b = ⟨4⟩ ∨ a = ⟨4⟩ ∧ b = ⟨3⟩ := by
    intro a b h
    obtain ⟨node, hn, rfl, hb⟩ := h.listed
    simpa using hconnected node hn b hb
  have hbehaviors : treadmill.script.nodes.map (fun node => (node.id, node.behavior)) =
      [(⟨0⟩, some (.forLoop 0)), (⟨1⟩, some .switch), (⟨2⟩, some .inert), (⟨3⟩, some .passThrough),
        (⟨4⟩, some .passThrough)] := rfl
  have hbody : ∀ reached, Relation.TransGen treadmill.script.Feeds ⟨0⟩ reached →
      reached = ⟨1⟩ := by
    intro reached hr
    induction hr with
    | single hf => simpa using hfeeds _ _ hf
    | tail _ hf ih =>
      rw [ih] at hf
      simpa using hfeeds _ _ hf
  have hunwinds : treadmill.script.Unwinds := by
    rintro loop reached ⟨current, hl⟩ hr hc
    obtain ⟨node, hn, hb⟩ := Option.bind_eq_some_iff.1 hl
    obtain ⟨rfl, -⟩ : loop = ⟨0⟩ ∧ current = 0 := by
      simpa using Script.behavior_listed hbehaviors hn hb
    rw [hbody reached hr] at hc
    obtain ⟨next, hf, -⟩ := Relation.TransGen.head'_iff.1 hc
    simpa using hfeeds _ _ hf
  have hcyclic : treadmill.script.Cyclic ⟨3⟩ := by
    have hout : ⟨⟨4⟩, 0⟩ ∈ treadmill.script.targets ⟨⟨3⟩, 0⟩ := by decide +kernel
    have hback : ⟨⟨3⟩, 0⟩ ∈ treadmill.script.targets ⟨⟨4⟩, 0⟩ := by decide +kernel
    exact .tail (.single ⟨0, _, hout, rfl⟩) ⟨0, _, hback, rfl⟩
  obtain ⟨hends, hcycles⟩ := update_ends treadmill hunwinds 0 0
  refine ⟨hunwinds, hends, hcyclic, fun m hm heq => ?_⟩
  obtain ⟨hdepth, hentered, -⟩ := hcycles 20 m hm (heq ▸ hcyclic)
  exact ⟨hdepth, hentered⟩

end Director

end FlowScript
