import FlowScript.Proofs.Edit
import FlowScript.Proofs.Moment
import FlowScript.Standard.Catalog

/-!
# Pulses counted

An output counts its pulses up to a largest count, and every test that succeeds takes one pulse off.
However the two are mixed, what was taken, what is left and what was lost at the largest count are
together all the pulses there were (`conserved`), so that nothing is invented, and nothing is lost
as long as there is room (`lost_eq_zero_iff`). Taking pulses until there is none comes to an end,
with each connected input called once for each pulse (`drains_iff`).
-/

namespace FlowScript

variable {β : Type}

namespace OutputLink

/-- One use of the count of an output. -/
inductive Use where
  | activate
  | test
deriving DecidableEq

/-- The output after one use. -/
def used (link : OutputLink) : Use → OutputLink
  | .activate => link.activate
  | .test => link.test.2

/-- The output after uses one after another. -/
def after (link : OutputLink) (uses : List Use) : OutputLink := uses.foldl used link

/-- What the tests among some uses answer, one after another. -/
def answers : OutputLink → List Use → List Bool
  | _, [] => []
  | link, .activate :: uses => link.activate.answers uses
  | link, .test :: uses => link.test.1 :: link.test.2.answers uses

/-- How many pulses are lost in some uses. -/
def lost : OutputLink → List Use → Nat
  | _, [] => 0
  | link, .activate :: uses => (link.active + 1 - link.activate.active) + link.activate.lost uses
  | link, .test :: uses => link.test.2.lost uses

/-- The count is at its largest. -/
def Full (link : OutputLink) : Prop := maxActive ≤ link.active

/-- Whenever a pulse is added in some uses, there is room for it. -/
def KeepsRoom (link : OutputLink) (uses : List Use) : Prop :=
  ∀ earlier, earlier ++ [.activate] <+: uses → ¬ (link.after earlier).Full

/-- Taking pulses of an output one by one until there is none: what is called on the way, and the
output that is left. Nothing bounds the attempts. -/
inductive Drains : OutputLink → List Activation → OutputLink → Prop where
  | spent {link rest : OutputLink} (refused : link.test = (false, rest)) : Drains link [] rest
  | again {link rest left : OutputLink} {later : List Activation}
      (taken : link.test = (true, rest)) (goesOn : Drains rest later left) :
      Drains link (rest.targets ++ later) left

/-! ## Adding and taking -/

theorem active_activate (link : OutputLink) :
    link.activate.active = min (link.active + 1) maxActive := rfl

theorem test_of_spent {link : OutputLink} (h : link.active = 0) : link.test = (false, link) :=
  if_neg (Nat.not_lt.2 (Nat.le_of_eq h))

theorem test_of_pos {link : OutputLink} (h : 0 < link.active) :
    link.test = (true, { link with active := link.active - 1 }) :=
  if_pos h

theorem used_test (link : OutputLink) :
    link.used .test = { link with active := link.active - 1 } := by
  obtain ⟨name, connected, active⟩ := link
  cases active <;> rfl

theorem after_cons (link : OutputLink) (use : Use) (uses : List Use) :
    link.after (use :: uses) = (link.used use).after uses := rfl

/-- What was taken, what is left and what was lost are the pulses that there were and those that
were added. -/
theorem conserved : ∀ (link : OutputLink) (uses : List Use),
    (link.answers uses).count true + (link.after uses).active + link.lost uses
      = link.active + uses.count .activate
  | link, [] => Nat.zero_add _
  | link, .activate :: uses => by
    have ih := link.activate.conserved uses
    have hle : link.activate.active ≤ link.active + 1 := Nat.min_le_left _ _
    rw [answers, lost, after_cons, used, List.count_cons_self]
    omega
  | link, .test :: uses => by
    have ih := link.test.2.conserved uses
    have hother : Use.test ≠ .activate := nofun
    rw [answers, lost, after_cons, used, List.count_cons_of_ne hother]
    rcases Nat.eq_zero_or_pos link.active with hspent | hpos
    · simp only [test_of_spent hspent] at ih ⊢
      rw [List.count_cons_of_ne Bool.false_ne_true]
      exact ih
    · simp only [test_of_pos hpos] at ih ⊢
      rw [List.count_cons_self]
      omega

theorem keepsRoom_cons {link : OutputLink} {use : Use} {uses : List Use} :
    link.KeepsRoom (use :: uses)
      ↔ (use = .activate → ¬ link.Full) ∧ (link.used use).KeepsRoom uses := by
  constructor
  · intro h
    refine ⟨?_, fun earlier he => h (use :: earlier) ((List.prefix_cons_inj use).2 he)⟩
    rintro rfl
    exact h [] ((List.prefix_cons_inj _).2 List.nil_prefix)
  · rintro ⟨hfirst, hrest⟩ (_ | ⟨first, earlier⟩) he
    · exact hfirst (List.cons_prefix_cons.1 he).1.symm
    · obtain ⟨rfl, hearlier⟩ := List.cons_prefix_cons.1 he
      exact hrest earlier hearlier

theorem lost_eq_zero_iff : ∀ {link : OutputLink} {uses : List Use},
    link.lost uses = 0 ↔ link.KeepsRoom uses
  | link, [] => iff_of_true rfl fun earlier he => by simp at he
  | link, .activate :: uses => by
    have hroom : link.active + 1 - link.activate.active = 0 ↔ ¬ link.Full := by
      rw [active_activate, Full]
      omega
    rw [lost, Nat.add_eq_zero_iff, hroom, lost_eq_zero_iff, keepsRoom_cons]
    exact and_congr_left fun _ => ⟨fun h _ => h, fun h => h rfl⟩
  | link, .test :: uses => by
    rw [lost, lost_eq_zero_iff, keepsRoom_cons]
    exact (and_iff_right nofun).symm

theorem active_after_le {link : OutputLink} (h : link.active ≤ maxActive) (uses : List Use) :
    (link.after uses).active ≤ maxActive := by
  induction uses generalizing link with
  | nil => exact h
  | cons use uses ih =>
    have hused : (link.used use).active ≤ maxActive := by
      cases use with
      | activate => exact Nat.min_le_right _ _
      | test =>
        rw [used_test]
        exact Nat.le_trans (Nat.sub_le _ _) h
    exact ih hused

theorem answers_append : ∀ (link : OutputLink) (uses more : List Use),
    link.answers (uses ++ more) = link.answers uses ++ (link.after uses).answers more
  | _, [], _ => rfl
  | link, .activate :: uses, more => link.activate.answers_append uses more
  | link, .test :: uses, more => congrArg (link.test.1 :: ·) (link.test.2.answers_append uses more)

/-! ## Tests in a row -/

theorem after_tests (link : OutputLink) (n : Nat) :
    link.after (List.replicate n .test) = { link with active := link.active - n } := by
  induction n generalizing link with
  | zero => rfl
  | succ n ih =>
    rw [List.replicate_succ, after_cons, used_test, ih, Nat.sub_sub, Nat.add_comm 1 n]

/-- Tests in a row succeed as long as there is a pulse, and then no more. -/
theorem answers_tests (link : OutputLink) (n : Nat) :
    link.answers (List.replicate n .test)
      = List.replicate (min n link.active) true ++ List.replicate (n - link.active) false := by
  induction n generalizing link with
  | zero => simp [answers]
  | succ n ih =>
    obtain ⟨name, connected, active⟩ := link
    rw [List.replicate_succ, answers, ih]
    cases active with
    | zero => simp [test, List.replicate_succ]
    | succ active => simp [test, Nat.add_min_add_right, List.replicate_succ]

/-- Taking pulses until there is none comes to an end, in one way. -/
theorem drains_iff {link left : OutputLink} {called : List Activation} :
    link.Drains called left ↔ called = (List.replicate link.active link.targets).flatten
      ∧ left = { link with active := 0 } := by
  constructor
  · intro h
    induction h with
    | @spent link rest refused =>
      obtain ⟨name, connected, active⟩ := link
      cases active with
      | zero =>
        obtain rfl := (Prod.mk.inj refused).2
        exact ⟨rfl, rfl⟩
      | succ active => cases refused
    | @again link rest left later taken goesOn ih =>
      obtain ⟨name, connected, active⟩ := link
      cases active with
      | zero => cases taken
      | succ active =>
        obtain rfl := (Prod.mk.inj taken).2
        obtain ⟨rfl, rfl⟩ := ih
        exact ⟨rfl, rfl⟩
  · rintro ⟨rfl, rfl⟩
    obtain ⟨name, connected, active⟩ := link
    induction active with
    | zero => exact .spent rfl
    | succ active ih => exact @Drains.again _ ⟨name, connected, active⟩ _ _ rfl ih

end OutputLink

/-- A call that succeeds takes every pulse of its node, output by output, and changes nothing else
about them. -/
theorem Director.takes_pulses [Behavior β] {director : Director β} {turn : Turn β} {node : Node β}
    (hn : director.script.node? turn.activation.node = some node) (behavior : β) (latent : Bool) :
    ∃ effects after, director.complete turn behavior latent = (.completed effects, after)
      ∧ effects.fired = node.outputs.flatMap (fun link =>
        (List.replicate link.active link.targets).flatten)
      ∧ after.script.node? turn.activation.node = some { node with
        behavior := some behavior, outputs := node.outputs.map ({ · with active := 0 }) } := by
  unfold complete
  rw [hn]
  refine ⟨_, _, rfl, ?_, ?_⟩
  · simp only [OutputLink.drain_eq]
  · simp only [OutputLink.drain_eq]
    rw [Script.node?_modifyNode_self, hn, Option.map_some]
    exact fun _ => rfl

/-- However pulses are added to an output and tested for, after any part of it the tests that
succeeded and the pulses that are left are not more than the pulses that there were at first, of
which a new output has none, and those that were added; they are as many exactly if there was room
for each that was added. A count within its range stays there. Tests in a row succeed as often as
there are pulses, and then fail. Taking pulses until there is none comes to an end with the count at
zero and each connected input called in order, once more for each pulse; a call that succeeds does
so for every output of its node, in order. -/
theorem OutputLink.pulses_kept [Behavior β] :
    (∀ (link : OutputLink) (uses part : List Use), part <+: uses →
        link.answers part <+: link.answers uses
          ∧ (link.answers part).count true + (link.after part).active
            ≤ link.active + part.count .activate
          ∧ ((link.answers part).count true + (link.after part).active
            = link.active + part.count .activate ↔ link.KeepsRoom part)
          ∧ (link.active ≤ maxActive → (link.after part).active ≤ maxActive))
      ∧ (∀ (link : OutputLink) (n : Nat),
        link.answers (List.replicate n .test)
            = List.replicate (min n link.active) true ++ List.replicate (n - link.active) false
          ∧ link.after (List.replicate n .test) = { link with active := link.active - n })
      ∧ (∀ (link left : OutputLink) (called : List Activation), link.Drains called left
        ↔ called = (List.replicate link.active link.targets).flatten
          ∧ left = { link with active := 0 })
      ∧ ∀ (director : Director β) (turn : Turn β) (behavior : β) (latent : Bool) (node : Node β),
        director.script.node? turn.activation.node = some node →
          ∃ effects after, director.complete turn behavior latent = (.completed effects, after)
            ∧ effects.fired = node.outputs.flatMap (fun link =>
              (List.replicate link.active link.targets).flatten)
            ∧ after.script.node? turn.activation.node = some { node with
              behavior := some behavior, outputs := node.outputs.map ({ · with active := 0 }) } := by
  refine ⟨?_, fun link n => ⟨link.answers_tests n, link.after_tests n⟩,
    fun link left called => drains_iff,
    fun director turn behavior latent node hn => Director.takes_pulses hn behavior latent⟩
  rintro link uses part ⟨rest, rfl⟩
  have hall := link.conserved part
  refine ⟨?_, by omega, ?_, fun hle => active_after_le hle part⟩
  · rw [answers_append]
    exact List.prefix_append _ _
  · rw [← lost_eq_zero_iff]
    omega

/-- An output that calls two inputs. -/
def chime : OutputLink := { name := "Out", connected := [⟨⟨1⟩, 0⟩, ⟨⟨2⟩, 1⟩] }

/-- Pulses and tests in turn, the last test one too many. -/
def peal : List OutputLink.Use := [.activate, .activate, .test, .activate, .test, .test, .test]

/-- A branch of which one output has one pulse and the other has two, in a script with a toggle. -/
def belfry : Director Standard where
  script := [Edit.addNode rootGraph Standard.branchNode, .addNode rootGraph Standard.toggleNode,
    .connect ⟨⟨0⟩, 0⟩ ⟨⟨1⟩, 0⟩, .connect ⟨⟨0⟩, 1⟩ ⟨⟨1⟩, 1⟩, .connect ⟨⟨0⟩, 1⟩ ⟨⟨1⟩, 2⟩,
    .activateOutput ⟨0⟩ 1, .activateOutput ⟨0⟩ 0, .activateOutput ⟨0⟩ 1].foldl Script.edit
      (.withRootName "root")

/-- All pulses of a new output are taken, and one is lost where the count is at its largest. Of five
tests of three pulses the last two fail. Two pulses of two connections are four calls, and so are
the two of the second output of the branch. -/
theorem OutputLink.pulses_kept_of_chime : chime.KeepsRoom peal
    ∧ ¬ { chime with active := maxActive }.KeepsRoom [.activate, .test]
    ∧ { chime with active := 3 }.answers (List.replicate 5 .test) = [true, true, true, false, false]
    ∧ { chime with active := 2 }.Drains (chime.targets ++ chime.targets) chime
    ∧ ∃ effects after, belfry.complete (belfry.turn { node := ⟨0⟩, input := some 0 } rootGraph)
        .branch false = (.completed effects, after)
      ∧ effects.fired.map (·.input) = [some 0, some 1, some 2, some 1, some 2]
      ∧ (after.script.node? ⟨0⟩).map (·.outputs.map (·.active)) = some [0, 0] := by
  obtain ⟨hparts, htests, hdrains, htakes⟩ := @OutputLink.pulses_kept Standard _
  obtain ⟨-, -, hroom, -⟩ := hparts chime peal peal (List.prefix_refl _)
  obtain ⟨-, -, hlost, -⟩ := hparts { chime with active := maxActive } [.activate, .test]
    [.activate, .test] (List.prefix_refl _)
  have hpulses : (belfry.script.node? ⟨0⟩).map (·.outputs) = some [⟨"True", [⟨⟨1⟩, 0⟩], 1⟩,
      ⟨"False", [⟨⟨1⟩, 1⟩, ⟨⟨1⟩, 2⟩], 2⟩] := by
    decide +kernel
  obtain ⟨node, hn, houtputs⟩ := Option.map_eq_some_iff.1 hpulses
  obtain ⟨effects, after, hdone, hfired, hleft⟩ := htakes belfry
    (belfry.turn { node := ⟨0⟩, input := some 0 } rootGraph) .branch false node hn
  refine ⟨hroom.1 (by decide), fun hkeeps => ?_, (htests _ 5).1,
    (hdrains { chime with active := 2 } chime _).2 ⟨rfl, rfl⟩, effects, after, hdone, ?_, ?_⟩
  · exact absurd (hlost.2 hkeeps) (by decide +kernel)
  · rw [hfired, houtputs]
    rfl
  · have hleft : after.script.node? ⟨0⟩ = some _ := hleft
    rw [hleft, Option.map_some, houtputs]
    rfl

end FlowScript
