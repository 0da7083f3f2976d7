import Mathlib.Data.List.Induction

/-!
# The first fault

A computation that takes steps and stops at the first one that fails is described by two functions:
which fault a step has after the steps before it, and what is right after steps without a fault
(`Answers.foldlM`).
-/

namespace FlowScript

/-! ## Computations that fail -/

/-- The computation fails with the fault, if there is one, and else gives a result that is right. -/
def Answers {ε α : Type} (x : Except ε α) (fault : Option ε) (right : α → Prop) : Prop :=
  fault.elim (∃ a, x = .ok a ∧ right a) (x = .error ·)

namespace Answers

variable {ε α γ : Type} {x : Except ε α} {fault fault' : Option ε} {right : α → Prop}

theorem ok {a : α} (h : right a) : Answers (.ok a : Except ε α) none right := ⟨a, rfl, h⟩

theorem isOk_iff (h : Answers x fault right) : (∃ a, x = .ok a) ↔ fault = none := by
  rcases fault with _ | e
  · obtain ⟨a, heq, -⟩ := h
    exact iff_of_true ⟨a, heq⟩ rfl
  · refine iff_of_false ?_ nofun
    rintro ⟨a, heq⟩
    cases heq.symm.trans h

theorem error_iff (h : Answers x fault right) (e : ε) : x = .error e ↔ fault = some e := by
  rcases fault with _ | e'
  · obtain ⟨a, heq, -⟩ := h
    rw [heq]
    exact iff_of_false nofun nofun
  · have heq : x = .error e' := h
    rw [heq, Except.error.injEq, Option.some.injEq]

theorem right_of_ok (h : Answers x fault right) {a : α} (ha : x = .ok a) : right a := by
  obtain rfl := h.isOk_iff.1 ⟨a, ha⟩
  obtain ⟨a', ha', hright⟩ := h
  obtain rfl := Except.ok.inj (ha.symm.trans ha')
  exact hright

theorem imp {right' : α → Prop} (h : Answers x fault right) (hr : ∀ a, right a → right' a) :
    Answers x fault right' := by
  rcases fault with _ | e
  · obtain ⟨a, heq, ha⟩ := h
    exact ⟨a, heq, hr a ha⟩
  · exact h

theorem mapError {ε' : Type} (f : ε → ε') (h : Answers x fault right) :
    Answers (x.mapError f) (fault.map f) right := by
  rcases fault with _ | e
  · obtain ⟨a, rfl, ha⟩ := h
    exact .ok ha
  · obtain rfl : x = .error e := h
    rfl

theorem bind {f : α → Except ε γ} {right' : γ → Prop} (h : Answers x fault right)
    (hf : ∀ a, right a → Answers (f a) fault' right') :
    Answers (x >>= f) (fault.or fault') right' := by
  rcases fault with _ | e
  · obtain ⟨a, rfl, ha⟩ := h
    exact hf a ha
  · obtain rfl : x = .error e := h
    rfl

end Answers

/-! ## Steps that fail -/

/-- The first fault of steps that are taken one after another, after others. -/
def firstFault {α ε : Type} (fault : List α → α → Option ε) : List α → List α → Option ε
  | _, [] => none
  | before, a :: rest => (fault before a).or (firstFault fault (before ++ [a]) rest)

section firstFault

variable {α ε σ : Type} {fault : List α → α → Option ε}

theorem firstFault_append : ∀ (l l' before : List α), firstFault fault before (l ++ l') =
    (firstFault fault before l).or (firstFault fault (before ++ l) l')
  | [], l', before => by rw [List.append_nil]; rfl
  | a :: l, l', before => by
    rw [List.cons_append, firstFault, firstFault, firstFault_append l l', Option.or_assoc,
      List.append_assoc]
    rfl

/-- A fault is the first one if the steps before it have none. -/
theorem firstFault_eq_some {e : ε} : ∀ {l before : List α}, firstFault fault before l = some e ↔
    ∃ p a q, l = p ++ a :: q ∧ firstFault fault before p = none ∧ fault (before ++ p) a = some e
  | [], before => by simp [firstFault]
  | a :: l, before => by
    rw [firstFault]
    rcases hfault : fault before a with _ | e'
    · rw [Option.none_or, firstFault_eq_some]
      constructor
      · rintro ⟨p, b, q, rfl, hp, hb⟩
        refine ⟨a :: p, b, q, rfl, ?_, ?_⟩
        · rw [firstFault, hfault, Option.none_or, hp]
        · rw [← hb, List.append_assoc]
          rfl
      · rintro ⟨p, b, q, heq, hp, hb⟩
        rcases List.cons_eq_append_iff.1 heq with ⟨rfl, hcons⟩ | ⟨p', rfl, rfl⟩
        · obtain ⟨rfl, -⟩ := List.cons.inj hcons
          rw [List.append_nil, hfault] at hb
          cases hb
        · rw [firstFault, hfault, Option.none_or] at hp
          refine ⟨p', b, q, rfl, hp, ?_⟩
          rw [← hb, List.append_assoc]
          rfl
    · rw [Option.some_or]
      constructor
      · intro heq
        exact ⟨[], a, l, rfl, rfl, by rw [List.append_nil, hfault, heq]⟩
      · rintro ⟨p, b, q, heq, hp, hb⟩
        rcases List.cons_eq_append_iff.1 heq with ⟨rfl, hcons⟩ | ⟨p', rfl, rfl⟩
        · obtain ⟨rfl, -⟩ := List.cons.inj hcons
          rw [List.append_nil, hfault] at hb
          exact hb
        · rw [firstFault, hfault, Option.some_or] at hp
          cases hp

/-- There is no fault if one condition holds at first and each step that has none keeps it. -/
theorem firstFault_eq_none {S : List α → Prop} (nil : S [])
    (concat : ∀ before a, S (before ++ [a]) ↔ S before ∧ fault before a = none) (l : List α) :
    firstFault fault [] l = none ↔ S l := by
  induction l using List.reverseRecOn with
  | nil => exact iff_of_true rfl nil
  | append_singleton l a ih =>
    rw [firstFault_append, Option.or_eq_none_iff, ih, concat, List.nil_append, firstFault,
      firstFault, Option.or_none]

/-- Steps that each take some pieces fail with the first fault among all pieces, or lead on. -/
theorem Answers.foldlM {γ : Type} {step : σ → γ → Except ε σ} {pieces : γ → List α}
    {right : List α → σ → Prop} (h : ∀ before s c, right before s →
      Answers (step s c) (firstFault fault before (pieces c)) (right (before ++ pieces c))) :
    ∀ (l : List γ) (before : List α) (s : σ), right before s →
      Answers (l.foldlM step s) (firstFault fault before (l.flatMap pieces))
        (right (before ++ l.flatMap pieces))
  | [], before, s, hs => by
    rw [List.flatMap_nil, List.append_nil]
    exact .ok hs
  | c :: l, before, s, hs => by
    rw [List.foldlM_cons, List.flatMap_cons, firstFault_append]
    refine (h before s c hs).bind fun s' hs' => ?_
    have hrest := foldlM h l (before ++ pieces c) s' hs'
    rwa [List.append_assoc] at hrest

end firstFault

end FlowScript
