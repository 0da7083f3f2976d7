import FlowScript.Proofs.Edit
import FlowScript.Standard.Catalog

/-!
# Descriptions of nodes

A description of a node is put together link by link, and none of its inputs and outputs is
connected (`Made.unconnected`). A value link of it may be bound, if it was read off a node that has
been placed. Overriding values keeps a description so, and every description that the registry of
the standard nodes gives is of this kind (`Standard.places_made`).
-/

namespace FlowScript

variable {β : Type}

/-- What can be put together as the description of a node. Its inputs and outputs are named and
connected to nothing; its value links are any that a host has, bound ones among them. -/
inductive NodeBuilder.Made : NodeBuilder β → Prop where
  | action (type : TypeId) (behavior : β) : Made (.action type behavior)
  | event (type : TypeId) (behavior : β) : Made (.event type behavior)
  | value (type : TypeId) (initial : Property) (behavior : β) : Made (.value type initial behavior)
  | input {builder : NodeBuilder β} (name : String) (made : Made builder) :
      Made (builder.input name)
  | output {builder : NodeBuilder β} (name : String) (made : Made builder) :
      Made (builder.output name)
  | link {builder : NodeBuilder β} (link : ValueLink) (made : Made builder) :
      Made (builder.link link)
  | property {builder : NodeBuilder β} (name : String) (value : Property) (made : Made builder) :
      Made (builder.property name value)
  | override {builder builder' : NodeBuilder β} {name : String} {value : Property}
      (h : builder.override name value = .ok builder') (made : Made builder) : Made builder'

/-- An override changes values only. -/
theorem NodeBuilder.links_of_override {builder builder' : NodeBuilder β} {name : String}
    {value : Property} (h : builder.override name value = .ok builder') :
    builder'.inputs = builder.inputs ∧ builder'.outputs = builder.outputs := by
  unfold override at h
  split at h
  · split at h
    · obtain rfl := Except.ok.inj h
      exact ⟨rfl, rfl⟩
    · cases h
  · split at h <;> obtain rfl := Except.ok.inj h <;> exact ⟨rfl, rfl⟩

theorem NodeBuilder.Made.withOverrides : ∀ (overrides : PropertySet)
    {builder builder' : NodeBuilder β}, builder.Made →
      builder.withOverrides overrides = .ok builder' → builder'.Made
  | [], builder, builder', hm, h => by
    rw [NodeBuilder.withOverrides] at h
    obtain rfl := Except.ok.inj h
    exact hm
  | (name, authored) :: rest, builder, builder', hm, h => by
    rw [NodeBuilder.withOverrides] at h
    obtain ⟨next, hn, h⟩ := bind_eq_ok.1 h
    exact withOverrides rest (.override hn hm) h

theorem NodeBuilder.Made.unconnected {builder : NodeBuilder β} (h : builder.Made) :
    (∀ link ∈ builder.inputs, link.connected = [])
      ∧ ∀ link ∈ builder.outputs, link.connected = [] := by
  induction h with
  | action type behavior | event type behavior | value type initial behavior =>
    exact ⟨List.forall_mem_nil _, List.forall_mem_nil _⟩
  | input name made ih =>
    refine ⟨List.forall_mem_append.2 ⟨ih.1, ?_⟩, ih.2⟩
    rw [List.forall_mem_singleton]
  | output name made ih =>
    refine ⟨ih.1, List.forall_mem_append.2 ⟨ih.2, ?_⟩⟩
    rw [List.forall_mem_singleton]
  | link link made ih => exact ih
  | property name value made ih => exact ih
  | override h made ih =>
    rw [(links_of_override h).1, (links_of_override h).2]
    exact ih

/-- Every description that a registry gives is permitted. -/
def Registry.Places (registry : Registry β) (placed : NodeBuilder β → Prop) : Prop :=
  ∀ type properties builder, registry.create type properties = .ok builder → placed builder

/-! ## Registries -/

theorem Keyed.mem_of_get? {κ α : Type} [DecidableEq κ] {key : κ} {a : α} :
    ∀ {m : Keyed κ α}, Keyed.get? m key = some a → (key, a) ∈ m
  | [], h => by simp [get?] at h
  | (k, v) :: m, h => by
    rw [get?] at h
    split at h
    · rename_i hk
      rw [← hk, ← Option.some.inj h]
      exact List.mem_cons_self
    · exact List.mem_cons_of_mem _ (mem_of_get? h)

theorem Keyed.mem_of_mem_insert {κ α : Type} [DecidableEq κ] {key : κ} {a : α} {e : κ × α} :
    ∀ {m : Keyed κ α}, e ∈ Keyed.insert m key a → e = (key, a) ∨ e ∈ m
  | [], h => .inl (List.mem_singleton.1 h)
  | (k, v) :: m, h => by
    rw [insert] at h
    split at h <;> rename_i hk <;> rcases List.mem_cons.1 h with rfl | h
    · exact .inl (by rw [hk])
    · exact .inr (List.mem_cons_of_mem _ h)
    · exact .inr List.mem_cons_self
    · exact (mem_of_mem_insert h).imp id (List.mem_cons_of_mem _)

/-- A registry holds what it held before and what was registered. -/
theorem Registry.mem_of_registerAll {e : TypeId × Factory β} :
    ∀ (entries : List (TypeId × Factory β)) (registry : Registry β),
      e ∈ (registry.registerAll entries).2.factories → e ∈ registry.factories ∨ e ∈ entries
  | [], registry, h => .inl h
  | (type, factory) :: rest, registry, h => by
    rw [registerAll, register] at h
    split at h
    · rename_i next hr
      split at hr
      · cases hr
      · obtain rfl := Except.ok.inj hr
        rcases mem_of_registerAll rest _ h with h | h
        · rcases Keyed.mem_of_mem_insert h with rfl | h
          · exact .inr List.mem_cons_self
          · exact .inl h
        · exact .inr (List.mem_cons_of_mem _ h)
    · exact .inl h

theorem Standard.made_withOutputs {builder : NodeBuilder Standard} (hm : builder.Made) :
    ∀ count : Nat, (withOutputs builder count).Made
  | 0 => by
    rw [withOutputs, List.range_zero, List.map_nil, List.append_nil]
    exact hm
  | count + 1 => by
    have h := (made_withOutputs hm count).output ("Out" ++ (count + 1).repr)
    rw [withOutputs, List.range_succ, List.map_append, ← List.append_assoc]
    exact h

theorem Standard.made_of_mem_catalog : ∀ e ∈ catalog, ∀ properties, (e.2 properties).Made := by
  simp only [catalog, List.forall_mem_cons]
  refine ⟨fun _ => ?toggle, fun _ => ?forLoop, fun _ => ?switch, fun _ => ?delay, fun _ => ?branch,
    fun _ => ?start, fun _ => ?remoteEvent, fun _ => ?callRemoteEvent, fun _ => ?entry,
    fun _ => ?exit, fun _ => ?sendMessage, fun _ => .value _ _ _, fun _ => .value _ _ _,
    fun _ => .value _ _ _, fun _ => .value _ _ _, fun _ => .value _ _ _, List.forall_mem_nil _⟩
  case toggle => exact .link _ (.output _ (.input _ (.input _ (.input _ (.action _ _)))))
  case forLoop =>
    exact .link _ (.link _ (.link _ (.output _ (.output _ (.input _ (.action _ _))))))
  case switch =>
    exact made_withOutputs
      (.link _ (.property _ _ (.property _ _ (.input _ (.input _ (.action _ _)))))) _
  case delay => exact .link _ (.output _ (.output _ (.input _ (.input _ (.action _ _)))))
  case branch => exact .link _ (.output _ (.output _ (.input _ (.action _ _))))
  case start => exact .output _ (.event _ _)
  case remoteEvent => exact .property _ _ (.output _ (.event _ _))
  case callRemoteEvent =>
    exact .property _ _ (.property _ _ (.output _ (.input _ (.action _ _))))
  case entry | exit => exact .output _ (.input _ (.action _ _))
  case sendMessage => exact .link _ (.property _ _ (.output _ (.input _ (.action _ _))))

theorem Standard.places_made : registry.Places NodeBuilder.Made := by
  intro type properties builder h
  rw [Registry.create] at h
  split at h
  · cases h
  · rename_i factory hf
    rcases Registry.mem_of_registerAll catalog _ (Keyed.mem_of_get? hf) with he | he
    · cases he
    · exact (made_of_mem_catalog _ he properties).withOverrides properties h

end FlowScript
