import FlowScript.Definition.Export
import FlowScript.Proofs.WellTyped
import Mathlib.Data.List.Nodup

/-!
# Creating a node from its own description

The description of a standard node gives back the node, whatever a session made of its defaults and
of its cell (`recreate`). The factory is given all properties that the node has by now; of these the
number of outputs of a switch is the only one that shapes the node, and no call writes it.
-/

namespace FlowScript

variable {β : Type}

namespace Keyed

variable {κ α : Type} [DecidableEq κ] {m m' : Keyed κ α} {key : κ} {value : α}

theorem get?_eq_none : ∀ {m : Keyed κ α}, get? m key = none ↔ key ∉ keys m
  | [] => by simp [get?, keys]
  | (k, v) :: m => by
    rw [get?, keys, List.map_cons, List.mem_cons, not_or]
    split
    · rename_i hk
      simp [hk]
    · rename_i hk
      rw [get?_eq_none, keys]
      exact (and_iff_right fun heq => hk heq.symm).symm

theorem get?_of_mem : ∀ {m : Keyed κ α}, (keys m).Nodup → (key, value) ∈ m →
    get? m key = some value
  | [], _, h => by cases h
  | (k, v) :: m, hn, h => by
    simp only [keys, List.map_cons, List.nodup_cons] at hn
    rw [get?]
    rcases List.mem_cons.1 h with heq | h
    · simp only [Prod.mk.injEq] at heq
      rw [if_pos heq.1.symm, heq.2]
    · have hne : k ≠ key := by
        rintro rfl
        exact hn.1 (List.mem_map_of_mem h)
      rw [if_neg hne, get?_of_mem hn.2 h]

theorem get?_append (m m' : Keyed κ α) (key : κ) :
    get? (m ++ m') key = (get? m key).or (get? m' key) := by
  induction m with
  | nil => simp [get?]
  | cons e m ih =>
    rw [List.cons_append, get?, get?, ih]
    split <;> simp

theorem insert_of_not_mem : ∀ {m : Keyed κ α}, key ∉ keys m →
    insert m key value = m ++ [(key, value)]
  | [], _ => rfl
  | (k, v) :: m, h => by
    simp only [keys, List.map_cons, List.mem_cons, not_or] at h
    rw [insert, if_neg (Ne.symm h.1), insert_of_not_mem h.2, List.cons_append]

theorem keys_insert_of_mem (value : α) : ∀ {m : Keyed κ α}, key ∈ keys m →
    keys (insert m key value) = keys m
  | [], h => by cases h
  | (k, v) :: m, h => by
    simp only [keys, List.map_cons, List.mem_cons] at h
    rw [insert]
    split
    · rfl
    · rename_i hk
      have hrest := keys_insert_of_mem value (h.resolve_left fun heq => hk heq.symm)
      simp only [keys] at hrest
      simp only [keys, List.map_cons, hrest]

theorem keys_insert_of_not_mem (value : α) (h : key ∉ keys m) :
    keys (insert m key value) = keys m ++ [key] := by
  rw [insert_of_not_mem h, keys, keys, List.map_append, List.map_singleton]

theorem nodup_insert (value : α) (hn : (keys m).Nodup) : (keys (insert m key value)).Nodup := by
  by_cases h : key ∈ keys m
  · rw [keys_insert_of_mem value h]
    exact hn
  · rw [keys_insert_of_not_mem value h, ← List.concat_eq_append]
    exact hn.concat h

theorem insertAll_cons : ∀ (m' : Keyed κ α) {m : Keyed κ α}, key ∉ keys m' →
    insertAll ((key, value) :: m) m' = (key, value) :: insertAll m m'
  | [], _, _ => rfl
  | (k, v) :: m', m, h => by
    simp only [keys, List.map_cons, List.mem_cons, not_or] at h
    rw [insertAll, insertAll, insert, if_neg h.1]
    exact insertAll_cons m' h.2

/-- Storing entries over the first of their own keys leaves the entries. -/
theorem insertAll_of_prefix : ∀ {m m' : Keyed κ α}, keys m <+: keys m' → (keys m').Nodup →
    insertAll m m' = m'
  | m, [], h, _ => List.map_eq_nil_iff.1 (List.prefix_nil.1 h)
  | [], (k, v) :: m', _, hn => by
    simp only [keys, List.map_cons, List.nodup_cons] at hn
    rw [insertAll, insert, insertAll_cons m' hn.1,
      insertAll_of_prefix (m := []) List.nil_prefix hn.2]
  | (k', v') :: m, (k, v) :: m', h, hn => by
    simp only [keys, List.map_cons, List.nodup_cons, List.cons_prefix_cons] at h hn
    rw [insertAll, insert, if_pos h.1, insertAll_cons m' (h.1 ▸ hn.1), h.1,
      insertAll_of_prefix h.2 hn.2]

/-- Storing entries of other keys appends them. -/
theorem insertAll_of_disjoint : ∀ {m m' : Keyed κ α}, (∀ k ∈ keys m, k ∉ keys m') →
    (keys m').Nodup → insertAll m m' = m ++ m'
  | [], m', _, hn => insertAll_of_prefix (m := []) List.nil_prefix hn
  | (k, v) :: m, m', hd, hn => by
    simp only [keys, List.map_cons, List.forall_mem_cons] at hd
    rw [insertAll_cons m' hd.1, insertAll_of_disjoint hd.2 hn, List.cons_append]

end Keyed

/-! ## What the catalog describes -/

/-- A description without connections in which a name stands for one link or property. -/
structure NodeBuilder.Regular (builder : NodeBuilder β) : Prop where
  inputs : builder.inputs.map .clear = builder.inputs
  outputs : builder.outputs.map .shape = builder.outputs
  links : builder.links.map .clear = builder.links
  inputNames : (builder.inputs.map (·.name)).Nodup
  outputNames : (builder.outputs.map (·.name)).Nodup
  linkNames : (builder.links.map (·.name)).Nodup
  propertyNames : (Keyed.keys builder.properties).Nodup
  apart : ∀ name ∈ Keyed.keys builder.properties, name ∉ builder.links.map (·.name)

theorem repr_inj {m n : Nat} : m.repr = n.repr ↔ m = n := by
  refine ⟨fun h => ?_, congrArg _⟩
  rw [Nat.repr_eq_ofList_toDigits, Nat.repr_eq_ofList_toDigits, String.ofList_inj] at h
  have hvalue := @Nat.ofDigitChars_ten_toDigits m
  rw [h, Nat.ofDigitChars_ten_toDigits] at hvalue
  exact hvalue.symm

namespace Standard

theorem outputs_switchNode (properties : PropertySet) : (switchNode properties).outputs =
    (List.range (outputCount properties).toInt.toNat).map fun i =>
      { name := "Out" ++ (i + 1).repr } := by
  rw [switchNode, withOutputs]
  exact List.nil_append _

theorem regular_switchNode (properties : PropertySet) : (switchNode properties).Regular := by
  refine ⟨rfl, ?_, rfl, (by decide : ["In", "Reset"].Nodup), ?_,
    (by decide : ["CurrentIndex"].Nodup), (by decide : ["OutputCount", "Looping"].Nodup),
    (by decide : ∀ name ∈ ["OutputCount", "Looping"], name ∉ ["CurrentIndex"])⟩
  · rw [outputs_switchNode, List.map_map]
    rfl
  · rw [outputs_switchNode, List.map_map]
    refine List.pairwise_map.2 (List.nodup_range.imp fun {i j} hne heq => hne ?_)
    exact Nat.succ.inj (repr_inj.1 ((String.append_right_inj "Out").1 heq))

theorem regular_of_mem_catalog : ∀ e ∈ catalog, ∀ properties, (e.2 properties).Regular := by
  have cell (name : String) (initial : Property) : (Standard.cell name initial).Regular :=
    ⟨rfl, rfl, rfl, .nil, .nil, .nil, List.pairwise_singleton _ _, fun _ _ => List.not_mem_nil⟩
  have pass (name : String) : (passThroughNode name).Regular :=
    ⟨rfl, rfl, rfl, List.pairwise_singleton _ _, List.pairwise_singleton _ _, .nil, .nil,
      List.forall_mem_nil _⟩
  simp only [catalog, List.forall_mem_cons]
  refine ⟨fun _ => ?_, fun _ => ?_, regular_switchNode, fun _ => ?_, fun _ => ?_, fun _ => ?_,
    fun _ => ?_, fun _ => ?_, fun _ => pass _, fun _ => pass _, fun _ => ?_, fun _ => cell _ _,
    fun _ => cell _ _, fun _ => cell _ _, fun _ => cell _ _, fun _ => cell _ _,
    List.forall_mem_nil _⟩
  all_goals
    dsimp only [fixed]
    exact ⟨rfl, rfl, rfl, by decide, by decide, by decide, by decide, by decide⟩

theorem type_of_mem_catalog : ∀ e ∈ catalog, ∀ properties, (e.2 properties).type = e.1 := by
  simp only [catalog, List.forall_mem_cons]
  exact ⟨fun _ => rfl, fun _ => rfl, fun _ => rfl, fun _ => rfl, fun _ => rfl, fun _ => rfl,
    fun _ => rfl, fun _ => rfl, fun _ => rfl, fun _ => rfl, fun _ => rfl, fun _ => rfl,
    fun _ => rfl, fun _ => rfl, fun _ => rfl, fun _ => rfl, List.forall_mem_nil _⟩

/-- The authored values shape no node but a switch, and that only by the number of its outputs. -/
theorem shaped_of_mem_catalog : ∀ e ∈ catalog,
    (∀ properties properties', e.2 properties = e.2 properties') ∨ e.2 = switchNode := by
  simp only [catalog, List.forall_mem_cons]
  exact ⟨.inl fun _ _ => rfl, .inl fun _ _ => rfl, .inr trivial, .inl fun _ _ => rfl,
    .inl fun _ _ => rfl, .inl fun _ _ => rfl, .inl fun _ _ => rfl, .inl fun _ _ => rfl,
    .inl fun _ _ => rfl, .inl fun _ _ => rfl, .inl fun _ _ => rfl, .inl fun _ _ => rfl,
    .inl fun _ _ => rfl, .inl fun _ _ => rfl, .inl fun _ _ => rfl, .inl fun _ _ => rfl,
    List.forall_mem_nil _⟩

end Standard

/-! ## What overriding leaves -/

theorem ValueLink.names_of_shape {links declared : List ValueLink}
    (h : links.map shape = declared.map shape) :
    links.map (·.name) = declared.map (·.name) := by
  have hnames := congrArg (List.map (·.name)) h
  simp only [List.map_map] at hnames
  exact hnames

theorem ValueLink.shape_setDefault? {name : String} {value : Property} :
    ∀ {links links' : List ValueLink}, setDefault? links name value = some links' →
      links'.map shape = links.map shape
  | [], _, h => by simp [setDefault?] at h
  | link :: links, links', h => by
    rw [setDefault?] at h
    split at h
    · obtain rfl := Option.some.inj h
      rfl
    · obtain ⟨rest, hrest, rfl⟩ := Option.map_eq_some_iff.1 h
      rw [List.map_cons, List.map_cons, shape_setDefault? hrest]

theorem ValueLink.setDefault?_eq_none {name : String} {value : Property} :
    ∀ {links : List ValueLink}, setDefault? links name value = none ↔
      name ∉ links.map (·.name)
  | [] => by simp [setDefault?]
  | link :: links => by
    rw [setDefault?, List.map_cons, List.mem_cons, not_or]
    split
    · rename_i hn
      simp [hn]
    · rename_i hn
      rw [Option.map_eq_none_iff, setDefault?_eq_none]
      exact (and_iff_right fun heq => hn heq.symm).symm

theorem ValueLink.setDefault?_append {name : String} {value : Property} {rest : List ValueLink} :
    ∀ {done : List ValueLink}, name ∉ done.map (·.name) →
      setDefault? (done ++ rest) name value = (setDefault? rest name value).map (done ++ ·)
  | [], _ => by simp
  | link :: done, h => by
    simp only [List.map_cons, List.mem_cons, not_or] at h
    rw [List.cons_append, setDefault?, if_neg (Ne.symm h.1), setDefault?_append h.2, Option.map_map]
    rfl

namespace NodeBuilder

variable {builder builder' described : NodeBuilder β} {name : String} {value : Property}

theorem override_cell {type : PropertyType} (ht : builder.valueType = some type)
    (hv : value.type = type) :
    builder.override cellName value = .ok (builder.property cellName value) := by
  have hcoerce : value.coerce type = some value := by
    unfold Property.coerce
    split
    · cases hv
    · rw [if_pos hv]
  simp only [override, ht, beq_self_eq_true, hcoerce]

theorem override_plain (hc : builder.valueType = none ∨ name ≠ cellName)
    (hn : name ∉ builder.links.map (·.name)) :
    builder.override name value = .ok (builder.property name value) := by
  unfold override
  split
  · rename_i type hcell ht hname
    rcases hc with hc | hc
    · rw [ht] at hc
      cases hc
    · exact absurd (by simpa using hname) hc
  · rw [ValueLink.setDefault?_eq_none.2 hn]

theorem override_link (ht : builder.valueType = none) {links : List ValueLink}
    (hl : ValueLink.setDefault? builder.links name value = some links) :
    builder.override name value = .ok { builder with links := links } := by
  simp only [override, ht, hl]

theorem override_eq_ok (h : builder.override name value = .ok builder') :
    (∃ type stored, builder.valueType = some type ∧ name = cellName ∧ stored.type = type
        ∧ builder' = builder.property cellName stored)
      ∨ (∃ links, ValueLink.setDefault? builder.links name value = some links
        ∧ builder' = { builder with links := links })
      ∨ ((builder.valueType = none ∨ name ≠ cellName)
        ∧ name ∉ builder.links.map (·.name) ∧ builder' = builder.property name value) := by
  unfold override at h
  split at h
  · rename_i type ht hname
    obtain rfl : name = cellName := by simpa using hname
    split at h
    · rename_i stored hstored
      obtain rfl := Except.ok.inj h
      exact .inl ⟨type, stored, ht, rfl, Property.type_of_coerce hstored, rfl⟩
    · cases h
  · rename_i hcell
    split at h <;> rename_i hl <;> obtain rfl := Except.ok.inj h
    · exact .inr (.inl ⟨_, hl, rfl⟩)
    · refine .inr (.inr ⟨?_, ValueLink.setDefault?_eq_none.1 hl, rfl⟩)
      rcases ht : builder.valueType with _ | type
      · exact .inl rfl
      · exact .inr fun hname => hcell type ht (by simpa using hname)

/-- A description after some of its values were overridden: names were added at most. -/
structure Overridden (described builder : NodeBuilder β) : Prop where
  shape : builder.shape = described.shape
  behavior : builder.behavior = described.behavior
  names : Keyed.keys described.properties <+: Keyed.keys builder.properties
  distinct : (Keyed.keys builder.properties).Nodup
  apart : ∀ name ∈ Keyed.keys builder.properties, name ∉ described.links.map (·.name)

theorem Overridden.links (h : described.Overridden builder) :
    builder.links.map ValueLink.shape = described.links.map ValueLink.shape :=
  (congrArg NodeBuilder.links h.shape :)

theorem Overridden.property (h : described.Overridden builder)
    (hn : name ∉ described.links.map (·.name)) :
    described.Overridden (builder.property name value) := by
  refine ⟨h.shape, h.behavior, ?_, Keyed.nodup_insert value h.distinct, ?_⟩
  · by_cases hm : name ∈ Keyed.keys builder.properties
    · rw [NodeBuilder.property, Keyed.keys_insert_of_mem value hm]
      exact h.names
    · rw [NodeBuilder.property, Keyed.keys_insert_of_not_mem value hm]
      exact h.names.trans (List.prefix_append _ _)
  · by_cases hm : name ∈ Keyed.keys builder.properties
    · rw [NodeBuilder.property, Keyed.keys_insert_of_mem value hm]
      exact h.apart
    · rw [NodeBuilder.property, Keyed.keys_insert_of_not_mem value hm]
      exact List.forall_mem_append.2 ⟨h.apart, List.forall_mem_singleton.2 hn⟩

theorem Overridden.override (h : described.Overridden builder)
    (hcell : described.valueType.isSome = true → described.links = [])
    (ho : builder.override name value = .ok builder') : described.Overridden builder' := by
  rcases override_eq_ok ho with ⟨type, stored, ht, -, -, rfl⟩ | ⟨links, hl, rfl⟩ | ⟨-, hn, rfl⟩
  · have hvalueType : builder.valueType = described.valueType :=
      (congrArg NodeBuilder.valueType h.shape :)
    refine h.property ?_
    rw [hcell (by rw [← hvalueType, ht]; rfl)]
    exact List.not_mem_nil
  · refine ⟨?_, h.behavior, h.names, h.distinct, h.apart⟩
    rw [← h.shape]
    simp only [NodeBuilder.shape, ValueLink.shape_setDefault? hl]
  · exact h.property (ValueLink.names_of_shape h.links ▸ hn)

theorem Overridden.withOverrides
    (hcell : described.valueType.isSome = true → described.links = []) :
    ∀ (overrides : PropertySet) {builder builder' : NodeBuilder β},
      described.Overridden builder → builder.withOverrides overrides = .ok builder' →
        described.Overridden builder'
  | [], builder, builder', h, ho => by
    rw [NodeBuilder.withOverrides] at ho
    obtain rfl := Except.ok.inj ho
    exact h
  | (name, value) :: rest, builder, builder', h, ho => by
    rw [NodeBuilder.withOverrides] at ho
    obtain ⟨next, hn, ho⟩ := bind_eq_ok.1 ho
    exact withOverrides hcell rest (h.override hcell hn) ho

/-- A plain property has the value that is authored for it, or else the one of the factory. -/
theorem get?_withOverrides (hname : name ≠ cellName) : ∀ (overrides : PropertySet)
    {builder builder' : NodeBuilder β}, (Keyed.keys overrides).Nodup →
      name ∉ builder.links.map (·.name) → builder.withOverrides overrides = .ok builder' →
      Keyed.get? builder'.properties name =
        (Keyed.get? overrides name).or (Keyed.get? builder.properties name)
  | [], builder, builder', _, _, ho => by
    rw [NodeBuilder.withOverrides] at ho
    obtain rfl := Except.ok.inj ho
    rfl
  | (n, value) :: rest, builder, builder', hd, hl, ho => by
    simp only [Keyed.keys, List.map_cons, List.nodup_cons] at hd
    rw [NodeBuilder.withOverrides] at ho
    obtain ⟨next, hn, ho⟩ := bind_eq_ok.1 ho
    have hnext : name ∉ next.links.map (·.name) ∧ Keyed.get? next.properties name =
        if n = name then some value else Keyed.get? builder.properties name := by
      rcases override_eq_ok hn with ⟨type, stored, -, rfl, -, rfl⟩ | ⟨links, hs, rfl⟩ | ⟨-, -, rfl⟩
      · refine ⟨hl, ?_⟩
        rw [if_neg hname.symm]
        simp only [NodeBuilder.property, Keyed.get?_insert, if_neg hname.symm]
      · have hne : n ≠ name := by
          rintro rfl
          rw [ValueLink.setDefault?_eq_none.2 hl] at hs
          cases hs
        refine ⟨?_, (if_neg hne).symm⟩
        rw [ValueLink.names_of_shape (ValueLink.shape_setDefault? hs)]
        exact hl
      · refine ⟨hl, ?_⟩
        simp only [NodeBuilder.property, Keyed.get?_insert]
    rw [get?_withOverrides hname rest hd.2 hnext.1 ho, hnext.2, Keyed.get?]
    split
    · rename_i heq
      subst heq
      rw [Keyed.get?_eq_none.2 hd.1]
      rfl
    · rfl

theorem withOverrides_append : ∀ (first second : PropertySet) {builder builder' : NodeBuilder β},
    builder.withOverrides first = .ok builder' →
      builder.withOverrides (first ++ second) = builder'.withOverrides second
  | [], second, builder, builder', h => by
    rw [withOverrides] at h
    obtain rfl := Except.ok.inj h
    rfl
  | (name, value) :: first, second, builder, builder', h => by
    rw [withOverrides] at h
    obtain ⟨next, hn, h⟩ := bind_eq_ok.1 h
    rw [List.cons_append, withOverrides, hn]
    exact withOverrides_append first second h

/-- Overriding plain properties, and the cell by values of its type, stores them. -/
theorem withOverrides_properties : ∀ (properties : PropertySet) {builder : NodeBuilder β},
    (∀ e ∈ properties, e.1 ∉ builder.links.map (·.name)) →
      (∀ type, builder.valueType = some type → ∀ e ∈ properties, e.1 = cellName →
        e.2.type = type) →
      builder.withOverrides properties =
        .ok { builder with properties := Keyed.insertAll builder.properties properties }
  | [], _, _, _ => rfl
  | (name, value) :: rest, builder, hl, hv => by
    rw [List.forall_mem_cons] at hl
    have ho : builder.override name value = .ok (builder.property name value) := by
      by_cases hname : name = cellName
      · rcases ht : builder.valueType with _ | type
        · exact override_plain (.inl ht) hl.1
        · subst hname
          exact override_cell ht (hv type ht _ List.mem_cons_self rfl)
      · exact override_plain (.inr hname) hl.1
    rw [withOverrides, ho]
    exact withOverrides_properties rest hl.2 fun type ht e he =>
      hv type ht e (List.mem_cons_of_mem _ he)

/-- Overriding the defaults of all links, in order, makes the links what they are but for their
bindings. -/
theorem withOverrides_links : ∀ (links done rest : List ValueLink)
    {builder : NodeBuilder β}, builder.valueType = none → builder.links = done ++ rest →
      rest.map ValueLink.clear = rest → rest.map ValueLink.shape = links.map ValueLink.shape →
      (builder.links.map (·.name)).Nodup →
      builder.withOverrides (links.map fun link => (link.name, link.default)) =
        .ok { builder with links := done ++ links.map ValueLink.clear }
  | [], done, rest, builder, _, hl, _, hs, _ => by
    obtain rfl : rest = [] := List.map_eq_nil_iff.1 hs
    rw [List.map_nil, withOverrides, List.map_nil, ← hl]
  | link :: links, done, [], builder, _, _, _, hs, _ => by simp at hs
  | link :: links, done, old :: rest, builder, ht, hl, hc, hs, hn => by
    simp only [List.map_cons, List.cons.injEq] at hc hs
    have hset : ValueLink.setDefault? builder.links link.name link.default =
        some (done ++ link.clear :: rest) := by
      obtain ⟨hname, -, -⟩ := ValueLink.of_shape_eq hs.1
      rw [hl, List.map_append, List.map_cons, List.nodup_append] at hn
      have hnew : link.name ∉ done.map (·.name) := fun hd =>
        hn.2.2 _ hd _ List.mem_cons_self hname.symm
      have hold : ({ old with default := link.default } : ValueLink) = link.clear := by
        have hshape := hs.1
        have hclear := hc.1
        simp only [ValueLink.shape, ValueLink.mk.injEq] at hshape
        rw [← hclear]
        simp only [ValueLink.clear, ValueLink.mk.injEq]
        exact ⟨hshape.1, hshape.2.1, hshape.2.2.1, hshape.2.2.2.1, trivial, trivial⟩
      rw [hl, ValueLink.setDefault?_append hnew, ValueLink.setDefault?, if_pos hname, hold]
      rfl
    have hnames : ((done ++ link.clear :: rest).map (·.name)) = builder.links.map (·.name) :=
      ValueLink.names_of_shape (ValueLink.shape_setDefault? hset)
    rw [List.map_cons, withOverrides, override_link ht hset]
    have happend : done ++ link.clear :: rest = (done ++ [link.clear]) ++ rest := by
      rw [List.append_assoc, List.singleton_append]
    have hrest := @withOverrides_links links _ rest
      { builder with links := done ++ link.clear :: rest } ht happend hc.2 hs.2 (hnames ▸ hn)
    rw [List.append_assoc, List.singleton_append] at hrest
    exact hrest

end NodeBuilder

/-! ## Creating the node again -/

/-- Some value of the type. -/
def PropertyType.zero : PropertyType → Property
  | bool => .bool false
  | int => .int 0
  | float => .float 0
  | string => .string ""
  | actor => .actor none
  | enum name => .enum name ""
  | group => .group []
  | array => .array []

theorem PropertyType.type_zero (type : PropertyType) : type.zero.type = type := by
  cases type <;> rfl

/-- The properties with nothing but the type left of a cell. -/
def uncelled (properties : PropertySet) : PropertySet :=
  properties.map fun e => if e.1 = cellName then (e.1, e.2.type.zero) else e

theorem keys_uncelled (properties : PropertySet) :
    Keyed.keys (uncelled properties) = Keyed.keys properties :=
  map_where (g := Prod.fst) (f := fun e : String × Property => (e.1, e.2.type.zero)) (fun _ => rfl)
    (·.1 = cellName) properties

theorem get?_uncelled {name : String} (hname : name ≠ cellName) : ∀ properties : PropertySet,
    Keyed.get? (uncelled properties) name = Keyed.get? properties name
  | [] => rfl
  | (n, value) :: rest => by
    have ih := get?_uncelled hname rest
    rw [uncelled] at ih ⊢
    by_cases hn : n = cellName
    · have hne : n ≠ name := hn ▸ hname.symm
      rw [List.map_cons, if_pos hn, Keyed.get?, Keyed.get?, if_neg hne, if_neg hne, ih]
    · rw [List.map_cons, if_neg hn, Keyed.get?, Keyed.get?, ih]

theorem get?_uncelled_cell : ∀ properties : PropertySet,
    Keyed.get? (uncelled properties) cellName =
      (Keyed.get? properties cellName).map (·.type.zero)
  | [] => rfl
  | (n, value) :: rest => by
    have ih := get?_uncelled_cell rest
    rw [uncelled] at ih ⊢
    by_cases hn : n = cellName
    · rw [List.map_cons, if_pos hn, Keyed.get?, Keyed.get?, if_pos hn, if_pos hn, Option.map_some]
    · rw [List.map_cons, if_neg hn, Keyed.get?, Keyed.get?, if_neg hn, if_neg hn, ih]

/-- The node without connections, bindings and pulses, and with another behavior. -/
def Node.reset (node : Node β) (behavior : Option β) : Node β :=
  { node with
    inputs := node.inputs.map .clear
    outputs := node.outputs.map .shape
    links := node.links.map .clear
    behavior := behavior }

/-- The values that describe a node in which a name stands for one link or property. -/
theorem Node.properties_nodeDef (node : Node β) (names : Names)
    (hd : ∀ name ∈ Keyed.keys node.properties, name ∉ node.links.map (·.name))
    (hn : (node.links.map (·.name)).Nodup) : (Script.nodeDef names node).properties =
      node.properties ++ node.links.map fun link => (link.name, link.default) := by
  have hkeys : Keyed.keys (node.links.map fun link => (link.name, link.default)) =
      node.links.map (·.name) := by
    rw [Keyed.keys, List.map_map]
    rfl
  exact Keyed.insertAll_of_disjoint (hkeys ▸ hd) (hkeys ▸ hn)

namespace NodeBuilder.Overridden

variable {builder described : NodeBuilder β} {node : Node β}

theorem names_links (h : described.Overridden builder) (hs : node.shape = builder.shape) :
    node.links.map (·.name) = described.links.map (·.name) :=
  ValueLink.names_of_shape (congrArg NodeBuilder.links (hs.trans h.shape))

/-- Applied to the description that a node was created from, the values of the node give the node
without connections. -/
theorem rebuilt (h : described.Overridden builder) (hr : described.Regular)
    (hcell : described.valueType.isSome = true → described.links = [])
    (hs : node.shape = builder.shape)
    (hk : Keyed.keys node.properties = Keyed.keys builder.properties) (hst : node.Stocked)
    (names : Names) : ∃ builder', described.withOverrides (Script.nodeDef names node).properties
        = .ok builder'
      ∧ builder'.build node.id node.graph = node.reset (some builder.behavior) := by
  have hnames := h.names_links hs
  have hapart : ∀ name ∈ Keyed.keys node.properties, name ∉ described.links.map (·.name) :=
    hk ▸ h.apart
  have hdistinct : (Keyed.keys node.properties).Nodup := hk ▸ h.distinct
  have hshape := hs.trans h.shape
  simp only [Node.shape, NodeBuilder.shape, NodeBuilder.mk.injEq] at hshape
  obtain ⟨htype, hkind, hvalueType, hinputs, houtputs, hlinks, -⟩ := hshape
  have hstored : described.withOverrides node.properties =
      .ok { described with properties := node.properties } := by
    refine (withOverrides_properties node.properties (fun e he =>
      hapart e.1 (List.mem_map_of_mem he)) fun type ht e he hname => ?_).trans ?_
    · obtain ⟨name, value⟩ := e
      subst hname
      obtain ⟨stored, hget, hsame⟩ := hst type (hvalueType.trans ht)
      have hvalue := Keyed.get?_of_mem hdistinct he
      rw [Option.some.inj (hvalue.symm.trans hget)]
      exact hsame
    · rw [Keyed.insertAll_of_prefix (hk ▸ h.names) hdistinct]
  have hset : ({ described with properties := node.properties } :
      NodeBuilder β).withOverrides (node.links.map fun link => (link.name, link.default)) =
      .ok { described with
        properties := node.properties, links := node.links.map ValueLink.clear } := by
    by_cases ht : described.valueType = none
    · exact withOverrides_links node.links [] _ ht rfl hr.links hlinks.symm hr.linkNames
    · have hnone := hcell (Option.isSome_iff_ne_none.2 ht)
      rw [hnone, List.map_nil, List.map_eq_nil_iff] at hlinks
      rw [hlinks, List.map_nil, List.map_nil, NodeBuilder.withOverrides, hnone]
  refine ⟨{ described with
    properties := node.properties, links := node.links.map ValueLink.clear }, ?given, ?build⟩
  case given =>
    rw [node.properties_nodeDef names (hnames ▸ hapart) (hnames ▸ hr.linkNames)]
    exact (withOverrides_append _ _ hstored).trans hset
  case build =>
    have hin : described.inputs = node.inputs.map .clear := by rw [hinputs, hr.inputs]
    have hout : described.outputs = node.outputs.map .shape := by rw [houtputs, hr.outputs]
    simp only [build, Node.reset, ← htype, ← hkind, ← hvalueType, hin, hout, ← h.behavior]

end NodeBuilder.Overridden

namespace Standard

/-- The description of a node shapes a new one as the node was shaped when it was created. -/
theorem factory_again {entry : TypeId × Factory Standard} (he : entry ∈ catalog)
    {properties again : PropertySet} (hd : (Keyed.keys properties).Nodup)
    {builder : NodeBuilder Standard}
    (ho : (entry.2 properties).withOverrides properties = .ok builder)
    (ha : ∀ value, Keyed.get? builder.properties "OutputCount" = some value →
      Keyed.get? again "OutputCount" = some value) : entry.2 again = entry.2 properties := by
  rcases shaped_of_mem_catalog entry he with hfixed | hswitch
  · exact hfixed _ _
  rw [hswitch] at ho ⊢
  have hplain : "OutputCount" ∉ (switchNode properties).links.map (·.name) :=
    (by decide : "OutputCount" ∉ ["CurrentIndex"])
  have hget := NodeBuilder.get?_withOverrides (by decide : "OutputCount" ≠ cellName) properties hd
    hplain ho
  have hcount : outputCount again = outputCount properties := by
    have hinitial : Keyed.get? (switchNode properties).properties "OutputCount" =
        some (.int (outputCount properties)) := rfl
    rw [hinitial] at hget
    rcases hauthored : Keyed.get? properties "OutputCount" with _ | value
    · rw [hauthored, Option.none_or] at hget
      have hdefault : outputCount properties = 2 := by
        rw [outputCount, hauthored]
        decide
      rw [outputCount, ha _ hget, hdefault]
      decide
    · rw [hauthored, Option.some_or] at hget
      rw [outputCount, ha _ hget, outputCount, hauthored]
  rw [switchNode, switchNode, hcount]

/-- A node that a session made of a created one is created again from its description. -/
theorem recreate {type : TypeId} {properties : PropertySet} (hd : (Keyed.keys properties).Nodup)
    {builder : NodeBuilder Standard} (hc : registry.create type properties = .ok builder)
    {node : Node Standard} (hs : node.shape = builder.shape)
    (hp : uncelled node.properties = uncelled builder.properties) (hst : node.Stocked)
    (names : Names) : ∃ builder', registry.create node.type (Script.nodeDef names node).properties
        = .ok builder'
      ∧ builder'.build node.id node.graph = node.reset (some builder.behavior) := by
  obtain ⟨factory, hf, ho⟩ := create_eq_ok hc
  have hmem := mem_catalog_of_get? hf
  have hregular := regular_of_mem_catalog _ hmem properties
  have hcell := (standing_of_mem_catalog _ hmem properties).apart
  have hover := NodeBuilder.Overridden.withOverrides hcell properties
    ⟨rfl, rfl, List.prefix_rfl, hregular.propertyNames, hregular.apart⟩ ho
  have hkeys : Keyed.keys node.properties = Keyed.keys builder.properties := by
    rw [← keys_uncelled, hp, keys_uncelled]
  obtain ⟨builder', hb, hbuild⟩ := hover.rebuilt hregular hcell hs hkeys hst names
  refine ⟨builder', ?_, hbuild⟩
  have hagain : factory (Script.nodeDef names node).properties = factory properties := by
    refine factory_again hmem hd ho fun value hv => ?_
    have hname : "OutputCount" ≠ cellName := by decide
    have hget : Keyed.get? node.properties "OutputCount" = some value := by
      rw [← get?_uncelled hname, hp, get?_uncelled hname, hv]
    rw [node.properties_nodeDef names, Keyed.get?_append, hget, Option.some_or]
    · rw [hover.names_links hs]
      exact hkeys ▸ hover.apart
    · rw [hover.names_links hs]
      exact hregular.linkNames
  have hdescribed : node.type = (factory properties).type :=
    congrArg NodeBuilder.type (hs.trans hover.shape)
  have htype : node.type = type := hdescribed.trans (type_of_mem_catalog _ hmem properties)
  rw [htype, Registry.create, hf]
  simp only [hagain]
  exact hb

end Standard

end FlowScript
