import FlowScript.Proofs.Bindings
import FlowScript.Proofs.Delivery
import FlowScript.Proofs.Recreation

/-!
# Reading back what was written

A value that a node takes under a name is read back under this name, and under no other name is
anything else read than before; a value that it refuses leaves it as it was
(`Made.reads_back`). The one exception is a cell that was described with a value link of the cell's
own name (`HidesCell`): a write under this name goes to the cell, and a reading goes to the link.
-/

namespace FlowScript

variable {β : Type}

/-- A write to a node itself, under a name or to its cell. -/
inductive OwnWrite where
  | property (name : String) (value : Property)
  | cell (value : Property)

namespace Node

/-- Writes to the node; whether the value was taken, and the node that is left. -/
def write (node : Node β) : OwnWrite → Bool × Node β
  | .property name value => node.setLocalProperty name value
  | .cell value => node.setValue value

/-- The node after writes one after another. -/
def written (node : Node β) (writes : List OwnWrite) : Node β :=
  writes.foldl (fun n write => (n.write write).2) node

end Node

namespace NodeBuilder

/-- What a node that is described so stores when a value is written under a name: in its cell the
value as the declared type has it, if there is such a value, and anything anywhere else. -/
def stored? (builder : NodeBuilder β) (name : String) (value : Property) : Option Property :=
  match builder.valueType, name == cellName with
  | some declared, true => value.coerce declared
  | _, _ => some value

/-- A cell with a value link of the cell's own name. -/
def HidesCell (builder : NodeBuilder β) : Prop :=
  builder.valueType.isSome = true ∧ cellName ∈ builder.links.map (·.name)

instance (builder : NodeBuilder β) : Decidable builder.HidesCell :=
  inferInstanceAs (Decidable (_ ∧ _))

end NodeBuilder

/-! ## Where a name leads -/

/-- Under the name that was written the first link has the value, and the first links of other names
are the same. -/
theorem ValueLink.find?_setDefault? {name : String} {value : Property} (other : String) :
    ∀ {links links' : List ValueLink}, setDefault? links name value = some links' →
      (links'.find? (·.name == other)).map (·.default) =
        if other = name then some value else (links.find? (·.name == other)).map (·.default)
  | [], _, h => by simp [setDefault?] at h
  | link :: links, links', h => by
    rw [setDefault?] at h
    split at h <;> rename_i hname
    · obtain rfl := Option.some.inj h
      by_cases ho : other = name
      · simp [ho, hname]
      · have hne : ¬ link.name = other := fun heq => ho (heq.symm.trans hname)
        simp [ho, hne]
    · obtain ⟨rest, hrest, rfl⟩ := Option.map_eq_some_iff.1 h
      have ih := find?_setDefault? other hrest
      by_cases ho : link.name = other
      · have hne : ¬ other = name := fun heq => hname (ho.trans heq)
        simp [ho, hne]
      · simp [ho, ih]

namespace Node

theorem localProperty?_eq (node : Node β) (name : String) : node.localProperty? name =
    ((node.links.find? (·.name == name)).map (·.default)).or (Keyed.get? node.properties name) := by
  unfold localProperty?
  split <;> rename_i hlink <;> rw [hlink] <;> rfl

/-- A node that keeps a value as a plain property reads it there, unless a link has the name. -/
theorem localProperty?_insert (node : Node β) (name : String) (value : Property) (other : String) :
    ({ node with properties := Keyed.insert node.properties name value } : Node β).localProperty?
      other = if other = name ∧ name ∉ node.links.map (·.name) then some value
        else node.localProperty? other := by
  rw [localProperty?_eq, localProperty?_eq, Keyed.get?_insert]
  by_cases ho : other = name
  · subst ho
    by_cases hl : other ∈ node.links.map (·.name)
    · have hsome : (node.links.find? (·.name == other)).isSome = true := by
        simpa [List.find?_isSome] using hl
      obtain ⟨link, hlink⟩ := Option.isSome_iff_exists.1 hsome
      simp [hl, hlink]
    · have hnone : node.links.find? (·.name == other) = none := by
        rw [List.find?_eq_none]
        intro link hlink heq
        exact hl (List.mem_map.2 ⟨link, hlink, beq_iff_eq.1 heq⟩)
      simp [hl, hnone]
  · simp [ho, Ne.symm ho]

/-- Under any name but that of a cell a write is taken, and it changes what is read under this name
only. -/
theorem setLocalProperty_elsewhere (node : Node β) {name : String} (value : Property)
    (hn : ¬ (node.isValueNode = true ∧ name = cellName)) : ∃ after,
      node.setLocalProperty name value = (true, after) ∧ ∀ other, after.localProperty? other =
        if other = name then some value else node.localProperty? other := by
  rw [setLocalProperty, if_neg (by simpa using hn)]
  rcases hlinks : ValueLink.setDefault? node.links name value with _ | links
  · refine ⟨_, rfl, fun other => ?_⟩
    rw [localProperty?_insert]
    simp only [ValueLink.setDefault?_eq_none.1 hlinks, not_false_eq_true, and_true]
  · refine ⟨_, rfl, fun other => ?_⟩
    rw [localProperty?_eq, localProperty?_eq, ValueLink.find?_setDefault? other hlinks]
    split <;> rfl

/-! ## What writes keep -/

theorem shape_setValue (node : Node β) (value : Property) :
    (node.setValue value).2.shape = node.shape := by
  unfold setValue
  split <;> rfl

theorem shape_write (node : Node β) (write : OwnWrite) :
    (node.write write).2.shape = node.shape := by
  rcases write with ⟨name, value⟩ | value
  · simp only [Node.write, setLocalProperty]
    split
    · exact node.shape_setValue value
    · split
      · rename_i links hlinks
        simp only [Node.shape, ValueLink.shape_setDefault? hlinks]
      · rfl
  · exact node.shape_setValue value

theorem shape_written (node : Node β) (writes : List OwnWrite) :
    (node.written writes).shape = node.shape := by
  induction writes generalizing node with
  | nil => rfl
  | cons write writes ih => exact (ih _).trans (node.shape_write write)

end Node

/-! ## Reading back -/

/-- However a node was described and whatever was written to it since: a value that does not fit
its cell is refused and changes nothing; any other is read back under its name, and under every
other name the same is read as before. Only where a link hides the cell, the cell has the value and
under its name the same is read as before. -/
theorem NodeBuilder.Made.reads_back {builder : NodeBuilder β} (made : builder.Made) (id : NodeId)
    (graph : GraphId) (writes : List OwnWrite) (name : String) (value : Property) :
    ∃ after, ((builder.build id graph).written writes).setLocalProperty name value =
        ((builder.stored? name value).isSome, after)
      ∧ (builder.stored? name value = none → after = (builder.build id graph).written writes)
      ∧ ∀ stored, builder.stored? name value = some stored →
        (∀ other, other ≠ name → after.localProperty? other =
          ((builder.build id graph).written writes).localProperty? other)
        ∧ (builder.valueType.isSome = true ∧ name = cellName → after.value? = some stored)
        ∧ after.localProperty? name =
          if builder.HidesCell ∧ name = cellName then
            ((builder.build id graph).written writes).localProperty? name
          else some stored := by
  generalize hnode : (builder.build id graph).written writes = node
  have hshape : node.shape = builder.shape := by
    rw [← hnode, Node.shape_written]
    rfl
  have hkind : node.kind = builder.kind := congrArg NodeBuilder.kind hshape
  have htype : node.valueType = builder.valueType := congrArg NodeBuilder.valueType hshape
  have hnames : node.links.map (·.name) = builder.links.map (·.name) :=
    ValueLink.names_of_shape (congrArg NodeBuilder.links hshape)
  have hcell : node.isValueNode = true ↔ builder.valueType.isSome = true := by
    rw [Node.isValueNode, hkind, beq_iff_eq]
    exact made.declaresCell
  by_cases hown : node.isValueNode = true ∧ name = cellName
  · obtain ⟨hvalue, rfl⟩ := hown
    obtain ⟨declared, hdeclared⟩ := Option.isSome_iff_exists.1 (hcell.1 hvalue)
    have hstored : builder.stored? cellName value = node.stores? value := by
      simp only [stored?, hdeclared, beq_self_eq_true, Node.stores?, htype, Option.bind_some]
    rw [hstored, Node.setLocalProperty, if_pos (by simp [hvalue]), Node.setValue_eq]
    refine ⟨_, rfl, fun h => by rw [h]; rfl, fun stored h => ?_⟩
    have hread := node.localProperty?_insert cellName stored
    rw [h]
    refine ⟨fun other ho => (hread other).trans (if_neg fun hc => ho hc.1), fun _ => ?_, ?_⟩
    · rw [Option.elim_some, Node.value?, Node.storing, Keyed.get?_insert, if_pos rfl]
      exact if_pos hvalue
    · rw [Option.elim_some, Node.storing, hread, hnames]
      simp only [HidesCell, hcell.1 hvalue, true_and, and_true]
      by_cases hl : cellName ∈ builder.links.map (·.name)
      · rw [if_neg (not_not.2 hl), if_pos hl]
      · rw [if_pos hl, if_neg hl]
  · have hstored : builder.stored? name value = some value := by
      rw [stored?]
      rcases hdeclared : builder.valueType with _ | declared
      · rfl
      · have hother : (name == cellName) = false := beq_eq_false_iff_ne.2 fun hn =>
          hown ⟨hcell.2 (by rw [hdeclared]; rfl), hn⟩
        rw [hother]
    have hshown : ¬ (builder.HidesCell ∧ name = cellName) := fun h => hown ⟨hcell.2 h.1.1, h.2⟩
    obtain ⟨after, hafter, hread⟩ := node.setLocalProperty_elsewhere value hown
    rw [hstored]
    refine ⟨after, hafter, fun h => absurd h (Option.some_ne_none _), fun stored h => ?_⟩
    obtain rfl := Option.some.inj h
    refine ⟨fun other ho => (hread other).trans (if_neg ho),
      fun hc => absurd ⟨hcell.2 hc.1, hc.2⟩ hown, ?_⟩
    rw [hread, if_pos rfl, if_neg hshown]

/-- A cell for a number that was described with a value link of the cell's name. -/
def masked : NodeBuilder Standard :=
  (NodeBuilder.value ⟨"Count", "Test"⟩ (.int 5) .inert).link (.input cellName (.int 1))

/-- After some writes the cell takes another number, which is then found in the cell and not under
its name. -/
theorem NodeBuilder.reads_back_of_masked : ∃ after,
    ((masked.build ⟨0⟩ rootGraph).written
        [.cell (.int 7), .property "Note" (.bool true)]).setLocalProperty cellName (.int 9) =
      (true, after)
      ∧ after.value? = some (.int 9) ∧ after.localProperty? cellName = some (.int 1)
      ∧ after.localProperty? "Note" = some (.bool true) := by
  have made : masked.Made := .link _ (.value _ _ _)
  obtain ⟨after, hafter, -, htaken⟩ := made.reads_back ⟨0⟩ rootGraph
    [.cell (.int 7), .property "Note" (.bool true)] cellName (.int 9)
  obtain ⟨hothers, hcell, hname⟩ := htaken (.int 9) rfl
  exact ⟨after, hafter, hcell ⟨rfl, rfl⟩, hname, hothers "Note" (by decide)⟩

/-- A number that is written under the name of this cell is taken, but under this name the default
of the link is read. Written and read through the script, the same number comes back. -/
theorem NodeBuilder.misread_of_masked : masked.Made
    ∧ ((masked.build ⟨0⟩ rootGraph).setLocalProperty cellName (.int 9)).1 = true
    ∧ ((masked.build ⟨0⟩ rootGraph).setLocalProperty cellName (.int 9)).2.localProperty? cellName =
      some (.int 1)
    ∧ ((((Script.withRootName "root").withNode rootGraph masked).setProperty ⟨0⟩ cellName
      (.int 9)).2.property? ⟨0⟩ cellName) = some (.int 9) :=
  ⟨.link _ (.value _ _ _), rfl, rfl, rfl⟩

end FlowScript
