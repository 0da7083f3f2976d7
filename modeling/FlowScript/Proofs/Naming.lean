import FlowScript.Proofs.Recreation
import Mathlib.Data.Nat.Find

/-!
# Names of nodes

Every node of a script is described under a name of its own: its authored key, or else a name that
no key and no other node has (`fresh_not_mem`).
-/

namespace FlowScript

variable {β : Type}

namespace Names

theorem candidate_inj {base : String} {m n : Nat} :
    candidate base m = candidate base n ↔ m = n := by
  have hbase : ∀ k, base ≠ base ++ "_" ++ (k + 1).repr := by
    intro k heq
    have hlength := congrArg String.length heq
    rw [String.length_append, String.length_append] at hlength
    have hone : "_".length = 1 := rfl
    omega
  refine ⟨fun h => ?_, congrArg _⟩
  rcases m with _ | m <;> rcases n with _ | n
  · rfl
  · exact absurd h (hbase n)
  · exact absurd h.symm (hbase m)
  · exact repr_inj.1 ((String.append_right_inj (base ++ "_")).1 h)

/-- Candidates that are taken are names that are there, so there are no more of them. -/
theorem le_of_taken {names : Names} {base : String} {n : Nat}
    (taken : ∀ m < n, candidate base m ∈ Keyed.values names) : n ≤ names.length := by
  have hall : (List.range n).map (candidate base) ⊆ Keyed.values names := by
    intro name hname
    obtain ⟨m, hm, rfl⟩ := List.mem_map.1 hname
    exact taken m (List.mem_range.1 hm)
  have hnodup : ((List.range n).map (candidate base)).Nodup :=
    List.nodup_range.map fun _ _ h => candidate_inj.1 h
  have hle := hnodup.length_le_of_subset hall
  rwa [List.length_map, List.length_range, Keyed.values, List.length_map] at hle

/-- One of the candidates is the first that is free. -/
theorem exists_first_free (names : Names) (base : String) :
    ∃ n, candidate base n ∉ Keyed.values names
      ∧ ∀ m < n, candidate base m ∈ Keyed.values names := by
  have hfree : ∃ n, candidate base n ∉ Keyed.values names := by
    by_contra hall
    have hle := le_of_taken (n := names.length + 1) fun m _ => not_not.1 (not_exists.1 hall m)
    omega
  exact ⟨Nat.find hfree, Nat.find_spec hfree, fun m hm => not_not.1 (Nat.find_min hfree hm)⟩

/-- The first free candidate is found, whatever the bound, if it lies within the bound. -/
theorem fresh_eq {names : Names} {base : String} {n : Nat}
    (free : candidate base n ∉ Keyed.values names)
    (taken : ∀ m < n, candidate base m ∈ Keyed.values names) :
    ∀ fuel k, k ≤ n → n ≤ k + fuel → fresh names base fuel k = candidate base n
  | 0, k, hk, hn => by
    obtain rfl : k = n := by omega
    rw [fresh]
  | fuel + 1, k, hk, hn => by
    rw [fresh]
    rcases Nat.lt_or_eq_of_le hk with hlt | rfl
    · rw [if_pos (taken k hlt)]
      exact fresh_eq free taken fuel (k + 1) hlt (by omega)
    · rw [if_neg free]

theorem fresh_not_mem (names : Names) (base : String) :
    fresh names base names.length 0 ∉ Keyed.values names := by
  obtain ⟨n, free, taken⟩ := exists_first_free names base
  have hle := le_of_taken taken
  rwa [fresh_eq free taken _ 0 (Nat.zero_le n) (by omega)]

/-- No two nodes have one name. -/
structure Apart (names : Names) : Prop where
  ids : (Keyed.keys names).Nodup
  names : (Keyed.values names).Nodup

theorem values_insert {names : Names} {id : NodeId} {name x : String}
    (h : x ∈ Keyed.values (Keyed.insert names id name)) : x = name ∨ x ∈ Keyed.values names := by
  obtain ⟨e, he, rfl⟩ := List.mem_map.1 h
  rcases Keyed.mem_of_mem_insert he with rfl | he
  · exact .inl rfl
  · exact .inr (List.mem_map_of_mem he)

theorem Apart.insert : ∀ {names : Names}, names.Apart → ∀ (id : NodeId) {name : String},
    name ∉ Keyed.values names → Apart (Keyed.insert names id name)
  | names, h, id, name, hfree => by
    refine ⟨Keyed.nodup_insert name h.ids, ?_⟩
    have hvalues := h.names
    clear h
    induction names with
    | nil => exact List.nodup_singleton _
    | cons e names ih =>
      obtain ⟨id', name'⟩ := e
      simp only [Keyed.values, List.map_cons, List.nodup_cons, List.mem_cons, not_or]
        at hvalues hfree ih ⊢
      rw [Keyed.insert]
      split
      · exact List.nodup_cons.2 ⟨hfree.2, hvalues.2⟩
      · refine List.nodup_cons.2 ⟨fun hmem => ?_, ih hfree.2 hvalues.2⟩
        rcases values_insert hmem with heq | hmem
        · exact hfree.1 heq.symm
        · exact hvalues.1 hmem

theorem Apart.ofKeys {keys : Keys} (hk : (Keyed.keys keys).Nodup) : (ofKeys keys).Apart := by
  have hall : ∀ (keys : Keys) {names : Names}, names.Apart → (Keyed.keys keys).Nodup →
      (∀ key ∈ Keyed.keys keys, key ∉ Keyed.values names) →
        Apart (Keyed.insertAll names (keys.map fun e => (e.2, e.1))) := by
    intro keys
    induction keys with
    | nil => exact fun h _ _ => h
    | cons e keys ih =>
      intro names h hn hfree
      simp only [Keyed.keys, List.map_cons, List.nodup_cons, List.forall_mem_cons] at hn hfree
      refine ih (h.insert e.2 hfree.1) hn.2 fun key hkey hmem => ?_
      rcases values_insert hmem with rfl | hmem
      · exact hn.1 hkey
      · exact hfree.2 key hkey hmem
  exact hall keys ⟨.nil, .nil⟩ hk fun _ _ => List.not_mem_nil

theorem Apart.add {names : Names} (h : names.Apart) (id : NodeId) : (names.add id).Apart := by
  rw [Names.add]
  split
  · exact h
  · exact h.insert id (fresh_not_mem names id.text)

theorem contains_add (names : Names) (id id' : NodeId) :
    Keyed.contains (names.add id) id' = true ↔ id' = id ∨ Keyed.contains names id' = true := by
  rw [add]
  split
  · rename_i hold
    refine ⟨.inr, ?_⟩
    rintro (rfl | h)
    · exact hold
    · exact h
  · simp only [Keyed.contains, Keyed.get?_insert]
    split
    · rename_i heq
      exact iff_of_true rfl (.inl heq.symm)
    · rename_i hne
      exact (or_iff_right (Ne.symm hne)).symm

theorem foldl_add : ∀ (ids : List NodeId) {names : Names}, names.Apart →
    (ids.foldl add names).Apart ∧ ∀ id, Keyed.contains (ids.foldl add names) id = true ↔
      id ∈ ids ∨ Keyed.contains names id = true
  | [], names, h => ⟨h, fun id => (or_iff_right List.not_mem_nil).symm⟩
  | id :: ids, names, h => by
    obtain ⟨hapart, hcontains⟩ := foldl_add ids (h.add id)
    refine ⟨hapart, fun id' => ?_⟩
    rw [List.foldl_cons, hcontains, contains_add, List.mem_cons, or_left_comm, or_assoc]

/-- Two nodes of a script are described under different names. -/
theorem get_inj (script : Script β) {keys : Keys} (hk : (Keyed.keys keys).Nodup)
    {a b : NodeId} (ha : a ∈ script.nodes.map (·.id)) (hb : b ∈ script.nodes.map (·.id))
    (heq : (ofScript script keys).get a = (ofScript script keys).get b) : a = b := by
  obtain ⟨hapart, hcontains⟩ := foldl_add (script.nodes.map (·.id)) (Apart.ofKeys hk)
  obtain ⟨name, hname⟩ := Option.isSome_iff_exists.1 ((hcontains a).2 (.inl ha))
  obtain ⟨name', hname'⟩ := Option.isSome_iff_exists.1 ((hcontains b).2 (.inl hb))
  obtain rfl : name = name' := by
    rw [ofScript, get, get, hname, hname'] at heq
    exact heq
  exact congrArg Prod.fst (List.inj_on_of_nodup_map hapart.names (Keyed.mem_of_get? hname)
    (Keyed.mem_of_get? hname') rfl)

end Names

end FlowScript
