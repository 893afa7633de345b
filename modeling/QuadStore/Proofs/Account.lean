import QuadStore.Proofs.Evolution
import QuadStore.Transaction

namespace QuadStore.ChangeEvent

/-- Whether an account is the difference between two tables: each row that is live in one of
them only is in it, once. -/
structure IsDifference (before after : Tables) (e : ChangeEvent) : Prop where
  added : ∀ id, id ∈ e.added.map Statement.id ↔ id ∈ after.liveIds ∧ id ∉ before.liveIds
  removed : ∀ id, id ∈ e.removed.map Statement.id ↔ id ∈ before.liveIds ∧ id ∉ after.liveIds
  nodup : (e.added.map Statement.id ++ e.removed.map Statement.id).Nodup

namespace IsDifference

variable {before after after' : Tables} {e : ChangeEvent} {t : Statement}

theorem empty (h : after.liveIds = before.liveIds) : IsDifference before after .empty := by
  refine ⟨?_, ?_, .nil⟩ <;> simp [ChangeEvent.empty, h]

theorem isEmpty_iff (h : IsDifference before after e) :
    e.isEmpty = true ↔ after.liveIds = before.liveIds := by
  have hempty : e.isEmpty = true ↔ e.added = [] ∧ e.removed = [] := by simp [isEmpty]
  rw [hempty, ← List.map_eq_nil_iff (f := Statement.id), List.eq_nil_iff_forall_not_mem,
    ← List.map_eq_nil_iff (f := Statement.id) (l := e.removed), List.eq_nil_iff_forall_not_mem]
  simp only [h.added, h.removed]
  constructor
  · rintro ⟨hadded, hremoved⟩
    ext id
    have hnew := hadded id
    have hgone := hremoved id
    tauto
  · intro heq
    rw [heq]
    exact ⟨fun id h => h.2 h.1, fun id h => h.2 h.1⟩

theorem eq_empty (h : IsDifference before after e) (heq : after.liveIds = before.liveIds) :
    e = .empty := by
  have hempty := h.isEmpty_iff.mpr heq
  obtain ⟨added, removed⟩ := e
  simp only [isEmpty, Bool.and_eq_true, List.isEmpty_iff] at hempty
  obtain ⟨rfl, rfl⟩ := hempty
  rfl

theorem congr (h : IsDifference before after e) (heq : after'.liveIds = after.liveIds) :
    IsDifference before after' e := by
  constructor
  · rw [heq]
    exact h.added
  · rw [heq]
    exact h.removed
  · exact h.nodup

theorem add (h : IsDifference before after e) (hbefore : t.id ∉ before.liveIds)
    (hafter : t.id ∉ after.liveIds) (hlive : after'.liveIds = insert t.id after.liveIds) :
    IsDifference before after' (e.add t) := by
  have hadded : (e.add t).added.map Statement.id = e.added.map Statement.id ++ [t.id] := by
    simp [ChangeEvent.add]
  have hfresh : t.id ∉ e.added.map Statement.id := fun hmem => hafter ((h.added _).mp hmem).1
  have hunremoved : t.id ∉ e.removed.map Statement.id :=
    fun hmem => hbefore ((h.removed _).mp hmem).1
  constructor
  · intro id
    rw [hadded, hlive, List.mem_append, List.mem_singleton, h.added, Set.mem_insert_iff]
    constructor
    · rintro (⟨hid, hold⟩ | rfl)
      · exact ⟨.inr hid, hold⟩
      · exact ⟨.inl rfl, hbefore⟩
    · rintro ⟨rfl | hid, hold⟩
      · exact .inr rfl
      · exact .inl ⟨hid, hold⟩
  · intro id
    have hremoved := h.removed id
    rw [hlive, Set.mem_insert_iff, not_or]
    constructor
    · intro hmem
      obtain ⟨hid, hgone⟩ := hremoved.mp hmem
      refine ⟨hid, ?_, hgone⟩
      rintro rfl
      exact hbefore hid
    · rintro ⟨hid, -, hgone⟩
      exact hremoved.mpr ⟨hid, hgone⟩
  · have hperm : ((e.add t).added.map Statement.id ++ (e.add t).removed.map Statement.id).Perm
        (t.id :: (e.added.map Statement.id ++ e.removed.map Statement.id)) := by
      rw [hadded, List.append_assoc]
      exact List.perm_middle
    refine hperm.nodup_iff.mpr (List.nodup_cons.mpr ⟨?_, h.nodup⟩)
    rw [List.mem_append, not_or]
    exact ⟨hfresh, hunremoved⟩

theorem remove_added (h : IsDifference before after e) (hadded : t.id ∈ e.added.map Statement.id)
    (hlive : after'.liveIds = after.liveIds \ {t.id}) :
    IsDifference before after' (e.remove t) := by
  have hany : (e.added.any fun u => u.id == t.id) = true := by
    obtain ⟨u, hu, hid⟩ := List.mem_map.mp hadded
    exact List.any_eq_true.mpr ⟨u, hu, by simp [hid]⟩
  have herased : (e.added.eraseP fun u => u.id == t.id).map Statement.id =
      (e.added.map Statement.id).erase t.id := by
    rw [List.erase_eq_eraseP', List.eraseP_map]
    congr 1
  have hnew := ((h.added _).mp hadded).2
  have hnodup := h.nodup
  rw [ChangeEvent.remove, if_pos hany]
  constructor
  · intro id
    rw [herased, (List.nodup_append.mp hnodup).1.mem_erase_iff, h.added, hlive, Set.mem_sdiff,
      Set.mem_singleton_iff]
    tauto
  · intro id
    have hremoved := h.removed id
    rw [hlive, Set.mem_sdiff, Set.mem_singleton_iff]
    constructor
    · intro hmem
      obtain ⟨hid, hgone⟩ := hremoved.mp hmem
      exact ⟨hid, fun hstill => hgone hstill.1⟩
    · rintro ⟨hid, hgone⟩
      refine hremoved.mpr ⟨hid, fun hstill => hgone ⟨hstill, ?_⟩⟩
      rintro rfl
      exact hnew hid
  · dsimp only
    rw [herased]
    exact hnodup.sublist (List.Sublist.append List.erase_sublist (List.Sublist.refl _))

/-- A row that was live from the start ceases to be live. -/
theorem remove_old (h : IsDifference before after e) (hafter : t.id ∈ after.liveIds)
    (hold : t.id ∉ e.added.map Statement.id) (hlive : after'.liveIds = after.liveIds \ {t.id}) :
    IsDifference before after' (e.remove t) := by
  have hunremoved : t.id ∉ e.removed.map Statement.id :=
    fun hmem => ((h.removed _).mp hmem).2 hafter
  have hnone : ¬(e.added.any fun u => u.id == t.id) = true := by
    intro hany
    obtain ⟨u, hu, hid⟩ := List.any_eq_true.mp hany
    exact hold (List.mem_map.mpr ⟨u, hu, by simpa using hid⟩)
  have hbefore : t.id ∈ before.liveIds := by
    by_contra hbefore
    exact hold ((h.added _).mpr ⟨hafter, hbefore⟩)
  have hremoved : (e.removed ++ [t]).map Statement.id = e.removed.map Statement.id ++ [t.id] := by
    simp
  rw [ChangeEvent.remove, if_neg hnone]
  constructor
  · intro id
    have hmem := h.added id
    rw [hlive, Set.mem_sdiff, Set.mem_singleton_iff]
    constructor
    · intro hid
      obtain ⟨hstill, hnew⟩ := hmem.mp hid
      refine ⟨⟨hstill, ?_⟩, hnew⟩
      rintro rfl
      exact hold hid
    · rintro ⟨⟨hstill, -⟩, hnew⟩
      exact hmem.mpr ⟨hstill, hnew⟩
  · intro id
    rw [hremoved, List.mem_append, List.mem_singleton, h.removed, hlive, Set.mem_sdiff,
      Set.mem_singleton_iff]
    constructor
    · rintro (⟨hid, hgone⟩ | rfl)
      · exact ⟨hid, fun hstill => hgone hstill.1⟩
      · exact ⟨hbefore, fun hstill => hstill.2 rfl⟩
    · rintro ⟨hid, hgone⟩
      by_cases heq : id = t.id
      · exact .inr heq
      · exact .inl ⟨hid, fun hstill => hgone ⟨hstill, heq⟩⟩
  · rw [hremoved, ← List.append_assoc]
    refine List.nodup_append.mpr ⟨h.nodup, List.nodup_singleton _, ?_⟩
    rintro id hid id' hid' rfl
    rw [List.mem_singleton.mp hid', List.mem_append] at hid
    exact hid.elim hold hunremoved

theorem remove (h : IsDifference before after e) (hafter : t.id ∈ after.liveIds)
    (hlive : after'.liveIds = after.liveIds \ {t.id}) :
    IsDifference before after' (e.remove t) := by
  by_cases hadded : t.id ∈ e.added.map Statement.id
  · exact h.remove_added hadded hlive
  · exact h.remove_old hafter hadded hlive

end IsDifference
end QuadStore.ChangeEvent
