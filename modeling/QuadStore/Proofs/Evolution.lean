import Mathlib.Data.List.Nodup
import Mathlib.Data.Set.Insert
import Mathlib.Order.Defs.Unbundled
import QuadStore.Sequence
import QuadStore.Table.StatementRow

namespace QuadStore

namespace StatementRow

/-- Whether a row can have become another one: it may have been marked as deleted. -/
structure Becomes (r r' : StatementRow) : Prop where
  id : r'.id = r.id
  key : r'.key = r.key
  creator : r'.creator = r.creator
  inferred : r'.inferred = r.inferred
  deleted : r'.deleted = r.deleted ∨ r.deleted = 0 ∧ r'.deleted = 1

instance : IsPreorder StatementRow Becomes where
  refl _ := ⟨rfl, rfl, rfl, rfl, .inl rfl⟩
  trans r r' r'' h h' := by
    refine ⟨h'.id.trans h.id, h'.key.trans h.key, h'.creator.trans h.creator,
      h'.inferred.trans h.inferred, ?_⟩
    have hd := h.deleted
    have hd' := h'.deleted
    omega

theorem live_iff {r : StatementRow} : r.live = true ↔ r.deleted = 0 := by
  simp [live]

theorem Becomes.live {r r' : StatementRow} (h : r.Becomes r') (hlive : r'.live = true) :
    r.live = true := by
  rw [live_iff] at *
  have hd := h.deleted
  omega

/-- The row marked as deleted. -/
def mark (r : StatementRow) : StatementRow :=
  { r with deleted := 1, deletedAt := some .clock }

theorem becomes_mark {r : StatementRow} (h : r.live = true) : r.Becomes r.mark :=
  ⟨rfl, rfl, rfl, rfl, .inr ⟨live_iff.mp h, rfl⟩⟩

@[simp] theorem live_mark (r : StatementRow) : r.mark.live = false := rfl

theorem sameSlots_iff {r r' : StatementRow} : r.sameSlots r' = true ↔ r.key = r'.key := by
  simp [sameSlots, key, and_assoc]

@[simp] theorem live_ofStatement (t : Statement) : (ofStatement t).live = true := rfl

@[simp] theorem id_ofStatement (t : Statement) : (ofStatement t).id = t.id := rfl

end StatementRow

namespace StatementKey

/-- Whether a key has the given ids in its slots, where they are given. -/
def Matches (k : StatementKey) (ids : List (Option Int)) : Prop :=
  (ids.zip [k.subject, k.predicate, k.object, k.context]).all (fun (wanted, id) =>
    wanted.all (· == id)) = true

end StatementKey

theorem StatementRow.hasIds_iff {r : StatementRow} {ids : List (Option Int)} :
    r.hasIds ids = true ↔ r.key.Matches ids := Iff.rfl

namespace Tables

/-- Whether every row of statements is still there, perhaps marked as deleted. -/
def Evolves (t t' : Tables) : Prop :=
  ∀ r ∈ t.statements, ∃ r' ∈ t'.statements, r.Becomes r'

instance : IsPreorder Tables Evolves where
  refl _ r hr := ⟨r, hr, refl r⟩
  trans _ _ _ h h' r hr := by
    obtain ⟨r', hr', hbecomes⟩ := h r hr
    obtain ⟨r'', hr'', hbecomes'⟩ := h' r' hr'
    exact ⟨r'', hr'', IsTrans.trans _ _ _ hbecomes hbecomes'⟩

theorem Evolves.of_eq {t t' : Tables} (h : t'.statements = t.statements) : t.Evolves t' :=
  fun r hr => ⟨r, h ▸ hr, refl r⟩

/-- The statements that live rows hold. -/
def members (t : Tables) : Set StatementKey :=
  {k | ∃ r ∈ t.statements, r.live = true ∧ r.key = k}

/-- The ids of the live rows. -/
def liveIds (t : Tables) : Set Int :=
  {id | ∃ r ∈ t.statements, r.live = true ∧ r.id = id}

/-- Whether tables are as a store writes them: ids are unique and those of statements are not
negative, no two resources are the same term, and no two live rows hold the same statement. -/
structure Sound (t : Tables) : Prop where
  nodeIds : (t.nodes.map NodeRow.id).Nodup
  resources : ∀ r ∈ t.nodes, ∀ r' ∈ t.nodes, r.isResource = true → r.kind = r'.kind →
    r.lexical = r'.lexical → r = r'
  statementIds : (t.statements.map StatementRow.id).Nodup
  nonneg : ∀ r ∈ t.statements, 0 ≤ r.id
  liveKeys : ∀ r ∈ t.statements, ∀ r' ∈ t.statements, r.live = true → r'.live = true →
    r.key = r'.key → r = r'

theorem sound_empty : Sound {} :=
  ⟨.nil, by simp, .nil, by simp, by simp⟩

variable {t : Tables}

theorem Sound.row_eq (h : t.Sound) {r r' : StatementRow} (hr : r ∈ t.statements)
    (hr' : r' ∈ t.statements) (hid : r.id = r'.id) : r = r' :=
  List.inj_on_of_nodup_map h.statementIds hr hr' hid

theorem Sound.of_eq (h : t.Sound) {t' : Tables} (hnodes : t'.nodes = t.nodes)
    (hstatements : t'.statements = t.statements) : t'.Sound := by
  constructor <;> simp only [hnodes, hstatements]
  · exact h.nodeIds
  · exact h.resources
  · exact h.statementIds
  · exact h.nonneg
  · exact h.liveKeys

theorem countP_le_one {α : Type} {xs : List α} {p : α → Bool} (hnodup : xs.Nodup)
    (hunique : ∀ x ∈ xs, ∀ y ∈ xs, p x = true → p y = true → x = y) : xs.countP p ≤ 1 := by
  have hfilter : (xs.filter p).Nodup := hnodup.filter _
  have hmem : ∀ x ∈ xs.filter p, x ∈ xs ∧ p x = true := fun x hx => List.mem_filter.mp hx
  rw [List.countP_eq_length_filter]
  generalize xs.filter p = found at hfilter hmem
  rcases found with _ | ⟨x, _ | ⟨y, rest⟩⟩
  · exact Nat.zero_le 1
  · exact le_refl 1
  · obtain ⟨hx, hpx⟩ := hmem x (by simp)
    obtain ⟨hy, hpy⟩ := hmem y (by simp)
    simp [hunique x hx y hy hpx hpy] at hfilter

theorem mem_ids_of_mem_liveIds {id : Int} (h : id ∈ t.liveIds) :
    id ∈ t.statements.map StatementRow.id := by
  obtain ⟨r, hr, -, rfl⟩ := h
  exact List.mem_map_of_mem hr

theorem Evolves.mem_ids {t' : Tables} (h : t.Evolves t') {id : Int}
    (hid : id ∈ t.statements.map StatementRow.id) : id ∈ t'.statements.map StatementRow.id := by
  obtain ⟨r, hr, rfl⟩ := List.mem_map.mp hid
  obtain ⟨r', hr', hbecomes⟩ := h r hr
  exact List.mem_map.mpr ⟨r', hr', hbecomes.id⟩

theorem members_congr {t' : Tables} (h : t'.statements = t.statements) :
    t'.members = t.members := by
  rw [members, h, members]

theorem liveIds_congr {t' : Tables} (h : t'.statements = t.statements) :
    t'.liveIds = t.liveIds := by
  rw [liveIds, h, liveIds]

/-! Adding rows -/

theorem insertNode?_eq_some {row : NodeRow} {t' : Tables} (h : t.insertNode? row = some t') :
    t' = { t with nodes := t.nodes ++ [row] } ∧
      ∀ r ∈ t.nodes, r.id ≠ row.id ∧ row.conflicts r = false := by
  unfold insertNode? at h
  split at h
  · cases h
  · rename_i hnone
    refine ⟨(Option.some.inj h).symm, fun r hr => ?_⟩
    simp only [List.any_eq_true, not_exists, not_and, Bool.or_eq_true, not_or] at hnone
    obtain ⟨hid, hconflict⟩ := hnone r hr
    exact ⟨by simpa using hid, by simpa using hconflict⟩

theorem Sound.insertNode (h : t.Sound) {row : NodeRow} {t' : Tables}
    (hinsert : t.insertNode? row = some t') : t'.Sound := by
  obtain ⟨rfl, hnew⟩ := insertNode?_eq_some hinsert
  refine ⟨?_, ?_, h.statementIds, h.nonneg, h.liveKeys⟩
  · simp only [List.map_append, List.map_cons, List.map_nil]
    refine List.nodup_append.mpr ⟨h.nodeIds, List.nodup_singleton _, ?_⟩
    rintro id hid id' hid' rfl
    obtain ⟨r, hr, rfl⟩ := List.mem_map.mp hid
    exact (hnew r hr).1 (List.mem_singleton.mp hid')
  · have differs : ∀ r ∈ t.nodes, row.isResource = true → row.kind = r.kind →
        row.lexical = r.lexical → False := by
      intro r hr hresource hkind hlexical
      have hconflict := (hnew r hr).2
      simp [NodeRow.conflicts, hresource, hkind, hlexical] at hconflict
    intro r hr r' hr' hresource hkind hlexical
    rcases List.mem_append.mp hr with hold | hadded <;>
      rcases List.mem_append.mp hr' with hold' | hadded'
    · exact h.resources r hold r' hold' hresource hkind hlexical
    · obtain rfl := List.mem_singleton.mp hadded'
      refine (differs r hold ?_ hkind.symm hlexical.symm).elim
      simpa [NodeRow.isResource, hkind] using hresource
    · obtain rfl := List.mem_singleton.mp hadded
      exact (differs r' hold' hresource hkind hlexical).elim
    · rw [List.mem_singleton.mp hadded, List.mem_singleton.mp hadded']

/-- The tables with one more row of a statement. -/
def withStatement (t : Tables) (row : StatementRow) : Tables :=
  { t with statements := t.statements ++ [row] }

theorem insertStatement?_eq_some {row : StatementRow} {t' : Tables}
    (h : t.insertStatement? row = some t') :
    t' = t.withStatement row ∧ row.id ∉ t.statements.map StatementRow.id := by
  unfold insertStatement? at h
  split at h
  · cases h
  · rename_i hnone
    refine ⟨(Option.some.inj h).symm, fun hmem => ?_⟩
    obtain ⟨r, hr, hid⟩ := List.mem_map.mp hmem
    simp only [List.any_eq_true, not_exists, not_and, Bool.or_eq_true, not_or] at hnone
    exact (hnone r hr).1 (by simpa using hid)

theorem insertStatement?_eq_none {row : StatementRow} (h : t.insertStatement? row = none)
    (hnew : ∀ r ∈ t.statements, r.live = true → r.key ≠ row.key) :
    row.id ∈ t.statements.map StatementRow.id := by
  unfold insertStatement? at h
  split at h
  · rename_i hany
    obtain ⟨r, hr, htaken⟩ := List.any_eq_true.mp hany
    rw [Bool.or_eq_true] at htaken
    rcases htaken with hid | hsame
    · exact List.mem_map.mpr ⟨r, hr, by simpa using hid⟩
    · simp only [Bool.and_eq_true] at hsame
      exact absurd (StatementRow.sameSlots_iff.mp hsame.2).symm (hnew r hr hsame.1.2)
  · cases h

theorem evolves_withStatement (t : Tables) (row : StatementRow) :
    t.Evolves (t.withStatement row) :=
  fun r hr => ⟨r, List.mem_append_left _ hr, refl r⟩

theorem Sound.withStatement (h : t.Sound) {row : StatementRow}
    (hfresh : row.id ∉ t.statements.map StatementRow.id) (hnonneg : 0 ≤ row.id)
    (hnew : ∀ r ∈ t.statements, r.live = true → r.key ≠ row.key) :
    (t.withStatement row).Sound := by
  refine ⟨h.nodeIds, h.resources, ?_, ?_, ?_⟩
  · simp only [Tables.withStatement, List.map_append, List.map_cons, List.map_nil]
    refine List.nodup_append.mpr ⟨h.statementIds, List.nodup_singleton _, ?_⟩
    rintro id hid id' hid' rfl
    exact hfresh (List.mem_singleton.mp hid' ▸ hid)
  · intro r hr
    rcases List.mem_append.mp hr with hr | hr
    · exact h.nonneg r hr
    · rwa [List.mem_singleton.mp hr]
  · intro r hr r' hr' hlive hlive' hkey
    rcases List.mem_append.mp hr with hold | hadded <;>
      rcases List.mem_append.mp hr' with hold' | hadded'
    · exact h.liveKeys r hold r' hold' hlive hlive' hkey
    · obtain rfl := List.mem_singleton.mp hadded'
      exact absurd hkey (hnew r hold hlive)
    · obtain rfl := List.mem_singleton.mp hadded
      exact absurd hkey.symm (hnew r' hold' hlive')
    · rw [List.mem_singleton.mp hadded, List.mem_singleton.mp hadded']

theorem members_withStatement {row : StatementRow} (hlive : row.live = true) :
    (t.withStatement row).members = insert row.key t.members := by
  ext k
  simp only [members, Tables.withStatement, List.mem_append,
    List.mem_singleton, Set.mem_ofPred_eq, Set.mem_insert_iff]
  constructor
  · rintro ⟨r, hr | rfl, hr', rfl⟩
    · exact .inr ⟨r, hr, hr', rfl⟩
    · exact .inl rfl
  · rintro (rfl | ⟨r, hr, hr', rfl⟩)
    · exact ⟨row, .inr rfl, hlive, rfl⟩
    · exact ⟨r, .inl hr, hr', rfl⟩

theorem liveIds_withStatement {row : StatementRow} (hlive : row.live = true) :
    (t.withStatement row).liveIds = insert row.id t.liveIds := by
  ext id
  simp only [liveIds, Tables.withStatement, List.mem_append,
    List.mem_singleton, Set.mem_ofPred_eq, Set.mem_insert_iff]
  constructor
  · rintro ⟨r, hr | rfl, hr', rfl⟩
    · exact .inr ⟨r, hr, hr', rfl⟩
    · exact .inl rfl
  · rintro (rfl | ⟨r, hr, hr', rfl⟩)
    · exact ⟨row, .inr rfl, hlive, rfl⟩
    · exact ⟨r, .inl hr, hr', rfl⟩

/-! Marking rows as deleted -/

/-- The tables with the live rows of the given ids marked as deleted. -/
def withDeleted (t : Tables) (ids : List Int) : Tables :=
  { t with
    statements := t.statements.map fun r => if r.id ∈ ids ∧ r.live = true then r.mark else r }

@[simp] theorem withDeleted_nil (t : Tables) : t.withDeleted [] = t := by
  simp [withDeleted]

theorem mem_withDeleted_iff {ids : List Int} {r : StatementRow} :
    r ∈ (t.withDeleted ids).statements ↔
      (r ∈ t.statements ∧ (r.id ∈ ids → r.live = false)) ∨
        ∃ r' ∈ t.statements, r'.id ∈ ids ∧ r'.live = true ∧ r = r'.mark := by
  simp only [withDeleted, List.mem_map]
  constructor
  · rintro ⟨r', hr', rfl⟩
    split
    · rename_i h
      exact .inr ⟨r', hr', h.1, h.2, rfl⟩
    · rename_i h
      refine .inl ⟨hr', fun hid => ?_⟩
      simpa [hid] using h
  · rintro (⟨hr, hdead⟩ | ⟨r', hr', hid, hlive, rfl⟩)
    · refine ⟨r, hr, if_neg ?_⟩
      rintro ⟨hid, hlive⟩
      simp [hdead hid] at hlive
    · exact ⟨r', hr', if_pos ⟨hid, hlive⟩⟩

theorem evolves_withDeleted (t : Tables) (ids : List Int) : t.Evolves (t.withDeleted ids) := by
  intro r hr
  by_cases h : r.id ∈ ids ∧ r.live = true
  · exact ⟨r.mark, mem_withDeleted_iff.mpr (.inr ⟨r, hr, h.1, h.2, rfl⟩),
      StatementRow.becomes_mark h.2⟩
  · refine ⟨r, mem_withDeleted_iff.mpr (.inl ⟨hr, fun hid => ?_⟩), refl r⟩
    simpa [hid] using h

theorem map_id_withDeleted (t : Tables) (ids : List Int) :
    (t.withDeleted ids).statements.map StatementRow.id = t.statements.map StatementRow.id := by
  simp only [withDeleted, List.map_map]
  refine List.map_congr_left fun r _ => ?_
  simp only [Function.comp_apply]
  split <;> rfl

theorem live_of_mem_withDeleted {ids : List Int} {r : StatementRow}
    (hr : r ∈ (t.withDeleted ids).statements) (hlive : r.live = true) :
    r ∈ t.statements ∧ r.id ∉ ids := by
  rcases mem_withDeleted_iff.mp hr with ⟨hr, hdead⟩ | ⟨r', -, -, -, rfl⟩
  · refine ⟨hr, fun hid => ?_⟩
    simp [hdead hid] at hlive
  · simp at hlive

theorem Sound.withDeleted (h : t.Sound) (ids : List Int) : (t.withDeleted ids).Sound := by
  refine ⟨h.nodeIds, h.resources, ?_, ?_, ?_⟩
  · rw [map_id_withDeleted]
    exact h.statementIds
  · intro r hr
    rcases mem_withDeleted_iff.mp hr with ⟨hr, -⟩ | ⟨r', hr', -, -, rfl⟩
    · exact h.nonneg r hr
    · exact h.nonneg r' hr'
  · intro r hr r' hr' hlive hlive' hkey
    exact h.liveKeys r (live_of_mem_withDeleted hr hlive).1 r'
      (live_of_mem_withDeleted hr' hlive').1 hlive hlive' hkey

theorem liveIds_withDeleted (t : Tables) (ids : List Int) :
    (t.withDeleted ids).liveIds = t.liveIds \ {id | id ∈ ids} := by
  ext id
  constructor
  · rintro ⟨r, hr, hlive, rfl⟩
    obtain ⟨hmem, hid⟩ := live_of_mem_withDeleted hr hlive
    exact ⟨⟨r, hmem, hlive, rfl⟩, hid⟩
  · rintro ⟨⟨r, hr, hlive, rfl⟩, hid⟩
    exact ⟨r, mem_withDeleted_iff.mpr (.inl ⟨hr, fun h => absurd h hid⟩), hlive, rfl⟩

theorem withDeleted_append (t : Tables) (ids ids' : List Int) :
    (t.withDeleted ids).withDeleted ids' = t.withDeleted (ids ++ ids') := by
  simp only [withDeleted, List.map_map]
  congr 1
  refine List.map_congr_left fun r _ => ?_
  simp only [Function.comp_apply, List.mem_append]
  by_cases hr : r.id ∈ ids ∧ r.live = true
  · simp [hr]
  · rw [if_neg hr]
    by_cases hid : r.id ∈ ids' ∧ r.live = true
    · simp [hid]
    · rw [if_neg hid, if_neg]
      rintro ⟨h | h, hlive⟩
      · exact hr ⟨h, hlive⟩
      · exact hid ⟨h, hlive⟩

/-- Of the statements those remain that the live rows of other ids hold. -/
theorem members_withDeleted (h : t.Sound) (ids : List Int) :
    (t.withDeleted ids).members =
      t.members \ {k | ∃ r ∈ t.statements, r.live = true ∧ r.id ∈ ids ∧ r.key = k} := by
  ext k
  constructor
  · rintro ⟨r, hr, hlive, rfl⟩
    obtain ⟨hmem, hid⟩ := live_of_mem_withDeleted hr hlive
    refine ⟨⟨r, hmem, hlive, rfl⟩, ?_⟩
    rintro ⟨r', hr', hlive', hid', hkey⟩
    rw [h.liveKeys r' hr' r hmem hlive' hlive hkey] at hid'
    exact hid hid'
  · rintro ⟨⟨r, hr, hlive, rfl⟩, hkept⟩
    refine ⟨r, mem_withDeleted_iff.mpr (.inl ⟨hr, fun hid => ?_⟩), hlive, rfl⟩
    exact absurd ⟨r, hr, hlive, hid, rfl⟩ hkept

theorem deleteStatement?_eq_some_iff {id : Int} {t' : Tables} :
    t.deleteStatement? id = some t' ↔ id ∈ t.liveIds ∧ t' = t.withDeleted [id] := by
  unfold deleteStatement?
  have hany : (t.statements.any fun r => r.id == id && r.live) = true ↔ id ∈ t.liveIds := by
    simp only [List.any_eq_true, Bool.and_eq_true, beq_iff_eq, liveIds, Set.mem_ofPred_eq]
    exact exists_congr fun r => and_congr_right fun _ => and_comm
  have htables : ({ t with statements := t.statements.map fun r =>
      if r.id == id && r.live then { r with deleted := 1, deletedAt := some .clock } else r } :
        Tables) = t.withDeleted [id] := by
    simp [withDeleted, StatementRow.mark]
  rw [htables]
  split
  · rename_i h
    simp [hany.mp h, eq_comm]
  · rename_i h
    simp [mt hany.mpr h]

theorem deleteStatement?_eq_none_iff {id : Int} :
    t.deleteStatement? id = none ↔ id ∉ t.liveIds := by
  rw [Option.eq_none_iff_forall_ne_some]
  constructor
  · intro h hid
    exact h _ (deleteStatement?_eq_some_iff.mpr ⟨hid, rfl⟩)
  · intro hid t' h
    exact hid (deleteStatement?_eq_some_iff.mp h).1

theorem withDeleted_of_notMem {id : Int} (h : id ∉ t.liveIds) :
    t.withDeleted [id] = t := by
  have hmap : (t.statements.map fun r => if r.id ∈ [id] ∧ r.live = true then r.mark else r) =
      t.statements := by
    refine (List.map_congr_left fun r hr => if_neg ?_).trans (List.map_id _)
    rintro ⟨hid, hlive⟩
    exact h ⟨r, hr, hlive, List.mem_singleton.mp hid⟩
  simp only [Tables.withDeleted, hmap]

end Tables

namespace Tables

theorem le_foldl_max (ids : List Int) (start : Int) :
    start ≤ ids.foldl max start ∧ ∀ id ∈ ids, id ≤ ids.foldl max start := by
  induction ids generalizing start with
  | nil => simp
  | cons first rest ih =>
      obtain ⟨hstart, hrest⟩ := ih (max start first)
      rw [List.foldl_cons]
      refine ⟨by omega, fun id hid => ?_⟩
      rcases List.mem_cons.mp hid with rfl | hid
      · omega
      · exact hrest id hid

theorem le_greatestId {ids : List Int} {id : Int} (h : id ∈ ids) : id ≤ greatestId ids := by
  cases ids with
  | nil => cases h
  | cons first rest =>
      obtain ⟨hfirst, hrest⟩ := le_foldl_max rest first
      rcases List.mem_cons.mp h with rfl | h
      · exact hfirst
      · exact hrest id h

theorem greatestId_nonneg {ids : List Int} (h : ∀ id ∈ ids, 0 ≤ id) : 0 ≤ greatestId ids := by
  cases ids with
  | nil => exact le_refl _
  | cons first rest => exact le_trans (h first (by simp)) (le_greatestId (by simp))

end Tables

namespace Counters

theorem lt_nextTried (value : Int) : value < nextTried value := by
  unfold nextTried
  split <;> omega

theorem lt_skipUsed (used : List Int) (fuel : Nat) (value : Int) :
    value < skipUsed used fuel value := by
  induction fuel generalizing value with
  | zero => exact lt_nextTried value
  | succ fuel ih =>
      rw [skipUsed]
      split
      · exact (lt_nextTried value).trans (ih _)
      · exact lt_nextTried value

theorem skipUsed_notMem_of_le {used : List Int} {fuel : Nat} {value : Int}
    (hfuel : (used.filter (value < ·)).length ≤ fuel) : skipUsed used fuel value ∉ used := by
  induction fuel generalizing value with
  | zero =>
      intro hmem
      have hgreater : nextTried value ∈ used.filter (value < ·) :=
        List.mem_filter.mpr ⟨hmem, by simpa using lt_nextTried value⟩
      have hpos := List.length_pos_of_mem hgreater
      omega
  | succ fuel ih =>
      rw [skipUsed]
      split
      · rename_i hused
        apply ih
        -- The id that was tried is no longer among the greater ones.
        have hlt := lt_nextTried value
        have hfilter : used.filter (nextTried value < ·) =
            (used.filter (value < ·)).filter (nextTried value < ·) := by
          rw [List.filter_filter]
          refine List.filter_congr fun id _ => ?_
          by_cases hid : nextTried value < id
          · simp [hid, hlt.trans hid]
          · simp [hid]
        have hless : (used.filter (nextTried value < ·)).length <
            (used.filter (value < ·)).length := by
          rw [hfilter, List.length_filter_lt_length_iff_exists]
          exact ⟨nextTried value, List.mem_filter.mpr ⟨hused, by simpa using hlt⟩, by simp⟩
        omega
      · assumption

theorem skipUsed_notMem (used : List Int) (value : Int) :
    skipUsed used used.length value ∉ used :=
  skipUsed_notMem_of_le (List.length_filter_le _ _)

end Counters
end QuadStore
