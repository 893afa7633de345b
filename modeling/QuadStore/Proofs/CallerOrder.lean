import Mathlib.Data.List.Forall2
import QuadStore.Proofs.Choices
import QuadStore.Proofs.CompiledTables
import QuadStore.Table.StatementRow

namespace QuadStore

variable {α β : Type}

/-- The elements at the given places, in the order of the places. -/
def pick (places : List Nat) (xs : List α) : List α :=
  places.filterMap fun k => xs[k]?

variable {places : List Nat} {n : Nat} {xs : List α} {ys : List β}

theorem getElem?_pick (h : ∀ k ∈ places, k < xs.length) (j : Nat) :
    (pick places xs)[j]? = places[j]?.bind fun k => xs[k]? := by
  induction places generalizing j with
  | nil => rfl
  | cons k places ih =>
      obtain ⟨x, hx⟩ : ∃ x, xs[k]? = some x := ⟨_, List.getElem?_eq_getElem (h k (by simp))⟩
      rw [pick, List.filterMap_cons, hx]
      cases j with
      | zero => simp [hx]
      | succ j => simpa [pick] using ih (fun k hk => h k (by simp [hk])) j

section

variable (hplaces : places.Perm (List.range n))
include hplaces

theorem getElem?_pick_of_perm (hlength : xs.length = n) (j : Nat) :
    (pick places xs)[j]? = places[j]?.bind fun k => xs[k]? :=
  getElem?_pick (fun _ hk => hlength ▸ List.mem_range.mp (hplaces.mem_iff.mp hk)) j

theorem exists_place {k : Nat} (hk : k < n) : ∃ j, j < n ∧ places[j]? = some k := by
  obtain ⟨j, hj⟩ := List.getElem?_of_mem (hplaces.mem_iff.mpr (List.mem_range.mpr hk))
  obtain ⟨hlt, -⟩ := List.getElem?_eq_some_iff.mp hj
  rw [hplaces.length_eq, List.length_range] at hlt
  exact ⟨j, hlt, hj⟩

theorem exists_at_place {j : Nat} (hj : j < n) : ∃ k, k < n ∧ places[j]? = some k := by
  have hlt : j < places.length := by rwa [hplaces.length_eq, List.length_range]
  refine ⟨places[j], ?_, List.getElem?_eq_getElem hlt⟩
  exact List.mem_range.mp (hplaces.mem_iff.mp (List.getElem_mem hlt))

theorem length_pick (hlength : xs.length = n) : (pick places xs).length = n := by
  have hsome : ∀ k ∈ places, (xs[k]?).isSome := by
    intro k hk
    have hlt := List.mem_range.mp (hplaces.mem_iff.mp hk)
    simp [List.getElem?_eq_getElem (hlength ▸ hlt)]
  rw [pick, List.length_filterMap_eq_countP, List.countP_eq_length.mpr hsome, hplaces.length_eq,
    List.length_range]

theorem forall₂_pick_iff {R : α → β → Prop} (hxs : xs.length = n) (hys : ys.length = n) :
    List.Forall₂ R (pick places xs) (pick places ys) ↔ List.Forall₂ R xs ys := by
  have forall₂_iff : ∀ {as : List α} {bs : List β}, as.length = n → bs.length = n →
      (List.Forall₂ R as bs ↔
        ∀ i < n, ∀ a b, as[i]? = some a → bs[i]? = some b → R a b) := by
    intro as bs has hbs
    rw [List.forall₂_iff_get]
    constructor
    · rintro ⟨-, hR⟩ i hi a b ha hb
      obtain ⟨hi, rfl⟩ := List.getElem?_eq_some_iff.mp ha
      obtain ⟨hi', rfl⟩ := List.getElem?_eq_some_iff.mp hb
      exact hR i hi hi'
    · intro hR
      refine ⟨has.trans hbs.symm, fun i hi hi' => ?_⟩
      exact hR i (has ▸ hi) _ _ (List.getElem?_eq_getElem hi) (List.getElem?_eq_getElem hi')
  rw [forall₂_iff (length_pick hplaces hxs) (length_pick hplaces hys), forall₂_iff hxs hys]
  simp only [getElem?_pick_of_perm hplaces hxs, getElem?_pick_of_perm hplaces hys]
  constructor
  · intro h k hk x y hx hy
    obtain ⟨j, hj, hplace⟩ := exists_place hplaces hk
    exact h j hj x y (by simp [hplace, hx]) (by simp [hplace, hy])
  · intro h j hj x y hx hy
    obtain ⟨k, hk, hplace⟩ := exists_at_place hplaces hj
    exact h k hk x y (by simpa [hplace] using hx) (by simpa [hplace] using hy)

theorem pick_injective {xs xs' : List α} (hxs : xs.length = n) (hxs' : xs'.length = n)
    (h : pick places xs = pick places xs') : xs = xs' := by
  rw [← List.forall₂_eq_eq_eq] at h ⊢
  exact (forall₂_pick_iff hplaces hxs hxs').mp h

theorem exists_pick_eq (hlength : xs.length = n) :
    ∃ xs', xs'.length = n ∧ pick places xs' = xs := by
  have hnodup : places.Nodup := hplaces.nodup_iff.mpr List.nodup_range
  have element_exists : ∀ k ∈ List.range n,
      ∃ x, ∃ j : Nat, places[j]? = some k ∧ xs[j]? = some x := by
    intro k hk
    obtain ⟨j, hj, hplace⟩ := exists_place hplaces (List.mem_range.mp hk)
    exact ⟨_, j, hplace, List.getElem?_eq_getElem (hlength ▸ hj)⟩
  obtain ⟨xs', hxs'⟩ := exists_forall₂ element_exists
  have hlength' : xs'.length = n := by simpa using hxs'.length_eq.symm
  refine ⟨xs', hlength', List.ext_getElem?_iff.mpr fun j => ?_⟩
  rw [getElem?_pick_of_perm hplaces hlength']
  by_cases hj : j < n
  · obtain ⟨k, hk, hplace⟩ := exists_at_place hplaces hj
    have hkn : k < xs'.length := hlength' ▸ hk
    obtain ⟨j', hplace', hx⟩ := (List.forall₂_iff_get.mp hxs').2 k (by simpa using hk) hkn
    have hplace'' : places[j']? = some k := by simpa using hplace'
    obtain ⟨hlt, -⟩ := List.getElem?_eq_some_iff.mp hplace
    have hjj' : j = j' := (List.getElem?_inj hlt hnodup).mp (hplace.trans hplace''.symm)
    subst hjj'
    rw [hplace, Option.bind_some, List.getElem?_eq_getElem hkn]
    exact hx.symm
  · have hnone : places[j]? = none := by
      rw [List.getElem?_eq_none_iff, hplaces.length_eq, List.length_range]
      omega
    rw [hnone, List.getElem?_eq_none_iff.mpr (by omega)]
    rfl

theorem perm_pick (hlength : xs.length = n) : (pick places xs).Perm xs := by
  refine (hplaces.filterMap _).trans (.of_eq ?_)
  have hall : ∀ k ∈ List.range n, k < xs.length :=
    fun k hk => hlength ▸ List.mem_range.mp hk
  refine List.ext_getElem?_iff.mpr fun j => (getElem?_pick hall j).trans ?_
  by_cases hj : j < n
  · simp [List.getElem?_range hj]
  · rw [List.getElem?_eq_none_iff.mpr (by simpa using hj),
      List.getElem?_eq_none_iff.mpr (by omega)]
    rfl

end

namespace ResolvedQuery

variable {q : ResolvedQuery}

/-- The rows of a solution in the order of the query that the patterns come from. -/
def inCallerOrder (q : ResolvedQuery) (rows : List StatementRow) : List StatementRow :=
  pick q.callerOrder rows

theorem perm_callerOrder (q : ResolvedQuery) :
    q.callerOrder.Perm (List.range q.patterns.length) := by
  refine ((List.mergeSort_perm _ _).map _).trans (.of_eq ?_)
  simp [numbered, Function.comp_def, List.range_eq_range']

theorem lt_of_mem_callerOrder {k : Nat} (h : k ∈ q.callerOrder) : k < q.patterns.length :=
  List.mem_range.mp ((perm_callerOrder q).mem_iff.mp h)

theorem pairwise_pick_callerOrder (q : ResolvedQuery) :
    (pick q.callerOrder q.patterns).Pairwise fun p p' => p.index ≤ p'.index := by
  have hsorted : ((q.numbered.map fun entry => (entry.2.index, entry.1)).mergeSort
      fun a b => a.1 ≤ b.1).Pairwise fun a b => decide (a.1 ≤ b.1) := by
    apply List.pairwise_mergeSort
    · intro a b c hab hbc
      simp only [decide_eq_true_eq] at *
      omega
    · intro a b
      simp only [Bool.or_eq_true, decide_eq_true_eq]
      omega
  rw [pick, callerOrder, List.filterMap_map, List.pairwise_filterMap]
  refine hsorted.imp_of_mem ?_
  intro e e' he he' hle p hp p' hp'
  have index_eq : ∀ {e : Nat × Nat} {p : ResolvedPattern},
      e ∈ q.numbered.map (fun entry => (entry.2.index, entry.1)) →
      q.patterns[e.2]? = some p → p.index = e.1 := by
    intro e p he hp
    obtain ⟨⟨i, p'⟩, hmem, rfl⟩ := List.mem_map.mp he
    rw [mem_numbered_iff.mp hmem] at hp
    rw [Option.some.inj hp]
  rw [index_eq (List.mem_mergeSort.mp he) hp, index_eq (List.mem_mergeSort.mp he') hp']
  exact decide_eq_true_eq.mp hle

theorem perm_pick_callerOrder (q : ResolvedQuery) :
    (pick q.callerOrder q.patterns).Perm q.patterns :=
  perm_pick (perm_callerOrder q) rfl

theorem pick_callerOrder_eq {given : List ResolvedPattern} (hperm : q.patterns.Perm given)
    (hindex : (given.map ResolvedPattern.index).Nodup)
    (hgiven : given.Pairwise fun p p' => p.index ≤ p'.index) :
    pick q.callerOrder q.patterns = given := by
  have hperm' := q.perm_pick_callerOrder.trans hperm
  refine List.Perm.eq_of_pairwise ?_ q.pairwise_pick_callerOrder hgiven hperm'
  intro p p' hp hp' hle hle'
  exact List.inj_on_of_nodup_map hindex (hperm'.subset hp) hp' (Nat.le_antisymm hle hle')

theorem pick_callerOrder {given : List ResolvedPattern} (hperm : q.patterns.Perm given)
    (hindex : given.map ResolvedPattern.index = List.range given.length) :
    pick q.callerOrder q.patterns = given := by
  refine pick_callerOrder_eq hperm (hindex ▸ List.nodup_range) ?_
  rw [← List.pairwise_map (f := ResolvedPattern.index), hindex]
  exact List.pairwise_le_range

/-- The query with its patterns in the order that they were given in. -/
def given (q : ResolvedQuery) : ResolvedQuery :=
  { q with patterns := pick q.callerOrder q.patterns }

theorem mem_varNames_given {name : String} : name ∈ q.given.varNames ↔ name ∈ q.varNames := by
  simp only [mem_varNames_iff_slot, given, q.perm_pick_callerOrder.mem_iff]

/-- Queries with the same patterns in two orders have been given in one order. -/
theorem given_eq {patterns : List ResolvedPattern} (hperm : patterns.Perm q.patterns)
    (hindex : (q.patterns.map ResolvedPattern.index).Nodup) :
    ({ q with patterns } : ResolvedQuery).given = q.given := by
  have hindex' : ((pick q.callerOrder q.patterns).map ResolvedPattern.index).Nodup :=
    (q.perm_pick_callerOrder.map _).nodup_iff.mpr hindex
  have hpick : pick ({ q with patterns } : ResolvedQuery).callerOrder patterns =
      pick q.callerOrder q.patterns :=
    pick_callerOrder_eq (q :=
      { q with patterns }) (hperm.trans q.perm_pick_callerOrder.symm) hindex'
      q.pairwise_pick_callerOrder
  simp only [given, hpick]

end ResolvedQuery
end QuadStore
