import Mathlib.Logic.Function.Basic
import QuadStore.Proofs.NamedHandles

namespace QuadStore

variable {τ α : Type} [DecidableEq α]

namespace NamedCaches

variable {m : NamedCaches τ α} {place other : Nat} {key k value : α}

/-- How many entries the policy of a cache lets it have. -/
def room (m : NamedCaches τ α) (handle : Nat) : Nat :=
  (m.made[handle]?).elim 0 fun c => c.policy.maxEntries

theorem get?_modify (f : Cache α α → Cache α α) : (m.modify place f).get? other k =
    if place = other then (m.made[other]?).bind fun c =>
      (f c.cache).get? k else m.get? other k := by
  unfold modify get?
  rw [List.getElem?_modify]
  cases m.made[other]? with
  | none => simp
  | some c => split <;> rfl

theorem get?_put {c : NamedCache τ α} (hc : m.made[place]? = some c) (hkeeps : c.cache.keeps) :
    (m.put place key value).get? other k =
      if place = other ∧ key = k then some value else m.get? other k := by
  unfold put
  rw [get?_modify]
  by_cases hplace : place = other
  · subst hplace
    simp [get?, hc, Cache.get?_put, hkeeps]
  · simp [hplace]

theorem get?_erase : (m.erase place key).get? other k =
    if place = other ∧ key = k then none else m.get? other k := by
  unfold erase
  rw [get?_modify]
  by_cases hplace : place = other
  · by_cases hkey : key = k <;> cases hc : m.made[other]? <;>
      simp [hplace, hkey, get?, hc, Cache.get?_erase]
  · simp [hplace]

theorem get?_clearOne : (m.clearOne place).get? other k =
    if place = other then none else m.get? other k := by
  unfold clearOne
  rw [get?_modify]
  simp

theorem get?_foldl_clearOne (l : Dict String Nat) :
    (l.foldl (fun m entry => m.clearOne entry.2) m).get? place k =
      if place ∈ l.map Prod.snd then none else m.get? place k := by
  induction l generalizing m with
  | nil => simp
  | cons entry rest ih =>
      rw [List.foldl_cons, ih, get?_clearOne, List.map_cons]
      by_cases hentry : entry.2 = place
      · simp [hentry]
      · simp only [hentry, Ne.symm hentry, if_false, List.mem_cons, false_or]

theorem get?_clear : m.clear.get? place k =
    if place ∈ m.known.map Prod.snd then none else m.get? place k :=
  get?_foldl_clearOne m.known

end NamedCaches

/-- What a step leaves in a cache that it concerns. -/
def CacheStep.leave (contents : α → Option α) : CacheStep τ α → α → Option α
  | .put _ key value => Function.update contents key (some value)
  | .erase _ key => Function.update contents key none
  | .clear | .shutdown => fun _ => none
  | .request .. | .get .. => contents

namespace CacheUser

/-- What a handle shows for each key. -/
def shows (s : CacheUser τ α) (a : CacheHandle τ) (key : α) : Option α :=
  s.caches.get? a.place key

/-- Whether a step that puts something finds room for it. -/
def Fits (s : CacheUser τ α) : CacheStep τ α → Prop
  | .put handle key _ => ∀ a ∈ s.handles[handle]?,
      s.shows a key = none → s.caches.size a.place < s.caches.room a.place
  | _ => True

/-- Whether a step concerns the cache of a handle: it is taken through a handle of that cache, or
it empties all caches made since the last shutdown, and this is one of them. -/
def Concerns (s : CacheUser τ α) (a : CacheHandle τ) : CacheStep τ α → Prop
  | .put handle _ _ | .erase handle _ => ∃ b ∈ s.handles[handle]?, b.SharesWith a
  | .clear | .shutdown => a.shutdowns = s.shutdowns
  | .request .. | .get .. => False

instance (s : CacheUser τ α) (a : CacheHandle τ) : DecidablePred (s.Concerns a)
  | .put .. | .erase .. => inferInstanceAs (Decidable (∃ b ∈ _, _))
  | .clear | .shutdown => inferInstanceAs (Decidable (_ = _))
  | .request .. | .get .. => inferInstanceAs (Decidable False)

variable {s : CacheUser τ α} {a b : CacheHandle τ}

omit [DecidableEq α] in
theorem concerns_congr {step : CacheStep τ α} (h : a.SharesWith b) :
    s.Concerns a step ↔ s.Concerns b step := by
  have hshares : ∀ c : CacheHandle τ, c.SharesWith a ↔ c.SharesWith b :=
    fun c => ⟨fun hc => hc.trans h, fun hc => hc.trans h.symm⟩
  cases step <;> simp [Concerns, hshares, h.2]

namespace Sound

theorem keeps_of_fits (hs : s.Sound) (ha : a ∈ s.handles) {key : α}
    (hroom : s.shows a key = none → s.caches.size a.place < s.caches.room a.place) :
    ∃ c, s.caches.made[a.place]? = some c ∧ c.cache.keeps := by
  obtain ⟨c, hc, -, -, hfair⟩ := hs.found a ha
  refine ⟨c, hc, ?_⟩
  by_cases hkey : c.cache.get? key = none
  · have hlt : s.caches.size a.place < c.policy.maxEntries := by
      simpa [NamedCaches.room, hc] using hroom (by simpa [shows, NamedCaches.get?, hc] using hkey)
    exact hfair.keeps (Nat.ne_zero_of_lt hlt)
  · exact hfair.holds key hkey

theorem shows_eq (hs : s.Sound) (ha : a ∈ s.handles) (hb : b ∈ s.handles) (h : a.SharesWith b) :
    s.shows a = s.shows b := by
  unfold shows
  rw [(hs.place_eq_iff a ha b hb).mpr h]

theorem shows_clear (hs : s.Sound) (ha : a ∈ s.handles) :
    s.caches.clear.get? a.place =
      if a.shutdowns = s.shutdowns then fun _ => none else s.shows a := by
  funext key
  rw [NamedCaches.get?_clear]
  simp only [hs.mem_known_iff ha]
  split <;> rfl

theorem shows_through (hs : s.Sound) (ha : a ∈ s.handles) {handle : Nat}
    {f : NamedCaches τ α → Nat → NamedCaches τ α} {g : (α → Option α) → α → Option α}
    (hf : ∀ b ∈ s.handles[handle]?, (f s.caches b.place).get? a.place =
      if b.place = a.place then g (s.shows a) else s.shows a) :
    (s.through handle f).shows a =
      if ∃ b ∈ s.handles[handle]?, b.SharesWith a then g (s.shows a) else s.shows a := by
  cases hb : s.handles[handle]? with
  | none =>
      have hsame : (s.through handle f).shows a = s.shows a := by
        unfold CacheUser.through shows
        rw [hb]
        rfl
      simp [hsame]
  | some b =>
      have hthrough : (s.through handle f).shows a = (f s.caches b.place).get? a.place := by
        unfold CacheUser.through shows
        rw [hb]
        rfl
      rw [hthrough, hf b hb]
      simp [hs.place_eq_iff b (List.mem_of_getElem? hb) a ha]

end Sound

variable [DecidableEq τ]

/-- Whether all steps that put something find room for it, taken one after another. -/
def AllFit (s : CacheUser τ α) : List (CacheStep τ α) → Prop
  | [] => True
  | step :: rest => s.Fits step ∧ (s.perform step).AllFit rest

/-- Those among the steps that concern the cache of a handle. -/
def concerning (a : CacheHandle τ) (s : CacheUser τ α) :
    List (CacheStep τ α) → List (CacheStep τ α)
  | [] => []
  | step :: rest =>
      if s.Concerns a step then step :: concerning a (s.perform step) rest
      else concerning a (s.perform step) rest

variable {step : CacheStep τ α} {steps : List (CacheStep τ α)}

namespace Sound

theorem shows_ask (hs : s.Sound) (ha : a ∈ s.handles) (name : String) (keyType valueType : τ)
    (policy : Option CachePolicy) :
    (s.ask name keyType valueType policy).shows a = s.shows a := by
  unfold CacheUser.ask
  rcases hs.request_cases name keyType valueType policy with
    ⟨b, -, -, -, hrequest⟩ | ⟨-, p, hrequest⟩
  · rw [hrequest]
    split <;> rename_i h <;> split at h <;> cases h <;> rfl
  · rw [hrequest]
    funext key
    unfold shows NamedCaches.get?
    exact congrArg (Option.bind · _) (List.getElem?_append_left (hs.place_lt ha))

theorem shows_perform (hs : s.Sound) (hstep : s.Fits step) (ha : a ∈ s.handles) :
    (s.perform step).shows a = if s.Concerns a step then step.leave
    (s.shows a) else s.shows a := by
  cases step with
  | request name keyType valueType policy => exact hs.shows_ask ha name keyType valueType policy
  | put handle key value =>
      refine hs.shows_through ha (g := fun contents => Function.update contents key (some value))
        fun b hb => ?_
      obtain ⟨c, hc, hkeeps⟩ := hs.keeps_of_fits (List.mem_of_getElem? hb) (hstep b hb)
      funext k
      rw [NamedCaches.get?_put hc hkeeps]
      by_cases hplace : b.place = a.place
      · simp [hplace, Function.update_apply, eq_comm (a := k), shows]
      · simp [hplace, shows]
  | get handle key => exact (if_neg id).symm
  | erase handle key =>
      refine hs.shows_through ha (g := fun contents => Function.update contents key none)
        fun b hb => ?_
      funext k
      rw [NamedCaches.get?_erase]
      by_cases hplace : b.place = a.place
      · simp [hplace, Function.update_apply, eq_comm (a := k), shows]
      · simp [hplace, shows]
  | clear => exact hs.shows_clear ha
  | shutdown => exact hs.shows_clear ha

variable {handle : Nat} {key value : α}

theorem shows_put (hs : s.Sound) (ha : s.handles[handle]? = some a)
    (hfits : s.Fits (.put handle key value)) (hb : b ∈ s.handles) :
    (s.perform (.put handle key value)).shows b =
      if a.SharesWith b then Function.update (s.shows b) key (some value) else s.shows b := by
  rw [hs.shows_perform hfits hb]
  simp only [Concerns, ha, Option.mem_some_iff, exists_eq_left']
  rfl

theorem shows_erase (hs : s.Sound) (ha : s.handles[handle]? = some a) (hb : b ∈ s.handles) :
    (s.perform (.erase handle key)).shows b =
      if a.SharesWith b then Function.update (s.shows b) key none else s.shows b := by
  have hfits : s.Fits (.erase handle key) := trivial
  rw [hs.shows_perform hfits hb]
  simp only [Concerns, ha, Option.mem_some_iff, exists_eq_left']
  rfl

theorem shows_newcomer (hs : s.Sound) (hb : b ∈ (s.perform step).handles) (hnew : b ∉ s.handles) :
    (∀ a, ¬s.Concerns a step) ∧
      ((∃ a ∈ s.handles, a.SharesWith b ∧ (s.perform step).shows b = s.shows a) ∨
        (∀ a ∈ s.handles, ¬a.SharesWith b) ∧ (s.perform step).shows b = fun _ => none) := by
  cases step with
  | request name keyType valueType policy =>
      refine ⟨fun _ => id, ?_⟩
      simp only [CacheUser.perform, CacheUser.ask] at hb ⊢
      rcases hs.request_cases name keyType valueType policy with
        ⟨a, ha, hname, hnow, hrequest⟩ | ⟨hfirst, p, hrequest⟩
      · rw [hrequest] at hb ⊢
        by_cases htypes : a.keyType = keyType ∧ a.valueType = valueType
        · simp only [if_pos htypes] at hb ⊢
          obtain rfl := List.mem_singleton.mp ((List.mem_append.mp hb).resolve_left hnew)
          exact .inl ⟨a, ha, ⟨hname, hnow⟩, rfl⟩
        · simp only [if_neg htypes] at hb
          exact absurd hb hnew
      · simp only [hrequest] at hb ⊢
        obtain rfl := List.mem_singleton.mp ((List.mem_append.mp hb).resolve_left hnew)
        refine .inr ⟨fun a ha h => hfirst a ha h.1 h.2, ?_⟩
        funext key
        simp [shows, hand, NamedCaches.get?, Cache.make, Cache.get?]
  | put handle key value => exact absurd hb hnew
  | get handle key => exact absurd hb hnew
  | erase handle key => exact absurd hb hnew
  | clear => exact absurd hb hnew
  | shutdown => exact absurd hb hnew

end Sound

/-- Whether the handles of a cache show some contents, which are empty as
long as there is none. -/
structure Holds (s : CacheUser τ α) (a : CacheHandle τ) (contents : α → Option α) : Prop where
  shows : ∀ b ∈ s.handles, b.SharesWith a → s.shows b = contents
  unasked : (∀ b ∈ s.handles, ¬b.SharesWith a) → contents = fun _ => none

namespace Holds

variable {contents : α → Option α}

theorem perform (h : s.Holds a contents) (hs : s.Sound) (hstep : s.Fits step) :
    (s.perform step).Holds a (if s.Concerns a step then step.leave contents else contents) where
  shows b hb hba := by
    by_cases hold : b ∈ s.handles
    · rw [hs.shows_perform hstep hold, h.shows b hold hba]
      simp only [concerns_congr hba]
    · obtain ⟨hconcerns, ⟨c, hc, hcb, hshows⟩ | ⟨hfirst, hshows⟩⟩ := hs.shows_newcomer hb hold
      · rw [hshows, if_neg (hconcerns a)]
        exact h.shows c hc (hcb.trans hba)
      · rw [hshows, if_neg (hconcerns a)]
        exact (h.unasked fun c hc hca => hfirst c hc (hca.trans hba.symm)).symm
  unasked hnone := by
    have hnone : ∀ b ∈ s.handles, ¬b.SharesWith a := fun b hb => hnone b (mem_handles_perform hb)
    have hempty := h.unasked hnone
    split
    · rename_i hconcerns
      cases step with
      | request name keyType valueType policy => exact hempty
      | get handle key => exact hempty
      | put handle key value =>
          obtain ⟨b, hb, hba⟩ := hconcerns
          exact absurd hba (hnone b (List.mem_of_getElem? hb))
      | erase handle key =>
          obtain ⟨b, hb, hba⟩ := hconcerns
          exact absurd hba (hnone b (List.mem_of_getElem? hb))
      | clear => rfl
      | shutdown => rfl
    · exact hempty

theorem run (h : s.Holds a contents) (hs : s.Sound) (hsteps : s.AllFit steps) :
    (s.run steps).Holds a ((s.concerning a steps).foldl CacheStep.leave contents) := by
  induction steps generalizing s contents with
  | nil => exact h
  | cons step rest ih =>
      have hrest := ih (h.perform hs hsteps.1) (hs.perform step) hsteps.2
      rw [concerning]
      split <;> rename_i hconcerns
      · rw [if_pos hconcerns] at hrest
        exact hrest
      · rw [if_neg hconcerns] at hrest
        exact hrest

end Holds

/-- Whatever is done with named caches that have room for their entries, a handle shows what
the steps that concern its cache have left, one after another. Handles that were obtained for
one name between two shutdowns show the same, and what is put or erased through others does
not change it. Who asks for a name is refused, and nothing else happens, if there is a cache
for it with other types; clearing empties the caches made since the last shutdown and no
others; and after a shutdown handles can be used as before, but share their caches with none
that is obtained later. -/
theorem shows_by_name (c : CacheConfig) (hc : c.backend = .internal)
    (steps : List (CacheStep τ α)) (hsteps : (make c).AllFit steps) :
    let s := (make c).run steps
    (∀ a ∈ s.handles,
      s.shows a = ((make c).concerning a steps).foldl CacheStep.leave fun _ => none) ∧
    (∀ a ∈ s.handles, ∀ b ∈ s.handles, a.SharesWith b → s.shows a = s.shows b) ∧
    (∀ handle a, s.handles[handle]? = some a → ∀ key value, s.Fits (.put handle key value) →
      (s.perform (.put handle key value)).shows a key = some value ∧
      (s.perform (.erase handle key)).shows a key = none ∧
      ∀ b ∈ s.handles, ¬a.SharesWith b →
        (s.perform (.put handle key value)).shows b = s.shows b ∧
        (s.perform (.erase handle key)).shows b = s.shows b) ∧
    (∀ name keyType valueType policy,
      (s.Conflicts name keyType valueType →
        s.caches.request name keyType valueType policy = .error (.cacheTypes name) ∧
        s.perform (.request name keyType valueType policy) = s) ∧
      (¬s.Conflicts name keyType valueType → ∃ place caches,
        s.caches.request name keyType valueType policy = .ok (place, caches) ∧
        s.perform (.request name keyType valueType policy) =
          s.hand caches ⟨name, s.shutdowns, keyType, valueType, place⟩)) ∧
    (∀ a ∈ s.handles, ∀ key, (s.perform .clear).shows a key =
      if a.shutdowns = s.shutdowns then none else s.shows a key) ∧
    (∀ rest, ∃ later, ((s.perform .shutdown).run rest).handles = s.handles ++ later ∧
      ∀ a ∈ s.handles, ∀ b ∈ later, ¬a.SharesWith b) := by
  intro s
  have hs : s.Sound := (sound_make hc).run steps
  refine ⟨fun a ha => ?_, fun a ha b hb => hs.shows_eq ha hb,
    fun handle a ha key value hfits => ?_,
    fun name keyType valueType policy => ⟨fun hconflict => ?_, fun hconflict => ?_⟩,
    fun a ha key => ?_, fun rest => ?_⟩
  · have hmake : (make c : CacheUser τ α).Holds a fun _ => none :=
      ⟨(fun _ h => nomatch h), fun _ => rfl⟩
    have hholds := hmake.run (sound_make hc) hsteps
    exact hholds.shows a ha ⟨rfl, rfl⟩
  · have hmem := List.mem_of_getElem? ha
    refine ⟨?_, ?_, fun b hb hab => ⟨?_, ?_⟩⟩
    · rw [hs.shows_put ha hfits hmem, if_pos ⟨rfl, rfl⟩, Function.update_self]
    · rw [hs.shows_erase ha hmem, if_pos ⟨rfl, rfl⟩, Function.update_self]
    · rw [hs.shows_put ha hfits hb, if_neg hab]
    · rw [hs.shows_erase ha hb, if_neg hab]
  · have hrequest := hs.request_of_conflicts hconflict policy
    exact ⟨hrequest, by simp only [perform, ask, hrequest]⟩
  · obtain ⟨place, caches, hrequest⟩ := hs.request_of_not_conflicts hconflict policy
    exact ⟨place, caches, hrequest, by simp only [perform, ask, hrequest]⟩
  · exact (congrFun (hs.shows_clear ha) key).trans (apply_ite (fun f : α → Option α => f key) ..)
  · obtain ⟨later, hlater, hle⟩ := handles_run (s.perform .shutdown) rest
    refine ⟨later, hlater, fun a ha b hb hshares => ?_⟩
    have hbefore := hs.shutdowns_le a ha
    have hafter : s.shutdowns + 1 ≤ b.shutdowns := hle b hb
    have hsame := hshares.2
    omega

/-- A handle of a forgotten name is used on, while the name has a cache of other
types, which is cleared. -/
theorem shows_by_name_forgotten :
    let steps : List (CacheStep AtomType Atom) :=
      [.request "a" .text .int none, .put 0 (.text "k") (.int 1), .shutdown,
        .request "a" .int .int (some ⟨1, 0⟩), .request "a" .text .int none,
          .put 1 (.int 1) (.int 2),
        .put 0 (.text "k") (.int 3), .clear]
    let s := (make {}).run steps
    (make {}).AllFit steps ∧ s.handles.length = 2 ∧
      (∀ a ∈ s.handles, s.shows a =
        ((make {}).concerning a steps).foldl CacheStep.leave fun _ => none) ∧
      (∀ a ∈ s.handles[0]?, s.shows a (.text "k") = some (.int 3)) ∧
      ∀ a ∈ s.handles[1]?, s.shows a (.int 1) = none := by
  intro steps s
  have hsteps : (make {}).AllFit steps := by
    simp only [steps, AllFit, Fits]
    decide
  exact ⟨hsteps, by decide, (shows_by_name {} rfl steps hsteps).1, by decide, by decide⟩

end CacheUser
end QuadStore
