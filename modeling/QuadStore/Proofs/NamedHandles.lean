import Mathlib.Data.List.Basic
import QuadStore.Cache.Named

namespace QuadStore

variable {τ α : Type} [DecidableEq α]

/-- Whether a cache keeps what is put into it if its policy has any room, and
holds nothing otherwise. -/
structure NamedCache.Fair (c : NamedCache τ α) : Prop where
  keeps : c.policy.maxEntries ≠ 0 → c.cache.keeps
  holds : ∀ key, c.cache.get? key ≠ none → c.cache.keeps

/-- A handle of a named cache, with what was asked for and how often all
names had been forgotten. -/
structure CacheHandle (τ : Type) where
  name : String
  shutdowns : Nat
  keyType : τ
  valueType : τ
  place : Nat
deriving DecidableEq

/-- Whether two handles were obtained for one name between two shutdowns. -/
def CacheHandle.SharesWith (a b : CacheHandle τ) : Prop :=
  a.name = b.name ∧ a.shutdowns = b.shutdowns

instance (a b : CacheHandle τ) : Decidable (a.SharesWith b) :=
  inferInstanceAs (Decidable (_ ∧ _))

namespace CacheHandle.SharesWith

variable {a b c : CacheHandle τ}

theorem symm (h : a.SharesWith b) : b.SharesWith a :=
  ⟨h.1.symm, h.2.symm⟩

theorem trans (h : a.SharesWith b) (h' : b.SharesWith c) : a.SharesWith c :=
  ⟨h.1.trans h'.1, h.2.trans h'.2⟩

end CacheHandle.SharesWith

/-- Something that is done with named caches. Handles go by the order in
which they were obtained. -/
inductive CacheStep (τ α : Type)
  | request (name : String) (keyType valueType : τ) (policy : Option CachePolicy)
  | put (handle : Nat) (key value : α)
  | get (handle : Nat) (key : α)
  | erase (handle : Nat) (key : α)
  | clear
  | shutdown

/-- Named caches in use, with all handles that were obtained. -/
structure CacheUser (τ α : Type) where
  caches : NamedCaches τ α
  shutdowns : Nat := 0
  handles : List (CacheHandle τ) := []

namespace CacheUser

def make (c : CacheConfig) : CacheUser τ α where
  caches := .make c

/-- Keeps a handle that was obtained. -/
def hand (s : CacheUser τ α) (caches : NamedCaches τ α) (a : CacheHandle τ) : CacheUser τ α :=
  { s with caches, handles := s.handles ++ [a] }

/-- Does something through a handle that was obtained. -/
def through (s : CacheUser τ α) (handle : Nat) (f : NamedCaches τ α → Nat → NamedCaches τ α) :
    CacheUser τ α :=
  { s with caches := (s.handles[handle]?).elim s.caches fun a => f s.caches a.place }

/-- Whether a cache of a name exists already, with types other than those asked for. -/
def Conflicts (s : CacheUser τ α) (name : String) (keyType valueType : τ) : Prop :=
  ∃ a ∈ s.handles, a.name = name ∧ a.shutdowns = s.shutdowns ∧
    ¬(a.keyType = keyType ∧ a.valueType = valueType)

/-- What holds of the caches and handles at all times. -/
structure Sound (s : CacheUser τ α) : Prop where
  internal : s.caches.backend = .internal
  found : ∀ a ∈ s.handles, ∃ c, s.caches.made[a.place]? = some c ∧
    c.keyType = a.keyType ∧ c.valueType = a.valueType ∧ c.Fair
  place_eq_iff : ∀ a ∈ s.handles, ∀ b ∈ s.handles, a.place = b.place ↔ a.SharesWith b
  known : ∀ a ∈ s.handles, a.shutdowns = s.shutdowns → s.caches.known.get? a.name = some a.place
  handed : ∀ entry ∈ s.caches.known,
    ∃ a ∈ s.handles, a.name = entry.1 ∧ a.place = entry.2 ∧ a.shutdowns = s.shutdowns
  shutdowns_le : ∀ a ∈ s.handles, a.shutdowns ≤ s.shutdowns

variable {s : CacheUser τ α} {a b : CacheHandle τ}

theorem sound_make {c : CacheConfig} (hc : c.backend = .internal) :
    (make c : CacheUser τ α).Sound where
  internal := hc
  found _ h := by cases h
  place_eq_iff _ h := by cases h
  known _ h := by cases h
  handed _ h := by cases h
  shutdowns_le _ h := by cases h

namespace Sound

theorem place_lt (hs : s.Sound) (ha : a ∈ s.handles) : a.place < s.caches.made.length := by
  obtain ⟨c, hc, -⟩ := hs.found a ha
  exact (List.getElem?_eq_some_iff.mp hc).1

theorem mem_known_iff (hs : s.Sound) (ha : a ∈ s.handles) :
    a.place ∈ s.caches.known.map Prod.snd ↔ a.shutdowns = s.shutdowns := by
  rw [List.mem_map]
  constructor
  · rintro ⟨entry, hentry, hplace⟩
    obtain ⟨b, hb, -, hbplace, hnow⟩ := hs.handed entry hentry
    exact ((hs.place_eq_iff a ha b hb).mp (hplace.symm.trans hbplace.symm)).2.trans hnow
  · intro hnow
    exact ⟨_, Dict.mem_of_get? (hs.known a ha hnow), rfl⟩

theorem types_eq (hs : s.Sound) (ha : a ∈ s.handles) (hb : b ∈ s.handles) (h : a.SharesWith b) :
    a.keyType = b.keyType ∧ a.valueType = b.valueType := by
  obtain ⟨c, hc, hkey, hvalue, -⟩ := hs.found a ha
  obtain ⟨d, hd, hkey', hvalue', -⟩ := hs.found b hb
  rw [(hs.place_eq_iff a ha b hb).mpr h, hd] at hc
  obtain rfl := Option.some.inj hc
  exact ⟨hkey.symm.trans hkey', hvalue.symm.trans hvalue'⟩

theorem modify (hs : s.Sound) (place : Nat) {f : Cache α α → Cache α α}
    (hf : ∀ c : NamedCache τ α, c.Fair → { c with cache := f c.cache }.Fair) :
    { s with caches := s.caches.modify place f }.Sound where
  internal := hs.internal
  found a ha := by
    obtain ⟨c, hc, hkey, hvalue, hfair⟩ := hs.found a ha
    simp only [NamedCaches.modify, List.getElem?_modify, hc]
    split
    · exact ⟨_, rfl, hkey, hvalue, hf c hfair⟩
    · exact ⟨_, rfl, hkey, hvalue, hfair⟩
  place_eq_iff := hs.place_eq_iff
  known := hs.known
  handed := hs.handed
  shutdowns_le := hs.shutdowns_le

theorem put (hs : s.Sound) (place : Nat) (key value : α) :
    { s with caches := s.caches.put place key value }.Sound := by
  refine hs.modify place fun c hfair => ?_
  have hkeeps : (c.cache.put key value).keeps = c.cache.keeps := by
    unfold Cache.put
    split <;> rfl
  refine ⟨fun hroom => hkeeps.trans (hfair.keeps hroom), fun k hk => hkeeps.trans ?_⟩
  simp only [Cache.get?_put] at hk
  by_cases hput : key = k ∧ c.cache.keeps
  · exact hput.2
  · exact hfair.holds k (by rwa [if_neg hput] at hk)

theorem erase (hs : s.Sound) (place : Nat) (key : α) :
    { s with caches := s.caches.erase place key }.Sound := by
  refine hs.modify place fun c hfair => ⟨hfair.keeps, fun k hk => hfair.holds k ?_⟩
  simp only [Cache.get?_erase] at hk
  split at hk
  · exact absurd rfl hk
  · exact hk

theorem clearOne (hs : s.Sound) (place : Nat) :
    { s with caches := s.caches.clearOne place }.Sound :=
  hs.modify place fun _ hfair => ⟨hfair.keeps, fun k hk => absurd (Cache.get?_clear _ k) hk⟩

theorem clear (hs : s.Sound) : { s with caches := s.caches.clear }.Sound := by
  have hall : ∀ (l : Dict String Nat) (s : CacheUser τ α), s.Sound →
      { s with
        caches := l.foldl (fun m (entry : String × Nat) => m.clearOne entry.2)
          s.caches }.Sound := by
    intro l
    induction l with
    | nil => exact fun _ hs => hs
    | cons entry rest ih =>
        intro s hs
        exact ih { s with caches := s.caches.clearOne entry.2 } (hs.clearOne entry.2)
  exact hall s.caches.known s hs

theorem shutdown (hs : s.Sound) :
    { s with caches := s.caches.shutdown, shutdowns := s.shutdowns + 1 }.Sound where
  internal := hs.clear.internal
  found := hs.clear.found
  place_eq_iff := hs.place_eq_iff
  known a ha hnow := by
    have hle := hs.shutdowns_le a ha
    simp only at hnow
    omega
  handed _ h := by cases h
  shutdowns_le a ha := Nat.le_succ_of_le (hs.shutdowns_le a ha)

theorem through (hs : s.Sound) (handle : Nat) (f : NamedCaches τ α → Nat → NamedCaches τ α)
    (hf : ∀ place, { s with caches := f s.caches place }.Sound) : (s.through handle f).Sound := by
  unfold CacheUser.through
  cases s.handles[handle]? with
  | none => exact hs
  | some a => exact hf a.place

theorem handedAgain (hs : s.Sound) (ha : a ∈ s.handles) (hb : b.SharesWith a)
    (hplace : b.place = a.place) (hkey : a.keyType = b.keyType)
    (hvalue : a.valueType = b.valueType) :
    (s.hand s.caches b).Sound := by
  have twin : ∀ c ∈ s.handles ++ [b], ∃ c' ∈ s.handles, c.SharesWith c' ∧ c.place = c'.place ∧
      c'.keyType = c.keyType ∧ c'.valueType = c.valueType := by
    intro c hc
    rcases List.mem_append.mp hc with hc | hc
    · exact ⟨c, hc, ⟨rfl, rfl⟩, rfl, rfl, rfl⟩
    · rw [List.mem_singleton.mp hc]
      exact ⟨a, ha, hb, hplace, hkey, hvalue⟩
  constructor
  case internal => exact hs.internal
  case found =>
    intro c hc
    obtain ⟨c', hc', -, hplace, hkey, hvalue⟩ := twin c hc
    obtain ⟨entry, hentry, hentryKey, hentryValue, hfair⟩ := hs.found c' hc'
    exact ⟨entry, hplace ▸ hentry, hentryKey.trans hkey, hentryValue.trans hvalue, hfair⟩
  case place_eq_iff =>
    intro c hc d hd
    obtain ⟨c', hc', hshares, hplace, -⟩ := twin c hc
    obtain ⟨d', hd', hshares', hplace', -⟩ := twin d hd
    rw [hplace, hplace', hs.place_eq_iff c' hc' d' hd']
    exact ⟨fun h => (hshares.trans h).trans hshares'.symm,
      fun h => (hshares.symm.trans h).trans hshares'⟩
  case known =>
    intro c hc hnow
    obtain ⟨c', hc', hshares, hplace, -⟩ := twin c hc
    rw [hshares.1, hplace]
    exact hs.known c' hc' (hshares.2.symm.trans hnow)
  case handed =>
    intro entry hentry
    obtain ⟨c, hc, hcentry⟩ := hs.handed entry hentry
    exact ⟨c, List.mem_append_left _ hc, hcentry⟩
  case shutdowns_le =>
    intro c hc
    obtain ⟨c', hc', hshares, -⟩ := twin c hc
    exact hshares.2 ▸ hs.shutdowns_le c' hc'

theorem handedAnew (hs : s.Sound) (policy : CachePolicy) (hnow : b.shutdowns = s.shutdowns)
    (hplace : b.place = s.caches.made.length) (hnew : ∀ a ∈ s.handles, ¬a.SharesWith b) :
    (s.hand { s.caches with
      made := s.caches.made ++ [⟨b.name, b.keyType, b.valueType, policy, .make .internal policy⟩]
      known := s.caches.known.insert b.name b.place } b).Sound := by
  have hlt : ∀ a ∈ s.handles, a.place < b.place := fun a ha => hplace ▸ hs.place_lt ha
  constructor
  case internal => exact hs.internal
  case found =>
    refine List.forall_mem_append.mpr ⟨fun a ha => ?_, List.forall_mem_singleton.mpr ?_⟩
    · obtain ⟨c, hc, hfound⟩ := hs.found a ha
      exact ⟨c, (List.getElem?_append_left (hs.place_lt ha)).trans hc, hfound⟩
    · refine ⟨⟨b.name, b.keyType, b.valueType, policy, .make .internal policy⟩,
        hplace ▸ List.getElem?_concat_length, rfl, rfl,
          fun hroom => ?_, fun k hk => absurd rfl hk⟩
      simpa [Cache.make] using hroom
  case place_eq_iff =>
    refine List.forall_mem_append.mpr ⟨fun a ha => ?_, List.forall_mem_singleton.mpr ?_⟩ <;>
      refine List.forall_mem_append.mpr ⟨fun c hc => ?_, List.forall_mem_singleton.mpr ?_⟩
    · exact hs.place_eq_iff a ha c hc
    · exact iff_of_false (Nat.ne_of_lt (hlt a ha)) (hnew a ha)
    · exact iff_of_false (Nat.ne_of_gt (hlt c hc)) fun h => hnew c hc h.symm
    · exact iff_of_true rfl ⟨rfl, rfl⟩
  case known =>
    refine List.forall_mem_append.mpr ⟨fun a ha hanow => ?_,
      List.forall_mem_singleton.mpr fun _ => ?_⟩
    · have hname : b.name ≠ a.name := fun hname => hnew a ha ⟨hname.symm, hanow.trans hnow.symm⟩
      exact (Dict.get?_insert ..).trans ((if_neg hname).trans (hs.known a ha hanow))
    · exact (Dict.get?_insert ..).trans (if_pos rfl)
  case handed =>
    intro entry hentry
    rcases Dict.mem_insert hentry with rfl | hentry
    · exact ⟨b, List.mem_append_right _ (List.mem_singleton_self _), rfl, rfl, hnow⟩
    · obtain ⟨a, ha, haentry⟩ := hs.handed entry hentry
      exact ⟨a, List.mem_append_left _ ha, haentry⟩
  case shutdowns_le =>
    exact List.forall_mem_append.mpr
      ⟨hs.shutdowns_le, List.forall_mem_singleton.mpr (Nat.le_of_eq hnow)⟩

end Sound

variable [DecidableEq τ]

/-- Asks for a name; what was obtained is kept, and if nothing was, all stays as it was. -/
def ask (s : CacheUser τ α) (name : String) (keyType valueType : τ)
    (policy : Option CachePolicy) :
    CacheUser τ α :=
  match s.caches.request name keyType valueType policy with
  | .ok (place, caches) => s.hand caches ⟨name, s.shutdowns, keyType, valueType, place⟩
  | .error _ => s

def perform (s : CacheUser τ α) : CacheStep τ α → CacheUser τ α
  | .request name keyType valueType policy => s.ask name keyType valueType policy
  | .put handle key value => s.through handle fun m place => m.put place key value
  | .get .. => s
  | .erase handle key => s.through handle fun m place => m.erase place key
  | .clear => { s with caches := s.caches.clear }
  | .shutdown => { s with caches := s.caches.shutdown, shutdowns := s.shutdowns + 1 }

def run (s : CacheUser τ α) (steps : List (CacheStep τ α)) : CacheUser τ α :=
  steps.foldl perform s

variable {step : CacheStep τ α} {steps : List (CacheStep τ α)}

namespace Sound

/-- What a request does: it finds the cache of a handle, with the right types or not, or there is
no handle for the name since the last shutdown, and a cache is made. -/
theorem request_cases (hs : s.Sound) (name : String) (keyType valueType : τ)
    (policy : Option CachePolicy) :
    (∃ a ∈ s.handles, a.name = name ∧ a.shutdowns = s.shutdowns ∧
      s.caches.request name keyType valueType policy =
        if a.keyType = keyType ∧ a.valueType = valueType then .ok (a.place, s.caches)
        else .error (.cacheTypes name)) ∨
    (∀ a ∈ s.handles, a.name = name → a.shutdowns ≠ s.shutdowns) ∧
      ∃ p, s.caches.request name keyType valueType policy = .ok (s.caches.made.length,
        { s.caches with
          made := s.caches.made ++ [⟨name, keyType, valueType, p, .make .internal p⟩]
          known := s.caches.known.insert name s.caches.made.length }) := by
  unfold NamedCaches.request
  cases hknown : s.caches.known.get? name with
  | some place =>
      obtain ⟨a, ha, hname, hplace, hnow⟩ := hs.handed _ (Dict.mem_of_get? hknown)
      obtain ⟨c, hc, hkey, hvalue, -⟩ := hs.found a ha
      refine .inl ⟨a, ha, hname, hnow, ?_⟩
      simp only at hplace
      simp [← hplace, hc, hkey, hvalue]
  | none =>
      refine .inr ⟨fun a ha hname hnow => ?_, policy.getD s.caches.policy, ?_⟩
      · have hfound := hs.known a ha hnow
        rw [hname, hknown] at hfound
        cases hfound
      · simp [hs.internal]

theorem request_of_conflicts (hs : s.Sound) {name : String} {keyType valueType : τ}
    (h : s.Conflicts name keyType valueType) (policy : Option CachePolicy) :
    s.caches.request name keyType valueType policy = .error (.cacheTypes name) := by
  obtain ⟨b, hb, hname, hnow, htypes⟩ := h
  rcases hs.request_cases name keyType valueType policy with
    ⟨a, ha, haname, hanow, hrequest⟩ | ⟨hfirst, -⟩
  · obtain ⟨hkey, hvalue⟩ := hs.types_eq ha hb ⟨haname.trans hname.symm, hanow.trans hnow.symm⟩
    rw [hrequest, hkey, hvalue, if_neg htypes]
  · exact absurd hnow (hfirst b hb hname)

theorem request_of_not_conflicts (hs : s.Sound) {name : String} {keyType valueType : τ}
    (h : ¬s.Conflicts name keyType valueType) (policy : Option CachePolicy) :
    ∃ place caches, s.caches.request name keyType valueType policy = .ok (place, caches) := by
  rcases hs.request_cases name keyType valueType policy with
    ⟨a, ha, hname, hnow, hrequest⟩ | ⟨-, p, hrequest⟩
  · have htypes : a.keyType = keyType ∧ a.valueType = valueType :=
      not_not.mp fun htypes => h ⟨a, ha, hname, hnow, htypes⟩
    exact ⟨_, _, hrequest.trans (if_pos htypes)⟩
  · exact ⟨_, _, hrequest⟩

theorem ask (hs : s.Sound) (name : String) (keyType valueType : τ) (policy : Option CachePolicy) :
    (s.ask name keyType valueType policy).Sound := by
  unfold CacheUser.ask
  rcases hs.request_cases name keyType valueType policy with
    ⟨a, ha, hname, hnow, hrequest⟩ | ⟨hnew, p, hrequest⟩
  · rw [hrequest]
    by_cases htypes : a.keyType = keyType ∧ a.valueType = valueType
    · rw [if_pos htypes]
      exact hs.handedAgain ha ⟨hname.symm, hnow.symm⟩ rfl htypes.1 htypes.2
    · rw [if_neg htypes]
      exact hs
  · rw [hrequest]
    exact hs.handedAnew (b :=
      ⟨name, s.shutdowns, keyType, valueType, s.caches.made.length⟩) p rfl rfl
      fun a ha h => hnew a ha h.1 h.2

theorem perform (hs : s.Sound) (step : CacheStep τ α) : (s.perform step).Sound := by
  cases step with
  | request name keyType valueType policy => exact hs.ask name keyType valueType policy
  | put handle key value =>
      exact hs.through handle (·.put · key value) fun place => hs.put place key value
  | get handle key => exact hs
  | erase handle key =>
      exact hs.through handle (·.erase · key) fun place => hs.erase place key
  | clear => exact hs.clear
  | shutdown => exact hs.shutdown

theorem run (hs : s.Sound) (steps : List (CacheStep τ α)) : (s.run steps).Sound := by
  induction steps generalizing s with
  | nil => exact hs
  | cons step rest ih => exact ih (hs.perform step)

end Sound

theorem handles_perform (s : CacheUser τ α) (step : CacheStep τ α) :
    ∃ new, (s.perform step).handles = s.handles ++ new ∧
    ∀ b ∈ new, b.shutdowns = s.shutdowns := by
  cases step with
  | request name keyType valueType policy =>
      simp only [perform, ask]
      split
      · exact ⟨_, rfl, List.forall_mem_singleton.mpr rfl⟩
      · exact ⟨[], by simp⟩
  | put handle key value => exact ⟨[], by simp [perform, through]⟩
  | get handle key => exact ⟨[], by simp [perform]⟩
  | erase handle key => exact ⟨[], by simp [perform, through]⟩
  | clear => exact ⟨[], by simp [perform]⟩
  | shutdown => exact ⟨[], by simp [perform]⟩

theorem mem_handles_perform (ha : a ∈ s.handles) : a ∈ (s.perform step).handles := by
  obtain ⟨new, hnew, -⟩ := handles_perform s step
  rw [hnew]
  exact List.mem_append_left _ ha

theorem shutdowns_perform (s : CacheUser τ α) (step : CacheStep τ α) :
    s.shutdowns ≤ (s.perform step).shutdowns := by
  cases step with
  | request name keyType valueType policy =>
      simp only [perform, ask]
      split <;> exact Nat.le_refl _
  | put handle key value => exact Nat.le_refl _
  | get handle key => exact Nat.le_refl _
  | erase handle key => exact Nat.le_refl _
  | clear => exact Nat.le_refl _
  | shutdown => exact Nat.le_succ _

theorem handles_run (s : CacheUser τ α) (steps : List (CacheStep τ α)) :
    ∃ later, (s.run steps).handles = s.handles ++ later ∧
    ∀ b ∈ later, s.shutdowns ≤ b.shutdowns := by
  induction steps generalizing s with
  | nil => exact ⟨[], by simp [run]⟩
  | cons step rest ih =>
      obtain ⟨new, hnew, hnow⟩ := handles_perform s step
      obtain ⟨later, hlater, hle⟩ := ih (s.perform step)
      refine ⟨new ++ later, ?_,
        List.forall_mem_append.mpr ⟨fun b hb => Nat.le_of_eq (hnow b hb).symm,
        fun b hb => Nat.le_trans (shutdowns_perform s step) (hle b hb)⟩⟩
      rw [← List.append_assoc, ← hnew]
      exact hlater

end CacheUser
end QuadStore
