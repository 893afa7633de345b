import QuadStore.Proofs.ClearedCaches
import QuadStore.Proofs.RecordedStores

namespace QuadStore

open Transaction

variable {V : LiteralValue → Prop}

/-- Something that happens when nodes are also converted in their own right: a step of
the store, or the conversion of a node. Of the latter it is noted which tables its
transaction saw before it. -/
inductive Act
  | step (e : Event)
  | convert (number : Nat) (before : Tables) (n : Node) (answer : Except StoreError Node)

namespace Act

/-- The transaction that has asked for a literal, the literal, which is a value of a datatype,
and the node that it got. -/
def answer? : Act → Option (Nat × (LiteralValue × String) × Node)
  | .step (.call i _ _ (.literal value) (.ok n)) => some (i, (value, value.defaultDatatype), n)
  | .step (.call i _ _ (.string content language) (.ok n)) =>
      some (i, (.string content language,
        (LiteralValue.string content language).defaultDatatype), n)
  | .step (.call i _ _ (.typed content datatype) (.ok n)) =>
      some (i, LiteralValue.ofText content datatype, n)
  | .convert i _ m (.ok n) => m.literal?.map fun l => (i, l.asked, n)
  | _ => none

/-- Whether the values of new literals may be written, and a literal that is converted though it
has an id is in its row. -/
def Fits (V : LiteralValue → Prop) : Act → Prop
  | .step e => ∀ value ∈ e.values, V value
  | .convert _ before n _ =>
      (∀ value ∈ n.newValue?, V value) ∧
        ∀ l ∈ n.literal?, n.isPersisted = true → before.Identifies n

end Act

namespace OpenStore

/-- How the store changes when something happens. -/
inductive Acts (s : OpenStore) : Act → OpenStore → Prop
  | step {e : Event} {s' : OpenStore} (h : s.Step e s') : Acts s (.step e) s'
  | convert {i : Nat} {x : Scope} (n : Node) (hx : s.scope? i = some x) :
      Acts s (.convert i x.work.view n (answerOf (perform (Action.convert n) x)))
        (s.put i (finalState (perform (Action.convert n) x)))

/-- One thing after another. -/
inductive Acted (s : OpenStore) : List Act → OpenStore → Prop
  | nil : Acted s [] s
  | snoc {log : List Act} {a : Act} {s₁ s₂ : OpenStore} (h : Acted s log s₁)
      (hacts : Acts s₁ a s₂) : Acted s (log ++ [a]) s₂

variable {s s' : OpenStore} {a : Act} {i : Nat} {x : Scope} {n : Node}

theorem Acted.of_run {events : List Event} (h : s.Run events s') :
    s.Acted (events.map Act.step) s' := by
  induction h with
  | nil => exact .nil
  | snoc _ hstep ih =>
      rw [List.map_append]
      exact ih.snoc (.step hstep)

theorem convert_advances (n : Node) (x : Scope) :
    Advances x (finalState (perform (Action.convert n) x)) :=
  Keeps.advances (keeps_perform (Action.convert_silent n)) x

theorem convert_of_closed (n : Node) (h : x.closed = true) :
    finalState (perform (Action.convert n) x) = x :=
  congrArg finalState (whileOpen_of_closed h)

theorem Good.acts (hs : s.Good) (h : s.Acts a s') : s'.Good := by
  cases h with
  | step hstep => exact hs.step hstep
  | convert n hx => exact hs.put_advances hx (convert_advances n _) (convert_of_closed n)

theorem Good.sees_acts (hs : s.Good) (h : s.Acts a s') (hx : s.scope? i = some x) :
    ∃ y, s'.scope? i = some y ∧ (y.closed = false → x.closed = false ∧
      ∀ r ∈ x.work.view.nodes, r ∈ y.work.view.nodes) := by
  cases h with
  | step hstep => exact hs.sees_step hstep hx
  | convert n hz => exact sees_put_advances hz (convert_advances n _) hx

section

variable [LiteralValue.Lasting V]

theorem convert_changes (hvalue : ∀ value ∈ n.newValue?, V value) :
    Keeps (WorkChanges (Recording V)) (perform (Action.convert n)) :=
  perform_changes (Action.convert_recording hvalue)

theorem Recorded.acts (h : s.Recorded V) (hs : s.Good) (hacts : s.Acts a s') (hfits : a.Fits V) :
    s'.Recorded V := by
  cases hacts with
  | step hstep => exact h.step hs hstep hfits
  | convert n hx =>
      have hkept := convert_changes hfits.1 _ (hs.scopes _ _ hx).work (h.scopes _ _ hx)
      exact h.put hs hx hkept.recorded

omit [LiteralValue.Lasting V] in
theorem answer_of_ends {action : Action Node} {Q : Node → Workspace → Prop}
    (h : Ends V x.work Q (action x.work)) (hanswer : answerOf (perform action x) = .ok n) :
    (finalState (perform action x)).closed = false ∧ Q n
    (finalState (perform action x)).work := by
  cases hop : perform action x with
  | error e y =>
      rw [hop] at hanswer
      cases hanswer
  | ok m y =>
      rw [hop] at hanswer
      obtain rfl := Except.ok.inj hanswer
      obtain ⟨hopen, hwork⟩ := whileOpen_eq_ok_iff.mp hop
      obtain ⟨w, haction, rfl⟩ := work_eq_ok_iff.mp hwork
      rw [haction] at h
      cases h with
      | ok hkept hanswer => exact ⟨hopen, hanswer⟩

theorem Recorded.answered (h : s.Recorded V) (hs : s.Good)
    (hacts : s.Acts a s') (hfits : a.Fits V)
    {literal : LiteralValue × String} (hanswer : a.answer? = some (i, literal, n)) :
    ∃ y, s'.scope? i = some y ∧ y.closed = false ∧
    Action.HasKey literal.1 literal.2 n y.work := by
  have performed : ∀ {j x} {action : Action Node}, s.scope? j = some x →
      Ends V x.work (Action.HasKey literal.1 literal.2) (action x.work) →
      answerOf (perform action x) = .ok n →
      ∃ y, (s.put j (finalState (perform action x))).scope? j = some y ∧ y.closed = false ∧
        Action.HasKey literal.1 literal.2 n y.work :=
    fun hx hends hanswer => ⟨_, scope?_put_self hx, answer_of_ends hends hanswer⟩
  cases hacts with
  | step hstep =>
      cases hstep with
      | begin | clearCaches | evict => cases hanswer
      | call c hx =>
          rename_i j x
          have hgood := (hs.scopes j x hx).work
          have hrecorded := h.scopes j x hx
          generalize hrun : answerOf (c.run x) = answer at hanswer
          cases answer with
          | error e => cases c <;> cases hanswer
          | ok m =>
              cases c with
              | literal value =>
                  cases hanswer
                  exact performed hx (Action.createLiteral_ends hgood hrecorded
                    (hfits _ (List.mem_singleton_self _))) hrun
              | string content language =>
                  cases hanswer
                  exact performed hx (Action.createString_ends hgood hrecorded
                    (hfits _ (List.mem_singleton_self _))) hrun
              | typed content datatype =>
                  cases hanswer
                  exact performed hx (Action.createTyped_ends hgood hrecorded
                    (hfits _ (List.mem_singleton_self _))) hrun
              | _ => cases hanswer
  | convert m hx =>
      rename_i j x
      generalize hrun : answerOf (perform (Action.convert m) x) = answer at hanswer
      cases answer with
      | error e => cases hanswer
      | ok m' =>
          obtain ⟨l, hl, ⟨⟩⟩ := Option.map_eq_some_iff.mp hanswer
          obtain ⟨hopen, hn⟩ := answer_of_ends
            (Action.convert_ends (hs.scopes i x hx).work (h.scopes i x hx) hfits.1) hrun
          obtain ⟨hidentified, hkey⟩ := hn (hfits.2 l hl)
          exact ⟨_, scope?_put_self hx, hopen, hidentified, hkey l (Node.term_of_literal? hl)⟩

/-- What is known of the literals that were asked for: open transactions see the nodes
they were answered with, which have the keys of the literals, and among those of one
transaction ids tell keys. -/
structure AnswersAgree (V : LiteralValue → Prop) (log : List Act) (s : OpenStore) : Prop where
  good : s.Good
  recorded : s.Recorded V
  seen : ∀ a ∈ log, ∀ {i literal n}, a.answer? = some (i, literal, n) →
    ∃ x, s.scope? i = some x ∧ (x.closed = false → x.work.view.Identifies n)
  keys : ∀ a ∈ log, ∀ {i literal n}, a.answer? = some (i, literal, n) → literal.1.isNaN = false →
    n.key = .literal (literal.1.key literal.2)
  ids : ∀ a ∈ log, ∀ a' ∈ log, ∀ {i literal literal' n n'}, a.answer? = some (i, literal, n) →
    a'.answer? = some (i, literal', n') → (n.id = n'.id ↔ n.key = n'.key)

omit [LiteralValue.Lasting V] in
theorem answersAgree_opened (config : Config) {tables : Tables} (hsound : tables.Sound)
    (h : tables.Recorded V) (registryFile : RegistryFile) (labelStart : String) :
    (opened config tables registryFile labelStart).AnswersAgree V [] := by
  refine ⟨good_opened config hsound registryFile labelStart,
    recorded_opened config h registryFile labelStart, ?_, ?_, ?_⟩ <;> rintro a ⟨⟩

theorem Recorded.identifies_acts (h : s.Recorded V) (hs : s.Good) (hacts : s.Acts a s')
    (hx : s.scope? i = some x) (hseen : x.closed = false → x.work.view.Identifies n) :
    ∃ y, s'.scope? i = some y ∧ (y.closed = false → y.work.view.Identifies n) := by
  obtain ⟨y, hy, hopen⟩ := hs.sees_acts hacts hx
  refine ⟨y, hy, fun hy' => ?_⟩
  obtain ⟨hx', hnodes⟩ := hopen hy'
  have hsound := ((hs.acts hacts).scopes i y hy).work.sound
  exact (h.scopes i x hx).view.identifies_mono (hseen hx') hnodes hsound

theorem AnswersAgree.acts {log : List Act} (h : s.AnswersAgree V log) (hacts : s.Acts a s')
    (hfits : a.Fits V) : s'.AnswersAgree V (log ++ [a]) := by
  have hgood := h.good.acts hacts
  have hrecorded := h.recorded.acts h.good hacts hfits
  have seen : ∀ b ∈ log ++ [a], ∀ {i literal n}, b.answer? = some (i, literal, n) →
      ∃ y, s'.scope? i = some y ∧ (y.closed = false → y.work.view.Identifies n) := by
    intro b hb i literal n hanswer
    rcases List.mem_append.mp hb with hb | hb
    · obtain ⟨x, hx, hseen⟩ := h.seen b hb hanswer
      exact h.recorded.identifies_acts h.good hacts hx hseen
    · rw [List.mem_singleton.mp hb] at hanswer
      obtain ⟨y, hy, -, hn⟩ := h.recorded.answered h.good hacts hfits hanswer
      exact ⟨y, hy, fun _ => hn.1⟩
  -- Of the last thing that happened the transaction is open, so that both nodes are seen.
  have ids_last : ∀ b ∈ log ++ [a], ∀ {i literal literal' n n'},
      a.answer? = some (i, literal, n) →
      b.answer? = some (i, literal', n') → (n.id = n'.id ↔ n.key = n'.key) := by
    intro b hb i literal literal' n n' hanswer hanswer'
    obtain ⟨y, hy, hopen, hn⟩ := h.recorded.answered h.good hacts hfits hanswer
    obtain ⟨y', hy', hn'⟩ := seen b hb hanswer'
    obtain rfl := Option.some.inj (hy.symm.trans hy')
    exact (hrecorded.scopes i y hy).view.id_eq_iff
      (hgood.scopes i y hy).work.sound hn.1 (hn' hopen)
  refine ⟨hgood, hrecorded, seen, ?_, ?_⟩
  · intro b hb i literal n hanswer hnumber
    rcases List.mem_append.mp hb with hb | hb
    · exact h.keys b hb hanswer hnumber
    · rw [List.mem_singleton.mp hb] at hanswer
      obtain ⟨y, -, -, hn⟩ := h.recorded.answered h.good hacts hfits hanswer
      exact hn.2 hnumber
  · intro b hb b' hb' i literal literal' n n' hanswer hanswer'
    rcases List.mem_append.mp hb with hlog | hlast
    · rcases List.mem_append.mp hb' with hlog' | hlast'
      · exact h.ids b hlog b' hlog' hanswer hanswer'
      · rw [List.mem_singleton.mp hlast'] at hanswer'
        rw [eq_comm, ids_last b hb hanswer' hanswer, eq_comm]
    · rw [List.mem_singleton.mp hlast] at hanswer
      exact ids_last b' hb' hanswer hanswer'

theorem AnswersAgree.acted {log log' : List Act} (h : s.AnswersAgree V log)
    (hacted : s.Acted log' s')
    (hfits : ∀ a ∈ log', a.Fits V) : s'.AnswersAgree V (log ++ log') := by
  induction hacted with
  | nil => rwa [List.append_nil]
  | snoc _ hacts ih =>
      rw [← List.append_assoc]
      exact (ih fun a ha => hfits a (List.mem_append_left _ ha)).acts hacts
        (hfits _ (List.mem_append_right _ (List.mem_singleton_self _)))

end

/-- Nodes that one transaction is answered with for literals have the keys of these literals, and
their ids are equal exactly when the keys are. -/
theorem literal_ids_tell_keys (config : Config) {tables : Tables} (hsound : tables.Sound)
    (hrecorded : tables.Recorded LiteralValue.Lasts)
    (registryFile : RegistryFile) (labelStart : String)
    {log : List Act} {s : OpenStore}
    (hacted : (opened config tables registryFile labelStart).Acted log s)
    (hfits : ∀ a ∈ log, a.Fits LiteralValue.Lasts) {a a' : Act} (ha : a ∈ log) (ha' : a' ∈ log)
    {i : Nat} {literal literal' : LiteralValue × String} {n n' : Node}
    (hanswer : a.answer? = some (i, literal, n)) (hanswer' : a'.answer? = some (i, literal', n'))
    (hnumber : literal.1.isNaN = false) (hnumber' : literal'.1.isNaN = false) :
    n.key = .literal (literal.1.key literal.2) ∧
      (n.id = n'.id ↔ literal.1.key literal.2 = literal'.1.key literal'.2) := by
  have h := (answersAgree_opened config hsound hrecorded registryFile labelStart).acted
    hacted hfits
  rw [List.nil_append] at h
  have hkey := h.keys a ha hanswer hnumber
  have hkey' := h.keys a' ha' hanswer' hnumber'
  refine ⟨hkey, ?_⟩
  rw [h.ids a ha a' ha' hanswer hanswer', hkey, hkey', NodeKey.literal.injEq]

/-- A number and a text that stands for it are the same node. -/
theorem literal_ids_tell_keys_of_number :
    let five : LiteralValue × String := (.int 5, (LiteralValue.int 5).defaultDatatype)
    let text := LiteralValue.ofText "05" Vocabulary.xsdInteger
    let s := (opened {} {} [] "w").begin.after 0 (.literal (.int 5)) |>.after 0
      (.typed "05" Vocabulary.xsdInteger)
    ∃ log n n', (opened {} {} [] "w").Acted log s ∧ (∃ a ∈ log, a.answer? = some (0, five, n)) ∧
      (∃ a ∈ log, a.answer? = some (0, text, n')) ∧ n.id = n'.id := by
  intro five text s
  have hrun := Run.nil (s := opened {} {} [] "w") |>.snoc .begin |>.call 0 (.literal (.int 5))
    |>.call 0 (.typed "05" Vocabulary.xsdInteger)
  let n : Node := ⟨2, .literal ⟨.int 5, some ⟨1, Vocabulary.xsdInteger⟩⟩⟩
  obtain ⟨events, hrun, hlasts, ⟨a, ha, hanswer⟩, a', ha', hanswer'⟩ :
      ∃ events, (opened {} {} [] "w").Run events s ∧
        (∀ e ∈ events, ∀ value ∈ e.values, value.Lasts) ∧
        (∃ a ∈ events.map Act.step, a.answer? = some (0, five, n)) ∧
        ∃ a ∈ events.map Act.step, a.answer? = some (0, text, n) :=
    ⟨_, hrun, by decide +kernel, by decide +kernel, by decide +kernel⟩
  have hfits : ∀ a ∈ events.map Act.step, a.Fits LiteralValue.Lasts := by
    intro a ha
    obtain ⟨e, he, rfl⟩ := List.mem_map.mp ha
    exact hlasts e he
  have hacted := Acted.of_run hrun
  refine ⟨_, n, n, hacted, ⟨a, ha, hanswer⟩, ⟨a', ha', hanswer'⟩, ?_⟩
  exact (literal_ids_tell_keys {} Tables.sound_empty
    Tables.recorded_empty [] "w" hacted hfits ha ha'
    hanswer hanswer' rfl (by decide +kernel)).2.mpr (by decide +kernel)

/-- A transaction that asks for negative zero twice is answered with zero the second time, as the
column of numbers keeps no sign of zero. The node does not have the key that was asked for. -/
theorem negative_zero_answered_as_zero :
    let zero : LiteralValue := .double ⟨true, 0, by decide⟩
    let s := (opened {} {} [] "w").begin.after 0 (.literal zero) |>.after 0 (.literal zero)
    ∃ log n n', (opened {} {} [] "w").Acted log s ∧ zero.isNaN = false ∧
      log.filterMap Act.answer? =
        [(0, (zero, zero.defaultDatatype), n), (0, (zero, zero.defaultDatatype), n')] ∧
      n'.key ≠ .literal (zero.key zero.defaultDatatype) := by
  intro zero s
  have hrun := Run.nil (s := opened {} {} [] "w") |>.snoc .begin |>.call 0 (.literal zero)
    |>.call 0 (.literal zero)
  exact ⟨_, ⟨2, .literal ⟨zero, some ⟨1, Vocabulary.xsdDouble⟩⟩⟩,
    ⟨2, .literal ⟨.double ⟨false, 0, by decide⟩, some ⟨1, Vocabulary.xsdDouble⟩⟩⟩,
      Acted.of_run hrun,
    by decide +kernel, by decide +kernel, by decide +kernel⟩

end OpenStore
end QuadStore
