import WireSchema.Proofs.Calls

/-! How often a class is counted, and what is stored for it. The count of a class is the number of
its mentions. One of them is the object itself, built the first time that the class is met, and what
is stored for the class is that object. -/
namespace WireSchema

open ConvertM ClassTable Converter

/-- What is stored in a slot was built for the class of the slot, and nothing that was met on the
way has left the table. -/
inductive Built (c : Converter) (table : ClassTable) (slot : Slot) : Prop
  | intro {id : TypeId} {v : Visibility} {fuel : Nat} {site : List Constraints}
      {object o : ObjectSchema} {g g' : Gathered}
      (key : table.keys[slot]? = some (id, v))
      (run : Yields (c.objectBy (c.typesBy (c.modelWithin fuel)) id v) g object g')
      (within : Within g'.classes table)
      (body : c.body (some (.shared slot none)) id site object = .ofKind (.object o))
      (stored : table.body? slot = some (.ofKind (.object o)))

/-- What the table `t'` says about trees that were built since it was `t`. -/
structure Accounts (c : Converter) (t : ClassTable) (ms : List Mention) (t' : ClassTable) :
    Prop where
  within : Within t t'
  distinct : t.Distinct → t'.Distinct
  counts : ∀ s, t'.count s = t.count s + ms.countP (·.isAt s)
  /-- A class is an object in one place, the first time that it is met. -/
  inlines : ∀ s, ms.countP (·.isInlineAt s) = if t.count s = 0 ∧ 0 < t'.count s then 1 else 0
  shared : ∀ m ∈ ms, ∃ s, m.target = .shared s none
  /-- A reference is left only to a class that is met more than once. -/
  referred : ∀ s, .reference (.shared s none) ∈ ms → 1 < t'.count s
  kept : ∀ s, 0 < t.count s → t'.body? s = t.body? s
  stored : ∀ s o, .inline (.shared s none) o ∈ ms → t'.body? s = some (.ofKind (.object o))
  nested : ∀ label o, .inline label o ∈ ms → ∀ m ∈ (SchemaKind.object o).mentions, m ∈ ms
  built : ∀ s, t.count s = 0 → 0 < t'.count s → Built c t' s
  /-- A class is entered when it is met. -/
  entered : (∀ s key, t.keys[s]? = some key → 0 < t.count s) →
    ∀ s key, t'.keys[s]? = some key → 0 < t'.count s

/-- What was built stays where it is as long as the slot is only counted. -/
theorem Built.persist {c : Converter} {t t' : ClassTable} {slot : Slot} (built : Built c t slot)
    (within : Within t t') (same : t'.body? slot = t.body? slot) : Built c t' slot := by
  obtain ⟨key, run, inner, body, stored⟩ := built
  exact ⟨within.key key, run, inner.trans within, body, same.trans stored⟩

namespace Accounts

variable {c : Converter} {t t₁ t₂ : ClassTable} {ms ms' : List Mention} {id : TypeId}
  {v : Visibility} {slot s : Slot}

theorem nothing : Accounts c t [] t where
  within := .refl t
  distinct h := h
  counts := by simp
  inlines s := by
    rw [if_neg (by omega)]
    rfl
  shared := by simp
  referred := by simp
  kept := by simp
  stored := by simp
  nested := by simp
  built s fresh met := by omega
  entered h := h

theorem reorder (accounts : Accounts c t ms t₁) (same : ms.Perm ms') : Accounts c t ms' t₁ where
  within := accounts.within
  distinct := accounts.distinct
  counts s := by rw [accounts.counts, same.countP_eq]
  inlines s := by rw [← accounts.inlines, same.countP_eq]
  shared m member := accounts.shared m (same.mem_iff.mpr member)
  referred s member := accounts.referred s (same.mem_iff.mpr member)
  kept := accounts.kept
  stored s o member := accounts.stored s o (same.mem_iff.mpr member)
  nested label o member m inside :=
    same.mem_iff.mp (accounts.nested label o (same.mem_iff.mpr member) m inside)
  built := accounts.built
  entered := accounts.entered

theorem append (first : Accounts c t ms t₁) (second : Accounts c t₁ ms' t₂) :
    Accounts c t (ms ++ ms') t₂ where
  within := first.within.trans second.within
  distinct h := second.distinct (first.distinct h)
  counts s := by rw [second.counts, first.counts, List.countP_append, Nat.add_assoc]
  inlines s := by
    have := first.counts s
    have := second.counts s
    rw [List.countP_append, first.inlines, second.inlines]
    split <;> split <;> split <;> omega
  shared m member := by
    rcases List.mem_append.mp member with member | member
    · exact first.shared m member
    · exact second.shared m member
  referred s member := by
    rcases List.mem_append.mp member with member | member
    · have := first.referred s member
      have := second.counts s
      omega
    · exact second.referred s member
  kept s counted := by
    have := first.counts s
    rw [second.kept s (by omega), first.kept s counted]
  stored s o member := by
    rcases List.mem_append.mp member with member | member
    · have : 0 < ms.countP (·.isAt s) :=
        List.countP_pos_iff.mpr ⟨_, member, by simp⟩
      have := first.counts s
      rw [second.kept s (by omega), first.stored s o member]
    · exact second.stored s o member
  nested label o member m inside := by
    rcases List.mem_append.mp member with member | member
    · exact List.mem_append_left _ (first.nested label o member m inside)
    · exact List.mem_append_right _ (second.nested label o member m inside)
  built s fresh met := by
    by_cases early : 0 < t₁.count s
    · exact (first.built s fresh early).persist second.within (second.kept s early)
    · exact second.built s (by omega) met
  entered h := second.entered (first.entered h)

theorem again (entered : t.enter id v = (slot, t₁)) (before : 1 < t₁.count slot) :
    Accounts c t [.reference (.shared slot none)] t₁ where
  within := within_enter entered
  distinct h := h.enter entered
  counts s := by
    by_cases same : s = slot
    · subst same
      simp [count_enter_self entered]
    · simp [count_enter_other entered same, Ne.symm same]
  inlines s := by
    have known : ¬ (t.count s = 0 ∧ 0 < t₁.count s) := by
      by_cases same : s = slot
      · subst same
        have := count_enter_self entered
        omega
      · have := count_enter_other entered same
        omega
    rw [if_neg known]
    simp
  shared := by simp [Mention.target]
  referred := by simp [before]
  kept s _ := ((enter_spec entered).2.2 s).2
  stored := by simp
  nested := by simp
  built s fresh met := by
    by_cases same : s = slot
    · subst same
      have := count_enter_self entered
      omega
    · rw [count_enter_other entered same, fresh] at met
      cases met
  entered := counted_enter entered

section First

variable {body : Schema} {o o' : ObjectSchema}

theorem counted (inner : Accounts c t₁ ms t₂) (here : 0 < t₁.count s) : 0 < t₂.count s := by
  have := inner.counts s
  omega

/-- The object of a class is not built a second time while it is being built. -/
theorem countP_inline_eq_zero (inner : Accounts c t₁ ms t₂) (here : 0 < t₁.count s) :
    ms.countP (·.isInlineAt s) = 0 := by
  rw [inner.inlines, if_neg (by omega)]

theorem ne_of_inline (inner : Accounts c t₁ ms t₂) (here : 0 < t₁.count slot)
    (member : .inline (.shared s none) o ∈ ms) : s ≠ slot := by
  rintro rfl
  have absent := List.countP_eq_zero.mp (inner.countP_inline_eq_zero here) _ member
  simp at absent

theorem counts_first (entered : t.enter id v = (slot, t₁)) (inner : Accounts c t₁ ms t₂)
    (s : Slot) : (t₂.store slot body).count s =
      t.count s + (.inline (.shared slot none) o :: ms).countP (·.isAt s) := by
  rw [count_store, inner.counts, List.countP_cons, Mention.isAt_inline]
  by_cases same : s = slot
  · subst same
    have := count_enter_self entered
    simp
    omega
  · simp [count_enter_other entered same, Ne.symm same]

theorem inlines_first (entered : t.enter id v = (slot, t₁)) (new : t₁.count slot ≤ 1)
    (inner : Accounts c t₁ ms t₂) (s : Slot) :
    (.inline (.shared slot none) o :: ms).countP (·.isInlineAt s) =
      if t.count s = 0 ∧ 0 < (t₂.store slot body).count s then 1 else 0 := by
  rw [List.countP_cons, Mention.isInlineAt_inline, count_store]
  by_cases same : s = slot
  · subst same
    have here := count_enter_self entered
    have counted := inner.counted (s := s) (by omega)
    rw [inner.countP_inline_eq_zero (by omega), if_pos (by simp), if_pos (by omega)]
  · rw [inner.inlines, count_enter_other entered same]
    simp [Ne.symm same]

theorem kept_first (entered : t.enter id v = (slot, t₁)) (new : t₁.count slot ≤ 1)
    (inner : Accounts c t₁ ms t₂) (before : 0 < t.count s) :
    (t₂.store slot body).body? s = t.body? s := by
  have other : s ≠ slot := by
    rintro rfl
    have := count_enter_self entered
    omega
  have here := count_enter_other entered other
  rw [body?_store_other other, inner.kept s (by omega), ((enter_spec entered).2.2 s).2]

theorem stored_first (inner : Accounts c t₁ ms t₂) (here : 0 < t₁.count slot)
    (member : .inline (.shared s none) o' ∈ .inline (.shared slot none) o :: ms) :
    (t₂.store slot (.ofKind (.object o))).body? s = some (.ofKind (.object o')) := by
  rcases List.mem_cons.mp member with same | member
  · cases same
    exact body?_store_same (inner.counted here)
  · rw [body?_store_other (inner.ne_of_inline here member), inner.stored s o' member]

/-- A class that is met for the first time: its object is built and stored. -/
theorem first {fuel : Nat} {site : List Constraints} {object : ObjectSchema} {g g' : Gathered}
    (entered : t.enter id v = (slot, g.classes)) (new : g.classes.count slot ≤ 1)
    (run : Yields (c.objectBy (c.typesBy (c.modelWithin fuel)) id v) g object g')
    (body : c.body (some (.shared slot none)) id site object = .ofKind (.object o))
    (inner : Accounts c g.classes object.mentions g'.classes) :
    Accounts c t (.inline (.shared slot none) o :: object.mentions)
      (g'.classes.store slot (.ofKind (.object o))) := by
  have here : 0 < g.classes.count slot := by
    have := count_enter_self entered
    omega
  exact
    { within := (within_enter entered).trans (inner.within.trans within_store)
      distinct := fun h => (inner.distinct (h.enter entered)).store
      counts := counts_first entered inner
      inlines := inlines_first entered new inner
      shared := by
        rintro m (_ | ⟨_, member⟩)
        · exact ⟨slot, rfl⟩
        · exact inner.shared m member
      referred := fun s member => by
        rw [count_store]
        exact inner.referred s (by simpa using member)
      kept := fun s before => kept_first entered new inner before
      stored := fun s o' member => stored_first inner here member
      nested := by
        rintro label o' (_ | ⟨_, member⟩) m inside
        · rwa [mentions_of_body body] at inside
        · exact List.mem_cons_of_mem _ (inner.nested label o' member m inside)
      built := fun s fresh met => by
        by_cases same : s = slot
        · subst same
          exact ⟨by simpa using inner.within.key (enter_spec entered).1, run, within_store, body,
            body?_store_same (inner.counted here)⟩
        · refine (inner.built s ?_ (by simpa using met)).persist within_store
            (body?_store_other same)
          rw [count_enter_other entered same, fresh]
      entered := fun before s key known => by
        rw [count_store]
        exact inner.entered (counted_enter entered before) s key (by simpa using known) }

end First

end Accounts

theorem Fills.accounts {c : Converter} {t t' : ClassTable} {ms : List Mention}
    (fills : Fills c t ms t') : Accounts c t ms t' := by
  induction fills with
  | nothing => exact .nothing
  | reorder _ same accounts => exact accounts.reorder same
  | append _ _ first second => exact first.append second
  | again entered before => exact .again entered before
  | first entered new run _ body inner => exact .first entered new run body inner

namespace Converter

variable {c : Converter} {calls : List Call} {reports : Diagnostics} {trees : List (Option Tree)}
  {g : Gathered}

theorem accounts_of_answers (run : Yields (c.answers calls) ⟨{}, reports⟩ trees g) :
    Accounts c {} (treeMentions trees) g.classes := (fills_of_answers run).accounts

theorem counted_of_answers (run : Yields (c.answers calls) ⟨{}, reports⟩ trees g) {slot : Slot}
    {key : TypeId × Visibility} (known : g.classes.keys[slot]? = some key) :
    0 < g.classes.count slot :=
  (accounts_of_answers run).entered (by simp [keys]) slot key known

theorem built_of_answers (run : Yields (c.answers calls) ⟨{}, reports⟩ trees g) {slot : Slot}
    {key : TypeId × Visibility} (known : g.classes.keys[slot]? = some key) :
    Built c g.classes slot :=
  (accounts_of_answers run).built slot rfl (counted_of_answers run known)

/-- The count of a class is the number of its mentions in all trees of a pass. One of them is an
object, which is also what is stored for the class, and the others are references. A conversion
without result counts nothing. -/
theorem counts_are_mentions (c : Converter) (calls : List Call) (reports : Diagnostics) :
    (∀ trees g, Yields (c.answers calls) ⟨{}, reports⟩ trees g →
      ∀ slot r, g.classes.record? slot = some r →
        r.count = (treeMentions trees).countP (·.isAt slot) ∧
        (treeMentions trees).countP (·.isInlineAt slot) = 1 ∧
        (treeMentions trees).countP (·.isReferenceAt slot) = r.count - 1 ∧
        ∀ label o, .inline label o ∈ treeMentions trees → (Mention.inline label o).isAt slot →
          r.body.map (·.kind) = some (.object o)) ∧
    ∀ call g g', Yields (c.answer call) g none g' →
      ∀ slot, g'.classes.count slot = g.classes.count slot := by
  constructor
  · intro trees g run slot r known
    have accounts := accounts_of_answers run
    have key : g.classes.keys[slot]? = some (r.type, r.visibility) := by
      simp [keys_getElem?, known]
    have counted := counted_of_answers run key
    have mentioned := accounts.counts slot
    have inline := accounts.inlines slot
    have fresh : ClassTable.count {} slot = 0 := rfl
    rw [fresh, Nat.zero_add] at mentioned
    rw [if_pos ⟨fresh, counted⟩] at inline
    have split := Mention.countP_isAt (treeMentions trees) slot
    rw [← count_of_record? known]
    refine ⟨mentioned, inline, by omega, fun label o member here => ?_⟩
    obtain ⟨s, target⟩ := accounts.shared _ member
    obtain rfl : label = .shared s none := target
    obtain rfl : s = slot := by simpa using here
    rw [← body?_of_record? known, accounts.stored s o member]
    rfl
  · intro call g g' run slot
    obtain ⟨ms, same, fills⟩ := (answer_traces call).fills g none g' run
    obtain rfl : ms = [] := by simpa using same
    simpa using fills.accounts.counts slot

theorem nodes_counted :
    (∃ trees g r, Yields (nodes.answers nodeCalls) ⟨{}, []⟩ trees g ∧
      g.classes.record? 0 = some r ∧ r.count = 3 ∧
      (treeMentions trees).countP (·.isInlineAt 0) = 1 ∧
      (treeMentions trees).countP (·.isReferenceAt 0) = 2) ∧
    ∃ g, Yields (nodes.answer neverCall) ⟨{}, []⟩ none g ∧ g.classes.count 0 = 0 := by
  constructor
  · refine ⟨_, _, _, rfl, rfl, rfl, ?_⟩
    have met := (counts_are_mentions nodes nodeCalls []).1 _ _ rfl 0 _ rfl
    exact ⟨met.2.1, met.2.2.1⟩
  · have run : Yields (nodes.answer neverCall) ⟨{}, []⟩ none ⟨{}, []⟩ := rfl
    exact ⟨_, run, (counts_are_mentions nodes [] []).2 _ _ _ run 0⟩

end Converter
end WireSchema
