import WireSchema.Proofs.Counting
import WireSchema.Proofs.Names

/-! The references of a finished pass. Each has got a name, and what is defined under that name was
built for the class that the reference was left for. -/
namespace WireSchema

open ConvertM ClassTable

def Mention.resolve (names : Slot → Option String) : Mention → Mention
  | .inline label object => .inline (label.resolve names) (object.resolve names)
  | .reference target => .reference (target.resolve names)

namespace Mention

variable {m : Mention} {slot : Slot} {name : Option String}

/-- The name that a slot gets takes the place of an older one. -/
theorem target_resolve (names : Slot → Option String) (target : m.target = .shared slot name) :
    (m.resolve names).target = .shared slot (names slot) := by
  cases m with
  | inline label o =>
    obtain rfl : label = .shared slot name := target
    rfl
  | reference t =>
    obtain rfl : t = .shared slot name := target
    rfl

theorem isInline_resolve {names : Slot → Option String} :
    (m.resolve names).isInline = m.isInline := by
  cases m <;> rfl

end Mention

section Resolve

variable (names : Slot → Option String)

mutual

theorem SchemaKind.mentions_resolve : ∀ kind : SchemaKind,
    (kind.resolve names).mentions = kind.mentions.map (·.resolve names)
  | .object o => by
    have label : (o.resolve names).label = o.label.map (ClassRef.resolve names) := by
      cases o
      rfl
    simp only [SchemaKind.resolve, SchemaKind.mentions, o.mentions_resolve, label, List.map_append]
    cases o.label <;> rfl
  | .array _ item => mentions_resolveOption item
  | .reference _ => rfl
  | .string .. => rfl
  | .integer .. => rfl
  | .float .. => rfl
  | .boolean => rfl

theorem ObjectSchema.mentions_resolve : ∀ o : ObjectSchema,
    (o.resolve names).mentions = o.mentions.map (·.resolve names)
  | ⟨_, _, props, variants, additional, _⟩ => by
    simp only [ObjectSchema.resolve, ObjectSchema.mentions, mentions_resolveProps props,
      mentions_resolveVariants variants, mentions_resolveAdditional additional, List.map_append]

theorem Schema.mentions_resolve : ∀ s : Schema,
    (s.resolve names).mentions = s.mentions.map (·.resolve names)
  | ⟨kind, _, _, _, _⟩ => kind.mentions_resolve

theorem NamedSchema.mentions_resolve : ∀ s : NamedSchema,
    (s.resolve names).mentions = s.mentions.map (·.resolve names)
  | ⟨_, schema, _, _, _, _, _⟩ => schema.mentions_resolve

theorem Variant.mentions_resolve : ∀ variant : Variant,
    (variant.resolve names).mentions = variant.mentions.map (·.resolve names)
  | ⟨_, _, _, props, variants⟩ => by
    simp only [Variant.resolve, Variant.mentions, mentions_resolveProps props,
      mentions_resolveVariants variants, List.map_append]

theorem mentions_resolveOption : ∀ item : Option Schema,
    itemMentions (resolveOption names item) = (itemMentions item).map (·.resolve names)
  | none => rfl
  | some schema => schema.mentions_resolve

theorem mentions_resolveAdditional : ∀ additional : Option Additional,
    additionalMentions (resolveAdditional names additional) =
      (additionalMentions additional).map (·.resolve names)
  | none => rfl
  | some .anything => rfl
  | some (.items item) => mentions_resolveOption item

theorem mentions_resolveProps : ∀ props : List NamedSchema,
    propMentions (resolveProps names props) = (propMentions props).map (·.resolve names)
  | [] => rfl
  | prop :: rest => by
    simp only [resolveProps, propMentions, prop.mentions_resolve, mentions_resolveProps rest,
      List.map_append]

theorem mentions_resolveVariants : ∀ variants : List Variant,
    variantMentions (resolveVariants names variants) =
      (variantMentions variants).map (·.resolve names)
  | [] => rfl
  | variant :: rest => by
    simp only [resolveVariants, variantMentions, variant.mentions_resolve,
      mentions_resolveVariants rest, List.map_append]

end

theorem propMentions_resolve (props : List NamedSchema) :
    propMentions (props.map (·.resolve names)) = (propMentions props).map (·.resolve names) := by
  simp only [propMentions_eq, List.flatMap_map, List.map_flatMap, NamedSchema.mentions_resolve]

/-- Naming the classes of trees touches all that the trees mention, and nothing else. -/
theorem treeMentions_resolve (trees : List (Option Tree)) :
    treeMentions (trees.map (·.map (·.resolve names))) =
      (treeMentions trees).map (·.resolve names) := by
  induction trees with
  | nil => rfl
  | cons tree rest ih =>
    cases tree with
    | none => simpa [treeMentions] using ih
    | some tree =>
      cases tree <;> simp_all [treeMentions, Tree.resolve, Tree.mentions,
        Schema.mentions_resolve, NamedSchema.mentions_resolve]

end Resolve

/-- What a reference to a class says when its pass has ended: the class has a name, and under that
name stands what was built and stored for the model and the visibility of the class. -/
inductive Defined (c : Converter) (t : ClassTable) (stage : Stage) : ClassRef → Prop
  | intro {slot : Slot} {name : String} {r : ClassRecord} {body : Schema}
      (known : t.record? slot = some r)
      (alone : ∀ s r', t.record? s = some r' → r'.isFor r.type r.visibility → s = slot)
      (built : Built c t slot)
      (stored : r.body = some body)
      (defined : (t.finalize c.graph stage).definitions.get? name =
        some (body.resolve (t.finalize c.graph stage).nameOf)) :
      Defined c t stage (.shared slot (some name))

namespace Accounts

variable {c : Converter} {t : ClassTable} {ms : List Mention} {slot : Slot}

theorem inline_of_stored {body : Schema} (accounts : Accounts c {} ms t)
    (stored : t.body? slot = some body) :
    ∃ o, .inline (.shared slot none) o ∈ ms ∧ body = .ofKind (.object o) := by
  obtain ⟨r, known, _⟩ := Option.bind_eq_some_iff.mp stored
  have counted : 0 < t.count slot :=
    accounts.entered (by simp [keys]) slot (r.type, r.visibility) (by simp [keys_getElem?, known])
  have once := accounts.inlines slot
  rw [if_pos ⟨rfl, counted⟩] at once
  obtain ⟨m, member, here⟩ := List.countP_pos_iff.mp (once ▸ Nat.one_pos)
  obtain ⟨s, target⟩ := accounts.shared m member
  cases m with
  | reference target => simp at here
  | inline label o =>
    obtain rfl : label = .shared s none := target
    obtain rfl : s = slot := by simpa using here
    exact ⟨o, member, Option.some.inj (stored.symm.trans (accounts.stored s o member))⟩

/-- All that definitions mention is mentioned in the trees. -/
theorem mentions_of_stored {body : Schema} (accounts : Accounts c {} ms t)
    (stored : t.body? slot = some body) : ∀ m ∈ body.mentions, m ∈ ms := by
  obtain ⟨o, member, rfl⟩ := accounts.inline_of_stored stored
  exact accounts.nested _ o member

/-- Under the name of a class stands what was built for it. -/
theorem definition_of_name {stage : Stage} {name : String} (accounts : Accounts c {} ms t)
    (named : (t.finalize c.graph stage).nameOf slot = some name) :
    ∃ body, Built c t slot ∧ t.body? slot = some body ∧
      (t.finalize c.graph stage).definitions.get? name =
        some (body.resolve (t.finalize c.graph stage).nameOf) := by
  have twice : 1 < t.count slot :=
    (isSome_nameOf_finalize c.graph stage).mp (Option.isSome_of_eq_some named)
  have built := accounts.built slot rfl (Nat.lt_trans Nat.zero_lt_one twice)
  obtain ⟨-, -, -, -, stored⟩ := id built
  exact ⟨_, built, stored, definitions_get? named stored⟩

theorem record_of_mention {m : Mention} (accounts : Accounts c {} ms t) (member : m ∈ ms)
    (target : m.target = .shared slot none) : ∃ r, t.record? slot = some r := by
  refine record?_of_count_pos ?_
  rw [accounts.counts]
  refine Nat.add_pos_right _ (List.countP_pos_iff.mpr ⟨m, member, ?_⟩)
  simp [Mention.isAt, target]

theorem defined (accounts : Accounts c {} ms t) (stage : Stage) {target : ClassRef}
    (left : .reference target ∈ ms) :
    Defined c t stage (target.resolve (t.finalize c.graph stage).nameOf) := by
  obtain ⟨slot, rfl⟩ := accounts.shared _ left
  obtain ⟨name, named⟩ := nameOf_finalize c.graph stage (accounts.referred slot left)
  obtain ⟨r, known⟩ := accounts.record_of_mention left rfl
  obtain ⟨body, built, stored, defined⟩ := accounts.definition_of_name named
  have key : t.keys[slot]? = some (r.type, r.visibility) := by simp [keys_getElem?, known]
  have alone (s : Slot) (r' : ClassRecord) (known' : t.record? s = some r')
      (same : r'.isFor r.type r.visibility) : s = slot := by
    have key' : t.keys[s]? = some (r'.type, r'.visibility) := by simp [keys_getElem?, known']
    obtain ⟨type, visibility⟩ : r'.type = r.type ∧ r'.visibility = r.visibility := by
      simpa [ClassRecord.isFor] using same
    rw [type, visibility] at key'
    exact (accounts.distinct distinct_empty).slot_eq key key'
  simp only [ClassRef.resolve, named]
  exact .intro known alone built ((body?_of_record? known).symm.trans stored) defined

end Accounts

namespace Converter

/-- Whatever the stage, all references of a finished pass are defined: those in the trees that were
given and those in the definitions. -/
theorem references_are_defined (c : Converter) (calls : List Call) (reports : Diagnostics)
    (stage : Stage) {trees : List (Option Tree)} {g : Gathered}
    (run : Yields (c.answers calls) ⟨{}, reports⟩ trees g) :
    let names := (g.classes.finalize c.graph stage).nameOf
    (∀ target, .reference target ∈ treeMentions (trees.map (·.map (·.resolve names))) →
      Defined c g.classes stage target) ∧
    ∀ entry ∈ (g.classes.finalize c.graph stage).definitions.entries,
      ∀ target, .reference target ∈ entry.2.mentions → Defined c g.classes stage target := by
  have accounts := accounts_of_answers run
  intro names
  have resolved (target : ClassRef)
      (left : .reference target ∈ (treeMentions trees).map (·.resolve names)) :
      Defined c g.classes stage target := by
    obtain ⟨m, member, eq⟩ := List.mem_map.mp left
    cases m with
    | inline label o => cases eq
    | reference target => exact Mention.reference.inj eq ▸ accounts.defined stage member
  constructor
  · intro target left
    exact resolved target (treeMentions_resolve names trees ▸ left)
  · rintro ⟨name, definition⟩ member target left
    obtain ⟨slot, body, stored, -, rfl⟩ := stored_of_mem_definitions member
    rw [Schema.mentions_resolve] at left
    obtain ⟨m, inside, eq⟩ := List.mem_map.mp left
    exact resolved target (eq ▸ List.mem_map_of_mem (accounts.mentions_of_stored stored m inside))

theorem node_reference_defined : ∃ trees g, Yields (nodes.answers nodeCalls) ⟨{}, []⟩ trees g ∧
    Defined nodes g.classes .create (.shared 0 (some "Node")) := by
  refine ⟨_, _, rfl, (references_are_defined nodes nodeCalls [] .create rfl).1 _ ?_⟩
  exact List.mem_of_getElem? (i := 1) rfl

end Converter
end WireSchema
