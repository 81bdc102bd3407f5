import Mathlib.Data.List.Induction
import WireSchema.Harvest

/-! Formats gathered in several steps. What a format says is what it said before, or else what the
first layer says that says anything. So it makes no difference where a list of layers is cut, and
layers that were taken in once change nothing when they come again. -/
namespace WireSchema

section NonEmpty

variable {φ : Type} [DecidableEq φ] (empty format : φ)

@[simp] theorem getD_nonEmptyFormat : (nonEmptyFormat empty format).getD empty = format := by
  unfold nonEmptyFormat
  split
  · exact Eq.symm ‹_›
  · rfl

theorem nonEmptyFormat_injective : Function.Injective (nonEmptyFormat empty) := by
  intro f h same
  simpa using congrArg (·.getD empty) same

theorem nonEmptyFormat_ne : nonEmptyFormat empty format ≠ some empty := by
  unfold nonEmptyFormat
  split <;> simp_all

theorem bind_nonEmptyFormat {α : Type} {get : φ → Option α} (unsaid : get empty = none) :
    (nonEmptyFormat empty format).bind get = get format := by
  unfold nonEmptyFormat
  split
  · simp_all
  · rfl

end NonEmpty

variable (layers : List Constraints)

theorem StringFormat.foldl_merge (f : StringFormat) :
    layers.foldl merge f =
      { pattern := f.pattern.or (layers.findSome? (·.pattern))
        maxLength := f.maxLength.or (layers.findSome? (·.maxLength))
        minLength := f.minLength.or (layers.findSome? (·.minLength)) } := by
  induction layers using List.reverseRecOn with
  | nil => simp
  | append_singleton rest c ih => simp [ih, merge, List.findSome?_append, Option.or_assoc]

theorem IntegerFormat.foldl_merge (f : IntegerFormat) :
    layers.foldl merge f =
      { maximum := f.maximum.or (layers.findSome? upper)
        minimum := f.minimum.or (layers.findSome? lower)
        multipleOf := f.multipleOf.or
          ((layers.findSome? (·.multipleOf)).map Binary64.truncInt64) } := by
  induction layers using List.reverseRecOn with
  | nil => simp
  | append_singleton rest c ih =>
    simp [ih, merge, List.findSome?_append, Option.or_assoc, Option.map_or]

theorem ObjectFormat.foldl_merge (f : ObjectFormat) :
    layers.foldl merge f =
      { maxProperties := f.maxProperties.or (layers.findSome? (·.maxProperties))
        minProperties := f.minProperties.or (layers.findSome? (·.minProperties)) } := by
  induction layers using List.reverseRecOn with
  | nil => simp
  | append_singleton rest c ih => simp [ih, merge, List.findSome?_append, Option.or_assoc]

theorem ArrayFormat.foldl_merge (f : ArrayFormat) :
    layers.foldl merge f =
      { f with
        maxLength := f.maxLength.or (layers.findSome? (·.maxItems))
        minLength := f.minLength.or (layers.findSome? (·.minItems))
        unique := f.unique || layers.any (·.uniqueItems == some true) } := by
  induction layers using List.reverseRecOn with
  | nil => simp
  | append_singleton rest c ih =>
    simp [ih, merge, List.findSome?_append, Option.or_assoc, Bool.or_assoc]

namespace FloatFormat

/-- A bound that is set brings its own flag; without one the flag stays. -/
theorem mergeUpper_eq (f : FloatFormat) (c : Constraints) :
    f.mergeUpper c = { f with
      maximum := f.maximum.or ((upper c).map Prod.fst)
      exclusiveMaximum := f.exclusiveMaximum || f.maximum.isNone && (upper c).any Prod.snd } := by
  obtain ⟨maximum, minimum, exclusiveMaximum, exclusiveMinimum, multipleOf⟩ := f
  unfold mergeUpper
  cases maximum <;> cases upper c <;> simp

theorem mergeLower_eq (f : FloatFormat) (c : Constraints) :
    f.mergeLower c = { f with
      minimum := f.minimum.or ((lower c).map Prod.fst)
      exclusiveMinimum := f.exclusiveMinimum || f.minimum.isNone && (lower c).any Prod.snd } := by
  obtain ⟨maximum, minimum, exclusiveMaximum, exclusiveMinimum, multipleOf⟩ := f
  unfold mergeLower
  cases minimum <;> cases lower c <;> simp

theorem foldl_merge (f : FloatFormat) :
    layers.foldl merge f =
      { maximum := f.maximum.or ((layers.findSome? upper).map Prod.fst)
        minimum := f.minimum.or ((layers.findSome? lower).map Prod.fst)
        exclusiveMaximum := f.exclusiveMaximum ||
          f.maximum.isNone && (layers.findSome? upper).any Prod.snd
        exclusiveMinimum := f.exclusiveMinimum ||
          f.minimum.isNone && (layers.findSome? lower).any Prod.snd
        multipleOf := f.multipleOf.or (layers.findSome? (·.multipleOf)) } := by
  induction layers using List.reverseRecOn with
  | nil => simp
  | append_singleton rest c ih =>
    rw [List.foldl_append, ih]
    simp only [List.foldl_cons, List.foldl_nil, merge, mergeUpper_eq, mergeLower_eq,
      List.findSome?_append, List.findSome?_singleton, Option.or_assoc, Option.map_or]
    cases f.maximum <;> cases f.minimum <;> cases rest.findSome? upper <;>
      cases rest.findSome? lower <;> simp

end FloatFormat

def Stays {α : Type} (before after : Option α) : Prop := ∀ a ∈ before, a ∈ after

theorem stays_or {α : Type} (before other : Option α) : Stays before (before.or other) := by
  rintro a ⟨⟩
  rfl

structure StringFormat.Keeps (f h : StringFormat) : Prop where
  pattern : Stays f.pattern h.pattern
  maxLength : Stays f.maxLength h.maxLength
  minLength : Stays f.minLength h.minLength

structure IntegerFormat.Keeps (f h : IntegerFormat) : Prop where
  maximum : Stays f.maximum h.maximum
  minimum : Stays f.minimum h.minimum
  multipleOf : Stays f.multipleOf h.multipleOf

/-- A bound stays with its flag, and a flag that is set stays without a bound, too. -/
structure FloatFormat.Keeps (f h : FloatFormat) : Prop where
  maximum : Stays (f.maximum.map (·, f.exclusiveMaximum)) (h.maximum.map (·, h.exclusiveMaximum))
  minimum : Stays (f.minimum.map (·, f.exclusiveMinimum)) (h.minimum.map (·, h.exclusiveMinimum))
  exclusiveMaximum : f.exclusiveMaximum → h.exclusiveMaximum
  exclusiveMinimum : f.exclusiveMinimum → h.exclusiveMinimum
  multipleOf : Stays f.multipleOf h.multipleOf

structure ObjectFormat.Keeps (f h : ObjectFormat) : Prop where
  maxProperties : Stays f.maxProperties h.maxProperties
  minProperties : Stays f.minProperties h.minProperties

structure ArrayFormat.Keeps (f h : ArrayFormat) : Prop where
  maxLength : Stays f.maxLength h.maxLength
  minLength : Stays f.minLength h.minLength
  unique : f.unique → h.unique
  collection : Stays f.collection h.collection

/-- The second kind is the first one but for its format. That says all that the format of the first
one says, and it is left out if it says nothing. -/
inductive SchemaKind.CompletedTo : SchemaKind → SchemaKind → Prop
  | string {type : StringType} {format format' : Option StringFormat}
      {values : Option (List Json)} : (format.getD {}).Keeps (format'.getD {}) →
      format' ≠ some {} → CompletedTo (.string type format values) (.string type format' values)
  | integer {type : IntegerType} {format format' : Option IntegerFormat}
      {values : Option (List Json)} : (format.getD {}).Keeps (format'.getD {}) →
      format' ≠ some {} → CompletedTo (.integer type format values) (.integer type format' values)
  | float {type : FloatType} {format format' : Option FloatFormat} :
      (format.getD {}).Keeps (format'.getD {}) → format' ≠ some {} →
      CompletedTo (.float type format) (.float type format')
  | boolean : CompletedTo .boolean .boolean
  | object {o : ObjectSchema} {format' : Option ObjectFormat} :
      (o.format.getD {}).Keeps (format'.getD {}) → format' ≠ some {} →
      CompletedTo (.object o) (.object { o with format := format' })
  | array {format format' : Option ArrayFormat} {item : Option Schema} :
      (format.getD {}).Keeps (format'.getD {}) → format' ≠ some {} →
      CompletedTo (.array format item) (.array format' item)
  | reference {target : ClassRef} : CompletedTo (.reference target) (.reference target)

/-- A bound that a layer sets, exclusive or not. The exclusive one counts only if there is no
other. -/
inductive SetsBound (inclusive exclusive : Option Binary64) (bound : Binary64) : Bool → Prop
  | inclusive : inclusive = some bound → SetsBound inclusive exclusive bound false
  | exclusive : inclusive = none → exclusive = some bound → SetsBound inclusive exclusive bound true

theorem setsBound_iff {inclusive exclusive : Option Binary64} {bound : Binary64} {flag : Bool} :
    SetsBound inclusive exclusive bound flag ↔
      (inclusive.map (·, false)).or (exclusive.map (·, true)) = some (bound, flag) := by
  constructor
  · rintro (rfl | ⟨rfl, rfl⟩) <;> rfl
  · intro set
    cases inclusive with
    | some a =>
      obtain ⟨rfl, rfl⟩ : a = bound ∧ false = flag := by simpa using set
      exact .inclusive rfl
    | none =>
      obtain ⟨a, rfl, rfl, rfl⟩ : ∃ a, exclusive = some a ∧ a = bound ∧ true = flag := by
        simpa using set
      exact .exclusive rfl rfl

namespace FloatFormat

structure Paired (f : FloatFormat) : Prop where
  maximum : f.exclusiveMaximum → f.maximum.isSome
  minimum : f.exclusiveMinimum → f.minimum.isSome

/-- Where a format has a new bound, one of the layers sets it together with its flag. -/
structure SetBy (layers : List Constraints) (before after : FloatFormat) : Prop where
  maximum : before.maximum = none → ∀ bound ∈ after.maximum, ∃ c ∈ layers,
    SetsBound c.maxValue c.maxValueExclusive bound after.exclusiveMaximum
  minimum : before.minimum = none → ∀ bound ∈ after.minimum, ∃ c ∈ layers,
    SetsBound c.minValue c.minValueExclusive bound after.exclusiveMinimum

theorem keeps_foldl (f : FloatFormat) : f.Keeps (layers.foldl merge f) := by
  rw [foldl_merge]
  refine ⟨?_, ?_, fun set => by simp [set], fun set => by simp [set], stays_or _ _⟩
  · rintro _ said
    obtain ⟨bound, set, rfl⟩ := Option.map_eq_some_iff.mp said
    simp [set]
  · rintro _ said
    obtain ⟨bound, set, rfl⟩ := Option.map_eq_some_iff.mp said
    simp [set]

theorem setBy_foldl {f : FloatFormat} (paired : f.Paired) :
    SetBy layers f (layers.foldl merge f) := by
  rw [foldl_merge]
  constructor
  · intro unset bound new
    simp only [unset, Option.none_or] at new
    obtain ⟨⟨_, flag⟩, found, rfl⟩ := Option.map_eq_some_iff.mp new
    obtain ⟨c, member, sets⟩ := List.exists_of_findSome?_eq_some found
    have unflagged : f.exclusiveMaximum = false := by simpa [unset] using paired.maximum
    exact ⟨c, member, by simpa [unset, unflagged, found] using setsBound_iff.mpr sets⟩
  · intro unset bound new
    simp only [unset, Option.none_or] at new
    obtain ⟨⟨_, flag⟩, found, rfl⟩ := Option.map_eq_some_iff.mp new
    obtain ⟨c, member, sets⟩ := List.exists_of_findSome?_eq_some found
    have unflagged : f.exclusiveMinimum = false := by simpa [unset] using paired.minimum
    exact ⟨c, member, by simpa [unset, unflagged, found] using setsBound_iff.mpr sets⟩

end FloatFormat

namespace SchemaKind

variable (kind : SchemaKind) (more : List Constraints) (collection other : Option CollectionFormat)

theorem harvest_harvest : (kind.harvest layers collection).harvest more other =
    kind.harvest (layers ++ more) (collection.or other) := by
  cases kind with
  | array format item =>
    simp [harvest, List.foldl_append, ArrayFormat.foldl_merge, ArrayFormat.withCollection,
      Option.or_assoc]
  | _ => simp [harvest, List.foldl_append]

theorem harvest_again : (kind.harvest layers collection).harvest layers collection =
    kind.harvest layers collection := by
  cases kind with
  | string | integer | object | boolean | reference =>
    simp [harvest, StringFormat.foldl_merge, IntegerFormat.foldl_merge, ObjectFormat.foldl_merge,
      Option.or_assoc]
  | array format item =>
    simp [harvest, ArrayFormat.foldl_merge, ArrayFormat.withCollection, Option.or_assoc]
  | float type format =>
    simp only [harvest, getD_nonEmptyFormat, FloatFormat.foldl_merge, Option.or_assoc,
      Option.or_self]
    cases (format.getD {}).maximum <;> cases (format.getD {}).minimum <;>
      cases layers.findSome? FloatFormat.upper <;> cases layers.findSome? FloatFormat.lower <;>
      simp

theorem completedTo_harvest : kind.CompletedTo (kind.harvest layers collection) := by
  cases kind with
  | string =>
    refine .string ?_ (nonEmptyFormat_ne _ _)
    rw [getD_nonEmptyFormat, StringFormat.foldl_merge]
    exact ⟨stays_or _ _, stays_or _ _, stays_or _ _⟩
  | integer =>
    refine .integer ?_ (nonEmptyFormat_ne _ _)
    rw [getD_nonEmptyFormat, IntegerFormat.foldl_merge]
    exact ⟨stays_or _ _, stays_or _ _, stays_or _ _⟩
  | float =>
    refine .float ?_ (nonEmptyFormat_ne _ _)
    rw [getD_nonEmptyFormat]
    exact FloatFormat.keeps_foldl _ _
  | boolean => exact .boolean
  | object =>
    refine .object ?_ (nonEmptyFormat_ne _ _)
    rw [getD_nonEmptyFormat, ObjectFormat.foldl_merge]
    exact ⟨stays_or _ _, stays_or _ _⟩
  | array =>
    refine .array ?_ (nonEmptyFormat_ne _ _)
    rw [getD_nonEmptyFormat, ArrayFormat.foldl_merge]
    exact ⟨stays_or _ _, stays_or _ _, fun set => by simp [ArrayFormat.withCollection, set],
      stays_or _ _⟩
  | reference => exact .reference

/-- Gathering in two steps is gathering once, and again it changes nothing. What is said stays, and
nothing but the format changes. A new bound of a float comes from one layer, together with its
flag. -/
theorem harvest_composes :
    (kind.harvest layers collection).harvest more other =
      kind.harvest (layers ++ more) (collection.or other) ∧
    (kind.harvest layers collection).harvest layers collection = kind.harvest layers collection ∧
    kind.CompletedTo (kind.harvest layers collection) ∧
    ∀ type format, kind = .float type format → (format.getD {}).Paired →
      ∃ format', kind.harvest layers collection = .float type format' ∧
        FloatFormat.SetBy layers (format.getD {}) (format'.getD {}) := by
  refine ⟨harvest_harvest .., harvest_again .., completedTo_harvest .., ?_⟩
  rintro type format rfl paired
  refine ⟨_, rfl, ?_⟩
  rw [getD_nonEmptyFormat]
  exact FloatFormat.setBy_foldl layers paired

def share : SchemaKind := .float .float64 (some { maximum := some (.ofNat 1) })

/-- What the place of use says of it, and what its scalar says. -/
def positive : Constraints := { minValueExclusive := some (.zero false) }
def fraction : Constraints := { minValue := some (.zero false), maxValue := some (.ofNat 2) }

theorem share_harvested :
    (share.harvest [positive] none).harvest [fraction] none =
      share.harvest [positive, fraction] none ∧
    ∃ after : FloatFormat, share.harvest [positive, fraction] none = .float .float64 (some after) ∧
      after.minimum = some (.zero false) ∧ after.exclusiveMinimum ∧
      FloatFormat.SetBy [positive, fraction] { maximum := some (.ofNat 1) } after := by
  refine ⟨(harvest_composes [positive] share [fraction] none none).1, ?_⟩
  obtain ⟨-, -, -, floats⟩ := harvest_composes [positive, fraction] share [] none none
  obtain ⟨format', harvested, setBy⟩ := floats _ _ rfl ⟨nofun, nofun⟩
  have here : share.harvest [positive, fraction] none = .float .float64 (some {
      maximum := some (.ofNat 1), minimum := some (.zero false), exclusiveMinimum := true }) := rfl
  obtain ⟨-, rfl⟩ := SchemaKind.float.inj (here.symm.trans harvested)
  exact ⟨_, here, rfl, rfl, setBy⟩

end SchemaKind
end WireSchema
