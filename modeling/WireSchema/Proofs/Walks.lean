import Mathlib.Data.List.Chain
import Mathlib.Data.List.Nodup
import Mathlib.Logic.Relation

/-! Walks that are nowhere twice. Where there is one way on at most, two walks from one place go the
same way, and if neither can go on they are one walk. -/
namespace WireSchema

variable {α : Type} {next : α → α → Prop} {start last place : α} {path path' : List α}

/-- Places that are passed one after the other from a first one on, none of them twice. -/
structure Walk (next : α → α → Prop) (start : α) (path : List α) : Prop where
  starts : path.head? = some start
  steps : path.IsChain next
  distinct : path.Nodup

namespace Walk

theorem single (next : α → α → Prop) (start : α) : Walk next start [start] where
  starts := rfl
  steps := .singleton start
  distinct := List.pairwise_singleton _ start

theorem extend (walk : Walk next start path) (ends : path.getLast? = some last)
    (step : next last place) (new : place ∉ path) : Walk next start (path ++ [place]) where
  starts := by simp [List.head?_append, walk.starts]
  steps := by
    refine List.isChain_append.mpr ⟨walk.steps, .singleton place, ?_⟩
    rintro x ends' y ⟨⟩
    obtain rfl := Option.some.inj (ends.symm.trans ends')
    exact step
  distinct := by
    rw [List.nodup_append]
    refine ⟨walk.distinct, List.pairwise_singleton _ place, ?_⟩
    rintro x passed y here rfl
    exact new (List.mem_singleton.mp here ▸ passed)

theorem exists_last (walk : Walk next start path) : ∃ last, path.getLast? = some last := by
  cases path with
  | nil => exact absurd walk.starts (by simp)
  | cons place rest => exact ⟨_, List.getLast?_cons⟩

theorem cons (walk : Walk next place path) (step : next start place) (new : start ∉ path) :
    Walk next start (start :: path) where
  starts := rfl
  steps := by
    obtain ⟨rest, rfl⟩ := List.head?_eq_some_iff.mp walk.starts
    exact .cons_cons step walk.steps
  distinct := List.nodup_cons.mpr ⟨new, walk.distinct⟩

theorem tail {rest : List α} (walk : Walk next start (start :: place :: rest)) :
    next start place ∧ Walk next place (place :: rest) := by
  obtain ⟨step, steps⟩ := List.isChain_cons_cons.mp walk.steps
  exact ⟨step, rfl, steps, (List.nodup_cons.mp walk.distinct).2⟩

/-- Every place of a walk can be reached. -/
theorem reaches (walk : Walk next start path) (passed : place ∈ path) :
    Relation.ReflTransGen next start place := by
  obtain ⟨rest, rfl⟩ := List.head?_eq_some_iff.mp walk.starts
  induction rest generalizing start with
  | nil => exact List.mem_singleton.mp passed ▸ .refl
  | cons second rest ih =>
    obtain ⟨step, further⟩ := walk.tail
    rcases List.mem_cons.mp passed with rfl | later
    · exact .refl
    · exact .head step (ih further later)

theorem upTo {front back : List α} (walk : Walk next start (front ++ place :: back)) :
    Walk next start (front ++ [place]) where
  starts := by
    have starts := walk.starts
    cases front <;> simpa using starts
  steps := (List.isChain_split.mp walk.steps).1
  distinct := by
    refine walk.distinct.sublist ?_
    simp

/-- What can be reached is the end of a walk, which leaves out all detours. -/
theorem exists_of_reaches (reached : Relation.ReflTransGen next start last) :
    ∃ path, Walk next start path ∧ path.getLast? = some last := by
  induction reached with
  | refl => exact ⟨[start], .single next start, rfl⟩
  | @tail last place _ step ih =>
    obtain ⟨path, walk, ends⟩ := ih
    by_cases passed : place ∈ path
    · obtain ⟨front, back, rfl⟩ := List.append_of_mem passed
      exact ⟨front ++ [place], walk.upTo, List.getLast?_concat⟩
    · exact ⟨path ++ [place], walk.extend ends step passed, List.getLast?_concat⟩

/-- There is nowhere to go from the last place of a walk, unless where it has been. -/
def Stuck (next : α → α → Prop) (path : List α) : Prop :=
  ∀ last, path.getLast? = some last → ∀ place, next last place → place ∈ path

theorem eq_of_prefix (walk : Walk next start path) (other : Walk next start path')
    (stuck : Stuck next path) (continued : path <+: path') : path = path' := by
  obtain ⟨rest, rfl⟩ := continued
  cases rest with
  | nil => exact (List.append_nil path).symm
  | cons place rest =>
    obtain ⟨last, ends⟩ := walk.exists_last
    have step := (List.isChain_append.mp other.steps).2.2 last ends place rfl
    have apart := (List.nodup_append.mp other.distinct).2.2
    exact absurd rfl (apart place (stuck last ends place step) place List.mem_cons_self)

/-- Two walks go the same way as long as both go on. -/
theorem prefix_or_prefix (onlyWay : ∀ a b c, next a b → next a c → b = c)
    (walk : Walk next start path) (other : Walk next start path') :
    path <+: path' ∨ path' <+: path := by
  have same (place : α) (rest rest' : List α) (steps : (place :: rest).IsChain next)
      (steps' : (place :: rest').IsChain next) : rest <+: rest' ∨ rest' <+: rest := by
    induction rest generalizing place rest' with
    | nil => exact .inl List.nil_prefix
    | cons second rest ih =>
      cases rest' with
      | nil => exact .inr List.nil_prefix
      | cons second' rest' =>
        obtain ⟨step, steps⟩ := List.isChain_cons_cons.mp steps
        obtain ⟨step', steps'⟩ := List.isChain_cons_cons.mp steps'
        obtain rfl := onlyWay place second second' step step'
        simpa only [List.prefix_cons_inj] using ih second rest' steps steps'
  obtain ⟨rest, rfl⟩ := List.head?_eq_some_iff.mp walk.starts
  obtain ⟨rest', rfl⟩ := List.head?_eq_some_iff.mp other.starts
  simpa only [List.prefix_cons_inj] using same start rest rest' walk.steps other.steps

/-- Walks from one place that cannot go on are the same. -/
theorem unique (onlyWay : ∀ a b c, next a b → next a c → b = c)
    (walk : Walk next start path) (other : Walk next start path') (stuck : Stuck next path)
    (stuck' : Stuck next path') : path = path' := by
  rcases prefix_or_prefix onlyWay walk other with front | front
  · exact walk.eq_of_prefix other stuck front
  · exact (other.eq_of_prefix walk stuck' front).symm

end Walk
end WireSchema
