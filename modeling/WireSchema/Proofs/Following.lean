import WireSchema.Proofs.Counting
import WireSchema.Proofs.Unfolding

/-! Two ways to convert a graph side by side. One fills a class table, the other leaves it alone. If
they agree on models as far as a view of trees shows, they agree on everything. -/
namespace WireSchema

open ConvertM ClassTable

/-- A step that enters classes at most. -/
def Grows {α : Type} (x : ConvertM α) : Prop :=
  ∀ g a g', Yields x g a g' → Within g.classes g'.classes

theorem Traces.grows {α : Type} {c : Converter} {before : List Mention} {x : ConvertM α}
    {after : α → List Mention} (traces : Traces c before x after) : Grows x := by
  intro g a g' run
  obtain ⟨ms, -, fills⟩ := traces.fills g a g' run
  exact fills.accounts.within

/-- Whatever `x` gives, if in the end `table` holds the classes that it has met, `y` gives something
that looks the same, and meets no class. -/
structure Follows {α β γ : Type} (table : ClassTable) (view : α → γ) (view' : β → γ)
    (x : ConvertM α) (y : ConvertM β) : Prop where
  grows : Grows x
  follow : ∀ g a g', Yields x g a g' → Within g'.classes table →
    ∀ g₀, ∃ b g₁, Yields y g₀ b g₁ ∧ g₁.classes = g₀.classes ∧ view a = view' b

namespace Grows

variable {α β : Type} {x : ConvertM α} {f : α → ConvertM β}

theorem pure (a : α) : Grows (pure a : ConvertM α) := by
  intro g b g' run
  obtain ⟨-, rfl⟩ := yields_pure.mp run
  exact .refl _

theorem bind (first : Grows x) (rest : ∀ a, Grows (f a)) : Grows (x >>= f) := by
  intro g b g' run
  obtain ⟨a, g₁, firstRun, restRun⟩ := yields_bind.mp run
  exact (first g a g₁ firstRun).trans (rest a g₁ b g' restRun)

end Grows

namespace Follows

variable {α β γ δ α' β' : Type} {table : ClassTable} {view : α → γ} {view' : β → γ}
  {x : ConvertM α} {y : ConvertM β} {viewNext : α' → δ} {viewNext' : β' → δ}

theorem pure {a : α} {b : β} (alike : view a = view' b) :
    Follows table view view' (pure a) (pure b) where
  grows := .pure a
  follow g c g' run _ g₀ := by
    obtain ⟨rfl, -⟩ := yields_pure.mp run
    exact ⟨b, g₀, yields_pure.mpr ⟨rfl, rfl⟩, rfl, alike⟩

theorem throw {e : ConvertError} : Follows table view view' (throw e : ConvertM α) y where
  grows _ _ _ run := absurd run not_yields_throw
  follow _ _ _ run := absurd run not_yields_throw

/-- That the classes met by the first step are in the table in the end is known because the second
step takes nothing away, whatever it is given. -/
theorem bind {f : α → ConvertM α'} {f' : β → ConvertM β'} (first : Follows table view view' x y)
    (later : ∀ a, Grows (f a))
    (rest : ∀ a b, view a = view' b → Follows table viewNext viewNext' (f a) (f' b)) :
    Follows table viewNext viewNext' (x >>= f) (y >>= f') where
  grows := first.grows.bind later
  follow g c g' run within g₀ := by
    obtain ⟨a, g₁, firstRun, restRun⟩ := yields_bind.mp run
    obtain ⟨b, g₂, firstRun', same, alike⟩ :=
      first.follow g a g₁ firstRun ((later a g₁ c g' restRun).trans within) g₀
    obtain ⟨d, g₃, restRun', same', alike'⟩ := (rest a b alike).follow g₁ c g' restRun within g₂
    exact ⟨d, g₃, yields_bind.mpr ⟨b, g₂, firstRun', restRun'⟩, same'.trans same, alike'⟩

theorem map {f : α → α'} {f' : β → β'} (first : Follows table view view' x y)
    (alike : ∀ a b, view a = view' b → viewNext (f a) = viewNext' (f' b)) :
    Follows table viewNext viewNext' (x >>= fun a => Pure.pure (f a))
      (y >>= fun b => Pure.pure (f' b)) :=
  first.bind (fun _ => .pure _) fun a b h => .pure (alike a b h)

theorem resolve {r : Except ResolveError δ} {f : δ → ConvertM α} {f' : δ → ConvertM β}
    (rest : ∀ a, Follows table view view' (f a) (f' a)) :
    Follows table view view' (ofResolve r >>= f) (ofResolve r >>= f') := by
  cases r with
  | error e => exact throw
  | ok a => exact rest a

theorem ofReports {x : ConvertM α} {view' : α → γ} (reports : Reports x)
    (alike : ∀ g a g', Yields x g a g' → view a = view' a) :
    Follows table view view' x x where
  grows g a g' run := (reports.yields run).1 ▸ .refl _
  follow g a g' run _ g₀ := by
    obtain ⟨further, again⟩ := (reports.yields run).2 g₀
    exact ⟨a, _, again, rfl, alike g a g' run⟩

theorem keep {ι : Type} {f : ι → ConvertM (Option α)} {f' : ι → ConvertM (Option β)}
    (each : ∀ i, Follows table (Option.map view) (Option.map view') (f i) (f' i))
    (items : List ι) :
    Follows table (List.map view) (List.map view') (keep f items) (keep f' items) := by
  induction items with
  | nil => exact .pure rfl
  | cons i rest ih =>
    refine (each i).bind (fun _ => ih.grows.bind fun _ => .pure _) fun a b first => ih.map ?_
    intro as bs others
    cases a <;> cases b <;> simp_all

theorem foldlM {ι : Type} {f : α → ι → ConvertM α} {f' : β → ι → ConvertM β}
    (grows : ∀ a i, Grows (f a i))
    (each : ∀ a b i, view a = view' b → Follows table view view' (f a i) (f' b i))
    (items : List ι) {a : α} {b : β} (start : view a = view' b) :
    Follows table view view' (items.foldlM f a) (items.foldlM f' b) := by
  have later (items : List ι) (a : α) : Grows (items.foldlM f a) := by
    induction items generalizing a with
    | nil => exact .pure a
    | cons i rest ih => exact (grows a i).bind fun a' => ih a'
  induction items generalizing a b with
  | nil => exact .pure start
  | cons i rest ih => exact (each a b i start).bind (later rest) fun a' b' => ih

end Follows
end WireSchema
