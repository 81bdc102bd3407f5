import WireSchema.Proofs.Inheritance

/-! Properties that are only read. The mark that says so is taken from what one declaration lists;
whether a property is there under other visibilities is decided along the whole chain of bases. Both
look at the last declaration of a name, and they agree unless that lists reading more than once. -/
namespace WireSchema

namespace Property

variable {p : Property}

theorem isReadOnly_iff : p.isReadOnly ↔ p.visibility = some [.read] := by
  unfold isReadOnly
  split
  · exact iff_of_true rfl ‹_›
  · exact iff_of_false nofun ‹_›

/-- A property that can be read is hidden from all others if it lists reading, and nothing else. -/
theorem hidden_elsewhere_iff (readable : p.isVisible .read) :
    (∀ v, v ≠ .read → p.isVisible v = false) ↔
      ∃ n, p.visibility = some (List.replicate (n + 1) .read) := by
  unfold isVisible at *
  cases listed : p.visibility with
  | none =>
    refine iff_of_false (fun hidden => ?_) nofun
    cases hidden .create nofun
  | some visible =>
    simp only [listed] at readable ⊢
    have alone : (∀ v, v ≠ .read → visible.contains v = false) ↔
        visible = List.replicate visible.length .read := by
      rw [List.eq_replicate_iff]
      simp only [true_and, List.contains_eq_mem, decide_eq_false_iff_not]
      exact forall_congr' fun v => Decidable.not_imp_not
    have some_listed : 0 < visible.length := List.length_pos_of_mem (by simpa using readable)
    rw [alone]
    constructor
    · intro all
      exact ⟨visible.length - 1, by rw [Nat.sub_add_cancel some_listed, ← all]⟩
    · rintro ⟨n, same⟩
      rw [Option.some.inj same, List.length_replicate]

end Property

namespace TypeGraph

variable {graph : TypeGraph} {id : TypeId} {chain : List TypeId} {discriminators : List String}
  {e : EffectiveProperty} {v w : Visibility}

theorem readOnly_of_mem_collect (member : e ∈ graph.collect chain discriminators v) :
    e.readOnly = (v == .read && e.decl.isReadOnly) := by
  obtain ⟨owner, decl, -, -, eq⟩ := mem_collect.mp member
  rw [eq]
  rfl

/-- A property of one payload is in another one if its declaration is visible there as well. -/
theorem mem_names_of_mem_collect (member : e ∈ graph.collect chain discriminators v) :
    e.name ∈ (graph.collect chain discriminators w).map (·.name) ↔ e.decl.isVisible w := by
  obtain ⟨owner, decl, last, -, eq⟩ := mem_collect.mp member
  have same : e.decl = decl := by
    rw [eq]
    rfl
  rw [mem_names_collect, last, same]
  constructor
  · rintro ⟨_, _, ⟨⟩, visible⟩
    exact visible
  · exact fun visible => ⟨owner, decl, rfl, visible⟩

/-- What is read is marked if its declaration lists reading once and nothing else. It is in no other
payload if its declaration lists reading and nothing else, be it once or several times. So the mark
is right exactly where reading is not listed again. Nothing but what is read is marked. -/
theorem marked_iff_absent_elsewhere_iff (walk : graph.ancestry id = .ok chain) :
    ∃ payload : Visibility → List EffectiveProperty,
      (∀ v, graph.payload id v = .ok (payload v)) ∧
      (∀ v, v ≠ .read → ∀ e ∈ payload v, e.readOnly = false) ∧
      ∀ e ∈ payload .read,
        (e.readOnly ↔ e.decl.visibility = some [.read]) ∧
        ((∀ v, v ≠ .read → e.name ∉ (payload v).map (·.name)) ↔
          ∃ n, e.decl.visibility = some (List.replicate (n + 1) .read)) ∧
        ((e.readOnly ↔ ∀ v, v ≠ .read → e.name ∉ (payload v).map (·.name)) ↔
          ∀ n, e.decl.visibility ≠ some (List.replicate (n + 2) .read)) := by
  refine ⟨graph.collect chain (graph.discriminatorNames chain), payload_of_ancestry walk,
    fun v other e member => ?_, fun e member => ?_⟩
  · rw [readOnly_of_mem_collect member, beq_eq_false_iff_ne.mpr other, Bool.false_and]
  obtain ⟨owner, decl, -, visible, eq⟩ := mem_collect.mp member
  have readable : e.decl.isVisible .read := by
    rw [eq]
    exact visible
  have marked : e.readOnly ↔ e.decl.visibility = some [.read] := by
    rw [readOnly_of_mem_collect member, ← Property.isReadOnly_iff]
    rfl
  have absent : (∀ v, v ≠ .read → e.name ∉
      (graph.collect chain (graph.discriminatorNames chain) v).map (·.name)) ↔
      ∃ n, e.decl.visibility = some (List.replicate (n + 1) .read) := by
    rw [← Property.hidden_elsewhere_iff readable]
    simp only [mem_names_of_mem_collect member, Bool.not_eq_true]
  refine ⟨marked, absent, ?_⟩
  rw [marked, absent]
  constructor
  · intro agree n again
    have once := agree.mpr ⟨n + 1, again⟩
    simp [once, List.replicate_succ] at again
  · intro once
    constructor
    · exact fun listed => ⟨0, listed⟩
    · rintro ⟨_ | n, listed⟩
      · exact listed
      · exact absurd listed (once n)

/-- A resource is given an id when it is created, but that of a document is only read. -/
def documents : TypeGraph where
  version := "1"
  types := .ofEntries [
    ("Resource", .model {
      properties := .ofEntries [
        ("id", { type := .named "string", visibility := some [.read, .create] }),
        ("etag", { type := .named "string", visibility := some [.read] })] }),
    ("Document", .model {
      base := some "Resource"
      properties := .ofEntries [
        ("id", { type := .named "string", visibility := some [.read] }),
        ("etag", { type := .named "string", visibility := some [.update, .read] }),
        ("text", { type := .named "string" })] })]

theorem documents_id_marked : documents.ancestry ⟨1⟩ = .ok [⟨0⟩, ⟨1⟩] ∧
    ∃ payload : Visibility → List EffectiveProperty,
      (∀ v, documents.payload ⟨1⟩ v = .ok (payload v)) ∧
      (payload .read).map (fun e => (e.name, e.readOnly)) =
        [("id", true), ("etag", false), ("text", false)] ∧
      ∀ e ∈ payload .read,
        (e.readOnly ↔ ∀ v, v ≠ .read → e.name ∉ (payload v).map (·.name)) := by
  have walk : documents.ancestry ⟨1⟩ = .ok [⟨0⟩, ⟨1⟩] := rfl
  obtain ⟨payload, run, -, each⟩ := marked_iff_absent_elsewhere_iff walk
  have read := Except.ok.inj (run .read)
  refine ⟨walk, payload, run, by rw [← read]; rfl, fun e member => ?_⟩
  refine (each e member).2.2.mpr fun n => ?_
  have lists : ∀ e ∈ payload .read, e.decl.visibility ∈
      [some [.read], some [.update, .read], none] := by
    rw [← read]
    decide
  have listed := lists e member
  intro again
  rw [again] at listed
  simp [List.replicate_succ] at listed

/-- An id for which reading is listed twice. -/
def stamps : TypeGraph where
  version := "1"
  types := .ofEntries [
    ("Stamp", .model {
      properties := .ofEntries [
        ("id", { type := .named "string", visibility := some [.read, .read] })] })]

/-- The id is only there when it is read, but it is not marked. -/
theorem stamps_id_unmarked : ∃ payload : Visibility → List EffectiveProperty,
    (∀ v, stamps.payload ⟨0⟩ v = .ok (payload v)) ∧
    ∃ e ∈ payload .read, e.name = "id" ∧ e.readOnly = false ∧
      ∀ v, v ≠ .read → e.name ∉ (payload v).map (·.name) := by
  refine ⟨stamps.collect [⟨0⟩] [], fun _ => rfl, _, List.mem_cons_self, rfl, rfl, ?_⟩
  intro v other
  cases v with
  | read => contradiction
  | _ => exact List.not_mem_nil

end TypeGraph
end WireSchema
