import WireSchema.Text.Case

/-! Lower case is final: a text in lower case stays as it is when it is put into lower case again.
The marks of a route have no case, come from no letter, and separate what stands before them from
what stands behind, since a sigma looks no further than to the next of them. -/
namespace WireSchema.Text

/-- Two runs have no code point in common, as their ends show, or else their parity. -/
def Run.isApart (r t : Run) : Bool :=
  r.last.blt t.first || t.last.blt r.first ||
    t.step == 2 && (r.step == 2 || r.first == r.last) && (r.first + t.first) % 2 == 1

theorem Run.contains_iff {r : Run} {n : Nat} :
    r.contains n ↔ r.first ≤ n ∧ n ≤ r.last ∧ (n - r.first) % r.step = 0 := by
  simp [Run.contains, and_assoc]

theorem Run.not_contains_of_isApart {r t : Run} {n : Nat} (apart : r.isApart t)
    (inside : r.contains n) : t.contains n = false := by
  obtain ⟨first, last, step⟩ := Run.contains_iff.mp inside
  apply Bool.eq_false_iff.mpr
  intro other
  obtain ⟨first', last', step'⟩ := Run.contains_iff.mp other
  simp only [Run.isApart, Bool.or_eq_true, Bool.and_eq_true, beq_iff_eq, Nat.blt_eq] at apart
  rcases apart with (before | behind) | ⟨⟨even, even' | single⟩, odd⟩
  · omega
  · omega
  · rw [even] at step'
    rw [even'] at step
    omega
  · rw [even] at step'
    omega

def Shift.image (s : Shift) : Run :=
  ⟨(s.first + s.distance).toNat, (s.last + s.distance).toNat, s.step⟩

theorem Shift.image_contains {s : Shift} {n : Nat} (positive : 0 ≤ s.first + s.distance)
    (inside : s.run.contains n) : s.image.contains (n + s.distance).toNat := by
  obtain ⟨first, last, step⟩ := Run.contains_iff.mp inside
  simp only [Shift.run] at first last step
  apply Run.contains_iff.mpr
  simp only [Shift.image]
  have moved : (n + s.distance).toNat - (s.first + s.distance).toNat = n - s.first := by omega
  rw [moved]
  exact ⟨by omega, by omega, step⟩

/-- The characters by which routes are divided. -/
def marks : List Char := ['/', '?', '{', '}']

/-- What no shift leads to: characters with a lower case of their own, marks, and code points that
are no characters. -/
def unreachable : List Run :=
  lowerShifts.map Shift.run ++ marks.map (fun m => ⟨m.toNat, m.toNat, 1⟩) ++
    [⟨0x130, 0x130, 1⟩, ⟨0xD800, 0xDFFF, 1⟩]

theorem images_apart : (lowerShifts.map Shift.image).all (fun r => unreachable.all r.isApart) := by
  decide +kernel

theorem images_fit : lowerShifts.all fun s =>
    decide (0 ≤ s.first + s.distance) && s.image.last.blt 0x110000 := by
  decide +kernel

theorem shifts_behind_ascii : lowerShifts.tail.all fun s => Nat.ble 0x80 s.first := by
  decide +kernel

variable {s : Shift} {c d m : Char}

theorem image_contains_of_mem (listed : s ∈ lowerShifts) {n : Nat} (inside : s.run.contains n) :
    s.image.contains (n + s.distance).toNat := by
  have fits := List.all_eq_true.mp images_fit s listed
  rw [Bool.and_eq_true, decide_eq_true_eq] at fits
  exact Shift.image_contains fits.1 inside

theorem not_contains_of_image (listed : s ∈ lowerShifts) {n : Nat} (inside : s.image.contains n)
    {r : Run} (missed : r ∈ unreachable) : r.contains n = false := by
  have apart := List.all_eq_true.mp images_apart s.image (List.mem_map_of_mem listed)
  exact Run.not_contains_of_isApart (List.all_eq_true.mp apart r missed) inside

theorem isValidChar_of_image (listed : s ∈ lowerShifts) {n : Nat} (inside : s.image.contains n) :
    n.isValidChar := by
  have fits := List.all_eq_true.mp images_fit s listed
  rw [Bool.and_eq_true, Nat.blt_eq] at fits
  have surrogates : (⟨0xD800, 0xDFFF, 1⟩ : Run) ∈ unreachable := by simp [unreachable]
  have outside := not_contains_of_image listed inside surrogates
  have last := (Run.contains_iff.mp inside).2.1
  rw [← Bool.not_eq_true, Run.contains_iff] at outside
  simp only [Nat.mod_one, and_true] at outside
  unfold Nat.isValidChar
  omega

structure Settled (c : Char) : Prop where
  noShift : ∀ s ∈ lowerShifts, s.run.contains c.toNat = false
  noExpansion : c.toNat ≠ 0x130

instance (c : Char) : Decidable (Settled c) :=
  decidable_of_iff ((∀ s ∈ lowerShifts, s.run.contains c.toNat = false) ∧ c.toNat ≠ 0x130)
    ⟨fun h => ⟨h.1, h.2⟩, fun h => ⟨h.1, h.2⟩⟩

def asciiShift : Shift := ⟨0x41, 0x5A, 1, 32⟩

theorem isUpper_iff : c.isUpper ↔ asciiShift.run.contains c.toNat := by
  have bounds : c.isUpper ↔ 'A'.val ≤ c.val ∧ c.val ≤ 'Z'.val := decide_eq_true_iff
  rw [bounds, Run.contains_iff]
  simp [asciiShift, Shift.run, UInt32.le_iff_toNat_le, Nat.mod_one]

theorem toNat_ofNat {n : Nat} (valid : n.isValidChar) : (Char.ofNat n).toNat = n := by
  rw [Char.ofNat, dif_pos valid]
  rfl

theorem toNat_toLower (upper : c.isUpper) : c.toLower.toNat = c.toNat + 32 := by
  have last : c.val.toNat ≤ 90 := by
    have bounds := of_decide_eq_true upper
    simpa [UInt32.le_iff_toNat_le] using bounds.2
  have sum : (c.val + 32).toNat = c.val.toNat + 32 := by
    rw [UInt32.toNat_add]
    exact Nat.mod_eq_of_lt (by simp only [UInt32.reduceToNat]; omega)
  unfold Char.toLower
  rw [dif_pos (of_decide_eq_true upper)]
  exact sum

theorem toLower_of_not_isUpper (small : ¬ c.isUpper) : c.toLower = c :=
  dif_neg fun upper => small (decide_eq_true upper)

theorem settled_of_ascii (ascii : c.toNat < 0x80) (small : ¬ c.isUpper) : Settled c := by
  constructor
  · intro s listed
    apply Bool.eq_false_iff.mpr
    intro inside
    rcases List.mem_cons.mp (show s ∈ asciiShift :: lowerShifts.tail from listed) with rfl | later
    · exact small (isUpper_iff.mpr inside)
    · have behind := List.all_eq_true.mp shifts_behind_ascii s later
      have first : s.first ≤ c.toNat := (Run.contains_iff.mp inside).1
      rw [Nat.ble_eq] at behind
      omega
  · omega

/-- A character is settled, or a shift leads away from it, or it is the capital I with a dot. -/
theorem lower_cases (c : Char) : (Settled c ∧ lower c = [c]) ∨
    (∃ s ∈ lowerShifts, s.run.contains c.toNat ∧ ∃ d, lower c = [d] ∧ s.image.contains d.toNat) ∨
    (c.toNat = 0x130 ∧ lower c = ['i', '\u0307']) := by
  unfold lower isAscii
  by_cases ascii : c.toNat < 0x80
  · rw [if_pos (decide_eq_true ascii)]
    by_cases upper : c.isUpper
    · have inside := isUpper_iff.mp upper
      have image := image_contains_of_mem (s := asciiShift) (.head _) inside
      right; left
      exact ⟨asciiShift, .head _, inside, c.toLower, rfl, toNat_toLower upper ▸ image⟩
    · left
      exact ⟨settled_of_ascii ascii upper, by rw [toLower_of_not_isUpper upper]⟩
  · rw [if_neg (by simpa using ascii), caseMap]
    cases found : lowerShifts.find? (·.run.contains c.toNat) with
    | some s =>
      have listed := List.mem_of_find?_eq_some found
      have inside : s.run.contains c.toNat := by simpa using List.find?_some found
      have image := image_contains_of_mem listed inside
      right; left
      refine ⟨s, listed, inside, _, rfl, ?_⟩
      rwa [toNat_ofNat (isValidChar_of_image listed image)]
    | none =>
      by_cases dotted : c.toNat = 0x130
      · right; right
        rw [dotted]
        exact ⟨rfl, rfl⟩
      · have noShift : ∀ s ∈ lowerShifts, s.run.contains c.toNat = false := by
          simpa using List.find?_eq_none.mp found
        have absent : lowerExpansions.lookup c.toNat = none := by
          simpa [lowerExpansions, List.lookup_eq_none_iff] using dotted
        left
        exact ⟨⟨noShift, dotted⟩, by simp only [absent]⟩

theorem lower_of_settled (settled : Settled c) : lower c = [c] := by
  rcases lower_cases c with ⟨-, same⟩ | ⟨s, listed, inside, -⟩ | ⟨dotted, -⟩
  · exact same
  · cases inside.symm.trans (settled.noShift s listed)
  · exact absurd dotted settled.noExpansion

/-- Nothing that lower case gives is changed by it once more. -/
theorem settled_of_mem_lower (member : d ∈ lower c) : Settled d := by
  rcases lower_cases c with ⟨settled, same⟩ | ⟨s, listed, -, image, single, inside⟩ | ⟨-, expanded⟩
  · rw [same, List.mem_singleton] at member
    exact member ▸ settled
  · rw [single, List.mem_singleton] at member
    subst member
    constructor
    · intro t other
      apply not_contains_of_image listed inside
      simp only [unreachable, List.mem_append, List.mem_map]
      exact .inl (.inl ⟨t, other, rfl⟩)
    · intro dotted
      have missed := not_contains_of_image listed inside
        (r := ⟨0x130, 0x130, 1⟩) (by simp [unreachable])
      rw [dotted] at missed
      cases missed
  · simp only [expanded, List.mem_cons, List.not_mem_nil, or_false] at member
    rcases member with rfl | rfl
    · decide +kernel
    · decide +kernel

theorem lower_ne_nil (c : Char) : lower c ≠ [] := by
  rcases lower_cases c with ⟨-, same⟩ | ⟨-, -, -, d, single, -⟩ | ⟨-, expanded⟩
  · simp [same]
  · simp [single]
  · simp [expanded]

/-- What a mark needs to divide a text: it has no case, and a sigma does not look past it. -/
theorem mark_spec : ∀ m ∈ marks, Settled m ∧ m ≠ 'Σ' ∧ isCased m = false ∧
    isCaseIgnorable m = false := by
  intro m mark
  simp only [marks, List.mem_cons, List.not_mem_nil, or_false] at mark
  rcases mark with rfl | rfl | rfl | rfl
  all_goals decide +kernel

theorem lower_mark (mark : m ∈ marks) : lower m = [m] := lower_of_settled (mark_spec m mark).1

/-- No other character becomes a mark. -/
theorem eq_of_mark_mem_lower (mark : m ∈ marks) (member : m ∈ lower c) : m = c := by
  rcases lower_cases c with ⟨-, same⟩ | ⟨s, listed, -, image, single, inside⟩ | ⟨-, expanded⟩
  · rwa [same, List.mem_singleton] at member
  · rw [single, List.mem_singleton] at member
    subst member
    have missed := not_contains_of_image listed inside (r := ⟨m.toNat, m.toNat, 1⟩) (by
      simp only [unreachable, List.mem_append, List.mem_map]
      exact .inl (.inr ⟨m, mark, rfl⟩))
    have itself : (⟨m.toNat, m.toNat, 1⟩ : Run).contains m.toNat :=
      Run.contains_iff.mpr ⟨Nat.le_refl _, Nat.le_refl _, Nat.mod_one _⟩
    cases itself.symm.trans missed
  · simp only [expanded, List.mem_cons, List.not_mem_nil, or_false] at member
    rcases member with rfl | rfl
    · exact absurd mark (by decide)
    · exact absurd mark (by decide)

variable {s t before : List Char}

/-- The image of one character: a sigma depends on what stands around it. -/
theorem lowerFrom_cons (before : List Char) (c : Char) (s : List Char) :
    lowerFrom before (c :: s) =
      (if c = 'Σ' then [if nextIsCased before && !nextIsCased s then 'ς' else 'σ'] else lower c) ++
        lowerFrom (c :: before) s := by
  by_cases sigma : c = 'Σ'
  · subst sigma
    rfl
  · rw [if_neg sigma, lowerFrom]
    exact sigma

/-- A sigma looks no further than to the next mark. -/
theorem nextIsCased_append (mark : m ∈ marks) (s t : List Char) :
    nextIsCased (s ++ m :: t) = nextIsCased s := by
  obtain ⟨-, -, uncased, counts⟩ := mark_spec m mark
  unfold nextIsCased
  rw [List.dropWhile_append]
  cases rest : s.dropWhile isCaseIgnorable with
  | nil => simp [counts, uncased]
  | cons c rest => simp

theorem lowerFrom_behind (mark : m ∈ marks) (before before' s : List Char) :
    lowerFrom (before ++ m :: before') s = lowerFrom before s := by
  induction s generalizing before with
  | nil => rfl
  | cons c s ih =>
    rw [lowerFrom_cons, lowerFrom_cons, nextIsCased_append mark, ← ih (c :: before)]
    rfl

theorem lowerFrom_append (mark : m ∈ marks) (before s t : List Char) :
    lowerFrom before (s ++ m :: t) = lowerFrom before s ++ m :: toLower t := by
  induction s generalizing before with
  | nil =>
    have reset : lowerFrom (m :: before) t = toLower t := lowerFrom_behind mark [] before t
    rw [List.nil_append, lowerFrom_cons, if_neg (mark_spec m mark).2.1, lower_mark mark, reset]
    rfl
  | cons c s ih =>
    rw [List.cons_append, lowerFrom_cons, lowerFrom_cons, nextIsCased_append mark, ih,
      List.append_assoc]

/-- What stands on one side of a mark does not matter on the other. -/
theorem toLower_append (mark : m ∈ marks) (s t : List Char) :
    toLower (s ++ m :: t) = toLower s ++ m :: toLower t := lowerFrom_append mark [] s t

theorem mem_lowerFrom (member : d ∈ lowerFrom before s) :
    d = 'ς' ∨ d = 'σ' ∨ ∃ c ∈ s, d ∈ lower c := by
  induction s generalizing before with
  | nil => cases member
  | cons c s ih =>
    rw [lowerFrom_cons, List.mem_append] at member
    rcases member with here | later
    · split at here
      · split at here
        · exact .inl (List.mem_singleton.mp here)
        · exact .inr (.inl (List.mem_singleton.mp here))
      · exact .inr (.inr ⟨c, List.mem_cons_self, here⟩)
    · rcases ih later with final | inner | ⟨c, member, image⟩
      · exact .inl final
      · exact .inr (.inl inner)
      · exact .inr (.inr ⟨c, List.mem_cons_of_mem _ member, image⟩)

theorem settled_of_mem_toLower (member : d ∈ toLower s) : Settled d := by
  rcases mem_lowerFrom member with rfl | rfl | ⟨c, -, image⟩
  · decide +kernel
  · decide +kernel
  · exact settled_of_mem_lower image

theorem mem_toLower_of_mark (mark : m ∈ marks) (member : m ∈ s) : m ∈ toLower s := by
  obtain ⟨a, b, rfl⟩ := List.append_of_mem member
  rw [toLower_append mark]
  exact List.mem_append_right _ List.mem_cons_self

theorem mem_of_mark_mem_toLower (mark : m ∈ marks) (member : m ∈ toLower s) : m ∈ s := by
  rcases mem_lowerFrom member with rfl | rfl | ⟨c, inside, image⟩
  · cases (by decide : 'ς' ∉ marks) mark
  · cases (by decide : 'σ' ∉ marks) mark
  · exact eq_of_mark_mem_lower mark image ▸ inside

/-- A mark in a text in lower case divides the text that it comes from. -/
theorem exists_of_toLower_eq (mark : m ∈ marks) {s x y : List Char}
    (eq : toLower s = x ++ m :: y) : ∃ a b, s = a ++ m :: b ∧ toLower a = x ∧ toLower b = y := by
  have inside : m ∈ s := mem_of_mark_mem_toLower mark (by simp [eq])
  obtain ⟨a, b, rfl, fresh⟩ := List.eq_append_cons_of_mem inside
  rw [toLower_append mark] at eq
  rcases List.append_eq_append_iff.mp eq with ⟨u, rfl, behind⟩ | ⟨u, split, behind⟩
  · cases u with
    | nil =>
      obtain ⟨-, rfl⟩ := List.cons.inj behind
      exact ⟨a, b, rfl, (List.append_nil _).symm, rfl⟩
    | cons _ u =>
      -- the first mark of the text stands further in front
      obtain ⟨rfl, later⟩ := List.cons.inj behind
      obtain ⟨a', b', rfl, rfl, rfl⟩ := exists_of_toLower_eq mark later
      exact ⟨a ++ m :: a', b', by simp, toLower_append mark a a', rfl⟩
  · cases u with
    | nil =>
      obtain ⟨-, rfl⟩ := List.cons.inj behind
      rw [List.append_nil] at split
      exact ⟨a, b, rfl, split, rfl⟩
    | cons _ u =>
      obtain ⟨rfl, -⟩ := List.cons.inj behind
      have earlier : m ∈ toLower a := by simp [split]
      exact absurd (mem_of_mark_mem_toLower mark earlier) fresh
termination_by s.length

theorem lowerFrom_of_settled (before : List Char) (settled : ∀ c ∈ s, Settled c) :
    lowerFrom before s = s := by
  induction s generalizing before with
  | nil => rfl
  | cons c s ih =>
    rw [List.forall_mem_cons] at settled
    have noSigma : c ≠ 'Σ' := by
      rintro rfl
      exact absurd settled.1 (by decide +kernel)
    rw [lowerFrom_cons, if_neg noSigma, lower_of_settled settled.1, ih _ settled.2]
    rfl

/-- Lower case is final. -/
theorem toLower_toLower (s : List Char) : toLower (toLower s) = toLower s :=
  lowerFrom_of_settled [] fun _ member => settled_of_mem_toLower member

theorem length_toLower (s : List Char) : (toLower s).length = (s.flatMap lower).length := by
  have behind (before : List Char) : (lowerFrom before s).length = (s.flatMap lower).length := by
    induction s generalizing before with
    | nil => rfl
    | cons c s ih =>
      rw [lowerFrom_cons, List.length_append, ih, List.flatMap_cons, List.length_append]
      by_cases sigma : c = 'Σ'
      · subst sigma
        rfl
      · rw [if_neg sigma]
  exact behind []

theorem eq_nil_of_toLower_eq_nil (empty : toLower s = []) : s = [] := by
  cases s with
  | nil => rfl
  | cons c s =>
    have lengths := length_toLower (c :: s)
    rw [empty, List.flatMap_cons, List.length_append, List.length_nil] at lengths
    have present := List.length_pos_iff.mpr (lower_ne_nil c)
    omega

end WireSchema.Text
