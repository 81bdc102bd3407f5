import WireSchema.Route
import WireSchema.Proofs.LowerCase

/-! Placeholders in the segments of a route. What is left when their names are dropped has none, so
that there is nothing to drop a second time, also in lower case. -/
namespace WireSchema.Route

open Text

def Unbraced (s : List Char) : Prop := ∀ c ∈ s, isBrace c = false

/-- A text in which braces with no brace between them have nothing between them. -/
def Nameless (s : List Char) : Prop :=
  ∀ before name after, s = before ++ '{' :: (name ++ '}' :: after) → Unbraced name → name = []

variable {c : Char} {s t name : List Char} {position : Nat}

theorem unbraced_cons : Unbraced (c :: s) ↔ isBrace c = false ∧ Unbraced s := List.forall_mem_cons

/-- Only what follows a brace at the front has to be looked at, and the rest by itself. -/
theorem nameless_cons : Nameless (c :: s) ↔ Nameless s ∧
    (c = '{' → ∀ name after, s = name ++ '}' :: after → Unbraced name → name = []) := by
  constructor
  · intro nameless
    constructor
    · rintro before name after rfl
      exact nameless (c :: before) name after rfl
    · rintro rfl name after rfl
      exact nameless [] name after rfl
  · rintro ⟨behind, front⟩ before name after eq
    cases before with
    | nil =>
      obtain ⟨brace, eq⟩ := List.cons.inj eq
      exact front brace name after eq
    | cons b before =>
      exact behind before name after (List.cons.inj eq).2

theorem nameless_of_append (nameless : Nameless (s ++ t)) : Nameless t := by
  rintro before name after rfl
  exact nameless (s ++ before) name after (List.append_assoc ..).symm

theorem nameless_append_cons (unbraced : Unbraced s) (nameless : Nameless ('{' :: t)) :
    Nameless (s ++ '{' :: t) := by
  induction s with
  | nil => exact nameless
  | cons c s ih =>
    obtain ⟨first, rest⟩ := unbraced_cons.mp unbraced
    apply nameless_cons.mpr
    refine ⟨ih rest, ?_⟩
    rintro rfl
    cases first

/-- A text without braces ends at the first brace behind it. -/
theorem first_brace_unique (unbraced : Unbraced s) (unbraced' : Unbraced name) {b b' : Char}
    (brace : isBrace b) (brace' : isBrace b') {after : List Char}
    (eq : s ++ b :: t = name ++ b' :: after) : s = name ∧ b = b' ∧ t = after := by
  induction s generalizing name with
  | nil =>
    cases name with
    | nil => exact ⟨rfl, List.cons.inj eq⟩
    | cons c name =>
      obtain ⟨rfl, -⟩ := List.cons.inj eq
      cases brace.symm.trans (unbraced_cons.mp unbraced').1
  | cons c s ih =>
    cases name with
    | nil =>
      obtain ⟨rfl, -⟩ := List.cons.inj eq
      cases brace'.symm.trans (unbraced_cons.mp unbraced).1
    | cons d name =>
      obtain ⟨rfl, behind⟩ := List.cons.inj eq
      obtain ⟨rfl, rest⟩ := ih (unbraced_cons.mp unbraced).2 (unbraced_cons.mp unbraced').2 behind
      exact ⟨rfl, rest⟩

theorem nameless_of_unclosed (unclosed : '}' ∉ s) : Nameless s := by
  rintro before name after rfl
  simp at unclosed

theorem nameless_group (nameless : Nameless s) : Nameless ('{' :: '}' :: s) := by
  apply nameless_cons.mpr
  constructor
  · exact nameless_cons.mpr ⟨nameless, nofun⟩
  · intro _ name after eq unbraced
    exact (first_brace_unique (s := []) nofun unbraced rfl rfl eq).1.symm

theorem nameless_reopened (unbraced : Unbraced name) (nameless : Nameless ('{' :: s)) :
    Nameless ('{' :: (name ++ '{' :: s)) := by
  apply nameless_cons.mpr
  constructor
  · exact nameless_append_cons unbraced nameless
  · intro _ name' after eq unbraced'
    cases (first_brace_unique unbraced unbraced' rfl rfl eq).2.1

theorem dropNamesFrom_some (name s : List Char) : ∃ t, dropNamesFrom (some name) s = '{' :: t := by
  induction s generalizing name with
  | nil => exact ⟨_, rfl⟩
  | cons c s ih =>
    unfold dropNamesFrom
    split
    · exact ⟨_, rfl⟩
    · split
      · exact ⟨_, rfl⟩
      · exact ih (c :: name)

theorem unbraced_reverse (unbraced : Unbraced s) : Unbraced s.reverse := by
  intro c member
  exact unbraced c (List.mem_reverse.mp member)

theorem nameless_dropNamesFrom (pending : Option (List Char)) (s : List Char)
    (unbraced : ∀ name ∈ pending, Unbraced name) : Nameless (dropNamesFrom pending s) := by
  -- What follows an open brace has no brace in it yet; that is all a step needs of the ones before.
  fun_induction dropNamesFrom pending s with
  | case1 => exact nameless_of_unclosed nofun
  | case2 name =>
    apply nameless_of_unclosed
    intro closed
    rcases List.mem_cons.mp closed with eq | inside
    · cases eq
    · cases unbraced name rfl '}' (List.mem_reverse.mp inside)
  | case3 rest ih =>
    apply ih
    rintro _ ⟨⟩
    exact nofun
  | case4 c rest other ih =>
    apply nameless_cons.mpr
    exact ⟨ih nofun, fun brace => absurd brace other⟩
  | case5 name rest ih => exact nameless_group (ih nofun)
  | case6 name rest _ ih =>
    have nameless := ih (by rintro _ ⟨⟩; exact nofun)
    obtain ⟨t, reopened⟩ := dropNamesFrom_some [] rest
    rw [reopened] at nameless ⊢
    exact nameless_reopened (unbraced_reverse (unbraced name rfl)) nameless
  | case7 name c rest notClose notOpen ih =>
    apply ih
    rintro _ ⟨⟩
    apply unbraced_cons.mpr
    exact ⟨by simp [isBrace, notClose, notOpen], unbraced name rfl⟩

/-- Where names are dropped none are left. -/
theorem nameless_dropNames (s : List Char) : Nameless (dropNames s) :=
  nameless_dropNamesFrom none s nofun

/-- The text that has been read, where a brace may be open. -/
def withPending : Option (List Char) → List Char → List Char
  | none, s => s
  | some name, s => '{' :: (name.reverse ++ s)

theorem dropNamesFrom_of_nameless (pending : Option (List Char)) (s : List Char)
    (unbraced : ∀ name ∈ pending, Unbraced name) (nameless : Nameless (withPending pending s)) :
    dropNamesFrom pending s = withPending pending s := by
  fun_induction dropNamesFrom pending s with
  | case1 => rfl
  | case2 name => simp [withPending]
  | case3 rest ih =>
    apply ih
    · rintro _ ⟨⟩
      exact nofun
    · exact nameless
  | case4 c rest other ih =>
    exact congrArg (c :: ·) (ih nofun (nameless_cons.mp nameless).1)
  | case5 name rest ih =>
    have empty := nameless [] name.reverse rest rfl (unbraced_reverse (unbraced name rfl))
    rw [withPending, empty] at nameless ⊢
    exact congrArg ('{' :: '}' :: ·) (ih nofun (nameless_of_append (s := ['{', '}']) nameless))
  | case6 name rest _ ih =>
    have behind : Nameless ('{' :: rest) := nameless_of_append (s := '{' :: name.reverse) nameless
    have same := ih (by rintro _ ⟨⟩; exact nofun) behind
    exact congrArg (('{' :: name.reverse) ++ ·) same
  | case7 name c rest notClose notOpen ih =>
    have longer : withPending (some (c :: name)) rest = withPending (some name) (c :: rest) := by
      simp [withPending]
    rw [← longer] at nameless ⊢
    refine ih ?_ nameless
    rintro _ ⟨⟩
    apply unbraced_cons.mpr
    exact ⟨by simp [isBrace, notClose, notOpen], unbraced name rfl⟩

/-- Where no names are left none are dropped. -/
theorem dropNames_of_nameless (nameless : Nameless s) : dropNames s = s :=
  dropNamesFrom_of_nameless none s nofun nameless

theorem dropNamesFrom_sublist (pending : Option (List Char)) (s : List Char) :
    (dropNamesFrom pending s).Sublist (withPending pending s) := by
  fun_induction dropNamesFrom pending s with
  | case1 => exact .slnil
  | case2 name => simp [withPending]
  | case3 rest ih => exact ih
  | case4 c rest _ ih => exact ih.cons_cons c
  | case5 name rest ih =>
    have behind : ('}' :: dropNamesFrom none rest).Sublist (name.reverse ++ '}' :: rest) :=
      List.sublist_append_of_sublist_right (ih.cons_cons '}')
    exact behind.cons_cons '{'
  | case6 name rest _ ih =>
    have behind := List.Sublist.append_left ih name.reverse
    exact behind.cons_cons '{'
  | case7 name c rest _ _ ih => simpa [withPending] using ih

/-- Names are left out, and nothing is put in. -/
theorem dropNames_sublist (s : List Char) : (dropNames s).Sublist s := dropNamesFrom_sublist none s

theorem isMark_of_isBrace (brace : isBrace c) : c ∈ marks := by
  simp only [isBrace, Bool.or_eq_true, beq_iff_eq] at brace
  rcases brace with rfl | rfl
  · decide
  · decide

theorem unbraced_toLower_iff : Unbraced (toLower s) ↔ Unbraced s := by
  constructor
  · intro unbraced c member
    apply Bool.eq_false_iff.mpr
    intro brace
    have kept := mem_toLower_of_mark (isMark_of_isBrace brace) member
    cases brace.symm.trans (unbraced c kept)
  · intro unbraced c member
    apply Bool.eq_false_iff.mpr
    intro brace
    have there := mem_of_mark_mem_toLower (isMark_of_isBrace brace) member
    cases brace.symm.trans (unbraced c there)

/-- Lower case brings no names back. -/
theorem nameless_toLower (nameless : Nameless s) : Nameless (toLower s) := by
  intro before name after eq unbraced
  obtain ⟨before', behind, rfl, -, eq⟩ := exists_of_toLower_eq (by decide) eq
  obtain ⟨name', after', rfl, rfl, -⟩ := exists_of_toLower_eq (by decide) eq
  rw [nameless before' name' after' rfl (unbraced_toLower_iff.mp unbraced)]
  rfl

/-- Once names are dropped there are none to drop in lower case. -/
theorem dropNames_toLower_dropNames (s : List Char) :
    dropNames (toLower (dropNames s)) = toLower (dropNames s) :=
  dropNames_of_nameless (nameless_toLower (nameless_dropNames s))

theorem isPlaceholder_iff :
    isPlaceholder s ↔ ∃ name, Unbraced name ∧ s = '{' :: (name ++ ['}']) := by
  constructor
  · intro placeholder
    unfold isPlaceholder at placeholder
    split at placeholder
    · rename_i rest
      simp only [Bool.and_eq_true, beq_iff_eq, Bool.not_eq_true', List.any_eq_false] at placeholder
      obtain ⟨name, rfl⟩ := List.getLast?_eq_some_iff.mp placeholder.1
      refine ⟨name, fun c member => ?_, rfl⟩
      simpa using placeholder.2 c (by simpa using member)
    · cases placeholder
  · rintro ⟨name, unbraced, rfl⟩
    have inside : name.any isBrace = false := by
      apply List.any_eq_false.mpr
      intro c member
      simp [unbraced c member]
    simp [isPlaceholder, inside]

theorem isPlaceholder_toLower (placeholder : isPlaceholder s) : isPlaceholder (toLower s) := by
  obtain ⟨name, unbraced, rfl⟩ := isPlaceholder_iff.mp placeholder
  apply isPlaceholder_iff.mpr
  refine ⟨toLower name, unbraced_toLower_iff.mpr unbraced, ?_⟩
  have front := toLower_append (by decide : '{' ∈ marks) [] (name ++ ['}'])
  have back := toLower_append (by decide : '}' ∈ marks) name []
  rw [List.nil_append] at front
  rw [front, back]
  rfl

end WireSchema.Route
