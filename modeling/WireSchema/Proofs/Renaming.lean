import Mathlib.Data.List.Forall2
import WireSchema.Proofs.NormalForm

/-! What the id of a path owes to the names of its placeholders. Names behind the first segment are
left out, and so are those within it if the path starts with a slash. Without a slash at the front
the first segment is kept with all its names, and so is a placeholder that is the second one. -/
namespace WireSchema.Route

open Text

/-- What can stand as the name of a placeholder in a path. -/
def IsName (s : List Char) : Prop := ∀ c ∈ s, c ∉ marks

instance (s : List Char) : Decidable (IsName s) := List.decidableBAll (· ∉ marks) s

/-- A text in which some of the placeholders have other names. -/
inductive Renames : List Char → List Char → Prop
  | nil : Renames [] []
  | keep (c : Char) {s t : List Char} (behind : Renames s t) : Renames (c :: s) (c :: t)
  | name {name name' s t : List Char} (old : IsName name) (new : IsName name')
      (behind : Renames s t) : Renames ('{' :: (name ++ '}' :: s)) ('{' :: (name' ++ '}' :: t))

def HasPlaceholder (s : List Char) : Prop :=
  ∃ before name after, s = before ++ '{' :: (name ++ '}' :: after) ∧ Unbraced name

/-- What stands between the slash at the front of a path and the next one, or before the first slash
of a path that does not start with one. -/
def firstSegment : List Char → List Char
  | '/' :: s => s.takeWhile (· ≠ '/')
  | s => s.takeWhile (· ≠ '/')

/-- A path with other names in its placeholders, apart from one that is the first segment. -/
structure RenamesPath (path path' : String) : Prop where
  url : Renames (url path) (url path')
  first : isPlaceholder (firstSegment (Route.url path)) →
    firstSegment (Route.url path') = firstSegment (Route.url path)
  query : query? path' = query? path

variable {s t a b name name' : List Char} {parts parts' : List (List Char)} {position : Nat}
  {path path' : String}

theorem IsName.unbraced (isName : IsName name) : Unbraced name := by
  intro c member
  apply Bool.eq_false_iff.mpr
  intro brace
  exact isName c member (isMark_of_isBrace brace)

namespace Renames

theorem refl (s : List Char) : Renames s s := by
  induction s with
  | nil => exact .nil
  | cons c s ih => exact .keep c ih

theorem symm (renames : Renames s t) : Renames t s := by
  induction renames with
  | nil => exact .nil
  | keep c _ ih => exact .keep c ih
  | name old new _ ih => exact .name new old ih

theorem append (renames : Renames s t) (renames' : Renames a b) : Renames (s ++ a) (t ++ b) := by
  induction renames with
  | nil => exact renames'
  | keep c _ ih => exact .keep c ih
  | name old new _ ih =>
    have more := Renames.name old new ih
    simpa using more

theorem eq_of_no_placeholder (renames : Renames s t) (plain : ¬ HasPlaceholder s) : t = s := by
  induction renames with
  | nil => rfl
  | keep c _ ih =>
    refine congrArg (c :: ·) (ih ?_)
    rintro ⟨before, name, after, rfl, unbraced⟩
    exact plain ⟨c :: before, name, after, rfl, unbraced⟩
  | name old _ _ _ => exact absurd ⟨[], _, _, rfl, old.unbraced⟩ plain

theorem mem_iff (renames : Renames s t) {m : Char} (mark : m ∈ marks) : m ∈ t ↔ m ∈ s := by
  induction renames with
  | nil => rfl
  | keep c _ ih => simp [ih]
  | name old new _ ih =>
    have absent : m ∉ _ := fun member => old m member mark
    have absent' : m ∉ _ := fun member => new m member mark
    simp [ih, absent, absent']

theorem isPlaceholder (renames : Renames s t) (placeholder : Route.isPlaceholder s) :
    Route.isPlaceholder t := by
  obtain ⟨name, unbraced, whole⟩ := isPlaceholder_iff.mp placeholder
  cases renames with
  | nil => cases whole
  | keep c behind =>
    obtain ⟨rfl, rfl⟩ := List.cons.inj whole
    have plain : ¬ HasPlaceholder (name ++ ['}']) := by
      rintro ⟨before, name', after, eq, -⟩
      have brace : '{' ∈ name ++ ['}'] := by simp [eq]
      rcases List.mem_append.mp brace with inside | last
      · cases unbraced '{' inside
      · cases List.mem_singleton.mp last
    rw [behind.eq_of_no_placeholder plain]
    exact placeholder
  | name old new behind =>
    obtain ⟨-, -, rfl⟩ :=
      first_brace_unique old.unbraced unbraced rfl rfl (List.cons.inj whole).2
    cases behind
    exact isPlaceholder_iff.mpr ⟨_, new.unbraced, rfl⟩

end Renames

theorem dropNamesFrom_name (unbraced : Unbraced b) (name s : List Char) :
    dropNamesFrom (some name) (b ++ '}' :: s) = '{' :: '}' :: dropNamesFrom none s := by
  induction b generalizing name with
  | nil => rfl
  | cons c b ih =>
    obtain ⟨first, rest⟩ := unbraced_cons.mp unbraced
    simp only [isBrace, Bool.or_eq_false_iff, beq_eq_false_iff_ne] at first
    rw [List.cons_append, dropNamesFrom, if_neg first.2, if_neg first.1, ih rest]

theorem dropNamesFrom_placeholder (unbraced : Unbraced name) (pending : Option (List Char))
    (s : List Char) : dropNamesFrom pending ('{' :: (name ++ '}' :: s)) =
      withPending pending ('{' :: '}' :: dropNamesFrom none s) := by
  cases pending with
  | none => exact dropNamesFrom_name unbraced [] s
  | some pending =>
    have inner := dropNamesFrom_name unbraced [] s
    exact congrArg (('{' :: pending.reverse) ++ ·) inner

theorem dropNamesFrom_of_renames (renames : Renames s t) (pending : Option (List Char)) :
    dropNamesFrom pending t = dropNamesFrom pending s := by
  induction renames generalizing pending with
  | nil => rfl
  | keep c _ ih => cases pending <;> simp only [dropNamesFrom, ih]
  | name old new _ ih =>
    rw [dropNamesFrom_placeholder old.unbraced, dropNamesFrom_placeholder new.unbraced, ih]

/-- Which names are dropped makes no difference. -/
theorem dropNames_of_renames (renames : Renames s t) : dropNames t = dropNames s :=
  dropNamesFrom_of_renames renames none

/-- The normal form of a segment owes nothing to its names, if they are not kept. -/
theorem normalSegment_of_renames (renames : Renames s t)
    (same : position = 0 ∨ (position = 1 ∧ isPlaceholder s) → t = s) :
    normalSegment position t = normalSegment position s := by
  by_cases kept : position = 0 ∨ (position = 1 ∧ isPlaceholder s)
  · rw [same kept]
  · have kept' : ¬ (position = 0 ∨ (position = 1 ∧ isPlaceholder t)) := fun keeps =>
      kept (keeps.imp_right fun first => ⟨first.1, renames.symm.isPlaceholder first.2⟩)
    unfold normalSegment
    rw [if_neg kept, if_neg kept', dropNames_of_renames renames]

/-- What has no slash goes to the front of the first segment. -/
theorem segments_append_front (plain : '/' ∉ a) (s : List Char) :
    segments (a ++ s) = (segments s).modifyHead (a ++ ·) := by
  induction a with
  | nil =>
    rw [List.nil_append]
    cases segments s <;> rfl
  | cons c a ih =>
    rw [List.mem_cons, not_or] at plain
    rw [List.cons_append, segments_eq_splitOn, List.splitOn_cons_eq_if_modifyHead,
      ← segments_eq_splitOn, if_neg (by simpa using Ne.symm plain.1), ih plain.2,
      List.modifyHead_modifyHead]
    rfl

theorem modifyHead_renames (renames : List.Forall₂ Renames parts parts')
    (front : Renames a b) :
    List.Forall₂ Renames (parts.modifyHead (a ++ ·)) (parts'.modifyHead (b ++ ·)) := by
  cases renames with
  | nil => exact .nil
  | cons first rest => exact .cons (front.append first) rest

theorem IsName.plain (isName : IsName name) : '/' ∉ '{' :: (name ++ ['}']) := by
  intro slash
  rcases List.mem_cons.mp slash with eq | later
  · cases eq
  · rcases List.mem_append.mp later with inside | last
    · exact isName '/' inside (by decide)
    · cases List.mem_singleton.mp last

/-- Names have no slashes, so the segments have other names one by one. -/
theorem segments_of_renames (renames : Renames s t) :
    List.Forall₂ Renames (segments s) (segments t) := by
  induction renames with
  | nil => exact .cons .nil .nil
  | @keep c s t _ ih =>
    by_cases slash : c = '/'
    · subst slash
      exact .cons .nil ih
    · have plain : '/' ∉ [c] := fun member => slash (List.mem_singleton.mp member).symm
      have both := modifyHead_renames ih (Renames.refl [c])
      rw [← segments_append_front plain, ← segments_append_front plain] at both
      exact both
  | @name name name' s t old new _ ih =>
    have both := modifyHead_renames ih (.name old new .nil)
    rw [← segments_append_front old.plain, ← segments_append_front new.plain] at both
    simpa using both

theorem renames_intercalate (renames : List.Forall₂ Renames parts parts') :
    Renames (List.intercalate ['/'] parts) (List.intercalate ['/'] parts') := by
  induction renames with
  | nil => exact .nil
  | cons first rest ih =>
    cases rest with
    | nil => simpa using first
    | cons second rest =>
      rw [List.intercalate_cons_cons, List.intercalate_cons_cons]
      exact (first.append (Renames.refl ['/'])).append ih

/-- The first of the segments is what stands before the first slash. -/
theorem segments_eq_takeWhile (s : List Char) :
    ∃ rest, segments s = s.takeWhile (· ≠ '/') :: rest := by
  by_cases slashed : '/' ∈ s
  · obtain ⟨front, behind, rfl, plain⟩ := List.eq_append_cons_of_mem slashed
    refine ⟨segments behind, ?_⟩
    rw [segments_append plain, List.takeWhile_append_of_pos (other_of_not_mem plain)]
    simp
  · have whole : s.takeWhile (· ≠ '/') = s :=
      List.takeWhile_eq_self_iff.mpr (other_of_not_mem slashed)
    exact ⟨[], by rw [segments_of_not_mem slashed, whole]⟩

theorem segments_of_slash (s : List Char) :
    ∃ rest, segments ('/' :: s) = [] :: firstSegment ('/' :: s) :: rest := by
  obtain ⟨rest, eq⟩ := segments_eq_takeWhile s
  exact ⟨rest, congrArg ([] :: ·) eq⟩

theorem segments_of_no_slash (noSlash : s.head? ≠ some '/') :
    ∃ rest, segments s = firstSegment s :: rest := by
  obtain ⟨rest, eq⟩ := segments_eq_takeWhile s
  refine ⟨rest, eq.trans ?_⟩
  unfold firstSegment
  split
  · cases noSlash rfl
  · rfl

theorem isName_of_segment (member : s ∈ segments (url path)) (within : name ⊆ s)
    (unbraced : Unbraced name) : IsName name := by
  obtain ⟨plain, sublist⟩ := mem_segments member
  intro c inside mark
  simp only [marks, List.mem_cons, List.not_mem_nil, or_false] at mark
  rcases mark with rfl | rfl | rfl | rfl
  · exact plain (within inside)
  · exact not_mem_url path (sublist.subset (within inside))
  · cases unbraced '{' inside
  · cases unbraced '}' inside

theorem exists_renamed (renames : List.Forall₂ Renames (segments (url path)) parts) :
    ∃ path', Renames (url path) (url path') ∧ segments (url path') = parts ∧
      query? path' = query? path := by
  have whole := renames_intercalate renames
  rw [intercalate_segments] at whole
  have plain : '?' ∉ List.intercalate ['/'] parts := fun mark =>
    not_mem_url path ((whole.mem_iff (by decide)).mp mark)
  obtain ⟨path', url', query⟩ := exists_path plain (query? path)
  refine ⟨path', url' ▸ whole, ?_, query⟩
  · rw [url']
    apply segments_intercalate
    · intro empty
      rw [empty, List.forall₂_nil_right_iff] at renames
      exact segments_ne_nil _ renames
    · intro p member slash
      obtain ⟨i, bound, rfl⟩ := List.getElem_of_mem member
      have bound' : i < (segments (url path)).length := renames.length_eq ▸ bound
      have single : Renames (segments (url path))[i] parts[i] := renames.get bound' bound
      have kept := (single.mem_iff (by decide)).mp slash
      exact (mem_segments (List.getElem_mem bound')).1 kept

/-- The normal form owes nothing to the names, apart from those of the segments that are kept. -/
theorem normalUrl_of_renames (renames : Renames s t)
    (same : ∀ i a b, (segments s)[i]? = some a → (segments t)[i]? = some b →
      i = 0 ∨ (i = 1 ∧ isPlaceholder a) → b = a) : normalUrl t = normalUrl s := by
  have divided := segments_of_renames renames
  have normal : (segments t).mapIdx normalSegment = (segments s).mapIdx normalSegment := by
    apply List.ext_getElem
    · simp [divided.length_eq]
    · intro i bound bound'
      rw [List.length_mapIdx] at bound bound'
      rw [List.getElem_mapIdx, List.getElem_mapIdx]
      apply normalSegment_of_renames (divided.get bound' bound)
      exact same i _ _ (List.getElem?_eq_getElem bound') (List.getElem?_eq_getElem bound)
  rw [normalUrl, normalUrl, normal]

/-- Paths with one id have equal segments, once these are in normal form. -/
theorem segment_of_same_id (same : resourceId path' = resourceId path) (position : Nat)
    {s t : List Char}
    (stands : (segments (url path))[position]? = some s)
    (stands' : (segments (url path'))[position]? = some t) :
    toLower (normalSegment position t) = toLower (normalSegment position s) := by
  have urls := congrArg (fun id => (segments (url id))[position]?) same
  simp only [url_resourceId, segments_normalUrl, List.getElem?_mapIdx, stands, stands'] at urls
  exact Option.some.inj urls

/-- A placeholder that is kept shows how long its name is. -/
theorem toLower_longer_ne (before name after : List Char) :
    toLower (before ++ '{' :: ((name ++ ['x']) ++ '}' :: after)) ≠
      toLower (before ++ '{' :: (name ++ '}' :: after)) := by
  intro same
  have lengths := congrArg List.length same
  have x : lower 'x' = ['x'] := by decide +kernel
  rw [length_toLower, length_toLower] at lengths
  simp only [List.flatMap_append, List.flatMap_cons, List.flatMap_nil, List.length_append, x,
    List.length_singleton, List.length_nil] at lengths
  omega

theorem IsName.longer (isName : IsName name) : IsName (name ++ ['x']) := by
  intro c member
  rcases List.mem_append.mp member with inside | last
  · exact isName c inside
  · rw [List.mem_singleton.mp last]
    decide

theorem renames_longer (isName : IsName name) (before after : List Char) :
    Renames (before ++ '{' :: (name ++ '}' :: after))
      (before ++ '{' :: ((name ++ ['x']) ++ '}' :: after)) :=
  (Renames.refl before).append (.name isName isName.longer (.refl after))

/-- Two texts with other names than each other start with the same character. -/
theorem Renames.head?_eq (renames : Renames s t) : t.head? = s.head? := by
  cases renames <;> rfl

/-- Names do not matter for the id of a path that starts with a slash. -/
theorem same_id_of_slash (slash : (url path).head? = some '/') (renames : RenamesPath path path') :
    resourceId path' = resourceId path := by
  have same : normalUrl (url path') = normalUrl (url path) := by
    apply normalUrl_of_renames renames.url
    obtain ⟨r, front⟩ := List.head?_eq_some_iff.mp slash
    obtain ⟨r', front'⟩ := List.head?_eq_some_iff.mp (renames.url.head?_eq.trans slash)
    obtain ⟨rest, parts⟩ := segments_of_slash r
    obtain ⟨rest', parts'⟩ := segments_of_slash r'
    have first := renames.first
    rw [front, front', parts, parts'] at *
    rintro i a b stands stands' (rfl | ⟨rfl, placeholder⟩)
    · cases stands
      cases stands'
      rfl
    · cases stands
      cases stands'
      exact first placeholder
  rw [resourceId_eq, resourceId_eq, same, renames.query]

/-- Without a slash at the front names do not matter if the first segment has none that may be
replaced, and the second one is no placeholder. -/
theorem same_id_of_no_slash (noSlash : (url path).head? ≠ some '/')
    (first : isPlaceholder (firstSegment (url path)) ∨ ¬ HasPlaceholder (firstSegment (url path)))
    (second : ∀ s, (segments (url path))[1]? = some s → ¬ isPlaceholder s)
    (renames : RenamesPath path path') : resourceId path' = resourceId path := by
  have same : normalUrl (url path') = normalUrl (url path) := by
    apply normalUrl_of_renames renames.url
    rintro i a b stands stands' (rfl | ⟨rfl, placeholder⟩)
    · obtain ⟨rest, parts⟩ := segments_of_no_slash noSlash
      obtain ⟨rest', parts'⟩ := segments_of_no_slash (renames.url.head?_eq ▸ noSlash)
      have single := segments_of_renames renames.url
      rw [parts] at stands single
      rw [parts'] at stands' single
      cases stands
      cases stands'
      rcases first with placeholder | plain
      · exact renames.first placeholder
      · cases single with
        | cons single _ => exact single.eq_of_no_placeholder plain
    · exact absurd placeholder (second a stands)
  rw [resourceId_eq, resourceId_eq, same, renames.query]

/-- A placeholder that is only a part of what stands before the first slash keeps its name. -/
theorem first_shown (noSlash : (url path).head? ≠ some '/')
    (part : ¬ isPlaceholder (firstSegment (url path)))
    (has : HasPlaceholder (firstSegment (url path))) :
    ∃ path', RenamesPath path path' ∧ resourceId path' ≠ resourceId path := by
  obtain ⟨rest, parts⟩ := segments_of_no_slash noSlash
  obtain ⟨before, name, after, eq, unbraced⟩ := has
  have member : firstSegment (url path) ∈ segments (url path) := by
    rw [parts]
    exact List.mem_cons_self
  have isName : IsName name := by
    apply isName_of_segment member _ unbraced
    intro c inside
    simp [eq, inside]
  -- A longer name is another name, and lower case does not hide its length.
  have renames : List.Forall₂ Renames (segments (url path))
      ((before ++ '{' :: ((name ++ ['x']) ++ '}' :: after)) :: rest) := by
    rw [parts, eq]
    exact .cons (renames_longer isName before after) (List.forall₂_same.mpr fun s _ => .refl s)
  obtain ⟨path', url', parts', query⟩ := exists_renamed renames
  refine ⟨path', ⟨url', fun placeholder => absurd placeholder part, query⟩, fun same => ?_⟩
  have shown := segment_of_same_id same 0 (by rw [parts]; rfl) (by rw [parts']; rfl)
  rw [eq] at shown
  exact toLower_longer_ne before name after shown

/-- A placeholder between the first slash and the next one keeps its name, also if there is a
segment in front of it. -/
theorem second_shown (noSlash : (url path).head? ≠ some '/')
    (stands : (segments (url path))[1]? = some s) (placeholder : isPlaceholder s) :
    ∃ path', RenamesPath path path' ∧ resourceId path' ≠ resourceId path := by
  obtain ⟨rest, parts⟩ := segments_of_no_slash noSlash
  obtain ⟨name, unbraced, eq⟩ := isPlaceholder_iff.mp placeholder
  have isName : IsName name := by
    apply isName_of_segment (List.mem_of_getElem? stands) _ unbraced
    intro c inside
    simp [eq, inside]
  obtain ⟨behind, rfl⟩ : ∃ behind, rest = s :: behind := by
    rw [parts] at stands
    exact List.head?_eq_some_iff.mp (by simpa [List.head?_eq_getElem?] using stands)
  have longer := renames_longer isName [] []
  have renames : List.Forall₂ Renames (segments (url path))
      (firstSegment (url path) :: ('{' :: ((name ++ ['x']) ++ ['}'])) :: behind) := by
    rw [parts, eq]
    exact .cons (.refl _) (.cons longer (List.forall₂_same.mpr fun s _ => .refl s))
  obtain ⟨path', url', parts', query⟩ := exists_renamed renames
  obtain ⟨rest', front'⟩ := segments_of_no_slash (url'.head?_eq ▸ noSlash)
  have first : firstSegment (url path') = firstSegment (url path) :=
    (List.cons.inj (front'.symm.trans parts')).1
  refine ⟨path', ⟨url', fun _ => first, query⟩, fun same => ?_⟩
  have shown := segment_of_same_id same 1 stands (by rw [parts']; rfl)
  have kept' : isPlaceholder ('{' :: ((name ++ ['x']) ++ ['}'])) :=
    isPlaceholder_iff.mpr ⟨_, isName.longer.unbraced, rfl⟩
  rw [normalSegment, normalSegment, if_pos (.inr ⟨rfl, kept'⟩), if_pos (.inr ⟨rfl, placeholder⟩),
    eq] at shown
  exact toLower_longer_ne [] name [] shown

/-- The names in a path do not matter for its id exactly if the path starts with a slash, or has in
its first segment no placeholder but one that is all of it, and another one is not the second. -/
theorem names_do_not_matter_iff (path : String) :
    (∀ path', RenamesPath path path' → resourceId path' = resourceId path) ↔
      (url path).head? = some '/' ∨
        (isPlaceholder (firstSegment (url path)) ∨ ¬ HasPlaceholder (firstSegment (url path))) ∧
        ∀ s, (segments (url path))[1]? = some s → ¬ isPlaceholder s := by
  constructor
  · intro all
    by_cases slash : (url path).head? = some '/'
    · exact .inl slash
    · right
      constructor
      · by_cases whole : isPlaceholder (firstSegment (url path))
        · exact .inl whole
        · right
          intro has
          obtain ⟨path', renames, differ⟩ := first_shown slash whole has
          exact differ (all path' renames)
      · intro s stands placeholder
        obtain ⟨path', renames, differ⟩ := second_shown slash stands placeholder
        exact differ (all path' renames)
  · rintro (slash | ⟨first, second⟩) path' renames
    · exact same_id_of_slash slash renames
    · by_cases slash : (url path).head? = some '/'
      · exact same_id_of_slash slash renames
      · exact same_id_of_no_slash slash first second renames

/-- The name of a widget does not matter behind a slash at the front, and it does without one. -/
theorem widget_names_matter_without_slash :
    (∀ path, RenamesPath "/widgets/{name}" path → resourceId path = "/widgets/{}") ∧
    ¬ ∀ path, RenamesPath "widgets/{name}" path → resourceId path = "widgets/{name}" := by
  have slashed : resourceId "/widgets/{name}" = "/widgets/{}" := by decide +kernel
  have bare : resourceId "widgets/{name}" = "widgets/{name}" := by decide +kernel
  constructor
  · rw [← slashed]
    exact (names_do_not_matter_iff _).mpr (.inl (by decide +kernel))
  · intro all
    rw [← bare] at all
    rcases (names_do_not_matter_iff _).mp all with slash | ⟨-, second⟩
    · exact absurd slash (by decide +kernel)
    · exact second "{name}".toList (by decide +kernel) (by decide +kernel)

/-- Two spellings of one path without a slash at the front. -/
theorem widget_names_renamed : RenamesPath "widgets/{name}" "widgets/{id}" where
  url := by
    have old : url "widgets/{name}" = "widgets/".toList ++ '{' :: ("name".toList ++ ['}']) := by
      decide +kernel
    have new : url "widgets/{id}" = "widgets/".toList ++ '{' :: ("id".toList ++ ['}']) := by
      decide +kernel
    rw [old, new]
    exact (Renames.refl _).append (.name (by decide) (by decide) .nil)
  first := by decide +kernel
  query := by decide +kernel

theorem widget_names_shown : RenamesPath "widgets/{name}" "widgets/{id}" ∧
    resourceId "widgets/{name}" = "widgets/{name}" ∧ resourceId "widgets/{id}" = "widgets/{id}" :=
  ⟨widget_names_renamed, by decide +kernel, by decide +kernel⟩

end WireSchema.Route
