import Mathlib.Data.List.TakeWhile
import WireSchema.Proofs.Placeholders

/-! The ids of resources are normal forms. An id is divided at the same places as the path that it
stands for, its segments have no names left to drop, and so it is its own id. -/
namespace WireSchema.Route

open Text

variable {c : Char} {s t : List Char} {parts : List (List Char)} {path : String}

theorem other_of_not_mem (absent : c ∉ s) : ∀ d ∈ s, decide (d ≠ c) = true := by
  intro d member
  apply decide_eq_true
  rintro rfl
  exact absent member

theorem splitQuery_of_not_mem (plain : '?' ∉ s) : splitQuery s = (s, none) := by
  have rest : s.dropWhile (· ≠ '?') = [] :=
    List.dropWhile_eq_nil_iff.mpr (other_of_not_mem plain)
  unfold splitQuery
  rw [rest]

theorem splitQuery_append (plain : '?' ∉ s) (t : List Char) :
    splitQuery (s ++ '?' :: t) = (s, some t) := by
  have other := other_of_not_mem plain
  unfold splitQuery
  rw [List.dropWhile_append_of_pos other, List.takeWhile_append_of_pos other]
  simp

def url (path : String) : List Char := (splitQuery path.toList).1

def query? (path : String) : Option (List Char) := (splitQuery path.toList).2

def queryText : Option (List Char) → List Char
  | none => []
  | some query => '?' :: query

theorem splitQuery_spec (s : List Char) :
    '?' ∉ (splitQuery s).1 ∧ s = (splitQuery s).1 ++ queryText (splitQuery s).2 := by
  by_cases marked : '?' ∈ s
  · obtain ⟨front, behind, rfl, plain⟩ := List.eq_append_cons_of_mem marked
    rw [splitQuery_append plain]
    exact ⟨plain, rfl⟩
  · rw [splitQuery_of_not_mem marked]
    exact ⟨marked, (List.append_nil s).symm⟩

theorem splitQuery_queryText (plain : '?' ∉ s) (query : Option (List Char)) :
    splitQuery (s ++ queryText query) = (s, query) := by
  cases query with
  | none => rw [queryText, List.append_nil, splitQuery_of_not_mem plain]
  | some query => exact splitQuery_append plain query

theorem not_mem_url (path : String) : '?' ∉ url path := (splitQuery_spec path.toList).1

theorem toList_eq (path : String) : path.toList = url path ++ queryText (query? path) :=
  (splitQuery_spec path.toList).2

/-- Every text without the mark of a query is the path before some query. -/
theorem exists_path (plain : '?' ∉ s) (query : Option (List Char)) :
    ∃ path, url path = s ∧ query? path = query := by
  have divided := splitQuery_queryText plain query
  refine ⟨String.ofList (s ++ queryText query), ?_, ?_⟩
  · rw [url, String.toList_ofList, divided]
  · rw [query?, String.toList_ofList, divided]

theorem segments_eq_splitOn (s : List Char) : segments s = s.splitOn '/' := by
  induction s with
  | nil => rfl
  | cons c s ih =>
    rw [List.splitOn_cons_eq_if_modifyHead, ← ih]
    by_cases slash : c = '/'
    · subst slash
      rfl
    · rw [if_neg (by simpa using slash), segments]
      · cases parts : segments s with
        | nil => exact absurd (ih.symm.trans parts) (List.splitOn_ne_nil '/' s)
        | cons => rfl
      · exact slash

theorem segments_ne_nil (s : List Char) : segments s ≠ [] := by
  rw [segments_eq_splitOn]
  exact List.splitOn_ne_nil '/' s

theorem intercalate_segments (s : List Char) : List.intercalate ['/'] (segments s) = s := by
  rw [segments_eq_splitOn]
  exact List.intercalate_splitOn '/'

theorem segments_intercalate (filled : parts ≠ []) (whole : ∀ p ∈ parts, '/' ∉ p) :
    segments (List.intercalate ['/'] parts) = parts := by
  rw [segments_eq_splitOn]
  exact List.splitOn_intercalate '/' whole filled

theorem segments_of_not_mem (plain : '/' ∉ s) : segments s = [s] := by
  rw [segments_eq_splitOn]
  exact List.splitOn_eq_singleton plain

theorem segments_append (plain : '/' ∉ s) (t : List Char) :
    segments (s ++ '/' :: t) = s :: segments t := by
  rw [segments_eq_splitOn, segments_eq_splitOn]
  exact List.splitOn_append_cons_self_of_not_mem plain t

theorem mem_segments {s t : List Char} (member : t ∈ segments s) : '/' ∉ t ∧ t.Sublist s := by
  by_cases slashed : '/' ∈ s
  · obtain ⟨front, behind, rfl, plain⟩ := List.eq_append_cons_of_mem slashed
    rw [segments_append plain] at member
    rcases List.mem_cons.mp member with rfl | later
    · exact ⟨plain, List.sublist_append_left ..⟩
    · obtain ⟨plain', sublist⟩ := mem_segments later
      exact ⟨plain', List.sublist_append_of_sublist_right (sublist.cons '/')⟩
  · rw [segments_of_not_mem slashed, List.mem_singleton] at member
    subst member
    exact ⟨slashed, List.Sublist.refl _⟩
termination_by s.length

theorem mem_intercalate (member : c ∈ List.intercalate ['/'] parts) :
    c = '/' ∨ ∃ p ∈ parts, c ∈ p := by
  induction parts with
  | nil => cases member
  | cons p rest ih =>
    cases rest with
    | nil =>
      rw [List.intercalate_singleton] at member
      exact .inr ⟨p, List.mem_cons_self, member⟩
    | cons q rest =>
      rw [List.intercalate_cons_cons, List.mem_append, List.mem_append] at member
      rcases member with (here | slash) | later
      · exact .inr ⟨p, List.mem_cons_self, here⟩
      · exact .inl (List.mem_singleton.mp slash)
      · exact (ih later).imp_right fun ⟨p, inside, there⟩ =>
          ⟨p, List.mem_cons_of_mem _ inside, there⟩

theorem toLower_intercalate (parts : List (List Char)) :
    toLower (List.intercalate ['/'] parts) = List.intercalate ['/'] (parts.map toLower) := by
  induction parts with
  | nil => rfl
  | cons p rest ih =>
    cases rest with
    | nil => rw [List.intercalate_singleton, List.map_singleton, List.intercalate_singleton]
    | cons q rest =>
      rw [List.map_cons] at ih
      rw [List.map_cons, List.map_cons, List.intercalate_cons_cons, List.intercalate_cons_cons,
        ← ih, List.append_assoc, List.append_assoc]
      exact toLower_append (by decide) p _

def normalUrl (s : List Char) : List Char :=
  toLower (List.intercalate ['/'] ((segments s).mapIdx normalSegment))

theorem resourceId_eq (path : String) :
    resourceId path = String.ofList (normalUrl (url path) ++ queryText (query? path)) := by
  unfold resourceId url query? normalUrl
  rcases splitQuery path.toList with ⟨front, _ | query⟩
  · rfl
  · rfl

theorem normalSegment_sublist (position : Nat) (s : List Char) :
    (normalSegment position s).Sublist s := by
  unfold normalSegment
  split
  · exact List.Sublist.refl s
  · exact dropNames_sublist s

theorem normalSegment_again (position : Nat) (s : List Char) :
    normalSegment position (toLower (normalSegment position s)) =
      toLower (normalSegment position s) := by
  by_cases kept : position = 0 ∨ (position = 1 ∧ isPlaceholder s)
  · have kept' : position = 0 ∨ (position = 1 ∧ isPlaceholder (toLower s)) :=
      kept.imp_right fun first => ⟨first.1, isPlaceholder_toLower first.2⟩
    unfold normalSegment
    rw [if_pos kept, if_pos kept']
  · unfold normalSegment
    rw [if_neg kept]
    split
    · rfl
    · exact dropNames_toLower_dropNames s

theorem segments_normalUrl (s : List Char) :
    segments (normalUrl s) = (segments s).mapIdx fun i t => toLower (normalSegment i t) := by
  have filled : (segments s).mapIdx (fun i t => toLower (normalSegment i t)) ≠ [] := by
    simpa using segments_ne_nil s
  have lowered : ((segments s).mapIdx normalSegment).map toLower =
      (segments s).mapIdx fun i t => toLower (normalSegment i t) := by
    apply List.ext_getElem?
    simp [Function.comp_def]
  rw [normalUrl, toLower_intercalate, lowered]
  apply segments_intercalate filled
  intro t member slash
  obtain ⟨i, inside, rfl⟩ := List.mem_mapIdx.mp member
  have there := mem_of_mark_mem_toLower (by decide) slash
  exact (mem_segments (List.getElem_mem inside)).1 ((normalSegment_sublist i _).subset there)

theorem normalUrl_normalUrl (s : List Char) : normalUrl (normalUrl s) = normalUrl s := by
  -- Segment by segment: lower case makes no slash, so an id has the segments that were put into it.
  have again : (segments (normalUrl s)).mapIdx normalSegment = segments (normalUrl s) := by
    rw [segments_normalUrl, List.mapIdx_mapIdx]
    congr
    funext i t
    exact normalSegment_again i t
  calc normalUrl (normalUrl s)
      = toLower (List.intercalate ['/'] (segments (normalUrl s))) := by rw [normalUrl, again]
    _ = toLower (normalUrl s) := by rw [intercalate_segments]
    _ = normalUrl s := toLower_toLower _

theorem not_mem_normalUrl (plain : '?' ∉ s) : '?' ∉ normalUrl s := by
  intro mark
  rcases mem_intercalate (mem_of_mark_mem_toLower (by decide) mark) with eq | ⟨t, member, inside⟩
  · cases eq
  · obtain ⟨i, bound, rfl⟩ := List.mem_mapIdx.mp member
    have sublist := (mem_segments (List.getElem_mem bound)).2
    exact plain (sublist.subset ((normalSegment_sublist i _).subset inside))

/-- An id is divided into path and query where its path is. -/
theorem splitQuery_resourceId (path : String) :
    splitQuery (resourceId path).toList = (normalUrl (url path), query? path) := by
  rw [resourceId_eq, String.toList_ofList]
  exact splitQuery_queryText (not_mem_normalUrl (not_mem_url path)) _

theorem url_resourceId (path : String) : url (resourceId path) = normalUrl (url path) := by
  rw [url, splitQuery_resourceId]

theorem query?_resourceId (path : String) : query? (resourceId path) = query? path := by
  rw [query?, splitQuery_resourceId]

theorem eq_nil_of_normalUrl_eq_nil (empty : normalUrl s = []) : s = [] := by
  have one := segments_normalUrl s
  rw [empty, segments] at one
  have parts := intercalate_segments s
  cases eq : segments s with
  | nil => exact absurd eq (segments_ne_nil s)
  | cons first rest =>
    rw [eq, List.mapIdx_cons] at one
    obtain ⟨lowered, others⟩ := List.cons.inj one
    have kept : normalSegment 0 first = first := if_pos (.inl rfl)
    rw [kept] at lowered
    rw [eq, eq_nil_of_toLower_eq_nil lowered.symm, List.mapIdx_eq_nil_iff.mp others.symm]
      at parts
    exact parts.symm

/-- Only the empty path has an empty id. -/
theorem eq_empty_of_resourceId (empty : resourceId path = "") : path = "" := by
  have nothing := congrArg String.toList empty
  rw [resourceId_eq, String.toList_ofList] at nothing
  obtain ⟨noUrl, noQuery⟩ := List.append_eq_nil_iff.mp nothing
  rw [← String.toList_inj, toList_eq, noQuery, eq_nil_of_normalUrl_eq_nil noUrl]
  rfl

/-- An id is its own id, and has as many segments as its path. No placeholder in it has a name,
except before the first slash and where a placeholder is all that stands between the first two. -/
theorem resourceId_is_normal (path : String) :
    resourceId (resourceId path) = resourceId path ∧
    (segments (url (resourceId path))).length = (segments (url path)).length ∧
    ∀ position original segment, (segments (url path))[position]? = some original →
      (segments (url (resourceId path)))[position]? = some segment → position ≠ 0 →
      ¬ (position = 1 ∧ isPlaceholder original) → Nameless segment := by
  refine ⟨?_, ?_, ?_⟩
  · rw [resourceId_eq (resourceId path), url_resourceId, query?_resourceId, normalUrl_normalUrl,
      ← resourceId_eq]
  · rw [url_resourceId, segments_normalUrl, List.length_mapIdx]
  · intro position original segment stands stands' behind partly
    rw [url_resourceId, segments_normalUrl, List.getElem?_mapIdx, stands] at stands'
    obtain rfl := Option.some.inj stands'
    have dropped : ¬ (position = 0 ∨ (position = 1 ∧ isPlaceholder original)) :=
      not_or.mpr ⟨behind, partly⟩
    have normal : normalSegment position original = dropNames original := if_neg dropped
    simp only [normal]
    exact nameless_toLower (nameless_dropNames original)

/-- A placeholder before the first slash loses nothing but its capitals, one behind it its name; a
query stays as it is written. -/
theorem items_resourceId_is_normal :
    resourceId "/{Scope}/Items('{itemName}')?kind=Small" = "/{scope}/items('{}')?kind=Small" ∧
    resourceId "/{scope}/items('{}')?kind=Small" = "/{scope}/items('{}')?kind=Small" ∧
    Nameless "items('{}')".toList := by
  have id : resourceId "/{Scope}/Items('{itemName}')?kind=Small" =
      "/{scope}/items('{}')?kind=Small" := by decide +kernel
  have normal := resourceId_is_normal "/{Scope}/Items('{itemName}')?kind=Small"
  rw [id] at normal
  exact ⟨id, normal.1, normal.2.2 2 "Items('{itemName}')".toList _ (by decide +kernel)
    (by decide +kernel) (by decide) (by decide)⟩

end WireSchema.Route
