import WireSchema.Proofs.Origins

/-! What becomes of the headers of declared responses. They are those of an emitted response for the
same status, or it is reported that the declaration gave way to another one, except for those of a
success that joins one of its own type. -/
namespace WireSchema

open ConvertM

/-- An emitted response that stands for a declared one: it has the code of the status. An error has
a response of its own as well, which is followed by those of the errors declared after it. -/
def StandsFor (status : StatusClass) (after : List ResponseDecl) (rs : List Response)
    (r : Response) : Prop :=
  (∃ code ∈ status.codes?.getD [], code ∈ r.statusCodes.getD []) ∨
    status.bucket = .errors ∧ rs.reverse[(heads .errors after).length]? = some r

/-- A header is kept if a response has it that stands for the declared one. -/
def HeaderKept (name : String) (status : StatusClass) (after : List ResponseDecl)
    (rs : List Response) : Prop :=
  ∃ r ∈ rs, StandsFor status after rs r ∧ name ∈ r.headers.getD []

/-- Whether it is reported that a declaration gave way: one that finds its bucket closed in what is
reported about itself, a success in what is reported about those after it. -/
def GaveWay (status : StatusClass) (own later : Diagnostics) : Prop :=
  match status.bucket with
  | .success => ∃ d ∈ later, d.code = .duplicatedSuccess2xx
  | .accepted => ∃ d ∈ own, d.code = .duplicatedSuccess202
  | .noContent => ∃ d ∈ own, d.code = .duplicatedSuccess204
  | .redirect => ∃ d ∈ own, d.code = .duplicatedRedirect
  | .errors => False

/-- A success joins one of its own type that lacks a header, and no other type takes the bucket over
from them later. -/
def JoinsUnheard (name : String) (before : List ResponseDecl) (decl : ResponseDecl)
    (after : List ResponseDecl) : Prop :=
  decl.succeeds ∧ ∃ holder, successHolder before = some holder ∧
    sameType holder.type decl.type ∧ name ∉ holder.headers.map (·.name) ∧
    ∀ d ∈ after, d.succeeds → sameType holder.type d.type

section Kept

variable {name target : String} {decls before after : List ResponseDecl} {decl : ResponseDecl}
  {status : StatusClass} {bucket : Bucket} {code : Nat}

theorem headerKept_withoutBody (rs : List Response) :
    HeaderKept name status after (rs.map (·.withoutBody)) ↔ HeaderKept name status after rs := by
  constructor
  · rintro ⟨_, member, coded | ⟨fails, own⟩, has⟩
    · obtain ⟨r, listed, rfl⟩ := List.mem_map.mp member
      exact ⟨r, listed, .inl coded, has⟩
    · rw [← List.map_reverse, List.getElem?_map] at own
      obtain ⟨r, here, rfl⟩ := Option.map_eq_some_iff.mp own
      exact ⟨r, List.mem_reverse.mp (List.mem_of_getElem? here), .inr ⟨fails, here⟩, has⟩
  · rintro ⟨r, member, stands, has⟩
    refine ⟨r.withoutBody, List.mem_map_of_mem member, ?_, has⟩
    rcases stands with coded | ⟨fails, own⟩
    · exact .inl coded
    · refine .inr ⟨fails, ?_⟩
      rw [← List.map_reverse, List.getElem?_map, own, Option.map_some]

theorem getD_headerNames (decl : ResponseDecl) :
    decl.headerNames.getD [] = decl.headers.map (·.name) := by
  unfold ResponseDecl.headerNames
  split
  · rename_i empty
    simp [List.isEmpty_iff.mp empty]
  · rfl

theorem mem_heads {r : Response} : r ∈ heads bucket decls ↔
    ∃ decl ∈ decls, ∃ status, decl.outcome? = some status ∧ status.bucket = bucket ∧
      decl.head status = r := by
  simp [heads, ResponseDecl.headIn?, and_assoc]

/-- A code is of one class only. -/
theorem ofCode?_of_mem_codes? (known : decl.outcome? = some status)
    (member : code ∈ status.codes?.getD []) : StatusClass.ofCode? code = some status := by
  obtain ⟨declared, -, classified⟩ := Option.bind_eq_some_iff.mp known
  have ofCode (n : Nat) (same : StatusClass.ofCode? n = some status) :
      StatusClass.ofCode? code = some status := by
    obtain rfl : code = n := by
      unfold StatusClass.ofCode? at same
      repeat' split at same
      all_goals cases same
      all_goals simp_all [StatusClass.codes?]
    exact same
  cases declared with
  | code n => exact ofCode n classified
  | range first last =>
    simp only [StatusClass.ofStatus?] at classified
    split at classified
    · cases classified
      cases member
    · cases classified
  | other text =>
    simp only [StatusClass.ofStatus?] at classified
    split at classified
    · cases classified
      cases member
    · obtain ⟨n, -, same⟩ := Option.bind_eq_some_iff.mp classified
      exact ofCode n same

theorem bucket_of_mem_heads {r : Response} (member : r ∈ heads bucket decls)
    (coded : code ∈ r.statusCodes.getD []) :
    ∃ status, StatusClass.ofCode? code = some status ∧ status.bucket = bucket := by
  obtain ⟨decl, -, status, known, its, rfl⟩ := mem_heads.mp member
  exact ⟨status, ofCode?_of_mem_codes? known coded, its⟩

theorem mem_emittedHeads {r : Response} : r ∈ emittedHeads decls ↔
    successHead decls = some r ∨ (heads .accepted decls).head? = some r ∨
      (heads .noContent decls).head? = some r ∨ (heads .redirect decls).head? = some r ∨
      r ∈ heads .errors decls := by
  simp [emittedHeads]

theorem headerKept_error (known : decl.outcome? = some status) (fails : status.bucket = .errors)
    (listed : name ∈ decl.headers.map (·.name)) :
    HeaderKept name status after (emittedHeads (before ++ decl :: after)) := by
  have one : decl.headIn? .errors = some (decl.head status) := by
    rw [headIn?_of_known .errors known, if_pos fails]
  have errors : heads .errors (before ++ decl :: after) =
      heads .errors before ++ decl.head status :: heads .errors after := by
    simp [heads, one]
  have own : (emittedHeads (before ++ decl :: after)).reverse[(heads .errors after).length]? =
      some (decl.head status) := by
    rw [emittedHeads, errors]
    simp
  refine ⟨_, List.mem_reverse.mp (List.mem_of_getElem? own), .inr ⟨fails, own⟩, ?_⟩
  rwa [← getD_headerNames] at listed

/-- Of a bucket that keeps the first response, either this is the declared one, or the bucket is
closed to it. -/
theorem headerKept_or_closed (known : decl.outcome? = some status)
    (coded : (status.codes?.getD []).isEmpty = false) (diagnostic : DiagnosticCode)
    (emitted : ∀ r, (heads status.bucket (before ++ decl :: after)).head? = some r →
      r ∈ emittedHeads (before ++ decl :: after))
    (listed : name ∈ decl.headers.map (·.name)) :
    HeaderKept name status after (emittedHeads (before ++ decl :: after)) ∨
      ∃ d ∈ closedReports target before status.bucket diagnostic, d.code = diagnostic := by
  cases earlier : heads status.bucket before with
  | nil =>
    have one : decl.headIn? status.bucket = some (decl.head status) := by
      rw [headIn?_of_known _ known, if_pos rfl]
    have first : (heads status.bucket (before ++ decl :: after)).head? =
        some (decl.head status) := by
      rw [heads] at earlier ⊢
      simp [earlier, one]
    obtain ⟨code, member⟩ := List.exists_mem_of_ne_nil _ (by simpa using coded)
    refine .inl ⟨_, emitted _ first, .inl ⟨code, member, member⟩, ?_⟩
    rwa [← getD_headerNames] at listed
  | cons r rest => exact .inr (by simp [closedReports, earlier])

/-- The one success has the code of each that is declared, and the headers of the holder. -/
theorem exists_successHead (known : decl.outcome? = some (.success code)) (member : decl ∈ decls) :
    ∃ r, successHead decls = some r ∧ code ∈ r.statusCodes.getD [] ∧
      r.headers = (successHolder decls).bind ResponseDecl.headerNames := by
  have its : decl.head (.success code) ∈ heads .success decls :=
    mem_heads.mpr ⟨decl, member, _, known, rfl, rfl⟩
  obtain ⟨first, rest, listed⟩ := List.exists_cons_of_ne_nil (List.ne_nil_of_mem its)
  refine ⟨_, by rw [successHead, listed, List.head?_cons, Option.map_some], ?_, rfl⟩
  rw [Option.getD_some, successCodes, List.mem_eraseDups]
  exact List.mem_filterMap.mpr ⟨decl, member, successCode?_eq_some_iff.mpr known⟩

/-- No other response has a code of success. -/
theorem headerKept_success_iff (known : decl.outcome? = some (.success code))
    (member : decl ∈ decls) : HeaderKept name (.success code) after (emittedHeads decls) ↔
      name ∈ ((successHolder decls).bind ResponseDecl.headerNames).getD [] := by
  obtain ⟨success, emitted, coded, headers⟩ := exists_successHead known member
  rw [← headers]
  constructor
  · rintro ⟨r, listed, ⟨n, its, has⟩ | ⟨⟨⟩, -⟩, kept⟩
    obtain rfl : n = code := List.mem_singleton.mp its
    have its_class : StatusClass.ofCode? n = some (.success n) :=
      ofCode?_of_mem_codes? known (List.mem_singleton_self n)
    have apart {bucket : Bucket} (other : r ∈ heads bucket decls) : bucket = .success := by
      obtain ⟨status, same, rfl⟩ := bucket_of_mem_heads other has
      obtain rfl := Option.some.inj (its_class.symm.trans same)
      rfl
    rcases mem_emittedHeads.mp listed with here | accepted | noContent | redirect | fails
    · obtain rfl := Option.some.inj (emitted.symm.trans here)
      exact kept
    · cases apart (List.mem_of_head? accepted)
    · cases apart (List.mem_of_head? noContent)
    · cases apart (List.mem_of_head? redirect)
    · cases apart fails
  · intro kept
    refine ⟨success, mem_emittedHeads.mpr (.inl emitted), .inl ?_, kept⟩
    exact ⟨code, List.mem_singleton_self code, coded⟩

/-- A success keeps its headers or gives way with a report, unless it joins another one. -/
theorem success_kept_iff (known : decl.outcome? = some (.success code))
    (listed : name ∈ decl.headers.map (·.name)) :
    HeaderKept name (.success code) after (emittedHeads (before ++ decl :: after)) ∨
        (∃ d ∈ responseReports target (before ++ [decl]) after, d.code = .duplicatedSuccess2xx) ↔
      ¬ JoinsUnheard name before decl after := by
  have succeeds : decl.succeeds := by
    rw [succeeds_of_known known]
    rfl
  by_cases reported : ∃ d ∈ responseReports target (before ++ [decl]) after,
      d.code = .duplicatedSuccess2xx
  · refine iff_of_true (.inr reported) ?_
    rintro ⟨-, holder, holds, same, -, agree⟩
    have held := successHolder_concat_of_agrees holds fun _ => same
    obtain ⟨d, member, later, differs⟩ := (takeOvers_reported_iff held).mp reported
    exact differs (agree d member later)
  -- Nothing takes over later, so that the holder after the declaration is the last one.
  have stays {holder : ResponseDecl} (held : successHolder (before ++ [decl]) = some holder) :
      (∀ d ∈ after, d.succeeds → sameType holder.type d.type) ∧
        (HeaderKept name (.success code) after (emittedHeads (before ++ decl :: after)) ↔
          name ∈ holder.headers.map (·.name)) := by
    have agree : ∀ d ∈ after, d.succeeds → sameType holder.type d.type := by
      simpa [takeOvers_reported_iff held] using reported
    refine ⟨agree, ?_⟩
    rw [headerKept_success_iff known (by simp), List.append_cons, successHolder_append held agree,
      Option.bind_some, getD_headerNames]
  rw [or_iff_left reported]
  rcases successHolder_concat_cases succeeds with ⟨took, held⟩ | ⟨holder, holds, same, held⟩
  · refine iff_of_true ((stays held).2.mpr listed) ?_
    rintro ⟨-, holder, holds, same, -⟩
    exact took holder holds same
  · obtain ⟨agree, kept⟩ := stays held
    rw [kept]
    constructor
    · rintro has ⟨-, _, holds', -, lacks, -⟩
      obtain rfl := Option.some.inj (holds.symm.trans holds')
      exact lacks has
    · intro heard
      by_contra lacks
      exact heard ⟨succeeds, holder, holds, same, lacks, agree⟩

theorem mem_reportsAbout_of_bucket (known : decl.outcome? = some status) {d : Diagnostic}
    (member : d ∈ bucketReports target before decl status) :
    d ∈ reportsAbout target before decl := by
  obtain ⟨declared, present, classified⟩ := Option.bind_eq_some_iff.mp known
  simp only [reportsAbout, present, classified]
  exact List.mem_append_right _ member

theorem kept_or_gaveWay_iff (known : decl.outcome? = some status)
    (listed : name ∈ decl.headers.map (·.name)) :
    HeaderKept name status after (emittedHeads (before ++ decl :: after)) ∨
        GaveWay status (reportsAbout target before decl)
          (responseReports target (before ++ [decl]) after) ↔
      ¬ JoinsUnheard name before decl after := by
  have alone (other : status.bucket ≠ .success) : ¬ JoinsUnheard name before decl after := by
    rintro ⟨succeeds, -⟩
    rw [succeeds_of_known known, decide_eq_true_iff] at succeeds
    exact other succeeds
  have closed {code : DiagnosticCode}
      (member : ∃ d ∈ closedReports target before status.bucket code, d.code = code)
      (reports : bucketReports target before decl status =
        closedReports target before status.bucket code) :
      ∃ d ∈ reportsAbout target before decl, d.code = code := by
    obtain ⟨d, here, same⟩ := member
    exact ⟨d, mem_reportsAbout_of_bucket known (reports ▸ here), same⟩
  cases status with
  | success code => exact success_kept_iff known listed
  | error code => exact iff_of_true (.inl (headerKept_error known rfl listed)) (alone nofun)
  | accepted =>
    refine iff_of_true ?_ (alone nofun)
    exact (headerKept_or_closed known rfl .duplicatedSuccess202
      (fun r first => mem_emittedHeads.mpr (.inr (.inl first))) listed).imp_right (closed · rfl)
  | noContent =>
    refine iff_of_true ?_ (alone nofun)
    exact (headerKept_or_closed known rfl .duplicatedSuccess204
      (fun r first => mem_emittedHeads.mpr (.inr (.inr (.inl first)))) listed).imp_right
      (closed · rfl)
  | redirect code =>
    refine iff_of_true ?_ (alone nofun)
    exact (headerKept_or_closed known rfl .duplicatedRedirect
      (fun r first => mem_emittedHeads.mpr (.inr (.inr (.inr (.inl first))))) listed).imp_right
      (closed · rfl)

end Kept

namespace Assembler

/-- A header of a declared response is kept, or it is reported that the declaration gave way, unless
it is a success that joins another one. What is reported about responses is what is reported about
those before it, about itself and about those after it. -/
theorem header_kept_or_reported_iff (a : Assembler) (stage : Stage) {ds ds' : Diagnostics}
    {rs : List Response} {classes : OrderedMap String Schema}
    (run : Yields (a.responses stage) ds (rs, classes) ds') {before after : List ResponseDecl}
    {decl : ResponseDecl} (declared : a.operation.responses = before ++ decl :: after)
    {status : StatusClass} (known : decl.outcome? = some status) {name : String}
    (listed : name ∈ decl.headers.map (·.name)) :
    ∃ reports earlier own later, ds' = ds ++ reports ∧
      reports.filter (·.code.isOfResponses) = earlier ++ own ++ later ∧
      earlier = responseReports a.operationId [] before ∧
      own = reportsAbout a.operationId before decl ∧
      later = responseReports a.operationId (before ++ [decl]) after ∧
      (HeaderKept name status after rs ∨ GaveWay status own later ↔
        ¬ JoinsUnheard name before decl after) := by
  obtain ⟨b, names, rfl, sorted, -, reports, grown, told⟩ := exists_buckets run
  refine ⟨reports, _, _, _, grown, ?_, rfl, rfl, rfl, ?_⟩
  · rw [told, declared, responseReports_append, responseReports, List.nil_append, List.append_assoc]
  · have emitted : (b.ordered.map (·.resolve names)).map (·.withoutBody) =
        emittedHeads (before ++ decl :: after) := by
      rw [← declared, ← sorted.ordered, List.map_map]
      rfl
    rw [← headerKept_withoutBody, emitted]
    exact kept_or_gaveWay_iff known listed

theorem upsert_location_kept : ∃ rs classes ds ok created,
    Yields (upsert.responses .create) [] (rs, classes) ds ∧
      upsert.operation.responses = [ok, created] ∧
      created.outcome? = some (.success 201) ∧ HeaderKept "Location" (.success 201) [] rs := by
  obtain ⟨⟨rs, classes⟩, ds, run⟩ :=
    exists_yields (x := upsert.responses .create) (g := []) (by decide +kernel)
  obtain ⟨ok, created, declared, known, listed, takes⟩ : ∃ ok created,
      upsert.operation.responses = [ok] ++ created :: [] ∧
        created.outcome? = some (.success 201) ∧ "Location" ∈ created.headers.map (·.name) ∧
        ¬ JoinsUnheard "Location" [ok] created [] := by
    refine ⟨_, _, rfl, rfl, by decide +kernel, ?_⟩
    rintro ⟨-, holder, ⟨⟩, same, -⟩
    exact absurd same (by decide +kernel)
  obtain ⟨reports, earlier, own, later, -, -, -, -, rfl, kept⟩ :=
    header_kept_or_reported_iff upsert .create run declared known listed
  refine ⟨rs, classes, ds, ok, created, run, declared, known, (kept.mpr takes).resolve_right ?_⟩
  rintro ⟨d, ⟨⟩, -⟩

def creation : Assembler where
  graph := { version := "1" }
  operationId := "Widgets_Put"
  host := []
  operation := {
    name := "put"
    verb := .put
    path := "/widgets"
    responses := [
      { status := some (.code 200), type := some (.named "string") },
      { status := some (.code 201), type := some (.named "string")
        headers := [{ name := "Location" }] }] }

/-- The second response joins the first one of its type, which has no headers. -/
theorem creation_location_lost : ∃ rs classes ok created,
    Yields (creation.responses .create) [] (rs, classes) [] ∧
      creation.operation.responses = [ok, created] ∧ created.outcome? = some (.success 201) ∧
      "Location" ∈ created.headers.map (·.name) ∧ ∀ r ∈ rs, "Location" ∉ r.headers.getD [] := by
  refine ⟨_, _, _, _, rfl, rfl, rfl, by decide +kernel, ?_⟩
  decide +kernel

end Assembler
end WireSchema
