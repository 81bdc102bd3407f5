import WireSchema.Proofs.Assembly
import WireSchema.Proofs.Heads
import WireSchema.Proofs.Reporting

/-! What becomes of the responses that an operation declares. The buckets of the pass over them
hold, after each declaration, what is to be emitted for those so far, and the pass reports what is
to be reported about them. -/
namespace WireSchema

open ConvertM

def Buckets.responsesIn (b : Buckets) : Bucket → List Response
  | .success => (b.success.map (·.1)).toList
  | .accepted => b.accepted.toList
  | .noContent => b.noContent.toList
  | .redirect => b.redirect.toList
  | .errors => b.errors

/-- What a bucket other than that of the success has of what it is given. -/
def Bucket.keep (bucket : Bucket) (given : List Response) : List Response :=
  if bucket = .errors then given else given.head?.toList

/-- The responses so far are those that are emitted for some declarations. -/
structure Sorted (decls : List ResponseDecl) (b : Buckets) : Prop where
  success : b.success.map (·.1.withoutBody) = successHead decls
  held : b.success.map (·.2) = (successHolder decls).map (·.type)
  others : ∀ bucket, bucket ≠ .success →
    (b.responsesIn bucket).map (·.withoutBody) = bucket.keep (heads bucket decls)

theorem sorted_nil : Sorted [] {} where
  success := rfl
  held := rfl
  others bucket _ := by cases bucket <;> rfl

namespace Sorted

variable {decls : List ResponseDecl} {decl : ResponseDecl} {status : StatusClass} {b b' : Buckets}

theorem ordered (sorted : Sorted decls b) :
    b.ordered.map (·.withoutBody) = emittedHeads decls := by
  have success : (b.success.map (·.1)).map (·.withoutBody) = successHead decls := by
    rw [← sorted.success, Option.map_map]
    rfl
  have first (bucket : Bucket) (single : bucket ≠ .success ∧ bucket ≠ .errors) :
      (b.responsesIn bucket).map (·.withoutBody) = (heads bucket decls).head?.toList := by
    rw [sorted.others bucket single.1, Bucket.keep, if_neg single.2]
  unfold emittedHeads
  rw [← success, ← first .accepted (by decide), ← first .noContent (by decide),
    ← first .redirect (by decide), ← show _ = heads .errors decls from sorted.others .errors nofun]
  simp only [Buckets.ordered, Buckets.responsesIn, List.map_append, Option.toList_map]

/-- A bucket other than that of the success has taken in a response, and nothing else has
changed. -/
theorem fill (sorted : Sorted decls b) (known : decl.outcome? = some status)
    (other : status.bucket ≠ .success) (success : b'.success = b.success)
    (filled : (b'.responsesIn status.bucket).map (·.withoutBody) =
      status.bucket.keep (heads status.bucket decls ++ [decl.head status]))
    (stays : ∀ bucket, status.bucket ≠ bucket → b'.responsesIn bucket = b.responsesIn bucket) :
    Sorted (decls ++ [decl]) b' := by
  obtain ⟨head, holder⟩ := success_concat_other decls fun code here => by
    obtain rfl := Option.some.inj (known.symm.trans here)
    exact other rfl
  refine ⟨?_, ?_, fun bucket apart => ?_⟩
  · rw [success, head, sorted.success]
  · rw [success, holder, sorted.held]
  · rw [heads_concat_of_known _ known]
    by_cases its : status.bucket = bucket
    · subst its
      rw [if_pos rfl, filled]
    · rw [if_neg its, List.append_nil, stays bucket its, sorted.others bucket apart]

/-- A declaration of an unknown class changes nothing. -/
theorem pass (sorted : Sorted decls b) (unknown : decl.outcome? = none) :
    Sorted (decls ++ [decl]) b := by
  obtain ⟨head, holder⟩ := success_concat_other decls fun code here => by
    cases unknown.symm.trans here
  refine ⟨?_, ?_, fun bucket apart => ?_⟩
  · rw [head, sorted.success]
  · rw [holder, sorted.held]
  · rw [heads_concat, headIn?_of_unknown bucket unknown, sorted.others bucket apart]
    simp

end Sorted

def ResponseDecl.response (decl : ResponseDecl) (status : StatusClass)
    (body : Option ResponseBody) : Response := { decl.head status with statusCodes := none, body }

namespace Converter

/-- The types that were seen are those of some declarations. -/
def Remembers (decls : List ResponseDecl) (seen : SeenTypes) : Prop :=
  ∀ text, seen.lookup text = lastType? text decls

variable {c : Converter} {b : Buckets} {decls : List ResponseDecl} {decl : ResponseDecl}
  {status : StatusClass} {seen : SeenTypes}

/-- Of the responses for a bucket with room for one the first is kept. -/
theorem keepFirst_tells (sorted : Sorted decls b) (bucket : Bucket)
    (single : bucket ≠ .success ∧ bucket ≠ .errors) {first : Option Response}
    (there : b.responsesIn bucket = first.toList) {code : DiagnosticCode}
    (ofResponses : code.isOfResponses) (response : Response) :
    Tells (c.keepFirst first response code) fun r said =>
      r.toList.map (·.withoutBody) = bucket.keep (heads bucket decls ++ [response.withoutBody]) ∧
        said = closedReports c.target decls bucket code := by
  have kept := sorted.others bucket single.1
  rw [there] at kept
  unfold Bucket.keep at kept ⊢
  rw [if_neg single.2] at kept ⊢
  cases before : heads bucket decls with
  | nil =>
    rw [before] at kept
    cases first with
    | none => exact .pure (by simp [closedReports, before])
    | some first => cases kept
  | cons head rest =>
    rw [before] at kept
    cases first with
    | none => cases kept
    | some first =>
      refine (Tells.report c ofResponses _).bind fun _ said told => .pure ?_
      subst told
      exact ⟨by simpa using kept, by simp [closedReports, before]⟩

/-- A success joins those before it, or it takes over from them. -/
theorem placeSuccess_tells (sorted : Sorted decls b) {code : Nat}
    (known : decl.outcome? = some (.success code)) (body : Option ResponseBody) :
    Tells (c.placeSuccess b code (decl.response (.success code) body) decl.type) fun b' said =>
      (b'.success.map (·.1.withoutBody) = successHead (decls ++ [decl]) ∧
        b'.success.map (·.2) = (successHolder (decls ++ [decl])).map (·.type) ∧
        b' = { b with success := b'.success }) ∧
      said = bucketReports c.target decls decl (.success code) := by
  have one : decl.headIn? .success = some (decl.head (.success code)) := headIn?_of_known _ known
  have coded : decl.successCode? = some code := successCode?_eq_some_iff.mpr known
  have head := sorted.success
  have held := sorted.held
  rw [successHead] at head
  rw [successHead, heads_concat, one, successHolder_concat, takeOver, known, successCodes_concat,
    coded]
  unfold placeSuccess
  cases success : b.success with
  | none =>
    rw [success] at head held
    have undeclared : heads .success decls = [] := by simpa using head.symm
    have unheld : successHolder decls = none := by simpa using held.symm
    refine .pure ?_
    simp [undeclared, unheld, successCodes_eq_nil undeclared, bucketReports, StatusClass.bucket,
      Response.withoutBody, ResponseDecl.response, ResponseDecl.head]
  | some s =>
    obtain ⟨existing, type⟩ := s
    rw [success] at head held
    obtain ⟨holder, holds, rfl⟩ := Option.map_eq_some_iff.mp held.symm
    obtain ⟨first, is_first, kept⟩ := Option.map_eq_some_iff.mp head.symm
    obtain ⟨rest, listed⟩ := List.head?_eq_some_iff.mp is_first
    obtain ⟨codes, isError, description, headers, empty⟩ :
        some (successCodes decls) = existing.statusCodes ∧ first.isError = existing.isError ∧
          first.description = existing.description ∧ holder.headerNames = existing.headers ∧
          first.body = none := by
      simpa [holds, Response.withoutBody] using kept
    simp only [listed, holds, bucketReports]
    split
    · rename_i same
      refine .pure ?_
      simp [same, ← codes, isError, description, headers, empty, StatusClass.bucket,
        Buckets.addCode, Response.withoutBody]
    · rename_i differ
      refine (Tells.report c rfl _).bind fun _ said reported => .pure ?_
      subst reported
      simp [differ, ← codes, isError, description, empty, StatusClass.bucket, Buckets.addCode,
        Response.withoutBody, ResponseDecl.response, ResponseDecl.head]

/-- A response of a known class is put into the bucket of its class, and the others stay. -/
theorem place_tells (sorted : Sorted decls b) (known : decl.outcome? = some status)
    (body : Option ResponseBody) :
    Tells (c.place b status (decl.response status body) decl.type) fun b' said =>
      Sorted (decls ++ [decl]) b' ∧ said = bucketReports c.target decls decl status := by
  cases status with
  | success code =>
    refine (placeSuccess_tells sorted known body).mono fun b' said ⟨⟨success, held, same⟩, told⟩ =>
      ⟨⟨success, held, fun bucket apart => ?_⟩, told⟩
    have stays : b'.responsesIn bucket = b.responsesIn bucket := by
      rw [same]
      cases bucket <;> first | rfl | exact absurd rfl apart
    have unlike : (StatusClass.success code).bucket ≠ bucket := Ne.symm apart
    rw [stays, heads_concat_of_known _ known, if_neg unlike, List.append_nil,
      sorted.others bucket apart]
  | accepted =>
    refine (keepFirst_tells sorted .accepted ⟨nofun, nofun⟩ rfl rfl _).bind
      fun r said ⟨kept, told⟩ => .pure ⟨?_, by simp [told, bucketReports]⟩
    refine sorted.fill known nofun rfl kept fun bucket apart => ?_
    cases bucket <;> first | rfl | exact absurd rfl apart
  | noContent =>
    refine (keepFirst_tells sorted .noContent ⟨nofun, nofun⟩ rfl rfl _).bind
      fun r said ⟨kept, told⟩ => .pure ⟨?_, by simp [told, bucketReports]⟩
    refine sorted.fill known nofun rfl kept fun bucket apart => ?_
    cases bucket <;> first | rfl | exact absurd rfl apart
  | redirect code =>
    refine (keepFirst_tells sorted .redirect ⟨nofun, nofun⟩ rfl rfl _).bind
      fun r said ⟨kept, told⟩ => .pure ⟨?_, by simp [told, bucketReports]⟩
    refine sorted.fill known nofun rfl kept fun bucket apart => ?_
    cases bucket <;> first | rfl | exact absurd rfl apart
  | error code =>
    refine .pure ⟨sorted.fill known nofun rfl ?_ fun bucket apart => ?_, rfl⟩
    · have before : b.errors.map (·.withoutBody) = heads .errors decls :=
        sorted.others .errors nofun
      simp only [Buckets.responsesIn, StatusClass.bucket, List.map_append, before]
      rfl
    · cases bucket <;> first | rfl | exact absurd rfl apart

theorem responseBody_tells (b : Buckets) (status : StatusClass) (decl : ResponseDecl)
    (text : String) :
    Tells (c.responseBody b status decl text) fun _ said => said = [] := by
  unfold responseBody
  split
  · exact .ofExcept
  split
  · exact .pure rfl
  split
  · exact .pure rfl
  · exact .ofTypes (c.convert_onTypes ..)

theorem addClassified_tells (sorted : Sorted decls b) (remembers : Remembers decls seen)
    (known : decl.outcome? = some status) (text : String) :
    Tells (c.addClassified b seen decl text status) fun state said =>
      Sorted (decls ++ [decl]) state.1 ∧ state.2 = (text, decl.type) :: seen ∧
        said = (if (lastType? text decls).any fun type => !sameType type decl.type then
          [⟨.duplicateBodyTypes, "status `" ++ text ++ "` is declared with different bodies",
            c.target⟩]
        else []) ++ bucketReports c.target decls decl status := by
  unfold addClassified
  rw [remembers text]
  refine .guard (Tells.report c rfl _) (Tells.ofExcept.bind fun _ said silent => ?_)
  subst silent
  refine .guard (show Tells _ fun _ said => said = [] from .throw) ?_
  refine (responseBody_tells b status decl text).bind fun schema said silent => ?_
  subst silent
  refine (place_tells sorted known _).bind fun b' said ⟨sorted', told⟩ => .pure ?_
  subst told
  exact ⟨sorted', rfl, by simp⟩

theorem Remembers.concat (remembers : Remembers decls seen) {declared : Status}
    (present : decl.status = some declared) (known : decl.outcome? = some status) :
    Remembers (decls ++ [decl]) ((declared.text, decl.type) :: seen) := by
  intro text
  rw [lastType?_concat, present, known, List.lookup_cons]
  by_cases same : text = declared.text
  · simp [same]
  · have differs : (text == declared.text) = false := by simpa using same
    simp [differs, Ne.symm same, remembers text]

theorem passOver_tells (sorted : Sorted decls b) (remembers : Remembers decls seen)
    (unknown : decl.outcome? = none) {code : DiagnosticCode} (ofResponses : code.isOfResponses)
    (message : String) :
    Tells (c.report code message >>= fun _ => pure (b, seen)) fun state said =>
      (Sorted (decls ++ [decl]) state.1 ∧ Remembers (decls ++ [decl]) state.2) ∧
        said = [⟨code, message, c.target⟩] := by
  refine (Tells.report c ofResponses message).bind fun _ said told =>
    .pure ⟨⟨sorted.pass unknown, fun text => ?_⟩, by simp [told]⟩
  rw [lastType?_concat, unknown]
  exact remembers text

/-- One more declaration: what is emitted and what is reported goes on by it. -/
theorem addResponse_tells (sorted : Sorted decls b) (remembers : Remembers decls seen)
    (decl : ResponseDecl) :
    Tells (c.addResponse (b, seen) decl) fun state said =>
      (Sorted (decls ++ [decl]) state.1 ∧ Remembers (decls ++ [decl]) state.2) ∧
        said = reportsAbout c.target decls decl := by
  unfold addResponse reportsAbout
  cases present : decl.status with
  | none =>
    exact passOver_tells sorted remembers (by simp [ResponseDecl.outcome?, present]) rfl _
  | some declared =>
    have outcome : decl.outcome? = StatusClass.ofStatus? declared := by
      simp [ResponseDecl.outcome?, present]
    cases known : StatusClass.ofStatus? declared with
    | none =>
      simp only [known]
      exact passOver_tells sorted remembers (outcome.trans known) rfl _
    | some status =>
      simp only [known]
      refine (addClassified_tells sorted remembers (outcome.trans known) declared.text).mono ?_
      rintro ⟨b', seen'⟩ said ⟨sorted', rfl, told⟩
      exact ⟨⟨sorted', remembers.concat present (outcome.trans known)⟩, told⟩

theorem addResponses_tell (sorted : Sorted decls b) (remembers : Remembers decls seen)
    (further : List ResponseDecl) :
    Tells (further.foldlM c.addResponse (b, seen)) fun state said =>
      Sorted (decls ++ further) state.1 ∧ said = responseReports c.target decls further := by
  induction further generalizing decls b seen with
  | nil => exact .pure ⟨by simpa using sorted, rfl⟩
  | cons decl rest ih =>
    rw [List.foldlM_cons]
    refine (addResponse_tells sorted remembers decl).bind ?_
    rintro ⟨b', seen'⟩ said ⟨⟨sorted', remembers'⟩, told⟩
    refine (ih sorted' remembers').mono fun state said' ⟨all, told'⟩ => ⟨by simpa using all, ?_⟩
    rw [told, told']
    rfl

theorem responses_tell (c : Converter) (operation : Operation) :
    Tells (c.responses operation) fun rs said =>
      rs.map (·.withoutBody) = emittedHeads operation.responses ∧
        said = responseReports c.target [] operation.responses :=
  (addResponses_tell sorted_nil (fun _ => rfl) operation.responses).bind
    fun _ said ⟨sorted, told⟩ => .pure ⟨sorted.ordered, by simp [told]⟩

end Converter

namespace Assembler

/-- What is emitted for the declared responses of an operation, apart from the bodies: a success
with all codes of its kind, the first response each that is accepted, has no content or redirects,
and all errors. A bucket is empty if nothing is declared for it. Of responses nothing is reported
but that a status is missing or unknown, that its text had another type the last time, and that a
response found its bucket closed or took it over. -/
theorem responses_are_bucketed (a : Assembler) (stage : Stage) {ds ds' : Diagnostics}
    {rs : List Response} {classes : OrderedMap String Schema}
    (run : Yields (a.responses stage) ds (rs, classes) ds') :
    rs.map (·.withoutBody) = emittedHeads a.operation.responses ∧
    (∀ bucket, heads bucket a.operation.responses = [] ↔
      ∀ decl ∈ a.operation.responses, ∀ status ∈ decl.outcome?, status.bucket ≠ bucket) ∧
    ∃ reports, ds' = ds ++ reports ∧ reports.filter (·.code.isOfResponses) =
      responseReports a.operationId [] a.operation.responses := by
  obtain ⟨⟨responses, table⟩, ds₁, pass, eq⟩ := yields_bind.mp run
  obtain ⟨⟨⟩, rfl⟩ := yields_pure.mp eq
  obtain ⟨reports, grown, emitted, told⟩ :=
    (a.converter.responses_tell a.operation).told _ _ _ (yields_asPass.mp pass)
  refine ⟨?_, fun bucket => ?_, reports, grown, told⟩
  · rw [List.map_map, ← emitted]
    rfl
  · simp [heads, ResponseDecl.headIn?, Option.filter_eq_none_iff]

/-- An operation whose responses are declared at odds with each other. -/
def irregular : Assembler where
  graph := { version := "1" }
  operationId := "Items_List"
  host := []
  operation := {
    name := "list"
    verb := .get
    path := "/items"
    responses := [
      { status := some (.code 200), type := some (.named "string") },
      { status := some (.other "204"), description := some "Nothing" },
      { status := some (.other "default") },
      { status := some (.code 201), type := some (.named "int32")
        headers := [{ name := "etag" }] },
      { },
      { status := some (.code 204), description := some "Nothing at all" },
      { status := some (.code 700) },
      { status := some (.code 200), type := some (.named "int32") }] }

theorem irregular_bucketed : ∃ rs classes ds,
    Yields (irregular.responses .read) [] (rs, classes) ds ∧
    rs.map (fun r => (r.statusCodes, r.description, r.headers)) =
      [(some [200, 201], none, some ["etag"]), (some [204], some "Nothing", none),
        (none, none, none)] ∧
    (ds.filter (·.code.isOfResponses)).map (·.code) =
      [.duplicatedSuccess2xx, .missingStatusCodes, .duplicatedSuccess204,
        .unsupportedStatusCodeRange, .duplicateBodyTypes] := by
  obtain ⟨rs, classes, ds, run⟩ : ∃ rs classes ds,
      Yields (irregular.responses .read) [] (rs, classes) ds := ⟨_, _, _, rfl⟩
  obtain ⟨emitted, -, reports, rfl, told⟩ := responses_are_bucketed irregular .read run
  refine ⟨rs, classes, _, run, ?_, ?_⟩
  · have shown : rs.map (fun r => (r.statusCodes, r.description, r.headers)) =
        (rs.map (·.withoutBody)).map fun r => (r.statusCodes, r.description, r.headers) := by
      rw [List.map_map]
      rfl
    rw [shown, emitted]
    decide +kernel
  · rw [told]
    decide +kernel

/-- A text that only looks like a range has a type, and the range itself has none. -/
def ranges : Assembler where
  graph := { version := "1" }
  operationId := "Items_Get"
  host := []
  operation := {
    name := "get"
    verb := .get
    path := "/items"
    responses := [
      { status := some (.other "400-499"), type := some (.named "string") },
      { status := some (.range 400 499) }] }

/-- The type of the text is not remembered, so that no other type is reported for the range. -/
theorem ranges_not_reported : ∃ rs classes ds text like range,
    Yields (ranges.responses .read) [] (rs, classes) ds ∧
    ranges.operation.responses = [text, range] ∧ range.outcome? = some like ∧
    text.status.map Status.text = range.status.map Status.text ∧
    sameType text.type range.type = false ∧ ∀ d ∈ ds, d.code ≠ .duplicateBodyTypes := by
  refine ⟨_, _, _, _, _, _, rfl, rfl, rfl, by decide +kernel, rfl, ?_⟩
  decide +kernel

end Assembler
end WireSchema
