import Mathlib.Data.List.Induction
import WireSchema.Proofs.Bucketing

/-! Where the parts of the one response of success come from. Each declared success adds its code.
The description is that of the first one and stays; the headers and the body are those of the one
that holds the bucket, which is the first one until another type takes over. -/
namespace WireSchema

open ConvertM

/-- Whether a declared response is a success that has no bucket of its own. -/
def ResponseDecl.succeeds (decl : ResponseDecl) : Bool := decl.outcome?.any (·.bucket = .success)

/-- The declared responses that go into the one success. -/
def successes (decls : List ResponseDecl) : List ResponseDecl := decls.filter (·.succeeds)

section Holder

variable {decls before after : List ResponseDecl} {decl holder first : ResponseDecl}
  {status : StatusClass}

theorem succeeds_of_known (known : decl.outcome? = some status) :
    decl.succeeds = decide (status.bucket = .success) := by
  rw [ResponseDecl.succeeds, known, Option.any_some]

theorem successHolder_concat_of_fails (fails : decl.succeeds = false) :
    successHolder (decls ++ [decl]) = successHolder decls := by
  rw [successHolder_concat, takeOver, if_neg]
  simpa [ResponseDecl.succeeds] using fails

theorem successHolder_concat_of_agrees (held : successHolder decls = some holder)
    (agrees : decl.succeeds → sameType holder.type decl.type) :
    successHolder (decls ++ [decl]) = some holder := by
  cases succeeds : decl.succeeds with
  | false => rw [successHolder_concat_of_fails succeeds, held]
  | true =>
    have same := agrees succeeds
    rw [ResponseDecl.succeeds] at succeeds
    simp [successHolder_concat, takeOver, succeeds, held, same]

theorem successHolder_concat_of_differs (succeeds : decl.succeeds)
    (differs : ∀ h, successHolder decls = some h → ¬ sameType h.type decl.type) :
    successHolder (decls ++ [decl]) = some decl := by
  rw [ResponseDecl.succeeds] at succeeds
  rw [successHolder_concat, takeOver, if_pos succeeds, if_neg]
  cases held : successHolder decls with
  | none => simp
  | some h => simpa using differs h held

/-- A success takes the bucket over, or it joins the one that holds it. -/
theorem successHolder_concat_cases (succeeds : decl.succeeds) :
    ((∀ h, successHolder decls = some h → ¬ sameType h.type decl.type) ∧
        successHolder (decls ++ [decl]) = some decl) ∨
      ∃ h, successHolder decls = some h ∧ sameType h.type decl.type ∧
        successHolder (decls ++ [decl]) = some h := by
  by_cases joins : ∃ h, successHolder decls = some h ∧ sameType h.type decl.type
  · obtain ⟨h, held, same⟩ := joins
    exact .inr ⟨h, held, same, successHolder_concat_of_agrees held fun _ => same⟩
  · have differs : ∀ h, successHolder decls = some h → ¬ sameType h.type decl.type := by
      simpa using joins
    exact .inl ⟨differs, successHolder_concat_of_differs succeeds differs⟩

/-- A declaration holds the bucket as long as the successes after it have its type. -/
theorem successHolder_append (held : successHolder before = some holder)
    (agree : ∀ decl ∈ after, decl.succeeds → sameType holder.type decl.type) :
    successHolder (before ++ after) = some holder := by
  induction after generalizing before with
  | nil => rwa [List.append_nil]
  | cons decl rest ih =>
    rw [List.append_cons]
    have next := successHolder_concat_of_agrees held (agree decl List.mem_cons_self)
    exact ih next fun d member => agree d (List.mem_cons_of_mem decl member)

/-- The declaration that holds the bucket took it over from another type, unless it was empty, and
all successes after it have its type. -/
theorem successHolder_eq_some_iff : successHolder decls = some holder ↔
    ∃ before after, decls = before ++ holder :: after ∧ holder.succeeds ∧
      (∀ h, successHolder before = some h → ¬ sameType h.type holder.type) ∧
      ∀ decl ∈ after, decl.succeeds → sameType holder.type decl.type := by
  constructor
  · intro held
    induction decls using List.reverseRecOn with
    | nil => cases held
    | append_singleton decls decl ih =>
      -- The last one took over, or the holder was the same without it.
      have joined (held' : successHolder decls = some holder)
          (agrees : decl.succeeds → sameType holder.type decl.type) :
          ∃ before after, decls ++ [decl] = before ++ holder :: after ∧ holder.succeeds ∧
            (∀ h, successHolder before = some h → ¬ sameType h.type holder.type) ∧
            ∀ d ∈ after, d.succeeds → sameType holder.type d.type := by
        obtain ⟨before, after, rfl, succeeds, took, agree⟩ := ih held'
        refine ⟨before, after ++ [decl], by simp, succeeds, took, fun d member => ?_⟩
        rcases List.mem_append.mp member with earlier | last
        · exact agree d earlier
        · rw [List.mem_singleton.mp last]
          exact agrees
      cases succeeds : decl.succeeds with
      | false =>
        exact joined ((successHolder_concat_of_fails succeeds).symm.trans held) (by simp [succeeds])
      | true =>
        rcases successHolder_concat_cases succeeds with ⟨took, now⟩ | ⟨h, held', same, now⟩
        · obtain rfl : decl = holder := Option.some.inj (now.symm.trans held)
          exact ⟨decls, [], rfl, succeeds, took, nofun⟩
        · obtain rfl : h = holder := Option.some.inj (now.symm.trans held)
          exact joined held' fun _ => same
  · rintro ⟨before, after, rfl, succeeds, took, agree⟩
    rw [List.append_cons]
    exact successHolder_append (successHolder_concat_of_differs succeeds took) agree

theorem successHolder_of_fail (fail : ∀ decl ∈ decls, ¬ decl.succeeds) :
    successHolder decls = none := by
  refine Option.eq_none_iff_forall_ne_some.mpr fun holder held => ?_
  obtain ⟨before, after, rfl, succeeds, -, -⟩ := successHolder_eq_some_iff.mp held
  exact fail holder (by simp) succeeds

theorem mem_successes_of_holder (held : successHolder decls = some holder) :
    holder ∈ successes decls := by
  obtain ⟨before, after, rfl, succeeds, -, -⟩ := successHolder_eq_some_iff.mp held
  exact List.mem_filter.mpr ⟨by simp, succeeds⟩

theorem heads_success_of_fail (fail : ∀ decl ∈ decls, ¬ decl.succeeds) :
    heads .success decls = [] := by
  refine List.filterMap_eq_nil_iff.mpr fun decl member => ?_
  cases known : decl.outcome? with
  | none => exact headIn?_of_unknown .success known
  | some status =>
    have fails := fail decl member
    rw [succeeds_of_known known, decide_eq_true_iff] at fails
    rw [headIn?_of_known .success known, if_neg fails]

theorem known_of_succeeds (succeeds : decl.succeeds) :
    ∃ code, decl.outcome? = some (.success code) := by
  cases known : decl.outcome? with
  | none => simp [ResponseDecl.succeeds, known] at succeeds
  | some status =>
    rw [succeeds_of_known known, decide_eq_true_iff] at succeeds
    cases status with
    | success code => exact ⟨code, rfl⟩
    | _ => cases succeeds

/-- The first success is put into an empty bucket, and what is declared of it stands at the head. -/
theorem successes_split {others : List ResponseDecl}
    (declared : successes decls = first :: others) : ∃ before after code,
      decls = before ++ first :: after ∧ successes after = others ∧
      (∀ decl ∈ before, ¬ decl.succeeds) ∧
      (heads .success decls).head? = some (first.head (.success code)) ∧
      successHolder (before ++ [first]) = some first := by
  obtain ⟨before, after, rfl, fail, succeeds, rest⟩ := List.filter_eq_cons_iff.mp declared
  obtain ⟨code, known⟩ := known_of_succeeds succeeds
  refine ⟨before, after, code, rfl, rest, fail, ?_, ?_⟩
  · have one : first.headIn? .success = some (first.head (.success code)) :=
      headIn?_of_known .success known
    have headless : before.filterMap (·.headIn? .success) = [] := heads_success_of_fail fail
    rw [heads, List.filterMap_append, headless, List.filterMap_cons_some one]
    rfl
  · refine successHolder_concat_of_differs succeeds fun h held => ?_
    rw [successHolder_of_fail fail] at held
    cases held

variable {target : String}

theorem responseReports_append (before further rest : List ResponseDecl) :
    responseReports target before (further ++ rest) =
      responseReports target before further ++ responseReports target (before ++ further) rest := by
  induction further generalizing before with
  | nil => simp [responseReports]
  | cons decl further ih => simp [responseReports, ih]

/-- A report that another type takes over is made about each success that does. -/
theorem takeOver_reported_iff : (∃ d ∈ reportsAbout target before decl,
      d.code = .duplicatedSuccess2xx) ↔
    decl.succeeds ∧ ∃ h, successHolder before = some h ∧ ¬ sameType h.type decl.type := by
  cases present : decl.status with
  | none => simp [reportsAbout, ResponseDecl.succeeds, ResponseDecl.outcome?, present]
  | some declared =>
    have outcome : decl.outcome? = StatusClass.ofStatus? declared := by
      simp [ResponseDecl.outcome?, present]
    cases known : StatusClass.ofStatus? declared with
    | none => simp [reportsAbout, ResponseDecl.succeeds, present, outcome, known]
    | some status =>
      have ofBucket : (∃ d ∈ reportsAbout target before decl, d.code = .duplicatedSuccess2xx) ↔
          ∃ d ∈ bucketReports target before decl status, d.code = .duplicatedSuccess2xx := by
        simp only [reportsAbout, present, known, List.mem_append, or_and_right, exists_or]
        refine or_iff_right ?_
        split <;> simp
      rw [ofBucket, succeeds_of_known (outcome.trans known)]
      cases status with
      | success code =>
        cases held : successHolder before with
        | none => simp [bucketReports, held]
        | some h =>
          by_cases same : sameType h.type decl.type <;>
            simp [bucketReports, held, same, StatusClass.bucket]
      | accepted | noContent | redirect =>
        simp only [bucketReports, closedReports, StatusClass.bucket]
        split <;> simp
      | error => simp [bucketReports, StatusClass.bucket]

theorem takeOver_not_reported (target : String) (before : List ResponseDecl)
    (fail : ∀ decl ∈ after, ¬ decl.succeeds) :
    ¬ ∃ d ∈ responseReports target before after, d.code = .duplicatedSuccess2xx := by
  induction after generalizing before with
  | nil => nofun
  | cons decl rest ih =>
    rintro ⟨d, member, same⟩
    rcases List.mem_append.mp member with own | later
    · exact fail decl List.mem_cons_self (takeOver_reported_iff.mp ⟨d, own, same⟩).1
    · exact ih _ (fun d member => fail d (List.mem_cons_of_mem decl member)) ⟨d, later, same⟩

theorem takeOvers_reported_iff (held : successHolder before = some holder) :
    (∃ d ∈ responseReports target before after, d.code = .duplicatedSuccess2xx) ↔
      ∃ decl ∈ after, decl.succeeds ∧ ¬ sameType holder.type decl.type := by
  induction after generalizing before with
  | nil => simp [responseReports]
  | cons decl rest ih =>
    have now : (∃ d ∈ reportsAbout target before decl, d.code = .duplicatedSuccess2xx) ↔
        decl.succeeds ∧ ¬ sameType holder.type decl.type := by
      rw [takeOver_reported_iff, held]
      simp
    simp only [responseReports, List.mem_append, or_and_right, exists_or, List.mem_cons,
      exists_eq_left, now]
    by_cases differs : decl.succeeds ∧ ¬ sameType holder.type decl.type
    · exact iff_of_true (.inl differs) (.inl differs)
    · have agrees : decl.succeeds → sameType holder.type decl.type := by simpa using differs
      rw [ih (successHolder_concat_of_agrees held agrees)]

/-- The first success holds the bucket to the end unless another type takes over, and that is
reported. -/
theorem successHolder_of_agree {others : List ResponseDecl}
    (declared : successes decls = first :: others)
    (agree : ∀ decl ∈ others, sameType first.type decl.type) :
    successHolder decls = some first := by
  obtain ⟨before, after, code, rfl, rfl, -, -, opens⟩ := successes_split declared
  rw [List.append_cons]
  exact successHolder_append opens fun decl member succeeds =>
    agree decl (List.mem_filter.mpr ⟨member, succeeds⟩)

theorem disagreement_reported_iff (target : String) {others : List ResponseDecl}
    (declared : successes decls = first :: others) :
    (∃ d ∈ responseReports target [] decls, d.code = .duplicatedSuccess2xx) ↔
      ∃ decl ∈ others, ¬ sameType first.type decl.type := by
  obtain ⟨before, after, code, rfl, rfl, fail, -, opens⟩ := successes_split declared
  have first' : ¬ ∃ d ∈ reportsAbout target before first, d.code = .duplicatedSuccess2xx := by
    rw [takeOver_reported_iff, successHolder_of_fail fail]
    simp
  have earlier := takeOver_not_reported target [] fail
  have later : (∃ d ∈ responseReports target (before ++ [first]) after,
      d.code = .duplicatedSuccess2xx) ↔
      ∃ decl ∈ after, decl.succeeds ∧ ¬ sameType first.type decl.type :=
    takeOvers_reported_iff opens
  rw [responseReports_append, responseReports]
  simp only [List.nil_append, List.mem_append, or_and_right, exists_or, later]
  simp only [earlier, first', false_or, successes, List.mem_filter, and_assoc]

end Holder

namespace Converter

def bodyOf (c : Converter) : Option TypeRef → ConvertM (Option Schema)
  | none => pure none
  | some type => c.convert type { visibility := .read } []

def Makes (c : Converter) (type : Option TypeRef) (body : Option ResponseBody) : Prop :=
  ∃ g schema g', Yields (c.bodyOf type) g schema g' ∧
    body = schema.map fun schema => ⟨some "$Instance", schema⟩

/-- The success has the body of the type that it is known to have. -/
def Holds (c : Converter) (b : Buckets) : Prop := ∀ s ∈ b.success, c.Makes s.2 s.1.body

variable {c : Converter} {b : Buckets} {decl : ResponseDecl} {status : StatusClass}

theorem responseBody_of_success (b : Buckets) (code : Nat) (decl : ResponseDecl) (text : String) :
    c.responseBody b (.success code) decl text =
      if b.keepsBody (.success code) decl.type then pure none else c.bodyOf decl.type := by
  unfold responseBody
  cases decl.type <;> rfl

theorem place_holds {response : Response} {type : Option TypeRef} (holds : c.Holds b)
    (made : ∀ code, status = .success code → ¬ b.keepsBody status type →
      c.Makes type response.body) : Gives (c.place b status response type) c.Holds := by
  cases status with
  | success code =>
    refine ⟨fun g b' g' run => ?_⟩
    -- A body is made wherever the bucket does not keep its own, and is put in nowhere else.
    have fresh := made code rfl
    rcases placeSuccess_cases run with
      ⟨absent, rfl⟩ | ⟨existing, known, present, ⟨same, rfl⟩ | ⟨differ, rfl⟩⟩
    · rintro s ⟨⟩
      exact fresh (by simp [Buckets.keepsBody, absent])
    · rintro s ⟨⟩
      exact holds (existing, known) present
    · rintro s ⟨⟩
      exact fresh (by simpa [Buckets.keepsBody, present] using differ)
  | accepted | noContent | redirect => exact Gives.any.bind fun _ _ => .pure holds
  | error code => exact .pure holds

theorem addClassified_holds (holds : c.Holds b) (seen : SeenTypes) (text : String) :
    Gives (c.addClassified b seen decl text status) fun state => c.Holds state.1 := by
  unfold addClassified
  refine .guard (Gives.any.bind fun _ _ => .guard ?_)
  have built : Gives (c.responseBody b status decl text) fun schema => ∀ code,
      status = .success code → ¬ b.keepsBody status decl.type →
        c.Makes decl.type (schema.map fun schema => ⟨some "$Instance", schema⟩) := by
    refine ⟨fun g schema g' run code success fresh => ?_⟩
    subst success
    rw [responseBody_of_success, if_neg fresh] at run
    exact ⟨g, schema, g', run, rfl⟩
  refine built.bind fun schema made => (place_holds holds ?_).bind fun b' holds' => .pure holds'
  rintro code rfl fresh
  exact made code rfl fresh

theorem addResponse_holds (state : Buckets × SeenTypes) (decl : ResponseDecl)
    (holds : c.Holds state.1) : Gives (c.addResponse state decl) fun state => c.Holds state.1 := by
  unfold addResponse
  split
  · exact Gives.any.bind fun _ _ => .pure holds
  split
  · exact Gives.any.bind fun _ _ => .pure holds
  · exact addClassified_holds holds _ _

end Converter

theorem Sorted.exists_success {decls : List ResponseDecl} {b : Buckets} (sorted : Sorted decls b)
    {first : ResponseDecl} {others : List ResponseDecl}
    (declared : successes decls = first :: others) :
    ∃ r holder, b.success = some (r, holder.type) ∧ successHolder decls = some holder ∧
      r.statusCodes = some (successCodes decls) ∧ r.description = first.description ∧
      r.headers = holder.headerNames := by
  obtain ⟨before, after, code, -, -, -, head, -⟩ := successes_split declared
  have shown := sorted.success
  have held := sorted.held
  rw [successHead, head, Option.map_some] at shown
  obtain ⟨⟨r, type⟩, success, same⟩ := Option.map_eq_some_iff.mp shown
  rw [success] at held
  obtain ⟨holder, holds, rfl⟩ := Option.map_eq_some_iff.mp held.symm
  rw [holds] at same
  refine ⟨r, holder, success, holds, ?_, ?_, ?_⟩
  · exact congrArg Response.statusCodes same
  · exact congrArg Response.description same
  · exact congrArg Response.headers same

/-- A response whose body is made of a type, its classes named. -/
def Response.IsOfType (c : Converter) (type : Option TypeRef) (r : Response) : Prop :=
  ∃ made names, c.Makes type made.body ∧ r = Response.resolve names made

/-- Whether a declaration has all that a response of a type carries. -/
def ResponseDecl.IsOriginOf (decl : ResponseDecl) (r : Response) (type : Option TypeRef) : Prop :=
  decl.description = r.description ∧ decl.headerNames = r.headers ∧ sameType decl.type type

namespace Assembler

variable {a : Assembler} {stage : Stage} {ds ds' : Diagnostics} {rs : List Response}
  {classes : OrderedMap String Schema}

/-- The responses that are emitted are those of the buckets, their classes named. -/
theorem exists_buckets (run : Yields (a.responses stage) ds (rs, classes) ds') :
    ∃ b names, rs = b.ordered.map (·.resolve names) ∧ Sorted a.operation.responses b ∧
      a.converter.Holds b ∧ ∃ reports, ds' = ds ++ reports ∧
        reports.filter (·.code.isOfResponses) =
          responseReports a.operationId [] a.operation.responses := by
  obtain ⟨⟨responses, table⟩, ds₁, pass, eq⟩ := yields_bind.mp run
  obtain ⟨⟨⟩, rfl⟩ := yields_pure.mp eq
  obtain ⟨⟨b, seen⟩, g, sort, eq⟩ := yields_bind.mp (yields_asPass.mp pass)
  obtain ⟨rfl, rfl⟩ := yields_pure.mp eq
  obtain ⟨reports, grown, sorted, told⟩ :=
    (a.converter.addResponses_tell sorted_nil (fun _ => rfl) a.operation.responses).told _ _ _ sort
  have empty : a.converter.Holds {} := by rintro s ⟨⟩
  have holds : a.converter.Holds b :=
    (Gives.foldlM Converter.addResponse_holds a.operation.responses empty).known _ _ _ sort
  exact ⟨b, _, rfl, sorted, holds, reports, grown, told⟩

/-- The one success has the description of the first that is declared, and the headers and the type
of the one that holds the bucket: these two never drift apart, but the description stays when
another type takes over. That one does is always reported; if none does, the first declaration is
the origin of all. -/
theorem success_has_two_origins (a : Assembler) (stage : Stage) {ds ds' : Diagnostics}
    {rs : List Response} {classes : OrderedMap String Schema}
    (run : Yields (a.responses stage) ds (rs, classes) ds') {first : ResponseDecl}
    {others : List ResponseDecl} (declared : successes a.operation.responses = first :: others) :
    ∃ r rest holder, rs = r :: rest ∧
      r.statusCodes = some (successCodes a.operation.responses) ∧
      successHolder a.operation.responses = some holder ∧ holder ∈ first :: others ∧
      r.description = first.description ∧ r.headers = holder.headerNames ∧
      r.IsOfType a.converter holder.type ∧
      ((∃ decl ∈ first :: others, decl.IsOriginOf r holder.type) ↔
        ∃ decl ∈ first :: others, decl.description = first.description ∧
          decl.headerNames = holder.headerNames ∧ sameType decl.type holder.type) ∧
      ∃ reports, ds' = ds ++ reports ∧
        ((∃ d ∈ reports, d.code = .duplicatedSuccess2xx) ↔
          ∃ decl ∈ others, ¬ sameType first.type decl.type) ∧
        ((∀ decl ∈ others, sameType first.type decl.type) → holder = first) := by
  obtain ⟨b, names, rfl, sorted, holds, reports, grown, told⟩ := exists_buckets run
  obtain ⟨r, holder, success, held, codes, description, headers⟩ := sorted.exists_success declared
  have member : holder ∈ first :: others := declared ▸ mem_successes_of_holder held
  have taken : (∃ d ∈ reports, d.code = .duplicatedSuccess2xx) ↔
      ∃ decl ∈ others, ¬ sameType first.type decl.type := by
    rw [← disagreement_reported_iff a.operationId declared, ← told]
    refine exists_congr fun d => and_congr_left fun same => ?_
    simp [same, DiagnosticCode.isOfResponses]
  obtain ⟨rest, listed⟩ : ∃ rest, b.ordered = r :: rest := by
    rw [Buckets.ordered, success]
    exact ⟨_, rfl⟩
  refine ⟨r.resolve names, rest.map (·.resolve names), holder, by rw [listed, List.map_cons], codes,
    held, member, description, headers, ⟨r, names, holds (r, holder.type) success, rfl⟩, ?_,
    reports, grown, taken, ?_⟩
  · rw [← description, ← headers]
    rfl
  · intro agree
    exact Option.some.inj (held.symm.trans (successHolder_of_agree declared agree))

def upsert : Assembler where
  graph := { version := "1" }
  operationId := "Widgets_Put"
  host := []
  operation := {
    name := "put"
    verb := .put
    path := "/widgets"
    responses := [
      { status := some (.code 200), type := some (.named "string"), description := some "Updated" },
      { status := some (.code 201), type := some (.named "int32"), description := some "Created"
        headers := [{ name := "Location" }] }] }

theorem upsert_success_mixed : ∃ rs classes ds r rest,
    Yields (upsert.responses .create) [] (rs, classes) ds ∧ rs = r :: rest ∧
      r.statusCodes = some [200, 201] ∧ r.description = some "Updated" ∧
      r.headers = some ["Location"] ∧ r.IsOfType upsert.converter (some (.named "int32")) ∧
      ∃ d ∈ ds, d.code = .duplicatedSuccess2xx := by
  obtain ⟨⟨rs, classes⟩, ds, run⟩ :=
    exists_yields (x := upsert.responses .create) (g := []) (by decide +kernel)
  obtain ⟨r, rest, holder, rfl, codes, held, -, description, headers, type, -, reports, rfl, taken,
    -⟩ := success_has_two_origins upsert .create run (by rfl)
  obtain rfl := Option.some.inj held
  exact ⟨_, classes, _, r, rest, run, rfl, codes, description, headers, type,
    taken.mpr (by decide +kernel)⟩

/-- The description is of the one declaration, the headers are of the other. -/
theorem upsert_success_of_no_declaration : ∃ rs classes ds,
    Yields (upsert.responses .create) [] (rs, classes) ds ∧
    ∃ r ∈ rs, r.statusCodes = some [200, 201] ∧
      ¬ ∃ decl ∈ successes upsert.operation.responses, decl.description = r.description ∧
        decl.headerNames = r.headers ∧ r.IsOfType upsert.converter decl.type := by
  refine ⟨_, _, _, rfl, _, List.mem_cons_self, rfl, ?_⟩
  have apart : ∀ decl ∈ successes upsert.operation.responses,
      decl.description = some "Updated" → decl.headerNames ≠ some ["Location"] := by
    decide +kernel
  rintro ⟨decl, member, description, headers, -⟩
  exact apart decl member description headers

end Assembler

end WireSchema
