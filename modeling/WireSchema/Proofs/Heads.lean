import WireSchema.Proofs.Responses

/-! Declared responses and the buckets that they are for. What is emitted of a bucket, apart from
the bodies, and what is reported about a declaration, is told by the declarations alone. -/
namespace WireSchema

inductive Bucket where
  | success
  | accepted
  | noContent
  | redirect
  | errors
  deriving DecidableEq, Repr

namespace StatusClass

def bucket : StatusClass → Bucket
  | success _ => .success
  | accepted => .accepted
  | noContent => .noContent
  | redirect _ => .redirect
  | error _ => .errors

def codes? : StatusClass → Option (List Nat)
  | success code => some [code]
  | accepted => some [202]
  | noContent => some [204]
  | redirect code => some [code]
  | error code => code.map ([·])

end StatusClass

def Status.number? : Status → Option Nat
  | code n => some n
  | range _ _ => none
  | other text => StatusClass.codeOfText? text

def Response.withoutBody (r : Response) : Response := { r with body := none }

namespace ResponseDecl

def number? (decl : ResponseDecl) : Option Nat := decl.status.bind Status.number?

/-- A code of success that has no bucket of its own. -/
def successCode? (decl : ResponseDecl) : Option Nat :=
  decl.number?.filter fun n => 200 ≤ n ∧ n ≤ 299 ∧ n ≠ 202 ∧ n ≠ 204

def headerNames (decl : ResponseDecl) : Option (List String) :=
  if decl.headers.isEmpty then none else some (decl.headers.map (·.name))

def head (decl : ResponseDecl) (status : StatusClass) : Response where
  statusCodes := status.codes?
  isError := status.isError
  description := decl.description
  headers := decl.headerNames

def headIn? (bucket : Bucket) (decl : ResponseDecl) : Option Response :=
  (decl.outcome?.filter (·.bucket = bucket)).map decl.head

end ResponseDecl

/-- The responses that are declared for a bucket. -/
def heads (bucket : Bucket) (decls : List ResponseDecl) : List Response :=
  decls.filterMap (·.headIn? bucket)

/-- The different codes of success that are declared and have no bucket of their own. -/
def successCodes (decls : List ResponseDecl) : List Nat :=
  (decls.filterMap ResponseDecl.successCode?).eraseDups

/-- A success takes over from the one that holds the bucket if it has another type. -/
def takeOver (holder : Option ResponseDecl) (decl : ResponseDecl) : Option ResponseDecl :=
  if decl.outcome?.any (·.bucket = .success) then
    if holder.any fun h => sameType h.type decl.type then holder else some decl
  else holder

/-- The declaration whose type and headers the success has. -/
def successHolder (decls : List ResponseDecl) : Option ResponseDecl := decls.foldl takeOver none

/-- The one success: it has all codes, and the description of the first. -/
def successHead (decls : List ResponseDecl) : Option Response :=
  (heads .success decls).head?.map fun first => { first with
    statusCodes := some (successCodes decls)
    headers := (successHolder decls).bind ResponseDecl.headerNames }

/-- What is emitted for declared responses, apart from the bodies. -/
def emittedHeads (decls : List ResponseDecl) : List Response :=
  (successHead decls).toList ++ (heads .accepted decls).head?.toList ++
    (heads .noContent decls).head?.toList ++ (heads .redirect decls).head?.toList ++
    heads .errors decls

/-- The type with which a status was declared last, among declarations of a known class. -/
def lastType? (text : String) (decls : List ResponseDecl) : Option (Option TypeRef) :=
  ((decls.filter fun decl =>
    decl.outcome?.isSome && decl.status.any (·.text = text)).getLast?).map (·.type)

section Reports

variable (target : String) (before : List ResponseDecl)

/-- A bucket that has a response is closed to others. -/
def closedReports (bucket : Bucket) (code : DiagnosticCode) : Diagnostics :=
  if (heads bucket before).isEmpty then []
  else [⟨code, "keeping the first declared response", target⟩]

def bucketReports (decl : ResponseDecl) : StatusClass → Diagnostics
  | .success code =>
    if (successHolder before).any fun h => !sameType h.type decl.type then
      [⟨.duplicatedSuccess2xx,
        "2xx responses disagree on body type, `" ++ toString code ++ "` wins", target⟩]
    else []
  | .accepted => closedReports target before .accepted .duplicatedSuccess202
  | .noContent => closedReports target before .noContent .duplicatedSuccess204
  | .redirect _ => closedReports target before .redirect .duplicatedRedirect
  | .error _ => []

def reportsAbout (decl : ResponseDecl) : Diagnostics :=
  match decl.status with
  | none => [⟨.missingStatusCodes, "response has no status code", target⟩]
  | some status =>
    match StatusClass.ofStatus? status with
    | none =>
      [⟨.unsupportedStatusCodeRange, "cannot classify status `" ++ status.text ++ "`", target⟩]
    | some known =>
      (if (lastType? status.text before).any fun type => !sameType type decl.type then
        [⟨.duplicateBodyTypes, "status `" ++ status.text ++ "` is declared with different bodies",
          target⟩]
      else []) ++ bucketReports target before decl known

/-- What is reported about declared responses, one after the other. -/
def responseReports (target : String) (before : List ResponseDecl) :
    List ResponseDecl → Diagnostics
  | [] => []
  | decl :: rest =>
    reportsAbout target before decl ++ responseReports target (before ++ [decl]) rest

end Reports

section Concat

variable {decls : List ResponseDecl} {decl : ResponseDecl} {status : StatusClass} {code : Nat}

theorem StatusClass.ofCode?_eq_success_iff (n : Nat) : ofCode? n = some (.success code) ↔
    n = code ∧ 200 ≤ n ∧ n ≤ 299 ∧ n ≠ 202 ∧ n ≠ 204 := by
  unfold StatusClass.ofCode?
  repeat' split
  all_goals simp
  all_goals omega

/-- The texts that are no numbers, and the ranges, are no successes. -/
theorem StatusClass.ofStatus?_eq_success_iff (declared : Status) :
    ofStatus? declared = some (.success code) ↔
      ∃ n, declared.number? = some n ∧ ofCode? n = some (.success code) := by
  cases declared with
  | code n => simp [ofStatus?, Status.number?]
  | range first last => simp [ofStatus?, Status.number?]
  | other text =>
    by_cases wild : text = "*" ∨ text = "default"
    · have unnumbered : codeOfText? text = none := by rcases wild with rfl | rfl <;> decide
      simp [ofStatus?, Status.number?, wild, unnumbered]
    · simp [ofStatus?, Status.number?, wild, Option.bind_eq_some_iff]

theorem successCode?_eq_some_iff :
    decl.successCode? = some code ↔ decl.outcome? = some (.success code) := by
  have number : decl.outcome? = some (.success code) ↔
      ∃ n, decl.number? = some n ∧ StatusClass.ofCode? n = some (.success code) := by
    unfold ResponseDecl.outcome? ResponseDecl.number?
    cases decl.status with
    | none => simp
    | some declared => exact StatusClass.ofStatus?_eq_success_iff declared
  rw [number, ResponseDecl.successCode?, Option.filter_eq_some_iff]
  simp only [StatusClass.ofCode?_eq_success_iff, decide_eq_true_eq]
  constructor
  · intro inside
    exact ⟨code, inside.1, rfl, inside.2⟩
  · intro inside
    obtain ⟨_, here, rfl, inside⟩ := inside
    exact ⟨here, inside⟩

theorem headIn?_of_known (bucket : Bucket) (known : decl.outcome? = some status) :
    decl.headIn? bucket = if status.bucket = bucket then some (decl.head status) else none := by
  rw [ResponseDecl.headIn?, known]
  by_cases its : status.bucket = bucket <;> simp [Option.filter, its]

theorem headIn?_of_unknown (bucket : Bucket) (unknown : decl.outcome? = none) :
    decl.headIn? bucket = none := by
  simp [ResponseDecl.headIn?, unknown]

theorem heads_concat (bucket : Bucket) :
    heads bucket (decls ++ [decl]) = heads bucket decls ++ (decl.headIn? bucket).toList := by
  cases its : decl.headIn? bucket <;> simp [heads, its]

theorem heads_concat_of_known (bucket : Bucket) (known : decl.outcome? = some status) :
    heads bucket (decls ++ [decl]) =
      heads bucket decls ++ if status.bucket = bucket then [decl.head status] else [] := by
  rw [heads_concat, headIn?_of_known _ known]
  by_cases its : status.bucket = bucket <;> simp [its]

theorem successHolder_concat :
    successHolder (decls ++ [decl]) = takeOver (successHolder decls) decl := by
  simp [successHolder]

theorem successCodes_concat (decls : List ResponseDecl) (decl : ResponseDecl) :
    successCodes (decls ++ [decl]) = match decl.successCode? with
      | none => successCodes decls
      | some code =>
        if code ∈ successCodes decls then successCodes decls else successCodes decls ++ [code] := by
  cases declared : decl.successCode? with
  | none => simp [successCodes, declared]
  | some code =>
    have one : ([decl] : List ResponseDecl).filterMap ResponseDecl.successCode? = [code] := by
      simp [declared]
    simp only [successCodes, List.filterMap_append, one, List.eraseDups_append, List.mem_eraseDups]
    generalize decls.filterMap ResponseDecl.successCode? = codes
    by_cases old : code ∈ codes <;> simp [old, List.removeAll, List.eraseDups_cons]

theorem successCodes_eq_nil (undeclared : heads .success decls = []) :
    successCodes decls = [] := by
  have uncoded : decls.filterMap ResponseDecl.successCode? = [] := by
    rw [heads, List.filterMap_eq_nil_iff] at undeclared
    refine List.filterMap_eq_nil_iff.mpr fun decl member => ?_
    refine Option.eq_none_iff_forall_ne_some.mpr fun code here => ?_
    have head := headIn?_of_known .success (successCode?_eq_some_iff.mp here)
    cases head.symm.trans (undeclared decl member)
  rw [successCodes, uncoded]
  rfl

theorem lastType?_concat (text : String) : lastType? text (decls ++ [decl]) =
    if decl.outcome?.isSome && decl.status.any (·.text = text) then some decl.type
    else lastType? text decls := by
  unfold lastType?
  rw [List.filter_append]
  by_cases its : decl.outcome?.isSome && decl.status.any (·.text = text)
  · simp [its]
  · simp [its]

/-- What is known of the success is not changed by other responses. -/
theorem success_concat_other (decls : List ResponseDecl)
    (other : ∀ code, decl.outcome? ≠ some (.success code)) :
    successHead (decls ++ [decl]) = successHead decls ∧
      successHolder (decls ++ [decl]) = successHolder decls := by
  have uncoded : decl.successCode? = none :=
    Option.eq_none_iff_forall_ne_some.mpr fun code here =>
      other code (successCode?_eq_some_iff.mp here)
  have unlike : ∀ status, decl.outcome? = some status → status.bucket ≠ .success := by
    intro status known
    cases status with
    | success code => exact absurd known (other code)
    | _ => nofun
  have passed : successHolder (decls ++ [decl]) = successHolder decls := by
    rw [successHolder_concat, takeOver, if_neg]
    cases known : decl.outcome? with
    | none => simp
    | some status => simpa using unlike status known
  have headless : decl.headIn? .success = none := by
    cases known : decl.outcome? with
    | none => exact headIn?_of_unknown _ known
    | some status => rw [headIn?_of_known _ known, if_neg (unlike status known)]
  refine ⟨?_, passed⟩
  rw [successHead, successHead, passed, heads_concat, headless, successCodes_concat, uncoded]
  simp

end Concat

end WireSchema
