import WireSchema.Proofs.Filling
import WireSchema.Proofs.Serialization

/-! The passes over the parameters of the host and over a request account for the classes that they
meet. A request takes over the parameters of the host as they are. -/
namespace WireSchema

open ConvertM

namespace Converter

variable {c : Converter}

def optionalMentions (s : Option NamedSchema) : List Mention :=
  s.toList.flatMap NamedSchema.mentions

theorem optionalMentions_some (s : NamedSchema) :
    optionalMentions (some s) = s.schema.mentions := by
  simp [optionalMentions, NamedSchema.mentions_eq]

theorem hostParameter_traces (name : String) (decl : HostParameter) :
    Traces c [] (c.hostParameter name decl) optionalMentions := by
  refine (convert_traces ..).bind fun s => ?_
  cases s with
  | none => exact .pure rfl
  | some s => exact .pure (optionalMentions_some _)

theorem hostParameters_trace : Traces c [] c.hostParameters propMentions := by
  unfold hostParameters
  split
  · exact .pure rfl
  · rename_i server _
    refine Traces.bind (.ofReports (.forIn (fun name => ?_) _) fun _ _ _ _ => rfl) fun _ => ?_
    · split
      · exact .bind (.report ..) fun _ => .pure _
      · exact .pure _
    have := Traces.keep (fun e : String × HostParameter => hostParameter_traces (c := c) e.1 e.2)
      server.parameters.entries
    simpa only [← propMentions_eq] using this

theorem parameter_traces (p : Parameter) : Traces c [] (c.parameter p) optionalMentions := by
  refine Traces.ofResolve.bind fun resolved => ?_
  split
  · exact .pure rfl
  · refine (convert_traces ..).bind fun s => ?_
    cases s with
    | none =>
      dsimp only
      split
      · exact .throw
      · exact .pure rfl
    | some s =>
      exact .pure ((optionalMentions_some _).trans (by cases s; rfl))

theorem requestBody_traces (decl : Option BodyDecl) (stage : Stage) :
    Traces c [] (c.requestBody decl stage) optionalMentions := by
  unfold requestBody
  split
  · exact .pure rfl
  · refine Traces.ofExcept.bind fun _ => ?_
    dsimp only
    split
    · exact .throw_bind
    · refine (convert_traces ..).bind fun s => ?_
      cases s with
      | none =>
        dsimp only
        split
        · exact .pure rfl
        · exact .throw
      | some s => exact .pure (optionalMentions_some _)

theorem mentions_add (a : Arguments) (s : NamedSchema) :
    (a.add s).mentions.Perm (a.mentions ++ s.mentions) := by
  unfold Arguments.add
  split
  · simp [Arguments.mentions, propMentions_eq]
  · simp only [Arguments.mentions, propMentions_eq, List.flatMap_append, List.flatMap_singleton,
      List.append_assoc]
    exact .append_left _ List.perm_append_comm

/-- What is added to the first part may as well be added behind the second one. -/
theorem perm_move {first first' second new : List Mention} (added : first'.Perm (first ++ new)) :
    (first' ++ second).Perm (first ++ second ++ new) := by
  refine (added.append_right second).trans ?_
  rw [List.append_assoc, List.append_assoc]
  exact List.perm_append_comm.append_left first

theorem perm_behind {before first first' new : List Mention} (added : first'.Perm (first ++ new)) :
    (before ++ first').Perm (before ++ first ++ new) := by
  rw [List.append_assoc]
  exact added.append_left before

theorem mentions_sorted (a : Arguments) : a.sorted.mentions.Perm a.mentions := by
  have sorted (schemas : List NamedSchema) :
      (propMentions (Arguments.sortByName schemas)).Perm (propMentions schemas) := by
    rw [propMentions_eq, propMentions_eq]
    exact (List.mergeSort_perm ..).flatMap_right _
  exact (sorted a.params).append (sorted a.consts)

theorem mentions_nonEmpty (a : Arguments) :
    a.nonEmpty?.toList.flatMap Arguments.mentions = a.mentions := by
  unfold Arguments.nonEmpty?
  split
  · rename_i empty
    obtain ⟨params, consts⟩ : a.params = [] ∧ a.consts = [] := by
      simpa [Arguments.isEmpty] using empty
    simp [Arguments.mentions, params, consts, propMentions]
  · simp

def argumentMentions (r : Arguments × Arguments × Headers) : List Mention :=
  r.1.mentions ++ r.2.1.mentions ++ r.2.2.mentions

theorem addParameter_traces (r : Arguments × Arguments × Headers) (p : Parameter) :
    Traces c (argumentMentions r) (c.addParameter r p) argumentMentions := by
  obtain ⟨path, query, header⟩ := r
  unfold addParameter
  dsimp only
  split
  · exact .pure rfl
  split
  · exact .pure rfl
  refine (parameter_traces p).frame.bind fun s => ?_
  cases s with
  | none => exact .pure (by simp [optionalMentions])
  | some s =>
    rw [optionalMentions_some, ← NamedSchema.mentions_eq]
    dsimp only
    split
    · exact .reorder (perm_move (perm_move (mentions_add path s)))
    · exact .reorder (perm_move (perm_behind (mentions_add query s)))
    · exact .reorder (perm_behind (mentions_add header.args s))

theorem mentions_nonEmptyHeaders (h : Headers) :
    h.nonEmpty?.toList.flatMap Headers.mentions = h.mentions := by
  unfold Headers.nonEmpty?
  split
  · rename_i empty
    obtain ⟨⟨params, consts⟩, -⟩ :
        (h.args.params = [] ∧ h.args.consts = []) ∧ h.clientRequestId = none := by
      simpa [Arguments.isEmpty] using empty
    simp [Headers.mentions, Arguments.mentions, params, consts, propMentions]
  · simp

theorem request_traces (host : List NamedSchema) (operation : Operation) (stage : Stage) :
    Traces c (propMentions host) (c.request host operation stage) Request.mentions := by
  have start : argumentMentions ({ params := host }, {}, {}) = propMentions host := by
    simp [argumentMentions, Arguments.mentions, Headers.mentions, propMentions]
  have arguments := Traces.foldlM (addParameter_traces (c := c)) operation.parameters
    ({ params := host }, {}, {})
  rw [start] at arguments
  apply arguments.bind
  intro found
  obtain ⟨path, query, header⟩ := found
  apply (requestBody_traces operation.body stage).frame.bind
  intro body
  apply Traces.reorder
  simp only [Request.mentions, mentions_nonEmpty, mentions_nonEmptyHeaders]
  exact (((mentions_sorted path).append (mentions_sorted query)).append
    (mentions_sorted header.args)).append_right _

end Converter

end WireSchema
