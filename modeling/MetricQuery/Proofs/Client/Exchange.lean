import MetricQuery.Client.Exchange
import MetricQuery.Proofs.Outcome

/-!
# What a reply means

Status, content type and body of a reply decide together what comes of a query. The body is read
where the request succeeded, or where the status is one of errors and the content type says JSON.
Only a successful request with a successful answer returns; a body that is read and reports an error
or is no answer fails with that; whatever is left fails with the status.
-/

namespace MetricQuery
namespace Reply

theorem occursIn_iff {part cs : List Char} : occursIn part cs = true ↔ part <:+: cs := by
  induction cs with
  | nil => rw [occursIn, List.isEmpty_iff, List.infix_nil]
  | cons c rest ih =>
    rw [occursIn, Bool.or_eq_true, ih, List.isPrefixOf_iff_prefix, List.infix_cons_iff]

/-- The status is one of success. -/
def Succeeds (r : Reply) : Prop := 200 ≤ r.status ∧ r.status < 300

/-- The content type contains the name of JSON. -/
def SaysJson (r : Reply) : Prop :=
  ∃ header, r.contentType = some header ∧ "application/json".toList <:+: header.toList

/-- The body is looked at. -/
def IsRead (r : Reply) : Prop :=
  r.Succeeds ∨ (r.status = 400 ∨ r.status = 422 ∨ r.status = 503) ∧ r.SaysJson

/-- The answer that the body of a reply holds. -/
def read (r : Reply) : Except Response.Refusal Response := Response.read (.bytes r.body)

/-- The request succeeded, and so did the query. -/
def Returns (r : Reply) (R : Response) : Prop :=
  r.Succeeds ∧ r.read = .ok R ∧ R.status = .success

/-- The body is read and holds an error of the server, with an empty message if it has none. -/
def Reports (r : Reply) (e : ServerError) : Prop :=
  r.IsRead ∧ ∃ R, r.read = .ok R ∧ R.status = .error ∧ e = ⟨R.errorType, R.error.getD ""⟩

/-- The body is read and is no answer. -/
def IsUnreadable (r : Reply) : Prop := r.IsRead ∧ ∀ R, r.read ≠ .ok R

variable {r : Reply}

theorem isSuccess_iff : r.isSuccess = true ↔ r.Succeeds := by
  simp [isSuccess, Succeeds]

theorem isJson_iff : r.isJson = true ↔ r.SaysJson := by
  rw [isJson, occursIn_iff, SaysJson]
  cases r.contentType with
  | none => simp
  | some header => simp

theorem mayReport_iff : r.mayReport = true ↔
    (r.status = 400 ∨ r.status = 422 ∨ r.status = 503) ∧ r.SaysJson := by
  rw [mayReport, Bool.and_eq_true, isJson_iff]
  simp [errorStatuses]

/-! ### Answers -/

theorem read_eq : r.read = (Response.ofBytes r.body).toExcept.mapError .problems := rfl

theorem answer_of_ok {R : Response} (hread : r.read = .ok R) :
    r.answer = R.orError.mapError .server := by
  rw [read_eq, mapError_eq_ok_iff] at hread
  rw [answer, hread]
  rfl

/-- Bytes are refused for their problems only. -/
theorem answer_of_error {e : Response.Refusal} (hread : r.read = .error e) :
    ∃ ps, e = .problems ps ∧ r.answer = .error (.response ps) := by
  rw [read_eq, mapError_eq_error_iff] at hread
  obtain ⟨ps, hps, rfl⟩ := hread
  refine ⟨ps, rfl, ?_⟩
  rw [answer, hps]
  rfl

theorem answer_of_success {R : Response} (hread : r.read = .ok R) (hstatus : R.status = .success) :
    r.answer = .ok R := by
  rw [answer_of_ok hread, Response.orError, hstatus]
  rfl

theorem answer_of_report {R : Response} (hread : r.read = .ok R) (hstatus : R.status = .error) :
    r.answer = .error (.server ⟨R.errorType, R.error.getD ""⟩) := by
  rw [answer_of_ok hread, Response.orError, hstatus]
  rfl

/-! ### The order of the checks -/

theorem outcome_of_succeeds (hsucceeds : r.Succeeds) : r.outcome = r.answer := by
  -- No status of success is one at which the server reports errors.
  have hreport : r.mayReport = false := by
    rw [Bool.eq_false_iff, ne_eq, mayReport_iff]
    rintro ⟨hstatus, -⟩
    unfold Succeeds at hsucceeds
    omega
  rw [outcome, hreport, checkStatus, isSuccess_iff.2 hsucceeds]
  rfl

theorem checkStatus_of_not_succeeds (hsucceeds : ¬ r.Succeeds) :
    r.checkStatus = .error (.status r.status) := by
  rw [checkStatus, if_neg (mt isSuccess_iff.1 hsucceeds)]

/-- Where the body is read although the request did not succeed, a failure of the answer comes
before the status. -/
theorem outcome_of_reporting (hsucceeds : ¬ r.Succeeds) (hread : r.IsRead) :
    r.outcome = r.answer >>= fun _ => .error (.status r.status) := by
  rw [outcome, mayReport_iff.2 (hread.resolve_left hsucceeds),
    checkStatus_of_not_succeeds hsucceeds]
  cases r.answer <;> rfl

theorem outcome_of_not_isRead (hread : ¬ r.IsRead) : r.outcome = .error (.status r.status) := by
  have hreport : r.mayReport = false :=
    Bool.eq_false_iff.2 fun hreport => hread (.inr (mayReport_iff.1 hreport))
  rw [outcome, hreport, checkStatus_of_not_succeeds fun h => hread (.inl h)]
  rfl

/-! ### Outcomes -/

theorem outcome_of_returns {R : Response} (h : r.Returns R) : r.outcome = .ok R := by
  obtain ⟨hsucceeds, hread, hstatus⟩ := h
  rw [outcome_of_succeeds hsucceeds, answer_of_success hread hstatus]

/-- A failure of the answer in a body that is read is the outcome. -/
theorem outcome_of_answer_error (hread : r.IsRead) {e : Failure} (hanswer : r.answer = .error e) :
    r.outcome = .error e := by
  by_cases hsucceeds : r.Succeeds
  · rw [outcome_of_succeeds hsucceeds, hanswer]
  · rw [outcome_of_reporting hsucceeds hread, hanswer]
    rfl

theorem outcome_of_reports {e : ServerError} (h : r.Reports e) :
    r.outcome = .error (.server e) := by
  obtain ⟨hread, R, hbody, hstatus, rfl⟩ := h
  exact outcome_of_answer_error hread (answer_of_report hbody hstatus)

theorem outcome_of_isUnreadable (h : r.IsUnreadable) :
    ∃ ps, r.read = .error (.problems ps) ∧ r.outcome = .error (.response ps) := by
  obtain ⟨hread, hbody⟩ := h
  cases hr : r.read with
  | ok R => exact absurd hr (hbody R)
  | error e =>
    obtain ⟨ps, rfl, hanswer⟩ := answer_of_error hr
    exact ⟨ps, rfl, outcome_of_answer_error hread hanswer⟩

/-- The reply does not return, and its body is not read or holds a success. -/
def IsLeft (r : Reply) : Prop :=
  (¬ ∃ R, r.Returns R) ∧ (¬ ∃ e, r.Reports e) ∧ ¬ r.IsUnreadable

theorem outcome_of_isLeft (h : r.IsLeft) : r.outcome = .error (.status r.status) := by
  obtain ⟨hreturns, hreports, hunreadable⟩ := h
  by_cases hread : r.IsRead
  · cases hbody : r.read with
    | error e => exact absurd ⟨hread, by simp [hbody]⟩ hunreadable
    | ok R =>
      cases hstatus : R.status with
      | error => exact absurd ⟨_, hread, R, hbody, hstatus, rfl⟩ hreports
      | success =>
        -- A success under a status of errors: the body passes, and the status is raised.
        have hsucceeds : ¬ r.Succeeds := fun hsucceeds =>
          hreturns ⟨R, hsucceeds, hbody, hstatus⟩
        rw [outcome_of_reporting hsucceeds hread, answer_of_success hbody hstatus]
        rfl
  · exact outcome_of_not_isRead hread

/-- Every reply has one of four outcomes. -/
theorem outcome_cases (r : Reply) :
    (∃ R, r.Returns R ∧ r.outcome = .ok R) ∨
    (∃ e, r.Reports e ∧ r.outcome = .error (.server e)) ∨
    (r.IsUnreadable ∧ ∃ ps, r.outcome = .error (.response ps)) ∨
    r.IsLeft ∧ r.outcome = .error (.status r.status) := by
  by_cases hreturns : ∃ R, r.Returns R
  · obtain ⟨R, hR⟩ := hreturns
    exact .inl ⟨R, hR, outcome_of_returns hR⟩
  by_cases hreports : ∃ e, r.Reports e
  · obtain ⟨e, he⟩ := hreports
    exact .inr (.inl ⟨e, he, outcome_of_reports he⟩)
  by_cases hunreadable : r.IsUnreadable
  · obtain ⟨ps, -, hps⟩ := outcome_of_isUnreadable hunreadable
    exact .inr (.inr (.inl ⟨hunreadable, ps, hps⟩))
  · have hleft : r.IsLeft := ⟨hreturns, hreports, hunreadable⟩
    exact .inr (.inr (.inr ⟨hleft, outcome_of_isLeft hleft⟩))

/-- At this status the server reports no errors, so that the body does not count. -/
example (body : ByteArray) : (Reply.mk 500 (some "application/json") body).outcome =
    .error (.status 500) := rfl

theorem outcome_eq_ok_iff {R : Response} : r.outcome = .ok R ↔ r.Returns R := by
  refine ⟨fun h => ?_, outcome_of_returns⟩
  rcases r.outcome_cases with ⟨R', hR, h'⟩ | ⟨e, -, h'⟩ | ⟨-, ps, h'⟩ | ⟨-, h'⟩
  · rwa [← Except.ok.inj (h'.symm.trans h)]
  all_goals cases h'.symm.trans h

theorem outcome_eq_server_iff {e : ServerError} :
    r.outcome = .error (.server e) ↔ r.Reports e := by
  refine ⟨fun h => ?_, outcome_of_reports⟩
  rcases r.outcome_cases with ⟨R, -, h'⟩ | ⟨e', he, h'⟩ | ⟨-, ps, h'⟩ | ⟨-, h'⟩
  · cases h'.symm.trans h
  · rwa [← Failure.server.inj (Except.error.inj (h'.symm.trans h))]
  all_goals cases h'.symm.trans h

theorem exists_outcome_eq_response_iff :
    (∃ ps, r.outcome = .error (.response ps)) ↔ r.IsUnreadable := by
  constructor
  · rintro ⟨ps, h⟩
    rcases r.outcome_cases with ⟨R, -, h'⟩ | ⟨e, -, h'⟩ | ⟨hunreadable, -⟩ | ⟨-, h'⟩
    · cases h'.symm.trans h
    · cases h'.symm.trans h
    · exact hunreadable
    · cases h'.symm.trans h
  · intro h
    obtain ⟨ps, -, hps⟩ := outcome_of_isUnreadable h
    exact ⟨ps, hps⟩

theorem outcome_eq_status_iff {code : Nat} :
    r.outcome = .error (.status code) ↔ code = r.status ∧ r.IsLeft := by
  constructor
  · intro h
    rcases r.outcome_cases with ⟨R, -, h'⟩ | ⟨e, -, h'⟩ | ⟨-, ps, h'⟩ | ⟨hleft, h'⟩
    · cases h'.symm.trans h
    · cases h'.symm.trans h
    · cases h'.symm.trans h
    · exact ⟨(Failure.status.inj (Except.error.inj (h'.symm.trans h))).symm, hleft⟩
  · rintro ⟨rfl, hleft⟩
    exact outcome_of_isLeft hleft

end Reply

/-- Only the message that a query is done has the level of information. -/
theorem Response.filter_logMessages (R : Response) :
    R.logMessages.filter (·.level = .info) = [R.completed] := by
  unfold logMessages
  rcases R.warnings with _ | _ | ⟨w, ws⟩ <;> rfl

/-- **What comes of a query.** It returns exactly the answers of successful requests that are
successes themselves. An error of the server and an unreadable body are raised where the body is
read, and in every other case the status is. The message that the query is done is logged exactly
where it returns. -/
theorem Client.execute_outcome (c : Client) (q : Query) (r : Reply) :
    ∃ result log, c.execute q (.ok r) = .executed result [c.request q] log ∧
      (∀ R, result = .ok R ↔ r.Returns R) ∧
      (∀ e, result = .error (.server e) ↔ r.Reports e) ∧
      ((∃ ps, result = .error (.response ps)) ↔ r.IsUnreadable) ∧
      (∀ code, result = .error (.status code) ↔ code = r.status ∧ r.IsLeft) ∧
      log.filter (·.level = .info) = (result.toOption.map Response.completed).toList := by
  refine ⟨r.outcome, _, rfl, fun R => Reply.outcome_eq_ok_iff, fun e => Reply.outcome_eq_server_iff,
    Reply.exists_outcome_eq_response_iff, fun code => Reply.outcome_eq_status_iff, ?_⟩
  have hresult : ((.ok r : Except TransportFault Reply).mapError Failure.transport).bind
      Reply.outcome = r.outcome := rfl
  rw [hresult]
  cases r.outcome with
  | error e => rfl
  | ok R => exact R.filter_logMessages

end MetricQuery
