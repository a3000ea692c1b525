import JobQueue.Proofs.Request.Forms

/-! # Jobs as values, and the way round

A job is written and read like a request (`Proofs.Request.Forms`); its result may hold embedded
documents as well as its payload. Writing and reading fit together in the same way for both
(`RoundTrips`).

* `Status.ofJson?_eq_some_iff`: the two spellings of a state.
* `Job.ofFields?_of_lists`: **an object with the values of a job is read as it.**
* `forms_round_trip`: **jobs and requests are read back, when the reader of values does its part;
  whatever was accepted is written in the one form that its value has.** -/

namespace JobQueue

/-! ### States -/

theorem Status.ofJson?_eq_some_iff {v : Json} {s : Status} :
    Status.ofJson? v = some s ↔ v = .str s.name ∨ v = .obj [(s.name, .null)] := by
  constructor
  · intro h
    unfold Status.ofJson? at h
    split at h
    · exact .inl (by rw [name_of_ofName? h])
    · exact .inr (by rw [name_of_ofName? h])
    · cases h
  · rintro (rfl | rfl)
    · exact ofName?_name s
    · exact ofName?_name s

/-- The one form of a state is its name. -/
def Status.IsCanonical : Json → Prop := Json.IsWritten Status.toJson fun _ => True

/-! ### Jobs -/

/-- The members that there may be, with the documents embedded in them in their place. -/
def Fields.resolvedOption? : Option Fields → Option (Option Fields)
  | none => some none
  | some fields => fields.resolved?.map some

theorem Fields.resolvedOption?_eq_self_iff {o : Option Fields} :
    resolvedOption? o = some o ↔ ∀ fields, o = some fields → fields.Kept := by
  cases o with
  | none => simp [resolvedOption?]
  | some fields => simp [resolvedOption?, kept_iff, ← resolved?_eq_self_iff]

namespace Job

/-- No object inside payload or result begins with the name of an embedding. -/
structure Unembedded (job : Job) : Prop where
  payload : job.payload.Unembedded
  result : ∀ result, job.result = some result → result.Unembedded

/-- **The reader of values does its part** for payload and result. -/
structure Kept (job : Job) : Prop where
  payload : job.payload.Kept
  result : ∀ result, job.result = some result → result.Kept

theorem kept_iff {job : Job} : job.Kept ↔ job.Unembedded :=
  ⟨fun h => ⟨Fields.kept_iff.1 h.payload, fun result hresult =>
      Fields.kept_iff.1 (h.result result hresult)⟩,
    fun h => ⟨Fields.kept_iff.2 h.payload, fun result hresult =>
      Fields.kept_iff.2 (h.result result hresult)⟩⟩

/-- **The job with the documents embedded in payload and result in their place.** -/
def resolved? (job : Job) : Option Job := do
  let payload ← job.payload.resolved?
  let result ← Fields.resolvedOption? job.result
  return { job with payload := payload, result := result }

theorem resolved?_eq_self_iff {job : Job} : job.resolved? = some job ↔ job.Kept := by
  unfold resolved?
  simp only [Option.bind_eq_bind, Option.bind_eq_some_iff]
  constructor
  · rintro ⟨payload, hpayload, result, hresult, heq⟩
    have heq := Option.some.inj heq
    have hpayload' : payload = job.payload := congrArg Job.payload heq
    have hresult' : result = job.result := congrArg Job.result heq
    refine ⟨Fields.kept_iff.2 (Fields.resolved?_eq_self_iff.1 ?_),
      Fields.resolvedOption?_eq_self_iff.1 ?_⟩
    · rw [hpayload, hpayload']
    · rw [hresult, hresult']
  · intro h
    exact ⟨_, h.payload, _, Fields.resolvedOption?_eq_self_iff.2 h.result, rfl⟩

/-- The forms of the fields. -/
def forms : List (String × (Json → Prop)) :=
  fieldNames.zip [Json.IsStr, Json.IsStr, Json.IsStr, Json.IsObj, Status.IsCanonical,
    Json.IsInt32, Json.IsInt32, Json.IsInt64, Json.IsOptional Json.IsStr,
    Json.IsOptional Json.IsInt64, Json.IsOptional Json.IsObj, Json.IsOptional Json.IsStr,
    Json.IsInt64, Json.IsInt64]

/-- The one form of a job. -/
def IsCanonical : Json → Prop := Json.IsRecord forms

/-- The values of the fields, in their order. -/
def values (job : Job) : List Json :=
  [.str job.id, .str job.queue, .str job.jobType, .obj job.payload, job.status.toJson,
    .int job.attempts, .int job.maxAttempts, .int job.scheduledAt,
    Json.ofOption Json.str job.claimedBy, Json.ofOption Json.int job.claimedAt,
    Json.ofOption Json.obj job.result, Json.ofOption Json.str job.lastError,
    .int job.createdAt, .int job.updatedAt]

theorem toJson_eq (job : Job) : job.toJson = Json.ofFields (fieldNames.zip job.values) := rfl

theorem nodup_fieldNames : fieldNames.Nodup := by decide

/-- **The canonical values are those that are written.** -/
theorem isCanonical_iff {v : Json} :
    IsCanonical v ↔ ∃ job : Job, job.InRange ∧ job.toJson = v := by
  unfold IsCanonical
  rw [Json.isRecord_iff (show (forms.map Prod.fst).Nodup from nodup_fieldNames)]
  constructor
  · rintro ⟨values, hvalues, rfl⟩
    obtain _ | ⟨⟨id, -, rfl⟩, _ | ⟨⟨queue, -, rfl⟩, _ | ⟨⟨jobType, -, rfl⟩, _ |
      ⟨⟨payload, -, rfl⟩, _ | ⟨⟨status, -, rfl⟩, _ | ⟨⟨attempts, hattempts, rfl⟩, _ |
      ⟨⟨maxAttempts, hmax, rfl⟩, _ | ⟨⟨scheduledAt, hscheduled, rfl⟩, hvalues⟩⟩⟩⟩⟩⟩⟩⟩ := hvalues
    obtain _ | ⟨hclaimedBy, _ | ⟨hclaimedAt, _ | ⟨hresult, _ | ⟨hlastError, _ |
      ⟨⟨createdAt, hcreated, rfl⟩, _ | ⟨⟨updatedAt, hupdated, rfl⟩, _ | _⟩⟩⟩⟩⟩⟩ := hvalues
    obtain ⟨claimedBy, -, rfl⟩ := Json.isOptional_iff.1 hclaimedBy
    obtain ⟨claimedAt, hclaimed, rfl⟩ := Json.isOptional_iff.1 hclaimedAt
    obtain ⟨result, -, rfl⟩ := Json.isOptional_iff.1 hresult
    obtain ⟨lastError, -, rfl⟩ := Json.isOptional_iff.1 hlastError
    exact ⟨⟨id, queue, jobType, payload, status, attempts, maxAttempts, scheduledAt, claimedBy,
      claimedAt, result, lastError, createdAt, updatedAt⟩,
      ⟨hattempts, hmax, hscheduled, hclaimed, hcreated, hupdated⟩, rfl⟩
  · rintro ⟨job, h, rfl⟩
    refine ⟨job.values, ?_, rfl⟩
    exact .cons ⟨_, trivial, rfl⟩ <| .cons ⟨_, trivial, rfl⟩ <| .cons ⟨_, trivial, rfl⟩ <|
      .cons ⟨_, trivial, rfl⟩ <| .cons ⟨_, trivial, rfl⟩ <| .cons ⟨_, h.attempts, rfl⟩ <|
      .cons ⟨_, h.maxAttempts, rfl⟩ <| .cons ⟨_, h.scheduledAt, rfl⟩ <|
      .cons (Json.isOptional_iff.2 ⟨_, fun _ _ => trivial, rfl⟩) <|
      .cons (Json.isOptional_iff.2 ⟨_, h.claimedAt, rfl⟩) <|
      .cons (Json.isOptional_iff.2 ⟨_, fun _ _ => trivial, rfl⟩) <|
      .cons (Json.isOptional_iff.2 ⟨_, fun _ _ => trivial, rfl⟩) <|
      .cons ⟨_, h.createdAt, rfl⟩ <| .cons ⟨_, h.updatedAt, rfl⟩ .nil

theorem ofFields?_congr {fields g : Fields}
    (h : ∀ name ∈ fieldNames, fields.get? name = g.get? name) : ofFields? fields = ofFields? g := by
  unfold ofFields? Fields.required? Fields.optional?
  rw [h "id" (by decide), h "queue" (by decide), h "job_type" (by decide),
    h "payload" (by decide), h "status" (by decide), h "attempts" (by decide),
    h "max_attempts" (by decide), h "scheduled_at" (by decide), h "claimed_by" (by decide),
    h "claimed_at" (by decide), h "result" (by decide), h "last_error" (by decide),
    h "created_at" (by decide), h "updated_at" (by decide)]

/-- **A list reads as an object with the same values.** -/
theorem ofJson?_arr {items : List Json} {fields : Fields}
    (hlength : items.length = fieldNames.length) (h : fields.Lists fieldNames items) :
    Job.ofJson? (.arr items) = Job.ofJson? (.obj fields) := by
  unfold Job.ofJson?
  dsimp only
  rw [if_pos hlength]
  exact ofFields?_congr fun _ => (Fields.lists_ofList_zip nodup_fieldNames hlength.le).get?_eq h

/-- **An object with the values of a job is read as it**, with the embedded documents in their
place. -/
theorem ofFields?_of_lists {job : Job} (hrange : job.InRange) {fields : Fields}
    (h : fields.Lists fieldNames job.values) : ofFields? fields = job.resolved? := by
  have htext {name : String} {i : Nat} {s : String} (hname : fieldNames[i]? = some name)
      (hitem : job.values[i]? = some (.str s)) :
      fields.required? name Json.asString? = some s := h.required? hname hitem
  have htext? {name : String} {i : Nat} {o : Option String} (hname : fieldNames[i]? = some name)
      (hitem : job.values[i]? = some (Json.ofOption Json.str o)) :
      fields.optional? name Json.asString? = some o := by
    rw [h.optional? hname hitem]
    exact Json.asOptional?_ofOption_of_forall (fun _ => by simp) fun _ _ => rfl
  have hint32 {name : String} {i : Nat} {n : Int} (hname : fieldNames[i]? = some name)
      (hitem : job.values[i]? = some (.int n)) (hn : FitsInt32 n) :
      fields.required? name Json.asInt32? = some n := by
    rw [h.required? hname hitem, Json.asInt32?_int hn]
  have hint64 {name : String} {i : Nat} {n : Int} (hname : fieldNames[i]? = some name)
      (hitem : job.values[i]? = some (.int n)) (hn : Timestamp.InRange n) :
      fields.required? name Json.asInt64? = some n := by
    rw [h.required? hname hitem, Json.asInt64?_int hn]
  have hpayload : fields.required? "payload" Json.asDocument? = job.payload.resolved? :=
    h.required? (show fieldNames[3]? = _ from rfl) rfl
  have hstatus : fields.required? "status" Status.ofJson? = some job.status := by
    rw [h.required? (show fieldNames[4]? = _ from rfl) rfl, Status.ofJson?_toJson]
  have hclaimedAt : fields.optional? "claimed_at" Json.asInt64? = some job.claimedAt := by
    rw [h.optional? (show fieldNames[9]? = _ from rfl) rfl]
    exact Json.asOptional?_ofOption_of_forall (fun _ => by simp) fun t ht =>
      Json.asInt64?_int (hrange.claimedAt t ht)
  have hresult : fields.optional? "result" Json.asDocument? =
      Fields.resolvedOption? job.result := by
    rw [h.optional? (show fieldNames[10]? = _ from rfl) rfl,
      Json.asOptional?_ofOption fun _ => by simp]
    cases job.result <;> rfl
  unfold ofFields? resolved?
  rw [htext (show fieldNames[0]? = _ from rfl) rfl, htext (show fieldNames[1]? = _ from rfl) rfl,
    htext (show fieldNames[2]? = _ from rfl) rfl, hpayload, hstatus,
    hint32 (show fieldNames[5]? = _ from rfl) rfl hrange.attempts,
    hint32 (show fieldNames[6]? = _ from rfl) rfl hrange.maxAttempts,
    hint64 (show fieldNames[7]? = _ from rfl) rfl hrange.scheduledAt,
    htext? (show fieldNames[8]? = _ from rfl) rfl, hclaimedAt, hresult,
    htext? (show fieldNames[11]? = _ from rfl) rfl,
    hint64 (show fieldNames[12]? = _ from rfl) rfl hrange.createdAt,
    hint64 (show fieldNames[13]? = _ from rfl) rfl hrange.updatedAt]
  rfl

theorem ofJson?_toJson {job : Job} (h : job.InRange) :
    Job.ofJson? job.toJson = job.resolved? := by
  have hlength : job.values.length ≤ fieldNames.length := le_rfl
  rw [toJson_eq, Json.ofFields, Job.ofJson?]
  exact ofFields?_of_lists h (Fields.lists_ofList_zip nodup_fieldNames hlength)

theorem inRange_of_ofFields? {fields : Fields} {job : Job} (h : ofFields? fields = some job) :
    job.InRange := by
  have hint32 {name : String} {n : Int} (h : fields.required? name Json.asInt32? = some n) :
      FitsInt32 n := by
    obtain ⟨v, -, hv⟩ := Fields.required?_eq_some_iff.1 h
    exact (Json.asIntIn?_eq_some_iff.1 hv).2
  have hint64 {name : String} {n : Int} (h : fields.required? name Json.asInt64? = some n) :
      Timestamp.InRange n := by
    obtain ⟨v, -, hv⟩ := Fields.required?_eq_some_iff.1 h
    exact (Json.asIntIn?_eq_some_iff.1 hv).2
  unfold ofFields? at h
  -- The five fields before the numbers
  iterate 5 obtain ⟨_, _, h⟩ := Option.bind_eq_some_iff.1 h
  obtain ⟨attempts, hattempts, h⟩ := Option.bind_eq_some_iff.1 h
  obtain ⟨maxAttempts, hmax, h⟩ := Option.bind_eq_some_iff.1 h
  obtain ⟨scheduledAt, hscheduled, h⟩ := Option.bind_eq_some_iff.1 h
  obtain ⟨_, _, h⟩ := Option.bind_eq_some_iff.1 h
  obtain ⟨claimedAt, hclaimed, h⟩ := Option.bind_eq_some_iff.1 h
  iterate 2 obtain ⟨_, _, h⟩ := Option.bind_eq_some_iff.1 h
  obtain ⟨createdAt, hcreated, h⟩ := Option.bind_eq_some_iff.1 h
  obtain ⟨updatedAt, hupdated, h⟩ := Option.bind_eq_some_iff.1 h
  cases h
  refine ⟨hint32 hattempts, hint32 hmax, hint64 hscheduled, fun t ht => ?_, hint64 hcreated,
    hint64 hupdated⟩
  subst ht
  obtain ⟨v, -, hv⟩ := Fields.exists_of_optional? hclaimed
  exact (Json.asIntIn?_eq_some_iff.1 hv).2

theorem inRange_of_ofJson? {v : Json} {job : Job} (h : Job.ofJson? v = some job) :
    job.InRange := by
  unfold Job.ofJson? at h
  split at h
  · exact inRange_of_ofFields? h
  · split at h
    · exact inRange_of_ofFields? h
    · cases h
  · cases h

end Job

/-! ### The way round -/

/-- **Requests and jobs are written in one form and read back** as the same value, when the reader of
values does its part for the documents in them. Whatever is accepted goes the same way round,
however it is spelled. The reader does its part just if no document is embedded in payload and
result; else what is written is read with the embedded documents in their place. -/
theorem forms_round_trip (request : Request) (job : Job) (v : Json) (status : Status)
    (schedule : Schedule) :
    Json.RoundTrips Request.toJson Request.ofJson? Request.fieldNames Request.InRange
      Request.resolved? (fun r => r.payload.Kept) (fun r => r.payload.Unembedded)
      Request.IsCanonical request ∧
    Json.RoundTrips Job.toJson Job.ofJson? Job.fieldNames Job.InRange
      Job.resolved? Job.Kept Job.Unembedded Job.IsCanonical job ∧
    (Status.ofJson? v = some status ↔ v = .str status.name ∨ v = .obj [(status.name, .null)]) ∧
    (Schedule.ofJson? v = some schedule ↔ schedule.Spelling v) := by
  refine ⟨?_, ?_, Status.ofJson?_eq_some_iff, Schedule.ofJson?_eq_some_iff⟩
  · exact Json.roundTrips_of_inRange (fun _ => Request.ofJson?_toJson)
      (fun _ => Request.resolved?_eq_self_iff) (fun _ => Fields.kept_iff)
      (fun _ _ => Request.inRange_of_ofJson?) (fun _ => Request.isCanonical_iff)
      (fun _ _ hlength => Request.ofJson?_arr hlength.le) request
  · exact Json.roundTrips_of_inRange (fun _ => Job.ofJson?_toJson)
      (fun _ => Job.resolved?_eq_self_iff) (fun _ => Job.kept_iff)
      (fun _ _ => Job.inRange_of_ofJson?) (fun _ => Job.isCanonical_iff)
      (fun _ _ => Job.ofJson?_arr) job

/-- A list reads as a request with a delay, though the pair of the delay has more nanoseconds than a
second, and a list reads as a job, though the state is spelled as an object. Both are written in the
canonical form and read back. -/
theorem forms_round_trip_of_lists :
    let request : Request := ⟨"q", "t", [("n", .int 1)], .delayed (.ofMillis 3500), some 3⟩
    let job : Job := { Job.create "a" 5 "q" "t" [] 5 3 with
      status := .completed, result := some [("done", .bool true)] }
    let spelled : Json := .arr [.str "q", .str "t", .obj [("n", .int 1)],
      .obj [("delayed", .arr [.int 1, .int 2500000000])], .int 3]
    let listed : Json := .arr [.str "a", .str "q", .str "t", .obj [], .obj [("completed", .null)],
      .int 0, .int 3, .int 5, .null, .null, .obj [("done", .bool true)], .null, .int 5, .int 5]
    (Request.ofJson? spelled = some request ∧ request.payload.Kept ∧
      Request.IsCanonical request.toJson ∧ Request.ofJson? request.toJson = some request) ∧
    Job.ofJson? listed = some job ∧ job.Kept ∧ Job.IsCanonical job.toJson ∧
      Job.ofJson? job.toJson = some job := by
  intro request job spelled listed
  have hrequest : Request.ofJson? spelled = some request := rfl
  have hjob : Job.ofJson? listed = some job := rfl
  have hkept : request.payload.Kept := rfl
  have hkept' : job.Kept := ⟨rfl, fun result h => by cases h; rfl⟩
  obtain ⟨hround, hround', -, -⟩ :=
    forms_round_trip request job spelled .completed (.delayed (.ofMillis 3500))
  obtain ⟨hrange, hcanonical, -⟩ := hround.again spelled hrequest
  obtain ⟨hrange', hcanonical', -⟩ := hround'.again listed hjob
  exact ⟨⟨hrequest, hkept, hcanonical, hround.back hrange hkept⟩, hjob, hkept', hcanonical',
    hround'.back hrange' hkept'⟩

end JobQueue
