import JobQueue.Proofs.Json.Embeddings
import JobQueue.Request.Codec

/-! # Durations, schedules and requests as values

Each of them is written in one way and may be spelled in several. A spelling says what it stands
for: a duration is given by numbers of seconds and nanoseconds that add up to it, in an object or a
list; a schedule by a word or an object of one member; a request by the members of an object, or by
a list of them.

* `Duration.ofJson?_eq_some_iff`, `Schedule.ofJson?_eq_some_iff`: **the spellings that are read.**
* `IsCanonical`: the one form in which a value is written; `isCanonical_iff`.
* `Request.ofJson?_toJson`: **a request is read back**, with the documents embedded in its payload
  in their place. `Request.ofJson?_arr`: **a list reads as an object with the same values.** -/

namespace JobQueue

/-! ### Durations -/

namespace Duration

/-- The numbers, of 64 and 32 bits, add up to the duration. -/
def HasParts (d : Duration) (secs nanos : Json) : Prop :=
  ∃ s n : Nat, secs = .int s ∧ nanos = .int n ∧ s ≤ 18446744073709551615 ∧ n ≤ 4294967295 ∧
    s * nanosPerSecond + n = d.nanos

/-- **The value spells the duration**, in a list of the two numbers or in an object of them. -/
inductive Spelling (d : Duration) : Json → Prop
  | list {secs nanos : Json} : d.HasParts secs nanos → Spelling d (.arr [secs, nanos])
  | object {fields : Fields} {secs nanos : Json} :
      (∀ m ∈ fields, m.1 = "secs" ∨ m.1 = "nanos") → fields.get? "secs" = some secs →
      fields.get? "nanos" = some nanos → d.HasParts secs nanos → Spelling d (.obj fields)

theorem ofNanos?_eq_some_iff {n : Nat} {d : Duration} : ofNanos? n = some d ↔ n = d.nanos := by
  unfold ofNanos?
  split
  · next h =>
    constructor
    · rintro ⟨⟩
      rfl
    · rintro rfl
      rfl
  · next h =>
    constructor
    · rintro ⟨⟩
    · rintro rfl
      exact absurd d.nanos_lt h

theorem ofParts_eq_some_iff {secs nanos : Json} {d : Duration} :
    Duration.ofParts secs nanos = some d ↔ d.HasParts secs nanos := by
  simp only [Duration.ofParts, Option.bind_eq_bind, Option.bind_eq_some_iff,
    Json.asNat?_eq_some_iff, ofParts?, ofNanos?_eq_some_iff]
  constructor
  · rintro ⟨s, ⟨hsecs, hs⟩, n, ⟨hnanos, hn⟩, hsum⟩
    exact ⟨s, n, hsecs, hnanos, hs, hn, hsum⟩
  · rintro ⟨s, n, hsecs, hnanos, hs, hn, hsum⟩
    exact ⟨s, ⟨hsecs, hs⟩, n, ⟨hnanos, hn⟩, hsum⟩

/-- **The spellings of a duration are what is read as it.** -/
theorem ofJson?_eq_some_iff {v : Json} {d : Duration} :
    Duration.ofJson? v = some d ↔ d.Spelling v := by
  constructor
  · intro h
    unfold Duration.ofJson? at h
    split at h
    · split at h
      · next hnames =>
        obtain ⟨secs, hsecs, h⟩ := Option.bind_eq_some_iff.1 h
        obtain ⟨nanos, hnanos, h⟩ := Option.bind_eq_some_iff.1 h
        refine .object (fun m hm => ?_) hsecs hnanos (ofParts_eq_some_iff.1 h)
        simpa using List.all_eq_true.1 hnames m hm
      · cases h
    · exact .list (ofParts_eq_some_iff.1 h)
    · cases h
  · intro h
    cases h with
    | list h => exact ofParts_eq_some_iff.2 h
    | @object fields _ _ hnames hsecs hnanos h =>
      have hall : (fields.all fun m => m.1 == "secs" || m.1 == "nanos") = true :=
        List.all_eq_true.2 fun m hm => by simpa using hnames m hm
      unfold Duration.ofJson?
      dsimp only
      rw [if_pos hall, hsecs, hnanos]
      exact ofParts_eq_some_iff.2 h

/-- The one form of a duration: whole seconds, and nanoseconds of less than a second. -/
def IsCanonical : Json → Prop :=
  Json.IsRecord [("secs", Json.IsWritten (fun n : Nat => .int n) (· ≤ 18446744073709551615)),
    ("nanos", Json.IsWritten (fun n : Nat => .int n) (· ≤ 999999999))]

theorem secs_le (d : Duration) : d.secs ≤ 18446744073709551615 := by
  have := d.nanos_lt
  unfold durationBound nanosPerSecond at this
  unfold secs nanosPerSecond
  omega

theorem subsecNanos_le (d : Duration) : d.subsecNanos ≤ 999999999 := by
  unfold subsecNanos nanosPerSecond
  omega

theorem hasParts (d : Duration) : d.HasParts (.int d.secs) (.int d.subsecNanos) :=
  ⟨d.secs, d.subsecNanos, rfl, rfl, d.secs_le, d.subsecNanos_le.trans (by decide), d.nanos_eq⟩

theorem spelling_toJson (d : Duration) : d.Spelling d.toJson := by
  have hlists := Fields.lists_ofList_zip (show ["secs", "nanos"].Nodup by decide)
    (show [Json.int d.secs, Json.int d.subsecNanos].length ≤ 2 from le_rfl)
  refine .object (fun m hm => ?_) (hlists 0 "secs" rfl) (hlists 1 "nanos" rfl) d.hasParts
  simpa using Fields.mem_names_ofList.1 (List.mem_map_of_mem (f := Prod.fst) hm)

@[simp] theorem ofJson?_toJson (d : Duration) : Duration.ofJson? d.toJson = some d :=
  ofJson?_eq_some_iff.2 d.spelling_toJson

theorem isCanonical_toJson (d : Duration) : IsCanonical d.toJson := by
  refine (Json.isRecord_iff (by decide)).2 ⟨[.int d.secs, .int d.subsecNanos], ?_, rfl⟩
  exact .cons ⟨d.secs, d.secs_le, rfl⟩ (.cons ⟨d.subsecNanos, d.subsecNanos_le, rfl⟩ .nil)

theorem isCanonical_iff {v : Json} : IsCanonical v ↔ ∃ d : Duration, d.toJson = v := by
  constructor
  · intro h
    obtain ⟨values, hvalues, rfl⟩ := (Json.isRecord_iff (by decide)).1 h
    obtain _ | ⟨⟨s, hs, rfl⟩, _ | ⟨⟨n, hn, rfl⟩, _ | _⟩⟩ := hvalues
    have hlt : s * nanosPerSecond + n < durationBound := by
      unfold nanosPerSecond durationBound nanosPerSecond
      omega
    have hsecs : (s * nanosPerSecond + n) / nanosPerSecond = s := by
      unfold nanosPerSecond
      omega
    have hnanos : (s * nanosPerSecond + n) % nanosPerSecond = n := by
      unfold nanosPerSecond
      omega
    refine ⟨⟨s * nanosPerSecond + n, hlt⟩, ?_⟩
    unfold Duration.toJson Duration.secs Duration.subsecNanos
    rw [hsecs, hnanos]
    rfl
  · rintro ⟨d, rfl⟩
    exact d.isCanonical_toJson

end Duration

/-! ### Schedules -/

namespace Schedule

/-- The time is a point in time. -/
def InRange : Schedule → Prop
  | .at time => Timestamp.InRange time
  | _ => True

/-- **The value spells the schedule.** -/
inductive Spelling : Schedule → Json → Prop
  | word : Spelling .immediate (.str "immediate")
  | immediate : Spelling .immediate (.obj [("immediate", .null)])
  | delayed {delay : Duration} {v : Json} : delay.Spelling v →
      Spelling (.delayed delay) (.obj [("delayed", v)])
  | at {time : Int} : Timestamp.InRange time → Spelling (.at time) (.obj [("at", .int time)])

/-- **The spellings of a schedule are what is read as it.** -/
theorem ofJson?_eq_some_iff {v : Json} {s : Schedule} :
    Schedule.ofJson? v = some s ↔ s.Spelling v := by
  constructor
  · intro h
    unfold Schedule.ofJson? at h
    split at h
    · split at h
      · next hword =>
        cases h
        rw [hword]
        exact .word
      · cases h
    · split at h
      · next hname =>
        split at h
        · cases h
          rw [hname]
          exact .immediate
        · cases h
      · split at h
        · next hname =>
          obtain ⟨delay, hdelay, heq⟩ := Option.map_eq_some_iff.1 h
          cases heq
          rw [hname]
          exact .delayed (Duration.ofJson?_eq_some_iff.1 hdelay)
        · split at h
          · next hname =>
            obtain ⟨time, htime, heq⟩ := Option.map_eq_some_iff.1 h
            cases heq
            obtain ⟨rfl, hrange⟩ := Json.asIntIn?_eq_some_iff.1 htime
            rw [hname]
            exact .at hrange
          · cases h
    · cases h
  · intro h
    cases h with
    | word => rfl
    | immediate => rfl
    | delayed h =>
      show (Duration.ofJson? _).map Schedule.delayed = _
      rw [Duration.ofJson?_eq_some_iff.2 h]
      rfl
    | «at» h =>
      show (Json.asInt64? _).map Schedule.at = _
      rw [Json.asInt64?_int h]
      rfl

theorem Spelling.inRange {s : Schedule} {v : Json} (h : s.Spelling v) : s.InRange := by
  cases h with
  | «at» h => exact h
  | word | immediate | delayed _ => trivial

theorem spelling_toJson {s : Schedule} (h : s.InRange) : s.Spelling s.toJson := by
  cases s with
  | immediate => exact .word
  | delayed delay => exact .delayed delay.spelling_toJson
  | «at» time => exact .at h

theorem ofJson?_toJson {s : Schedule} (h : s.InRange) : Schedule.ofJson? s.toJson = some s :=
  ofJson?_eq_some_iff.2 (spelling_toJson h)

/-- The one form of a schedule: the word, or an object of the one other name. -/
def IsCanonical (v : Json) : Prop :=
  v = .str "immediate" ∨ Json.IsRecord [("delayed", Duration.IsCanonical)] v ∨
    Json.IsRecord [("at", Json.IsInt64)] v

theorem isCanonical_iff {v : Json} :
    IsCanonical v ↔ ∃ s : Schedule, s.InRange ∧ s.toJson = v := by
  unfold IsCanonical
  rw [Json.isRecord_singleton, Json.isRecord_singleton]
  constructor
  · rintro (rfl | ⟨w, hw, rfl⟩ | ⟨w, ⟨time, htime, rfl⟩, rfl⟩)
    · exact ⟨.immediate, trivial, rfl⟩
    · obtain ⟨delay, rfl⟩ := Duration.isCanonical_iff.1 hw
      exact ⟨.delayed delay, trivial, rfl⟩
    · exact ⟨.at time, htime, rfl⟩
  · rintro ⟨s, hs, rfl⟩
    cases s with
    | immediate => exact .inl rfl
    | delayed delay => exact .inr (.inl ⟨_, delay.isCanonical_toJson, rfl⟩)
    | «at» time => exact .inr (.inr ⟨_, ⟨time, hs, rfl⟩, rfl⟩)

end Schedule

/-! ### Requests -/

namespace Request

/-- The numbers are within their ranges. -/
structure InRange (request : Request) : Prop where
  schedule : request.schedule.InRange
  maxAttempts : ∀ n, request.maxAttempts = some n → FitsInt32 n

/-- **The request with the documents embedded in its payload in their place.** -/
def resolved? (request : Request) : Option Request :=
  request.payload.resolved?.map fun payload => { request with payload := payload }

theorem resolved?_eq_self_iff {request : Request} :
    request.resolved? = some request ↔ request.payload.Kept := by
  unfold resolved?
  rw [Fields.kept_iff, ← Fields.resolved?_eq_self_iff, Option.map_eq_some_iff]
  constructor
  · rintro ⟨payload, hpayload, heq⟩
    rw [hpayload, ← congrArg Request.payload heq]
  · intro h
    exact ⟨_, h, rfl⟩

/-- The forms of the fields. -/
def forms : List (String × (Json → Prop)) :=
  fieldNames.zip [Json.IsStr, Json.IsStr, Json.IsObj, Schedule.IsCanonical,
    Json.IsOptional Json.IsInt32]

/-- The one form of a request. -/
def IsCanonical : Json → Prop := Json.IsRecord forms

/-- The values of the fields, in their order. -/
def values (request : Request) : List Json :=
  [.str request.queue, .str request.jobType, .obj request.payload, request.schedule.toJson,
    Json.ofOption Json.int request.maxAttempts]

theorem toJson_eq (request : Request) :
    request.toJson = Json.ofFields (fieldNames.zip request.values) := rfl

theorem nodup_fieldNames : fieldNames.Nodup := by decide

theorem isCanonical_iff {v : Json} :
    IsCanonical v ↔ ∃ request : Request, request.InRange ∧ request.toJson = v := by
  unfold IsCanonical
  rw [Json.isRecord_iff (show (forms.map Prod.fst).Nodup from nodup_fieldNames)]
  constructor
  · rintro ⟨values, hvalues, rfl⟩
    obtain _ | ⟨⟨queue, -, rfl⟩, _ | ⟨⟨jobType, -, rfl⟩, _ | ⟨⟨payload, -, rfl⟩, _ |
      ⟨hschedule, _ | ⟨hattempts, _ | _⟩⟩⟩⟩⟩ := hvalues
    obtain ⟨schedule, hrange, rfl⟩ := Schedule.isCanonical_iff.1 hschedule
    obtain ⟨maxAttempts, hfits, rfl⟩ := Json.isOptional_iff.1 hattempts
    exact ⟨⟨queue, jobType, payload, schedule, maxAttempts⟩, ⟨hrange, hfits⟩, rfl⟩
  · rintro ⟨request, hrange, rfl⟩
    refine ⟨request.values, ?_, rfl⟩
    have hschedule := Schedule.isCanonical_iff.2 ⟨_, hrange.schedule, rfl⟩
    exact .cons ⟨_, trivial, rfl⟩ <| .cons ⟨_, trivial, rfl⟩ <| .cons ⟨_, trivial, rfl⟩ <|
      .cons hschedule <| .cons (Json.isOptional_iff.2 ⟨_, hrange.maxAttempts, rfl⟩) .nil

theorem ofFields?_congr {fields g : Fields}
    (h : ∀ name ∈ fieldNames, fields.get? name = g.get? name) : ofFields? fields = ofFields? g := by
  unfold ofFields? payload?
  rw [Fields.required?_congr (h "queue" (by decide)),
    Fields.required?_congr (h "job_type" (by decide)), h "payload" (by decide),
    Fields.required?_congr (h "schedule" (by decide)),
    Fields.optional?_congr (h "max_attempts" (by decide))]

/-- **A list reads as an object with the same values**, where those after its end are missing. -/
theorem ofJson?_arr {items : List Json} {fields : Fields}
    (hlength : items.length ≤ fieldNames.length) (h : fields.Lists fieldNames items) :
    Request.ofJson? (.arr items) = Request.ofJson? (.obj fields) := by
  unfold Request.ofJson?
  dsimp only
  rw [if_pos hlength]
  exact ofFields?_congr fun _ => (Fields.lists_ofList_zip nodup_fieldNames hlength).get?_eq h

/-- **An object with the values of a request is read as it**, with the embedded documents in their
place. -/
theorem ofFields?_of_lists {request : Request} (hrange : request.InRange) {fields : Fields}
    (h : fields.Lists fieldNames request.values) : ofFields? fields = request.resolved? := by
  have hattempts : Json.asOptional? Json.asInt32? (Json.ofOption Json.int request.maxAttempts) =
      some request.maxAttempts :=
    Json.asOptional?_ofOption_of_forall (fun _ => by simp) fun n hn =>
      Json.asInt32?_int (hrange.maxAttempts n hn)
  unfold ofFields? payload? Fields.required? Fields.optional?
  rw [h 0 "queue" rfl, h 1 "job_type" rfl, h 2 "payload" rfl, h 3 "schedule" rfl,
    h 4 "max_attempts" rfl]
  simp [values, Json.asString?, Json.asDocument?, Json.asFields?, hattempts,
    Schedule.ofJson?_toJson hrange.schedule, resolved?, Option.map_eq_bind]

theorem ofJson?_toJson {request : Request} (h : request.InRange) :
    Request.ofJson? request.toJson = request.resolved? := by
  have hlength : request.values.length ≤ fieldNames.length := le_rfl
  rw [toJson_eq, Json.ofFields, Request.ofJson?]
  exact ofFields?_of_lists h (Fields.lists_ofList_zip nodup_fieldNames hlength)

theorem inRange_of_ofFields? {fields : Fields} {request : Request}
    (h : ofFields? fields = some request) : request.InRange := by
  simp only [ofFields?, Option.bind_eq_bind, Option.bind_eq_some_iff] at h
  obtain ⟨_, _, _, _, _, _, schedule, hschedule, attempts, hattempts, heq⟩ := h
  cases heq
  refine ⟨?_, fun n hn => ?_⟩
  · obtain ⟨v, -, hv⟩ := Fields.required?_eq_some_iff.1 hschedule
    exact (Schedule.ofJson?_eq_some_iff.1 hv).inRange
  · subst hn
    obtain ⟨v, -, hv⟩ := Fields.exists_of_optional? hattempts
    exact (Json.asIntIn?_eq_some_iff.1 hv).2

theorem inRange_of_ofJson? {v : Json} {request : Request} (h : Request.ofJson? v = some request) :
    request.InRange := by
  unfold Request.ofJson? at h
  split at h
  · exact inRange_of_ofFields? h
  · split at h
    · exact inRange_of_ofFields? h
    · cases h
  · cases h

end Request

end JobQueue
