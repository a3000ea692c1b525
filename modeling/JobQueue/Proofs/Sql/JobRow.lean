import JobQueue.Proofs.Jobs.Effect
import JobQueue.Proofs.Json.RoundTrip
import JobQueue.Store.Sql.Store

/-! # Rows that hold a job

Every row that the store writes is the row of a job (`Row.ofJob`), with an integer in each integer
column. For such rows the conditions of the statements are conditions on the job, and their changes
are changes of the job; the columns keep the integers, as long as a counter is not counted beyond
the integers of a column.

* `isDue_ofJob`, `isHeldBy_ofJob`, `isLive_ofJob`, `isStale_ofJob`, `isExpired_ofJob`: the
  conditions; `orderLt_ofJob`: the order of claims.
* `claim_ofJob`, `settle_ofJob`, `failAttempt_ofJob`: the changes.
* `reading_ofJob`: a job is read back exactly when its texts are (`Job.ReadsBack`), as those of plain
  objects are.
* `isOk_reading_ofJob`: a job is read exactly when its texts are objects (`Job.Legible`). -/

namespace JobQueue

theorem Status.name_beq (s t : Status) : (s.name == t.name) = (s == t) := by
  by_cases h : s = t
  · subst h; simp
  · have hname : s.name ≠ t.name := fun hn => h (name_injective hn)
    rw [beq_eq_false_iff_ne.2 h, beq_eq_false_iff_ne.2 hname]

/-- The text of the object is read as an object. -/
def Fields.Legible (fields : Fields) : Prop :=
  (Json.parseFields? (Json.obj fields).text).isSome = true

/-- The object is read back from its text. -/
def Fields.ReadsBack (fields : Fields) : Prop :=
  Json.parseFields? (Json.obj fields).text = some fields

/-- The object nests no deeper than is read. -/
def Fields.Shallow (fields : Fields) : Prop := (Json.obj fields).depth ≤ Json.maxDepth

/-- The object has no floating-point numbers and nests no deeper than is read. -/
structure Fields.Moderate (fields : Fields) : Prop where
  floatFree : (Json.obj fields).floatFree = true
  shallow : (Json.obj fields).depth ≤ Json.maxDepth

/-- **The reader does its part** for the object: the text of a shallow one is read as an object, and
as this one if there are no floating-point numbers in it. -/
structure Fields.Trusted (fields : Fields) : Prop where
  legible : fields.Shallow → fields.Legible
  readsBack : fields.Moderate → fields.ReadsBack

theorem Fields.ReadsBack.legible {fields : Fields} (h : fields.ReadsBack) : fields.Legible := by
  unfold Fields.Legible
  rw [h]
  rfl

namespace Fields.Plain

variable {fields : Fields} (h : fields.Plain)
include h

theorem readsBack : fields.ReadsBack := Json.parseFields?_text h

theorem legible : fields.Legible := h.readsBack.legible

theorem moderate : fields.Moderate := ⟨h.floatFree, h.shallow⟩

theorem trusted : fields.Trusted := ⟨fun _ => h.legible, fun _ => h.readsBack⟩

end Fields.Plain

namespace Call

/-- **The object comes with the call**, in a job that enters or as the result of one. -/
inductive Brings : Call → Fields → Prop
  | payload (job : Job) : Brings (.insert job) job.payload
  | result {job : Job} {result : Fields} (h : job.result = some result) :
    Brings (.insert job) result
  | report (id : JobId) (worker : WorkerId) (result : Fields) :
    Brings (.complete id worker result) result

def Shallow (call : Call) : Prop := ∀ fields, call.Brings fields → fields.Shallow

def Moderate (call : Call) : Prop := ∀ fields, call.Brings fields → fields.Moderate

/-- **The reader does its part** for the objects that the call brings. -/
def Trusted (call : Call) : Prop := ∀ fields, call.Brings fields → fields.Trusted

end Call

namespace Job

/-- Payload and result are read as objects. -/
structure Legible (job : Job) : Prop where
  payload : job.payload.Legible
  result : ∀ result, job.result = some result → result.Legible

theorem legible_iff {job : Job} :
    job.Legible ↔ job.payload.Legible ∧ ∀ result, job.result = some result → result.Legible :=
  ⟨fun h => ⟨h.payload, h.result⟩, fun h => ⟨h.1, h.2⟩⟩

/-- Payload and result are read back. -/
structure ReadsBack (job : Job) : Prop where
  payload : job.payload.ReadsBack
  result : ∀ result, job.result = some result → result.ReadsBack

end Job

namespace Sql.Row

/-! ### Conditions -/

theorem isDue_ofJob (job : Job) (queue : QueueName) (now : Int) :
    (ofJob job).isDue queue now = (job.queue == queue && job.isClaimable now) := by
  simp [isDue, ofJob, Job.isClaimable, Status.name_beq, Bool.and_assoc]

theorem isHeldBy_ofJob (job : Job) (id : JobId) (worker : WorkerId) :
    (ofJob job).isHeldBy id worker = job.isHeldBy id worker := by
  simp [isHeldBy, Job.isHeldBy, ofJob, Status.name_beq]

theorem isLive_ofJob (job : Job) (id : JobId) : (ofJob job).isLive id = job.isLive id := by
  cases h : job.status <;>
    simp [isLive, Job.isLive, ofJob, h, Status.isTerminal, Status.name]

theorem isStale_ofJob (job : Job) (cutoff : Int) :
    (ofJob job).isStale cutoff = MemoryStore.isStale cutoff job := by
  cases h : job.claimedAt <;>
    simp [isStale, MemoryStore.isStale, ofJob, h, Status.name_beq, Value.ofInt?, Value.isBelow,
      Value.isNull]

theorem isExpired_ofJob (job : Job) (cutoff : Int) :
    (ofJob job).isExpired cutoff = MemoryStore.isExpired cutoff job := by
  cases h : job.status <;>
    simp [isExpired, MemoryStore.isExpired, ofJob, h, Status.isTerminal, Status.name]

theorem orderLt_ofJob (a b : Job) :
    (ofJob a).orderLt (ofJob b) = MemoryStore.precedes a b := by
  have htext : ∀ s t : String, (Value.text s).lt (.text t) = decide (s < t) := fun _ _ => rfl
  rw [Bool.eq_iff_iff]
  unfold orderLt MemoryStore.precedes
  simp only [ofJob, Value.lexLt, Value.lt_int, htext, Bool.or_eq_true, Bool.and_eq_true,
    Bool.not_eq_true', decide_eq_true_eq, decide_eq_false_iff_not, beq_iff_eq, Bool.false_eq_true,
    and_false, or_false]
  grind

/-! ### Changes -/

theorem claim_ofJob (job : Job) (worker : WorkerId) (now : Int) :
    (ofJob job).claim worker now = ofJob (MemoryStore.claimed job worker now) := rfl

theorem settle_ofJob (job : Job) (status : Status) (now : Int) :
    (ofJob job).settle status now = ofJob ({ job with status := status }.release now) := rfl

theorem failAttempt_ofJob {job : Job} (h : job.attempts ≤ 2147483647) (retryAt : Int)
    (error : String) (now : Int) :
    (ofJob job).failAttempt retryAt error now = ofJob (job.afterFailure retryAt error now) := by
  have hsucc : (Value.int job.attempts).succ = .int (job.attempts + 1) :=
    Value.succ_int (by unfold Breakdown.int64Max; omega)
  unfold failAttempt Job.afterFailure
  simp only [ofJob, hsucc, Value.isBelow_int, decide_eq_true_eq]
  split <;> rfl

/-! ### Reading -/

theorem cell_all (row : Row) (column : Column) :
    row.cell (.now Column.all) column = .ok (row.value column) := by
  cases column <;> rfl

theorem read_all {row : Row} {column : Column}
    (h : (Reading.ofColumn column).accepts (row.value column) = true) :
    row.read (.now Column.all) column = .ok (row.value column) := by
  unfold read
  rw [cell_all]
  show (if _ then _ else _) = _
  rw [if_pos h]
  rfl

theorem readText_ofJob (job : Job) {c : Column} {s : String}
    (hcolumn : Reading.ofColumn c = .text) (h : (ofJob job).value c = .text s) :
    (ofJob job).readText (.now Column.all) c = .ok s := by
  unfold readText
  rw [read_all (by rw [hcolumn, h]; rfl), h]
  rfl

theorem readText?_ofJob (job : Job) {c : Column} {s : Option String}
    (hcolumn : Reading.ofColumn c = .optionalText)
    (h : (ofJob job).value c = .ofText? s) :
    (ofJob job).readText? (.now Column.all) c = .ok s := by
  unfold readText?
  cases s <;> rw [read_all (by rw [hcolumn, h]; rfl), h] <;> rfl

theorem readInt_ofJob (job : Job) {c : Column} {n : Int}
    (hcolumn : Reading.ofColumn c = .time ∨ Reading.ofColumn c = .counter)
    (h : (ofJob job).value c = .int n) :
    (ofJob job).readInt (.now Column.all) c = .ok n := by
  unfold readInt
  rw [read_all (by rcases hcolumn with hc | hc <;> rw [hc, h] <;> rfl), h]
  rfl

theorem readInt?_ofJob (job : Job) {c : Column} {n : Option Int}
    (hcolumn : Reading.ofColumn c = .optionalTime)
    (h : (ofJob job).value c = .ofInt? n) :
    (ofJob job).readInt? (.now Column.all) c = .ok n := by
  unfold readInt?
  cases n <;> rw [read_all (by rw [hcolumn, h]; rfl), h] <;> rfl

theorem readCounter_ofJob (job : Job) {c : Column} {n : Int}
    (hcolumn : Reading.ofColumn c = .counter) (h : (ofJob job).value c = .int n)
    (hn : FitsInt32 n) : (ofJob job).readCounter (.now Column.all) c = .ok n := by
  obtain ⟨hlow, hhigh⟩ := hn
  unfold readCounter
  rw [readInt_ofJob job (.inr hcolumn) h]
  show (if n < -2147483648 then _ else if 2147483647 < n then _ else _) = _
  rw [if_neg (by omega), if_neg (by omega)]
  rfl

theorem job_ofJob {job : Job} (hattempts : FitsInt32 job.attempts)
    (hmax : FitsInt32 job.maxAttempts) :
    (ofJob job).job (.now Column.all) = do
      let payload ← fieldsOf (Json.obj job.payload).text
      let result ← fieldsOf? (job.result.map fun fields => (Json.obj fields).text)
      return { job with payload := payload, result := result } := by
  unfold Row.job
  rw [readText_ofJob job (c := .id) rfl rfl, readText_ofJob job (c := .queue) rfl rfl,
    readText_ofJob job (c := .jobType) rfl rfl,
    readText_ofJob job (c := .payload) rfl rfl,
    readText_ofJob job (c := .status) rfl rfl,
    readCounter_ofJob job (c := .attempts) rfl rfl hattempts,
    readCounter_ofJob job (c := .maxAttempts) rfl rfl hmax,
    readInt_ofJob job (c := .scheduledAt) (.inl rfl) rfl,
    readText?_ofJob job (c := .claimedBy) rfl rfl,
    readInt?_ofJob job (c := .claimedAt) rfl rfl,
    readText?_ofJob job (c := .result) rfl rfl,
    readText?_ofJob job (c := .lastError) rfl rfl,
    readInt_ofJob job (c := .createdAt) (.inl rfl) rfl,
    readInt_ofJob job (c := .updatedAt) (.inl rfl) rfl]
  have hstatus : statusOf (ofJob job).status = .ok job.status := by
    unfold statusOf
    simp [ofJob]
  simp only [bind, Except.bind, hstatus]
  rfl

/-- **The answer for a row**: its job, or what is wrong with the row. -/
def reading (row : Row) : Except JobError Job :=
  (row.job (.now Column.all)).mapError RowFault.toError

/-- **What is read of a job**: the job, with what its texts are read as. -/
theorem reading_eq_ok_iff {job job' : Job} (hattempts : FitsInt32 job.attempts)
    (hmax : FitsInt32 job.maxAttempts) : reading (ofJob job) = .ok job' ↔ ∃ payload result,
      fieldsOf (Json.obj job.payload).text = .ok payload ∧
        fieldsOf? (job.result.map fun fields => (Json.obj fields).text) = .ok result ∧
        { job with payload := payload, result := result } = job' := by
  unfold reading
  rw [job_ofJob hattempts hmax]
  generalize fieldsOf? (job.result.map fun fields => (Json.obj fields).text) = result
  cases fieldsOf (Json.obj job.payload).text with
  | error fault => simp [bind, Except.bind, Except.mapError]
  | ok payload =>
    cases result <;> simp [bind, Except.bind, Except.mapError, pure, Except.pure]

theorem fieldsOf_eq_ok_iff {text : String} {fields : Fields} :
    fieldsOf text = .ok fields ↔ Json.parseFields? text = some fields := by
  unfold fieldsOf
  cases Json.parseFields? text with
  | none => exact iff_of_false nofun nofun
  | some read => rw [Except.ok.injEq, Option.some_inj]

/-- **A job is read back exactly when its texts are.** -/
theorem reading_ofJob {job : Job} (hattempts : FitsInt32 job.attempts)
    (hmax : FitsInt32 job.maxAttempts) : reading (ofJob job) = .ok job ↔ job.ReadsBack := by
  have hsome : ∀ fields : Fields, (fieldsOf (Json.obj fields).text).map some =
      .ok (some fields) ↔ fields.ReadsBack := by
    intro fields
    rw [Fields.ReadsBack, ← fieldsOf_eq_ok_iff]
    cases fieldsOf (Json.obj fields).text with
    | error fault => exact iff_of_false nofun nofun
    | ok read => simp [Except.map]
  rw [reading_eq_ok_iff hattempts hmax]
  constructor
  · rintro ⟨payload, result, hpayload, hresult, hjob⟩
    obtain rfl : payload = job.payload := congrArg Job.payload hjob
    obtain rfl : result = job.result := congrArg Job.result hjob
    refine ⟨fieldsOf_eq_ok_iff.1 hpayload, fun fields hfields => ?_⟩
    rw [hfields] at hresult
    exact (hsome fields).1 hresult
  · intro h
    refine ⟨job.payload, job.result, fieldsOf_eq_ok_iff.2 h.payload, ?_, rfl⟩
    cases hr : job.result with
    | none => rfl
    | some fields => exact (hsome fields).2 (h.result fields hr)

/-- **A job is read exactly when its texts are objects.** -/
theorem isOk_reading_ofJob {job : Job} (hattempts : FitsInt32 job.attempts)
    (hmax : FitsInt32 job.maxAttempts) : (reading (ofJob job)).isOk = true ↔ job.Legible := by
  unfold reading
  rw [job_ofJob hattempts hmax]
  rw [Job.legible_iff]
  unfold fieldsOf Fields.Legible
  cases Json.parseFields? (Json.obj job.payload).text with
  | none => simp [bind, Except.bind, Except.mapError, Except.isOk, Except.toBool]
  | some payload =>
    cases hr : job.result with
    | none => simp [bind, Except.bind, Except.mapError, Except.isOk, Except.toBool, fieldsOf?, pure,
        Except.pure]
    | some result =>
      cases hp : Json.parseFields? (Json.obj result).text <;>
        simp [bind, Except.bind, Except.mapError, Except.isOk, Except.toBool, fieldsOf?, pure,
          Except.pure, fieldsOf, hp, Except.map]

end Sql.Row

end JobQueue
