import JobQueue.Proofs.Memory.History
import JobQueue.Proofs.Sql.Groups

/-! # Both stores are the same machine

After a regular history both stores hold the same jobs, those of the effects of the calls. So they
answer the next call alike: a guard lets the same job pass in both, a refusal has the same kind, the
first due job is the same, and both count the census of the same jobs. The one difference is that
the store in a database gives a job as its row is read (`Call.readFromRow`), which is the job itself
as far as its objects are read back from their texts.

* `Agree`: equal results, or errors of one kind.
* `Holds.agree`: the answers of stores of the same jobs.
* `stores_agree`: **after every regular history the stores agree**, on the next call and on what is
  there under each id. -/

namespace JobQueue

open MemoryStore

/-- **The answers agree**: the results are equal, or the errors are of one kind. -/
inductive Agree {α : Type} : Except JobError α → Except JobError α → Prop
  | ok (a : α) : Agree (.ok a) (.ok a)
  | error {e f : JobError} (hkind : e.kind = f.kind) : Agree (.error e) (.error f)

theorem Agree.refl {α : Type} : ∀ answer : Except JobError α, Agree answer answer
  | .ok a => .ok a
  | .error _ => .error rfl

theorem Agree.of_eq {α : Type} {a b : Except JobError α} (h : a = b) : Agree a b :=
  h ▸ Agree.refl a

namespace Call

/-- A job that may be missing, as its row is read. -/
def readRow? : Option Job → Except JobError (Option Job)
  | none => .ok none
  | some job => (Sql.Row.ofJob job).reading.map some

/-- **The answer with its job as the row of the job is read.** -/
def readFromRow : (call : Call) → call.Outcome → call.Outcome
  | .findById _, answer => answer.bind readRow?
  | .claimNext _ _, answer => answer.bind readRow?
  | .complete _ _ _, answer => answer.bind fun job => (Sql.Row.ofJob job).reading
  | .fail _ _ _ _, answer => answer.bind fun job => (Sql.Row.ofJob job).reading
  | .failPermanently _ _ _, answer => answer.bind fun job => (Sql.Row.ofJob job).reading
  | .cancel _, answer => answer.bind fun job => (Sql.Row.ofJob job).reading
  | .insert _, answer => answer
  | .recoverStale _, answer => answer
  | .deleteOlderThan _, answer => answer
  | .queueStats, answer => answer

/-- The objects that the call brings are read back from their texts. -/
structure ReadsBack (call : Call) : Prop where
  job : ∀ job, call = .insert job → job.ReadsBack
  result : ∀ id worker result, call = .complete id worker result → result.ReadsBack

theorem Moderate.readsBack {call : Call} (h : call.Moderate) (htrusted : call.Trusted) :
    call.ReadsBack := by
  have hread : ∀ fields, call.Brings fields → fields.ReadsBack := fun fields hbrings =>
    (htrusted fields hbrings).readsBack (h fields hbrings)
  refine ⟨fun job hcall => ?_, fun id worker result hcall => ?_⟩
  · subst hcall
    exact ⟨hread job.payload (.payload job), fun result hresult => hread result (.result hresult)⟩
  · subst hcall
    exact hread result (.report id worker result)

end Call

theorem Job.Move.readsBack {now : Int} {call : Call} {job job' : Job} (h : job.Move now call job')
    (hcall : call.ReadsBack) (hjob : job.ReadsBack) : job'.ReadsBack := by
  cases h with
  | @complete _ id worker result =>
    refine ⟨hjob.payload, fun fields hfields => ?_⟩
    rw [← Option.some.inj hfields]
    exact hcall.result id worker result rfl
  | _ => exact ⟨hjob.payload, hjob.result⟩

theorem readsBack_of_mem_jobsAfter : ∀ {history : List Operation},
    (∀ op ∈ history, op.call.ReadsBack) → ∀ job ∈ jobsAfter history, job.ReadsBack
  | [], _ => fun _ hjob => absurd hjob List.not_mem_nil
  | op :: earlier, h => by
    have hcall := h op List.mem_cons_self
    exact Call.forall_mem_effect (distinct_jobsAfter earlier)
      (readsBack_of_mem_jobsAfter fun op' hop' => h op' (List.mem_cons_of_mem op hop'))
      (fun job hjob _ => hcall.job job hjob) fun _ _ hmove hjob => hmove.readsBack hcall hjob

/-! ### Stores of the same jobs -/

namespace Sql.Store

variable {store : Store} {jobs : List Job}

theorem kind_refusal (id : JobId) (action : Action) (job : Option Job) :
    (refusal id action (job.map Row.ofJob)).kind = refusalKind job := by
  cases job <;> rfl

/-- **Changes of one job agree**: both stores take it, or both refuse. -/
theorem Transition.agree {call : Call} {now : Int} {id : JobId} {action : Action}
    {answer : Except JobError Job × Store} {answer' : Except JobError Job × MemoryStore}
    (hdistinct : (jobs.map Job.id).Nodup) (h : Transition store jobs call now id action answer)
    (h' : MemoryStore.Transition jobs call now id answer') :
    Agree answer.1 (answer'.1.bind fun job => (Row.ofJob job).reading) := by
  cases h with
  | taken hfind htakes hholds =>
    cases h' with
    | taken hfind' htakes' =>
      obtain rfl := Option.some.inj (hfind.symm.trans hfind')
      exact .refl _
    | refused hnone' =>
      rw [hnone' _ ((Call.find?_eq_some_iff hdistinct).1 hfind).1] at htakes
      cases htakes
  | refused hnone hholds hconnection =>
    cases h' with
    | taken hfind' htakes' =>
      rw [hnone _ ((Call.find?_eq_some_iff hdistinct).1 hfind').1] at htakes'
      cases htakes'
    | refused hnone' hkind' => exact .error ((kind_refusal id action _).trans hkind'.symm)

theorem findById_eq (h : store.Holds jobs) (id : JobId) :
    (store.findById id).1 = Call.readRow? (find? id jobs) := by
  obtain ⟨after, hanswer, -⟩ := h.findById id
  rw [hanswer]
  cases find? id jobs <;> rfl

theorem claimNext_eq (h : store.Holds jobs) (queue : QueueName) (worker : WorkerId) (now : Int) :
    (store.claimNext queue worker now).1 = Call.readRow?
      ((first? (claimable queue now jobs)).map fun job => claimed job worker now) := by
  have hclaim := h.claimNext queue worker now
  generalize store.claimNext queue worker now = answer at hclaim ⊢
  cases hclaim with
  | nothing hnone _ _ =>
    rw [hnone]
    rfl
  | taken hfirst _ =>
    rw [(first?_eq_some (distinct_claimable queue now h.distinct)).2 hfirst]
    rfl

/-- **Stores of the same jobs answer alike.** -/
theorem Holds.agree (h : store.Holds jobs) (hcount : ∀ job ∈ jobs, job.Countable)
    {op : Operation} (hop : op.Regular (ofJobs jobs)) :
    Agree (store.run op.call op.now).1
      (op.call.readFromRow ((ofJobs jobs).run op.call op.now).1) := by
  have hdistinct := h.distinct
  obtain ⟨call, now⟩ := op
  cases call with
  | insert job =>
    obtain ⟨-, hmax, hallowed, hnext, hnew⟩ := hop.enter job rfl
    have hadmits : Call.admits jobs job = true :=
      Call.admits_iff.2 ⟨hallowed, Call.find?_eq_none_iff.2 hnew⟩
    rcases h.insert now ⟨fun _ => hnext.le, hmax.2⟩ with ⟨hrefused, -⟩ | ⟨-, after, hinsert, -⟩
    · rw [hadmits] at hrefused
      cases hrefused
    · exact .of_eq (congrArg Prod.fst hinsert)
  | findById id => exact .of_eq (findById_eq h id)
  | claimNext queue worker =>
    have hmemory := congrArg Prod.fst (claimNext_ofJobs hdistinct queue worker now)
    refine .of_eq ((claimNext_eq h queue worker now).trans ?_)
    show _ = Call.readRow? ((ofJobs jobs).claimNext queue worker now).1
    rw [hmemory]
  | complete id worker result =>
    exact (h.complete id worker result now).agree hdistinct
      (transition_complete now hdistinct id worker result)
  | fail id worker error delay =>
    exact (h.fail id worker error delay now).agree hdistinct (transition_fail now hdistinct hcount
      id worker error (hop.retry id worker error delay rfl))
  | failPermanently id worker error =>
    exact (h.failPermanently id worker error now).agree hdistinct
      (transition_failPermanently now hdistinct id worker error)
  | cancel id => exact (h.cancel id now).agree hdistinct (transition_cancel now hdistinct id)
  | recoverStale threshold =>
    show Agree (store.recoverStale threshold now).1
      ((ofJobs jobs).run (.recoverStale threshold) now).1
    rcases h.recoverStale threshold now with
      ⟨cause, hbefore, hanswer, -⟩ | ⟨cutoff, after, hbefore, hanswer, -⟩ <;>
    rcases run_recoverStale jobs threshold now with
      ⟨cause', hbefore', hanswer'⟩ | ⟨cutoff', hbefore', hanswer'⟩
    · rw [hanswer, hanswer', Except.error.inj (hbefore.symm.trans hbefore')]
      exact .refl _
    · exact nomatch hbefore.symm.trans hbefore'
    · exact nomatch hbefore.symm.trans hbefore'
    · rw [hanswer, hanswer', Except.ok.inj (hbefore.symm.trans hbefore')]
      exact .refl _
  | deleteOlderThan cutoff =>
    obtain ⟨after, hanswer, -⟩ := h.deleteOlderThan cutoff now
    exact .of_eq (congrArg Prod.fst hanswer)
  | queueStats =>
    obtain ⟨counts, hanswer, hcensus⟩ := h.queueStats
    have hcounts : counts = stats jobs := hcensus.unique (isCensus_stats jobs)
    rw [hcounts] at hanswer
    exact .of_eq hanswer

/-! ### Answers that are read back -/

section ReadsBack

variable (hcount : ∀ job ∈ jobs, job.Countable) (hread : ∀ job ∈ jobs, job.ReadsBack)
include hcount hread

theorem reading_of_move {now : Int} {call : Call} (hcall : call.ReadsBack) {job job' : Job}
    (hjob : job ∈ jobs) (hmove : job.Move now call job') : (Row.ofJob job').reading = .ok job' := by
  have hcountable := hmove.countable (hcount job hjob)
  exact (Row.reading_ofJob hcountable.attempts hcountable.maxAttempts).2
    (hmove.readsBack hcall (hread job hjob))

theorem readRow?_of_mem {job : Job} (hjob : job ∈ jobs) :
    Call.readRow? (some job) = .ok (some job) := by
  have hcountable := hcount job hjob
  show (Row.ofJob job).reading.map some = .ok (some job)
  rw [(Row.reading_ofJob hcountable.attempts hcountable.maxAttempts).2 (hread job hjob)]
  rfl

variable (hdistinct : (jobs.map Job.id).Nodup)
include hdistinct

theorem readRow?_find? (id : JobId) : Call.readRow? (find? id jobs) = .ok (find? id jobs) := by
  cases hfind : find? id jobs with
  | none => rfl
  | some job => exact readRow?_of_mem hcount hread ((Call.find?_eq_some_iff hdistinct).1 hfind).1

/-- **The answers are those of the rows**, when the objects are read back. -/
theorem readFromRow_eq {op : Operation} (hop : op.Regular (ofJobs jobs))
    (hcall : op.call.ReadsBack) : op.call.readFromRow ((ofJobs jobs).run op.call op.now).1 =
      ((ofJobs jobs).run op.call op.now).1 := by
  obtain ⟨call, now⟩ := op
  have hchange {id : JobId} {answer : Except JobError Job × MemoryStore}
      (h : MemoryStore.Transition jobs call now id answer) :
      (answer.1.bind fun job => (Row.ofJob job).reading) = answer.1 := by
    cases h with
    | taken hfind htakes =>
      have hmem := ((Call.find?_eq_some_iff hdistinct).1 hfind).1
      exact reading_of_move hcount hread hcall hmem
        (Call.move_of_takes hdistinct hmem htakes)
    | refused => rfl
  cases call with
  | findById id => exact readRow?_find? hcount hread hdistinct id
  | claimNext queue worker =>
    have hmemory := congrArg Prod.fst (claimNext_ofJobs hdistinct queue worker now)
    show Call.readRow? ((ofJobs jobs).claimNext queue worker now).1 =
      .ok ((ofJobs jobs).claimNext queue worker now).1
    rw [hmemory]
    cases hfirst : first? (claimable queue now jobs) with
    | none => rfl
    | some job =>
      have hfound := isFirst_of_first? hfirst
      have hreading := reading_of_move hcount hread hcall
        (mem_claimable.1 hfound.mem).1 (Call.move_of_isFirst hfound worker)
      show (Row.ofJob (claimed job worker now)).reading.map some = _
      rw [hreading]
      rfl
  | complete id worker result => exact hchange (transition_complete now hdistinct id worker result)
  | fail id worker error delay =>
    exact hchange (transition_fail now hdistinct hcount id worker error
      (hop.retry id worker error delay rfl))
  | failPermanently id worker error =>
    exact hchange (transition_failPermanently now hdistinct id worker error)
  | cancel id => exact hchange (transition_cancel now hdistinct id)
  | _ => rfl

end ReadsBack

/-! ### Histories -/

theorem holds_after_regular (inFile : Bool) {history : List Operation} (h : Regular history) :
    (after inFile history).Holds (jobsAfter history) := by
  refine holds_after inFile history fun op hop job hjob => ?_
  obtain ⟨before, earlier, rfl⟩ := List.append_of_mem hop
  obtain ⟨-, hmax, -, hnext, -⟩ := (h op earlier ⟨before, rfl⟩).enter job hjob
  exact ⟨fun _ => hnext.le, hmax.2⟩

/-- **The stores agree**, on every call of a regular history and on what is there under each id
after each.

* The store in a database answers as the store in memory does, but with the job as the row of it is
  read; errors are of the same kind. It finds under each id what the row of the job there is read as.
* If the objects that come with the calls have no floating-point numbers and are not too deep for
  the reader, and it does its part for them, the answers agree, and under each id the same job is
  found. -/
theorem stores_agree (inFile : Bool) (history : List Operation) (h : Regular history) :
    (∀ op earlier, op :: earlier <:+ history →
      Agree ((after inFile earlier).run op.call op.now).1
        (op.call.readFromRow ((MemoryStore.after earlier).run op.call op.now).1)) ∧
    (∀ earlier, earlier <:+ history → ∀ id now, ((after inFile earlier).findById id).1 =
      (Call.findById id).readFromRow ((MemoryStore.after earlier).run (.findById id) now).1) ∧
    ((∀ op ∈ history, op.call.Moderate) → (∀ op ∈ history, op.call.Trusted) →
      (∀ op earlier, op :: earlier <:+ history →
        Agree ((after inFile earlier).run op.call op.now).1
          ((MemoryStore.after earlier).run op.call op.now).1) ∧
      ∀ earlier, earlier <:+ history → ∀ id now, ((after inFile earlier).findById id).1 =
        ((MemoryStore.after earlier).run (.findById id) now).1) := by
  have hcall : ∀ op earlier, op :: earlier <:+ history →
      Agree ((after inFile earlier).run op.call op.now).1
        (op.call.readFromRow ((MemoryStore.after earlier).run op.call op.now).1) := by
    intro op earlier hsuffix
    have hregular := h.suffix hsuffix
    have hop := hregular.latest
    rw [MemoryStore.after_eq hregular.earlier] at hop ⊢
    exact (holds_after_regular inFile hregular.earlier).agree
      (countable_of_mem_jobsAfter hregular.earlier) hop
  have hfind : ∀ earlier, earlier <:+ history → ∀ id now, ((after inFile earlier).findById id).1 =
      (Call.findById id).readFromRow ((MemoryStore.after earlier).run (.findById id) now).1 := by
    intro earlier hsuffix id now
    have hregular := h.suffix hsuffix
    rw [MemoryStore.after_eq hregular]
    exact findById_eq (holds_after_regular inFile hregular) id
  refine ⟨hcall, hfind, fun hmoderate htrusted => ?_⟩
  have hread : ∀ op ∈ history, op.call.ReadsBack := fun op hop =>
    (hmoderate op hop).readsBack (htrusted op hop)
  refine ⟨fun op earlier hsuffix => ?_, fun earlier hsuffix id now => ?_⟩
  · have hregular := h.suffix hsuffix
    have hop := hregular.latest
    have hanswer := hcall op earlier hsuffix
    rw [MemoryStore.after_eq hregular.earlier] at hop hanswer ⊢
    have hreadEarlier : ∀ job ∈ jobsAfter earlier, job.ReadsBack := readsBack_of_mem_jobsAfter
      fun op' hop' => hread op' (hsuffix.subset (List.mem_cons_of_mem op hop'))
    rwa [readFromRow_eq (countable_of_mem_jobsAfter hregular.earlier) hreadEarlier
      (distinct_jobsAfter earlier) hop (hread op (hsuffix.subset List.mem_cons_self))] at hanswer
  · have hregular := h.suffix hsuffix
    rw [hfind earlier hsuffix id now, MemoryStore.after_eq hregular]
    exact readRow?_find? (countable_of_mem_jobsAfter hregular)
      (readsBack_of_mem_jobsAfter fun op hop => hread op (hsuffix.subset hop))
      (distinct_jobsAfter earlier) id

/-- After a failed attempt both stores find the job waiting again. -/
theorem stores_agree_of_failure :
    let payload : Fields := [("n", .int 1)]
    let history := ⟨.fail "a" "w" "late" ⟨0, by decide⟩, 7⟩ :: oneClaim payload
    let job := Request.toJob (.create "q" "t" payload) "a" 0 3
    Regular history ∧ (∀ op ∈ history, op.call.Moderate) ∧ (∀ op ∈ history, op.call.Trusted) ∧
      ((MemoryStore.after history).run (.findById "a") 9).1 =
        .ok (some ((claimed job "w" 5).retried 7 "late" 7)) ∧
      ((after true history).findById "a").1 =
        .ok (some ((claimed job "w" 5).retried 7 "late" 7)) := by
  intro payload history job
  have hregular : Regular history := by
    refine regular_cons.2 ⟨⟨fun _ hcall => (nomatch hcall), fun id worker error delay hcall => ?_⟩,
      regular_oneClaim payload⟩
    obtain ⟨-, -, -, rfl⟩ := Call.fail.inj hcall
    decide
  have hpayload : payload.Plain := ⟨by decide, by decide, by decide, by decide⟩
  have hbrings : ∀ {P : Fields → Prop}, P payload →
      ∀ op ∈ history, ∀ fields, op.call.Brings fields → P fields := by
    intro P hP op hop
    rcases List.mem_cons.1 hop with rfl | hop
    · exact fun _ hbrings => (nomatch hbrings)
    · exact brings_oneClaim hP op hop
  have hmoderate : ∀ op ∈ history, op.call.Moderate := hbrings hpayload.moderate
  have htrusted : ∀ op ∈ history, op.call.Trusted := hbrings hpayload.trusted
  have hmemory : ((MemoryStore.after history).run (.findById "a") 9).1 =
      .ok (some ((claimed job "w" 5).retried 7 "late" 7)) := rfl
  obtain ⟨-, -, hagree⟩ := stores_agree true history hregular
  exact ⟨hregular, hmoderate, htrusted, hmemory,
    ((hagree hmoderate htrusted).2 history List.suffix_rfl "a" 9).trans hmemory⟩

end Sql.Store

end JobQueue
