import JobQueue.Proofs.Text.Bytes
import JobQueue.Store.Memory
import Mathlib.Data.Prod.Lex

/-! # The order of claims

Jobs are claimed in the order of their keys (`Job.key`): by the time they are due, then by their
creation, then by the bytes of their ids. The keys are in linear order, and jobs with different ids
have different keys, so of such jobs one is first.

* `precedes_iff`: the order of two jobs is that of their keys.
* `IsFirst`: the job is one of the jobs and has the least key; `IsFirst.unique`.
* `first?_eq_none`, `isFirst_of_first?`, `first?_eq_some`: the first job is found.
* `mem_claimable`: the jobs that can be claimed. -/

namespace JobQueue

/-- What jobs are in order by. -/
def Job.key (job : Job) : Int ×ₗ Int ×ₗ List Nat :=
  toLex (job.scheduledAt, toLex (job.createdAt, Text.bytes job.id))

theorem Job.id_eq_of_key_eq {a b : Job} (h : a.key = b.key) : a.id = b.id := by
  unfold Job.key at h
  have hpair := Prod.mk.inj (toLex_inj.1 h)
  exact Text.strictMono_bytes.injective (Prod.mk.inj (toLex_inj.1 hpair.2)).2

namespace MemoryStore

theorem precedes_iff {a b : Job} : precedes a b = true ↔ a.key < b.key := by
  unfold precedes Job.key
  simp only [Bool.or_eq_true, Bool.and_eq_true, decide_eq_true_eq, beq_iff_eq,
    Prod.Lex.toLex_lt_toLex, Text.lt_iff_bytes_lt]

/-- **The job comes first**: it is one of the jobs and has the least key. -/
structure IsFirst (jobs : List Job) (job : Job) : Prop where
  mem : job ∈ jobs
  least : ∀ other ∈ jobs, job.key ≤ other.key

theorem IsFirst.unique {jobs : List Job} {a b : Job} (ha : IsFirst jobs a) (hb : IsFirst jobs b) :
    a.id = b.id :=
  Job.id_eq_of_key_eq (le_antisymm (ha.least b hb.mem) (hb.least a ha.mem))

theorem first?_eq_none {jobs : List Job} : first? jobs = none ↔ jobs = [] := by
  cases jobs with
  | nil => exact iff_of_true rfl rfl
  | cons job rest =>
    refine iff_of_false ?_ (List.cons_ne_nil job rest)
    unfold first?
    split
    · simp
    · split <;> simp

theorem isFirst_of_first? {jobs : List Job} {first : Job} (h : first? jobs = some first) :
    IsFirst jobs first := by
  induction jobs generalizing first with
  | nil => cases h
  | cons job rest ih =>
    unfold first? at h
    split at h
    · next hrest =>
      obtain rfl := Option.some.inj h
      rw [first?_eq_none.1 hrest]
      exact ⟨List.mem_cons_self, fun other hother => by rw [List.mem_singleton.1 hother]⟩
    · next other hrest =>
      obtain ⟨hmem, hleast⟩ := ih hrest
      split at h
      · next hprec =>
        obtain rfl := Option.some.inj h
        refine ⟨List.mem_cons_of_mem job hmem, fun third hthird => ?_⟩
        rcases List.mem_cons.1 hthird with rfl | hthird
        · exact (precedes_iff.1 hprec).le
        · exact hleast third hthird
      · next hprec =>
        obtain rfl := Option.some.inj h
        rw [precedes_iff, not_lt] at hprec
        refine ⟨List.mem_cons_self, fun third hthird => ?_⟩
        rcases List.mem_cons.1 hthird with rfl | hthird
        · exact le_rfl
        · exact hprec.trans (hleast third hthird)

theorem mem_claimable {queue : QueueName} {now : Int} {jobs : List Job} {job : Job} :
    job ∈ claimable queue now jobs ↔
      job ∈ jobs ∧ job.queue = queue ∧ job.status = .pending ∧ job.scheduledAt ≤ now := by
  unfold claimable Job.isClaimable
  simp only [List.mem_filter, Bool.and_eq_true, beq_iff_eq, decide_eq_true_eq]

theorem distinct_claimable (queue : QueueName) (now : Int) {jobs : List Job}
    (hdistinct : (jobs.map Job.id).Nodup) : ((claimable queue now jobs).map Job.id).Nodup :=
  hdistinct.sublist (List.filter_sublist.map Job.id)

theorem eq_of_id_eq {jobs : List Job} (hdistinct : (jobs.map Job.id).Nodup) {a b : Job}
    (ha : a ∈ jobs) (hb : b ∈ jobs) (h : a.id = b.id) : a = b :=
  List.inj_on_of_nodup_map hdistinct ha hb h

theorem first?_eq_some {jobs : List Job} (hdistinct : (jobs.map Job.id).Nodup) {job : Job} :
    first? jobs = some job ↔ IsFirst jobs job := by
  refine ⟨isFirst_of_first?, fun h => ?_⟩
  cases hfirst : first? jobs with
  | none =>
    rw [first?_eq_none.1 hfirst] at h
    exact absurd h.mem List.not_mem_nil
  | some first =>
    have hfound := isFirst_of_first? hfirst
    rw [eq_of_id_eq hdistinct hfound.mem h.mem (hfound.unique h)]

end MemoryStore

end JobQueue
