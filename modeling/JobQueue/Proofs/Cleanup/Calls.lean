import JobQueue.Cleanup
import JobQueue.Proofs.Sql.Recovery
import JobQueue.Proofs.Stores.Entry

/-! # The calls of a cleanup pass

A pass makes two calls, each with a cutoff: one puts back the rows that run since before it, the other
removes the rows that have ended before it. A row that runs has not ended, and a row that was put back
neither runs nor has ended, so neither call moves a row into the reach of the other or of itself, and
it does not matter in which order they are made, whether one of them fails, or whether they are made
again.

* `Row.isExpired_putBack`, `Row.isStale_putBack`: the reach of the calls after a recovery.
* `Backend.counted_recover`, `Backend.counted_prune`: **a call of a pass has its whole effect, or
  none**, in a store of either kind, whatever is in the way of its statements.
* `CleanupReport.Tells`: what a report says of the rows. `CleanupReport.tells_backwards`: the calls in
  the opposite order. `CleanupReport.Tells.again`: a second pass. -/

namespace JobQueue

namespace Sql.Row

variable {row : Row}

/-- The row after a recovery: if it is stale, it waits again. -/
def putBack (cutoff now : Int) (row : Row) : Row :=
  if row.isStale cutoff then row.settle .pending now else row

theorem isExpired_of_isStale {cutoff : Int} (h : row.isStale cutoff = true) (other : Int) :
    row.isExpired other = false := by
  have hrunning : row.status = Status.running.name := by
    unfold isStale at h
    exact beq_iff_eq.1 (Bool.and_eq_true_iff.1 h).1
  unfold isExpired
  rw [hrunning]
  rfl

theorem isStale_settle (now cutoff : Int) : (row.settle .pending now).isStale cutoff = false := rfl

/-- **A recovery makes no row expired**, and none that is expired young. -/
theorem isExpired_putBack (cutoff now other : Int) :
    (row.putBack cutoff now).isExpired other = row.isExpired other := by
  unfold putBack
  split
  · next hstale =>
    rw [isExpired_of_isStale hstale]
    rfl
  · rfl

/-- **A recovery leaves no stale row.** -/
theorem isStale_putBack (cutoff now : Int) : (row.putBack cutoff now).isStale cutoff = false := by
  unfold putBack
  split
  · exact isStale_settle now cutoff
  · next hfresh => exact Bool.eq_false_iff.2 hfresh

theorem putBack_eq_self_iff {cutoff now : Int} :
    row.putBack cutoff now = row ↔ row.isStale cutoff = false := by
  unfold putBack
  by_cases hstale : row.isStale cutoff = true
  · rw [if_pos hstale]
    refine iff_of_false (fun hsame => ?_) (Bool.eq_false_iff.1 · hstale)
    rw [← hsame, isStale_settle] at hstale
    cases hstale
  · rw [if_neg hstale]
    exact iff_of_true rfl (Bool.eq_false_iff.2 hstale)

theorem putBack_ofJob (job : Job) (cutoff now : Int) : (ofJob job).putBack cutoff now =
    ofJob (if MemoryStore.isStale cutoff job then MemoryStore.requeued now job else job) := by
  unfold putBack
  rw [isStale_ofJob]
  split
  · exact settle_ofJob job .pending now
  · rfl

/-! ### All rows -/

theorem countP_isExpired_putBack (cutoff now other : Int) (rows : List Row) :
    (rows.map (putBack cutoff now)).countP (isExpired other) = rows.countP (isExpired other) := by
  rw [List.countP_map]
  exact List.countP_congr fun row _ => by rw [Function.comp_apply, isExpired_putBack]

theorem countP_isStale_putBack (cutoff now : Int) (rows : List Row) :
    (rows.map (putBack cutoff now)).countP (isStale cutoff) = 0 := by
  rw [List.countP_map]
  refine List.countP_eq_zero.2 fun row _ => ?_
  rw [Function.comp_apply, isStale_putBack]
  exact Bool.false_ne_true

theorem countP_isStale_left (cutoff other : Int) (rows : List Row) :
    (rows.filter fun row => !row.isExpired other).countP (isStale cutoff) =
      rows.countP (isStale cutoff) := by
  rw [List.countP_filter]
  refine List.countP_congr fun row _ => ?_
  cases hstale : row.isStale cutoff with
  | false => simp
  | true => simp [isExpired_of_isStale hstale]

theorem countP_isExpired_left (cutoff : Int) (rows : List Row) :
    (rows.filter fun row => !row.isExpired cutoff).countP (isExpired cutoff) = 0 := by
  rw [List.countP_filter]
  exact List.countP_eq_zero.2 fun row _ => by simp

/-- **Recovery and removal can change places.** -/
theorem filter_map_putBack (cutoff now other : Int) (rows : List Row) :
    (rows.map (putBack cutoff now)).filter (fun row => !row.isExpired other) =
      (rows.filter fun row => !row.isExpired other).map (putBack cutoff now) := by
  rw [List.filter_map]
  congr 2
  funext row
  exact congrArg not (isExpired_putBack cutoff now other)

theorem map_putBack_of_none {cutoff : Int} (now : Int) {rows : List Row}
    (h : rows.countP (isStale cutoff) = 0) : rows.map (putBack cutoff now) = rows := by
  refine (List.map_congr_left fun row hrow => ?_).trans (List.map_id rows)
  exact putBack_eq_self_iff.2 (Bool.eq_false_iff.2 (List.countP_eq_zero.1 h row hrow))

theorem filter_isExpired_of_none {cutoff : Int} {rows : List Row}
    (h : rows.countP (isExpired cutoff) = 0) :
    (rows.filter fun row => !row.isExpired cutoff) = rows := by
  refine List.filter_eq_self.2 fun row hrow => ?_
  rw [Bool.eq_false_iff.2 (List.countP_eq_zero.1 h row hrow)]
  rfl

end Sql.Row

/-! ### One call -/

namespace Backend

/-- The jobs can be reached: no change of a store in memory broke down. -/
def Intact : Backend → Prop
  | .memory store => store.broken = false
  | .sql _ => True

/-- **A call that counts has its whole effect, or none**: it answers with the count and changes the
rows, or it is refused and they stay. It does not break down. -/
inductive Counted (store : Backend) (count : Nat) (changed : List Sql.Row) :
    Except JobError Nat → Backend → Prop
  | made {after : Backend} (hintact : after.Intact) (hrows : after.rows = changed) :
      Counted store count changed (.ok count) after
  | refused {e : JobError} {after : Backend} (hcause : ∀ cause, e ≠ .breakdown cause)
      (hintact : after.Intact) (hrows : after.rows = store.rows) :
      Counted store count changed (.error e) after

variable {store after : Backend} {count : Nat} {changed : List Sql.Row}

theorem Counted.counted {answer : Except JobError Nat} (h : store.Counted count changed answer after) :
    after.Intact ∧ ∃ counted, CleanupPass.counted answer = .ok counted ∧
      (counted = some count ∧ after.rows = changed ∨ counted = none ∧ after.rows = store.rows) := by
  cases h with
  | made hintact hrows => exact ⟨hintact, some count, rfl, .inl ⟨rfl, hrows⟩⟩
  | @refused e _ hcause hintact hrows =>
    refine ⟨hintact, none, ?_, .inr ⟨rfl, hrows⟩⟩
    cases e with
    | breakdown cause => exact absurd rfl (hcause cause)
    | _ => rfl

theorem Counted.ne_breakdown {answer : Except JobError Nat}
    (h : store.Counted count changed answer after) (cause : Breakdown) :
    answer ≠ .error (.breakdown cause) := by
  cases h with
  | made => exact nofun
  | refused hcause => exact fun heq => hcause cause (Except.error.inj heq)

end Backend

namespace MemoryStore

variable {store : MemoryStore}

theorem check_of_intact (hintact : store.broken = false) {call : Call} {now : Int}
    (hprepare : prepare call now = .ok ()) :
    store.check call now = .error (.database "mock store unavailable") ∨
      store.check call now = .ok () := by
  unfold check reachable MemoryStore.intact
  rw [hprepare]
  cases store.available with
  | false => exact .inl rfl
  | true => exact .inr (by rw [hintact]; rfl)

theorem counted_recover (hintact : store.broken = false) {now : Int} (hnow : 0 ≤ now)
    (threshold : Duration) {cutoff : Int} (hcutoff : cutoff = now - threshold.wholeMillis) :
    (Backend.memory store).Counted
      ((Backend.memory store).rows.countP (Sql.Row.isStale cutoff))
      ((Backend.memory store).rows.map (Sql.Row.putBack cutoff now))
      (store.run (.recoverStale threshold) now).1
      (.memory (store.run (.recoverStale threshold) now).2) := by
  subst hcutoff
  have hprepare : prepare (.recoverStale threshold) now = .ok () := by
    show discard (Timestamp.before now threshold) = _
    rw [Timestamp.before_of_nonneg hnow threshold]
    rfl
  unfold MemoryStore.run
  rcases check_of_intact hintact hprepare with hcheck | hcheck
  · rw [hcheck]
    exact .refused nofun hintact rfl
  · rw [hcheck]
    have hcount : (Backend.memory store).rows.countP
        (Sql.Row.isStale (now - threshold.wholeMillis)) =
          store.jobs.countP (isStale (now - threshold.wholeMillis)) := by
      show (store.jobs.map Sql.Row.ofJob).countP _ = _
      rw [List.countP_map]
      exact List.countP_congr fun job _ => by rw [Function.comp_apply, Sql.Row.isStale_ofJob]
    rw [hcount]
    refine .made hintact ?_
    show (store.jobs.map _).map _ = (store.jobs.map _).map _
    rw [List.map_map, List.map_map]
    exact List.map_congr_left fun job _ => (Sql.Row.putBack_ofJob job _ now).symm

theorem counted_prune (hintact : store.broken = false) (cutoff now : Int) :
    (Backend.memory store).Counted
      ((Backend.memory store).rows.countP (Sql.Row.isExpired cutoff))
      ((Backend.memory store).rows.filter fun row => !row.isExpired cutoff)
      (store.run (.deleteOlderThan cutoff) now).1
      (.memory (store.run (.deleteOlderThan cutoff) now).2) := by
  have hprepare : prepare (.deleteOlderThan cutoff) now = .ok () := rfl
  unfold MemoryStore.run
  rcases check_of_intact hintact hprepare with hcheck | hcheck
  · rw [hcheck]
    exact .refused nofun hintact rfl
  · rw [hcheck]
    have hcount : (Backend.memory store).rows.countP (Sql.Row.isExpired cutoff) =
        store.jobs.countP (isExpired cutoff) := by
      show (store.jobs.map Sql.Row.ofJob).countP _ = _
      rw [List.countP_map]
      exact List.countP_congr fun job _ => by rw [Function.comp_apply, Sql.Row.isExpired_ofJob]
    rw [hcount]
    refine .made hintact ?_
    show (store.jobs.filter _).map _ = (store.jobs.map _).filter _
    rw [List.filter_map]
    congr 2
    funext job
    exact congrArg not (Sql.Row.isExpired_ofJob job cutoff).symm

end MemoryStore

namespace Sql.Store

variable (store : Store)

/-- **A statement changes the table, or is refused.** -/
theorem modify_cases {α : Type} (columns : List Column) (change : Table → α × Table)
    (pages : Table → Paging Pages) :
    (∃ fault, store.connection.modify columns change pages = .error fault) ∨
      ∃ table after, store.connection.modify columns change pages = .ok ((change table).1, after) ∧
        store.rows = table.rows ∧ rows { store with connection := after } = (change table).2.rows := by
  cases hmodify : store.connection.modify columns change pages with
  | error fault => exact .inl ⟨fault, rfl⟩
  | ok answer =>
    right
    obtain ⟨table, htable, h⟩ := bind_eq_ok hmodify
    obtain ⟨-, -, htable⟩ := bind_eq_ok htable
    obtain ⟨-, -, h⟩ := bind_eq_ok h
    obtain ⟨-, -, h⟩ := bind_eq_ok h
    obtain ⟨after, hafter, h⟩ := bind_eq_ok h
    obtain ⟨⟨pages, hjobs⟩, -, -⟩ := Connection.jobs_of_withTable hafter
    obtain rfl := Except.ok.inj h
    refine ⟨table, after, rfl, ?_, ?_⟩
    · split at htable
      · next hbefore =>
        unfold rows
        rw [hbefore, ← Except.ok.inj htable]
        rfl
      · cases htable
    · unfold rows
      dsimp only
      rw [hjobs]
      rfl

theorem counted_recover {now : Int} (hnow : 0 ≤ now) (threshold : Duration) {cutoff : Int}
    (hcutoff : cutoff = now - threshold.wholeMillis) :
    (Backend.sql store).Counted (store.rows.countP (Row.isStale cutoff))
      (store.rows.map (Row.putBack cutoff now)) (store.recoverStale threshold now).1
      (.sql (store.recoverStale threshold now).2) := by
  unfold recoverStale update
  rw [Timestamp.before_of_nonneg hnow threshold, ← hcutoff]
  dsimp only
  rcases store.modify_cases [.claimedBy]
    (fun table => table.update (Row.isStale cutoff) (Row.settle .pending now))
    (fun table => table.updatePages movedColumns (Row.isStale cutoff) (Row.settle .pending now)) with
    ⟨fault, hmodify⟩ | ⟨table, after, hmodify, hbefore, hafter⟩
  · rw [hmodify]
    exact .refused nofun trivial rfl
  · have hcount : store.rows.countP (Row.isStale cutoff) =
        (table.update (Row.isStale cutoff) (Row.settle .pending now)).1.length := by
      show _ = ((table.rows.filter _).map _).length
      rw [List.length_map, ← List.countP_eq_length_filter, hbefore]
    rw [hmodify, hcount, hbefore]
    exact .made trivial hafter

theorem counted_prune (cutoff : Int) :
    (Backend.sql store).Counted (store.rows.countP (Row.isExpired cutoff))
      (store.rows.filter fun row => !row.isExpired cutoff) (store.deleteOlderThan cutoff).1
      (.sql (store.deleteOlderThan cutoff).2) := by
  unfold deleteOlderThan
  rcases store.modify_cases [] (fun table => table.delete (Row.isExpired cutoff))
    (fun table => table.deletePages (Row.isExpired cutoff)) with
    ⟨fault, hmodify⟩ | ⟨table, after, hmodify, hbefore, hafter⟩
  · rw [hmodify]
    exact .refused nofun trivial rfl
  · have hcount : store.rows.countP (Row.isExpired cutoff) =
        (table.delete (Row.isExpired cutoff)).1 := congrArg (List.countP _) hbefore
    rw [hmodify, hcount, hbefore]
    exact .made trivial hafter

end Sql.Store

namespace Backend

variable {store : Backend}

theorem counted_recover (hintact : store.Intact) {now : Int} (hnow : 0 ≤ now)
    (threshold : Duration) {cutoff : Int} (hcutoff : cutoff = now - threshold.wholeMillis) :
    store.Counted (store.rows.countP (Sql.Row.isStale cutoff))
      (store.rows.map (Sql.Row.putBack cutoff now))
      (store.run (.recoverStale threshold) now).1 (store.run (.recoverStale threshold) now).2 := by
  cases store with
  | memory store => exact MemoryStore.counted_recover hintact hnow threshold hcutoff
  | sql store => exact store.counted_recover hnow threshold hcutoff

theorem counted_prune (hintact : store.Intact) (cutoff now : Int) :
    store.Counted (store.rows.countP (Sql.Row.isExpired cutoff))
      (store.rows.filter fun row => !row.isExpired cutoff)
      (store.run (.deleteOlderThan cutoff) now).1 (store.run (.deleteOlderThan cutoff) now).2 := by
  cases store with
  | memory store => exact MemoryStore.counted_prune hintact cutoff now
  | sql store => exact store.counted_prune cutoff

end Backend

/-! ### Reports -/

/-- A claim made before it is stale. -/
def RunnerConfig.staleBefore (config : RunnerConfig) (now : Int) : Int :=
  now - config.staleThreshold.wholeMillis

/-- What ended before it is expired. -/
def RunnerConfig.expiredBefore (config : RunnerConfig) (now : Int) : Int :=
  now - config.retention.wholeMillis

namespace CleanupReport

/-- **The rows after a pass** that made its calls at these times: what succeeded had its effect. -/
def rowsAfter (config : RunnerConfig) (now later : Int) (report : CleanupReport)
    (rows : List Sql.Row) : List Sql.Row :=
  let left := if report.recovered.isSome
    then rows.map (Sql.Row.putBack (config.staleBefore now) now) else rows
  if report.deleted.isSome
    then left.filter fun row => !row.isExpired (config.expiredBefore later) else left

/-- **The report tells the truth** of the rows before and after: each call that succeeded changed the
rows that it was to change, as they were before the pass, and no other, and has counted them. -/
structure Tells (config : RunnerConfig) (now later : Int) (report : CleanupReport)
    (before after : List Sql.Row) : Prop where
  recovered : ∀ n, report.recovered = some n →
    n = before.countP (Sql.Row.isStale (config.staleBefore now))
  deleted : ∀ n, report.deleted = some n →
    n = before.countP (Sql.Row.isExpired (config.expiredBefore later))
  rows : after = report.rowsAfter config now later before

/-- What is left to report when what succeeded in an earlier pass is left out. -/
def since (earlier report : CleanupReport) : CleanupReport where
  recovered := if earlier.recovered.isSome then none else report.recovered
  deleted := if earlier.deleted.isSome then none else report.deleted

variable {config : RunnerConfig} {now later : Int} {report : CleanupReport}
  {before middle after : List Sql.Row} {counted : Option Nat}

theorem tells_nothing (rows : List Sql.Row) : Tells config now later ⟨none, none⟩ rows rows :=
  ⟨nofun, nofun, rfl⟩

theorem Tells.recovery {deleted : Option Nat}
    (h : Tells config now later ⟨none, deleted⟩ before middle)
    (hcall : counted = some (middle.countP (Sql.Row.isStale (config.staleBefore now))) ∧
        after = middle.map (Sql.Row.putBack (config.staleBefore now) now) ∨
      counted = none ∧ after = middle) :
    Tells config now later ⟨counted, deleted⟩ before after := by
  rcases hcall with ⟨rfl, rfl⟩ | ⟨rfl, rfl⟩
  · have hmiddle := h.rows
    cases deleted with
    | none =>
      obtain rfl : middle = before := hmiddle
      exact ⟨fun n hn => (Option.some.inj hn).symm, nofun, rfl⟩
    | some deleted =>
      obtain rfl : middle = before.filter fun row => !row.isExpired (config.expiredBefore later) :=
        hmiddle
      refine ⟨fun n hn => ?_, h.deleted, (Sql.Row.filter_map_putBack _ _ _ _).symm⟩
      exact (Option.some.inj hn).symm.trans (Sql.Row.countP_isStale_left _ _ _)
  · exact h

theorem Tells.removal {recovered : Option Nat}
    (h : Tells config now later ⟨recovered, none⟩ before middle)
    (hcall : counted = some (middle.countP (Sql.Row.isExpired (config.expiredBefore later))) ∧
        after = middle.filter (fun row => !row.isExpired (config.expiredBefore later)) ∨
      counted = none ∧ after = middle) :
    Tells config now later ⟨recovered, counted⟩ before after := by
  rcases hcall with ⟨rfl, rfl⟩ | ⟨rfl, rfl⟩
  · have hmiddle := h.rows
    cases recovered with
    | none =>
      obtain rfl : middle = before := hmiddle
      exact ⟨nofun, fun n hn => (Option.some.inj hn).symm, rfl⟩
    | some recovered =>
      obtain rfl : middle = before.map (Sql.Row.putBack (config.staleBefore now) now) := hmiddle
      refine ⟨h.recovered, fun n hn => ?_, rfl⟩
      exact (Option.some.inj hn).symm.trans (Sql.Row.countP_isExpired_putBack _ _ _ _)
  · exact h

theorem tells_of_counted {store : Backend} {count : Nat} {changed : List Sql.Row}
    {answer : Except JobError Nat} {left : Backend} (h : store.Counted count changed answer left) :
    answer.toOption = some count ∧ left.rows = changed ∨
      answer.toOption = none ∧ left.rows = store.rows := by
  cases h with
  | made _ hrows => exact .inl ⟨rfl, hrows⟩
  | refused _ _ hrows => exact .inr ⟨rfl, hrows⟩

/-- **The calls in the opposite order**: the removal is made first, then, on a store that has the rows
that it left, the recovery. What is counted and changed is the same. -/
theorem tells_backwards {first second : Backend} (hfirst : first.Intact) (hsecond : second.Intact)
    (hnow : 0 ≤ now) :
    let removal := first.run (.deleteOlderThan (config.expiredBefore later)) later
    let recovery := second.run (CleanupPass.recoverCall config) now
    second.rows = removal.2.rows →
      Tells config now later ⟨recovery.1.toOption, removal.1.toOption⟩ first.rows
        recovery.2.rows := by
  intro removal recovery hbetween
  have hremoval : first.Counted _ _ removal.1 removal.2 :=
    Backend.counted_prune hfirst (config.expiredBefore later) later
  have hrecovery : second.Counted _ _ recovery.1 recovery.2 :=
    Backend.counted_recover hsecond hnow config.staleThreshold rfl
  have hmiddle : Tells config now later ⟨none, removal.1.toOption⟩ first.rows second.rows := by
    rw [hbetween]
    exact (tells_nothing first.rows).removal (tells_of_counted hremoval)
  exact hmiddle.recovery (tells_of_counted hrecovery)

/-! ### A second pass -/

theorem countP_isStale_rowsAfter (h : report.recovered.isSome = true) (rows : List Sql.Row) :
    (report.rowsAfter config now later rows).countP (Sql.Row.isStale (config.staleBefore now)) =
      0 := by
  unfold rowsAfter
  rw [if_pos h]
  dsimp only
  split
  · rw [Sql.Row.countP_isStale_left, Sql.Row.countP_isStale_putBack]
  · exact Sql.Row.countP_isStale_putBack _ _ _

theorem countP_isExpired_rowsAfter (h : report.deleted.isSome = true) (rows : List Sql.Row) :
    (report.rowsAfter config now later rows).countP
      (Sql.Row.isExpired (config.expiredBefore later)) = 0 := by
  unfold rowsAfter
  rw [if_pos h]
  exact Sql.Row.countP_isExpired_left _ _

/-- **In a second pass at the same times what succeeded in the first** finds nothing to change. -/
theorem Tells.again {second : CleanupReport} {last : List Sql.Row}
    (h : report.Tells config now later before after)
    (hsecond : second.Tells config now later after last) :
    (report.recovered.isSome = true → ∀ n, second.recovered = some n → n = 0) ∧
      (report.deleted.isSome = true → ∀ n, second.deleted = some n → n = 0) ∧
      last = (report.since second).rowsAfter config now later after := by
  have hstale : report.recovered.isSome = true →
      after.countP (Sql.Row.isStale (config.staleBefore now)) = 0 := fun hrecovered => by
    rw [h.rows]
    exact countP_isStale_rowsAfter hrecovered before
  have hexpired : report.deleted.isSome = true →
      after.countP (Sql.Row.isExpired (config.expiredBefore later)) = 0 := fun hdeleted => by
    rw [h.rows]
    exact countP_isExpired_rowsAfter hdeleted before
  refine ⟨fun hrecovered n hn => (hsecond.recovered n hn).trans (hstale hrecovered),
    fun hdeleted n hn => (hsecond.deleted n hn).trans (hexpired hdeleted), ?_⟩
  have hrecovery : (if second.recovered.isSome
        then after.map (Sql.Row.putBack (config.staleBefore now) now) else after) =
      if (report.since second).recovered.isSome
        then after.map (Sql.Row.putBack (config.staleBefore now) now) else after := by
    unfold since
    by_cases hrecovered : report.recovered.isSome = true
    · simp only [if_pos hrecovered, Sql.Row.map_putBack_of_none now (hstale hrecovered), ite_self]
    · simp only [if_neg hrecovered]
  rw [hsecond.rows]
  unfold rowsAfter
  dsimp only
  rw [← hrecovery]
  unfold since
  by_cases hdeleted : report.deleted.isSome = true
  · simp only [if_pos hdeleted, Option.isSome_none, Bool.false_eq_true, if_false]
    refine (if_congr Iff.rfl (Sql.Row.filter_isExpired_of_none ?_) rfl).trans (ite_self _)
    split
    · rw [Sql.Row.countP_isExpired_putBack, hexpired hdeleted]
    · exact hexpired hdeleted
  · simp only [if_neg hdeleted]

end CleanupReport

end JobQueue
