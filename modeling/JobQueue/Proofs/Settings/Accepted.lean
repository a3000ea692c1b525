import Mathlib.Tactic
import JobQueue.Cleanup
import JobQueue.Proofs.Runner.Config
import JobQueue.Proofs.Sql.Recovery
import JobQueue.Settings.Basic

/-! # Accepted settings

Settings that are read give a configuration that runners accept, and all times that are computed from
it exist: a setting is at most `2 ^ 64 - 1` milliseconds, so four times the stale threshold is a
duration, and no point in time is left when a duration is taken from a time since the epoch.

* `Settings.millis`: the durations by what they are for. `Describes`: the settings of a tree.
* `Settings.Unusable`: a setting with a value that no runner can work with.
* `Settings.exists_gather`: variables can be put together, unless a name counts entries from the end
  of a list or beyond every list. If they cannot, reading them breaks down.
* `accepted_settings_runnable`: **what is accepted can be run**, and what is unusable is refused. -/

namespace JobQueue

namespace Settings

/-- The milliseconds that are set for a duration. -/
def millis (s : Settings) : ConfigDuration → Nat
  | .pollInterval => s.pollMillis
  | .staleThreshold => s.staleMillis
  | .cleanupInterval => s.cleanupMillis
  | .retention => s.retentionMillis
  | .storeTimeout => s.storeTimeoutMillis

/-- A duration as it is given in a tree. -/
def millisField (tree : SettingTree) (setting : ConfigDuration) : Except SettingsError Nat :=
  natField tree (setting.name ++ "_ms") (standard.millis setting)

def workersField (tree : SettingTree) : Except SettingsError Nat :=
  natField tree "worker_count" standard.workerCount

def attemptsField (tree : SettingTree) : Except SettingsError Int :=
  field tree "max_attempts" standard.maxAttempts fun part =>
    part.value?.bind SettingValue.asInt32?

/-- **A setting of the tree has a value that no runner can work with.** -/
def Unusable (tree : SettingTree) : Prop :=
  workersField tree = .ok 0 ∨ (∃ n < 1, attemptsField tree = .ok n) ∨
    ∃ setting, millisField tree setting = .ok 0

/-- **The settings are those of the tree**, as far as a runner uses them. -/
structure Describes (tree : SettingTree) (s : Settings) : Prop where
  workers : workersField tree = .ok s.workerCount
  attempts : attemptsField tree = .ok s.maxAttempts
  millis : ∀ setting, millisField tree setting = .ok (s.millis setting)

/-! ### Reading -/

theorem describes_of_ofTree {tree : SettingTree} {s : Settings} (h : ofTree tree = .ok s) :
    Describes tree s := by
  obtain ⟨databasePath, -, h⟩ := bind_eq_ok h
  obtain ⟨maxConnections, -, h⟩ := bind_eq_ok h
  obtain ⟨queues, -, h⟩ := bind_eq_ok h
  obtain ⟨workerCount, hworkers, h⟩ := bind_eq_ok h
  obtain ⟨pollMillis, hpoll, h⟩ := bind_eq_ok h
  obtain ⟨baseRetryMillis, -, h⟩ := bind_eq_ok h
  obtain ⟨staleMillis, hstale, h⟩ := bind_eq_ok h
  obtain ⟨cleanupMillis, hcleanup, h⟩ := bind_eq_ok h
  obtain ⟨retentionMillis, hretention, h⟩ := bind_eq_ok h
  obtain ⟨storeTimeoutMillis, htimeout, h⟩ := bind_eq_ok h
  obtain ⟨maxAttempts, hattempts, h⟩ := bind_eq_ok h
  obtain ⟨shutdownMillis, -, h⟩ := bind_eq_ok h
  obtain ⟨logFormat, -, h⟩ := bind_eq_ok h
  obtain ⟨logDirectory, -, h⟩ := bind_eq_ok h
  obtain rfl := Except.ok.inj h
  refine ⟨hworkers, hattempts, fun setting => ?_⟩
  cases setting with
  | pollInterval => exact hpoll
  | staleThreshold => exact hstale
  | cleanupInterval => exact hcleanup
  | retention => exact hretention
  | storeTimeout => exact htimeout

theorem read_of_gather {vars : Environment} {tree : SettingTree} (h : gather vars = .ok tree) :
    read vars = (ofTree tree).bind fun s => match s.runnerConfig.check with
      | .ok () => .ok s
      | .error fault => .error (.config fault) := by
  unfold read
  rw [h]
  rfl

/-- What does not fit its setting is refused in one way. -/
def RefusesInvalid {α : Type} (x : Except SettingsError α) : Prop :=
  ∀ e, x = .error e → e = .invalid

theorem refusesInvalid_field {α : Type} (tree : SettingTree) (setting : String) (d : α)
    (reader : SettingTree → Option α) : RefusesInvalid (field tree setting d reader) := by
  intro e h
  unfold field at h
  split at h
  · cases h
  · split at h
    · cases h
    · exact (Except.error.inj h).symm

theorem RefusesInvalid.bind {α β : Type} {x : Except SettingsError α}
    {f : α → Except SettingsError β} (hx : RefusesInvalid x) (hf : ∀ a, RefusesInvalid (f a)) :
    RefusesInvalid (x >>= f) := by
  intro e h
  cases x with
  | error fault =>
    obtain rfl := Except.error.inj h
    exact hx fault rfl
  | ok a => exact hf a e h

theorem refusesInvalid_ofTree (tree : SettingTree) : RefusesInvalid (ofTree tree) := by
  unfold ofTree natField
  dsimp only
  repeat refine (refusesInvalid_field tree _ _ _).bind fun _ => ?_
  intro e h
  cases h

theorem natField_le {tree : SettingTree} {setting : String} {d n : Nat}
    (hd : d ≤ 18446744073709551615) (h : natField tree setting d = .ok n) :
    n ≤ 18446744073709551615 := by
  unfold natField field at h
  split at h
  · obtain rfl := Except.ok.inj h
    exact hd
  · next part _ =>
    split at h
    · next m hm =>
      obtain rfl := Except.ok.inj h
      obtain ⟨value, -, hvalue⟩ := Option.bind_eq_some_iff.1 hm
      obtain ⟨i, -, hi⟩ := Option.bind_eq_some_iff.1 hvalue
      split at hi
      · next hle =>
        obtain rfl := Option.some.inj hi
        omega
      · cases hi
    · cases h

/-! ### Putting together -/

end Settings

/-- The step leads to a place in some list, or to a part with a name. -/
def SettingStep.Leads : SettingStep → Prop
  | .member _ => True
  | .entry n => 0 ≤ n ∧ n < SettingTree.maxLength

instance : (step : SettingStep) → Decidable step.Leads
  | .member _ => .isTrue trivial
  | .entry n => inferInstanceAs (Decidable (0 ≤ n ∧ n < SettingTree.maxLength))

theorem SettingTree.exists_put (new : SettingTree) :
    ∀ (steps : List SettingStep) (tree : SettingTree), (∀ step ∈ steps, step.Leads) →
      ∃ tree', put new steps tree = .ok tree'
  | [], _, _ => ⟨new, rfl⟩
  | .member name :: steps, tree, h => by
    obtain ⟨part, hpart⟩ := exists_put new steps ((tree.member? name).getD .missing)
      fun step hstep => h step (List.mem_cons_of_mem _ hstep)
    refine ⟨.table (replace name part tree.members), ?_⟩
    unfold put
    rw [hpart]
    rfl
  | .entry n :: steps, tree, h => by
    obtain ⟨hfirst, hlast⟩ : 0 ≤ n ∧ n < maxLength := h _ List.mem_cons_self
    have hplace : placeOf tree.entries.length n = .ok n.toNat := if_pos hfirst
    obtain ⟨entries, hgrow⟩ : ∃ entries, grow tree.entries n.toNat = .ok entries := by
      unfold grow
      rw [if_neg (show ¬ maxLength < n.toNat + 1 by omega)]
      split <;> exact ⟨_, rfl⟩
    obtain ⟨part, hpart⟩ := exists_put new steps (entries[n.toNat]?.getD .missing)
      fun step hstep => h step (List.mem_cons_of_mem _ hstep)
    refine ⟨.list (entries.set n.toNat part), ?_⟩
    unfold put
    rw [hplace]
    show (do let entries ← grow tree.entries n.toNat; _) = _
    rw [hgrow]
    show (do let part ← put new steps (entries[n.toNat]?.getD .missing); _) = _
    rw [hpart]
    rfl

namespace Settings

/-- The steps of the variable's name all lead somewhere, if it is for a setting. -/
def Leads (name : String) : Prop :=
  ∀ setting, settingName? name = some setting → ∀ step ∈ (SettingName.ofText setting).steps,
    step.Leads

instance (name : String) : Decidable (Leads name) :=
  decidable_of_iff (∀ step ∈ (settingName? name).elim [] fun setting =>
    (SettingName.ofText setting).steps, step.Leads) <| by
    unfold Leads
    cases settingName? name <;> simp

/-- **Variables can be put together** if their names lead to places. -/
theorem exists_gather {vars : Environment} (h : ∀ v ∈ vars, Leads v.1) :
    ∃ tree, gather vars = .ok tree := by
  unfold gather
  generalize SettingTree.table [] = tree
  induction vars generalizing tree with
  | nil => exact ⟨tree, rfl⟩
  | cons v vars ih =>
    rw [List.foldlM_cons]
    have hvars := fun w hw => h w (List.mem_cons_of_mem v hw)
    cases hsetting : settingName? v.1 with
    | none => exact ih hvars tree
    | some setting =>
      let name := SettingName.ofText setting
      have hsteps : ∀ step ∈ .member name.outer :: name.steps, step.Leads :=
        List.forall_mem_cons.2 ⟨trivial, h v List.mem_cons_self setting hsetting⟩
      obtain ⟨tree', hput⟩ := SettingTree.exists_put (.ofText (setting == "queues") v.2)
        (.member name.outer :: name.steps) tree hsteps
      dsimp only
      rw [hput]
      exact ih hvars tree'

/-- **What cannot be put together breaks down**, and nothing else. -/
theorem read_eq_broken_iff {vars : Environment} {cause : Breakdown} :
    read vars = .error (.broken cause) ↔ gather vars = .error cause := by
  cases hgather : gather vars with
  | error other =>
    unfold read
    rw [hgather]
    exact ⟨fun h => congrArg _ (SettingsError.broken.inj (Except.error.inj h)),
      fun h => congrArg _ (congrArg _ (Except.error.inj h))⟩
  | ok tree =>
    rw [read_of_gather hgather]
    refine ⟨fun h => ?_, nofun⟩
    cases htree : ofTree tree with
    | error e =>
      rw [htree] at h
      cases refusesInvalid_ofTree tree e htree
      cases h
    | ok s =>
      rw [htree] at h
      cases hcheck : s.runnerConfig.check with
      | ok => simp [Except.bind, hcheck] at h
      | error => simp [Except.bind, hcheck] at h

/-! ### The configuration -/

theorem nanos_ofMillis {n : Nat} (h : n ≤ 18446744073709551615) :
    (Duration.ofMillis n).nanos = n * 1000000 := by
  unfold Duration.ofMillis
  rw [Duration.nanos_ofNanos, Nat.min_eq_left]
  have hmillis : n * 1000000 ≤ 18446744073709551615 * 1000000 := Nat.mul_le_mul_right _ h
  refine hmillis.trans ?_
  decide

theorem value_runnerConfig (s : Settings) (setting : ConfigDuration) :
    setting.value s.runnerConfig = .ofMillis (s.millis setting) := by
  unfold ConfigDuration.value runnerConfig millis
  cases setting <;> rfl

theorem isZero_ofMillis {n : Nat} (h : n ≤ 18446744073709551615) :
    (Duration.ofMillis n).isZero = true ↔ n = 0 := by
  unfold Duration.isZero
  rw [nanos_ofMillis h, beq_iff_eq]
  omega

theorem standard_millis_le (setting : ConfigDuration) :
    standard.millis setting ≤ 18446744073709551615 := by
  cases setting <;> simp [millis, standard]

theorem Describes.millis_le {tree : SettingTree} {s : Settings} (h : Describes tree s)
    (setting : ConfigDuration) : s.millis setting ≤ 18446744073709551615 :=
  natField_le (standard_millis_le setting) (h.millis setting)

/-- **Unusable settings are those with a fault.** -/
theorem Describes.unusable_iff {tree : SettingTree} {s : Settings} (h : Describes tree s) :
    Unusable tree ↔ s.runnerConfig.check ≠ .ok () := by
  have hzero : ∀ setting : ConfigDuration, (setting.value s.runnerConfig).isZero = true ↔
      s.millis setting = 0 := fun setting => by
    rw [value_runnerConfig]
    exact isZero_ofMillis (h.millis_le setting)
  rw [ne_eq, RunnerConfig.check_eq_ok_iff]
  unfold Unusable
  rw [h.workers, h.attempts]
  constructor
  · rintro (hworkers | ⟨n, hn, hattempts⟩ | ⟨setting, hmillis⟩) ⟨hpositive, hone, hdurations⟩
    · exact hpositive (Except.ok.inj hworkers)
    · have heq : s.maxAttempts = n := Except.ok.inj hattempts
      have hle : 1 ≤ s.maxAttempts := hone
      omega
    · rw [h.millis] at hmillis
      have htrue := (hzero setting).2 (Except.ok.inj hmillis)
      rw [hdurations setting] at htrue
      cases htrue
  · intro hfault
    by_contra husable
    push Not at husable
    obtain ⟨hworkers, hattempts, hmillis⟩ := husable
    refine hfault ⟨fun heq => hworkers (congrArg Except.ok heq), ?_, fun setting => ?_⟩
    · show 1 ≤ s.maxAttempts
      by_contra hless
      exact hattempts s.maxAttempts (by omega) rfl
    · refine Bool.eq_false_iff.2 fun htrue => hmillis setting ?_
      rw [h.millis, (hzero setting).1 htrue]

/-- **Settings are accepted** when each variable fits its setting and none is unusable. -/
theorem read_eq_ok_iff {vars : Environment} {s : Settings} : read vars = .ok s ↔
    ∃ tree, gather vars = .ok tree ∧ ofTree tree = .ok s ∧ ¬ Unusable tree := by
  cases hgather : gather vars with
  | error cause =>
    have hbroken : read vars = .error (.broken cause) := by
      unfold read
      rw [hgather]
      rfl
    simp [hbroken]
  | ok tree =>
    rw [read_of_gather hgather]
    constructor
    · intro h
      obtain ⟨settings, htree, hchecked⟩ := bind_eq_ok h
      split at hchecked
      · next hcheck =>
        obtain rfl := Except.ok.inj hchecked
        refine ⟨tree, rfl, htree, fun hunusable => ?_⟩
        exact (describes_of_ofTree htree).unusable_iff.1 hunusable hcheck
      · cases hchecked
    · rintro ⟨tree, heq, htree, husable⟩
      obtain rfl := Except.ok.inj heq
      have hcheck : s.runnerConfig.check = .ok () := by
        by_contra hfault
        exact husable ((describes_of_ofTree htree).unusable_iff.2 hfault)
      rw [htree]
      show (match s.runnerConfig.check with | .ok () => _ | .error fault => _) = _
      rw [hcheck]

/-- **Unusable settings are refused**, for a reason that can be told. -/
theorem refused_of_unusable {vars : Environment} {tree : SettingTree}
    (hgather : gather vars = .ok tree) (hunusable : Unusable tree) :
    ∃ e, read vars = .error e ∧ (e = .invalid ∨ ∃ fault, e = .config fault) := by
  rw [read_of_gather hgather]
  cases htree : ofTree tree with
  | error e => exact ⟨e, rfl, .inl (refusesInvalid_ofTree tree e htree)⟩
  | ok s =>
    have hfault := (describes_of_ofTree htree).unusable_iff.1 hunusable
    cases hcheck : s.runnerConfig.check with
    | ok => exact absurd hcheck hfault
    | error fault => exact ⟨.config fault, by simp only [Except.bind, hcheck], .inr ⟨fault, rfl⟩⟩

end Settings

theorem Timestamp.inRange_sub {now : Int} (hnow : 0 ≤ now) (hlatest : now ≤ latest) (d : Duration) :
    InRange (now - d.wholeMillis) := by
  have hnonneg := d.wholeMillis_nonneg
  unfold InRange earliest
  unfold Duration.wholeMillis at hnonneg ⊢
  omega

theorem Timestamp.inRange_later {now : Int} (hnow : 0 ≤ now) (hlatest : now ≤ latest)
    (d : Duration) : InRange (later now d) := by
  have hle := le_later d hlatest
  refine ⟨?_, later_le now d⟩
  unfold earliest
  omega

/-- **What is accepted can be run.** Settings that are read give a configuration without a fault, of
which a runner can be made. Its handlers have four fifths of the stale threshold, which is some time
and less than the threshold. At every time since the epoch the store recovers up to a point in time,
a pass prunes up to one, and a failed attempt is due again at one.

Variables that can be put together, and of which one makes a setting of the runner unusable, are
refused with an error. Reading breaks down, without an answer, just if they cannot be put together;
they can if no name counts an entry of a list from the end or beyond every list. -/
theorem accepted_settings_runnable (vars : Environment) :
    (∀ s, Settings.read vars = .ok s →
      let config := s.runnerConfig
      config.check = .ok () ∧ (∀ id, Runner.create id config = .ok (.fresh id config)) ∧
      (∃ limit, config.handlerTimeout? = some limit ∧
        limit.nanos = 4 * config.staleThreshold.nanos / 5 ∧
        0 < limit.nanos ∧ limit.nanos < config.staleThreshold.nanos) ∧
      ∀ now, 0 ≤ now → now ≤ Timestamp.latest →
        (∃ cutoff, Timestamp.InRange cutoff ∧ ∀ store : Sql.Store,
          store.recoverStale config.staleThreshold now =
            match store.update [.claimedBy] (Sql.Row.isStale cutoff)
              (Sql.Row.settle .pending now) with
            | .error fault => (.error fault.toError, store)
            | .ok (rows, store) => (.ok rows.length, store)) ∧
        (∃ cutoff, Timestamp.InRange cutoff ∧
          CleanupPass.pruneCall config now = .ok (.deleteOlderThan cutoff)) ∧
        ∀ attempt, ∃ retryAt, Timestamp.InRange retryAt ∧
          ∀ (store : Sql.Store) (id : JobId) (worker : WorkerId) (error : String),
            store.fail id worker error (RetryPolicy.delayFor ⟨config.baseRetryDelay⟩ attempt) now =
              store.transition id .fail (Sql.Row.isHeldBy id worker)
                (Sql.Row.failAttempt retryAt error now)) ∧
    (∀ tree, Settings.gather vars = .ok tree → Settings.Unusable tree →
      ∃ e, Settings.read vars = .error e ∧ (e = .invalid ∨ ∃ fault, e = .config fault)) ∧
    (∀ cause, Settings.read vars = .error (.broken cause) ↔ Settings.gather vars = .error cause) ∧
    ((∀ v ∈ vars, Settings.Leads v.1) → ∃ tree, Settings.gather vars = .ok tree) := by
  refine ⟨fun s hread => ?_, fun tree => Settings.refused_of_unusable,
    fun cause => Settings.read_eq_broken_iff, Settings.exists_gather⟩
  obtain ⟨tree, hgather, htree, husable⟩ := Settings.read_eq_ok_iff.1 hread
  have hdescribes := Settings.describes_of_ofTree htree
  intro config
  have hcheck : config.check = .ok () := by
    by_contra hfault
    exact husable (hdescribes.unusable_iff.2 hfault)
  have hle := hdescribes.millis_le .staleThreshold
  have hstale : config.staleThreshold.nanos = s.staleMillis * 1000000 :=
    Settings.nanos_ofMillis hle
  have hpositive : s.staleMillis ≠ 0 := fun hzero =>
    husable (.inr (.inr ⟨.staleThreshold, by rw [hdescribes.millis]; exact congrArg _ hzero⟩))
  have hfits : 4 * config.staleThreshold.nanos < durationBound := by
    rw [hstale]
    exact (Nat.mul_le_mul_left 4 (Nat.mul_le_mul_right 1000000 hle)).trans_lt (by decide)
  refine ⟨hcheck, fun id => Runner.create_eq_ok_iff.2 ⟨hcheck, rfl⟩, ?_, fun now hnow hlatest => ?_⟩
  · let limit : Duration := ⟨4 * config.staleThreshold.nanos / 5,
      (Nat.div_le_self _ _).trans_lt hfits⟩
    refine ⟨limit, RunnerConfig.handlerTimeout?_eq_some_iff.2 ⟨hfits, rfl⟩, rfl, ?_, ?_⟩
    · show 0 < 4 * config.staleThreshold.nanos / 5
      omega
    · show 4 * config.staleThreshold.nanos / 5 < config.staleThreshold.nanos
      omega
  · refine ⟨⟨_, Timestamp.inRange_sub hnow hlatest config.staleThreshold, fun store => ?_⟩,
      ⟨_, Timestamp.inRange_sub hnow hlatest config.retention, ?_⟩,
      fun attempt => ⟨_, Timestamp.inRange_later hnow hlatest _, fun _ _ _ _ => rfl⟩⟩
    · unfold Sql.Store.recoverStale
      rewrite [Timestamp.before_of_nonneg hnow]
      rfl
    · unfold CleanupPass.pruneCall
      rw [Timestamp.before_of_nonneg hnow]
      rfl

/-- The longest threshold that can be set leaves time for handlers and points in time at the epoch;
a poll interval of zero is refused, though another variable does not fit its setting. -/
theorem accepted_settings_runnable_of_longest :
    let vars : Environment :=
      [("TASKLANE_STALE_THRESHOLD_MS", "1e30"), ("tasklane_worker_count", "Yes")]
    let s := { Settings.standard with staleMillis := 18446744073709551615, workerCount := 1 }
    let refused : Environment :=
      [("TASKLANE_POLL_INTERVAL_MS", "0"), ("TASKLANE_WORKER_COUNT", "many")]
    Settings.read vars = .ok s ∧
      (∃ limit, s.runnerConfig.handlerTimeout? = some limit ∧
        limit.nanos = 14757395258967641292000000) ∧
      0 ≤ (0 : Int) ∧ 0 ≤ Timestamp.latest ∧
      (∃ cutoff, Timestamp.InRange cutoff ∧
        CleanupPass.pruneCall s.runnerConfig 0 = .ok (.deleteOlderThan cutoff)) ∧
      (∀ v ∈ refused, Settings.Leads v.1) ∧
      ∃ tree, Settings.gather refused = .ok tree ∧ Settings.Unusable tree ∧
        ∃ e, Settings.read refused = .error e ∧ (e = .invalid ∨ ∃ fault, e = .config fault) := by
  intro vars s refused
  have hread : Settings.read vars = .ok s := by decide +kernel
  have hlatest : 0 ≤ Timestamp.latest := by decide
  obtain ⟨-, -, ⟨limit, hlimit, hnanos, -⟩, htimes⟩ := (accepted_settings_runnable vars).1 s hread
  have hleads : ∀ v ∈ refused, Settings.Leads v.1 := by decide +kernel
  obtain ⟨-, hrefused, -, hgathers⟩ := accepted_settings_runnable refused
  obtain ⟨tree, hgather⟩ := hgathers hleads
  have hpoll : (Settings.gather refused).toOption.map
      (fun tree => Settings.millisField tree .pollInterval) = some (.ok 0) := by
    decide +kernel
  rw [hgather] at hpoll
  have hunusable : Settings.Unusable tree := .inr (.inr ⟨.pollInterval, Option.some.inj hpoll⟩)
  exact ⟨hread, ⟨limit, hlimit, hnanos.trans (by decide +kernel)⟩, le_rfl, hlatest,
    (htimes 0 le_rfl hlatest).2.1, hleads, tree, hgather, hunusable,
    hrefused tree hgather hunusable⟩

/-- **No error without a tree.** A worker count of zero is refused, and is unusable; with a variable
that counts an entry from the end of a list that has none, in either order, reading breaks down and
answers no error. -/
theorem unusable_settings_break_down :
    let count : String × String := ("TASKLANE_WORKER_COUNT", "0")
    let queue : String × String := ("TASKLANE_QUEUES[-1]", "x")
    Settings.read [count] = .error (.config .noWorkers) ∧
      (∃ tree, Settings.gather [count] = .ok tree ∧ Settings.Unusable tree) ∧
      ∀ vars ∈ [[count, queue], [queue, count]], Settings.read vars = .error (.broken .difference) ∧
        ¬ ∃ e, Settings.read vars = .error e ∧ (e = .invalid ∨ ∃ fault, e = .config fault) := by
  intro count queue
  have hworkers : (Settings.gather [count]).toOption.map Settings.workersField = some (.ok 0) := by
    decide +kernel
  obtain ⟨tree, hgather⟩ : ∃ tree, Settings.gather [count] = .ok tree :=
    Settings.exists_gather (by decide +kernel)
  rw [hgather] at hworkers
  have hbroken : ∀ vars ∈ [[count, queue], [queue, count]],
      Settings.read vars = .error (.broken .difference) := by
    decide +kernel
  refine ⟨by decide +kernel, ⟨tree, hgather, .inl (Option.some.inj hworkers)⟩,
    fun vars hvars => ⟨hbroken vars hvars, ?_⟩⟩
  rintro ⟨e, he, rfl | ⟨fault, rfl⟩⟩ <;> cases (hbroken vars hvars).symm.trans he

end JobQueue
