import JobQueue.InFlight
import Mathlib.Data.List.Perm.Basic
import Mathlib.Data.String.Basic
import Mathlib.Tactic

/-! # The set of jobs in flight and those who hold them

A holder puts its job into the set and takes it out at its end. The set does not count holders, so
when one of several holders of a job ends, the job is out although others hold it. What the set
tells is therefore this: a job in the set has a holder (`InFlight.Covered`), and a job that has one
is in the set unless another holder of it has ended since the job was last put in
(`Guards.mem_after_iff_held`). While a job gets no second holder, it is in the set just when it is
held (`InFlight.ExactAt`).

Both relations of a set and a list of holders are kept by ends (`InFlight.Stable`), whoever the
holders are; so they are proved once for guards, here, and once for the workers of a system.

* `InFlight.ordered_track`, `InFlight.ordered_release`: the set is in increasing order.
* `Guards.stable_step`: what a step of guards keeps.
* `Guards.mem_after_iff_held`: **what is in the set after any steps.** -/

namespace JobQueue

namespace InFlight

/-! ### Order -/

theorem ordered_insertSorted {id : JobId} : ∀ {ids : List JobId}, ids.Pairwise (· < ·) →
    (insertSorted id ids).Pairwise (· < ·)
  | [], _ => List.pairwise_singleton _ _
  | other :: rest, h => by
    obtain ⟨hbefore, hrest⟩ := List.pairwise_cons.1 h
    unfold insertSorted
    split
    · next hlt =>
      refine List.pairwise_cons.2 ⟨fun x hx => ?_, h⟩
      rcases List.mem_cons.1 hx with rfl | hx
      · exact hlt
      · exact hlt.trans (hbefore x hx)
    · split
      · exact h
      · next hge hne =>
        refine List.pairwise_cons.2 ⟨fun x hx => ?_, ordered_insertSorted hrest⟩
        rcases mem_insertSorted.1 hx with rfl | hx
        · exact lt_of_le_of_ne (not_lt.1 hge) fun heq => hne heq.symm
        · exact hbefore x hx

theorem ordered_track {jobs : InFlight} (h : jobs.ids.Pairwise (· < ·)) (id : JobId) :
    (jobs.track id).ids.Pairwise (· < ·) :=
  ordered_insertSorted h

theorem ordered_release {jobs : InFlight} (h : jobs.ids.Pairwise (· < ·)) (id : JobId) :
    (jobs.release id).ids.Pairwise (· < ·) :=
  h.filter _

/-! ### Sets and holders -/

/-- **Every job in the set is held.** -/
def Covered (jobs : InFlight) (held : List JobId) : Prop := ∀ id ∈ jobs.ids, id ∈ held

/-- **The job is in the set just when it is held**, and it has no more than one holder. -/
structure ExactAt (id : JobId) (jobs : InFlight) (held : List JobId) : Prop where
  once : held.count id ≤ 1
  listed : id ∈ jobs.ids ↔ id ∈ held

/-- **The relation of a set and its holders is kept when a holder ends**, and their order does not
matter. -/
structure Stable (P : InFlight → List JobId → Prop) : Prop where
  perm : ∀ {jobs held held'}, P jobs held → held.Perm held' → P jobs held'
  release : ∀ {jobs held id}, P jobs (id :: held) → P (jobs.release id) held

variable {jobs : InFlight} {held : List JobId}

theorem stable_covered : Stable Covered where
  perm h hperm id hid := hperm.mem_iff.1 (h id hid)
  release h x hx := by
    obtain ⟨hmem, hne⟩ := mem_release.1 hx
    rcases List.mem_cons.1 (h x hmem) with rfl | hheld
    · exact absurd rfl hne
    · exact hheld

theorem stable_exactAt (id : JobId) : Stable (ExactAt id) where
  perm h hperm := ⟨hperm.count_eq id ▸ h.once, h.listed.trans hperm.mem_iff⟩
  release {jobs held x} h := by
    have honce := h.once
    by_cases hx : x = id
    · subst hx
      rw [List.count_cons_self] at honce
      have hfree : x ∉ held := List.count_eq_zero.1 (by omega)
      refine ⟨by omega, iff_of_false (fun hmem => (mem_release.1 hmem).2 rfl) hfree⟩
    · rw [List.count_cons_of_ne hx] at honce
      refine ⟨honce, ?_⟩
      rw [mem_release, h.listed, List.mem_cons]
      exact ⟨fun ⟨hmem, hne⟩ => hmem.resolve_left hne, fun hmem => ⟨.inr hmem, Ne.symm hx⟩⟩

theorem Stable.cons {P : InFlight → List JobId → Prop} (hP : Stable P) (id : JobId) :
    Stable fun jobs held => P jobs (id :: held) where
  perm h hperm := hP.perm h (hperm.cons id)
  release h := hP.release (hP.perm h (.swap _ _ _))

theorem Covered.track (h : jobs.Covered held) (id : JobId) :
    (jobs.track id).Covered (id :: held) := by
  intro x hx
  rcases mem_track.1 hx with rfl | hx
  · exact List.mem_cons_self
  · exact List.mem_cons_of_mem id (h x hx)

theorem ExactAt.track {id x : JobId} (h : jobs.ExactAt id held) (hnew : x = id → id ∉ held) :
    (jobs.track x).ExactAt id (x :: held) := by
  refine ⟨?_, by rw [mem_track, h.listed, List.mem_cons]⟩
  by_cases hx : x = id
  · rw [hx, List.count_cons_self, List.count_eq_zero.2 (hnew hx)]
  · rw [List.count_cons_of_ne hx]
    exact h.once

theorem perm_of_exactAt (h : ∀ id, jobs.ExactAt id held) (hordered : jobs.ids.Pairwise (· < ·)) :
    jobs.ids.Perm held :=
  (List.perm_ext_iff_of_nodup (hordered.imp fun hlt => hlt.ne)
    (List.nodup_iff_count_le_one.2 fun id => (h id).once)).2 fun id => (h id).listed

theorem covered_empty : empty.Covered [] := fun _ h => h

theorem exactAt_empty (id : JobId) : empty.ExactAt id [] := ⟨Nat.zero_le 1, Iff.rfl⟩

end InFlight

/-! ### Guards -/

namespace Guards

/-- **A step of guards**: a job is tracked by a new guard of a name, or the guard of a name is
dropped. -/
inductive Step where
  | track (name : String) (id : JobId)
  | drop (name : String)
deriving DecidableEq, Repr

namespace Step

def name : Step → String
  | track name _ => name
  | drop name => name

/-- The job that is tracked. -/
def tracked? : Step → Option JobId
  | track _ id => some id
  | drop _ => none

end Step

/-- The step is made. -/
def step (guards : Guards) : Step → Guards
  | .track name id => guards.track name id
  | .drop name => guards.release name

/-- **The guards after some steps**, the latest first. -/
def after : List Step → Guards
  | [] => empty
  | step :: earlier => (after earlier).step step

/-- The jobs of the guards that were not dropped. -/
def held (guards : Guards) : List JobId := guards.live.map (·.2)

/-- The job of the guard of the name. -/
def guarded? (guards : Guards) (name : String) : Option JobId :=
  (guards.live.find? fun g => g.1 == name).map (·.2)

/-- Each name stands for one guard. -/
def Named (guards : Guards) : Prop := (guards.live.map (·.1)).Nodup

variable {guards : Guards}

theorem release_of_none {name : String} (h : guards.guarded? name = none) :
    guards.release name = guards := by
  unfold release
  rw [Option.map_eq_none_iff.1 h]

theorem release_of_some {name : String} {id : JobId} (h : guards.guarded? name = some id) :
    guards.release name =
      ⟨guards.jobs.release id, guards.live.filter fun g => g.1 != name⟩ := by
  obtain ⟨g, hfind, rfl⟩ := Option.map_eq_some_iff.1 h
  unfold release
  rw [hfind]

theorem perm_of_find? {name : String} {g : String × JobId} :
    ∀ {live : List (String × JobId)}, (live.map (·.1)).Nodup →
      live.find? (fun other => other.1 == name) = some g →
      live.Perm (g :: live.filter fun other => other.1 != name)
  | [], _, h => nomatch h
  | first :: rest, hnamed, h => by
    obtain ⟨hnew, hrest⟩ := List.nodup_cons.1 hnamed
    by_cases hname : first.1 = name
    · have hothers : (first :: rest).filter (fun other => other.1 != name) = rest := by
        rw [List.filter_cons_of_neg (by simpa using hname)]
        refine List.filter_eq_self.2 fun other hother => bne_iff_ne.2 fun heq => hnew ?_
        exact List.mem_map.2 ⟨other, hother, heq.trans hname.symm⟩
      rw [List.find?_cons_of_pos (by simpa using hname)] at h
      rw [hothers, Option.some.inj h]
    · rw [List.find?_cons_of_neg (by simpa using hname)] at h
      rw [List.filter_cons_of_pos (by simpa using hname)]
      exact ((perm_of_find? hrest h).cons first).trans (.swap g first _)

theorem held_perm (hnamed : guards.Named) {name : String} {id : JobId}
    (h : guards.guarded? name = some id) :
    guards.held.Perm (id :: (guards.live.filter fun g => g.1 != name).map (·.2)) := by
  obtain ⟨g, hfind, rfl⟩ := Option.map_eq_some_iff.1 h
  exact (perm_of_find? hnamed hfind).map (·.2)

theorem named_release (hnamed : guards.Named) (name : String) :
    (guards.release name).Named ∧ name ∉ (guards.release name).live.map (·.1) := by
  cases hguarded : guards.guarded? name with
  | none =>
    rw [release_of_none hguarded]
    refine ⟨hnamed, fun hmem => ?_⟩
    obtain ⟨g, hg, hname⟩ := List.mem_map.1 hmem
    have hne := List.find?_eq_none.1 (Option.map_eq_none_iff.1 hguarded) g hg
    exact hne (by simpa using hname)
  | some id =>
    rw [release_of_some hguarded]
    refine ⟨hnamed.sublist (List.filter_sublist.map _), fun hmem => ?_⟩
    obtain ⟨g, hg, hname⟩ := List.mem_map.1 hmem
    exact bne_iff_ne.1 (List.mem_filter.1 hg).2 hname

theorem named_track (hnamed : guards.Named) (name : String) (id : JobId) :
    (guards.track name id).Named := by
  have hadded : Named ⟨guards.jobs.track id, guards.live⟩ := hnamed
  obtain ⟨hrest, hnew⟩ := named_release hadded name
  show ((_ ++ [(name, id)]).map (·.1)).Nodup
  rw [List.map_append, List.nodup_append]
  refine ⟨hrest, List.nodup_singleton _, fun a ha b hb hab => hnew ?_⟩
  obtain rfl : b = name := List.mem_singleton.1 hb
  exact hab ▸ ha

theorem named_step (hnamed : guards.Named) (step : Step) : (guards.step step).Named := by
  cases step with
  | track name id => exact named_track hnamed name id
  | drop name => exact (named_release hnamed name).1

theorem named_after : ∀ steps : List Step, (after steps).Named
  | [] => List.nodup_nil
  | step :: earlier => named_step (named_after earlier) step

/-! ### What steps keep -/

section Stable

variable {P : InFlight → List JobId → Prop} (hP : InFlight.Stable P)
include hP

theorem stable_release (hnamed : guards.Named) (h : P guards.jobs guards.held) (name : String) :
    P (guards.release name).jobs (guards.release name).held := by
  cases hguarded : guards.guarded? name with
  | none =>
    rw [release_of_none hguarded]
    exact h
  | some id =>
    rw [release_of_some hguarded]
    exact hP.release (hP.perm h (held_perm hnamed hguarded))

/-- **What a step of guards keeps**, if a tracked job may get a holder. -/
theorem stable_step (hnamed : guards.Named) (h : P guards.jobs guards.held) {step : Step}
    (htrack : ∀ id, step.tracked? = some id → P (guards.jobs.track id) (id :: guards.held)) :
    P (guards.step step).jobs (guards.step step).held := by
  cases step with
  | drop name => exact stable_release hP hnamed h name
  | track name id =>
    -- The new guard is there before the earlier one of its name is dropped.
    have htracked : P (guards.jobs.track id) (id :: guards.held) := htrack id rfl
    have hadded : Named ⟨guards.jobs.track id, guards.live⟩ := hnamed
    have hdropped := stable_release (hP.cons id) hadded htracked name
    refine hP.perm hdropped ?_
    show (id :: List.map _ _).Perm (List.map _ (_ ++ [(name, id)]))
    rw [List.map_append]
    exact (List.perm_append_singleton id _).symm

end Stable

/-! ### What is in the set -/

theorem mem_release_iff {name : String} {x : JobId} :
    x ∈ (guards.release name).jobs.ids ↔
      x ∈ guards.jobs.ids ∧ guards.guarded? name ≠ some x := by
  cases hguarded : guards.guarded? name with
  | none =>
    rw [release_of_none hguarded]
    exact ⟨fun h => ⟨h, nofun⟩, fun h => h.1⟩
  | some id =>
    rw [release_of_some hguarded, InFlight.mem_release, ne_eq, ne_eq, Option.some_inj]
    exact and_congr_right fun _ => not_congr eq_comm

theorem mem_step_iff {step : Step} {x : JobId} :
    x ∈ (guards.step step).jobs.ids ↔
      (step.tracked? = some x ∨ x ∈ guards.jobs.ids) ∧ guards.guarded? step.name ≠ some x := by
  cases step with
  | track name id =>
    show x ∈ (Guards.release ⟨guards.jobs.track id, guards.live⟩ name).jobs.ids ↔ _
    rw [mem_release_iff, InFlight.mem_track]
    show (x = id ∨ _) ∧ _ ↔ (some id = some x ∨ _) ∧ _
    rw [Option.some_inj, eq_comm (a := x)]
    rfl
  | drop name =>
    show x ∈ (guards.release name).jobs.ids ↔ (none = some x ∨ _) ∧ _
    rw [mem_release_iff]
    simp [Step.name]

/-- The job is tracked in some step. -/
def Tracked (id : JobId) (steps : List Step) : Prop := ∃ step ∈ steps, step.tracked? = some id

/-- **A guard of the job was dropped**, and the job was not tracked since. -/
inductive Dropped (id : JobId) : List Step → Prop
  | now {step : Step} {earlier : List Step} (h : (after earlier).guarded? step.name = some id) :
      Dropped id (step :: earlier)
  | before {step : Step} {earlier : List Step} (h : Dropped id earlier)
      (htracked : step.tracked? ≠ some id) : Dropped id (step :: earlier)

theorem dropped_cons {id : JobId} {step : Step} {earlier : List Step} :
    Dropped id (step :: earlier) ↔ (after earlier).guarded? step.name = some id ∨
      (Dropped id earlier ∧ step.tracked? ≠ some id) := by
  constructor
  · intro h
    cases h with
    | now h => exact .inl h
    | before h htracked => exact .inr ⟨h, htracked⟩
  · rintro (h | ⟨h, htracked⟩)
    · exact .now h
    · exact .before h htracked

/-- **In the set are the jobs that were tracked and of which no guard was dropped since.** -/
theorem mem_after_iff (id : JobId) : ∀ steps : List Step,
    id ∈ (after steps).jobs.ids ↔ Tracked id steps ∧ ¬ Dropped id steps
  | [] => by
    refine iff_of_false List.not_mem_nil ?_
    rintro ⟨⟨step, hstep, -⟩, -⟩
    exact List.not_mem_nil hstep
  | step :: earlier => by
    have htracked : Tracked id (step :: earlier) ↔ step.tracked? = some id ∨ Tracked id earlier :=
      List.exists_mem_cons_iff _ _ _
    show id ∈ ((after earlier).step step).jobs.ids ↔ _
    rw [mem_step_iff, mem_after_iff id earlier, htracked, dropped_cons]
    tauto

theorem ordered_after : ∀ steps : List Step, (after steps).jobs.ids.Pairwise (· < ·)
  | [] => List.Pairwise.nil
  | step :: earlier => by
    have hrelease : ∀ guards : Guards, guards.jobs.ids.Pairwise (· < ·) → ∀ name,
        (guards.release name).jobs.ids.Pairwise (· < ·) := fun guards h name => by
      unfold release
      split
      · exact h
      · exact InFlight.ordered_release h _
    have h := ordered_after earlier
    cases step with
    | track name id =>
      exact hrelease ⟨(after earlier).jobs.track id, (after earlier).live⟩
        (InFlight.ordered_track h id) name
    | drop name => exact hrelease _ h name

theorem covered_after : ∀ steps : List Step, (after steps).jobs.Covered (after steps).held
  | [] => InFlight.covered_empty
  | _ :: earlier =>
    stable_step InFlight.stable_covered (named_after earlier) (covered_after earlier)
      fun id _ => (covered_after earlier).track id

theorem tracked_of_held : ∀ (steps : List Step), ∀ id ∈ (after steps).held, Tracked id steps
  | [], _, hid => absurd hid List.not_mem_nil
  | step :: earlier, id, hid => by
    have hstable : InFlight.Stable fun _ held => ∀ x ∈ held, Tracked x (step :: earlier) :=
      ⟨fun h hperm x hx => h x (hperm.mem_iff.2 hx), fun h x hx => h x (List.mem_cons_of_mem _ hx)⟩
    have hearlier : ∀ x ∈ (after earlier).held, Tracked x (step :: earlier) := fun x hx => by
      obtain ⟨before, hbefore, htracked⟩ := tracked_of_held earlier x hx
      exact ⟨before, List.mem_cons_of_mem step hbefore, htracked⟩
    refine stable_step hstable (named_after earlier) hearlier (fun new hnew x hx => ?_) id hid
    rcases List.mem_cons.1 hx with rfl | hx
    · exact ⟨step, List.mem_cons_self, hnew⟩
    · exact hearlier x hx

/-- **In the set are the jobs with a guard of which no guard was dropped** since they were last
tracked. -/
theorem mem_after_iff_held (steps : List Step) (id : JobId) :
    id ∈ (after steps).jobs.ids ↔ id ∈ (after steps).held ∧ ¬ Dropped id steps := by
  rw [mem_after_iff]
  constructor
  · rintro ⟨htracked, hdropped⟩
    exact ⟨covered_after steps id ((mem_after_iff id steps).2 ⟨htracked, hdropped⟩), hdropped⟩
  · rintro ⟨hheld, hdropped⟩
    exact ⟨tracked_of_held steps id hheld, hdropped⟩

/-- The job is never tracked while a guard of it is there. -/
def Single (id : JobId) (steps : List Step) : Prop :=
  ∀ step earlier, step :: earlier <:+ steps → step.tracked? = some id → id ∉ (after earlier).held

/-- **While the job gets no second guard, it is in the set just when it has a guard.** -/
theorem exactAt_after (id : JobId) : ∀ steps : List Step, Single id steps →
    (after steps).jobs.ExactAt id (after steps).held
  | [], _ => InFlight.exactAt_empty id
  | step :: earlier, h => by
    have ih := exactAt_after id earlier fun step' before hsuffix =>
      h step' before (hsuffix.trans (List.suffix_cons step earlier))
    refine stable_step (InFlight.stable_exactAt id) (named_after earlier) ih fun x htracked =>
      ih.track fun hx => ?_
    subst hx
    exact h step earlier List.suffix_rfl htracked

end Guards

end JobQueue
