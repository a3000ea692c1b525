import JobQueue.Error

/-! # Jobs in flight

The set of jobs that workers hold, for overviews and for reporting what is left at a shutdown. A
job enters the set when it is tracked and leaves it when a guard of it is released; the set does
not count guards.

* `mem_track`, `mem_release`: what the two operations do to the set.
* `Guards`: named guards on one set. -/

namespace JobQueue

/-- **The jobs in flight**, in increasing order. -/
structure InFlight where
  ids : List JobId
deriving DecidableEq, Repr

namespace InFlight

def empty : InFlight := ⟨[]⟩

/-- An id takes its place in an increasing list. -/
def insertSorted (id : JobId) : List JobId → List JobId
  | [] => [id]
  | other :: rest =>
    if id < other then id :: other :: rest
    else if id = other then other :: rest
    else other :: insertSorted id rest

def track (jobs : InFlight) (id : JobId) : InFlight := ⟨insertSorted id jobs.ids⟩

def release (jobs : InFlight) (id : JobId) : InFlight := ⟨jobs.ids.filter (· ≠ id)⟩

def size (jobs : InFlight) : Nat := jobs.ids.length

theorem mem_insertSorted {id x : JobId} {ids : List JobId} :
    x ∈ insertSorted id ids ↔ x = id ∨ x ∈ ids := by
  induction ids with
  | nil => simp [insertSorted]
  | cons other rest ih =>
    unfold insertSorted
    split
    · simp
    · split
      · rename_i h
        subst h
        simp
      · simp only [List.mem_cons, ih]
        constructor
        · rintro (h | h | h)
          · exact .inr (.inl h)
          · exact .inl h
          · exact .inr (.inr h)
        · rintro (h | h | h)
          · exact .inr (.inl h)
          · exact .inl h
          · exact .inr (.inr h)

@[simp] theorem mem_track {jobs : InFlight} {id x : JobId} :
    x ∈ (jobs.track id).ids ↔ x = id ∨ x ∈ jobs.ids := mem_insertSorted

@[simp] theorem mem_release {jobs : InFlight} {id x : JobId} :
    x ∈ (jobs.release id).ids ↔ x ∈ jobs.ids ∧ x ≠ id := by
  simp [release]

end InFlight

/-! ### Named guards -/

/-- A set with the guards that were given out and not released. -/
structure Guards where
  jobs : InFlight
  live : List (String × JobId)
deriving DecidableEq, Repr

namespace Guards

def empty : Guards := ⟨.empty, []⟩

/-- The guard of that name is released, if there is one. -/
def release (guards : Guards) (name : String) : Guards :=
  match guards.live.find? fun g => g.1 == name with
  | none => guards
  | some g => ⟨guards.jobs.release g.2, guards.live.filter fun g => g.1 != name⟩

/-- A job is tracked by a new guard. An earlier guard of that name is released afterwards. -/
def track (guards : Guards) (name : String) (id : JobId) : Guards :=
  let rest := Guards.release ⟨guards.jobs.track id, guards.live⟩ name
  ⟨rest.jobs, rest.live ++ [(name, id)]⟩

end Guards

end JobQueue
