import JobQueue.Job.Basic

/-! # Retries

A failed attempt is repeated after a delay that grows in proportion to the number of the attempt,
until the attempts are used up.

* `delayFor`: `nanos_delayFor` says it in nanoseconds; `delayFor_mono`: it never shrinks from one
  attempt to the next.
* `decide`: what a failure of the current attempt leads to; `plan` also asks for the number of the
  attempt, which must fit its counter. -/

namespace JobQueue

/-- The delay after the first failed attempt. -/
structure RetryPolicy where
  baseDelay : Duration
deriving DecidableEq, Repr

/-- What follows a failed attempt. -/
inductive RetryDecision where
  /-- Another attempt after the delay. -/
  | retry (delay : Duration)
  /-- No attempt is left. -/
  | exhausted
deriving DecidableEq, Repr

namespace RetryPolicy

/-- **The delay after a failed attempt**: the base delay times the number of the attempt, which
counts as one when it is less, and at most the longest duration. -/
def delayFor (policy : RetryPolicy) (attempt : Int) : Duration :=
  policy.baseDelay.scale (max attempt 1).toNat

/-- **What a failure of the current attempt of the job leads to.** -/
def decide (policy : RetryPolicy) (job : Job) : RetryDecision :=
  if job.isLastAttempt then .exhausted else .retry (policy.delayFor job.currentAttempt)

/-- What a failure of the current attempt leads to, if the counter has room for the attempt. -/
def plan (policy : RetryPolicy) (job : Job) : Except Breakdown RetryDecision := do
  discard job.attempt
  return policy.decide job

theorem nanos_delayFor (policy : RetryPolicy) (attempt : Int) :
    (policy.delayFor attempt).nanos =
      min (policy.baseDelay.nanos * (max attempt 1).toNat) Duration.longest.nanos :=
  Duration.nanos_scale ..

theorem delayFor_mono (policy : RetryPolicy) {a b : Int} (h : a ≤ b) :
    (policy.delayFor a).nanos ≤ (policy.delayFor b).nanos := by
  rw [nanos_delayFor, nanos_delayFor]
  have : policy.baseDelay.nanos * (max a 1).toNat ≤ policy.baseDelay.nanos * (max b 1).toNat :=
    Nat.mul_le_mul_left _ (by omega)
  omega

end RetryPolicy

end JobQueue
